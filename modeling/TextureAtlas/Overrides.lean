import TextureAtlas.Settings

/-!
# Settings that take precedence

A user may state some settings in a file of their own. Each stated value replaces the one that held
before; what is left unsaid stays.
-/

namespace TextureAtlas

/-- The settings that a user states. The byte order is stated as text. -/
structure Overrides where
  minWidth : Option UInt32 := none
  maxWidth : Option UInt32 := none
  tallVariants : Option Bool := none
  swatchSize : Option UInt32 := none
  logoThreshold : Option Float32 := none
  logoMarker : Option String := none
  channelOrder : Option String := none

/-- The settings under the overrides. A byte order that names none is passed over. -/
def Settings.overridden (s : Settings) (o : Overrides) : Settings where
  minWidth := o.minWidth.getD s.minWidth
  maxWidth := o.maxWidth.getD s.maxWidth
  tallVariants := o.tallVariants.getD s.tallVariants
  swatchSize := o.swatchSize.getD s.swatchSize
  logoThreshold := o.logoThreshold.getD s.logoThreshold
  logoMarker := o.logoMarker.getD s.logoMarker
  channelOrder := (o.channelOrder.bind ChannelOrder.ofText?).getD s.channelOrder

end TextureAtlas
