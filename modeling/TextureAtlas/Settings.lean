import TextureAtlas.Error

/-!
# Settings of the compositor

Canvas widths to try, the side of a colour swatch, the team-colour threshold, and how an archive of
team-colour paint and the byte order of a palette file are recognised.
-/

namespace TextureAtlas

/-- ASCII letters in lower case; every other character stays. -/
def lowerAscii (s : String) : List Char := s.toList.map Char.toLower

/-- Byte order of the four bytes of a palette entry. -/
inductive ChannelOrder where
  /-- Blue, green, red, spare. -/
  | bgrx
  /-- Red, green, blue, spare. -/
  | rgbx
  deriving DecidableEq, Repr, Inhabited

namespace ChannelOrder

/-- The name a document uses. -/
def name : ChannelOrder → String
  | .bgrx => "bgrx"
  | .rgbx => "rgbx"

/-- The order that a user's text names: with or without the spare byte, in any case. -/
def ofText? (s : String) : Option ChannelOrder :=
  let t := lowerAscii s
  if t = "bgrx".toList ∨ t = "bgr".toList then some .bgrx
  else if t = "rgbx".toList ∨ t = "rgb".toList then some .rgbx
  else none

/-- The order that a document names, exactly. -/
def ofName? (s : String) : Option ChannelOrder :=
  if s = bgrx.name then some .bgrx else if s = rgbx.name then some .rgbx else none

theorem ofName?_name (o : ChannelOrder) : ofName? o.name = some o := by cases o <;> decide

end ChannelOrder

/-- What the compositor may be told. -/
structure Settings where
  /-- Least canvas width to try. -/
  minWidth : UInt32 := 64
  /-- Greatest canvas width to try. -/
  maxWidth : UInt32 := 2048
  /-- Whether each width is also tried twice as tall as wide. -/
  tallVariants : Bool := true
  /-- Side of the swatch for a palette colour. -/
  swatchSize : UInt32 := 4
  /-- Saturation above which team-colour paint counts as team colour. -/
  logoThreshold : Float32 := 0.333
  /-- Part of an archive's name that marks team-colour paint. -/
  logoMarker : String := "logos.gaf"
  channelOrder : ChannelOrder := .bgrx
  deriving Inhabited

/-- A power of two. -/
def isPowerOfTwo (n : Nat) : Bool := n ≠ 0 && n = Nat.pow 2 n.log2

theorem isPowerOfTwo_iff (n : Nat) : isPowerOfTwo n = true ↔ ∃ k, n = Nat.pow 2 k := by
  constructor
  · intro h
    simp only [isPowerOfTwo, Bool.and_eq_true, decide_eq_true_eq] at h
    exact ⟨_, h.2⟩
  · rintro ⟨k, rfl⟩
    simp [isPowerOfTwo, Nat.pow_eq, Nat.log2_two_pow]

namespace Settings

/-- The first fault of the settings, in the order widths, their order, swatch, threshold. -/
def validate (s : Settings) : Except AtlasError Unit :=
  if !isPowerOfTwo s.minWidth.toNat then
    .error (.invalidDimensions s.minWidth.toNat s.minWidth.toNat)
  else if !isPowerOfTwo s.maxWidth.toNat then
    .error (.invalidDimensions s.maxWidth.toNat s.maxWidth.toNat)
  else if s.maxWidth < s.minWidth then
    .error (.invalidSettings (.widthsInverted s.minWidth s.maxWidth))
  else if s.swatchSize = 0 then .error (.invalidSettings .emptySwatch)
  else if !(0 ≤ s.logoThreshold && s.logoThreshold ≤ 1) then
    .error (.invalidSettings (.thresholdOutside s.logoThreshold))
  else .ok ()

/-- Settings that pass `validate`. -/
def Valid (s : Settings) : Prop := s.validate = .ok ()

/-- Whether `part` occurs in `whole`. -/
def occursIn (part : List Char) : List Char → Bool
  | [] => part.isEmpty
  | c :: rest => part.isPrefixOf (c :: rest) || occursIn part rest

/-- Whether an archive of this name holds team-colour paint: the marker occurs in the name, ASCII
case aside. An empty marker marks nothing. -/
def isLogoArchive (s : Settings) (archive : String) : Bool :=
  !s.logoMarker.isEmpty && occursIn (lowerAscii s.logoMarker) (lowerAscii archive)

end Settings
end TextureAtlas
