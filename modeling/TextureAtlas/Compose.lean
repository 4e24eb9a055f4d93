import TextureAtlas.Sink
import TextureAtlas.Sizes
import TextureAtlas.TextureIndex

/-!
# Composing an atlas

The requested names are taken in ascending order. A name that a reader provides is streamed from it;
any other swatch name gets its swatch; the rest is passed over. The size search tries one canvas size
after another until every name fits.
-/

namespace TextureAtlas

/-- Brings one name onto the canvas. -/
def Sink.ingest (index : TextureIndex) (settings : Settings) (s : Sink) (name : String) :
    Except AtlasError Unit × Sink :=
  match index.lookup name with
  | some reader => reader.extract name Sink.receiver (s.setLogo (settings.isLogoArchive reader.name))
  | none =>
    match s.synthesizeNamed name with
    | (.ok _, s) => (.ok (), s)
    | (.error e, s) => (.error e, s)

/-- Brings the names onto the canvas one by one, until one fails. -/
def Sink.ingestAll (index : TextureIndex) (settings : Settings) :
    List String → Sink → Except AtlasError Sink
  | [], s => .ok s
  | name :: rest, s =>
    match s.ingest index settings name with
    | (.ok (), s) => ingestAll index settings rest s
    | (.error e, _) => .error e

/-- One attempt: every name on a fresh canvas of the given size. -/
def composeAtSize (names : NameSet) (index : TextureIndex) (settings : Settings) (width height : Nat) :
    Except AtlasError Atlas := do
  let s ← Sink.blank? width height
  let s ← Sink.ingestAll index settings names.names { s with swatchSize := settings.swatchSize }
  return s.finish

/-- The attempts at the given sizes, up to the first that does not end with a full canvas. -/
def composeAmong (names : NameSet) (index : TextureIndex) (settings : Settings) :
    List (Nat × Nat) → Except AtlasError (Option Atlas)
  | [] => .ok none
  | (width, height) :: rest =>
    match composeAtSize names index settings width height with
    | .ok atlas => .ok (some atlas)
    | .error e => if e.isBufferFull then composeAmong names index settings rest else .error e

/-- The atlas of the names on the first candidate canvas that holds them; `none` if none does. -/
def compose (names : NameSet) (index : TextureIndex) (settings : Settings) :
    Except AtlasError (Option Atlas) := do
  settings.validate
  composeAmong names index settings settings.sizes

end TextureAtlas
