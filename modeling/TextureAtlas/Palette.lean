import TextureAtlas.Settings

/-!
# Palettes

A palette is a table of colours, held as `0xXXRRGGBB` words whatever the byte order of the file it
came from. A file is a run of four-byte entries in one of two orders; decoding and encoding are
inverse to each other.
-/

namespace TextureAtlas

/-- An 8-bit colour. -/
structure Rgb where
  r : UInt8
  g : UInt8
  b : UInt8
  deriving DecidableEq, Repr, Inhabited

/-- A table of colour words. -/
structure Palette where
  words : Array UInt32
  deriving DecidableEq, Repr

namespace Palette

/-- The word with its lowest and its third byte exchanged. -/
def swapRedBlue (w : UInt32) : UInt32 :=
  (w &&& (0xFF00FF00 : UInt32)) ||| ((w >>> 16) &&& (0xFF : UInt32)) |||
    ((w &&& (0xFF : UInt32)) <<< 16)

/-- Changes a word between file order `o` and the order of the table, in either direction. -/
def reorder : ChannelOrder → UInt32 → UInt32
  | .bgrx, w => w
  | .rgbx, w => swapRedBlue w

/-- The table of the given words; an empty one is refused. -/
def ofWords (words : Array UInt32) : Except AtlasError Palette :=
  if words.isEmpty then .error (.invalidPalette .noEntries) else .ok ⟨words⟩

/-- Four bytes as a little-endian word. -/
def wordOfBytes (b₀ b₁ b₂ b₃ : UInt8) : UInt32 :=
  b₀.toUInt32 ||| (b₁.toUInt32 <<< 8) ||| (b₂.toUInt32 <<< 16) ||| (b₃.toUInt32 <<< 24)

/-- The bytes of a word, lowest first. -/
def bytesOfWord (w : UInt32) : List UInt8 :=
  [w.toUInt8, (w >>> 8).toUInt8, (w >>> 16).toUInt8, (w >>> 24).toUInt8]

/-- The words of a run of whole entries; fewer than four bytes at the end are left out. -/
def wordsOfBytes : List UInt8 → List UInt32
  | b₀ :: b₁ :: b₂ :: b₃ :: rest => wordOfBytes b₀ b₁ b₂ b₃ :: wordsOfBytes rest
  | _ => []

/-- Decodes a palette file: at least one entry, and whole entries only. -/
def ofBytes (bytes : List UInt8) (order : ChannelOrder) : Except AtlasError Palette :=
  if bytes.isEmpty then .error (.invalidPalette .emptyFile)
  else if bytes.length % 4 ≠ 0 then .error (.invalidPalette (.truncated bytes.length))
  else ofWords ((wordsOfBytes bytes).map (reorder order)).toArray

/-- Encodes the table as a palette file. -/
def toBytes (p : Palette) (order : ChannelOrder) : List UInt8 :=
  p.words.toList.flatMap fun w => bytesOfWord (reorder order w)

def size (p : Palette) : Nat := p.words.size

/-- The word of an index. -/
def word? (p : Palette) (index : UInt8) : Option UInt32 := p.words[index.toNat]?

/-- The colour of an index; past the end of the table it is black. -/
def rgb (p : Palette) (index : UInt8) : Rgb :=
  match p.word? index with
  | some w => ⟨(w >>> 16).toUInt8, (w >>> 8).toUInt8, w.toUInt8⟩
  | none => ⟨0, 0, 0⟩

end Palette
end TextureAtlas
