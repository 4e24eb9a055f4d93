import TextureAtlas.Export

/-!
# Picture files

An image as a PNG file: 8 bits a channel with opacity, every row unfiltered, and the pixel data stored
without compression.
-/

namespace TextureAtlas.Png

/-- The bytes with a 32-bit number behind them, highest byte first. -/
def pushWord (bytes : ByteArray) (n : UInt32) : ByteArray :=
  (((bytes.push (n >>> 24).toUInt8).push (n >>> 16).toUInt8).push (n >>> 8).toUInt8).push n.toUInt8

/-! ## Checksums -/

/-- One step of the checksum of a chunk, for one bit. -/
def crcBit (c : UInt32) : UInt32 :=
  if c &&& (1 : UInt32) = 1 then (0xEDB88320 : UInt32) ^^^ (c >>> 1) else c >>> 1

/-- The steps of the checksum of a chunk for each byte alone. -/
def crcTable : Array UInt32 :=
  Array.ofFn fun i : Fin 256 => (List.range 8).foldl (fun c _ => crcBit c) i.val.toUInt32

/-- One step of the checksum of a chunk, for one byte. -/
def crcByte (c : UInt32) (b : UInt8) : UInt32 :=
  crcTable.getD (c ^^^ b.toUInt32).toUInt8.toNat 0 ^^^ (c >>> 8)

/-- The checksum of a chunk. -/
def crc (bytes : ByteArray) : UInt32 := (bytes.foldl crcByte 0xFFFFFFFF) ^^^ (0xFFFFFFFF : UInt32)

/-- The checksum of the pixel data. -/
def adler (bytes : ByteArray) : UInt32 :=
  let sums := bytes.foldl (fun (s : UInt32 × UInt32) b =>
    let a := (s.1 + b.toUInt32) % 65521
    (a, (s.2 + a) % 65521)) (1, 0)
  (sums.2 <<< 16) ||| sums.1

/-! ## Chunks -/

/-- A chunk: its length, its type, its data and their checksum. -/
def chunk (type : String) (data : ByteArray) : ByteArray :=
  let body := type.toUTF8 ++ data
  pushWord (pushWord .empty data.size.toUInt32 ++ body) (crc body)

/-- Data from an offset on in stored blocks of at most 65535 bytes, the last one marked. -/
def storeBlocks (data : ByteArray) : Nat → Nat → ByteArray → ByteArray
  | 0, _, out => out
  | blocks + 1, offset, out =>
    let n := min 65535 (data.size - offset)
    let header := ((((out.push (if blocks = 0 then 1 else 0)).push n.toUInt8).push (n / 256).toUInt8).push
      (65535 - n).toUInt8).push ((65535 - n) / 256).toUInt8
    storeBlocks data blocks (offset + n) (header ++ data.extract offset (offset + n))

/-- The rows of an image, each behind a byte that says it is unfiltered. -/
def rows (r : Raster) : ByteArray :=
  (List.range r.height).foldl (fun out y =>
    (r.pixels.extract (y * r.width) (y * r.width + r.width)).foldl
      (fun out c => (((out.push c.r).push c.g).push c.b).push c.a) (out.push 0)) .empty

/-- The image as a picture file. -/
def encode (r : Raster) : ByteArray :=
  let data := rows r
  let header := pushWord (pushWord .empty r.width.toUInt32) r.height.toUInt32 ++ ⟨#[8, 6, 0, 0, 0]⟩
  let stream := storeBlocks data ((data.size - 1) / 65535 + 1) 0 ⟨#[0x78, 0x01]⟩
  ⟨#[0x89, 0x50, 0x4E, 0x47, 0x0D, 0x0A, 0x1A, 0x0A]⟩ ++ chunk "IHDR" header ++
    chunk "IDAT" (pushWord stream (adler data)) ++ chunk "IEND" .empty

end TextureAtlas.Png
