import Std.Data.HashMap
import TextureAtlas.Archive

/-!
# The texture index

Readers are consulted in the order in which they were added: a texture belongs to the first reader
that announces its name. The index keeps the position of that reader for each name.
-/

namespace TextureAtlas

/-- Readers in order, and for each announced name the position of its reader. -/
structure TextureIndex where
  readers : Array Reader := #[]
  byName : Std.HashMap String Nat := {}

namespace TextureIndex

/-- Adds a reader behind the others; names that are taken stay with their reader. -/
def push (t : TextureIndex) (r : Reader) : TextureIndex where
  readers := t.readers.push r
  byName := r.announced.foldl (fun m name => m.insertIfNew name t.readers.size) t.byName

/-- The index of the readers, in their order. -/
def ofReaders (readers : List Reader) : TextureIndex := readers.foldl push {}

/-- The index of the archives, in their order. -/
def ofArchives (archives : List Archive) : TextureIndex := ofReaders (archives.map .ofArchive)

/-- The reader that provides the texture. -/
def lookup (t : TextureIndex) (name : String) : Option Reader :=
  t.byName[name]?.bind fun i => t.readers[i]?

/-- Number of readers. -/
def numReaders (t : TextureIndex) : Nat := t.readers.size

/-- Number of distinct texture names. -/
def numTextures (t : TextureIndex) : Nat := t.byName.size

end TextureIndex
end TextureAtlas
