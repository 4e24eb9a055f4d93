import TextureAtlas.Document.Archive
import TextureAtlas.Document.Mesh
import TextureAtlas.Files.Png
import TextureAtlas.Files.Tree
import TextureAtlas.Palette

/-!
# Loading files

Texts, archives, meshes and palettes out of a file tree.
-/

namespace TextureAtlas

/-- The bytes of a file. -/
def FileContent.toBytes : FileContent → ByteArray
  | bytes data => data
  | picture raster => Png.encode raster

/-- A file that holds a text. -/
def FileContent.ofText (s : String) : FileContent := .bytes s.toUTF8

namespace FileTree

/-- The bytes of a file. -/
def readBytes (t : FileTree) (p : Path) : Except IoError ByteArray := (t.read p).map (·.toBytes)

/-- The text of a file. -/
def readText (t : FileTree) (p : Path) : Except IoError String := do
  match String.fromUTF8? (← t.readBytes p) with
  | some s => return s
  | none => throw .invalidUtf8

/-- The archive in a file; one without a name is called like its file. -/
def loadArchive (t : FileTree) (p : Path) : Except AtlasError Archive := do
  let a ← Archive.ofText (← (t.readText p).mapError .io)
  return if a.name.isEmpty then { a with name := p.fileName?.getD "" } else a

/-- The mesh trees in a file. -/
def loadMesh (t : FileTree) (p : Path) : Except AtlasError (List MeshObject) := do
  MeshObject.rootsOfText (← (t.readText p).mapError .io)

/-- The palette in a file. -/
def loadPalette (t : FileTree) (p : Path) (order : ChannelOrder) : Except AtlasError Palette := do
  Palette.ofBytes (← (t.readBytes p).mapError .io).toList order

end FileTree
end TextureAtlas
