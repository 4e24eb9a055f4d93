import TextureAtlas.CommandLine.Session
import TextureAtlas.Glob
import TextureAtlas.TextureIndex

/-!
# What lies in the data directories

A data directory has units in `objects3d`, archives in `textures` and a palette in `palettes`. Of
several directories the first that has a file provides it. Archives are indexed directory by directory
and in the order of the walk below `textures`.
-/

namespace TextureAtlas

/-! ## Filters of paths -/

/-- The globs of the texts, or the first text that is none. -/
def Glob.ofTexts : List String → Except String (List Glob)
  | [] => .ok []
  | s :: rest => do
    match ofText? s with
    | some g => return g :: (← ofTexts rest)
    | none => throw s

/-- The filter that lets through what matches an inclusion, if there are any, and no exclusion. -/
def PathFilter.ofTexts (inclusions exclusions : List String) : Except String PathFilter := do
  let included ← Glob.ofTexts inclusions
  let excluded ← Glob.ofTexts exclusions
  return ⟨if inclusions.isEmpty then none else some included, excluded⟩

namespace FileTree

/-! ## Single files -/

/-- The file under the given names in the first directory that has it. -/
def firstFile (t : FileTree) (dataDirs : List Path) (names : List String) : Option Path :=
  (dataDirs.map fun d => d.joinAll names).find? t.isFile

/-- The palette that the data directories provide. -/
def findPalette (t : FileTree) (dataDirs : List Path) : Option Path :=
  t.firstFile dataDirs ["palettes", "PALETTE.PAL"]

/-- The mesh of a unit. -/
def findMesh (t : FileTree) (dataDirs : List Path) (unit : String) : Option Path :=
  t.firstFile dataDirs ["objects3d", unit ++ ".json"]

/-! ## Units -/

/-- What the name of a wreck ends in. -/
def wreckSuffix : String := "_dead"

/-- Whether the name is that of a wreck. -/
def isWreck (name : String) : Bool := wreckSuffix.toList.isSuffixOf name.toList

/-- The units right in a directory: named mesh files, wrecks aside. -/
def unitsIn (t : FileTree) (glob : Glob) (objects : Path) : List String :=
  ((t.filesIn objects).filter (·.isJson)).filterMap fun p =>
    p.stem?.filter fun unit => !isWreck unit && glob.isMatch unit

/-- The units of all data directories. -/
def units (t : FileTree) (glob : Glob) (dataDirs : List Path) : NameSet :=
  NameTable.ofNames (dataDirs.flatMap fun d => t.unitsIn glob (d.join "objects3d"))

/-! ## Archives -/

/-- The archive files below a path, or the path itself, as far as the filter lets them through. -/
def archiveFiles (t : FileTree) (filter : PathFilter) (p : Path) : List Path :=
  (if t.isFile p then [p] else t.filesBelow p).filter fun q => !filter.skips q.text && q.isJson

end FileTree

/-- What is met where archives are looked for. -/
inductive TextureSource where
  | missing (directory : Path)
  | unreadable (file : Path) (cause : AtlasError)
  | archive (archive : Archive)

namespace TextureSource

/-- What is reported of it. -/
def event? : TextureSource → Option LogEvent
  | missing directory => some (.texturesMissing directory)
  | unreadable file cause => some (.archiveSkipped file cause.message)
  | archive _ => none

/-- The archive that it gives. -/
def archive? : TextureSource → Option Archive
  | archive a => some a
  | _ => none

end TextureSource

namespace FileTree

/-- What an archive file gives. -/
def textureSource (t : FileTree) (file : Path) : TextureSource :=
  match t.loadArchive file with
  | .ok a => .archive a
  | .error cause => .unreadable file cause

/-- What a data directory gives. -/
def textureSourcesIn (t : FileTree) (filter : PathFilter) (textures : Path) : List TextureSource :=
  if t.isDirectory textures then (t.archiveFiles filter textures).map t.textureSource
  else [.missing textures]

/-- What the data directories give, in their order. -/
def textureSources (t : FileTree) (filter : PathFilter) (dataDirs : List Path) : List TextureSource :=
  dataDirs.flatMap fun d => t.textureSourcesIn filter (d.join "textures")

end FileTree

namespace CommandLine

/-- The archive files below a path under the given globs. -/
def gatherArchives (inclusions exclusions : List String) (p : Path) : Run (List Path) := do
  let filter ← Run.lift .badGlob (PathFilter.ofTexts inclusions exclusions)
  return (← Run.files).archiveFiles filter p

/-- The units that match the pattern; directories without units are reported. -/
def discoverUnits (dataDirs : List Path) (pattern : String) : Run NameSet := do
  match Glob.ofText? pattern with
  | none => throw (.badUnitPattern pattern)
  | some glob =>
    let t ← Run.files
    ((dataDirs.map (·.join "objects3d")).filter fun d => !t.isDirectory d).forM fun d =>
      Run.report (.objectsMissing d)
    return t.units glob dataDirs

/-- The index of the archives that the globs let through. Missing directories and unreadable files are
reported. A malformed glob matters as soon as a directory is searched. -/
def indexTextures (dataDirs : List Path) (inclusions exclusions : List String) : Run TextureIndex := do
  let t ← Run.files
  match PathFilter.ofTexts inclusions exclusions with
  | .ok filter =>
    let sources := t.textureSources filter dataDirs
    (sources.filterMap TextureSource.event?).forM Run.report
    return .ofArchives (sources.filterMap TextureSource.archive?)
  | .error glob =>
    let directories := dataDirs.map (·.join "textures")
    (directories.takeWhile fun d => !t.isDirectory d).forM fun d => Run.report (.texturesMissing d)
    if directories.any t.isDirectory then throw (.badGlob glob) else return {}

end CommandLine
end TextureAtlas
