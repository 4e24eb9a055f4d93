import TextureAtlas.CommandLine.Log
import TextureAtlas.Files.Load

/-!
# Runs of a command

A command works on a session: a file tree, the log and what has been printed. It ends well or in
trouble, and what it had done by then stays done. A trouble is told as a chain, from what was being
done down to the cause.
-/

namespace TextureAtlas.CommandLine

/-- One link of the chain that tells a trouble. -/
inductive Link where
  | text (s : String)
  /-- A YAML document that does not hold settings. -/
  | badYaml
  /-- A glob that cannot be read. -/
  | badGlob
  deriving DecidableEq, Repr

def Link.message : Link → String
  | text s => s
  | badYaml => "no settings in YAML"
  | badGlob => "no well-formed glob"

/-- Why a command could not go on. -/
inductive Trouble where
  | unknownOrder (given : String)
  | configUnreadable (path : Path) (cause : IoError)
  | configMalformed (path : Path)
  | settingsInvalid (cause : AtlasError)
  | outDirNotCreated (path : Path) (cause : IoError)
  | directoryNotCreated (path : Path) (cause : IoError)
  | noPalette (dataDirs : List Path)
  | paletteNotLoaded (path : Path) (cause : AtlasError)
  | badGlob (pattern : String)
  | badUnitPattern (pattern : String)
  | noMesh (unit : String) (dataDirs : List Path)
  | meshNotLoaded (path : Path) (cause : AtlasError)
  | noRoots (path : Path)
  | notComposed (cause : AtlasError)
  | doesNotFit (unit : String) (width height : Nat)
  | notWritten (path : Path) (cause : IoError)

/-- The links that tell a failure of the compositor. One of a file is told twice, with and without
its kind. -/
def causeChain : AtlasError → List Link
  | .io cause => [.text (AtlasError.io cause).message, .text cause.message]
  | e => [.text e.message]

/-- The chain that tells the trouble. -/
def Trouble.chain : Trouble → List Link
  | unknownOrder given => [.text s!"unknown channel order: {given} (expected bgrx or rgbx)"]
  | configUnreadable path cause => [.text s!"read config {path.text}", .text cause.message]
  | configMalformed path => [.text s!"parse config {path.text}", .badYaml]
  | settingsInvalid cause => .text "invalid atlas configuration" :: causeChain cause
  | outDirNotCreated path cause => [.text s!"create out_dir {path.text}", .text cause.message]
  | directoryNotCreated path cause => [.text s!"create {path.text}", .text cause.message]
  | noPalette dataDirs =>
    let shown := Path.quotedList dataDirs
    [.text s!"no palettes/PALETTE.PAL under {shown}; pass --palette"]
  | paletteNotLoaded path cause => .text s!"load palette {path.text}" :: causeChain cause
  | badGlob pattern => [.text s!"bad glob {pattern}", .badGlob]
  | badUnitPattern pattern => [.text s!"bad unit pattern {pattern}", .badGlob]
  | noMesh unit dataDirs =>
    let shown := Path.quotedList dataDirs
    [.text s!"no objects3d/{unit}.json under {shown}"]
  | meshNotLoaded path cause => .text s!"load mesh {path.text}" :: causeChain cause
  | noRoots path => [.text s!"mesh {path.text} has no root objects"]
  | notComposed cause => causeChain cause
  | doesNotFit unit width height => [.text s!"textures of {unit} do not fit a {width}x{height} canvas"]
  | notWritten path cause => [.text s!"write {path.text}", .text cause.message]

/-- The trouble in one line. -/
def Trouble.line (t : Trouble) : String := ": ".intercalate (t.chain.map Link.message)

/-- What a command works on. -/
structure Session where
  files : FileTree
  log : List LogEvent := []
  output : String := ""

/-- Something done in a session, which may end in trouble. -/
abbrev Run (α : Type) := ExceptT Trouble (StateM Session) α

namespace Run

/-- The file tree as it is now. -/
def files : Run FileTree := return (← get).files

/-- Reports an event. -/
def report (e : LogEvent) : Run Unit := modify fun s => { s with log := s.log ++ [e] }

/-- Prints a line. -/
def print (line : String) : Run Unit := modify fun s => { s with output := s.output ++ line ++ "\n" }

/-- A result of the library; a failure becomes a trouble. -/
def lift (trouble : ε → Trouble) : Except ε α → Run α
  | .ok a => pure a
  | .error e => throw (trouble e)

/-- Writes a file. -/
def write (p : Path) (content : FileContent) : Run Unit := do
  let t ← lift (.notWritten p) ((← files).write p content)
  modify fun s => { s with files := t }

/-- Makes a directory with whatever is missing above it. -/
def createAll (p : Path) (trouble : IoError → Trouble) : Run Unit := do
  let made := (← files).createAll p
  modify fun s => { s with files := made.2 }
  lift trouble made.1

/-- Does something, and goes on also after trouble. -/
def attempt (x : Run α) : Run (Except Trouble α) := ExceptT.lift (ExceptT.run x)

end Run
end TextureAtlas.CommandLine
