import TextureAtlas.CommandLine.Commands

/-!
# The program

Takes a snapshot of what the command names on disk, runs the command on it, and brings what has changed
back to disk. The log goes to the error stream.
-/

namespace TextureAtlas.CommandLine

/-! ## What a command touches -/

/-- What a conversion reads. -/
def AtlasOptions.inputs (o : AtlasOptions) : List Path :=
  o.palette.toList ++ o.config.toList ++
    o.dataDirs.flatMap fun d => ["objects3d", "textures", "palettes"].map d.join

/-- What the command reads. -/
def Command.inputs : Command → List Path
  | .convert _ _ options => options.inputs
  | .batch _ options => options.inputs
  | .palette input _ _ _ => [input]

/-- Where the command writes. -/
def Command.outputs : Command → List Path
  | .convert _ jsonOut options => options.outDir :: jsonOut.toList
  | .batch _ options => [options.outDir]
  | .palette _ output _ _ => [output]

/-! ## Disk and snapshot -/

/-- The path of a location on disk. -/
def diskPath (l : Location) : String := "/" ++ "/".intercalate l

/-- The location that the steps of a path lead to. -/
def walk (l : Location) : List String → Location
  | [] => l
  | step :: rest =>
    walk (if step = "." then l else if step = ".." then l.dropLast else l ++ [step]) rest

/-- Adds what is found at a location and below it, `levels` deep. -/
def addFound (withBytes : Bool) : Nat → FileTree → Location → IO FileTree
  | 0, t, _ => return t
  | levels + 1, t, l => do
    let here ← IO.currentDir
    let place := here / diskPath l
    if ← place.isDir then
      (← place.readDir).foldlM (fun t e => addFound withBytes levels t (l ++ [e.fileName]))
        (if l.isEmpty then t else t.store l .directory)
    else if ← place.pathExists then
      let data ← if withBytes then IO.FS.readBinFile place else pure .empty
      return t.store l (.file (.bytes data))
    else return t

/-- Adds the directories that lead to a location. -/
def addAbove (t : FileTree) (l : Location) : IO FileTree :=
  (List.range l.length).foldlM (fun t n => addFound false 1 t (l.take n)) t

/-- The snapshot that a command works on. -/
def snapshot (c : Command) : IO FileTree := do
  let directory := (Path.mk (← IO.currentDir).toString).steps
  let t : FileTree := { workingDirectory := directory }
  let at? (p : Path) : Location := walk (t.start p) p.steps
  let t ← addFound false 1 (← addAbove t directory) directory
  let t ← c.outputs.foldlM (fun t p => do addFound false 4 (← addAbove t (at? p)) (at? p)) t
  c.inputs.foldlM (fun t p => do addFound true 64 (← addAbove t (at? p)) (at? p)) t

/-- Brings to disk what the tree has and the snapshot has not. -/
def bringBack (before after : FileTree) : IO Unit :=
  after.nodes.entries.forM fun (l, n) => do
    if before.node? l ≠ some n then
      match n with
      | .directory => IO.FS.createDir (diskPath l)
      | .file content => IO.FS.writeBinFile (diskPath l) content.toBytes

end TextureAtlas.CommandLine

open TextureAtlas TextureAtlas.CommandLine in
/-- Runs the command that the arguments ask for. -/
def main (args : List String) : IO UInt32 := do
  match Command.ofArguments args with
  | .error stop =>
    IO.eprintln "usage: unit-atlas convert UNIT | batch | palette INPUT OUTPUT [--help]"
    return stop.exitCode.toUInt32
  | .ok command =>
    let before ← snapshot command
    let (result, session) := command.run.on before
    bringBack before session.files
    session.log.forM fun e => IO.eprintln e.line
    IO.print session.output
    match result with
    | .ok () => return 0
    | .error trouble =>
      IO.eprintln s!"Error: {trouble.line}"
      return 1
