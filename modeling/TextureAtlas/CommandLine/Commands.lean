import TextureAtlas.CommandLine.Batch

/-!
# Running a command

The whole program as a function: arguments and a file tree go in; how it ended, the log, what was
printed and the changed file tree come out.
-/

namespace TextureAtlas.CommandLine

/-- Writes the colours of a palette file to another one, in another byte order. -/
def runPalette (input output : Path) (source target : String) : Run Unit := do
  let source ← orderNamed source
  let target ← orderNamed target
  let palette ← Run.lift (.paletteNotLoaded input) ((← Run.files).loadPalette input source)
  Run.write output (.bytes ⟨(palette.toBytes target).toArray⟩)
  Run.report (.paletteConverted input output palette.size)

/-- Does what the command says. -/
def Command.run : Command → Run Unit
  | .convert unit jsonOut options => runConvert unit jsonOut options
  | .batch units options => runBatch units options
  | .palette input output source target => runPalette input output source target

/-- Runs something on a file tree. -/
def Run.on (x : Run α) (files : FileTree) : Except Trouble α × Session :=
  let r := (ExceptT.run x).run { files := files }
  (r.1, r.2)

end TextureAtlas.CommandLine
