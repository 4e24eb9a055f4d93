import TextureAtlas.CommandLine.Convert

/-!
# Converting many units

Every unit that matches a glob is converted into a directory of its own, followed by its wreck if there
is one. A conversion that fails is reported, and the next one goes on.
-/

namespace TextureAtlas.CommandLine

/-- Converts under one name and writes the description; says whether that went well. -/
def batchName (ws : Workspace) (unitDir : Path) (name : String) : Run Bool := do
  let converted ← Run.attempt do
    let json ← convertUnit ws name unitDir
    Run.write (unitDir.join s!"{name}.json") (.ofText json.pretty)
  match converted with
  | .ok () => return true
  | .error trouble =>
    Run.report (.conversionFailed name trouble.line)
    return false

/-- Converts a unit and its wreck; says of each whether that went well. -/
def batchUnit (ws : Workspace) (outDir : Path) (unit : String) : Run (List Bool) := do
  let unitDir := outDir.join unit
  Run.createAll unitDir (.directoryNotCreated unitDir)
  let whole ← batchName ws unitDir unit
  let wreck := unit ++ FileTree.wreckSuffix
  if ((← Run.files).findMesh ws.dataDirs wreck).isSome then
    return [whole, ← batchName ws unitDir wreck]
  else return [whole]

/-- Converts every unit that matches the pattern. -/
def runBatch (pattern : String) (o : AtlasOptions) : Run Unit := do
  let settings ← settleSettings o
  if o.printConfig then showSettings settings o.printConfigFormat
  else
    let units ← discoverUnits o.dataDirs pattern
    Run.report (.unitsMatched units.names.length pattern)
    let ws ← prepareWorkspace o settings
    let outcomes ← units.names.mapM (batchUnit ws o.outDir)
    Run.report (.batchFinished (outcomes.flatten.count true) (outcomes.flatten.count false))

end TextureAtlas.CommandLine
