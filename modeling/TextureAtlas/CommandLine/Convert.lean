import TextureAtlas.CommandLine.Workspace
import TextureAtlas.Compose
import TextureAtlas.Document.Metadata
import TextureAtlas.Document.UnitMesh
import TextureAtlas.Export

/-!
# Converting a unit

Each root of a unit's mesh gets an atlas of its own. Its rasters are written to files named for the
unit and the canvas size, and the unit is described for the renderer.
-/

namespace TextureAtlas.CommandLine

/-! ## Files of an atlas -/

/-- The file of a raster: the unit's name, the kind of raster and the canvas size. -/
def rasterFile (unit kind : String) (width height : Nat) (extension : String) : String :=
  s!"{unit}_{kind}{width}x{height}.{extension}"

/-- Writes the rasters of an atlas and, as asked for, its pictures and its fragment table. -/
def writeAtlasFiles (ws : Workspace) (unit : String) (a : Atlas) (outDir : Path) : Run Unit := do
  let exports := a.exportAll ws.palette ws.settings.logoThreshold
  let file (kind extension : String) : Path :=
    outDir.join (rasterFile unit kind a.width a.height extension)
  Run.write (file "Albedo" "data") (.bytes ⟨exports.indexed⟩)
  Run.write (file "SpecTeam" "data") (.bytes exports.teamMask.toBytes)
  if ws.png then
    Run.write (file "Albedo" "png") (.picture exports.albedo)
    Run.write (file "SpecTeam" "png") (.picture exports.teamMask)
  if ws.metadata then
    Run.write (outDir.join s!"{unit}_atlas.json") (.ofText a.tableJson.pretty)
  Run.report (.atlasWritten (file "Albedo" "data") (file "SpecTeam" "data"))

/-! ## Units -/

/-- The atlas of one root of a unit. -/
def composeRoot (ws : Workspace) (unit : String) (root : MeshObject) : Run Atlas := do
  let s := ws.settings
  match ← Run.lift .notComposed (compose root.referencedFragments ws.index s) with
  | some a =>
    Run.report (.atlasComposed a.width a.height)
    return a
  | none =>
    Run.report (.nothingFits s.maxWidth.toNat)
    throw (.doesNotFit unit s.maxWidth.toNat (2 * s.maxWidth.toNat))

/-- Converts one root: composes its atlas and writes the files. -/
def convertRoot (ws : Workspace) (unit : String) (outDir : Path) (root : MeshObject) :
    Run (MeshObject × Atlas) := do
  let a ← composeRoot ws unit root
  Run.report (.atlasSummary a.stats.summary unit root.name)
  writeAtlasFiles ws unit a outDir
  return (root, a)

/-- The roots of a unit; there has to be at least one. -/
def loadUnit (ws : Workspace) (unit : String) : Run (List MeshObject) := do
  let t ← Run.files
  match t.findMesh ws.dataDirs unit with
  | none => throw (.noMesh unit ws.dataDirs)
  | some path =>
    let roots ← Run.lift (.meshNotLoaded path) (t.loadMesh path)
    if roots.isEmpty then throw (.noRoots path)
    return roots

/-- Converts every root of a unit, and gives the unit for the renderer. -/
def convertUnit (ws : Workspace) (unit : String) (outDir : Path) : Run Json := do
  let composed ← (← loadUnit ws unit).mapM (convertRoot ws unit outDir)
  (composed.flatMap fun (root, a) => root.unknownNames a).forM fun name =>
    Run.report (.textureUnknown name)
  return unitJson unit composed

/-- Converts one unit; its description is printed unless it is to go to a file. -/
def runConvert (unit : String) (jsonOut : Option Path) (o : AtlasOptions) : Run Unit := do
  let settings ← settleSettings o
  if o.printConfig then showSettings settings o.printConfigFormat
  else
    Run.createAll o.outDir (.outDirNotCreated o.outDir)
    let ws ← prepareWorkspace o settings
    let json ← convertUnit ws unit o.outDir
    match jsonOut with
    | some p =>
      Run.write p (.ofText json.pretty)
      Run.report (.unitWritten p)
    | none => Run.print json.pretty

end TextureAtlas.CommandLine
