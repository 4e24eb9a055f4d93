import TextureAtlas.Files.Path

/-!
# The log of a run

What a run reports while it works, one event after another.
-/

namespace TextureAtlas

/-- Something worth reporting. -/
inductive LogEvent where
  | paletteLoaded (path : Path) (colours : Nat)
  | archivesIndexed (archives textures : Nat)
  | archiveSkipped (path : Path) (reason : String)
  | texturesMissing (directory : Path)
  | objectsMissing (directory : Path)
  | unitsMatched (count : Nat) (pattern : String)
  | atlasComposed (width height : Nat)
  | nothingFits (maxWidth : Nat)
  | atlasSummary (summary unit object : String)
  | atlasWritten (albedo team : Path)
  | textureUnknown (name : String)
  | unitWritten (path : Path)
  | conversionFailed (unit reason : String)
  | batchFinished (converted failed : Nat)
  | paletteConverted (input output : Path) (colours : Nat)
  deriving DecidableEq, Repr

/-- The line that reports the event: level, message and fields. -/
def LogEvent.line : LogEvent → String
  | paletteLoaded path colours => s!"INFO loaded palette path={path.text} colours={colours}"
  | archivesIndexed archives textures => s!"INFO indexed archives archives={archives} textures={textures}"
  | archiveSkipped path reason => s!"ERROR skip archive path={path.quoted} error={reason}"
  | texturesMissing directory => s!"WARN missing textures directory dir={directory.text}"
  | objectsMissing directory => s!"WARN missing objects3d directory dir={directory.text}"
  | unitsMatched count pattern => s!"INFO matched units count={count} pattern={pattern}"
  | atlasComposed width height => s!"INFO atlas composed width={width} height={height}"
  | nothingFits maxWidth =>
    s!"WARN fragments do not fit any candidate canvas size max_width={maxWidth}"
  | atlasSummary summary unit object => s!"INFO {summary} unit={unit} object={object}"
  | atlasWritten albedo team => s!"INFO atlas written albedo_path={albedo.quoted} team_path={team.quoted}"
  | textureUnknown name => s!"WARN unknown texture name={name}"
  | unitWritten path => s!"INFO unit JSON written path={path.text}"
  | conversionFailed unit reason => s!"ERROR unable to convert model unit={unit} error={reason}"
  | batchFinished converted failed => s!"INFO batch finished converted={converted} failed={failed}"
  | paletteConverted input output colours =>
    s!"INFO palette rewritten input={input.text} output={output.text} colours={colours}"

end TextureAtlas
