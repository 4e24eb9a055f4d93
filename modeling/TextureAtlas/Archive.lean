import TextureAtlas.Error
import TextureAtlas.Fragment

/-!
# Archives of frames

An archive is a list of named entries, each a list of frames with their pixel layers. An entry is
delivered to a receiver as a stream: the entry's name, then for each frame its header, its layers
and its end, and last the end of the entry. A receiver may refuse a header, and the stream ends
there. `Archive.extract` delivers an entry; `ArchiveEntry.events` is the whole stream as data.
-/

namespace TextureAtlas

/-- One image of an entry. -/
structure ArchiveFrame where
  width : UInt32
  height : UInt32
  transparencyIndex : UInt32 := 0
  /-- Palette indices row by row, one array per layer. -/
  layers : List (Array UInt8)
  deriving DecidableEq, Repr

namespace ArchiveFrame

def header (f : ArchiveFrame) : FrameHeader := ⟨f.width, f.height, f.transparencyIndex⟩

/-- A frame with one layer of one colour. -/
def solid (width height : UInt32) (value : UInt8) : ArchiveFrame :=
  ⟨width, height, 0, [Array.replicate (width.toNat * height.toNat) value]⟩

end ArchiveFrame

/-- The frames stored under one name. -/
structure ArchiveEntry where
  name : String
  frames : List ArchiveFrame
  deriving DecidableEq, Repr

/-- A named list of entries. -/
structure Archive where
  name : String := ""
  entries : List ArchiveEntry := []
  deriving DecidableEq, Repr

/-! ## Receiving a stream -/

/-- A receiver of frame streams with state `σ`. Only a frame header may be refused, and the refusal
may leave a trace in the state. -/
structure FrameSink (σ : Type) where
  beginEntity : String → σ → σ
  beginFrame : FrameHeader → σ → Except AtlasError Unit × σ
  frameLayer : Array UInt8 → σ → σ
  endFrame : σ → σ
  endEntity : σ → σ

/-- One step of a frame stream. -/
inductive FrameEvent where
  | beginEntity (name : String)
  | beginFrame (header : FrameHeader)
  | frameLayer (pixels : Array UInt8)
  | endFrame
  | endEntity
  deriving DecidableEq, Repr

/-- Receives one event. -/
def FrameSink.receive {σ : Type} (sink : FrameSink σ) : FrameEvent → σ → Except AtlasError Unit × σ
  | .beginEntity name, s => (.ok (), sink.beginEntity name s)
  | .beginFrame header, s => sink.beginFrame header s
  | .frameLayer pixels, s => (.ok (), sink.frameLayer pixels s)
  | .endFrame, s => (.ok (), sink.endFrame s)
  | .endEntity, s => (.ok (), sink.endEntity s)

/-- The stream of one frame. -/
def ArchiveFrame.events (f : ArchiveFrame) : List FrameEvent :=
  .beginFrame f.header :: (f.layers.map .frameLayer ++ [.endFrame])

/-- The stream of an entry. -/
def ArchiveEntry.events (e : ArchiveEntry) : List FrameEvent :=
  .beginEntity e.name :: (e.frames.flatMap ArchiveFrame.events ++ [.endEntity])

namespace ArchiveEntry
variable {σ : Type}

/-- Delivers frames until one is refused. -/
def deliverFrames (sink : FrameSink σ) : List ArchiveFrame → σ → Except AtlasError Unit × σ
  | [], s => (.ok (), s)
  | f :: rest, s =>
    match sink.beginFrame f.header s with
    | (.error e, s) => (.error e, s)
    | (.ok (), s) =>
      deliverFrames sink rest (sink.endFrame (f.layers.foldl (fun s px => sink.frameLayer px s) s))

/-- Delivers the whole entry. -/
def deliver (e : ArchiveEntry) (sink : FrameSink σ) (s : σ) : Except AtlasError Unit × σ :=
  match deliverFrames sink e.frames (sink.beginEntity e.name s) with
  | (.ok (), s) => (.ok (), sink.endEntity s)
  | (.error e, s) => (.error e, s)

end ArchiveEntry

namespace Archive

/-- The first entry of that name. -/
def entry? (a : Archive) (name : String) : Option ArchiveEntry := a.entries.find? (·.name == name)

/-- Whether the archive has an entry of that name. -/
def contains (a : Archive) (name : String) : Bool := (a.entry? name).isSome

/-- Delivers the entry of that name; an archive without one sends nothing. -/
def extract {σ : Type} (a : Archive) (name : String) (sink : FrameSink σ) (s : σ) :
    Except AtlasError Unit × σ :=
  match a.entry? name with
  | none => (.error (.unknownEntry a.name name), s)
  | some e => e.deliver sink s

/-- The archive with one more entry at its end. -/
def withEntry (a : Archive) (name : String) (frames : List ArchiveFrame) : Archive :=
  { a with entries := a.entries ++ [⟨name, frames⟩] }

end Archive

/-! ## Readers -/

/-- A source of entries: the names it announces, and the entries that it can deliver. -/
structure Reader where
  name : String
  announced : List String
  entry? : String → Option ArchiveEntry

namespace Reader

/-- An archive announces exactly what it holds. -/
def ofArchive (a : Archive) : Reader := ⟨a.name, a.entries.map (·.name), a.entry?⟩

/-- The reader that also announces names which it cannot deliver. -/
def announcing (r : Reader) (names : List String) : Reader := { r with announced := r.announced ++ names }

/-- Whether the reader announces that name. -/
def contains (r : Reader) (name : String) : Bool := r.announced.contains name

/-- Delivers the entry of that name. -/
def extract {σ : Type} (r : Reader) (name : String) (sink : FrameSink σ) (s : σ) :
    Except AtlasError Unit × σ :=
  match r.entry? name with
  | none => (.error (.unknownEntry r.name name), s)
  | some e => e.deliver sink s

end Reader
end TextureAtlas
