import TextureAtlas.Decimal.Numeral
import TextureAtlas.Files.Path

/-!
# Arguments of the command line

A command is a name, positional words and switches. Arguments are taken from left to right: the values
of a switch are checked when the next switch or positional word comes, and the first fault ends the
reading, as does a request for help. Some switches count for every command and may also stand in front
of its name.
-/

namespace TextureAtlas.CommandLine

/-! ## What a command line says -/

/-- How settings are shown. -/
inductive ConfigFormat where
  | json
  | yaml
  deriving DecidableEq, Repr

/-- What the converting commands may be told. -/
structure AtlasOptions where
  /-- Searched in order, each with its `objects3d`, `textures` and `palettes`. -/
  dataDirs : List Path
  palette : Option Path := none
  outDir : Path := ⟨"."⟩
  /-- A file with settings that take precedence over the switches. -/
  config : Option Path := none
  /-- Globs of archive files. -/
  includes : List String := []
  excludes : List String := []
  minWidth : UInt32 := 64
  maxWidth : UInt32 := 2048
  tallVariants : Bool := true
  swatchSize : UInt32 := 4
  logoThreshold : Float32 := 0.333
  logoMarker : String := "logos.gaf"
  channelOrder : String := "bgrx"
  /-- Whether picture files are written too. -/
  png : Bool := true
  /-- Whether the fragment table is written too. -/
  metadata : Bool := true
  /-- Whether the settings are shown and nothing else is done. -/
  printConfig : Bool := false
  printConfigFormat : ConfigFormat := .json

/-- A command with everything it was told. -/
inductive Command where
  /-- Converts one unit. -/
  | convert (unit : String) (jsonOut : Option Path) (options : AtlasOptions)
  /-- Converts every unit whose name matches a glob. -/
  | batch (units : String) (options : AtlasOptions)
  /-- Writes the colours of a palette file to another one, in another byte order. -/
  | palette (input output : Path) (source target : String)

/-- Why no command came out of the arguments. -/
inductive UsageStop where
  | helpShown
  | misused
  deriving DecidableEq, Repr

def UsageStop.exitCode : UsageStop → Nat
  | helpShown => 0
  | misused => 2

/-! ## Values -/

/-- A run of at least one ASCII digit. -/
def digits? (cs : List Char) : Option Nat :=
  if cs.isEmpty ∨ !cs.all Decimal.Numeral.isDigit then none else some (Decimal.Numeral.natural cs)

/-- A 32-bit number; a plus sign is allowed, and so is a minus sign in front of zero. -/
def word? (s : String) : Option UInt32 :=
  match s.toList with
  | '-' :: ds => (digits? ds).bind fun n => if n = 0 then some 0 else none
  | '+' :: ds => (digits? ds).bind fun n => if n < UInt32.size then some n.toUInt32 else none
  | ds => (digits? ds).bind fun n => if n < UInt32.size then some n.toUInt32 else none

/-- A truth value. -/
def truth? (s : String) : Option Bool :=
  if s = "true" then some true else if s = "false" then some false else none

/-- A 32-bit float. -/
def single? (s : String) : Option Float32 := (Decimal.Numeral.ofText? s.toList).map (·.toSingle)

/-- A path; it must not be empty. -/
def path? (s : String) : Option Path := if s.isEmpty then none else some ⟨s⟩

/-- A way to show settings. -/
def format? (s : String) : Option ConfigFormat :=
  if s = "json" then some .json else if s = "yaml" then some .yaml else none

/-! ## Switches -/

/-- What follows a switch, and how often it may be given. -/
inductive Arity where
  /-- Asks for help. -/
  | help
  /-- Nothing; once. -/
  | flag
  /-- Nothing; any number of times. -/
  | count
  /-- One value; once. -/
  | one
  /-- One value; any number of times. -/
  | each
  /-- One or more values; any number of times. -/
  | many
  deriving DecidableEq, Repr

/-- A switch that a command knows. -/
structure Switch where
  name : String
  letter : Option Char := none
  arity : Arity
  /-- Whether a value is acceptable. -/
  accepts : String → Bool := fun _ => true

/-- Switches of every command. -/
def commonSwitches : List Switch :=
  [{ name := "progress", arity := .one, accepts := fun s => (truth? s).isSome },
    { name := "verbose", letter := some 'v', arity := .count },
    { name := "quiet", letter := some 'q', arity := .flag },
    { name := "help", letter := some 'h', arity := .help }]

/-- Switches in front of the command's name. -/
def outerSwitches : List Switch :=
  commonSwitches ++ [{ name := "version", letter := some 'V', arity := .help }]

/-- Switches of both converting commands. -/
def atlasSwitches : List Switch :=
  let isPath (s : String) : Bool := (path? s).isSome
  let isWord (s : String) : Bool := (word? s).isSome
  let isTruth (s : String) : Bool := (truth? s).isSome
  [{ name := "data", arity := .many, accepts := isPath },
    { name := "palette", arity := .one, accepts := isPath },
    { name := "out-dir", letter := some 'o', arity := .one, accepts := isPath },
    { name := "config", arity := .one, accepts := isPath },
    { name := "include", arity := .each },
    { name := "exclude", arity := .each },
    { name := "min-width", arity := .one, accepts := isWord },
    { name := "max-width", arity := .one, accepts := isWord },
    { name := "tall-variants", arity := .one, accepts := isTruth },
    { name := "swatch-size", arity := .one, accepts := isWord },
    { name := "logo-threshold", arity := .one, accepts := fun s => (single? s).isSome },
    { name := "logo-marker", arity := .one },
    { name := "channel-order", arity := .one },
    { name := "png", arity := .one, accepts := isTruth },
    { name := "metadata", arity := .one, accepts := isTruth },
    { name := "print-config", arity := .flag },
    { name := "print-config-format", arity := .one, accepts := fun s => (format? s).isSome }]

/-! ## Reading from left to right -/

/-- What has been read of one command. -/
structure Reading where
  /-- Settled switches with their values, in order. -/
  settled : List (String × List String) := []
  /-- The switch whose values are not settled yet. -/
  pending : Option (Switch × List String) := none
  /-- Whether the next plain word is a value of that switch. -/
  expectsValue : Bool := false
  /-- Plain words that are no values. -/
  words : List String := []

namespace Reading

/-- Whether the switch has been settled before. -/
def has (r : Reading) (name : String) : Bool := r.settled.any (·.1 == name)

/-- Settles a switch with its values. -/
def give (r : Reading) (s : Switch) (values : List String) : Except UsageStop Reading :=
  if (s.arity = .one ∨ s.arity = .flag) ∧ r.has s.name then .error .misused
  else if !values.all s.accepts then .error .misused
  else .ok { r with settled := r.settled ++ [(s.name, values)], pending := none, expectsValue := false }

/-- Settles the pending switch; it must have got a value. -/
def settle (r : Reading) : Except UsageStop Reading :=
  match r.pending with
  | none => .ok r
  | some (_, []) => .error .misused
  | some (s, values) => r.give s values

/-- Meets a switch. `attached` is a value written together with it. -/
def meet (r : Reading) (s : Switch) (attached : Option String) : Except UsageStop Reading := do
  let r ← r.settle
  match s.arity, attached with
  | .help, none => .error .helpShown
  | .flag, none => r.give s []
  | .count, none => r.give s []
  | .one, some v => r.give s [v]
  | .each, some v => r.give s [v]
  | .many, some v => r.give s [v]
  | .one, none => .ok { r with pending := some (s, []), expectsValue := true }
  | .each, none => .ok { r with pending := some (s, []), expectsValue := true }
  | .many, none => .ok { r with pending := some (s, []), expectsValue := true }
  | _, some _ => .error .misused

/-- Meets the letters behind a single dash. -/
def meetLetters (r : Reading) (known : List Switch) : List Char → Except UsageStop Reading
  | [] => .ok r
  | c :: rest =>
    match known.find? (·.letter = some c) with
    | none => .error .misused
    | some s =>
      match s.arity with
      | .help => do (← r.meet s none).meetLetters known rest
      | .flag => do (← r.meet s none).meetLetters known rest
      | .count => do (← r.meet s none).meetLetters known rest
      | _ =>
        match rest with
        | [] => r.meet s none
        | '=' :: value => r.meet s (some (String.ofList value))
        | value => r.meet s (some (String.ofList value))

/-- Meets a plain word that is no value; at most `limit` of them are taken. -/
def meetWord (r : Reading) (limit : Nat) (word : String) : Except UsageStop Reading := do
  let r ← r.settle
  if r.words.length < limit then .ok { r with words := r.words ++ [word] } else .error .misused

/-- Takes a value for the pending switch. -/
def takeValue (r : Reading) (value : String) : Reading :=
  match r.pending with
  | some (s, values) =>
    { r with pending := some (s, values ++ [value]), expectsValue := s.arity = .many }
  | none => r

/-- Reads one argument that begins with a dash and is not just that. -/
def meetDashed (r : Reading) (known : List Switch) (arg : List Char) : Except UsageStop Reading :=
  match arg with
  | '-' :: '-' :: body =>
    let name := String.ofList (body.takeWhile (· ≠ '='))
    let attached := match body.dropWhile (· ≠ '=') with
      | [] => none
      | _ :: value => some (String.ofList value)
    match known.find? (·.name = name) with
    | none => .error .misused
    | some s => r.meet s attached
  | _ => r.meetLetters known arg.tail

/-- Whether an argument is written as a switch. -/
def isDashed (arg : List Char) : Bool := arg.head? = some '-' && 1 < arg.length

/-- Reads the arguments of a command. After two dashes alone everything is a plain word. -/
def readAll (known : List Switch) (limit : Nat) : Bool → List String → Reading → Except UsageStop Reading
  | _, [], r => r.settle
  | true, arg :: rest, r => do readAll known limit true rest (← r.meetWord limit arg)
  | false, arg :: rest, r =>
    if arg = "--" then readAll known limit true rest r
    else if isDashed arg.toList then do
      readAll known limit false rest (← r.meetDashed known arg.toList)
    else if r.expectsValue then readAll known limit false rest (r.takeValue arg)
    else do readAll known limit false rest (← r.meetWord limit arg)

/-- Reads what stands in front of the command's name, and gives the name with what follows it. -/
def readOuter : List String → Reading → Except UsageStop (Reading × String × List String)
  | [], r => do
    let _ ← r.settle
    .error .misused
  | arg :: rest, r =>
    if arg = "--" then .error .misused
    else if isDashed arg.toList then do readOuter rest (← r.meetDashed outerSwitches arg.toList)
    else if r.expectsValue then readOuter rest (r.takeValue arg)
    else .ok (r, arg, rest)

/-- The values of a switch, all of them in order. -/
def values (r : Reading) (name : String) : List String :=
  (r.settled.filter (·.1 == name)).flatMap (·.2)

/-- The value of a switch, read by `f`. -/
def value? (r : Reading) (name : String) (f : String → Option α) : Option α :=
  (r.values name).head?.bind f

end Reading

/-! ## Commands -/

/-- The options of a converting command; at least one data directory has to be given. -/
def atlasOptions (r : Reading) : Except UsageStop AtlasOptions :=
  if !r.has "data" then .error .misused
  else
    let usual : AtlasOptions := { dataDirs := [] }
    .ok {
      dataDirs := (r.values "data").map Path.mk
      palette := r.value? "palette" path?
      outDir := (r.value? "out-dir" path?).getD usual.outDir
      config := r.value? "config" path?
      includes := r.values "include"
      excludes := r.values "exclude"
      minWidth := (r.value? "min-width" word?).getD usual.minWidth
      maxWidth := (r.value? "max-width" word?).getD usual.maxWidth
      tallVariants := (r.value? "tall-variants" truth?).getD usual.tallVariants
      swatchSize := (r.value? "swatch-size" word?).getD usual.swatchSize
      logoThreshold := (r.value? "logo-threshold" single?).getD usual.logoThreshold
      logoMarker := (r.value? "logo-marker" some).getD usual.logoMarker
      channelOrder := (r.value? "channel-order" some).getD usual.channelOrder
      png := (r.value? "png" truth?).getD usual.png
      metadata := (r.value? "metadata" truth?).getD usual.metadata
      printConfig := r.has "print-config"
      printConfigFormat := (r.value? "print-config-format" format?).getD usual.printConfigFormat }

/-- The names of the commands. -/
def commandNames : List String := ["convert", "batch", "palette", "help"]

/-- Reads the arguments of the named command. -/
def readCommand (name : String) (args : List String) : Except UsageStop Command :=
  if name = "convert" then do
    let jsonOut : Switch := { name := "json-out", arity := .one, accepts := fun s => (path? s).isSome }
    let r ← Reading.readAll (jsonOut :: (commonSwitches ++ atlasSwitches)) 1 false args {}
    match r.words with
    | [unit] => return .convert unit (r.value? "json-out" path?) (← atlasOptions r)
    | _ => .error .misused
  else if name = "batch" then do
    let units : Switch := { name := "units", arity := .one }
    let r ← Reading.readAll (units :: (commonSwitches ++ atlasSwitches)) 0 false args {}
    return .batch ((r.value? "units" some).getD "*") (← atlasOptions r)
  else if name = "palette" then do
    let orders : List Switch := [{ name := "from", arity := .one }, { name := "to", arity := .one }]
    let r ← Reading.readAll (orders ++ commonSwitches) 2 false args {}
    match r.words.mapM path? with
    | some [input, output] =>
      return .palette input output ((r.value? "from" some).getD "rgbx") ((r.value? "to" some).getD "bgrx")
    | _ => .error .misused
  else if name = "help" then
    match args with
    | [] => .error .helpShown
    | [topic] => .error (if commandNames.contains topic then .helpShown else .misused)
    | _ => .error .misused
  else .error .misused

/-- The command that the arguments ask for. -/
def Command.ofArguments (args : List String) : Except UsageStop Command := do
  let (outer, name, rest) ← Reading.readOuter args {}
  let command ← readCommand name rest
  let _ ← outer.settle
  return command

end TextureAtlas.CommandLine
