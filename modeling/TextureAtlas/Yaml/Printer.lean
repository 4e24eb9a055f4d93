import TextureAtlas.Yaml.Value

/-!
# Writing YAML scalars

A text is written plain where no reader can take it for anything else, between single quotes if it would
read as a value of another type or begins like another construct, between double quotes if it has
characters that cannot be shown, and as a literal block if it has several lines.
-/

namespace TextureAtlas.Yaml

/-! ## Characters of a text -/

/-- Characters that are written as they are. -/
def isShown (c : Char) : Bool :=
  let n := c.toNat
  c = '\n' || (0x20 ≤ n && n ≤ 0x7E) || (0xA0 ≤ n && n ≤ 0xD7FF) ||
    (0xE000 ≤ n && n ≤ 0xFFFD && n ≠ 0xFEFF)

/-- Characters that begin another construct. -/
def openingMarks : List Char :=
  ['#', ',', '[', ']', '\x7b', '\x7d', '&', '*', '!', '|', '>', '\'', '"', '%', '@', '\x60']

/-- Whether a later character of a plain text, with `before` in front of it, begins another
construct. -/
def interrupts (before c : Char) (after : List Char) : Bool :=
  (c = ':' && startsBlank after) || (c = '#' && (isBlank before || isBreak before))

/-- Whether a character of the text behind `before` begins another construct. -/
def isInterrupted : Char → List Char → Bool
  | _, [] => false
  | before, c :: after => interrupts before c after || isInterrupted c after

/-- Whether the text has marks that a plain scalar cannot have. -/
def hasMarks : List Char → Bool
  | [] => false
  | c :: after =>
    [['-', '-', '-'], ['.', '.', '.']].contains ((c :: after).take 3) || openingMarks.contains c ||
      ((c = '?' || c = ':' || c = '-') && startsBlank after) || isInterrupted c after

/-- Whether two neighbours of the text have the properties. -/
def hasNeighbours (p q : Char → Bool) : List Char → Bool
  | a :: b :: rest => (p a && q b) || hasNeighbours p q (b :: rest)
  | _ => false

/-- Whether the text begins or ends with a space or a line break. -/
def hasOuterSpace (cs : List Char) : Bool :=
  let isSpace (c : Char) : Bool := c = ' ' || isBreak c
  cs.head?.any isSpace || cs.getLast?.any isSpace

/-- Whether a plain scalar of this text would stand for a value of another type. -/
def looksLikeValue (cs : List Char) : Bool :=
  cs.isEmpty || isNull cs || (bool? cs).isSome || (natural? cs).any (· < Nat.pow 2 128) ||
    (negative? cs).any (· ≤ Nat.pow 2 127) || isZeroLed cs || (float? cs).isSome

/-- Words that some readers take for truth values. -/
def truthWords : List String :=
  ["y", "Y", "yes", "Yes", "YES", "n", "N", "no", "No", "NO", "true", "True", "TRUE", "false", "False",
    "FALSE", "on", "On", "ON", "off", "Off", "OFF"]

/-! ## Styles -/

/-- The style in which a text would best be written. -/
def preferredStyle (cs : List Char) : ScalarStyle :=
  if cs.contains '\n' then .literal
  else if truthWords.any (fun word => cs = word.toList) || looksLikeValue cs then .singleQuoted
  else .plain

/-- Whether the style can hold the text. -/
def ScalarStyle.holds (cs : List Char) : ScalarStyle → Bool
  | .plain => cs.all isShown && !cs.any isBreak && !hasOuterSpace cs && !hasMarks cs
  | .singleQuoted =>
    cs.all isShown && !hasNeighbours (· = ' ') isBreak cs && !hasNeighbours isBreak (· = ' ') cs
  | .literal =>
    cs.all isShown && !hasNeighbours (· = ' ') isBreak cs && cs.getLast? ≠ some ' '
  | .folded => false
  | .doubleQuoted => true

/-- The style in which a text is written. -/
def chosenStyle (cs : List Char) : ScalarStyle :=
  match preferredStyle cs with
  | .plain =>
    if ScalarStyle.plain.holds cs then .plain
    else if ScalarStyle.singleQuoted.holds cs then .singleQuoted else .doubleQuoted
  | style => if style.holds cs then style else .doubleQuoted

/-! ## Layout -/

/-- The letter that stands for a character behind a backslash. -/
def escapeLetter? (c : Char) : Option Char :=
  ([('\x00', '0'), ('\x07', 'a'), ('\x08', 'b'), ('\t', 't'), ('\n', 'n'), ('\x0b', 'v'), ('\x0c', 'f'),
    ('\r', 'r'), ('\x1b', 'e'), ('"', '"'), ('\\', '\\'), ('\u0085', 'N'), ('\u00a0', '_'),
    ('\u2028', 'L'), ('\u2029', 'P')] : List (Char × Char)).lookup c

/-- A number in upper-case hexadecimal digits. -/
def hexDigits (count n : Nat) : List Char :=
  (List.range count).reverse.map fun i => (Json.hexDigit (n / Nat.pow 16 i)).toUpper

/-- A character between double quotes. -/
def doubleQuotedChar (c : Char) : List Char :=
  let n := c.toNat
  if isShown c ∧ !isBreak c ∧ c ≠ '"' ∧ c ≠ '\\' then [c]
  else match escapeLetter? c with
    | some letter => ['\\', letter]
    | none =>
      if n < 0x100 then '\\' :: 'x' :: hexDigits 2 n
      else if n < 0x10000 then '\\' :: 'u' :: hexDigits 4 n
      else '\\' :: 'U' :: hexDigits 8 n

/-- What stands in front of the text of each line of a nested scalar. -/
def margin : List Char := [' ', ' ']

/-- The characters of a text; behind a line break a margin comes before the next character. -/
def indented (write : Char → List Char) : Bool → List Char → List Char
  | _, [] => []
  | newLine, c :: rest =>
    if isBreak c then c :: indented write true rest
    else (if newLine then margin else []) ++ write c ++ indented write false rest

/-- A text between single quotes. -/
def singleQuotedText (cs : List Char) : List Char :=
  '\'' :: (indented (fun c => if c = '\'' then ['\'', '\''] else [c]) false cs ++
    (if cs.getLast?.any isBreak then margin else []) ++ ['\''])

/-- The header of a literal block: its indentation if the text begins with a space or a break, and what
becomes of the breaks at its end. -/
def literalHeader (cs : List Char) : List Char :=
  let hint := if cs.head?.any fun c => c = ' ' || isBreak c then ['2'] else []
  let chomping := match cs.reverse with
    | [] => ['-']
    | [c] => if isBreak c then ['+'] else ['-']
    | c :: d :: _ => if !isBreak c then ['-'] else if isBreak d then ['+'] else []
  '|' :: (hint ++ chomping)

/-- A text as a scalar below the top of a document; a block takes up its last line break. -/
def scalarText (cs : List Char) : List Char :=
  match chosenStyle cs with
  | .plain => cs
  | .singleQuoted => singleQuotedText cs
  | .literal => literalHeader cs ++ '\n' :: indented (fun c => [c]) true cs
  | _ => '"' :: (cs.flatMap doubleQuotedChar ++ ['"'])

/-- An entry of the mapping at the top of a document, on lines of its own. -/
def entryText (key : String) (scalar : List Char) : String :=
  key ++ ": " ++ String.ofList scalar ++ if scalar.getLast?.any isBreak then "" else "\n"

end TextureAtlas.Yaml
