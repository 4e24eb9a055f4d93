import TextureAtlas.Json.Text
import TextureAtlas.Yaml.Cursor

/-!
# Flow scalars

Plain and quoted scalars may go on over several lines. Between two words a gap of blanks stays as it
is; a gap with line breaks becomes a space if there is one break, and keeps the others if there are
more.
-/

namespace TextureAtlas.Yaml

/-! ## Gaps -/

/-- What stands between two words. -/
structure Gap where
  /-- Blanks, as long as there is no break. -/
  blanks : List Char := []
  broken : Bool := false
  /-- What the first break counts for. -/
  first : List Char := []
  /-- What the other breaks count for. -/
  others : List Char := []

namespace Gap

/-- The gap with one more blank. Blanks next to a break say nothing. -/
def addBlank (g : Gap) (c : Char) : Gap := if g.broken then g else { g with blanks := g.blanks ++ [c] }

/-- The gap with one more break. -/
def addBreak (g : Gap) (c : Char) : Gap :=
  if g.broken then { g with others := g.others ++ [breakChar c] }
  else { broken := true, first := [breakChar c] }

/-- What the gap counts for. -/
def text (g : Gap) : List Char :=
  if g.broken then
    if g.first = ['\n'] then if g.others = [] then [' '] else g.others
    else g.first ++ g.others
  else g.blanks

/-- Reads a gap up to the next word. Behind a break a tab is refused in front of `leastColumn`. -/
def read (leastColumn : Int) : List Char → Mark → Gap → Option (Gap × Cursor)
  | '\r' :: '\n' :: rest, m, g => read leastColumn rest (m.newLine 2) (g.addBreak '\n')
  | c :: rest, m, g =>
    if isBreak c then read leastColumn rest (m.newLine 1) (g.addBreak c)
    else if isBlank c then
      if g.broken ∧ (m.column : Int) < leastColumn ∧ c = '\t' then none
      else read leastColumn rest (m.past 1) (g.addBlank c)
    else some (g, ⟨c :: rest, m⟩)
  | [], m, g => some (g, ⟨[], m⟩)

end Gap

/-! ## Plain scalars -/

/-- A scalar that has been read: its text, whether a line break followed its last word, and the place
behind it. -/
structure FlowScalar where
  text : List Char
  broken : Bool
  cursor : Cursor

/-- Characters that end a plain scalar inside brackets. -/
def flowEnds : List Char := [',', '[', ']', '\x7b', '\x7d']

/-- Reads a word of a plain scalar: up to a blank, a colon in front of one, or inside brackets a comma
or a bracket. Inside brackets a colon right in front of punctuation is refused. -/
def plainWord (inFlow : Bool) : List Char → Mark → Option (List Char × Cursor)
  | [], m => some ([], ⟨[], m⟩)
  | c :: rest, m =>
    if isBlank c || isBreak c then some ([], ⟨c :: rest, m⟩)
    else if inFlow && c = ':' && startsWithAny ('?' :: flowEnds) rest then none
    else if (c = ':' && startsBlank rest) || (inFlow && flowEnds.contains c) then
      some ([], ⟨c :: rest, m⟩)
    else (plainWord inFlow rest (m.past 1)).map fun (word, cur) => (c :: word, cur)

/-- Reads a plain scalar word by word. Outside brackets its lines have to be indented by `least`. -/
def plainScalar (inFlow : Bool) (least : Int) : Nat → Cursor → Gap → List Char → Option FlowScalar
  | 0, _, _, _ => none
  | fuel + 1, cur, gap, text =>
    if cur.isAtDocumentMarker || cur.isAt '#' then some ⟨text, gap.broken, cur⟩
    else do
      let (word, cur) ← plainWord inFlow cur.rest cur.mark
      if word.isEmpty then return ⟨text, gap.broken, cur⟩
      let text := text ++ gap.text ++ word
      if cur.rest.isEmpty || !startsBlank cur.rest then return ⟨text, false, cur⟩
      let (gap, cur) ← Gap.read least cur.rest cur.mark {}
      if !inFlow && (cur.mark.column : Int) < least then return ⟨text, gap.broken, cur⟩
      plainScalar inFlow least fuel cur gap text

/-! ## Quoted scalars -/

/-- The character that a letter behind a backslash stands for. -/
def escaped? (c : Char) : Option Char :=
  match c with
  | '0' => some '\x00'
  | 'a' => some '\x07'
  | 'b' => some '\x08'
  | 't' => some '\t'
  | '\t' => some '\t'
  | 'n' => some '\n'
  | 'v' => some '\x0b'
  | 'f' => some '\x0c'
  | 'r' => some '\r'
  | 'e' => some '\x1b'
  | ' ' => some ' '
  | '"' => some '"'
  | '/' => some '/'
  | '\\' => some '\\'
  | 'N' => some '\u0085'
  | '_' => some '\u00a0'
  | 'L' => some '\u2028'
  | 'P' => some '\u2029'
  | _ => none

/-- How many digits follow the letter of a numeric escape. -/
def escapeDigits? (c : Char) : Option Nat :=
  match c with
  | 'x' => some 2
  | 'u' => some 4
  | 'U' => some 8
  | _ => none

/-- The character with the number that the hexadecimal digits give, surrogates excepted. -/
def charOfHex? (digits : List Char) : Option Char := do
  let n ← digits.foldlM (fun n c => (Json.hexValue? c).map (16 * n + ·)) 0
  if n.isValidChar then some (Char.ofNat n) else none

/-- Reads a run of characters inside quotes, up to a gap or the closing quote; also says whether the run
ended with a line break behind a backslash. -/
def quotedRun (double : Bool) : Nat → Cursor → Option (List Char × Bool × Cursor)
  | 0, _ => none
  | fuel + 1, cur =>
    let goOn (c : Char) (cur : Cursor) : Option (List Char × Bool × Cursor) :=
      (quotedRun double fuel cur).map fun (run, folded, cur) => (c :: run, folded, cur)
    match cur.rest with
    | [] => some ([], false, cur)
    | c :: rest =>
      if isBlank c || isBreak c then some ([], false, cur)
      else if !double then
        if c = '\'' then
          if rest.head? = some '\'' then goOn '\'' (cur.past 2) else some ([], false, cur)
        else goOn c (cur.past 1)
      else if c = '"' then some ([], false, cur)
      else if c = '\\' then
        match rest with
        | [] => none
        | e :: digits =>
          if isBreak e then some ([], true, (cur.past 1).readBreak.2)
          else match escaped? e, escapeDigits? e with
            | some d, _ => goOn d (cur.past 2)
            | none, some n =>
              if digits.length < n then none
              else (charOfHex? (digits.take n)).bind fun d => goOn d (cur.past (2 + n))
            | none, none => none
      else goOn c (cur.past 1)

/-- Reads a quoted scalar behind its opening quote. No line of it may start a document or end one. -/
def quotedScalar (double : Bool) : Nat → Cursor → List Char → Option (List Char × Cursor)
  | 0, _, _ => none
  | fuel + 1, cur, text =>
    if cur.isAtDocumentMarker || cur.rest.isEmpty then none
    else do
      let (run, folded, cur) ← quotedRun double (cur.rest.length + 1) cur
      let text := text ++ run
      if cur.isAt (if double then '"' else '\'') then return (text, cur.past 1)
      let (gap, cur) ← Gap.read 0 cur.rest cur.mark { broken := folded }
      quotedScalar double fuel cur (text ++ gap.text)

end TextureAtlas.Yaml
