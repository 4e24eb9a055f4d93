import TextureAtlas.Json.Basic

/-!
# Writing JSON text

A document is written either without any blank or over several lines with an indentation of two
blanks a level. The writers append to the text so far.
-/

namespace TextureAtlas.Json

/-- `out` followed by the characters. -/
def append (out : String) (cs : List Char) : String := cs.foldl String.push out

/-- `out` followed by a quoted string. -/
def appendQuoted (out : String) (written : List Char) : String := (append (out.push '"') written).push '"'

mutual
/-- `out` followed by the document without blanks. -/
def writeCompact (out : String) : Json → String
  | .null => out ++ "null"
  | .bool true => out ++ "true"
  | .bool false => out ++ "false"
  | .number written => append out written
  | .string written => appendQuoted out written
  | .array [] => out ++ "[]"
  | .array (v :: rest) => (writeItems (writeCompact (out.push '[') v) rest).push ']'
  | .object [] => (out.push '\x7b').push '\x7d'
  | .object ((key, v) :: rest) =>
    (writeMembers (writeCompact ((appendQuoted (out.push '\x7b') key).push ':') v) rest).push '\x7d'

/-- `out` followed by the items after the first. -/
def writeItems (out : String) : List Json → String
  | [] => out
  | v :: rest => writeItems (writeCompact (out.push ',') v) rest

/-- `out` followed by the members after the first. -/
def writeMembers (out : String) : List (List Char × Json) → String
  | [] => out
  | (key, v) :: rest =>
    writeMembers (writeCompact ((appendQuoted (out.push ',') key).push ':') v) rest
end

/-- The document without blanks. -/
def compact (j : Json) : String := writeCompact "" j

/-- `out` followed by a line break and the indentation of the level. -/
def newLine (out : String) (level : Nat) : String :=
  append (out.push '\n') (List.replicate (2 * level) ' ')

mutual
/-- `out` followed by the document over several lines, at a level of nesting. -/
def writePretty (level : Nat) (out : String) : Json → String
  | .null => out ++ "null"
  | .bool true => out ++ "true"
  | .bool false => out ++ "false"
  | .number written => append out written
  | .string written => appendQuoted out written
  | .array [] => out ++ "[]"
  | .array (v :: rest) =>
    let first := writePretty (level + 1) (newLine (out.push '[') (level + 1)) v
    (newLine (writePrettyItems (level + 1) first rest) level).push ']'
  | .object [] => (out.push '\x7b').push '\x7d'
  | .object ((key, v) :: rest) =>
    let named := appendQuoted (newLine (out.push '\x7b') (level + 1)) key ++ ": "
    let first := writePretty (level + 1) named v
    (newLine (writePrettyMembers (level + 1) first rest) level).push '\x7d'

/-- `out` followed by the items after the first, a line each. -/
def writePrettyItems (level : Nat) (out : String) : List Json → String
  | [] => out
  | v :: rest => writePrettyItems level (writePretty level (newLine (out.push ',') level) v) rest

/-- `out` followed by the members after the first, a line each. -/
def writePrettyMembers (level : Nat) (out : String) : List (List Char × Json) → String
  | [] => out
  | (key, v) :: rest =>
    writePrettyMembers level
      (writePretty level (appendQuoted (newLine (out.push ',') level) key ++ ": ") v) rest
end

/-- The document over several lines. -/
def pretty (j : Json) : String := writePretty 0 "" j

end TextureAtlas.Json
