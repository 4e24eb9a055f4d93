/-!
# Paths

A path is text; `/` separates its names. An empty name and a single dot say nothing, two dots lead to
the parent.
-/

namespace TextureAtlas

/-- A path as the user wrote it, or as it was put together from one. -/
structure Path where
  text : String
  deriving DecidableEq, Repr, Inhabited

namespace Path

/-- The text between the separators. -/
def splitNames : List Char → List Char → List String
  | [], acc => [String.ofList acc.reverse]
  | c :: rest, acc =>
    if c = '/' then String.ofList acc.reverse :: splitNames rest [] else splitNames rest (c :: acc)

/-- Everything between separators that is not empty, dots included. -/
def steps (p : Path) : List String := (splitNames p.text.toList []).filter (· ≠ "")

/-- The names, without those that say nothing. -/
def components (p : Path) : List String := p.steps.filter (· ≠ ".")

/-- Whether the path starts at the root. -/
def isAbsolute (p : Path) : Bool := p.text.toList.head? = some '/'

/-- Whether the path ends with a separator. -/
def endsWithSeparator (p : Path) : Bool := p.text.toList.getLast? = some '/'

/-- The path of `name` below `p`; a name that starts at the root replaces it. -/
def join (p : Path) (name : String) : Path :=
  if (Path.mk name).isAbsolute then ⟨name⟩
  else if p.text.isEmpty ∨ p.endsWithSeparator then ⟨p.text ++ name⟩
  else ⟨p.text ++ "/" ++ name⟩

/-- The path of a chain of names below `p`. -/
def joinAll (p : Path) (names : List String) : Path := names.foldl join p

/-- The last name, unless it leads to a parent. -/
def fileName? (p : Path) : Option String := p.components.getLast?.filter (· ≠ "..")

/-- The path without its last name. -/
def parent? (p : Path) : Option Path :=
  if p.components.isEmpty then none
  else
    let names := p.components.dropLast
    some ⟨(if p.isAbsolute then "/" else "") ++ "/".intercalate names⟩

/-- The part of a name in front of its last dot, and the part behind it. A dot at the very front
separates nothing. -/
def splitExtension (name : String) : String × Option String :=
  let backwards := name.toList.reverse
  match backwards.dropWhile (· ≠ '.') with
  | [] => (name, none)
  | [_] => (name, none)
  | _ :: stem => (String.ofList stem.reverse, some (String.ofList (backwards.takeWhile (· ≠ '.')).reverse))

/-- The last name without its extension. -/
def stem? (p : Path) : Option String := p.fileName?.map fun n => (splitExtension n).1

/-- The extension of the last name. -/
def extension? (p : Path) : Option String := p.fileName?.bind fun n => (splitExtension n).2

/-- Whether the name ends in `.json`, ASCII case aside. -/
def isJson (p : Path) : Bool :=
  p.extension?.any fun e => e.toList.map Char.toLower = "json".toList

/-- How a character is shown inside quotes in a message. -/
def showChar (c : Char) : List Char :=
  if c = '"' then ['\\', '"']
  else if c = '\\' then ['\\', '\\']
  else if c = '\'' then ['\\', '\'']
  else if c = '\n' then ['\\', 'n']
  else if c = '\r' then ['\\', 'r']
  else if c = '\t' then ['\\', 't']
  else if c = '\x00' then ['\\', '0']
  else if c.toNat < 32 ∨ (127 ≤ c.toNat ∧ c.toNat < 160) then
    "\\u\x7b".toList ++ Nat.toDigits 16 c.toNat ++ ['\x7d']
  else [c]

/-- The path in quotes, as messages show it. -/
def quoted (p : Path) : String := String.ofList ('"' :: (p.text.toList.flatMap showChar ++ ['"']))

/-- A list of paths, as messages show it. -/
def quotedList (l : List Path) : String := "[" ++ ", ".intercalate (l.map quoted) ++ "]"

end Path
end TextureAtlas
