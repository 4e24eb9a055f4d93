/-!
# JSON documents as written

A document keeps its numbers and strings as they were written: the characters of the number, and the
characters between the quotes. What they mean is decided where a value is wanted (`Json.Text`,
`Json.Number`), so that a part nobody asks for has only to be well formed.
-/

namespace TextureAtlas

/-- A JSON document. -/
inductive Json where
  | null
  | bool (b : Bool)
  /-- A number, as written. -/
  | number (written : List Char)
  /-- A string, as written between its quotes. -/
  | string (written : List Char)
  | array (items : List Json)
  /-- Members in their order, the keys as written between their quotes. -/
  | object (members : List (List Char × Json))
  deriving Inhabited, Repr

end TextureAtlas
