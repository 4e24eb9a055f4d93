import TextureAtlas.Json.Number
import TextureAtlas.Json.Text

/-!
# Records in JSON documents

A record is written as an object, or as an array of its fields in their declared order. In an object
unknown members are left out and a known one may not come twice; in an array only fields at the end
may be left off. Arrays and objects may be nested only so deep: `depth` is the number of further
levels that may be entered.
-/

namespace TextureAtlas.Json

variable {α : Type}

/-- Reads a value where `depth` further levels may be opened. -/
abbrev Read (α : Type) := (depth : Nat) → Json → Option α

/-- The number of levels that a document may open. -/
def maxDepth : Nat := 127

/-- The one member of that name, `none` if there is none; two are refused. -/
def member? (name : String) (members : List (String × Json)) : Option (Option Json) :=
  match members.filter (·.1 == name) with
  | [] => some none
  | [m] => some (some m.2)
  | _ => none

/-- The members with their keys read. -/
def keyed? (members : List (List Char × Json)) : Option (List (String × Json)) :=
  members.mapM fun m => (unescape m.1).map fun k => (String.ofList k, m.2)

/-- The fields of a record in the order of `names`; a field left off is `none`. -/
def fields? (names : List String) : Read (List (Option Json))
  | 0, _ => none
  | _ + 1, .object members => do
    let members ← keyed? members
    names.mapM fun name => member? name members
  | _ + 1, .array items =>
    if items.length ≤ names.length then
      some (items.map some ++ List.replicate (names.length - items.length) none)
    else none
  | _ + 1, _ => none

/-- The items of an array. -/
def listOf (read : Read α) : Read (List α)
  | depth + 1, .array items => items.mapM (read depth)
  | _, _ => none

/-- A value that opens no level. -/
def leaf (read : Json → Option α) : Read α := fun _ j => read j

/-- A field that must be there. -/
def required (read : Read α) (depth : Nat) (field : Option Json) : Option α := field.bind (read depth)

/-- A field that may be left off. -/
def orDefault (default : α) (read : Read α) (depth : Nat) : Option Json → Option α
  | some j => read depth j
  | none => some default

/-- A field that may be left off or `null`. -/
def nullable (read : Read α) (depth : Nat) : Option Json → Option (Option α)
  | none => some none
  | some .null => some none
  | some j => (read depth j).map some

/-- A truth value. -/
def bool? : Json → Option Bool
  | .bool b => some b
  | _ => none

/-- A name out of a fixed set: a string, or an object with that name as its only key and `null` as its
value. -/
def variant? (ofName : String → Option α) : Json → Option α
  | .string written => (text? (.string written)).bind ofName
  | .object [(key, .null)] => (text? (.string key)).bind ofName
  | _ => none

mutual
/-- Whether a document can be held as a whole: every text and number can be read, and it is nested
no deeper than `depth`. -/
def holdable (depth : Nat) : Json → Bool
  | .null => true
  | .bool _ => true
  | .number written => (number? written).isSome
  | .string written => (unescape written).isSome
  | .array items => 0 < depth && holdableItems (depth - 1) items
  | .object members => 0 < depth && holdableMembers (depth - 1) members

def holdableItems (depth : Nat) : List Json → Bool
  | [] => true
  | v :: rest => holdable depth v && holdableItems depth rest

def holdableMembers (depth : Nat) : List (List Char × Json) → Bool
  | [] => true
  | (key, v) :: rest => (unescape key).isSome && holdable depth v && holdableMembers depth rest
end

end TextureAtlas.Json
