/-!
# Tables in ascending order of their keys

A table holds one value per key, keys ascending. Names compare by code point, which is the order of
their UTF-8 bytes. Two tables with the same look-ups are equal, so a table may be read as a finite
function.
-/

namespace TextureAtlas

/-- Entries in strictly ascending order of their keys. -/
structure Table (κ α : Type) [LT κ] where
  entries : List (κ × α)
  ascending : entries.Pairwise (fun a b => a.1 < b.1)

/-- A table keyed by name. -/
abbrev NameTable (α : Type) := Table String α

/-- A finite set of names, ascending. -/
abbrev NameSet := NameTable Unit

/-- Keys in a strict linear order. -/
class KeyOrder (κ : Type) [LT κ] : Prop where
  lt_trans : ∀ {a b c : κ}, a < b → b < c → a < c
  lt_trichotomy : ∀ a b : κ, a < b ∨ a = b ∨ b < a

instance : KeyOrder String := ⟨Std.lt_trans, Std.lt_trichotomy⟩

instance : KeyOrder (List String) := ⟨Std.lt_trans, Std.lt_trichotomy⟩

namespace Table
variable {κ α : Type} [LT κ] [DecidableLT κ] [DecidableEq κ]

/-! ## Entry lists -/

/-- The value stored under `k`. -/
def lookupIn (k : κ) : List (κ × α) → Option α
  | [] => none
  | (k', v) :: rest => if k = k' then some v else lookupIn k rest

/-- `l` with `v` stored under `k`: in place of an old value, else before the first greater key. -/
def insertIn (k : κ) (v : α) : List (κ × α) → List (κ × α)
  | [] => [(k, v)]
  | (k', v') :: rest =>
    if k < k' then (k, v) :: (k', v') :: rest
    else if k = k' then (k, v) :: rest
    else (k', v') :: insertIn k v rest

theorem fst_mem_insertIn {k : κ} {v : α} {l : List (κ × α)} {p : κ × α}
    (h : p ∈ insertIn k v l) : p.1 = k ∨ p ∈ l := by
  fun_induction insertIn k v l with
  | case1 => simp_all
  | case2 k' v' rest hlt => rcases List.mem_cons.1 h with rfl | h <;> simp_all
  | case3 v' rest hlt => rcases List.mem_cons.1 h with rfl | h <;> simp_all
  | case4 k' v' rest _ _ ih =>
    rcases List.mem_cons.1 h with rfl | h
    · exact .inr (by simp)
    · rcases ih h with h | h
      · exact .inl h
      · exact .inr (List.mem_cons_of_mem _ h)

theorem lookupIn_insertIn (k : κ) (v : α) (l : List (κ × α)) (j : κ) :
    lookupIn j (insertIn k v l) = if j = k then some v else lookupIn j l := by
  fun_induction insertIn k v l with
  | case1 => simp [lookupIn]
  | case2 k' v' rest hlt => simp [lookupIn]
  | case3 v' rest hlt => by_cases h : j = k <;> simp [lookupIn, h]
  | case4 k' v' rest hlt hne ih =>
    by_cases h : j = k'
    · subst h; simp [lookupIn, show j ≠ k from fun e => hne e.symm]
    · simp [lookupIn, h, ih]

/-! ## Reading a table -/

instance : EmptyCollection (Table κ α) := ⟨⟨[], List.Pairwise.nil⟩⟩

instance : Inhabited (Table κ α) := ⟨{}⟩

/-- The value stored under `k`, if any. -/
def get? (t : Table κ α) (k : κ) : Option α := lookupIn k t.entries

/-- Whether some value is stored under `k`. -/
def contains (t : Table κ α) (k : κ) : Bool := (t.get? k).isSome

/-- The keys in use, ascending. -/
def keys (t : Table κ α) : List κ := t.entries.map (·.1)

omit [DecidableLT κ] in
@[simp] theorem get?_empty (k : κ) : ({} : Table κ α).get? k = none := rfl

/-! ## Writing a table -/

variable [KeyOrder κ]

theorem pairwise_insertIn (k : κ) (v : α) (l : List (κ × α))
    (hl : l.Pairwise (fun a b => a.1 < b.1)) :
    (insertIn k v l).Pairwise (fun a b => a.1 < b.1) := by
  fun_induction insertIn k v l with
  | case1 => simp
  | case2 k' v' rest hlt =>
    refine List.pairwise_cons.2 ⟨fun p hp => ?_, hl⟩
    rcases List.mem_cons.1 hp with rfl | hp
    · exact hlt
    · exact KeyOrder.lt_trans hlt ((List.pairwise_cons.1 hl).1 p hp)
  | case3 v' rest hlt =>
    exact List.pairwise_cons.2 ⟨(List.pairwise_cons.1 hl).1, (List.pairwise_cons.1 hl).2⟩
  | case4 k' v' rest hlt hne ih =>
    refine List.pairwise_cons.2 ⟨fun p hp => ?_, ih (List.pairwise_cons.1 hl).2⟩
    rcases fst_mem_insertIn hp with h | h
    · rcases KeyOrder.lt_trichotomy k k' with h' | h' | h'
      · exact absurd h' hlt
      · exact absurd h' hne
      · exact h ▸ h'
    · exact (List.pairwise_cons.1 hl).1 p h

/-- The table with `v` stored under `k`. -/
def insert (t : Table κ α) (k : κ) (v : α) : Table κ α :=
  ⟨insertIn k v t.entries, pairwise_insertIn k v t.entries t.ascending⟩

/-- The table with the entries of the list, later ones replacing earlier ones. -/
def ofList (l : List (κ × α)) : Table κ α := l.foldl (fun t e => t.insert e.1 e.2) {}

@[simp] theorem get?_insert (t : Table κ α) (k : κ) (v : α) (j : κ) :
    (t.insert k v).get? j = if j = k then some v else t.get? j :=
  lookupIn_insertIn k v t.entries j

end Table

namespace NameTable

/-- The names in use, ascending. -/
abbrev names {α : Type} (t : NameTable α) : List String := t.keys

/-- The set of the listed names. -/
def ofNames (l : List String) : NameSet := l.foldl (fun t k => t.insert k ()) {}

end NameTable
end TextureAtlas
