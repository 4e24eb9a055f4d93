import Mathlib.Data.List.Sort
import TextureAtlas.Table

/-!
# Tables as sets of entries

What a table stores under a key is found among its entries, and nothing else is (`Table.mem_entries_iff`). So
tables with the same look-ups are equal (`Table.ext_get?`).
-/

namespace TextureAtlas

namespace Table
variable {κ α : Type} [LT κ] [DecidableEq κ]

theorem contains_eq_false_iff {t : Table κ α} {k : κ} : t.contains k = false ↔ t.get? k = none := by
  simp [contains]

theorem contains_insert [DecidableLT κ] [KeyOrder κ] (t : Table κ α) (k : κ) (v : α) (j : κ) :
    (t.insert k v).contains j = true ↔ j = k ∨ t.contains j = true := by
  rw [contains, get?_insert]
  by_cases hj : j = k
  · simp [hj]
  · rw [if_neg hj]
    simp [hj, contains]

theorem mem_keys_iff {t : Table κ α} {k : κ} : k ∈ t.keys ↔ t.contains k = true := by
  have hlist : ∀ l : List (κ × α), k ∈ l.map (·.1) ↔ (lookupIn k l).isSome = true := by
    intro l
    induction l with
    | nil => simp [lookupIn]
    | cons e rest ih =>
      obtain ⟨j, v⟩ := e
      by_cases hj : k = j
      · simp [lookupIn, hj]
      · simp only [List.map_cons, List.mem_cons, hj, false_or, lookupIn, if_false, ih]
  exact hlist t.entries

/-- The table without a key. -/
def erase (t : Table κ α) (k : κ) : Table κ α :=
  ⟨t.entries.filter (·.1 ≠ k), t.ascending.filter _⟩

theorem get?_erase (t : Table κ α) (k j : κ) : (t.erase k).get? j = if j = k then none else t.get? j := by
  have hlist : ∀ l : List (κ × α), lookupIn j (l.filter (·.1 ≠ k)) = if j = k then none else lookupIn j l := by
    intro l
    induction l with
    | nil => simp [lookupIn]
    | cons e rest ih =>
      obtain ⟨i, v⟩ := e
      by_cases hi : i = k
      · subst hi
        simp only [ne_eq, not_true_eq_false, decide_false, Bool.false_eq_true, not_false_eq_true,
          List.filter_cons_of_neg, ih, lookupIn]
        split
        · rfl
        · rfl
      · simp only [ne_eq, hi, not_false_eq_true, decide_true, List.filter_cons_of_pos, lookupIn, ih]
        by_cases hj : j = i
        · simp [hj, hi]
        · simp [hj]
  exact hlist t.entries

/-- The entries whose keys pass the test. -/
def filter (t : Table κ α) (p : κ → Bool) : Table κ α :=
  ⟨t.entries.filter (p ·.1), t.ascending.filter _⟩

omit [DecidableEq κ] in
theorem keys_filter (t : Table κ α) (p : κ → Bool) : (t.filter p).keys = t.keys.filter p := by
  rw [keys, keys, filter, List.filter_map]
  rfl

theorem contains_filter (t : Table κ α) (p : κ → Bool) (k : κ) :
    (t.filter p).contains k = true ↔ t.contains k = true ∧ p k = true := by
  rw [← mem_keys_iff, keys_filter, List.mem_filter, mem_keys_iff]

section
variable [Std.Irrefl (fun a b : κ => a < b)]

theorem mem_iff_lookupIn {l : List (κ × α)} (hl : l.Pairwise fun a b => a.1 < b.1) {k : κ} {v : α} :
    (k, v) ∈ l ↔ lookupIn k l = some v := by
  induction l with
  | nil => simp [lookupIn]
  | cons e l ih =>
    obtain ⟨j, w⟩ := e
    rw [List.pairwise_cons] at hl
    by_cases hj : k = j
    · subst hj
      have hnot : (k, v) ∉ l := fun hmem => Std.Irrefl.irrefl k (hl.1 _ hmem)
      simp [lookupIn, hnot, eq_comm]
    · simp [lookupIn, hj, ih hl.2]

theorem mem_entries_iff {t : Table κ α} {k : κ} {v : α} : (k, v) ∈ t.entries ↔ t.get? k = some v :=
  mem_iff_lookupIn t.ascending

/-- A table is what it stores under each key. -/
theorem ext_get? [KeyOrder κ] {t u : Table κ α} (h : ∀ k, t.get? k = u.get? k) : t = u := by
  have hirrefl : Std.Irrefl fun a b : κ × α => a.1 < b.1 := ⟨fun a => Std.Irrefl.irrefl a.1⟩
  have hantisymm : Std.Antisymm fun a b : κ × α => a.1 < b.1 :=
    ⟨fun a b hab hba => absurd (KeyOrder.lt_trans hab hba) (hirrefl.irrefl a)⟩
  have hentries : t.entries = u.entries := by
    refine t.ascending.eq_of_mem_iff u.ascending ?_
    rintro ⟨k, v⟩
    rw [mem_entries_iff, mem_entries_iff, h]
  cases t
  cases u
  cases hentries
  rfl

end

end Table

/-- Of an ascending list, the first element that passes a test is no later than any other that does. -/
theorem exists_find?_le {l : List String} (hl : l.Pairwise (· < ·)) {p : String → Bool} {x : String}
    (hx : x ∈ l) (hp : p x = true) : ∃ m, l.find? p = some m ∧ (m = x ∨ m < x) := by
  cases hm : l.find? p with
  | none => exact absurd hp (List.find?_eq_none.1 hm x hx)
  | some m =>
    obtain ⟨-, before, after, rfl, hbefore⟩ := List.find?_eq_some_iff_append.1 hm
    refine ⟨m, rfl, ?_⟩
    rcases List.mem_append.1 hx with hx | hx
    · have := hbefore x hx
      simp [hp] at this
    · rcases List.mem_cons.1 hx with rfl | hx
      · exact .inl rfl
      · exact .inr (List.rel_of_pairwise_cons (List.pairwise_append.1 hl).2.1 hx)

namespace NameTable

theorem pairwise_names {α : Type} (t : NameTable α) : t.names.Pairwise (· < ·) := List.pairwise_map.2 t.ascending

theorem nodup_names {α : Type} (t : NameTable α) : t.names.Nodup := t.pairwise_names.imp fun hlt => Std.ne_of_lt hlt

theorem contains_insertAll (l : List String) (names : NameSet) (name : String) :
    (l.foldl (fun names n => names.insert n ()) names).contains name = true ↔
      name ∈ l ∨ names.contains name = true := by
  induction l generalizing names with
  | nil => simp
  | cons n l ih =>
    rw [List.foldl_cons, ih, Table.contains_insert, List.mem_cons, or_left_comm, or_assoc]

theorem mem_names_ofNames {l : List String} {name : String} : name ∈ (ofNames l).names ↔ name ∈ l := by
  rw [names, Table.mem_keys_iff, ofNames, contains_insertAll]
  simp [Table.contains]

/-- A set of names is what it contains. -/
theorem eq_of_contains {names more : NameSet}
    (h : ∀ name, names.contains name = true ↔ more.contains name = true) : names = more := by
  have hstored : ∀ (set : NameSet) (name : String), set.get? name = if set.contains name then some () else none := by
    intro set name
    rw [Table.contains]
    cases set.get? name <;> rfl
  refine Table.ext_get? fun name => ?_
  rw [hstored, hstored, Bool.eq_iff_iff.2 (h name)]

/-- One of the names stands right behind those that are smaller. -/
theorem exists_names_eq_append {set : NameSet} {name : String} (hname : set.contains name = true) :
    ∃ after, set.names = names (set.filter (· < name)) ++ name :: after := by
  obtain ⟨before, after, hsplit⟩ := List.append_of_mem (Table.mem_keys_iff.2 hname)
  have hascending := set.pairwise_names
  rw [names, hsplit, List.pairwise_append, List.pairwise_cons] at hascending
  obtain ⟨-, ⟨hafter, -⟩, hbefore⟩ := hascending
  have hkept : before.filter (· < name) = before :=
    List.filter_eq_self.2 fun m hm => decide_eq_true (hbefore m hm name List.mem_cons_self)
  have hdropped : (name :: after).filter (· < name) = [] := by
    refine List.filter_eq_nil_iff.2 fun m hm hlt => ?_
    rcases List.mem_cons.1 hm with rfl | hm
    · exact Std.lt_irrefl (of_decide_eq_true hlt)
    · exact Std.lt_irrefl (Std.lt_trans (of_decide_eq_true hlt) (hafter m hm))
  exact ⟨after, by rw [names, names, Table.keys_filter, hsplit, List.filter_append, hkept, hdropped, List.append_nil]⟩

/-- A name greater than all others comes last. -/
theorem names_insert_of_greater {set : NameSet} {z : String}
    (hz : ∀ name, set.contains name = true → name < z) : names (set.insert z ()) = set.names ++ [z] := by
  have hlist : ∀ l : List (String × Unit), (∀ m ∈ l.map (·.1), m < z) →
      (Table.insertIn z () l).map (·.1) = l.map (·.1) ++ [z] := by
    intro l hl
    induction l with
    | nil => rfl
    | cons e l ih =>
      obtain ⟨m, u⟩ := e
      have hm : m < z := hl m List.mem_cons_self
      have hlt : ¬ z < m := fun hlt => Std.lt_irrefl (Std.lt_trans hm hlt)
      have hne : z ≠ m := fun he => Std.lt_irrefl (he ▸ hm)
      rw [Table.insertIn, if_neg hlt, if_neg hne, List.map_cons, List.map_cons,
        ih fun m hm => hl m (List.mem_cons_of_mem _ hm), List.cons_append]
  exact hlist set.entries fun m hm => hz m (Table.mem_keys_iff.1 hm)

end NameTable
end TextureAtlas
