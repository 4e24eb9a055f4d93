import Mathlib.Data.List.Sort
import TextureAtlas.Proofs.Tree

/-!
# The walk below a directory

A walk goes through the names in a directory in ascending order, and right behind a directory through what is
below it (`FileTree.walk`). The files in the listing of a directory are those of the walk, in the same order
(`FileTree.WellFormed.filesBelow_eq_walk`).
-/

namespace TextureAtlas.FileTree
variable {t : FileTree} {l : Location} {p : Path} {name : String} {names : List String}

/-! ## The walk -/

/-- The names right in a directory. -/
def namesAt (t : FileTree) (l : Location) : List String :=
  t.nodes.entries.filterMap fun e =>
    match below? l e.1 with
    | some [name] => some name
    | _ => none

/-- The files below a directory, by the names that lead to them; `levels` bounds how far down one looks. -/
def walk (t : FileTree) : Nat → Location → List (List String)
  | 0, _ => []
  | levels + 1, l => (t.namesAt l).flatMap fun name =>
    match t.node? (l ++ [name]) with
    | some .directory => (t.walk levels (l ++ [name])).map (name :: ·)
    | some (.file _) => [[name]]
    | none => []

/-- How many names at most lead to something in the tree. -/
def height (t : FileTree) : Nat := (t.nodes.entries.map (·.1.length)).foldr max 0

theorem length_le_height {e : Location × FileNode} (h : e ∈ t.nodes.entries) : e.1.length ≤ t.height := by
  have hmax : ∀ lengths : List Nat, ∀ k ∈ lengths, k ≤ lengths.foldr max 0 := by
    intro lengths
    induction lengths with
    | nil => simp
    | cons k lengths ih =>
      rw [List.forall_mem_cons]
      exact ⟨Nat.le_max_left .., fun m hm => Nat.le_trans (ih m hm) (Nat.le_max_right ..)⟩
  exact hmax _ _ (List.mem_map_of_mem h)

theorem WellFormed.mem_namesAt (ht : t.WellFormed) :
    name ∈ t.namesAt l ↔ (t.node? (l ++ [name])).isSome = true := by
  rw [namesAt, List.mem_filterMap]
  constructor
  · rintro ⟨⟨j, n⟩, hmem, he⟩
    simp only at he
    split at he
    · rename_i hbelow
      cases he
      obtain ⟨rfl, -⟩ := below?_eq_some.1 hbelow
      rw [(ht.mem_entries.1 hmem).2]
      rfl
    · cases he
  · intro hsome
    obtain ⟨n, hn⟩ := Option.isSome_iff_exists.1 hsome
    refine ⟨(l ++ [name], n), ht.mem_entries.2 ⟨by simp, hn⟩, ?_⟩
    simp only [below?_eq_some.2 ⟨rfl, List.cons_ne_nil name []⟩]

theorem WellFormed.mem_walk (ht : t.WellFormed) {levels : Nat} : names ∈ t.walk levels l ↔
    names.length ≤ levels ∧ names ≠ [] ∧ ∃ content, t.node? (l ++ names) = some (.file content) := by
  induction levels generalizing l names with
  | zero =>
    simp only [walk, List.not_mem_nil, Nat.le_zero, List.length_eq_zero_iff, false_iff]
    rintro ⟨rfl, hne, -⟩
    exact hne rfl
  | succ levels ih =>
    rw [walk, List.mem_flatMap]
    constructor
    · rintro ⟨name, -, hmem⟩
      split at hmem
      · obtain ⟨rest, hrest, rfl⟩ := List.mem_map.1 hmem
        obtain ⟨hlength, -, content, hfile⟩ := ih.1 hrest
        exact ⟨by simpa using hlength, List.cons_ne_nil _ _, content, by simpa using hfile⟩
      · rename_i content hfile
        rw [List.mem_singleton] at hmem
        subst hmem
        exact ⟨by simp, List.cons_ne_nil _ _, content, hfile⟩
      · cases hmem
    · rintro ⟨hlength, hne, content, hfile⟩
      obtain ⟨name, rest, rfl⟩ := List.exists_cons_of_ne_nil hne
      have hsplit : l ++ name :: rest = (l ++ [name]) ++ rest := by simp
      rw [hsplit] at hfile
      by_cases hrest : rest = []
      · subst hrest
        rw [List.append_nil] at hfile
        exact ⟨name, ht.mem_namesAt.2 (by rw [hfile]; rfl), by simp [hfile]⟩
      · have hdir := ht.isDirectoryAt (l := l ++ [name]) (by rw [hfile]; rfl) hrest
        refine ⟨name, ht.mem_namesAt.2 (isSome_of_isDirectoryAt hdir), ?_⟩
        rw [isDirectoryAt_iff.1 hdir]
        exact List.mem_map_of_mem (ih.2 ⟨by simpa using hlength, hrest, content, hfile⟩)

/-! ## Its order -/

theorem append_lt_append_iff {x y : List String} : l ++ x < l ++ y ↔ x < y := by
  induction l with
  | nil => rfl
  | cons a l ih => simp [ih]

/-- What the entries below a directory say is in the order of the names that lead there. -/
theorem pairwise_below {α : Type} {r : α → α → Prop} {f : Location × FileNode → Option α} (t : FileTree)
    (hf : ∀ {e e' a a'}, f e = some a → f e' = some a' → e.1 < e'.1 → r a a') :
    (t.nodes.entries.filterMap f).Pairwise r :=
  List.pairwise_filterMap.2 (t.nodes.ascending.imp fun hlt _ ha _ ha' => hf ha ha' hlt)

theorem pairwise_namesAt (t : FileTree) (l : Location) : (t.namesAt l).Pairwise (· < ·) := by
  refine t.pairwise_below fun {e e' a a'} ha ha' hlt => ?_
  split at ha
  · split at ha'
    · rename_i hbelow _ _ hbelow'
      cases ha
      cases ha'
      rw [(below?_eq_some.1 hbelow).1, (below?_eq_some.1 hbelow').1, append_lt_append_iff] at hlt
      simpa [List.cons_lt_cons_iff] using hlt
    · cases ha'
  · cases ha

theorem pairwise_walk (t : FileTree) (levels : Nat) (l : Location) : (t.walk levels l).Pairwise (· < ·) := by
  induction levels generalizing l with
  | zero => exact List.Pairwise.nil
  | succ levels ih =>
    have hhead : ∀ {name : String} {names : List String},
        names ∈ (match t.node? (l ++ [name]) with
          | some .directory => (t.walk levels (l ++ [name])).map (name :: ·)
          | some (.file _) => [[name]]
          | none => []) → ∃ rest, names = name :: rest := by
      intro name names hmem
      split at hmem
      · obtain ⟨rest, -, rfl⟩ := List.mem_map.1 hmem
        exact ⟨rest, rfl⟩
      · exact ⟨[], List.mem_singleton.1 hmem⟩
      · cases hmem
    rw [walk, List.pairwise_flatMap]
    constructor
    · intro name _
      split
      · exact List.pairwise_map.2 ((ih _).imp fun hlt => by simpa [List.cons_lt_cons_iff] using hlt)
      · exact List.pairwise_singleton ..
      · exact List.Pairwise.nil
    · refine (t.pairwise_namesAt l).imp fun hlt names hmem names' hmem' => ?_
      obtain ⟨rest, rfl⟩ := hhead hmem
      obtain ⟨rest', rfl⟩ := hhead hmem'
      exact List.cons_lt_cons_iff.2 (.inl hlt)

theorem pairwise_listing (t : FileTree) (p : Path) : (t.listing p).Pairwise fun e e' => e.1 < e'.1 := by
  unfold listing
  split
  · exact List.Pairwise.nil
  · split
    · refine t.pairwise_below fun {e e' a a'} ha ha' hlt => ?_
      obtain ⟨names, hbelow, rfl⟩ := Option.map_eq_some_iff.1 ha
      obtain ⟨names', hbelow', rfl⟩ := Option.map_eq_some_iff.1 ha'
      rw [(below?_eq_some.1 hbelow).1, (below?_eq_some.1 hbelow').1, append_lt_append_iff] at hlt
      exact hlt
    · exact List.Pairwise.nil

/-- The names in a listing that lead to files. -/
def fileNames (listing : List (List String × FileNode)) : List (List String) :=
  listing.filterMap fun e =>
    match e.2 with
    | .file _ => some e.1
    | .directory => none

theorem fst_of_fileName {e : List String × FileNode} (h : (match e.2 with
    | .file _ => some e.1
    | .directory => none) = some names) : e.1 = names ∧ ∃ content, e.2 = .file content := by
  split at h
  · rename_i content hfile
    exact ⟨Option.some.inj h, content, hfile⟩
  · cases h

theorem WellFormed.fileNames_listing (ht : t.WellFormed) (hl : t.locate p = .ok l) :
    fileNames (t.listing p) = t.walk t.height l := by
  refine List.Pairwise.eq_of_mem_iff ?_ (t.pairwise_walk _ l) fun names => ?_
  · refine List.pairwise_filterMap.2 ((t.pairwise_listing p).imp fun hlt names hnames names' hnames' => ?_)
    rw [← (fst_of_fileName hnames).1, ← (fst_of_fileName hnames').1]
    exact hlt
  · rw [fileNames, List.mem_filterMap, ht.mem_walk]
    constructor
    · rintro ⟨⟨j, n⟩, hmem, he⟩
      obtain ⟨rfl, content, rfl⟩ := fst_of_fileName he
      obtain ⟨l', hl', hne, hn⟩ := ht.mem_listing.1 hmem
      obtain rfl := Except.ok.inj (hl.symm.trans hl')
      have hlength := length_le_height (ht.mem_entries.2 ⟨by simp [hne], hn⟩)
      rw [List.length_append] at hlength
      exact ⟨Nat.le_trans (Nat.le_add_left ..) hlength, hne, content, hn⟩
    · rintro ⟨-, hne, content, hn⟩
      exact ⟨(names, .file content), ht.mem_listing.2 ⟨l, hl, hne, hn⟩, rfl⟩

/-- The files below a directory are those of the walk, in the same order. -/
theorem WellFormed.filesBelow_eq_walk (ht : t.WellFormed) (hl : t.locate p = .ok l) :
    t.filesBelow p = (t.walk t.height l).map p.joinAll := by
  rw [← ht.fileNames_listing hl, filesBelow, fileNames, List.map_filterMap]
  refine congrArg (fun f => (t.listing p).filterMap f) (funext fun e => ?_)
  obtain ⟨names, n⟩ := e
  cases n with
  | directory => rfl
  | file content => rfl

end TextureAtlas.FileTree
