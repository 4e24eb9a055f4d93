import Mathlib.Data.List.Induction
import TextureAtlas.Proofs.Names
import TextureAtlas.Proofs.Table

/-!
# Well-formed trees

In a well-formed tree everything lies in a directory and under a proper name. There a path that is longer by
names leads down by those names (`FileTree.leads_joinAll`), and a walk below a path finds just what longer paths
lead to (`FileTree.mem_listing`).
-/

namespace TextureAtlas.FileTree

/-- As a tree is found: names can be told from each other in a path, and what is there is in a directory. -/
structure WellFormed (t : FileTree) : Prop where
  named : ∀ e ∈ t.nodes.entries, e.1 ≠ [] ∧ ∀ name ∈ e.1, Path.IsName name
  housed : ∀ e ∈ t.nodes.entries, t.isDirectoryAt e.1.dropLast = true

instance (t : FileTree) : Decidable t.WellFormed :=
  decidable_of_iff ((∀ e ∈ t.nodes.entries, e.1 ≠ [] ∧ ∀ name ∈ e.1, Path.IsName name) ∧
    ∀ e ∈ t.nodes.entries, t.isDirectoryAt e.1.dropLast = true) ⟨fun h => ⟨h.1, h.2⟩, fun h => ⟨h.1, h.2⟩⟩

variable {t : FileTree} {p : Path} {l j : Location} {name : String} {names : List String} {n : FileNode}

/-! ## Locations -/

theorem node?_nil (t : FileTree) : t.node? [] = some .directory := if_pos rfl

theorem isDirectoryAt_iff : t.isDirectoryAt l = true ↔ t.node? l = some .directory := by simp [isDirectoryAt]

theorem isSome_of_isDirectoryAt (h : t.isDirectoryAt l = true) : (t.node? l).isSome = true := by
  rw [isDirectoryAt_iff.1 h]
  rfl

theorem mem_entries_of_node? (h : t.node? l = some n) (hl : l ≠ []) : (l, n) ∈ t.nodes.entries := by
  rw [Table.mem_entries_iff]
  simpa [node?, hl] using h

theorem WellFormed.mem_entries (ht : t.WellFormed) : (l, n) ∈ t.nodes.entries ↔ l ≠ [] ∧ t.node? l = some n := by
  constructor
  · intro h
    have hl := (ht.named _ h).1
    exact ⟨hl, by simpa [node?, hl] using Table.mem_entries_iff.1 h⟩
  · exact fun h => mem_entries_of_node? h.2 h.1

theorem WellFormed.isName (ht : t.WellFormed) (h : (t.node? l).isSome = true) (hmem : name ∈ l) : Path.IsName name := by
  obtain ⟨n, hn⟩ := Option.isSome_iff_exists.1 h
  exact (ht.named _ (mem_entries_of_node? hn (List.ne_nil_of_mem hmem))).2 name hmem

theorem WellFormed.isDirectoryAt_dropLast (ht : t.WellFormed) (h : (t.node? l).isSome = true) :
    t.isDirectoryAt l.dropLast = true := by
  by_cases hl : l = []
  · subst hl
    exact isDirectoryAt_iff.2 t.node?_nil
  · obtain ⟨n, hn⟩ := Option.isSome_iff_exists.1 h
    exact ht.housed _ (mem_entries_of_node? hn hl)

/-- Whatever holds something is a directory. -/
theorem WellFormed.isDirectoryAt (ht : t.WellFormed) (h : (t.node? (l ++ names)).isSome = true) (hne : names ≠ []) :
    t.isDirectoryAt l = true := by
  induction names using List.reverseRecOn with
  | nil => exact absurd rfl hne
  | append_singleton names name ih =>
    have hparent := ht.isDirectoryAt_dropLast h
    rw [← List.append_assoc, List.dropLast_concat] at hparent
    by_cases hnames : names = []
    · simpa [hnames] using hparent
    · exact ih (isSome_of_isDirectoryAt hparent) hnames

/-! ## Following names -/

theorem follow_cons (h : Path.IsName name) (t : FileTree) (l : Location) (rest : List String) :
    t.follow l (name :: rest) =
      if !t.isDirectoryAt l then .error .notDirectory
      else if (t.node? (l ++ [name])).isSome then t.follow (l ++ [name]) rest else .error .notFound := by
  rw [follow, if_neg h.2.2.1, if_neg h.2.2.2]

theorem WellFormed.follow_eq_ok (ht : t.WellFormed) (h : ∀ name ∈ names, Path.IsName name) :
    t.follow l names = .ok j ↔ j = l ++ names ∧ (names = [] ∨ (t.node? j).isSome = true) := by
  induction names generalizing l with
  | nil =>
    simp only [follow, Except.ok.injEq, List.append_nil, true_or, and_true]
    exact eq_comm
  | cons name names ih =>
    rw [List.forall_mem_cons] at h
    have hsplit : l ++ name :: names = (l ++ [name]) ++ names := by simp
    rw [follow_cons h.1]
    simp only [reduceCtorEq, false_or]
    constructor
    · intro hf
      split at hf
      · cases hf
      · split at hf
        · rename_i hsome
          obtain ⟨rfl, hj⟩ := (ih h.2).1 hf
          refine ⟨hsplit.symm, ?_⟩
          rcases hj with rfl | hj
          · simpa using hsome
          · exact hj
        · cases hf
    · rintro ⟨rfl, hj⟩
      rw [hsplit] at hj
      have hsome : (t.node? (l ++ [name])).isSome = true := by
        by_cases hnames : names = []
        · simpa [hnames] using hj
        · exact isSome_of_isDirectoryAt (ht.isDirectoryAt hj hnames)
      have hdir : t.isDirectoryAt l = true := ht.isDirectoryAt hsome (List.cons_ne_nil _ _)
      rw [hdir, if_neg (by decide), if_pos hsome]
      exact (ih h.2).2 ⟨hsplit, .inr (hsplit ▸ hj)⟩

/-! ## Longer paths -/

/-- The names of the path lead to the location. -/
def Leads (t : FileTree) (p : Path) (l : Location) : Prop := t.follow (t.start p) p.steps = .ok l

theorem Leads.unique (h : t.Leads p l) (h' : t.Leads p j) : l = j := Except.ok.inj (h.symm.trans h')

theorem leads_of_locate (h : t.locate p = .ok l) : t.Leads p l := by
  rw [locate] at h
  split at h
  · cases h
  · rw [follow_append] at h
    unfold Leads
    cases hf : t.follow (t.start p) p.steps with
    | error e =>
      rw [hf] at h
      cases h
    | ok b =>
      rw [hf] at h
      simp only [Except.bind] at h
      split at h
      · rw [follow] at h
        split at h
        · cases h
        · simpa [follow] using h
      · simpa [follow] using h

theorem start_join (h : Path.IsName name) (t : FileTree) (p : Path) : t.start (p.join name) = t.start p := by
  rw [start, start, Path.isAbsolute_join h]

theorem WellFormed.leads_join (ht : t.WellFormed) (h : Path.IsName name) : t.Leads (p.join name) l ↔
    ∃ b, t.Leads p b ∧ l = b ++ [name] ∧ (t.node? l).isSome = true := by
  simp only [Leads]
  rw [start_join h, Path.steps_join h, follow_append]
  cases hf : t.follow (t.start p) p.steps with
  | error e => simp [Except.bind]
  | ok b =>
    have hone : ∀ x ∈ [name], Path.IsName x := by simpa using h
    simp [Except.bind, ht.follow_eq_ok hone]

theorem WellFormed.leads_joinAll (ht : t.WellFormed) (h : ∀ name ∈ names, Path.IsName name) (hne : names ≠ []) :
    t.Leads (p.joinAll names) l ↔ ∃ b, t.Leads p b ∧ l = b ++ names ∧ (t.node? l).isSome = true := by
  induction names using List.reverseRecOn generalizing l with
  | nil => exact absurd rfl hne
  | append_singleton names name ih =>
    simp only [List.mem_append, List.mem_singleton, or_imp, forall_and, forall_eq] at h
    rw [Path.joinAll_concat, ht.leads_join h.2]
    by_cases hnames : names = []
    · subst hnames
      rfl
    · constructor
      · rintro ⟨c, hc, rfl, hsome⟩
        obtain ⟨b, hb, rfl, -⟩ := (ih h.1 hnames).1 hc
        exact ⟨b, hb, List.append_assoc .., hsome⟩
      · rintro ⟨b, hb, rfl, hsome⟩
        rw [← List.append_assoc] at hsome ⊢
        have hdir := ht.isDirectoryAt hsome (List.cons_ne_nil _ _)
        exact ⟨b ++ names, (ih h.1 hnames).2 ⟨b, hb, rfl, isSome_of_isDirectoryAt hdir⟩, rfl, hsome⟩

theorem locate_join (h : Path.IsName name) : t.locate (p.join name) = .ok l ↔ t.Leads (p.join name) l := by
  rw [locate, Path.isEmpty_join h, Path.endsWithSeparator_join h, Leads]
  simp

theorem locate_joinAll (h : ∀ name ∈ names, Path.IsName name) (hne : names ≠ []) :
    t.locate (p.joinAll names) = .ok l ↔ t.Leads (p.joinAll names) l := by
  induction names using List.reverseRecOn with
  | nil => exact absurd rfl hne
  | append_singleton names name =>
    rw [Path.joinAll_concat]
    exact locate_join (h name (by simp))

theorem WellFormed.find?_join (ht : t.WellFormed) (h : Path.IsName name) :
    t.find? (p.join name) = some n ↔ ∃ b, t.Leads p b ∧ t.node? (b ++ [name]) = some n := by
  rw [find?]
  constructor
  · intro hn
    split at hn
    · rename_i l hl
      obtain ⟨b, hb, rfl, -⟩ := (ht.leads_join h).1 ((locate_join h).1 hl)
      exact ⟨b, hb, hn⟩
    · cases hn
  · rintro ⟨b, hb, hn⟩
    have hl := (locate_join h).2 ((ht.leads_join h).2 ⟨b, hb, rfl, by rw [hn]; rfl⟩)
    rw [hl]
    exact hn

theorem isFile_iff : t.isFile p = true ↔ ∃ content, t.find? p = some (.file content) := by
  rw [isFile]
  split
  · simp [*]
  · rename_i hnot
    simp only [Bool.false_eq_true, false_iff]
    exact fun ⟨content, h⟩ => hnot content h

theorem isDirectory_iff : t.isDirectory p = true ↔ ∃ l, t.locate p = .ok l ∧ t.isDirectoryAt l = true := by
  rw [isDirectory, find?]
  cases t.locate p with
  | error e => simp
  | ok l => simp [isDirectoryAt]

/-! ## Walks -/

theorem below?_eq_some : below? l j = some names ↔ j = l ++ names ∧ names ≠ [] := by
  induction l generalizing j with
  | nil =>
    rw [below?]
    by_cases hj : j = []
    · simp [hj, eq_comm]
    · rw [if_neg hj]
      constructor
      · intro h
        cases h
        exact ⟨rfl, hj⟩
      · rintro ⟨rfl, -⟩
        rfl
  | cons a l ih =>
    cases j with
    | nil => simp [below?]
    | cons b j =>
      rw [below?]
      split
      · rename_i hab
        subst hab
        simp [ih]
      · rename_i hab
        simp [Ne.symm hab]

theorem mem_listing : (names, n) ∈ t.listing p ↔
    ∃ l, t.locate p = .ok l ∧ t.isDirectoryAt l = true ∧ names ≠ [] ∧ t.node? (l ++ names) = some n := by
  have hentry : ∀ {l : Location}, names ≠ [] →
      ((l ++ names, n) ∈ t.nodes.entries ↔ t.node? (l ++ names) = some n) := by
    intro l hne
    rw [Table.mem_entries_iff, node?, if_neg (by simp [hne])]
  rw [listing]
  cases hp : t.locate p with
  | error e => simp
  | ok l =>
    simp only [Except.ok.injEq, exists_eq_left']
    constructor
    · intro h
      split at h
      · rename_i hdir
        obtain ⟨⟨j, m⟩, hmem, he⟩ := List.mem_filterMap.1 h
        obtain ⟨names', hbelow, he⟩ := Option.map_eq_some_iff.1 he
        cases he
        obtain ⟨rfl, hne⟩ := below?_eq_some.1 hbelow
        exact ⟨hdir, hne, (hentry hne).1 hmem⟩
      · cases h
    · rintro ⟨hdir, hne, hn⟩
      rw [if_pos hdir, List.mem_filterMap]
      refine ⟨(l ++ names, n), (hentry hne).2 hn, ?_⟩
      rw [below?_eq_some.2 ⟨rfl, hne⟩]
      rfl

theorem WellFormed.mem_listing (ht : t.WellFormed) : (names, n) ∈ t.listing p ↔
    ∃ l, t.locate p = .ok l ∧ names ≠ [] ∧ t.node? (l ++ names) = some n := by
  rw [FileTree.mem_listing]
  refine exists_congr fun l => and_congr_right fun _ => and_iff_right_of_imp ?_
  rintro ⟨hne, hn⟩
  exact ht.isDirectoryAt (by rw [hn]; rfl) hne

/-- The walk of a directory and longer paths tell of the same files. -/
theorem WellFormed.mem_filesIn (ht : t.WellFormed) {d q : Path} (h : Path.IsName name) :
    q ∈ t.filesIn (d.join name) ↔
      ∃ file, Path.IsName file ∧ q = (d.join name).join file ∧ t.isFile q = true := by
  rw [filesIn, List.mem_filterMap]
  constructor
  · rintro ⟨⟨names, n⟩, hmem, hq⟩
    simp only at hq
    split at hq
    · rename_i file content
      obtain rfl := Option.some.inj hq
      obtain ⟨l, hl, -, hn⟩ := ht.mem_listing.1 hmem
      have hfile : Path.IsName file := ht.isName (l := l ++ [file]) (by rw [hn]; rfl) (by simp)
      exact ⟨file, hfile, rfl, isFile_iff.2 ⟨content, (ht.find?_join hfile).2 ⟨l, leads_of_locate hl, hn⟩⟩⟩
    · cases hq
  · rintro ⟨file, hfile, rfl, hq⟩
    obtain ⟨content, hn⟩ := isFile_iff.1 hq
    obtain ⟨l, hl, hn⟩ := (ht.find?_join hfile).1 hn
    exact ⟨([file], .file content), ht.mem_listing.2 ⟨l, (locate_join h).2 hl, List.cons_ne_nil _ _, hn⟩, rfl⟩

end TextureAtlas.FileTree
