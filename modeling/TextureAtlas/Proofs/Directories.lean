import TextureAtlas.Proofs.Tree

/-!
# Making directories

A directory is made by following its names and making what is missing on the way (`FileTree.make`). The program
asks for the whole path first and for its parents only if that fails, and comes to the same
(`FileTree.make_of_createDirectories`, `FileTree.WellFormed.createDirectories_of_make`).
-/

namespace TextureAtlas

/-! ## Paths of names -/

namespace Path
variable {p q : Path} {name : String} {names : List String}

theorem notMem_of_mem_splitNames {cs acc : List Char} (hacc : '/' ∉ acc) (h : name ∈ splitNames cs acc) :
    '/' ∉ name.toList := by
  induction cs generalizing acc with
  | nil =>
    obtain rfl := List.mem_singleton.1 h
    simpa using hacc
  | cons c cs ih =>
    rw [splitNames] at h
    split at h
    · rcases List.mem_cons.1 h with rfl | h
      · simpa using hacc
      · exact ih List.not_mem_nil h
    · rename_i hc
      refine ih ?_ h
      simp [hacc, Ne.symm hc]

theorem plain_of_mem_steps (h : name ∈ p.steps) : name ≠ "" ∧ '/' ∉ name.toList := by
  obtain ⟨hmem, hne⟩ := List.mem_filter.1 h
  exact ⟨of_decide_eq_true hne, notMem_of_mem_splitNames List.not_mem_nil hmem⟩

theorem isName_of_mem_components (h : name ∈ p.components) (hup : name ≠ "..") : IsName name := by
  obtain ⟨hmem, hdot⟩ := List.mem_filter.1 h
  have hplain := plain_of_mem_steps hmem
  exact ⟨hplain.1, hplain.2, of_decide_eq_true hdot, hup⟩

theorem splitNames_intercalate (hne : names ≠ []) (h : ∀ name ∈ names, '/' ∉ name.toList) :
    splitNames ("/".intercalate names).toList [] = names := by
  induction names with
  | nil => exact absurd rfl hne
  | cons name names ih =>
    rw [List.forall_mem_cons] at h
    cases names with
    | nil =>
      rw [String.intercalate_singleton, splitNames_of_notMem h.1]
      simp
    | cons next rest =>
      have hslash : "/".toList = ['/'] := rfl
      rw [String.intercalate_cons_cons, String.toList_append, String.toList_append, hslash, List.append_assoc,
        List.singleton_append, splitNames_slash, ih (List.cons_ne_nil _ _) h.2, splitNames_of_notMem h.1]
      simp

theorem parent?_eq_some (h : p.parent? = some q) :
    q.steps = p.components.dropLast ∧ q.isAbsolute = p.isAbsolute := by
  have hplain : ∀ name ∈ p.components.dropLast, name ≠ "" ∧ '/' ∉ name.toList := fun name hname =>
    plain_of_mem_steps (List.mem_filter.1 ((List.dropLast_sublist _).mem hname)).1
  have hfilter : p.components.dropLast.filter (· ≠ "") = p.components.dropLast :=
    List.filter_eq_self.2 fun name hname => by simpa using (hplain name hname).1
  have hslash : "/".toList = ['/'] := rfl
  rw [parent?] at h
  split at h
  · cases h
  · obtain rfl := Option.some.inj h
    by_cases hnames : p.components.dropLast = []
    · simp only [hnames, String.intercalate_nil]
      cases p.isAbsolute with
      | true => exact ⟨rfl, rfl⟩
      | false => exact ⟨rfl, rfl⟩
    · have hsplit := splitNames_intercalate hnames fun name hname => (hplain name hname).2
      cases habs : p.isAbsolute with
      | true =>
        constructor
        · rw [steps, if_pos rfl, String.toList_append, hslash, ← List.nil_append (['/'] ++ _), List.singleton_append,
            splitNames_slash, hsplit, List.filter_append, hfilter]
          simp [splitNames]
        · simp [isAbsolute, hslash]
      | false =>
        constructor
        · rw [steps, if_neg Bool.false_ne_true, String.empty_append, hsplit, hfilter]
        · rw [if_neg Bool.false_ne_true, String.empty_append, isAbsolute, decide_eq_false_iff_not]
          intro hhead
          obtain ⟨cs, hcs⟩ := List.head?_eq_some_iff.1 hhead
          rw [hcs, splitNames, if_pos rfl] at hsplit
          exact (hplain "" (hsplit ▸ List.mem_cons_self)).1 rfl

end Path

namespace FileTree
variable {t t' t₀ u : FileTree} {l l' l₀ j : Location} {p q : Path} {name : String} {names more front : List String}
  {n : FileNode} {content : FileContent}

/-! ## More in a tree -/

/-- What was there is still there. -/
structure Keeps (t u : FileTree) : Prop where
  cwd : u.workingDirectory = t.workingDirectory
  node?_eq : ∀ {j n}, t.node? j = some n → u.node? j = some n

theorem Keeps.isDirectoryAt (h : t.Keeps u) (hdir : t.isDirectoryAt l = true) : u.isDirectoryAt l = true :=
  isDirectoryAt_iff.2 (h.node?_eq (isDirectoryAt_iff.1 hdir))

theorem Keeps.isSome (h : t.Keeps u) (hsome : (t.node? l).isSome = true) : (u.node? l).isSome = true := by
  obtain ⟨n, hn⟩ := Option.isSome_iff_exists.1 hsome
  rw [h.node?_eq hn]
  rfl

theorem Keeps.start_eq (h : t.Keeps u) (p : Path) : u.start p = t.start p := by rw [start, start, h.cwd]

theorem Keeps.follow (h : t.Keeps u) (hf : t.follow l names = .ok l') : u.follow l names = .ok l' := by
  induction names generalizing l with
  | nil => exact hf
  | cons name names ih =>
    rw [FileTree.follow] at hf ⊢
    split_ifs at hf with hdir hdot hup hsome
    · simp only [Bool.not_eq_true', Bool.not_eq_false] at hdir
      rw [if_neg (by simp [h.isDirectoryAt hdir]), if_pos hdot, ih hf]
    · simp only [Bool.not_eq_true', Bool.not_eq_false] at hdir
      rw [if_neg (by simp [h.isDirectoryAt hdir]), if_neg hdot, if_pos hup, ih hf]
    · simp only [Bool.not_eq_true', Bool.not_eq_false] at hdir
      rw [if_neg (by simp [h.isDirectoryAt hdir]), if_neg hdot, if_neg hup, if_pos (h.isSome hsome), ih hf]

/-- Only directories have been added. -/
structure Grows (t u : FileTree) : Prop extends Keeps t u where
  added : ∀ {j n}, u.node? j = some n → t.node? j = some n ∨ t.node? j = none ∧ n = .directory

theorem Grows.refl (t : FileTree) : t.Grows t := ⟨⟨rfl, id⟩, .inl⟩

theorem Grows.trans (h : t.Grows t₀) (h' : t₀.Grows u) : t.Grows u where
  cwd := h'.cwd.trans h.cwd
  node?_eq hn := h'.node?_eq (h.node?_eq hn)
  added hn := by
    rcases h'.added hn with hn | ⟨hnone, hdir⟩
    · exact h.added hn
    · refine .inr ⟨?_, hdir⟩
      rw [Option.eq_none_iff_forall_not_mem]
      intro m hm
      rw [h.node?_eq hm] at hnone
      cases hnone

theorem grows_store (hl : l ≠ []) (hnone : t.node? l = none) : t.Grows (t.store l .directory) where
  cwd := rfl
  node?_eq {j n} hn := by
    rw [node?_store t hl, if_neg, hn]
    rintro rfl
    rw [hnone] at hn
    cases hn
  added {j n} hn := by
    rw [node?_store t hl] at hn
    split at hn
    · rename_i hj
      subst hj
      exact .inr ⟨hnone, (Option.some.inj hn).symm⟩
    · exact .inl hn

theorem WellFormed.store (ht : t.WellFormed) (hdir : t.isDirectoryAt l = true) (hname : Path.IsName name)
    (hnot : t.node? (l ++ [name]) ≠ some .directory) (n : FileNode) : (t.store (l ++ [name]) n).WellFormed := by
  have hmem : ∀ e ∈ (t.store (l ++ [name]) n).nodes.entries, e.1 = l ++ [name] ∨ e ∈ t.nodes.entries :=
    fun e he => Table.fst_mem_insertIn he
  have hkept : ∀ {j}, t.isDirectoryAt j = true → (t.store (l ++ [name]) n).isDirectoryAt j = true := by
    intro j hj
    rw [isDirectoryAt_iff, node?_store t (by simp), if_neg, isDirectoryAt_iff.1 hj]
    rintro rfl
    exact hnot (isDirectoryAt_iff.1 hj)
  constructor
  · intro e he
    rcases hmem e he with hnew | hold
    · rw [hnew]
      refine ⟨by simp, fun x hx => ?_⟩
      rcases List.mem_append.1 hx with hx | hx
      · exact ht.isName (isSome_of_isDirectoryAt hdir) hx
      · rw [List.mem_singleton.1 hx]
        exact hname
    · exact ht.named e hold
  · intro e he
    rcases hmem e he with hnew | hold
    · rw [hnew, List.dropLast_concat]
      exact hkept hdir
    · exact hkept (ht.housed e hold)

/-! ## Making what is missing -/

/-- Follows names from a location, and makes the directories that are missing on the way. -/
def make : FileTree → Location → List String → Option (Location × FileTree)
  | t, l, [] => some (l, t)
  | t, l, name :: rest =>
    if !t.isDirectoryAt l then none
    else if name = ".." then make t l.dropLast rest
    else
      match t.node? (l ++ [name]) with
      | some .directory => make t (l ++ [name]) rest
      | some (.file _) => none
      | none => make (t.store (l ++ [name]) .directory) (l ++ [name]) rest

theorem make_append (t : FileTree) (l : Location) (names more : List String) :
    t.make l (names ++ more) = (t.make l names).bind fun r => r.2.make r.1 more := by
  induction names generalizing t l with
  | nil => rfl
  | cons name names ih =>
    rw [List.cons_append, make, make]
    split
    · rfl
    · split
      · exact ih ..
      · split
        · exact ih ..
        · rfl
        · exact ih ..

/-- What making names does to a well-formed tree: it grows, the names lead to the place, and that is a
directory if it began in one. -/
theorem WellFormed.make_spec (ht : t.WellFormed) (hnames : ∀ name ∈ names, name ≠ ".." → Path.IsName name)
    (h : t.make l names = some (l', t')) :
    t'.WellFormed ∧ t.Grows t' ∧ t'.follow l names = .ok l' ∧
      (t.isDirectoryAt l = true → t'.isDirectoryAt l' = true) := by
  induction names generalizing t l with
  | nil =>
    cases h
    exact ⟨ht, .refl _, rfl, id⟩
  | cons name names ih =>
    rw [List.forall_mem_cons] at hnames
    rw [make] at h
    split at h
    · cases h
    · rename_i hdir
      simp only [Bool.not_eq_true', Bool.not_eq_false] at hdir
      split at h
      · rename_i hup
        subst hup
        obtain ⟨ht', hgrows, hfollow, hends⟩ := ih ht hnames.2 h
        refine ⟨ht', hgrows, ?_, fun _ => hends (ht.isDirectoryAt_dropLast (isSome_of_isDirectoryAt hdir))⟩
        rw [follow, hgrows.isDirectoryAt hdir, if_neg (by decide), if_neg (by decide), if_pos rfl, hfollow]
      · rename_i hup
        have hname := hnames.1 hup
        have hsteps : ∀ {u : FileTree}, t.Grows u → u.WellFormed → u.isDirectoryAt (l ++ [name]) = true →
            u.make (l ++ [name]) names = some (l', t') →
            t'.WellFormed ∧ t.Grows t' ∧ t'.follow l (name :: names) = .ok l' ∧
              (t.isDirectoryAt l = true → t'.isDirectoryAt l' = true) := by
          intro u hu huwf hudir hmake
          obtain ⟨ht', hgrows, hfollow, hends⟩ := ih huwf hnames.2 hmake
          refine ⟨ht', hu.trans hgrows, ?_, fun _ => hends hudir⟩
          rw [follow_cons hname, (hu.trans hgrows).isDirectoryAt hdir, if_neg (by decide),
            if_pos (hgrows.isSome (isSome_of_isDirectoryAt hudir)), hfollow]
        split at h
        · rename_i hfound
          exact hsteps (.refl t) ht (isDirectoryAt_iff.2 hfound) h
        · cases h
        · rename_i hnone
          refine hsteps (grows_store (by simp) hnone) (ht.store hdir hname (by simp [hnone]) _) ?_ h
          rw [isDirectoryAt_iff, node?_store t (by simp), if_pos rfl]

/-- Where names lead to a directory, nothing has to be made. -/
theorem make_of_follow (hnames : ∀ name ∈ names, name ≠ ".") (h : t.follow l names = .ok l')
    (hdir : t.isDirectoryAt l' = true) : t.make l names = some (l', t) := by
  induction names generalizing l with
  | nil =>
    cases h
    rfl
  | cons name names ih =>
    rw [List.forall_mem_cons] at hnames
    rw [follow, if_neg hnames.1] at h
    split_ifs at h with hstart hup hsome
    · rw [make, if_neg hstart, if_pos hup, ih hnames.2 h]
    · rw [make, if_neg hstart, if_neg hup]
      cases hn : t.node? (l ++ [name]) with
      | none =>
        rw [hn] at hsome
        cases hsome
      | some n =>
        cases n with
        | directory => exact ih hnames.2 h
        | file content =>
          have hfile : t.isDirectoryAt (l ++ [name]) = false := by simp [isDirectoryAt, hn]
          cases names with
          | nil =>
            cases h
            cases hfile.symm.trans hdir
          | cons next rest =>
            simp [follow, hfile] at h

/-- Either nothing had to be made, or following the names found something missing. -/
theorem follow_of_make (hnames : ∀ name ∈ names, name ≠ ".") (h : t.make l names = some (l', t')) :
    (t' = t ∧ t.follow l names = .ok l') ∨ t.follow l names = .error .notFound := by
  induction names generalizing l with
  | nil =>
    cases h
    exact .inl ⟨rfl, rfl⟩
  | cons name names ih =>
    rw [List.forall_mem_cons] at hnames
    rw [make] at h
    rw [follow, if_neg hnames.1]
    split_ifs at h ⊢ with hstart hup hsome
    · exact ih hnames.2 h
    · obtain ⟨n, hn⟩ := Option.isSome_iff_exists.1 hsome
      rw [hn] at h
      cases n with
      | directory => exact ih hnames.2 h
      | file content => cases h
    · exact .inr rfl

/-! ## Dots on the way -/

theorem isDirectoryAt_of_follow_cons {rest : List String} (h : t.follow l (name :: rest) ≠ .error .notDirectory) :
    t.isDirectoryAt l = true := by
  rw [← Bool.not_eq_false]
  intro hnot
  simp [follow, hnot] at h

theorem follow_dot (hdir : t.isDirectoryAt l = true) (rest : List String) :
    t.follow l ("." :: rest) = t.follow l rest := by
  rw [follow, hdir, if_neg (by decide), if_pos rfl]

/-- Dots only ask for a directory, and whoever goes on asks for it anyway. -/
theorem follow_of_follow_filter {result : Except IoError Location}
    (h : t.follow l (names.filter (· ≠ ".")) = result)
    (hresult : (∃ l', result = .ok l' ∧ t.isDirectoryAt l' = true) ∨ result = .error .notFound) :
    t.follow l names = result := by
  induction names generalizing l with
  | nil => exact h
  | cons name names ih =>
    by_cases hdot : name = "."
    · subst hdot
      rw [List.filter_cons_of_neg (by simp)] at h
      have hdir : t.isDirectoryAt l = true := by
        cases hfilter : names.filter (· ≠ ".") with
        | nil =>
          rw [hfilter] at h
          rcases hresult with ⟨l', hl', hdir⟩ | hnot
          · rw [← h] at hl'
            cases hl'
            exact hdir
          · rw [← h] at hnot
            cases hnot
        | cons next rest =>
          rw [hfilter] at h
          have hgo : t.follow l (next :: rest) ≠ .error .notDirectory := by
            rw [h]
            rcases hresult with ⟨l', rfl, -⟩ | rfl
            · simp
            · simp
          exact isDirectoryAt_of_follow_cons hgo
      rw [follow_dot hdir, ih h]
    · rw [List.filter_cons_of_pos (by simp [hdot]), follow, if_neg hdot] at h
      rw [follow, if_neg hdot]
      split_ifs at h ⊢ with hnot hup hsome
      · exact h
      · exact ih h
      · exact ih h
      · exact h

theorem follow_filter_of_follow (h : t.follow l names = .ok l') : t.follow l (names.filter (· ≠ ".")) = .ok l' := by
  induction names generalizing l with
  | nil => exact h
  | cons name names ih =>
    by_cases hdot : name = "."
    · subst hdot
      have hdir : t.isDirectoryAt l = true := isDirectoryAt_of_follow_cons (by rw [h]; simp)
      rw [follow_dot hdir] at h
      rw [List.filter_cons_of_neg (by simp), ih h]
    · rw [List.filter_cons_of_pos (by simp [hdot]), follow, if_neg hdot]
      rw [follow, if_neg hdot] at h
      split_ifs at h ⊢ with hnot hup hsome
      · exact ih h
      · exact ih h

/-! ## What the program does -/

theorem isEmpty_of_steps (hp : p.steps ≠ []) : p.text.isEmpty = false := by
  rw [Bool.eq_false_iff, ne_eq, String.isEmpty_iff]
  intro he
  exact hp (by simp [Path.steps, he, Path.splitNames])

theorem createDirectory_eq (hp : p.steps = front ++ [name]) :
    t.createDirectory p = (t.follow (t.start p) front).bind fun parent =>
      if !t.isDirectoryAt parent then .error .notDirectory
      else if name = "." ∨ name = ".." ∨ (t.node? (parent ++ [name])).isSome then .error .alreadyExists
      else .ok (t.store (parent ++ [name]) .directory) := by
  rw [createDirectory, place?, isEmpty_of_steps (by simp [hp]), if_neg Bool.false_ne_true, hp]
  simp only [List.getLast?_append, List.getLast?_singleton, Option.some_or, List.dropLast_concat]
  cases t.follow (t.start p) front with
  | error e => rfl
  | ok parent =>
    simp only [bind, Except.bind]
    cases t.isDirectoryAt parent with
    | false => rfl
    | true =>
      by_cases hdots : name = "." ∨ name = ".."
      · have hany : name = "." ∨ name = ".." ∨ (t.node? (parent ++ [name])).isSome = true := by
          rcases hdots with h | h
          · exact .inl h
          · exact .inr (.inl h)
        simp only [Bool.not_true, Bool.false_eq_true, if_false, if_pos hdots, if_pos hany]
        rfl
      · simp only [not_or] at hdots
        simp only [hdots.1, hdots.2, Bool.not_true, Bool.false_eq_true, if_false, false_or]
        rfl

theorem locate_eq_of_leads (hp : p.steps ≠ []) (h : t.Leads p l) (hdir : t.isDirectoryAt l = true) :
    t.locate p = .ok l := by
  rw [locate, isEmpty_of_steps hp, if_neg Bool.false_ne_true, follow_append, h]
  simp only [Except.bind]
  split
  · rw [follow_dot hdir]
    rfl
  · rfl

theorem isDirectory_iff_leads (hp : p.steps ≠ []) :
    t.isDirectory p = true ↔ ∃ l, t.Leads p l ∧ t.isDirectoryAt l = true := by
  rw [isDirectory_iff]
  exact exists_congr fun l => ⟨fun h => ⟨leads_of_locate h.1, h.2⟩, fun h => ⟨locate_eq_of_leads hp h.1 h.2, h.2⟩⟩

/-- A directory that is made where its parent is: it was missing, or it is there. -/
theorem WellFormed.createDirectory_of_make (ht : t.WellFormed) (hp : p.steps = front ++ [name]) (hdot : name ≠ ".")
    (hfront : t.follow (t.start p) front = .ok l₀) (h : t.make l₀ [name] = some (l', t')) :
    t.createDirectory p = .ok t' ∨
      t.createDirectory p = .error .alreadyExists ∧ t.isDirectory p = true ∧ t' = t := by
  rw [createDirectory_eq hp, hfront]
  rw [make] at h
  have hthere : ∀ {j}, t.follow l₀ [name] = .ok j → t.isDirectoryAt j = true → t.isDirectory p = true := by
    intro j hj hdir
    refine (isDirectory_iff_leads (by simp [hp])).2 ⟨j, ?_, hdir⟩
    rw [Leads, hp, follow_append, hfront]
    exact hj
  simp only [Except.bind, hdot, false_or]
  split at h
  · cases h
  · rename_i hdir
    rw [if_neg hdir]
    simp only [Bool.not_eq_true', Bool.not_eq_false] at hdir
    split at h
    · rename_i hup
      cases h
      refine .inr ⟨by rw [if_pos (.inl hup)], hthere (j := l₀.dropLast) ?_ ?_, rfl⟩
      · rw [hup, follow, hdir, if_neg (by decide), if_neg (by decide), if_pos rfl]
        rfl
      · exact ht.isDirectoryAt_dropLast (isSome_of_isDirectoryAt hdir)
    · rename_i hup
      split at h
      · rename_i hfound
        cases h
        have hsome : (t.node? (l₀ ++ [name])).isSome = true := by simp [hfound]
        refine .inr ⟨by rw [if_pos (.inr hsome)], hthere (j := l₀ ++ [name]) ?_ (isDirectoryAt_iff.2 hfound), rfl⟩
        rw [follow, hdir, if_neg (by decide), if_neg hdot, if_neg hup, if_pos hsome]
        rfl
      · cases h
      · rename_i hnone
        cases h
        left
        rw [if_neg]
        simp [hup, hnone]

section
variable {levels : Nat}

theorem createDirectories_of_ok (hp : p.steps ≠ []) (h : t.createDirectory p = .ok t') :
    createDirectories levels t p = (.ok (), t') := by
  rw [createDirectories.eq_def]
  simp only [isEmpty_of_steps hp, Bool.false_eq_true, if_false, h]

theorem createDirectories_of_exists (hp : p.steps ≠ []) (h : t.createDirectory p = .error .alreadyExists)
    (hdir : t.isDirectory p = true) : createDirectories levels t p = (.ok (), t) := by
  rw [createDirectories.eq_def]
  simp only [isEmpty_of_steps hp, Bool.false_eq_true, if_false, h, hdir, if_true]

theorem createDirectories_of_missing (hp : p.steps ≠ []) (h : t.createDirectory p = .error .notFound)
    (hparent : p.parent? = some q) (hq : createDirectories levels t q = (.ok (), t₀)) :
    createDirectories (levels + 1) t p =
      match t₀.createDirectory p with
      | .ok t => (.ok (), t)
      | .error e => if t₀.isDirectory p then (.ok (), t₀) else (.error e, t₀) := by
  have hunfold := createDirectories.eq_def (levels + 1) t p
  simp only [isEmpty_of_steps hp, Bool.false_eq_true, if_false, h, hparent, hq] at hunfold
  exact hunfold

end

theorem components_concat (hp : p.steps = front ++ [name]) (hdot : name ≠ ".") :
    p.components = front.filter (· ≠ ".") ++ [name] := by
  rw [Path.components, hp, List.filter_append]
  simp [hdot]

theorem isDirectoryAt_of_make_cons {rest : List String} {r : Location × FileTree}
    (h : t.make l (name :: rest) = some r) : t.isDirectoryAt l = true := by
  rw [← Bool.not_eq_false]
  intro hnot
  simp [make, hnot] at h

/-- Whatever making the names of a path gives is made by the program, if the path does not end in a dot. -/
theorem WellFormed.createDirectories_of_make (ht : t.WellFormed) {levels : Nat} (hp : p.steps = front ++ [name])
    (hdot : name ≠ ".") (hlevels : p.components.length ≤ levels)
    (h : t.make (t.start p) p.components = some (l', t')) : createDirectories levels t p = (.ok (), t') := by
  induction levels generalizing p front name l' t' with
  | zero =>
    rw [components_concat hp hdot] at hlevels
    simp at hlevels
  | succ levels ih =>
    have hsteps : p.steps ≠ [] := by simp [hp]
    have hcomponents := components_concat hp hdot
    rw [hcomponents, make_append] at h
    obtain ⟨⟨l₀, t₀⟩, hfirst, hlast⟩ := Option.bind_eq_some_iff.1 h
    have hproper : ∀ x ∈ front.filter (· ≠ "."), x ≠ ".." → Path.IsName x := fun x hx hup =>
      Path.isName_of_mem_components (hcomponents ▸ List.mem_append_left _ hx) hup
    have hdots : ∀ x ∈ front.filter (· ≠ "."), x ≠ "." := fun x hx => by simpa using (List.mem_filter.1 hx).2
    obtain ⟨ht₀, hgrows, hfollow₀, -⟩ := ht.make_spec hproper hfirst
    have hfront : t₀.follow (t₀.start p) front = .ok l₀ := by
      rw [hgrows.start_eq]
      exact follow_of_follow_filter hfollow₀ (.inl ⟨l₀, rfl, isDirectoryAt_of_make_cons hlast⟩)
    have hattempt := ht₀.createDirectory_of_make hp hdot hfront hlast
    rcases follow_of_make hdots hfirst with ⟨rfl, -⟩ | hmissing
    · rcases hattempt with hok | ⟨hexists, hdir, rfl⟩
      · exact createDirectories_of_ok hsteps hok
      · exact createDirectories_of_exists hsteps hexists hdir
    · have hnotFound : t.createDirectory p = .error .notFound := by
        rw [createDirectory_eq hp, follow_of_follow_filter hmissing (.inr rfl)]
        rfl
      have hparent : ∃ q, p.parent? = some q := by
        rw [Path.parent?, hcomponents]
        simp
      obtain ⟨q, hq⟩ := hparent
      obtain ⟨hqsteps, hqabsolute⟩ := Path.parent?_eq_some hq
      rw [hcomponents, List.dropLast_concat] at hqsteps
      have hqcomponents : q.components = front.filter (· ≠ ".") := by
        rw [Path.components, hqsteps, List.filter_filter]
        simp
      have hqstart : t.start q = t.start p := by rw [start, start, hqabsolute]
      -- Something is missing, so the parent has names too.
      rcases List.eq_nil_or_concat (front.filter (· ≠ ".")) with hnil | ⟨front', name', hconcat⟩
      · rw [hnil] at hmissing
        cases hmissing
      · rw [List.concat_eq_append] at hconcat
        have hmade := ih (hqsteps.trans hconcat) (hdots name' (by rw [hconcat]; simp)) (by
          rw [hcomponents, List.length_append, List.length_singleton] at hlevels
          rw [hqcomponents]
          omega) (by rw [hqstart, hqcomponents]; exact hfirst)
        rw [createDirectories_of_missing hsteps hnotFound hq hmade]
        rcases hattempt with hok | ⟨hexists, hdir, rfl⟩
        · rw [hok]
        · rw [hexists]
          simp [hdir]

/-- A directory that was made is what making the last name gives. -/
theorem make_of_createDirectory (hp : p.steps = front ++ [name]) (h : t.createDirectory p = .ok t') :
    name ≠ "." ∧ ∃ l₀ l, t.follow (t.start p) (front.filter (· ≠ ".")) = .ok l₀ ∧ t.isDirectoryAt l₀ = true ∧
      t.make l₀ [name] = some (l, t') := by
  rw [createDirectory_eq hp] at h
  cases hfront : t.follow (t.start p) front with
  | error e =>
    rw [hfront] at h
    cases h
  | ok l₀ =>
    rw [hfront] at h
    simp only [Except.bind] at h
    split at h
    · cases h
    · rename_i hdir
      split at h
      · cases h
      · rename_i hfree
        cases h
        simp only [not_or, Bool.not_eq_true, Option.isSome_eq_false_iff, Option.isNone_iff_eq_none] at hfree
        refine ⟨hfree.1, l₀, l₀ ++ [name], follow_filter_of_follow hfront, by simpa using hdir, ?_⟩
        rw [make, if_neg hdir, if_neg hfree.2.1, hfree.2.2]
        rfl

/-- How the program comes to an end that is good: it makes the directory, finds it, or makes its parent first. -/
theorem createDirectories_cases {levels : Nat} (hp : p.steps ≠ [])
    (h : createDirectories levels t p = (.ok (), t')) :
    (t.createDirectory p = .ok t' ∨ t.isDirectory p = true ∧ t' = t) ∨
    ∃ below q t₀, levels = below + 1 ∧ p.parent? = some q ∧ createDirectories below t q = (.ok (), t₀) ∧
      (t₀.createDirectory p = .ok t' ∨ t₀.isDirectory p = true ∧ t' = t₀) := by
  have hend : ∀ {u : FileTree} {e : IoError},
      (if u.isDirectory p then (Except.ok (), u) else (Except.error e, u)) = (Except.ok (), t') →
        u.isDirectory p = true ∧ t' = u := by
    intro u e he
    split at he
    · rename_i hdir
      cases he
      exact ⟨hdir, rfl⟩
    · cases he
  rw [createDirectories.eq_def] at h
  simp only [isEmpty_of_steps hp, Bool.false_eq_true, if_false] at h
  split at h
  · rename_i hcreate
    cases h
    exact .inl (.inl hcreate)
  · split at h
    · rename_i below q hq
      split at h
      · cases h
      · rename_i t₀ hmade
        refine .inr ⟨below, q, t₀, rfl, hq, hmade, ?_⟩
        split at h
        · rename_i hcreate
          cases h
          exact .inl hcreate
        · exact .inr (hend h)
    · cases h
  · exact .inl (.inr (hend h))

theorem createDirectories_of_steps_eq_nil {levels : Nat} (hp : p.steps = [])
    (h : createDirectories levels t p = (.ok (), t')) : t' = t := by
  rw [createDirectories.eq_def] at h
  simp only at h
  split at h
  · cases h
    rfl
  · rename_i hempty
    have hcreate : t.createDirectory p = .error .alreadyExists := by
      rw [createDirectory, place?, if_neg hempty, hp]
      rfl
    rw [hcreate] at h
    simp only at h
    split at h
    · cases h
      rfl
    · cases h

/-- Whatever the program makes for a path is what making its names gives. -/
theorem WellFormed.make_of_createDirectories (ht : t.WellFormed) {levels : Nat} (hp : p.steps ≠ [])
    (h : createDirectories levels t p = (.ok (), t')) : ∃ l, t.make (t.start p) p.components = some (l, t') := by
  induction levels using Nat.strong_induction_on generalizing p t' with
  | h levels ih =>
    obtain ⟨front, name, hsteps⟩ : ∃ front name, p.steps = front ++ [name] := by
      rcases List.eq_nil_or_concat p.steps with hnil | ⟨front, name, hconcat⟩
      · exact absurd hnil hp
      · exact ⟨front, name, by simpa using hconcat⟩
    have hnodots : ∀ x ∈ p.components, x ≠ "." := fun x hx => by simpa using (List.mem_filter.1 hx).2
    rcases createDirectories_cases hp h with (hmade | ⟨hdir, rfl⟩) | ⟨below, q, t₀, rfl, hq, hparent, hrest⟩
    · obtain ⟨hdot, l₀, l, hfront, hl₀, hlast⟩ := make_of_createDirectory hsteps hmade
      rw [components_concat hsteps hdot] at hnodots ⊢
      rw [make_append, make_of_follow (fun x hx => hnodots x (List.mem_append_left _ hx)) hfront hl₀]
      exact ⟨l, hlast⟩
    · obtain ⟨l, hl, hl'⟩ := (isDirectory_iff_leads hp).1 hdir
      exact ⟨l, make_of_follow hnodots (follow_filter_of_follow hl) hl'⟩
    · obtain ⟨hqsteps, hqabsolute⟩ := Path.parent?_eq_some hq
      have hqcomponents : q.components = p.components.dropLast := by
        rw [Path.components, hqsteps, List.filter_eq_self]
        exact fun x hx => by simpa using hnodots x ((List.dropLast_sublist _).mem hx)
      have hqstart : t.start q = t.start p := by rw [start, start, hqabsolute]
      have hfirst : ∃ l₁, t.make (t.start p) p.components.dropLast = some (l₁, t₀) := by
        by_cases hnil : q.steps = []
        · rw [hqsteps] at hnil
          rw [hnil, createDirectories_of_steps_eq_nil (hqsteps.trans hnil) hparent]
          exact ⟨_, rfl⟩
        · rw [← hqcomponents, ← hqstart]
          exact ih below (Nat.lt_succ_self below) hnil hparent
      obtain ⟨l₁, hfirst⟩ := hfirst
      have hproper : ∀ x ∈ p.components.dropLast, x ≠ ".." → Path.IsName x := fun x hx hup =>
        Path.isName_of_mem_components ((List.dropLast_sublist _).mem hx) hup
      obtain ⟨-, hgrows, hfollow, -⟩ := ht.make_spec hproper hfirst
      rcases hrest with hmade | ⟨hdir, rfl⟩
      · obtain ⟨hdot, l₀, l, hfront, -, hlast⟩ := make_of_createDirectory hsteps hmade
        rw [components_concat hsteps hdot] at hfirst hfollow ⊢
        rw [List.dropLast_concat] at hfirst hfollow
        rw [hgrows.start_eq] at hfront
        obtain rfl := Except.ok.inj (hfollow.symm.trans hfront)
        rw [make_append, hfirst]
        exact ⟨l, hlast⟩
      · obtain ⟨l, hl, hl'⟩ := (isDirectory_iff_leads hp).1 hdir
        rcases List.eq_nil_or_concat p.components with hnil | ⟨init, c, hconcat⟩
        · rw [Path.parent?, hnil] at hq
          cases hq
        · rw [List.concat_eq_append] at hconcat
          have hall := follow_filter_of_follow hl
          rw [← Path.components, hgrows.start_eq, hconcat, follow_append] at hall
          rw [hconcat, List.dropLast_concat] at hfirst hfollow
          rw [hfollow] at hall
          rw [hconcat, make_append, hfirst]
          refine ⟨l, make_of_follow (fun x hx => hnodots x ?_) hall hl'⟩
          rw [hconcat]
          exact List.mem_append_right _ hx

/-! ## A directory in one that is there -/

/-- The tree with a directory at a place where no file is. -/
def ensureDirectory (t : FileTree) (l : Location) : FileTree :=
  if (t.node? l).isSome then t else t.store l .directory

theorem node?_ensureDirectory (hl : l ≠ []) (hfile : ∀ content, t.node? l ≠ some (.file content)) (j : Location) :
    (t.ensureDirectory l).node? j = if j = l then some .directory else t.node? j := by
  rw [ensureDirectory]
  split
  · rename_i hsome
    split
    · rename_i hj
      subst hj
      obtain ⟨n, hn⟩ := Option.isSome_iff_exists.1 hsome
      cases n with
      | directory => exact hn
      | file content => exact absurd hn (hfile content)
    · rfl
  · exact node?_store t hl _ j

theorem isDirectoryAt_ensureDirectory (hl : l ≠ []) (hfile : ∀ content, t.node? l ≠ some (.file content)) :
    (t.ensureDirectory l).isDirectoryAt l = true := by
  rw [isDirectoryAt_iff, node?_ensureDirectory hl hfile, if_pos rfl]

theorem ensureDirectory_of_isDirectoryAt (h : t.isDirectoryAt l = true) : t.ensureDirectory l = t := by
  rw [ensureDirectory, isSome_of_isDirectoryAt h, if_pos rfl]

theorem grows_ensureDirectory (hl : l ≠ []) : t.Grows (t.ensureDirectory l) := by
  rw [ensureDirectory]
  split
  · exact .refl t
  · rename_i hnot
    exact grows_store hl (Option.not_isSome_iff_eq_none.1 hnot)

/-- A new name in a directory that can be made: the directory is made, and then the name in it. -/
theorem WellFormed.createAll_join (ht : t.WellFormed) (hname : Path.IsName name)
    (h : t.make (t.start p) p.components = some (l, u)) (hdir : u.isDirectoryAt l = true)
    (hfile : ∀ content, u.node? (l ++ [name]) ≠ some (.file content)) :
    t.createAll (p.join name) = (.ok (), u.ensureDirectory (l ++ [name])) := by
  have hsteps := Path.steps_join hname p
  have hcomponents : (p.join name).components = p.components ++ [name] := components_concat hsteps hname.2.2.1
  refine ht.createDirectories_of_make hsteps hname.2.2.1 (List.length_filter_le ..) (?_ : _ = some (l ++ [name], _))
  rw [hcomponents, start_join hname, make_append, h]
  simp only [Option.bind_some, make, hdir, Bool.not_true, Bool.false_eq_true, if_false, if_neg hname.2.2.2,
    ensureDirectory]
  cases hn : u.node? (l ++ [name]) with
  | none => rfl
  | some n =>
    cases n with
    | directory => rfl
    | file content => exact absurd hn (hfile content)

/-- A place that was not there and is there after making a path was made with all its names. -/
theorem WellFormed.make_of_createAll (ht : t.WellFormed) (hcwd : t.isDirectoryAt t.workingDirectory = true)
    (h : t.createAll p = (.ok (), u)) (hl : u.locate p = .ok l) (hnone : t.node? l = none) :
    t.make (t.start p) p.components = some (l, u) ∧ u.WellFormed ∧ t.Grows u ∧ u.isDirectoryAt l = true := by
  have hstart : t.isDirectoryAt (t.start p) = true := by
    rw [start]
    split
    · exact isDirectoryAt_iff.2 t.node?_nil
    · exact hcwd
  have hsteps : p.steps ≠ [] := by
    intro hnil
    have hu : u = t := createDirectories_of_steps_eq_nil hnil h
    have hlead := leads_of_locate hl
    rw [hu, Leads, hnil] at hlead
    cases hlead
    rw [isDirectoryAt_iff.1 hstart] at hnone
    cases hnone
  obtain ⟨l', hmake⟩ := ht.make_of_createDirectories hsteps h
  obtain ⟨hu, hgrows, hfollow, hends⟩ :=
    ht.make_spec (fun x hx hup => Path.isName_of_mem_components hx hup) hmake
  have hlead := follow_filter_of_follow (leads_of_locate hl)
  rw [hgrows.start_eq] at hlead
  obtain rfl := Except.ok.inj (hfollow.symm.trans hlead)
  exact ⟨hmake, hu, hgrows, hends hstart⟩

end FileTree
end TextureAtlas
