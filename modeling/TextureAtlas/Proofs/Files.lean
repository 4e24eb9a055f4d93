import Mathlib.Tactic.SplitIfs
import TextureAtlas.Files.Tree

/-!
# Files next to each other

More text at the end of a path changes its last name only (`Path.extended`), so such paths lead to places
in one directory. A file written at one of them is read there until it is written over, whatever becomes
of the others (`FileTree.read_writeAll`). Whatever the path, what has been written at it is read there
(`FileTree.read_write`).
-/

namespace TextureAtlas

/-! ## Longer last names -/

namespace Path

/-- The names in front of the last separator. -/
def directories (p : Path) : List String := (splitNames p.text.toList []).dropLast.filter (· ≠ "")

/-- What follows the last separator. -/
def lastPart (p : Path) : String := (splitNames p.text.toList []).getLastD ""

/-- The path with more text at its end. -/
def extended (p : Path) (tail : String) : Path := ⟨p.text ++ tail⟩

/-- Text that adds to the last name of a path, so that the name is not made of dots. -/
structure IsTail (tail : String) : Prop where
  inside : '/' ∉ tail.toList
  marked : '_' ∈ tail.toList

variable {p : Path} {tail : String}

theorem splitNames_of_notMem {cs : List Char} (h : '/' ∉ cs) (acc : List Char) :
    splitNames cs acc = [String.ofList (acc.reverse ++ cs)] := by
  induction cs generalizing acc with
  | nil => simp [splitNames]
  | cons c cs ih =>
    simp only [List.mem_cons, not_or] at h
    rw [splitNames, if_neg (Ne.symm h.1), ih h.2]
    simp

theorem splitNames_ne_nil (cs acc : List Char) : splitNames cs acc ≠ [] := by
  induction cs generalizing acc with
  | nil => simp [splitNames]
  | cons c cs ih =>
    rw [splitNames]
    split
    · simp
    · exact ih _

theorem splitNames_append {more : List Char} (h : '/' ∉ more) (cs acc : List Char) :
    splitNames (cs ++ more) acc =
      (splitNames cs acc).dropLast ++ [(splitNames cs acc).getLastD "" ++ String.ofList more] := by
  induction cs generalizing acc with
  | nil => simp [splitNames, splitNames_of_notMem h]
  | cons c cs ih =>
    rw [List.cons_append, splitNames, splitNames]
    split
    · obtain ⟨name, names, hnames⟩ := List.exists_cons_of_ne_nil (splitNames_ne_nil cs [])
      rw [ih, hnames]
      simp
    · exact ih _

theorem IsTail.ne_nil (h : IsTail tail) : tail.toList ≠ [] := List.ne_nil_of_mem h.marked

theorem steps_extended (h : IsTail tail) : (p.extended tail).steps = p.directories ++ [p.lastPart ++ tail] := by
  have hne : p.lastPart ++ tail ≠ "" := by
    intro he
    have := congrArg String.toList he
    simp [h.ne_nil] at this
  rw [steps, extended, String.toList_append, splitNames_append h.inside, List.filter_append, String.ofList_toList]
  unfold lastPart at hne ⊢
  rw [List.filter_cons_of_pos (by exact decide_eq_true hne), List.filter_nil, directories]

theorem lastPart_append_ne (h : IsTail tail) : p.lastPart ++ tail ≠ "." ∧ p.lastPart ++ tail ≠ ".." := by
  have hmarked : '_' ∈ (p.lastPart ++ tail).toList := by simp [h.marked]
  constructor
  · intro he
    rw [he] at hmarked
    exact absurd hmarked (by decide)
  · intro he
    rw [he] at hmarked
    exact absurd hmarked (by decide)

theorem isAbsolute_extended (h : IsTail tail) : (p.extended tail).isAbsolute = p.isAbsolute := by
  simp only [isAbsolute, extended, String.toList_append]
  cases hp : p.text.toList with
  | cons c cs => simp
  | nil =>
    obtain ⟨c, cs, hc⟩ := List.exists_cons_of_ne_nil h.ne_nil
    have hslash : c ≠ '/' := by
      rintro rfl
      exact h.inside (by rw [hc]; exact List.mem_cons_self)
    simp [hc, hslash]

theorem endsWithSeparator_extended (h : IsTail tail) : (p.extended tail).endsWithSeparator = false := by
  simp only [endsWithSeparator, extended, String.toList_append, List.getLast?_append]
  rw [List.getLast?_eq_some_getLast h.ne_nil, Option.some_or]
  have hslash : tail.toList.getLast h.ne_nil ≠ '/' := by
    intro he
    exact h.inside (he ▸ List.getLast_mem h.ne_nil)
  simpa using hslash

theorem isEmpty_extended (h : IsTail tail) : (p.extended tail).text.isEmpty = false := by
  rw [Bool.eq_false_iff, ne_eq, String.isEmpty_iff, extended]
  intro he
  have := congrArg String.toList he
  simp [h.ne_nil] at this

theorem join_append (h : IsTail tail) (p : Path) (name : String) :
    p.join (name ++ tail) = (p.join name).extended tail := by
  have habs : (Path.mk (name ++ tail)).isAbsolute = (Path.mk name).isAbsolute :=
    isAbsolute_extended (p := ⟨name⟩) h
  rw [join, join, habs]
  split
  · rfl
  · split
    · simp [extended, String.append_assoc]
    · simp [extended, String.append_assoc]

end Path

/-! ## One directory -/

namespace FileTree
variable {t t' : FileTree} {p : Path} {parent l : Location} {tail other : String} {c d : FileContent}

/-- The names of the path in front of the last separator lead to this directory. -/
structure Opens (t : FileTree) (p : Path) (parent : Location) : Prop where
  follow_eq : t.follow (t.start p) p.directories = .ok parent
  isDirectoryAt : t.isDirectoryAt parent = true

theorem Opens.unique {parent' : Location} (h : t.Opens p parent) (h' : t.Opens p parent') : parent' = parent :=
  Except.ok.inj (h'.follow_eq.symm.trans h.follow_eq)

theorem follow_append (t : FileTree) (l : Location) (names more : List String) :
    t.follow l (names ++ more) = (t.follow l names).bind fun l => t.follow l more := by
  induction names generalizing l with
  | nil => rfl
  | cons name names ih =>
    simp only [List.cons_append, follow]
    split
    · rfl
    · split
      · exact ih l
      · split
        · exact ih _
        · split
          · exact ih _
          · rfl

theorem start_extended (t : FileTree) (p : Path) (h : Path.IsTail tail) : t.start (p.extended tail) = t.start p := by
  rw [start, start, Path.isAbsolute_extended h]

theorem locate_extended (h : Path.IsTail tail) (l : Location) :
    t.locate (p.extended tail) = .ok l ↔
      ∃ parent, t.Opens p parent ∧ l = parent ++ [p.lastPart ++ tail] ∧ (t.node? l).isSome = true := by
  obtain ⟨hdot, hdots⟩ := Path.lastPart_append_ne (p := p) h
  rw [locate, Path.isEmpty_extended h, if_neg Bool.false_ne_true, Path.endsWithSeparator_extended h,
    if_neg Bool.false_ne_true, List.append_nil, Path.steps_extended h, start_extended t p h, follow_append]
  cases hf : t.follow (t.start p) p.directories with
  | error e =>
    simp only [Except.bind, reduceCtorEq, false_iff]
    rintro ⟨parent, hopens, -⟩
    cases hf.symm.trans hopens.follow_eq
  | ok dir =>
    simp only [Except.bind, follow, hdot, hdots, if_false]
    cases hdir : t.isDirectoryAt dir with
    | false =>
      simp only [Bool.not_false, if_true, reduceCtorEq, false_iff]
      rintro ⟨parent, hopens, -⟩
      cases hf.symm.trans hopens.follow_eq
      cases hdir.symm.trans hopens.isDirectoryAt
    | true =>
      simp only [Bool.not_true, Bool.false_eq_true, if_false]
      constructor
      · intro hl
        split at hl
        · rename_i hsome
          cases hl
          exact ⟨dir, ⟨hf, hdir⟩, rfl, hsome⟩
        · cases hl
      · rintro ⟨parent, hopens, rfl, hsome⟩
        cases hf.symm.trans hopens.follow_eq
        rw [if_pos hsome]

theorem place?_extended (h : Path.IsTail tail) (place : Option Location) :
    t.place? (p.extended tail) = .ok place ↔
      ∃ parent, t.Opens p parent ∧ place = some (parent ++ [p.lastPart ++ tail]) := by
  obtain ⟨hdot, hdots⟩ := Path.lastPart_append_ne (p := p) h
  rw [place?, Path.isEmpty_extended h, if_neg Bool.false_ne_true, Path.steps_extended h, start_extended t p h]
  simp only [List.getLast?_append, List.getLast?_singleton, Option.some_or, List.dropLast_concat]
  cases hf : t.follow (t.start p) p.directories with
  | error e =>
    constructor
    · intro hl
      cases hl
    · rintro ⟨parent, hopens, -⟩
      cases hf.symm.trans hopens.follow_eq
  | ok dir =>
    simp only [bind, Except.bind, hdot, hdots, or_self, if_false]
    cases hdir : t.isDirectoryAt dir with
    | false =>
      constructor
      · intro hl
        cases hl
      · rintro ⟨parent, hopens, -⟩
        cases hf.symm.trans hopens.follow_eq
        cases hdir.symm.trans hopens.isDirectoryAt
    | true =>
      constructor
      · intro hl
        cases hl
        exact ⟨dir, ⟨hf, hdir⟩, rfl⟩
      · rintro ⟨parent, hopens, rfl⟩
        cases hf.symm.trans hopens.follow_eq
        rfl

theorem write_of_place? (h : Path.IsTail tail) (hplace : t.place? (p.extended tail) = .ok (some l))
    (hnot : t.node? l ≠ some .directory) : t.write (p.extended tail) c = .ok (t.store l (.file c)) := by
  have hsep := Path.endsWithSeparator_extended (p := p) h
  unfold write
  rw [hplace]
  simp only [bind, Except.bind, hsep, Bool.false_eq_true, if_false]
  split
  · exact absurd ‹_› hnot
  · rfl
  · rfl

/-- A file can be written where no directory is. -/
theorem write_extended (h : Path.IsTail tail) :
    t.write (p.extended tail) c = .ok t' ↔
      ∃ parent, t.Opens p parent ∧ t.node? (parent ++ [p.lastPart ++ tail]) ≠ some .directory ∧
        t' = t.store (parent ++ [p.lastPart ++ tail]) (.file c) := by
  constructor
  · intro hw
    cases hplace : t.place? (p.extended tail) with
    | error e =>
      rw [write, hplace] at hw
      cases hw
    | ok place =>
      obtain ⟨parent, hopens, rfl⟩ := (place?_extended h place).1 hplace
      have hnot : t.node? (parent ++ [p.lastPart ++ tail]) ≠ some .directory := by
        intro hdir
        simp only [write, hplace, bind, Except.bind, hdir] at hw
        cases hw
      rw [write_of_place? h hplace hnot] at hw
      exact ⟨parent, hopens, hnot, (Except.ok.inj hw).symm⟩
  · rintro ⟨parent, hopens, hnot, rfl⟩
    exact write_of_place? h ((place?_extended h _).2 ⟨parent, hopens, rfl⟩) hnot

theorem read_extended (h : Path.IsTail tail) :
    t.read (p.extended tail) = .ok c ↔
      ∃ parent, t.Opens p parent ∧ t.node? (parent ++ [p.lastPart ++ tail]) = some (.file c) := by
  have hlocate := locate_extended (t := t) (p := p) h
  unfold read
  cases hl : t.locate (p.extended tail) with
  | error e =>
    constructor
    · intro hr
      cases hr
    · rintro ⟨parent, hopens, hn⟩
      cases hl.symm.trans ((hlocate _).2 ⟨parent, hopens, rfl, by rw [hn]; rfl⟩)
  | ok l =>
    obtain ⟨parent, hopens, rfl, -⟩ := (hlocate l).1 hl
    simp only [bind, Except.bind]
    constructor
    · intro hr
      refine ⟨parent, hopens, ?_⟩
      split at hr
      · rename_i hn
        cases hr
        exact hn
      · cases hr
      · cases hr
    · rintro ⟨parent', hopens', hn⟩
      obtain rfl := hopens.unique hopens'
      rw [hn]
      rfl

/-! ## A file written -/

theorem isDirectoryAt_store_file (hl : l ≠ []) (hnot : t.node? l ≠ some .directory) (c : FileContent) (j : Location) :
    (t.store l (.file c)).isDirectoryAt j = t.isDirectoryAt j := by
  rw [isDirectoryAt, isDirectoryAt, node?_store t hl]
  by_cases hj : j = l
  · subst hj
    simp [hnot]
  · rw [if_neg hj]

/-- A file in place of no directory leaves the ways that could be followed. -/
theorem follow_store_file (hl : l ≠ []) (hnot : t.node? l ≠ some .directory) (c : FileContent)
    {names : List String} {start dir : Location} (hf : t.follow start names = .ok dir) :
    (t.store l (.file c)).follow start names = .ok dir := by
  induction names generalizing start with
  | nil => exact hf
  | cons name names ih =>
    have hkept : (t.node? (start ++ [name])).isSome = true →
        ((t.store l (.file c)).node? (start ++ [name])).isSome = true := by
      intro hsome
      rw [node?_store t hl]
      split
      · rfl
      · exact hsome
    simp only [follow, isDirectoryAt_store_file hl hnot] at hf ⊢
    split_ifs at hf with hdir hdot hdots hfound
    · rw [if_neg hdir, if_pos hdot, ih hf]
    · rw [if_neg hdir, if_neg hdot, if_pos hdots, ih hf]
    · rw [if_neg hdir, if_neg hdot, if_neg hdots, if_pos (hkept hfound), ih hf]

theorem Opens.store (h : t.Opens p parent) (hl : l ≠ []) (hnot : t.node? l ≠ some .directory) (c : FileContent) :
    (t.store l (.file c)).Opens p parent where
  follow_eq := follow_store_file hl hnot c h.follow_eq
  isDirectoryAt := by rw [isDirectoryAt_store_file hl hnot]; exact h.isDirectoryAt

theorem read_eq_ok : t.read p = .ok c ↔ ∃ l, t.locate p = .ok l ∧ t.node? l = some (.file c) := by
  rw [read]
  cases t.locate p with
  | error e =>
    simp only [reduceCtorEq, false_and, exists_false, iff_false]
    intro h
    cases h
  | ok l =>
    simp only [bind, Except.bind, Except.ok.injEq, exists_eq_left']
    cases t.node? l with
    | none => simp
    | some n =>
      cases n with
      | directory => simp
      | file found => simp [pure, Except.pure]

/-- Where a new entry goes. -/
theorem place?_inv (hplace : t.place? p = .ok (some l)) : ∃ names name parent, p.steps = names ++ [name] ∧
    name ≠ "." ∧ name ≠ ".." ∧ p.text.isEmpty = false ∧ t.follow (t.start p) names = .ok parent ∧
    t.isDirectoryAt parent = true ∧ l = parent ++ [name] := by
  rw [place?] at hplace
  cases hempty : p.text.isEmpty with
  | true =>
    rw [hempty] at hplace
    cases hplace
  | false =>
    rw [hempty, if_neg Bool.false_ne_true] at hplace
    cases hlast : p.steps.getLast? with
    | none =>
      rw [hlast] at hplace
      cases hplace
    | some name =>
      obtain ⟨names, hsteps⟩ := List.getLast?_eq_some_iff.1 hlast
      simp only [hsteps, List.getLast?_append, List.getLast?_singleton, Option.some_or, List.dropLast_concat] at hplace
      cases hfollow : t.follow (t.start p) names with
      | error e =>
        rw [hfollow] at hplace
        cases hplace
      | ok parent =>
        simp only [hfollow, bind, Except.bind, pure, Except.pure] at hplace
        cases hdir : t.isDirectoryAt parent with
        | false =>
          rw [hdir] at hplace
          cases hplace
        | true =>
          simp only [hdir, Bool.not_true, Bool.false_eq_true, if_false] at hplace
          split at hplace
          · cases hplace
          · rename_i hname
            cases hplace
            exact ⟨names, name, parent, hsteps, fun h => hname (.inl h), fun h => hname (.inr h), rfl, hfollow, hdir,
              rfl⟩

/-- Where a file is written. -/
theorem write_inv (hw : t.write p c = .ok t') : ∃ l, t.place? p = .ok (some l) ∧ p.endsWithSeparator = false ∧
    t.node? l ≠ some .directory ∧ t' = t.store l (.file c) := by
  cases hplace : t.place? p with
  | error e =>
    rw [write, hplace] at hw
    cases hw
  | ok place =>
    cases place with
    | none =>
      rw [write, hplace] at hw
      cases hw
    | some l =>
      simp only [write, hplace, bind, Except.bind] at hw
      cases hsep : p.endsWithSeparator with
      | true =>
        rw [hsep] at hw
        split at hw <;> cases hw
      | false =>
        rw [hsep] at hw
        split at hw
        · cases hw
        · rename_i hnode
          cases hw
          exact ⟨l, rfl, rfl, by rw [hnode]; simp, rfl⟩
        · rename_i hnode
          cases hw
          exact ⟨l, rfl, rfl, by rw [hnode]; simp, rfl⟩

/-- What has been written is read. -/
theorem read_write (hw : t.write p c = .ok t') : t'.read p = .ok c := by
  obtain ⟨l, hplace, hsep, hnot, rfl⟩ := write_inv hw
  obtain ⟨names, name, parent, hsteps, hdot, hdots, hempty, hfollow, hdir, rfl⟩ := place?_inv hplace
  have hl : parent ++ [name] ≠ [] := by simp
  have hfound : (t.store (parent ++ [name]) (.file c)).node? (parent ++ [name]) = some (.file c) := by
    rw [node?_store t hl, if_pos rfl]
  refine read_eq_ok.2 ⟨parent ++ [name], ?_, hfound⟩
  have hstart : (t.store (parent ++ [name]) (.file c)).start p = t.start p := rfl
  rw [locate, hempty, if_neg Bool.false_ne_true, hsep, if_neg Bool.false_ne_true, List.append_nil, hsteps,
    follow_append, hstart, follow_store_file hl hnot c hfollow]
  simp [Except.bind, follow, isDirectoryAt_store_file hl hnot, hdir, hdot, hdots, hfound]

/-! ## Files written one after another -/

theorem read_write_of_ne (h : Path.IsTail tail) (ho : Path.IsTail other) (hne : other ≠ tail)
    (hw : t.write (p.extended tail) c = .ok t') (hr : t.read (p.extended other) = .ok d) :
    t'.read (p.extended other) = .ok d := by
  obtain ⟨parent, hopens, hnot, rfl⟩ := (write_extended h).1 hw
  obtain ⟨parent', hopens', hn⟩ := (read_extended ho).1 hr
  obtain rfl := hopens.unique hopens'
  refine (read_extended ho).2 ⟨parent', hopens.store (by simp) hnot c, ?_⟩
  have hplace : parent' ++ [p.lastPart ++ other] ≠ parent' ++ [p.lastPart ++ tail] := by
    intro he
    have := (List.append_inj' he rfl).2
    simp [hne] at this
  rw [node?_store t (by simp), if_neg hplace, hn]

/-- Writes files at longer paths, in the order given. -/
def writeAll (t : FileTree) (p : Path) (files : List (String × FileContent)) : Except IoError FileTree :=
  files.foldlM (fun t f => t.write (p.extended f.1) f.2) t

theorem writeAll_cons {f : String × FileContent} {files : List (String × FileContent)} :
    t.writeAll p (f :: files) = .ok t' ↔
      ∃ next, t.write (p.extended f.1) f.2 = .ok next ∧ next.writeAll p files = .ok t' := by
  rw [writeAll, List.foldlM_cons]
  cases t.write (p.extended f.1) f.2 with
  | error e => simp [bind, Except.bind]
  | ok next => simp [bind, Except.bind, writeAll]

theorem writeAll_append {files more : List (String × FileContent)} :
    t.writeAll p (files ++ more) = .ok t' ↔
      ∃ next, t.writeAll p files = .ok next ∧ next.writeAll p more = .ok t' := by
  rw [writeAll, List.foldlM_append, ← writeAll]
  cases t.writeAll p files with
  | error e => simp [bind, Except.bind]
  | ok next => simp [bind, Except.bind, writeAll]

theorem read_writeAll_of_ne {files : List (String × FileContent)} (htails : ∀ f ∈ files, Path.IsTail f.1)
    (ho : Path.IsTail other) (hne : ∀ f ∈ files, f.1 ≠ other) (hw : t.writeAll p files = .ok t')
    (hr : t.read (p.extended other) = .ok d) : t'.read (p.extended other) = .ok d := by
  induction files generalizing t with
  | nil =>
    cases hw
    exact hr
  | cons f files ih =>
    obtain ⟨next, hf, hrest⟩ := writeAll_cons.1 hw
    simp only [List.forall_mem_cons] at htails hne
    exact ih htails.2 hne.2 hrest (read_write_of_ne htails.1 ho (Ne.symm hne.1) hf hr)

/-- The last file of a name is the one that stays. -/
theorem read_writeAll {before after : List (String × FileContent)}
    (htails : ∀ f ∈ before ++ (tail, c) :: after, Path.IsTail f.1) (hne : ∀ f ∈ after, f.1 ≠ tail)
    (hw : t.writeAll p (before ++ (tail, c) :: after) = .ok t') : t'.read (p.extended tail) = .ok c := by
  obtain ⟨middle, -, hrest⟩ := writeAll_append.1 hw
  obtain ⟨next, hf, hafter⟩ := writeAll_cons.1 hrest
  have htail : Path.IsTail tail := htails (tail, c) (by simp)
  exact read_writeAll_of_ne (fun f hf => htails f (by simp [hf])) htail hne hafter (read_write hf)

/-- In a directory that is open, files can be written where no directories are. -/
theorem exists_writeAll {files : List (String × FileContent)} (htails : ∀ f ∈ files, Path.IsTail f.1)
    (hopens : t.Opens p parent)
    (hnot : ∀ f ∈ files, t.node? (parent ++ [p.lastPart ++ f.1]) ≠ some .directory) :
    ∃ t', t.writeAll p files = .ok t' := by
  induction files generalizing t with
  | nil => exact ⟨t, rfl⟩
  | cons f files ih =>
    simp only [List.forall_mem_cons] at htails hnot
    have hw := (write_extended (c := f.2) htails.1).2 ⟨parent, hopens, hnot.1, rfl⟩
    have hrest := ih htails.2 (hopens.store (by simp) hnot.1 f.2) fun g hg => by
      rw [node?_store t (by simp)]
      split
      · simp
      · exact hnot.2 g hg
    obtain ⟨t', ht'⟩ := hrest
    exact ⟨t', writeAll_cons.2 ⟨_, hw, ht'⟩⟩

end FileTree
end TextureAtlas
