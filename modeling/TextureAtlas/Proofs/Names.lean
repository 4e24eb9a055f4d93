import Mathlib.Data.List.TakeWhile
import TextureAtlas.Proofs.Files

/-!
# Names below a path

A name joined to a path is its last step (`Path.steps_join`), and it tells stem and extension as its last dot
divides it (`Path.splitExtension_eq`).
-/

namespace TextureAtlas.Path

/-- A name that a directory can hold. -/
def IsName (name : String) : Prop := name ≠ "" ∧ '/' ∉ name.toList ∧ name ≠ "." ∧ name ≠ ".."

instance : DecidablePred IsName := fun _ => inferInstanceAs (Decidable (_ ∧ _))

variable {p : Path} {name : String} {names : List String}

/-! ## Steps -/

theorem splitNames_slash (cs more acc : List Char) :
    splitNames (cs ++ '/' :: more) acc = splitNames cs acc ++ splitNames more [] := by
  induction cs generalizing acc with
  | nil => simp [splitNames]
  | cons c cs ih =>
    simp only [List.cons_append, splitNames]
    split
    · rw [ih, List.cons_append]
    · exact ih _

theorem IsName.toList_ne_nil (h : IsName name) : name.toList ≠ [] := by
  intro he
  exact h.1 (String.toList_inj.1 he)

theorem IsName.not_isAbsolute (h : IsName name) : (Path.mk name).isAbsolute = false := by
  simp only [isAbsolute, decide_eq_false_iff_not]
  intro he
  exact h.2.1 (List.mem_of_mem_head? he)

theorem IsName.splitNames_eq (h : IsName name) : splitNames name.toList [] = [name] := by
  rw [splitNames_of_notMem h.2.1]
  simp

theorem steps_join (h : IsName name) (p : Path) : (p.join name).steps = p.steps ++ [name] := by
  have hfilter : [name].filter (· ≠ "") = [name] := by simp [h.1]
  rw [join, h.not_isAbsolute, if_neg Bool.false_ne_true]
  split
  · rename_i hp
    rcases hp with hp | hp
    · rw [String.isEmpty_iff] at hp
      simp [steps, hp, h.splitNames_eq, splitNames, h.1]
    · obtain ⟨cs, hcs⟩ := List.getLast?_eq_some_iff.1 (of_decide_eq_true hp)
      have hnil : splitNames [] [] = [""] := rfl
      simp only [steps, String.toList_append, hcs, List.append_assoc, List.singleton_append, splitNames_slash,
        h.splitNames_eq, List.filter_append, hfilter, hnil]
      simp
  · have hslash : "/".toList = ['/'] := rfl
    simp only [steps, String.toList_append, hslash, List.append_assoc, List.singleton_append, splitNames_slash,
      h.splitNames_eq, List.filter_append, hfilter]

theorem isAbsolute_join (h : IsName name) (p : Path) : (p.join name).isAbsolute = p.isAbsolute := by
  have hname : name.toList.head? ≠ some '/' := by simpa [isAbsolute] using h.not_isAbsolute
  rw [join, h.not_isAbsolute, if_neg Bool.false_ne_true]
  cases hp : p.text.toList with
  | nil =>
    have hempty : p.text = "" := String.toList_inj.1 hp
    simp [isAbsolute, hempty, hname]
  | cons c cs =>
    split
    · simp [isAbsolute, hp]
    · simp [isAbsolute, hp]

theorem endsWithSeparator_join (h : IsName name) (p : Path) : (p.join name).endsWithSeparator = false := by
  have hlast : ∀ front : List Char, (front ++ name.toList).getLast? ≠ some '/' := by
    intro front he
    rw [List.getLast?_append, List.getLast?_eq_some_getLast h.toList_ne_nil, Option.some_or] at he
    exact h.2.1 (Option.some.inj he ▸ List.getLast_mem h.toList_ne_nil)
  rw [join, h.not_isAbsolute, if_neg Bool.false_ne_true, endsWithSeparator, decide_eq_false_iff_not]
  split
  · rw [String.toList_append]
    exact hlast _
  · rw [String.toList_append]
    exact hlast _

theorem isEmpty_join (h : IsName name) (p : Path) : (p.join name).text.isEmpty = false := by
  have hne : ∀ front : String, (front ++ name).isEmpty = false := by
    intro front
    rw [Bool.eq_false_iff, ne_eq, String.isEmpty_iff]
    intro he
    have := congrArg String.toList he
    simp [h.1] at this
  rw [join, h.not_isAbsolute, if_neg Bool.false_ne_true]
  split
  · exact hne _
  · exact hne _

theorem joinAll_cons (p : Path) (name : String) (names : List String) :
    p.joinAll (name :: names) = (p.join name).joinAll names := rfl

theorem joinAll_concat (p : Path) (names : List String) (name : String) :
    p.joinAll (names ++ [name]) = (p.joinAll names).join name := by
  simp [joinAll]

theorem steps_joinAll (h : ∀ name ∈ names, IsName name) (p : Path) : (p.joinAll names).steps = p.steps ++ names := by
  induction names generalizing p with
  | nil => simp [joinAll]
  | cons name names ih =>
    rw [List.forall_mem_cons] at h
    rw [joinAll_cons, ih h.2, steps_join h.1, List.append_assoc, List.singleton_append]

theorem isAbsolute_joinAll (h : ∀ name ∈ names, IsName name) (p : Path) :
    (p.joinAll names).isAbsolute = p.isAbsolute := by
  induction names generalizing p with
  | nil => rfl
  | cons name names ih =>
    rw [List.forall_mem_cons] at h
    rw [joinAll_cons, ih h.2, isAbsolute_join h.1]

/-! ## The last name -/

theorem fileName?_join (h : IsName name) (p : Path) : (p.join name).fileName? = some name := by
  simp [fileName?, components, steps_join h, List.filter_append, h.2.2.1, h.2.2.2]

theorem splitExtension_of_notMem (h : '.' ∉ name.toList) : splitExtension name = (name, none) := by
  have hdrop : name.toList.reverse.dropWhile (· ≠ '.') = [] := by
    rw [List.dropWhile_eq_nil_iff]
    intro c hc
    have : c ≠ '.' := by
      rintro rfl
      exact h (List.mem_reverse.1 hc)
    simpa using this
  dsimp only [splitExtension]
  rw [hdrop]

/-- The last dot of a name is the first one from behind. -/
theorem splitExtension_of_reverse {front rest : List Char} (h : name.toList.reverse = front ++ '.' :: rest)
    (hfront : '.' ∉ front) : splitExtension name =
      if rest = [] then (name, none) else (String.ofList rest.reverse, some (String.ofList front.reverse)) := by
  have hall : ∀ c ∈ front, decide (c ≠ '.') = true := by
    intro c hc
    have : c ≠ '.' := by
      rintro rfl
      exact hfront hc
    simpa using this
  have hdrop : name.toList.reverse.dropWhile (· ≠ '.') = '.' :: rest := by
    rw [h, List.dropWhile_append_of_pos hall]
    simp
  have htake : name.toList.reverse.takeWhile (· ≠ '.') = front := by
    rw [h, List.takeWhile_append_of_pos hall]
    simp
  dsimp only [splitExtension]
  rw [hdrop, htake]
  cases rest with
  | nil => rfl
  | cons c rest => rfl

/-- The extension follows the last dot; in front of that dot there has to be something. -/
theorem splitExtension_eq {stem extension : String} : splitExtension name = (stem, some extension) ↔
    name = stem ++ "." ++ extension ∧ stem ≠ "" ∧ '.' ∉ extension.toList := by
  constructor
  · intro h
    by_cases hdot : '.' ∈ name.toList.reverse
    · obtain ⟨front, rest, hback, hfront⟩ := List.eq_append_cons_of_mem hdot
      rw [splitExtension_of_reverse hback hfront] at h
      split at h
      · cases h
      · rename_i hrest
        cases h
        refine ⟨?_, by simpa using hrest, by simpa using hfront⟩
        rw [← String.toList_inj, ← List.reverse_reverse name.toList, hback]
        simp
    · rw [splitExtension_of_notMem (by simpa using hdot)] at h
      cases h
  · rintro ⟨rfl, hstem, hext⟩
    have hback : (stem ++ "." ++ extension).toList.reverse =
        extension.toList.reverse ++ '.' :: stem.toList.reverse := by simp
    rw [splitExtension_of_reverse hback (by simpa using hext), if_neg (by simpa using hstem)]
    simp

/-- What `isJson` asks of an extension: `json`, ASCII case aside. -/
def IsJsonExtension (extension : String) : Prop := extension.toList.map Char.toLower = "json".toList

theorem IsJsonExtension.notMem_dot {extension : String} (h : IsJsonExtension extension) :
    '.' ∉ extension.toList := by
  intro hmem
  have hlower := List.mem_map_of_mem (f := Char.toLower) hmem
  rw [h] at hlower
  exact absurd hlower (by decide)

theorem isJson_join (h : IsName name) (p : Path) : (p.join name).isJson = true ↔
    ∃ stem extension, name = stem ++ "." ++ extension ∧ stem ≠ "" ∧ IsJsonExtension extension := by
  rw [isJson, extension?, fileName?_join h, Option.bind_some]
  constructor
  · intro hj
    cases hsplit : splitExtension name with
    | mk stem ext? =>
      rw [hsplit] at hj
      cases ext? with
      | none => cases hj
      | some extension =>
        obtain ⟨hname, hstem, -⟩ := splitExtension_eq.1 hsplit
        exact ⟨stem, extension, hname, hstem, by simpa [IsJsonExtension] using hj⟩
  · rintro ⟨stem, extension, hname, hstem, hj⟩
    rw [splitExtension_eq.2 ⟨hname, hstem, hj.notMem_dot⟩]
    simpa [IsJsonExtension] using hj

theorem stem?_join {stem extension : String} (h : IsName (stem ++ "." ++ extension)) (hstem : stem ≠ "")
    (hext : '.' ∉ extension.toList) (p : Path) : (p.join (stem ++ "." ++ extension)).stem? = some stem := by
  rw [stem?, fileName?_join h, Option.map_some, splitExtension_eq.2 ⟨rfl, hstem, hext⟩]

end TextureAtlas.Path
