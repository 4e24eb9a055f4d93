import TextureAtlas.Json.Printer
import TextureAtlas.Proofs.JsonTokens

/-!
# Written documents are read

A document whose numbers and strings are well formed is read back from either of its texts, without blanks or over
several lines (`Json.parse?_compact`, `Json.parse?_pretty`). Both are texts of one grammar, with blanks where a
layout puts them (`Json.spelled`), and the reader is followed through that grammar.
-/

namespace TextureAtlas.Json
variable {w rest : List Char}

/-! ## Texts of a document -/

/-- Where a text has blanks: before each item of an array or object, before its end, and behind a colon. -/
structure Layout where
  gap : Nat → List Char
  colon : List Char
  gap_blank : ∀ level, ∀ c ∈ gap level, isBlank c = true
  colon_blank : ∀ c ∈ colon, isBlank c = true

mutual
/-- The text of a document at a level of nesting. -/
def spelled (L : Layout) (level : Nat) : Json → List Char
  | .null => ['n', 'u', 'l', 'l']
  | .bool true => ['t', 'r', 'u', 'e']
  | .bool false => ['f', 'a', 'l', 's', 'e']
  | .number written => written
  | .string written => '"' :: (written ++ ['"'])
  | .array [] => ['[', ']']
  | .array (v :: items) =>
    '[' :: (L.gap (level + 1) ++ spelled L (level + 1) v ++ spelledItems L (level + 1) items ++ L.gap level ++ [']'])
  | .object [] => ['\x7b', '\x7d']
  | .object ((key, v) :: members) =>
    '\x7b' :: (L.gap (level + 1) ++ '"' :: (key ++ '"' :: ':' :: (L.colon ++ spelled L (level + 1) v)) ++
      spelledMembers L (level + 1) members ++ L.gap level ++ ['\x7d'])

/-- The items after the first. -/
def spelledItems (L : Layout) (level : Nat) : List Json → List Char
  | [] => []
  | v :: items => ',' :: (L.gap level ++ spelled L level v ++ spelledItems L level items)

/-- The members after the first. -/
def spelledMembers (L : Layout) (level : Nat) : List (List Char × Json) → List Char
  | [] => []
  | (key, v) :: members =>
    ',' :: (L.gap level ++ '"' :: (key ++ '"' :: ':' :: (L.colon ++ spelled L level v)) ++ spelledMembers L level members)
end

/-- No blanks. -/
def Layout.compact : Layout := ⟨fun _ => [], [], by simp, by simp⟩

/-- A line for each item, indented by two blanks a level. -/
def Layout.pretty : Layout where
  gap level := '\n' :: List.replicate (2 * level) ' '
  colon := [' ']
  gap_blank := by
    intro level c hc
    simp only [List.mem_cons, List.mem_replicate] at hc
    obtain rfl | ⟨-, rfl⟩ := hc
    · rfl
    · rfl
  colon_blank := by simp [isBlank]

@[simp] theorem toList_append (out : String) (cs : List Char) : (append out cs).toList = out.toList ++ cs := by
  unfold append
  induction cs generalizing out with
  | nil => simp
  | cons c cs ih => simp [ih]

@[simp] theorem toList_appendQuoted (out : String) (written : List Char) :
    (appendQuoted out written).toList = out.toList ++ '"' :: (written ++ ['"']) := by
  simp [appendQuoted]

mutual
theorem toList_writeCompact (out : String) (level : Nat) : ∀ j : Json,
    (writeCompact out j).toList = out.toList ++ spelled .compact level j
  | .null => by simp [writeCompact, spelled]
  | .bool true => by simp [writeCompact, spelled]
  | .bool false => by simp [writeCompact, spelled]
  | .number written => by simp [writeCompact, spelled]
  | .string written => by simp [writeCompact, spelled]
  | .array [] => by simp [writeCompact, spelled]
  | .array (v :: items) => by
    simp [writeCompact, spelled, toList_writeItems _ (level + 1) items, toList_writeCompact _ (level + 1) v,
      Layout.compact]
  | .object [] => by simp [writeCompact, spelled]
  | .object ((key, v) :: members) => by
    simp [writeCompact, spelled, toList_writeMembers _ (level + 1) members, toList_writeCompact _ (level + 1) v,
      Layout.compact]

theorem toList_writeItems (out : String) (level : Nat) : ∀ items : List Json,
    (writeItems out items).toList = out.toList ++ spelledItems .compact level items
  | [] => by simp [writeItems, spelledItems]
  | v :: items => by
    simp [writeItems, spelledItems, toList_writeItems _ level items, toList_writeCompact _ level v, Layout.compact]

theorem toList_writeMembers (out : String) (level : Nat) : ∀ members : List (List Char × Json),
    (writeMembers out members).toList = out.toList ++ spelledMembers .compact level members
  | [] => by simp [writeMembers, spelledMembers]
  | (key, v) :: members => by
    simp [writeMembers, spelledMembers, toList_writeMembers _ level members, toList_writeCompact _ level v,
      Layout.compact]
end

@[simp] theorem toList_newLine (out : String) (level : Nat) :
    (newLine out level).toList = out.toList ++ Layout.pretty.gap level := by
  simp [newLine, Layout.pretty]

mutual
theorem toList_writePretty (out : String) (level : Nat) : ∀ j : Json,
    (writePretty level out j).toList = out.toList ++ spelled .pretty level j
  | .null => by simp [writePretty, spelled]
  | .bool true => by simp [writePretty, spelled]
  | .bool false => by simp [writePretty, spelled]
  | .number written => by simp [writePretty, spelled]
  | .string written => by simp [writePretty, spelled]
  | .array [] => by simp [writePretty, spelled]
  | .array (v :: items) => by
    simp [writePretty, spelled, toList_writePrettyItems _ (level + 1) items, toList_writePretty _ (level + 1) v]
  | .object [] => by simp [writePretty, spelled]
  | .object ((key, v) :: members) => by
    simp [writePretty, spelled, toList_writePrettyMembers _ (level + 1) members, toList_writePretty _ (level + 1) v,
      Layout.pretty]

theorem toList_writePrettyItems (out : String) (level : Nat) : ∀ items : List Json,
    (writePrettyItems level out items).toList = out.toList ++ spelledItems .pretty level items
  | [] => by simp [writePrettyItems, spelledItems]
  | v :: items => by
    simp [writePrettyItems, spelledItems, toList_writePrettyItems _ level items, toList_writePretty _ level v]

theorem toList_writePrettyMembers (out : String) (level : Nat) : ∀ members : List (List Char × Json),
    (writePrettyMembers level out members).toList = out.toList ++ spelledMembers .pretty level members
  | [] => by simp [writePrettyMembers, spelledMembers]
  | (key, v) :: members => by
    simp [writePrettyMembers, spelledMembers, toList_writePrettyMembers _ level members, toList_writePretty _ level v,
      Layout.pretty]
end

theorem toList_compact (j : Json) : j.compact.toList = spelled .compact 0 j := by
  simp [compact, toList_writeCompact _ 0]

theorem toList_pretty (j : Json) : j.pretty.toList = spelled .pretty 0 j := by
  simp [pretty, toList_writePretty _ 0]

/-! ## Well-formed documents -/

/-- A document whose numbers and strings can be written as they are. -/
inductive WellFormed : Json → Prop
  | null : WellFormed .null
  | bool (b : Bool) : WellFormed (.bool b)
  | number {written : List Char} (h : IsNumeral written) : WellFormed (.number written)
  | string {written : List Char} (h : IsQuoted written) : WellFormed (.string written)
  | array {items : List Json} (h : ∀ v ∈ items, WellFormed v) : WellFormed (.array items)
  | object {members : List (List Char × Json)} (hkeys : ∀ m ∈ members, IsQuoted m.1)
      (h : ∀ m ∈ members, WellFormed m.2) : WellFormed (.object members)

/-! ## Reading along the text -/

variable {g cs : List Char} {c : Char} {L : Layout} {level : Nat} {j v : Json} {fuel : Nat}

theorem skipBlanks_append (hg : ∀ c ∈ g, isBlank c = true) (cs : List Char) : skipBlanks (g ++ cs) = skipBlanks cs :=
  List.dropWhile_append_of_pos hg

theorem skipBlanks_cons (hc : isBlank c = false) (cs : List Char) : skipBlanks (c :: cs) = c :: cs :=
  List.dropWhile_cons_of_neg (by simp [hc])

theorem value?_skip (hg : ∀ c ∈ g, isBlank c = true) (fuel : Nat) (cs : List Char) :
    value? fuel (g ++ cs) = value? fuel cs := by
  cases fuel with
  | zero => rfl
  | succ fuel => simp only [value?, skipBlanks_append hg]

theorem items?_skip (hg : ∀ c ∈ g, isBlank c = true) (fuel : Nat) (cs : List Char) (acc : List Json) :
    items? fuel (g ++ cs) acc = items? fuel cs acc := by
  cases fuel with
  | zero => rfl
  | succ fuel => simp only [items?, value?_skip hg]

theorem members?_skip (hg : ∀ c ∈ g, isBlank c = true) (fuel : Nat) (cs : List Char) (acc : List (List Char × Json)) :
    members? fuel (g ++ cs) acc = members? fuel cs acc := by
  cases fuel with
  | zero => rfl
  | succ fuel => simp only [members?, skipBlanks_append hg]

theorem Ends.append (hg : ∀ c ∈ g, isBlank c = true) (h : Ends rest) : Ends (g ++ rest) := by
  cases g with
  | nil => exact h
  | cons c g =>
    refine Ends.cons ?_ (g ++ rest)
    have hc := hg c List.mem_cons_self
    simp only [isBlank, Bool.or_eq_true, decide_eq_true_eq] at hc
    obtain ((rfl | rfl) | rfl) | rfl := hc <;> rfl

theorem isBlank_of_numeral (hc : c = '-' ∨ isDigit c = true) : isBlank c = false := by
  cases hblank : isBlank c with
  | false => rfl
  | true =>
    simp only [isBlank, Bool.or_eq_true, decide_eq_true_eq] at hblank
    obtain ((rfl | rfl) | rfl) | rfl := hblank <;> exact absurd hc (by decide)

/-- The text begins with something else than a blank or the end of an array. -/
def Begins (cs : List Char) : Prop := ∃ c rest, cs = c :: rest ∧ isBlank c = false ∧ c ≠ ']'

theorem Begins.append (h : Begins cs) (tail : List Char) : Begins (cs ++ tail) := by
  obtain ⟨c, rest, rfl, hc⟩ := h
  exact ⟨c, rest ++ tail, rfl, hc⟩

theorem WellFormed.begins (h : WellFormed j) (L : Layout) (level : Nat) : Begins (spelled L level j) := by
  cases h with
  | null => exact ⟨_, _, rfl, rfl, by decide⟩
  | bool b => cases b <;> exact ⟨_, _, rfl, rfl, by decide⟩
  | number hw =>
    obtain ⟨c, cs, rfl, hc⟩ := hw.head
    refine ⟨c, cs, rfl, isBlank_of_numeral hc, ?_⟩
    rintro rfl
    exact absurd hc (by decide)
  | string hw => exact ⟨_, _, rfl, rfl, by decide⟩
  | @array items hitems => cases items <;> exact ⟨_, _, rfl, rfl, by decide⟩
  | @object members hkeys hmembers =>
    match members with
    | [] => exact ⟨_, _, rfl, rfl, by decide⟩
    | (key, v) :: members => exact ⟨_, _, rfl, rfl, by decide⟩

theorem value?_number (hc : c = '-' ∨ isDigit c = true) (fuel : Nat) (cs : List Char) :
    value? (fuel + 1) (c :: cs) = (numeral? (c :: cs)).map fun (n, rest) => (.number n, rest) := by
  have hother : ∀ d ∈ ['"', '[', '\x7b', 't', 'f', 'n'], c ≠ d := by
    rintro d hd rfl
    simp only [List.mem_cons, List.not_mem_nil, or_false] at hd
    obtain rfl | rfl | rfl | rfl | rfl | rfl := hd <;> exact absurd hc (by decide)
  simp only [List.forall_mem_cons] at hother
  rw [value?, skipBlanks_cons (isBlank_of_numeral hc)]
  split <;> simp_all

theorem value?_array (hg : ∀ c ∈ g, isBlank c = true) (hcs : Begins cs) (fuel : Nat) :
    value? (fuel + 1) ('[' :: (g ++ cs)) = items? fuel cs [] := by
  obtain ⟨c, rest, rfl, hblank, hc⟩ := hcs
  simp only [value?, skipBlanks_cons (show isBlank '[' = false from rfl), skipBlanks_append hg, skipBlanks_cons hblank]
  split
  · simp_all
  · rfl

theorem value?_object (hg : ∀ c ∈ g, isBlank c = true) (fuel : Nat) (cs : List Char) :
    value? (fuel + 1) ('\x7b' :: (g ++ '"' :: cs)) = members? fuel ('"' :: cs) [] := by
  simp only [value?, skipBlanks_cons (show isBlank '\x7b' = false from rfl), skipBlanks_append hg,
    skipBlanks_cons (show isBlank '"' = false from rfl)]
  rfl

/-- Read with enough fuel, the text gives the document. -/
def ReadsAt (L : Layout) (level : Nat) (j : Json) : Prop :=
  ∀ fuel rest, Ends rest → (spelled L level j).length < fuel → value? fuel (spelled L level j ++ rest) = some (j, rest)

/-- Behind a value and a comma the items go on. -/
theorem items?_more (hv : ReadsAt L level v) (hrest : Ends rest) (hfuel : (spelled L level v).length < fuel)
    (hskip : skipBlanks rest = ',' :: cs) (acc : List Json) :
    items? (fuel + 1) (spelled L level v ++ rest) acc = items? fuel cs (v :: acc) := by
  simp only [items?, hv fuel rest hrest hfuel, hskip]

/-- Behind a value and a bracket the array is complete. -/
theorem items?_last (hv : ReadsAt L level v) (hrest : Ends rest) (hfuel : (spelled L level v).length < fuel)
    (hskip : skipBlanks rest = ']' :: cs) (acc : List Json) :
    items? (fuel + 1) (spelled L level v ++ rest) acc = some (.array (v :: acc).reverse, cs) := by
  simp only [items?, hv fuel rest hrest hfuel, hskip]

theorem ends_gap (hc : isNumberChar c = false) (out : Nat) (rest : List Char) : Ends (L.gap out ++ c :: rest) :=
  Ends.append (L.gap_blank out) (Ends.cons hc rest)

theorem ends_items (items : List Json) (out : Nat) (rest : List Char) :
    Ends (spelledItems L level items ++ (L.gap out ++ ']' :: rest)) := by
  cases items with
  | nil => exact ends_gap rfl out rest
  | cons v items => exact Ends.cons rfl _

theorem items?_spelled {items : List Json} (hitems : ∀ v ∈ items, ReadsAt L level v) (hv : ReadsAt L level v)
    (out : Nat) (rest : List Char) (acc : List Json)
    (hfuel : (spelled L level v ++ spelledItems L level items).length + 1 < fuel) :
    items? fuel (spelled L level v ++ (spelledItems L level items ++ (L.gap out ++ ']' :: rest))) acc =
      some (.array (acc.reverse ++ v :: items), rest) := by
  induction items generalizing v acc fuel with
  | nil =>
    obtain ⟨fuel, rfl⟩ : ∃ f, fuel = f + 1 := ⟨fuel - 1, by omega⟩
    simp only [spelledItems, List.append_nil] at hfuel
    have hend : skipBlanks (spelledItems L level [] ++ (L.gap out ++ ']' :: rest)) = ']' :: rest := by
      rw [spelledItems, List.nil_append, skipBlanks_append (L.gap_blank out), skipBlanks_cons (by decide)]
    rw [items?_last hv (ends_items [] out rest) (by omega) hend]
    simp
  | cons v' items ih =>
    obtain ⟨fuel, rfl⟩ : ∃ f, fuel = f + 1 := ⟨fuel - 1, by omega⟩
    simp only [List.forall_mem_cons] at hitems
    simp only [spelledItems, List.length_append, List.length_cons] at hfuel
    have hmore : skipBlanks (spelledItems L level (v' :: items) ++ (L.gap out ++ ']' :: rest)) =
        ',' :: (L.gap level ++ (spelled L level v' ++ (spelledItems L level items ++ (L.gap out ++ ']' :: rest)))) := by
      rw [spelledItems, List.cons_append, skipBlanks_cons (by decide)]
      simp only [List.append_assoc]
    rw [items?_more hv (ends_items (v' :: items) out rest) (by omega) hmore, items?_skip (L.gap_blank level),
      ih hitems.2 hitems.1 (v :: acc) (by simp only [List.length_append]; omega)]
    simp

/-- Behind a member and a comma the members go on. -/
theorem members?_more {key : List Char} (hkey : IsQuoted key) (hv : ReadsAt L level v) (hrest : Ends rest)
    (hfuel : (spelled L level v).length < fuel) (hskip : skipBlanks rest = ',' :: cs)
    (acc : List (List Char × Json)) :
    members? (fuel + 1) ('"' :: (key ++ '"' :: ':' :: (L.colon ++ (spelled L level v ++ rest)))) acc =
      members? fuel cs ((key, v) :: acc) := by
  simp only [members?, skipBlanks_cons (show isBlank '"' = false from rfl), hkey.quoted?,
    skipBlanks_cons (show isBlank ':' = false from rfl), value?_skip L.colon_blank, hv fuel rest hrest hfuel, hskip]

/-- Behind a member and a bracket the object is complete. -/
theorem members?_last {key : List Char} (hkey : IsQuoted key) (hv : ReadsAt L level v) (hrest : Ends rest)
    (hfuel : (spelled L level v).length < fuel) (hskip : skipBlanks rest = '\x7d' :: cs)
    (acc : List (List Char × Json)) :
    members? (fuel + 1) ('"' :: (key ++ '"' :: ':' :: (L.colon ++ (spelled L level v ++ rest)))) acc =
      some (.object ((key, v) :: acc).reverse, cs) := by
  simp only [members?, skipBlanks_cons (show isBlank '"' = false from rfl), hkey.quoted?,
    skipBlanks_cons (show isBlank ':' = false from rfl), value?_skip L.colon_blank, hv fuel rest hrest hfuel, hskip]

theorem ends_members (members : List (List Char × Json)) (out : Nat) (rest : List Char) :
    Ends (spelledMembers L level members ++ (L.gap out ++ '\x7d' :: rest)) := by
  match members with
  | [] => exact ends_gap rfl out rest
  | (key, v) :: members => exact Ends.cons rfl _

theorem members?_spelled {members : List (List Char × Json)} {key : List Char}
    (hmembers : ∀ m ∈ members, IsQuoted m.1 ∧ ReadsAt L level m.2) (hkey : IsQuoted key) (hv : ReadsAt L level v)
    (out : Nat) (rest : List Char) (acc : List (List Char × Json))
    (hfuel : (spelled L level v ++ spelledMembers L level members).length + 1 < fuel) :
    members? fuel ('"' :: (key ++ '"' :: ':' :: (L.colon ++ (spelled L level v ++
      (spelledMembers L level members ++ (L.gap out ++ '\x7d' :: rest)))))) acc =
      some (.object (acc.reverse ++ (key, v) :: members), rest) := by
  induction members generalizing key v acc fuel with
  | nil =>
    obtain ⟨fuel, rfl⟩ : ∃ f, fuel = f + 1 := ⟨fuel - 1, by omega⟩
    simp only [spelledMembers, List.append_nil] at hfuel
    have hend : skipBlanks (spelledMembers L level [] ++ (L.gap out ++ '\x7d' :: rest)) = '\x7d' :: rest := by
      rw [spelledMembers, List.nil_append, skipBlanks_append (L.gap_blank out), skipBlanks_cons (by decide)]
    rw [members?_last hkey hv (ends_members [] out rest) (by omega) hend]
    simp
  | cons m members ih =>
    obtain ⟨key', v'⟩ := m
    obtain ⟨fuel, rfl⟩ : ∃ f, fuel = f + 1 := ⟨fuel - 1, by omega⟩
    simp only [List.forall_mem_cons] at hmembers
    simp only [spelledMembers, List.length_append, List.length_cons] at hfuel
    have hmore : skipBlanks (spelledMembers L level ((key', v') :: members) ++ (L.gap out ++ '\x7d' :: rest)) =
        ',' :: (L.gap level ++ '"' :: (key' ++ '"' :: ':' :: (L.colon ++ (spelled L level v' ++
          (spelledMembers L level members ++ (L.gap out ++ '\x7d' :: rest)))))) := by
      rw [spelledMembers, List.cons_append, skipBlanks_cons (by decide)]
      simp only [List.append_assoc, List.cons_append]
    rw [members?_more hkey hv (ends_members ((key', v') :: members) out rest) (by omega) hmore,
      members?_skip (L.gap_blank level),
      ih hmembers.2 hmembers.1.1 hmembers.1.2 ((key, v) :: acc) (by simp only [List.length_append]; omega)]
    simp

theorem ReadsAt.of_succ (h : ∀ fuel rest, Ends rest → (spelled L level j).length ≤ fuel →
    value? (fuel + 1) (spelled L level j ++ rest) = some (j, rest)) : ReadsAt L level j := by
  intro fuel rest hrest hfuel
  obtain ⟨fuel, rfl⟩ : ∃ f, fuel = f + 1 := ⟨fuel - 1, by omega⟩
  exact h fuel rest hrest (Nat.le_of_lt_succ hfuel)

theorem readsAt_number {written : List Char} (h : IsNumeral written) : ReadsAt L level (.number written) := by
  refine .of_succ fun fuel rest hrest _ => ?_
  have hread := h.numeral? hrest
  obtain ⟨c, cs, rfl, hc⟩ := h.head
  rw [List.cons_append] at hread
  rw [spelled, List.cons_append, value?_number hc, hread]
  rfl

theorem readsAt_string {written : List Char} (h : IsQuoted written) : ReadsAt L level (.string written) := by
  refine .of_succ fun fuel rest _ _ => ?_
  simp only [spelled, List.cons_append, List.append_assoc, List.nil_append, value?,
    skipBlanks_cons (show isBlank '"' = false from rfl), h.quoted?]
  rfl

theorem readsAt_array {items : List Json} (hbegins : ∀ v ∈ items, Begins (spelled L (level + 1) v))
    (hitems : ∀ v ∈ items, ReadsAt L (level + 1) v) : ReadsAt L level (.array items) := by
  refine .of_succ fun fuel rest _ hfuel => ?_
  cases items with
  | nil => rfl
  | cons v items =>
    simp only [List.forall_mem_cons] at hbegins hitems
    simp only [spelled, List.length_cons, List.length_append, List.cons_append, List.append_assoc,
      List.nil_append] at hfuel ⊢
    rw [value?_array (L.gap_blank (level + 1)) (Begins.append hbegins.1 _),
      items?_spelled hitems.2 hitems.1 level rest [] (by simp only [List.length_append]; omega)]
    rfl

theorem readsAt_object {members : List (List Char × Json)}
    (hmembers : ∀ m ∈ members, IsQuoted m.1 ∧ ReadsAt L (level + 1) m.2) : ReadsAt L level (.object members) := by
  refine .of_succ fun fuel rest _ hfuel => ?_
  match members with
  | [] => rfl
  | (key, v) :: members =>
    simp only [List.forall_mem_cons] at hmembers
    simp only [spelled, List.length_cons, List.length_append, List.cons_append, List.append_assoc,
      List.nil_append] at hfuel ⊢
    rw [value?_object (L.gap_blank (level + 1)),
      members?_spelled hmembers.2 hmembers.1.1 hmembers.1.2 level rest [] (by simp only [List.length_append]; omega)]
    rfl

/-- A well-formed document is read back from its text in any layout. -/
theorem WellFormed.readsAt (h : WellFormed j) (L : Layout) (level : Nat) : ReadsAt L level j := by
  induction h generalizing level with
  | null => exact .of_succ fun _ _ _ _ => rfl
  | bool b => exact .of_succ fun _ _ _ _ => by cases b <;> rfl
  | number hw => exact readsAt_number hw
  | string hw => exact readsAt_string hw
  | array hitems ih =>
    exact readsAt_array (fun v hv => (hitems v hv).begins L (level + 1)) fun v hv => ih v hv (level + 1)
  | object hkeys _ ih => exact readsAt_object fun m hm => ⟨hkeys m hm, ih m hm (level + 1)⟩

theorem parse?_of_spelled (h : WellFormed j) (L : Layout) {s : String} (hs : s.toList = spelled L 0 j) :
    parse? s = some j := by
  have hread := h.readsAt L 0 ((spelled L 0 j).length + 1) [] Ends.nil (by omega)
  rw [List.append_nil] at hread
  simp only [parse?, hs, hread]
  rfl

theorem parse?_compact (h : WellFormed j) : parse? j.compact = some j := parse?_of_spelled h .compact (toList_compact j)

theorem parse?_pretty (h : WellFormed j) : parse? j.pretty = some j := parse?_of_spelled h .pretty (toList_pretty j)

end TextureAtlas.Json
