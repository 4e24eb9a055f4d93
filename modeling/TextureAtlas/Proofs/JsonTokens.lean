import Mathlib.Data.List.TakeWhile
import TextureAtlas.Json.Reader
import TextureAtlas.Proofs.Json

/-!
# Numbers and strings along a text

A number is read as far as its characters go, and a string up to its closing quote. What follows does not change what
is read, and a number is safe in front of anything that no number goes on with (`Json.numeral?_append`,
`Json.quoted?_append`). The digits of a number and the escapes of a text are read as they are written.
-/

namespace TextureAtlas.Json
variable {w rest : List Char}

/-! ## Numbers -/

/-- A character that may stand in a number. -/
def isNumberChar (c : Char) : Bool := isDigit c || c = '.' || c = 'e' || c = 'E' || c = '+' || c = '-'

/-- The text does not go on with a character of a number. -/
def Ends (rest : List Char) : Prop := ∀ c ∈ rest.head?, isNumberChar c = false

theorem Ends.nil : Ends [] := by simp [Ends]

theorem Ends.cons {c : Char} (h : isNumberChar c = false) (cs : List Char) : Ends (c :: cs) := by simp [Ends, h]

theorem Ends.head {c : Char} {cs : List Char} (h : Ends (c :: cs)) : isDigit c = false ∧ c ≠ '.' ∧ c ≠ 'e' ∧ c ≠ 'E' ∧
    c ≠ '+' ∧ c ≠ '-' := by
  have hc := h c (by simp)
  simpa only [isNumberChar, Bool.or_eq_false_iff, decide_eq_false_iff_not, and_assoc] using hc

/-- What was read, with more text left. -/
def leaving {α : Type} (rest : List Char) (r : α × List Char) : α × List Char := (r.1, r.2 ++ rest)

theorem takeWhile_append_of_ends (h : Ends rest) (w : List Char) :
    (w ++ rest).takeWhile isDigit = w.takeWhile isDigit := by
  induction w with
  | nil =>
    cases rest with
    | nil => rfl
    | cons c cs => rw [List.nil_append, List.takeWhile_cons_of_neg (by simp [h.head.1]), List.takeWhile_nil]
  | cons c w ih => simp only [List.cons_append, List.takeWhile_cons, ih]

theorem dropWhile_append_of_ends (h : Ends rest) (w : List Char) :
    (w ++ rest).dropWhile isDigit = w.dropWhile isDigit ++ rest := by
  induction w with
  | nil =>
    cases rest with
    | nil => rfl
    | cons c cs => rw [List.nil_append, List.dropWhile_cons_of_neg (by simp [h.head.1])]; rfl
  | cons c w ih =>
    simp only [List.cons_append, List.dropWhile_cons, ih]
    split <;> rfl

theorem digits1?_append (h : Ends rest) (w : List Char) : digits1? (w ++ rest) = (digits1? w).map (leaving rest) := by
  rw [digits1?, digits1?, takeWhile_append_of_ends h, dropWhile_append_of_ends h]
  cases w.takeWhile isDigit with
  | nil => rfl
  | cons c cs => rfl

theorem digits1?_of_ends (h : Ends rest) : digits1? rest = none := digits1?_append h []

theorem wholePart?_of_ne {c : Char} (hc : c ≠ '0') (cs : List Char) : wholePart? (c :: cs) = digits1? (c :: cs) := by
  rw [wholePart?.eq_def]
  split
  · simp_all
  · rfl

theorem wholePart?_append (h : Ends rest) (w : List Char) : wholePart? (w ++ rest) = (wholePart? w).map (leaving rest) := by
  cases w with
  | nil =>
    cases rest with
    | nil => rfl
    | cons c cs =>
      have hc : c ≠ '0' := by rintro rfl; exact absurd h.head.1 (by decide)
      rw [List.nil_append, wholePart?_of_ne hc]
      exact digits1?_of_ends h
  | cons c cs =>
    by_cases hc : c = '0'
    · subst hc
      cases cs with
      | nil =>
        cases rest with
        | nil => rfl
        | cons c cs => simp [wholePart?, h.head.1, leaving]
      | cons d cs =>
        simp only [List.cons_append, wholePart?]
        split <;> rfl
    · rw [List.cons_append, wholePart?_of_ne hc, wholePart?_of_ne hc, ← List.cons_append, digits1?_append h]

theorem fractionPart?_of_ne {c : Char} (hc : c ≠ '.') (cs : List Char) :
    fractionPart? (c :: cs) = some ([], c :: cs) := by
  rw [fractionPart?.eq_def]
  split
  · simp_all
  · rfl

theorem fractionPart?_append (h : Ends rest) (w : List Char) :
    fractionPart? (w ++ rest) = (fractionPart? w).map (leaving rest) := by
  match w with
  | [] =>
    cases rest with
    | nil => rfl
    | cons c cs => exact fractionPart?_of_ne h.head.2.1 cs
  | c :: cs =>
    by_cases hc : c = '.'
    · subst hc
      simp only [List.cons_append, fractionPart?, digits1?_append h]
      cases digits1? cs <;> rfl
    · rw [List.cons_append, fractionPart?_of_ne hc, fractionPart?_of_ne hc]
      rfl

theorem exponentPart?_of_ne {c : Char} (hc : ¬ (c = 'e' ∨ c = 'E')) (cs : List Char) :
    exponentPart? (c :: cs) = some ([], c :: cs) := by
  rw [exponentPart?.eq_def]
  simp only [if_neg hc]

theorem exponentPart?_append (h : Ends rest) (w : List Char) :
    exponentPart? (w ++ rest) = (exponentPart? w).map (leaving rest) := by
  match w with
  | [] =>
    cases rest with
    | nil => rfl
    | cons c cs => exact exponentPart?_of_ne (by simp [h.head]) cs
  | c :: cs =>
    by_cases hc : c = 'e' ∨ c = 'E'
    · cases cs with
      | nil =>
        cases rest with
        | nil => simp [exponentPart?, hc]
        | cons s tail =>
          have hs : ¬ (s = '+' ∨ s = '-') := by simp [h.head]
          simp only [List.cons_append, List.nil_append, exponentPart?, if_pos hc, if_neg hs, digits1?_of_ends h]
          rfl
      | cons s tail =>
        simp only [List.cons_append, exponentPart?, if_pos hc]
        split
        · rw [digits1?_append h]
          cases digits1? tail <;> rfl
        · rw [← List.cons_append, digits1?_append h]
          cases digits1? (s :: tail) <;> rfl
    · rw [List.cons_append, exponentPart?_of_ne hc, exponentPart?_of_ne hc]
      rfl

theorem unsigned?_append (h : Ends rest) (w : List Char) :
    unsigned? (w ++ rest) = (unsigned? w).map (leaving rest) := by
  rw [unsigned?, unsigned?, wholePart?_append h]
  cases wholePart? w with
  | none => rfl
  | some whole =>
    simp only [Option.map_some, leaving, bind, Option.bind, fractionPart?_append h]
    cases fractionPart? whole.2 with
    | none => rfl
    | some fraction =>
      simp only [Option.map_some, leaving, exponentPart?_append h]
      cases exponentPart? fraction.2 <;> rfl

theorem numeral?_of_ne {c : Char} (hc : c ≠ '-') (cs : List Char) : numeral? (c :: cs) = unsigned? (c :: cs) := by
  rw [numeral?.eq_def]
  split
  · simp_all
  · rfl

theorem numeral?_append (h : Ends rest) (w : List Char) : numeral? (w ++ rest) = (numeral? w).map (leaving rest) := by
  match w with
  | [] =>
    cases rest with
    | nil => rfl
    | cons c cs =>
      rw [List.nil_append, numeral?_of_ne h.head.2.2.2.2.2]
      exact unsigned?_append h []
  | c :: cs =>
    by_cases hc : c = '-'
    · subst hc
      simp only [List.cons_append, numeral?, unsigned?_append h]
      cases unsigned? cs <;> rfl
    · rw [List.cons_append, numeral?_of_ne hc, numeral?_of_ne hc, ← List.cons_append, unsigned?_append h]

/-! ## Numbers that are written -/

theorem head_toDigits {n : Nat} (hn : 0 < n) : ∃ c cs, Nat.toDigits 10 n = c :: cs ∧ c ≠ '0' := by
  induction n using Nat.strongRecOn with
  | ind n ih =>
    by_cases hlt : n < 10
    · refine ⟨n.digitChar, [], Nat.toDigits_of_lt_base hlt, ?_⟩
      have hall : ∀ d < 10, 0 < d → Nat.digitChar d ≠ '0' := by decide
      exact hall n hlt hn
    · obtain ⟨c, cs, hcs, hc⟩ := ih (n / 10) (by omega) (by omega)
      exact ⟨c, cs ++ [(n % 10).digitChar], by rw [Nat.toDigits_of_base_le (by decide) (by omega), hcs]; rfl, hc⟩

theorem digits1?_of_all {cs : List Char} (hne : cs ≠ []) (h : ∀ c ∈ cs, isDigit c = true) : digits1? cs = some (cs, []) := by
  rw [digits1?, List.takeWhile_eq_self_iff.2 h, List.dropWhile_eq_nil_iff.2 h]
  cases cs with
  | nil => exact absurd rfl hne
  | cons c cs => rfl

theorem unsigned?_toDigits (n : Nat) : unsigned? (Nat.toDigits 10 n) = some (Nat.toDigits 10 n, []) := by
  have hdigits : ∀ c ∈ Nat.toDigits 10 n, isDigit c = true := fun c hc => by
    rw [isDigit_eq]
    exact Nat.isDigit_of_mem_toDigits (by omega) (by omega) hc
  have hwhole : wholePart? (Nat.toDigits 10 n) = some (Nat.toDigits 10 n, []) := by
    obtain rfl | hn := Nat.eq_zero_or_pos n
    · rfl
    · obtain ⟨c, cs, hcs, hc⟩ := head_toDigits hn
      rw [hcs] at hdigits ⊢
      rw [wholePart?_of_ne hc, digits1?_of_all (by simp) hdigits]
  simp [unsigned?, hwhole, fractionPart?, exponentPart?]
/-! ## Strings -/

theorem quoted?_plain {c : Char} (hquote : c ≠ '"') (hslash : c ≠ '\\') (hc : ¬ c.toNat < 32) (cs acc : List Char) :
    quoted? (c :: cs) acc = quoted? cs (c :: acc) := by
  simp [quoted?, hslash, hc]

theorem quoted?_simple {c : Char} (hc : (simpleEscape? c).isSome = true) (cs acc : List Char) :
    quoted? ('\\' :: c :: cs) acc = quoted? cs (c :: '\\' :: acc) := by
  have hu : c ≠ 'u' := by rintro rfl; exact absurd hc (by decide)
  rw [quoted?, if_pos hc]
  intro _ _ _ _ _ he
  simp [hu] at he

/-- A string goes up to its closing quote, whatever follows. -/
theorem quoted?_append {acc : List Char} {r : List Char × List Char} (h : quoted? w acc = some r) (rest : List Char) :
    quoted? (w ++ rest) acc = some (leaving rest r) := by
  fun_induction quoted? w acc with
  | case1 acc => cases h
  | case2 acc cs =>
    cases h
    rfl
  | case3 acc a b c d cs hhex ih =>
    simp only [List.cons_append, quoted?, if_pos hhex, ih h]
  | case4 acc a b c d cs hhex => cases h
  | case5 acc c cs hno hc ih => rw [List.cons_append, List.cons_append, quoted?_simple hc, ih h]
  | case6 => cases h
  | case7 => cases h
  | case8 c cs acc hquote hno hno' hc ih =>
    rw [not_or] at hc
    rw [List.cons_append, quoted?_plain hquote hc.2 hc.1, ih h]

theorem quoted?_escapeChar (c : Char) (rest acc : List Char) :
    quoted? (escapeChar c ++ rest) acc = quoted? rest ((escapeChar c).reverse ++ acc) := by
  unfold escapeChar
  split
  · exact quoted?_simple rfl rest acc
  split
  · exact quoted?_simple rfl rest acc
  split
  · exact quoted?_simple rfl rest acc
  split
  · exact quoted?_simple rfl rest acc
  split
  · exact quoted?_simple rfl rest acc
  split
  · exact quoted?_simple rfl rest acc
  split
  · exact quoted?_simple rfl rest acc
  split
  · have hhex : (hexValue4? '0' '0' (hexDigit (c.toNat / 16)) (hexDigit c.toNat)).isSome = true := by
      simp [hexValue4?, hexValue?_hexDigit, show hexValue? '0' = some 0 from rfl]
    simp only [List.cons_append, quoted?, if_pos hhex]
    rfl
  · exact quoted?_plain ‹_› ‹_› ‹_› rest acc

theorem quoted?_escape (cs rest acc : List Char) :
    quoted? (escape cs ++ '"' :: rest) acc = some (acc.reverse ++ escape cs, rest) := by
  induction cs generalizing acc with
  | nil => simp [escape, quoted?]
  | cons c cs ih =>
    unfold escape at ih ⊢
    rw [List.flatMap_cons, List.append_assoc, quoted?_escapeChar, ih]
    simp

/-! ## Well-formed numbers and strings -/

/-- What may stand between two quotes. -/
def IsQuoted (written : List Char) : Prop := quoted? (written ++ ['"']) [] = some (written, [])

/-- What may stand as a number. -/
def IsNumeral (written : List Char) : Prop := numeral? written = some (written, [])

theorem IsQuoted.quoted? (h : IsQuoted w) (rest : List Char) : quoted? (w ++ '"' :: rest) [] = some (w, rest) := by
  have happend := quoted?_append h rest
  simpa [leaving] using happend

theorem IsNumeral.numeral? (h : IsNumeral w) (hrest : Ends rest) : numeral? (w ++ rest) = some (w, rest) := by
  rw [numeral?_append hrest, h]
  rfl

theorem digits1?_head {r : List Char × List Char} (h : digits1? w = some r) :
    ∃ c cs, w = c :: cs ∧ isDigit c = true := by
  cases w with
  | nil => cases h
  | cons c cs =>
    refine ⟨c, cs, rfl, ?_⟩
    cases hc : isDigit c with
    | true => rfl
    | false =>
      rw [digits1?, List.takeWhile_cons_of_neg (by simp [hc])] at h
      cases h

theorem unsigned?_head {r : List Char × List Char} (h : unsigned? w = some r) :
    ∃ c cs, w = c :: cs ∧ isDigit c = true := by
  have hwhole : ∃ r, wholePart? w = some r := by
    cases hw : wholePart? w with
    | none =>
      rw [unsigned?, hw] at h
      cases h
    | some r => exact ⟨r, rfl⟩
  obtain ⟨r, hr⟩ := hwhole
  cases w with
  | nil => cases hr
  | cons c cs =>
    by_cases hc : c = '0'
    · exact ⟨c, cs, rfl, by rw [hc]; rfl⟩
    · rw [wholePart?_of_ne hc] at hr
      exact digits1?_head hr

/-- A number begins with its sign or a digit. -/
theorem IsNumeral.head (h : IsNumeral w) : ∃ c cs, w = c :: cs ∧ (c = '-' ∨ isDigit c = true) := by
  rw [IsNumeral] at h
  cases w with
  | nil => cases h
  | cons c cs =>
    by_cases hc : c = '-'
    · exact ⟨c, cs, rfl, .inl hc⟩
    · rw [numeral?_of_ne hc] at h
      obtain ⟨d, ds, hd, hdigit⟩ := unsigned?_head h
      exact ⟨d, ds, hd, .inr hdigit⟩

end TextureAtlas.Json
