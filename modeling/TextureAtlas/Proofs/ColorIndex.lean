import TextureAtlas.ColorIndex

/-!
# Swatch names and their palette indices

A name stands for a palette index iff it is the common beginning, perhaps a plus sign, and digits of that value
(`ofName?_iff_spelled`). A swatch name read back gives the palette index it was made from (`ofName?_name`), so
different indices have different names. The converse fails: a plus sign and leading zeros are read over, so a name
may stand for a swatch that goes by another name.
-/

namespace TextureAtlas.ColorIndex
variable {cs : List Char} {n : UInt32}

/-! ## Decimal digits -/

theorem isDigit_iff {c : Char} : c.isDigit = true ↔ '0' ≤ c ∧ c ≤ '9' := by
  simp [Char.isDigit, Char.le_def]

theorem digitsValue_eq_some_iff {acc v : Nat} :
    digitsValue cs acc = some v ↔ (∀ c ∈ cs, c.isDigit = true) ∧ Nat.ofDigitChars 10 cs acc = v := by
  induction cs generalizing acc with
  | nil => simp [digitsValue]
  | cons c cs ih =>
    rw [digitsValue, List.forall_mem_cons, isDigit_iff, Nat.ofDigitChars_cons]
    by_cases hc : '0' ≤ c ∧ c ≤ '9'
    · rw [if_pos hc, ih]
      simp only [hc, and_self, true_and]
    · rw [if_neg hc]
      simp only [hc, false_and, reduceCtorEq]

/-- The characters after a plus sign, or all of them without one. -/
def unsigned (cs : List Char) : List Char :=
  match cs with
  | '+' :: rest => rest
  | _ => cs

theorem unsigned_of_digits (h : ∀ c ∈ cs, c.isDigit = true) : unsigned cs = cs := by
  unfold unsigned
  split
  · exact absurd (h '+' List.mem_cons_self) (by decide)
  · rfl

theorem eq_unsigned (cs : List Char) : cs = unsigned cs ∨ cs = '+' :: unsigned cs := by
  unfold unsigned
  split
  · exact .inr rfl
  · exact .inl rfl

/-- The number of the digits after the sign. -/
def word? (digits : List Char) : Option UInt32 :=
  if digits.isEmpty then none
  else match digitsValue digits 0 with
    | some v => if v < UInt32.size then some v.toUInt32 else none
    | none => none

theorem number?_eq (cs : List Char) : number? cs = word? (unsigned cs) := rfl

theorem word?_eq_some_iff {digits : List Char} : word? digits = some n ↔
    digits ≠ [] ∧ (∀ c ∈ digits, c.isDigit = true) ∧ Nat.ofDigitChars 10 digits 0 = n.toNat := by
  rw [word?]
  by_cases hempty : digits = []
  · simp [hempty]
  · rw [if_neg (by simpa using hempty), ← digitsValue_eq_some_iff]
    cases hv : digitsValue digits 0 with
    | none => simp
    | some v =>
      simp only [ne_eq, hempty, not_false_eq_true, Option.some.injEq, true_and]
      constructor
      · intro h
        split at h
        · rename_i hlt
          cases h
          exact (Nat.mod_eq_of_lt hlt).symm
        · cases h
      · rintro rfl
        rw [if_pos n.toNat_lt_size]
        simp

/-- A number is read iff at least one digit follows the sign, nothing but digits does, and their value is that
number, which has 32 bits. -/
theorem number?_eq_some_iff : number? cs = some n ↔
    unsigned cs ≠ [] ∧ (∀ c ∈ unsigned cs, c.isDigit = true) ∧ Nat.ofDigitChars 10 (unsigned cs) 0 = n.toNat := by
  rw [number?_eq, word?_eq_some_iff]

theorem number?_toDigits (n : UInt32) : number? (Nat.toDigits 10 n.toNat) = some n := by
  have hdigits : ∀ c ∈ Nat.toDigits 10 n.toNat, c.isDigit = true := fun c hc =>
    Nat.isDigit_of_mem_toDigits (by omega) (by omega) hc
  rw [number?_eq_some_iff, unsigned_of_digits hdigits]
  exact ⟨Nat.toDigits_ne_nil, hdigits, Nat.ofDigitChars_ten_toDigits⟩

/-! ## Names -/

theorem suffix?_eq_some_iff {s : String} : suffix? s = some cs ↔ s.toList = namePrefix.toList ++ cs := by
  simp only [suffix?, List.isPrefixOf_iff_prefix]
  constructor
  · intro h
    split at h
    · rename_i hprefix
      cases h
      exact (List.prefix_iff_eq_append.1 hprefix).symm
    · cases h
  · intro h
    rw [if_pos (h ▸ List.prefix_append _ _), h, List.drop_left]

/-- The name of a swatch stands for that swatch. -/
theorem ofName?_name (n : UInt32) : ofName? (name n) = some n := by
  have hsuffix : suffix? (name n) = some (Nat.toDigits 10 n.toNat) := by
    simp [suffix?_eq_some_iff, name, Nat.repr_eq_ofList_toDigits]
  rw [ofName?, hsuffix]
  exact number?_toDigits n

theorem isName_name (n : UInt32) : isName (name n) = true := by
  simp [isName, name, List.isPrefixOf_iff_prefix]

theorem name_injective {m n : UInt32} (h : name m = name n) : m = n := by
  have hread := congrArg ofName? h
  rw [ofName?_name, ofName?_name] at hread
  exact Option.some.inj hread

/-- **Which names stand for a swatch.** The name made from a palette index begins as swatch names do and is read as
that index, so different indices have different names. A name is read as `n` iff it is the common beginning, at most
one plus sign and at least one ASCII digit, and the decimal value of the digits is `n`; so no value of more than 32
bits is read. -/
theorem ofName?_iff_spelled :
    (∀ n, ofName? (name n) = some n ∧ isName (name n) = true) ∧
    (∀ m n, name m = name n ↔ m = n) ∧
    ∀ s n, ofName? s = some n ↔ ∃ sign digits : String, s = namePrefix ++ sign ++ digits ∧
      (sign = "" ∨ sign = "+") ∧ digits ≠ "" ∧ (∀ c ∈ digits.toList, '0' ≤ c ∧ c ≤ '9') ∧
      Nat.ofDigitChars 10 digits.toList 0 = n.toNat := by
  refine ⟨fun n => ⟨ofName?_name n, isName_name n⟩, fun m n => ⟨name_injective, congrArg name⟩, fun s n => ?_⟩
  simp only [ofName?, Option.bind_eq_some_iff, suffix?_eq_some_iff, number?_eq_some_iff, ← isDigit_iff]
  constructor
  · rintro ⟨cs, hs, hne, hdigits, hvalue⟩
    have hspelled : ∀ {sign : String}, cs = sign.toList ++ unsigned cs →
        s = namePrefix ++ sign ++ String.ofList (unsigned cs) := by
      intro sign hcs
      rw [← String.toList_inj, hs]
      simpa using hcs
    have hne' : String.ofList (unsigned cs) ≠ "" := by
      intro hempty
      exact hne (by simpa using congrArg String.toList hempty)
    rcases eq_unsigned cs with hcs | hcs
    · exact ⟨"", _, hspelled hcs, .inl rfl, hne', by simpa using hdigits, by simpa using hvalue⟩
    · exact ⟨"+", _, hspelled hcs, .inr rfl, hne', by simpa using hdigits, by simpa using hvalue⟩
  · rintro ⟨sign, digits, rfl, hsign, hne, hdigits, hvalue⟩
    have hrest : unsigned (sign.toList ++ digits.toList) = digits.toList := by
      rcases hsign with rfl | rfl
      · exact unsigned_of_digits hdigits
      · rfl
    refine ⟨sign.toList ++ digits.toList, by simp, ?_⟩
    rw [hrest]
    exact ⟨fun hnil => hne (String.toList_inj.1 hnil), hdigits, hvalue⟩

end TextureAtlas.ColorIndex
