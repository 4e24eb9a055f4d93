import TextureAtlas.Json.Record

/-!
# Documents read back

What is written into a document is found again: a text behind its escapes (`Json.text?_ofText`), a word
behind its digits (`Json.uint32?_ofNat`), and the members of a record behind their keys
(`Json.field?_record`).
-/

namespace TextureAtlas.Json

/-! ## Texts -/

theorem unescape_cons {c : Char} (hc : c ≠ '\\') (rest : List Char) :
    unescape (c :: rest) = (unescape rest).map (c :: ·) := by
  rw [unescape.eq_def]
  split <;> simp_all

theorem unescape_simple {c e : Char} (hu : c ≠ 'u') (hc : simpleEscape? c = some e) (rest : List Char) :
    unescape ('\\' :: c :: rest) = (unescape rest).map (e :: ·) := by
  rw [unescape.eq_def]
  split <;> simp_all
  rename_i hother _ heq
  exact absurd heq.2.symm (hother c rest heq.1.symm)

theorem hexValue?_hexDigit (n : Nat) : hexValue? (hexDigit n) = some (n % 16) := by
  have hall : ∀ d, d < 16 → hexValue? (Nat.digitChar d) = some d := by decide
  exact hall (n % 16) (by omega)

/-- The escape of a control character. -/
theorem unescape_control {c : Char} (hc : c.toNat < 32) (rest : List Char) :
    unescape ('\\' :: 'u' :: '0' :: '0' :: hexDigit (c.toNat / 16) :: hexDigit c.toNat :: rest) =
      (unescape rest).map (c :: ·) := by
  have hvalue : hexValue4? '0' '0' (hexDigit (c.toNat / 16)) (hexDigit c.toNat) = some c.toNat := by
    have hzero : hexValue? '0' = some 0 := rfl
    simp only [hexValue4?, hexValue?_hexDigit, hzero, bind, Option.bind, pure, Option.some.injEq]
    omega
  have hhigh : isHighSurrogate c.toNat = false := by simp [isHighSurrogate]; omega
  have hlow : isLowSurrogate c.toNat = false := by simp [isLowSurrogate]; omega
  rw [unescape.eq_def]
  simp [hvalue, hhigh, hlow]

theorem unescape_escapeChar (c : Char) (rest : List Char) :
    unescape (escapeChar c ++ rest) = (unescape rest).map (c :: ·) := by
  unfold escapeChar
  split
  · subst_vars; exact unescape_simple (by decide) rfl rest
  split
  · subst_vars; exact unescape_simple (by decide) rfl rest
  split
  · subst_vars; exact unescape_simple (by decide) rfl rest
  split
  · subst_vars; exact unescape_simple (by decide) rfl rest
  split
  · subst_vars; exact unescape_simple (by decide) rfl rest
  split
  · subst_vars; exact unescape_simple (by decide) rfl rest
  split
  · subst_vars; exact unescape_simple (by decide) rfl rest
  split
  · exact unescape_control ‹_› rest
  · exact unescape_cons ‹_› rest

theorem unescape_escape (cs : List Char) : unescape (escape cs) = some cs := by
  induction cs with
  | nil => rfl
  | cons c cs ih =>
    unfold escape at ih ⊢
    rw [List.flatMap_cons, unescape_escapeChar, ih]
    rfl

@[simp] theorem text?_ofText (s : String) : text? (ofText s) = some s := by
  simp [text?, ofText, unescape_escape]

/-! ## Words -/

theorem isDigit_eq (c : Char) : isDigit c = c.isDigit := by
  simp [isDigit, Char.isDigit, Char.le_def]

theorem le_ofDigitChars (cs : List Char) (n : Nat) : n ≤ Nat.ofDigitChars 10 cs n := by
  induction cs generalizing n with
  | nil => exact Nat.le_refl n
  | cons c cs ih =>
    have hrest := ih (10 * n + (c.toNat - '0'.toNat))
    simp only [Nat.ofDigitChars, List.foldl_cons] at hrest ⊢
    omega

/-- A number that fits 64 bits is taken whole. -/
theorem takeDigits_of_fits {cs : List Char} (hdigits : ∀ c ∈ cs, c.isDigit = true) {n : Nat} (taken : Nat)
    (hfits : Nat.ofDigitChars 10 cs n < UInt64.size) :
    takeDigits cs n taken = (Nat.ofDigitChars 10 cs n, taken + cs.length, []) := by
  induction cs generalizing n taken with
  | nil => rfl
  | cons c cs ih =>
    have hc : isDigit c = true := by rw [isDigit_eq]; exact hdigits c List.mem_cons_self
    have hstep : Nat.ofDigitChars 10 (c :: cs) n = Nat.ofDigitChars 10 cs (10 * n + digitValue c) := by
      simp [Nat.ofDigitChars, digitValue, Nat.mul_comm]
    rw [hstep] at hfits
    have hnext : 10 * n + digitValue c < UInt64.size := Nat.lt_of_le_of_lt (le_ofDigitChars cs _) hfits
    rw [takeDigits, if_pos ⟨hc, hnext⟩, ih (fun d hd => hdigits d (List.mem_cons_of_mem c hd)) _ hfits, hstep,
      List.length_cons]
    simp only [Prod.mk.injEq, true_and, and_true]
    omega

theorem number?_toDigits {n : Nat} (hn : n < UInt64.size) : number? (Nat.toDigits 10 n) = some (.natural n) := by
  have hdigits : ∀ c ∈ Nat.toDigits 10 n, c.isDigit = true := fun c hc =>
    Nat.isDigit_of_mem_toDigits (by omega) (by omega) hc
  have htaken := takeDigits_of_fits hdigits (n := 0) 0 (by rwa [Nat.ofDigitChars_ten_toDigits])
  rw [Nat.ofDigitChars_ten_toDigits] at htaken
  have hsign : ∀ rest, Nat.toDigits 10 n ≠ '-' :: rest := by
    intro rest he
    have := hdigits '-' (he ▸ List.mem_cons_self)
    exact absurd this (by decide)
  -- That there is no sign is what decides the first match.
  unfold number?
  simp [htaken]

@[simp] theorem uint32?_ofNat (n : UInt32) : uint32? (ofNat n.toNat) = some n := by
  have hlt := n.toNat_lt_size
  have hn : n.toNat < UInt64.size := Nat.lt_trans hlt (by decide)
  simp [uint32?, natBelow?, ofNat, number?_toDigits hn, hlt]

/-! ## Lists -/

theorem listOf_map {α : Type} {write : α → Json} {read : Read α} {depth : Nat} {l : List α}
    (h : ∀ a ∈ l, read depth (write a) = some a) : listOf read (depth + 1) (.array (l.map write)) = some l := by
  rw [listOf]
  induction l with
  | nil => rfl
  | cons a l ih =>
    rw [List.forall_mem_cons] at h
    rw [List.map_cons, List.mapM_cons, h.1, ih h.2]
    rfl

/-! ## Records -/

/-- The member of that name in a document that is an object, if there is exactly one. -/
def field? (j : Json) (name : String) : Option Json :=
  match j with
  | .object members => ((keyed? members).bind (member? name)).join
  | _ => none

/-- The names of the members of a document that is an object. -/
def names? (j : Json) : Option (List String) :=
  match j with
  | .object members => (keyed? members).map fun members => members.map (·.1)
  | _ => none

theorem keyed?_record (members : List (String × Json)) :
    keyed? (members.map fun m => (escape m.1.toList, m.2)) = some members := by
  induction members with
  | nil => rfl
  | cons m members ih =>
    unfold keyed? at ih ⊢
    rw [List.map_cons, List.mapM_cons, ih, unescape_escape]
    simp

theorem field?_record (members : List (String × Json)) (name : String) :
    (record members).field? name = (member? name members).join := by
  simp [field?, record, keyed?_record]

theorem member?_eq_some {members : List (String × Json)} (hdistinct : (members.map (·.1)).Nodup) {name : String}
    {v : Json} : (member? name members).join = some v ↔ (name, v) ∈ members := by
  have hfilter : members.filter (·.1 == name) = [] ∨ ∃ w, members.filter (·.1 == name) = [(name, w)] := by
    induction members with
    | nil => exact .inl rfl
    | cons m members ih =>
      rw [List.map_cons, List.nodup_cons] at hdistinct
      by_cases hm : m.1 = name
      · have hrest : members.filter (·.1 == name) = [] := by
          rw [List.filter_eq_nil_iff]
          intro x hx he
          exact hdistinct.1 (hm ▸ (beq_iff_eq.1 he) ▸ List.mem_map_of_mem hx)
        refine .inr ⟨m.2, ?_⟩
        have hpos : (m.1 == name) = true := beq_iff_eq.2 hm
        rw [List.filter_cons, if_pos hpos, hrest, ← hm]
      · simpa [hm] using ih hdistinct.2
  have hmem : (name, v) ∈ members ↔ (name, v) ∈ members.filter (·.1 == name) := by simp
  rw [hmem, member?]
  rcases hfilter with h | ⟨w, h⟩
  · simp [h]
  · simp [h, eq_comm]

/-- Under distinct names a record has the members that were written, and no others. -/
theorem field?_record_eq_some {members : List (String × Json)} (hdistinct : (members.map (·.1)).Nodup)
    {name : String} {v : Json} : (record members).field? name = some v ↔ (name, v) ∈ members := by
  rw [field?_record, member?_eq_some hdistinct]

theorem names?_record (members : List (String × Json)) : (record members).names? = some (members.map (·.1)) := by
  simp [names?, record, keyed?_record]

end TextureAtlas.Json
