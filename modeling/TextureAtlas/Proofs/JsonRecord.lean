import TextureAtlas.Proofs.JsonText

/-!
# Written values are read

The documents that hold texts, words and records of them are well formed (`Json.Written.wellFormed`), and can be held
as a whole as far as their nesting allows (`Json.Written.holdable`). A reader that finds again what a writer wrote, at
every depth that the document needs, still does so behind a field, in a list or in a record (`Json.ReadsBack`).
-/

namespace TextureAtlas.Json
variable {α : Type} {depth : Nat} {j : Json} {items : List Json} {members : List (String × Json)}

/-! ## Nesting -/

mutual
/-- How deep arrays and objects are nested. -/
def nesting : Json → Nat
  | .array items => nestingItems items + 1
  | .object members => nestingMembers members + 1
  | _ => 0

def nestingItems : List Json → Nat
  | [] => 0
  | v :: items => max (nesting v) (nestingItems items)

def nestingMembers : List (List Char × Json) → Nat
  | [] => 0
  | (_, v) :: members => max (nesting v) (nestingMembers members)
end

theorem nestingItems_le : nestingItems items ≤ depth ↔ ∀ v ∈ items, v.nesting ≤ depth := by
  induction items with
  | nil => simp [nestingItems]
  | cons v items ih => rw [nestingItems, Nat.max_le, ih, List.forall_mem_cons]

theorem nestingMembers_le {members : List (List Char × Json)} :
    nestingMembers members ≤ depth ↔ ∀ m ∈ members, m.2.nesting ≤ depth := by
  induction members with
  | nil => simp [nestingMembers]
  | cons m members ih => rw [nestingMembers, Nat.max_le, ih, List.forall_mem_cons]

/-- An array needs a level of its own. -/
theorem nesting_array_le :
    (Json.array items).nesting ≤ depth ↔ ∃ d, depth = d + 1 ∧ ∀ v ∈ items, v.nesting ≤ d := by
  rw [nesting]
  cases depth with
  | zero => simp
  | succ d => simp [nestingItems_le]

/-- A record needs a level of its own. -/
theorem nesting_record_le :
    (record members).nesting ≤ depth ↔ ∃ d, depth = d + 1 ∧ ∀ m ∈ members, m.2.nesting ≤ d := by
  rw [record, nesting]
  cases depth with
  | zero => simp
  | succ d => simp only [Nat.add_le_add_iff_right, nestingMembers_le, List.forall_mem_map, Nat.add_right_cancel_iff,
      exists_eq_left']

theorem nesting_list_le {write : α → Json} (h : ∀ a, (write a).nesting ≤ depth) (l : List α) :
    (Json.array (l.map write)).nesting ≤ depth + 1 :=
  nesting_array_le.2 ⟨depth, rfl, List.forall_mem_map.2 fun a _ => h a⟩

/-! ## Words and integers -/

theorem isNumeral_toDigits (n : Nat) : IsNumeral (Nat.toDigits 10 n) := by
  obtain ⟨c, cs, hcs, hc⟩ := unsigned?_head (unsigned?_toDigits n)
  have hsign : c ≠ '-' := by
    rintro rfl
    exact absurd hc (by decide)
  have hread := unsigned?_toDigits n
  rw [hcs] at hread
  rw [IsNumeral, hcs, numeral?_of_ne hsign, hread]

theorem isNumeral_negative (n : Nat) : IsNumeral ('-' :: Nat.toDigits 10 n) := by
  rw [IsNumeral, numeral?, unsigned?_toDigits]
  rfl

theorem ofNat_eq (n : Nat) : ofNat n = .number (Nat.toDigits 10 n) := by simp [ofNat]

theorem ofInt_of_nonneg {n : Int} (hn : 0 ≤ n) : ofInt n = .number (Nat.toDigits 10 n.natAbs) := by
  rw [ofInt, if_neg (by omega)]
  simp

theorem ofInt_of_neg {n : Int} (hn : n < 0) : ofInt n = .number ('-' :: Nat.toDigits 10 n.natAbs) := by
  rw [ofInt, if_pos hn]
  simp

theorem number?_negative {n : Nat} (hpos : 0 < n) (hn : n ≤ Nat.pow 2 63) :
    number? ('-' :: Nat.toDigits 10 n) = some (.negative (-n)) := by
  have hdigits : ∀ c ∈ Nat.toDigits 10 n, c.isDigit = true := fun c hc =>
    Nat.isDigit_of_mem_toDigits (by omega) (by omega) hc
  have htaken := takeDigits_of_fits hdigits (n := 0) 0 (by
    rw [Nat.ofDigitChars_ten_toDigits]
    exact Nat.lt_of_le_of_lt hn (by decide))
  rw [Nat.ofDigitChars_ten_toDigits] at htaken
  have hfits : ¬ (n = 0 ∨ Nat.pow 2 63 < n) := by omega
  unfold number?
  simp [htaken, hfits]

@[simp] theorem uint8?_ofNat (n : UInt8) : uint8? (ofNat n.toNat) = some n := by
  have hlt := n.toNat_lt_size
  have hn : n.toNat < UInt64.size := Nat.lt_trans hlt (by decide)
  simp [uint8?, natBelow?, ofNat_eq, number?_toDigits hn, hlt]

@[simp] theorem int32?_ofInt (n : Int32) : int32? (ofInt n.toInt) = some n := by
  have hlow := n.le_toInt
  have hhigh := n.toInt_lt
  obtain hn | hn : n.toInt < 0 ∨ 0 ≤ n.toInt := by omega
  · have hvalue : (-(n.toInt.natAbs : Int)) = n.toInt := by omega
    have hbound : -Int.ofNat (Nat.pow 2 31) ≤ n.toInt := hlow
    have hfits : n.toInt.natAbs ≤ Nat.pow 2 63 := by
      rw [show Nat.pow 2 63 = 2 ^ 63 from rfl]
      omega
    rw [ofInt_of_neg hn, int32?, number?_negative (by omega) hfits, hvalue]
    simp only [if_pos hbound, Int32.ofInt_toInt]
  · have hfits : n.toInt.natAbs < UInt64.size := by
      rw [show UInt64.size = 2 ^ 64 from rfl]
      omega
    have hbound : n.toInt.natAbs < Nat.pow 2 31 := by
      rw [show Nat.pow 2 31 = 2 ^ 31 from rfl]
      omega
    have hvalue : Int32.ofNat n.toInt.natAbs = n := by
      rw [← Int32.ofInt_eq_ofNat, Int.natAbs_of_nonneg hn, Int32.ofInt_toInt]
    rw [ofInt_of_nonneg hn, int32?, number?_toDigits hfits]
    simp only [if_pos hbound, hvalue]

/-! ## Documents of written values -/

/-- A document of texts, 64-bit words and signed 32-bit integers. -/
inductive Written : Json → Prop
  | text (s : String) : Written (ofText s)
  | word {n : Nat} (hn : n < UInt64.size) : Written (ofNat n)
  | integer (n : Int32) : Written (ofInt n.toInt)
  | array {items : List Json} (h : ∀ v ∈ items, Written v) : Written (.array items)
  | record {members : List (String × Json)} (h : ∀ m ∈ members, Written m.2) : Written (.record members)

theorem Written.word8 (n : UInt8) : Written (ofNat n.toNat) := .word (Nat.lt_trans n.toNat_lt_size (by decide))

theorem Written.word32 (n : UInt32) : Written (ofNat n.toNat) := .word (Nat.lt_trans n.toNat_lt_size (by decide))

theorem Written.list {write : α → Json} (h : ∀ a, Written (write a)) (l : List α) : Written (.array (l.map write)) :=
  .array (List.forall_mem_map.2 fun a _ => h a)

theorem isQuoted_escape (cs : List Char) : IsQuoted (escape cs) := quoted?_escape cs [] []

theorem Written.wellFormed (h : Written j) : WellFormed j := by
  induction h with
  | text s => exact .string (isQuoted_escape s.toList)
  | word hn =>
    rw [ofNat_eq]
    exact .number (isNumeral_toDigits _)
  | integer n =>
    obtain hn | hn : n.toInt < 0 ∨ 0 ≤ n.toInt := by omega
    · rw [ofInt_of_neg hn]
      exact .number (isNumeral_negative _)
    · rw [ofInt_of_nonneg hn]
      exact .number (isNumeral_toDigits _)
  | array h ih => exact .array ih
  | record h ih =>
    refine .object (List.forall_mem_map.2 fun m _ => isQuoted_escape _) (List.forall_mem_map.2 ih)

theorem holdableItems_eq_true : holdableItems depth items = true ↔ ∀ v ∈ items, holdable depth v = true := by
  induction items with
  | nil => simp [holdableItems]
  | cons v items ih => rw [holdableItems, Bool.and_eq_true, ih, List.forall_mem_cons]

theorem holdableMembers_record :
    holdableMembers depth (members.map fun m => (escape m.1.toList, m.2)) = true ↔
      ∀ m ∈ members, holdable depth m.2 = true := by
  induction members with
  | nil => simp [holdableMembers]
  | cons m members ih =>
    rw [List.map_cons, holdableMembers, unescape_escape, Option.isSome_some, Bool.true_and, Bool.and_eq_true, ih,
      List.forall_mem_cons]

/-- Nested no deeper than that, a document of written values can be held. -/
theorem Written.holdable (h : Written j) (hdepth : j.nesting ≤ depth) : holdable depth j = true := by
  induction h generalizing depth with
  | text s => simp [ofText, Json.holdable, unescape_escape]
  | word hn => simp [ofNat_eq, Json.holdable, number?_toDigits hn]
  | integer n =>
    have hread := int32?_ofInt n
    rw [ofInt, int32?] at hread
    rw [ofInt, Json.holdable]
    split at hread
    · rename_i hnumber
      rw [hnumber, Option.isSome_some]
    · rename_i hnumber
      rw [hnumber, Option.isSome_some]
    · cases hread
  | array h ih =>
    obtain ⟨d, rfl, hitems⟩ := nesting_array_le.1 hdepth
    rw [Json.holdable, Nat.add_sub_cancel, holdableItems_eq_true.2 fun v hv => ih v hv (hitems v hv)]
    simp
  | record h ih =>
    obtain ⟨d, rfl, hmembers⟩ := nesting_record_le.1 hdepth
    rw [Json.record, Json.holdable, Nat.add_sub_cancel, holdableMembers_record.2 fun m hm => ih m hm (hmembers m hm)]
    simp

/-! ## Readers that find what was written -/

theorem fields?_record (names : List String) (depth : Nat) (members : List (String × Json)) :
    fields? names (depth + 1) (record members) = names.mapM fun name => member? name members := by
  simp [fields?, record, keyed?_record]

@[simp] theorem nullable_none (read : Read α) (depth : Nat) : nullable read depth none = some none := rfl

@[simp] theorem nullable_ofNat (read : Read α) (depth n : Nat) :
    nullable read depth (some (ofNat n)) = (read depth (ofNat n)).map some := rfl

@[simp] theorem nullable_ofText (read : Read α) (depth : Nat) (s : String) :
    nullable read depth (some (ofText s)) = (read depth (ofText s)).map some := rfl

/-- The reader finds what the writer wrote, at every depth that the document needs. -/
def ReadsBack (read : Read α) (write : α → Json) : Prop :=
  ∀ depth a, (write a).nesting ≤ depth → read depth (write a) = some a

section
variable {read : Read α} {write : α → Json}

theorem ReadsBack.of_leaf {read : Json → Option α} (h : ∀ a, read (write a) = some a) : ReadsBack (leaf read) write :=
  fun _ a _ => h a

theorem ReadsBack.listOf (h : ReadsBack read write) : ReadsBack (listOf read) fun l => .array (l.map write) := by
  intro depth l hdepth
  obtain ⟨d, rfl, hitems⟩ := nesting_array_le.1 hdepth
  exact listOf_map fun a ha => h d a (hitems _ (List.mem_map_of_mem ha))

end

end TextureAtlas.Json
