import TextureAtlas.Settings

/-!
# Canvas sizes to try

Widths double from the least to the greatest one; each is tried square and then, with tall variants,
twice as tall. No side reaches `2 ^ 32`. `Sizes.next?` steps from one candidate to the next and
`Settings.sizes` lists them all; `Settings.sizeGrid` states the list by the exponents of two.
-/

namespace TextureAtlas

/-- Twice `n`, if it is still a 32-bit number. -/
def doubled? (n : Nat) : Option Nat := if 2 * n < UInt32.size then some (2 * n) else none

/-- The candidate after `(w, h)`. -/
def Sizes.next? (tall : Bool) (maxWidth : Nat) (w h : Nat) : Option (Nat × Nat) :=
  if tall ∧ h = w then (doubled? w).map fun h => (w, h)
  else ((doubled? w).filter (· ≤ maxWidth)).map fun w => (w, w)

theorem doubled?_eq_some {n m : Nat} : doubled? n = some m ↔ m = 2 * n ∧ m < UInt32.size := by
  simp only [doubled?]
  split <;> simp <;> omega

/-- The candidates from `(w, h)` on. -/
def Sizes.listFrom (tall : Bool) (maxWidth : Nat) (w h : Nat) (hw : 0 < w) : List (Nat × Nat) :=
  (w, h) ::
    match hn : Sizes.next? tall maxWidth w h with
    | none => []
    | some (w', h') =>
      have : 0 < w' ∧ (w' = w ∧ h = w ∧ h' ≠ w ∨ w < w' ∧ w' < UInt32.size) := by
        simp only [Sizes.next?] at hn
        split at hn
        · simp only [Option.map_eq_some_iff, doubled?_eq_some, Prod.mk.injEq] at hn
          obtain ⟨a, ⟨rfl, _⟩, rfl, rfl⟩ := hn
          omega
        · simp only [Option.map_eq_some_iff, Option.filter_eq_some_iff, doubled?_eq_some,
            Prod.mk.injEq] at hn
          obtain ⟨a, ⟨⟨rfl, _⟩, _⟩, rfl, rfl⟩ := hn
          omega
      Sizes.listFrom tall maxWidth w' h' this.1
  termination_by (UInt32.size - w, if h = w then 1 else 0)
  decreasing_by
    rcases this.2 with ⟨h1, h2, h3⟩ | ⟨h1, h2⟩
    · subst h1
      rw [if_neg h3, if_pos h2]
      exact Prod.Lex.right _ (by omega)
    · exact Prod.Lex.left _ _ (by omega)

namespace Settings

/-- The candidate sizes in the order in which they are tried. -/
def sizes (s : Settings) : List (Nat × Nat) :=
  if h : 0 < s.minWidth.toNat ∧ s.minWidth.toNat ≤ s.maxWidth.toNat then
    Sizes.listFrom s.tallVariants s.maxWidth.toNat s.minWidth.toNat s.minWidth.toNat h.1
  else []

/-- The sizes of one width: square, and twice as tall where that is wanted and possible. -/
def sizesOfWidth (s : Settings) (w : Nat) : List (Nat × Nat) :=
  if s.tallVariants ∧ 2 * w < UInt32.size then [(w, w), (w, 2 * w)] else [(w, w)]

/-- Least width times each power of two up to the greatest width, each with its sizes. -/
def sizeGrid (s : Settings) : List (Nat × Nat) :=
  if s.minWidth = 0 then []
  else (((List.range 32).map fun k => s.minWidth.toNat * Nat.pow 2 k).takeWhile
    (· ≤ s.maxWidth.toNat)).flatMap s.sizesOfWidth

end Settings
end TextureAtlas
