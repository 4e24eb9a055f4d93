import Mathlib.Tactic.Ring
import TextureAtlas.Sizes

/-!
# The candidate sizes

From a square on, the candidates are the sizes of its width and then those of twice that width, as long
as that is no more than the greatest width (`Settings.listFrom_square`). So the list goes through the least
width times each power of two (`Settings.exists_sizes_eq_flatMap`), a size is a candidate iff it is in the grid
of the settings (`Settings.mem_sizes_iff`), and areas increase along the list (`Settings.sizes_pairwise_area`).
Going from candidate to candidate comes to an end, after 64 of them at the latest
(`Settings.sizes_double_least_width`).
-/

namespace TextureAtlas

/-! ## One step -/

theorem Sizes.listFrom_of_none {tall : Bool} {maxWidth w h : Nat} {hw : 0 < w}
    (hn : Sizes.next? tall maxWidth w h = none) : Sizes.listFrom tall maxWidth w h hw = [(w, h)] := by
  rw [Sizes.listFrom]
  split
  · rfl
  · rename_i w' h' hn'
    rw [hn] at hn'
    cases hn'

theorem Sizes.listFrom_of_some {tall : Bool} {maxWidth w h w' h' : Nat} {hw : 0 < w}
    (hn : Sizes.next? tall maxWidth w h = some (w', h')) (hw' : 0 < w') :
    Sizes.listFrom tall maxWidth w h hw = (w, h) :: Sizes.listFrom tall maxWidth w' h' hw' := by
  rw [Sizes.listFrom]
  split
  · rename_i hn'
    rw [hn] at hn'
    cases hn'
  · rename_i w'' h'' hn'
    rw [hn] at hn'
    cases hn'
    rfl

theorem doubled?_eq_none {n : Nat} : doubled? n = none ↔ ¬ 2 * n < UInt32.size := by
  simp only [doubled?]
  split
  · rename_i hlt
    simp [hlt]
  · rename_i hge
    simp [hge]

/-! ## From candidate to candidate -/

/-- Going from candidate to candidate until there is none meets these sizes, in this order. -/
inductive Sizes.Yields (tall : Bool) (maxWidth : Nat) : Option (Nat × Nat) → List (Nat × Nat) → Prop
  | nil : Yields tall maxWidth none []
  | cons {w h : Nat} {l : List (Nat × Nat)} :
      Yields tall maxWidth (Sizes.next? tall maxWidth w h) l → Yields tall maxWidth (some (w, h)) ((w, h) :: l)

theorem Sizes.Yields.unique {tall : Bool} {maxWidth : Nat} {first : Option (Nat × Nat)} {l l' : List (Nat × Nat)}
    (h : Sizes.Yields tall maxWidth first l) (h' : Sizes.Yields tall maxWidth first l') : l = l' := by
  induction h generalizing l' with
  | nil =>
    cases h'
    rfl
  | cons _ ih =>
    cases h' with
    | cons hrest => rw [ih hrest]

theorem Sizes.yields_listFrom (tall : Bool) (maxWidth : Nat) {w h : Nat} (hw : 0 < w) :
    Sizes.Yields tall maxWidth (some (w, h)) (Sizes.listFrom tall maxWidth w h hw) := by
  fun_induction Sizes.listFrom tall maxWidth w h hw with
  | case1 w h hw ih =>
    refine .cons ?_
    split
    · rename_i hn
      rw [hn]
      exact .nil
    · rename_i w' h' hn
      -- The tail mentions `hn`, so only the place where it begins is rewritten.
      exact Eq.subst (motive := fun next => Sizes.Yields tall maxWidth next _) hn.symm (ih w' h' hn)

namespace Settings
variable {s : Settings} {w h : Nat}

/-- The candidate to begin with. -/
def firstSize? (s : Settings) : Option (Nat × Nat) :=
  if 0 < s.minWidth ∧ s.minWidth ≤ s.maxWidth then some (s.minWidth.toNat, s.minWidth.toNat) else none

/-- The steps from the first candidate come to an end, and `sizes` lists what they meet. -/
theorem yields_iff (s : Settings) {l : List (Nat × Nat)} :
    Sizes.Yields s.tallVariants s.maxWidth.toNat s.firstSize? l ↔ l = s.sizes := by
  have hwidths : (0 < s.minWidth ∧ s.minWidth ≤ s.maxWidth) ↔
      0 < s.minWidth.toNat ∧ s.minWidth.toNat ≤ s.maxWidth.toNat := by
    rw [UInt32.lt_iff_toNat_lt, UInt32.le_iff_toNat_le]
    rfl
  have hsizes : Sizes.Yields s.tallVariants s.maxWidth.toNat s.firstSize? s.sizes := by
    by_cases hmin : 0 < s.minWidth ∧ s.minWidth ≤ s.maxWidth
    · rw [firstSize?, if_pos hmin, sizes, dif_pos (hwidths.1 hmin)]
      exact Sizes.yields_listFrom ..
    · rw [firstSize?, if_neg hmin, sizes, dif_neg fun h => hmin (hwidths.2 h)]
      exact .nil
  constructor
  · intro h
    exact h.unique hsizes
  · rintro rfl
    exact hsizes

/-! ## One width after another -/

theorem mem_sizesOfWidth {p : Nat × Nat} :
    p ∈ s.sizesOfWidth w ↔ p.1 = w ∧ (p.2 = w ∨ s.tallVariants = true ∧ p.2 = 2 * w ∧ 2 * w < UInt32.size) := by
  obtain ⟨w', h'⟩ := p
  simp only [sizesOfWidth]
  split
  · rename_i hc
    simp only [List.mem_cons, Prod.mk.injEq, List.not_mem_nil, or_false]
    constructor
    · rintro (⟨rfl, rfl⟩ | ⟨rfl, rfl⟩)
      · exact ⟨rfl, .inl rfl⟩
      · exact ⟨rfl, .inr ⟨hc.1, rfl, hc.2⟩⟩
    · rintro ⟨rfl, rfl | ⟨-, rfl, -⟩⟩
      · exact .inl ⟨rfl, rfl⟩
      · exact .inr ⟨rfl, rfl⟩
  · rename_i hc
    simp only [List.mem_singleton, Prod.mk.injEq]
    exact and_congr_right fun _ => ⟨.inl, fun h => h.resolve_right fun h => hc ⟨h.1, h.2.2⟩⟩

/-- From a square on, the sizes of its width come first, then the candidates from twice that width on. -/
theorem listFrom_square (s : Settings) (hw : 0 < w) :
    Sizes.listFrom s.tallVariants s.maxWidth.toNat w w hw =
      s.sizesOfWidth w ++
        if 2 * w ≤ s.maxWidth.toNat then
          Sizes.listFrom s.tallVariants s.maxWidth.toNat (2 * w) (2 * w) (by omega)
        else [] := by
  have hmax : s.maxWidth.toNat < UInt32.size := s.maxWidth.toNat_lt_size
  -- The step to the next width is the same from the square and from the tall size.
  have hwider : ∀ h, ¬ (s.tallVariants = true ∧ h = w) →
      Sizes.listFrom s.tallVariants s.maxWidth.toNat w h hw = (w, h) ::
        if 2 * w ≤ s.maxWidth.toNat then
          Sizes.listFrom s.tallVariants s.maxWidth.toNat (2 * w) (2 * w) (by omega)
        else [] := by
    intro h hsquare
    split
    · rename_i hle
      refine Sizes.listFrom_of_some ?_ _
      rw [Sizes.next?, if_neg hsquare, doubled?_eq_some.2 ⟨rfl, by omega⟩, Option.filter_some,
        if_pos (decide_eq_true hle)]
      rfl
    · rename_i hgt
      refine Sizes.listFrom_of_none ?_
      rw [Sizes.next?, if_neg hsquare, Option.map_eq_none_iff, Option.filter_eq_none_iff]
      intro m hm
      rw [(doubled?_eq_some.1 hm).1]
      simpa using hgt
  by_cases htall : s.tallVariants = true
  · by_cases hlt : 2 * w < UInt32.size
    · have hnext : Sizes.next? s.tallVariants s.maxWidth.toNat w w = some (w, 2 * w) := by
        rw [Sizes.next?, if_pos ⟨htall, rfl⟩, doubled?_eq_some.2 ⟨rfl, hlt⟩]
        rfl
      have hsizes : s.sizesOfWidth w = [(w, w), (w, 2 * w)] := if_pos ⟨htall, hlt⟩
      rw [Sizes.listFrom_of_some hnext hw, hwider (2 * w) (by omega), hsizes]
      rfl
    · have hnext : Sizes.next? s.tallVariants s.maxWidth.toNat w w = none := by
        rw [Sizes.next?, if_pos ⟨htall, rfl⟩, doubled?_eq_none.2 hlt]
        rfl
      have hsizes : s.sizesOfWidth w = [(w, w)] := if_neg fun h => hlt h.2
      rw [Sizes.listFrom_of_none hnext, hsizes, if_neg (by omega)]
      rfl
  · have hsizes : s.sizesOfWidth w = [(w, w)] := if_neg fun h => htall h.1
    rw [hwider w fun h => htall h.1, hsizes]
    rfl

/-- From a square on, the candidates are the sizes of its width times each power of two up to the greatest
width. -/
theorem listFrom_square_eq_flatMap {hw : 0 < w} (hle : w ≤ s.maxWidth.toNat) :
    ∃ n, (∀ k, k < n ↔ w * 2 ^ k ≤ s.maxWidth.toNat) ∧
      Sizes.listFrom s.tallVariants s.maxWidth.toNat w w hw =
        (List.range n).flatMap fun k => s.sizesOfWidth (w * 2 ^ k) := by
  induction hd : s.maxWidth.toNat - w using Nat.strong_induction_on generalizing w with
  | _ d ih =>
    have hdouble : ∀ k, w * 2 ^ (k + 1) = 2 * w * 2 ^ k := fun k => by ring
    have hsquare := s.listFrom_square hw
    by_cases hle' : 2 * w ≤ s.maxWidth.toNat
    · obtain ⟨n, hn, hrest⟩ := ih _ (by omega) hle' rfl
      refine ⟨n + 1, fun k => ?_, ?_⟩
      · cases k with
        | zero => simpa using hle
        | succ k => rw [hdouble, Nat.add_lt_add_iff_right, hn]
      · rw [hsquare, if_pos hle', hrest, List.range_succ_eq_map, List.flatMap_cons, List.flatMap_map]
        simp only [Nat.succ_eq_add_one, hdouble, pow_zero, Nat.mul_one]
    · refine ⟨1, fun k => ?_, ?_⟩
      · cases k with
        | zero => simpa using hle
        | succ k =>
          have hwide : 2 * w ≤ 2 * w * 2 ^ k := Nat.le_mul_of_pos_right _ (Nat.two_pow_pos k)
          rw [hdouble]
          omega
      · rw [hsquare, if_neg hle']
        simp

/-- The candidates by the exponents of two, of which there are `n`. -/
theorem exists_sizes_eq_flatMap (s : Settings) (hmin : 0 < s.minWidth.toNat) :
    ∃ n, (∀ k, k < n ↔ s.minWidth.toNat * 2 ^ k ≤ s.maxWidth.toNat) ∧
      s.sizes = (List.range n).flatMap fun k => s.sizesOfWidth (s.minWidth.toNat * 2 ^ k) := by
  rw [sizes]
  split
  · rename_i hle
    exact listFrom_square_eq_flatMap hle.2
  · rename_i hgt
    refine ⟨0, fun k => ?_, rfl⟩
    have hwide : s.minWidth.toNat ≤ s.minWidth.toNat * 2 ^ k := Nat.le_mul_of_pos_right _ (Nat.two_pow_pos k)
    omega

theorem sizes_eq_nil (h : s.minWidth.toNat = 0 ∨ s.maxWidth < s.minWidth) : s.sizes = [] := by
  rw [sizes, dif_neg]
  rintro ⟨hpos, hle⟩
  rcases h with h | h
  · omega
  · exact absurd hle (Nat.not_le.2 (UInt32.lt_iff_toNat_lt.1 h))

/-! ## The grid -/

/-- The sizes to try: a power of two times the least width, up to the greatest one; as tall as wide, or
twice as tall where that is wanted. Both sides are 32-bit numbers. -/
structure InGrid (s : Settings) (W H : Nat) : Prop where
  width_eq : ∃ k, W = s.minWidth.toNat * 2 ^ k
  width_le : W ≤ s.maxWidth.toNat
  shape : H = W ∨ s.tallVariants = true ∧ H = 2 * W
  sides : W < 2 ^ 32 ∧ H < 2 ^ 32

/-- The candidates are the sizes of the grid. -/
theorem mem_sizes_iff {W H : Nat} : (W, H) ∈ s.sizes ↔ 0 < s.minWidth.toNat ∧ s.InGrid W H := by
  have hsize : UInt32.size = 2 ^ 32 := rfl
  have hmax : s.maxWidth.toNat < UInt32.size := s.maxWidth.toNat_lt_size
  by_cases hmin : 0 < s.minWidth.toNat
  · obtain ⟨n, hn, hsizes⟩ := s.exists_sizes_eq_flatMap hmin
    rw [hsizes, List.mem_flatMap]
    constructor
    · rintro ⟨k, hk, hp⟩
      have hle := (hn k).1 (List.mem_range.1 hk)
      obtain ⟨rfl, hH⟩ := mem_sizesOfWidth.1 hp
      exact ⟨hmin, ⟨k, rfl⟩, hle, hH.imp_right fun h => ⟨h.1, h.2.1⟩, by omega, by omega⟩
    · rintro ⟨-, ⟨k, rfl⟩, hle, hH, hsides⟩
      refine ⟨k, List.mem_range.2 ((hn k).2 hle), mem_sizesOfWidth.2 ⟨rfl, ?_⟩⟩
      exact hH.imp_right fun h => ⟨h.1, h.2, by omega⟩
  · rw [sizes_eq_nil (.inl (Nat.eq_zero_of_not_pos hmin))]
    simp [hmin]

theorem InGrid.pos {W H : Nat} (h : s.InGrid W H) (hmin : 0 < s.minWidth.toNat) : 0 < W ∧ 0 < H := by
  obtain ⟨k, hk⟩ := h.width_eq
  have hW : 0 < W := hk ▸ Nat.mul_pos hmin (Nat.two_pow_pos k)
  rcases h.shape with rfl | ⟨-, rfl⟩
  · exact ⟨hW, hW⟩
  · exact ⟨hW, by omega⟩

/-! ## Areas -/

theorem sizes_pairwise_area (s : Settings) : s.sizes.Pairwise fun p q => p.1 * p.2 < q.1 * q.2 := by
  by_cases hmin : 0 < s.minWidth.toNat
  · have hpos : ∀ k, 0 < s.minWidth.toNat * 2 ^ k := fun k => Nat.mul_pos hmin (Nat.two_pow_pos k)
    obtain ⟨n, -, hsizes⟩ := s.exists_sizes_eq_flatMap hmin
    rw [hsizes, List.pairwise_flatMap]
    constructor
    · intro k _
      rw [sizesOfWidth]
      split
      · refine List.pairwise_pair.2 ?_
        have := hpos k
        exact (Nat.mul_lt_mul_left this).2 (by omega)
      · exact List.pairwise_singleton _ _
    · refine List.pairwise_lt_range.imp fun {k m} hkm p hp q hq => ?_
      -- The area of `p` is at most `2 * w²`, that of `q` at least `4 * w²`.
      obtain ⟨hp1, hp2⟩ := mem_sizesOfWidth.1 hp
      obtain ⟨hq1, hq2⟩ := mem_sizesOfWidth.1 hq
      generalize hw : s.minWidth.toNat * 2 ^ k = w at hp1 hp2
      have hw0 : 0 < w := hw ▸ hpos k
      have hwide : 2 * w ≤ s.minWidth.toNat * 2 ^ m := by
        calc 2 * w = s.minWidth.toNat * 2 ^ (k + 1) := by rw [← hw]; ring
          _ ≤ s.minWidth.toNat * 2 ^ m := Nat.mul_le_mul_left _ (Nat.pow_le_pow_right Nat.two_pos hkm)
      have hsmall : p.1 * p.2 ≤ w * (2 * w) := Nat.mul_le_mul (by omega) (by omega)
      have hlarge : 2 * w * (2 * w) ≤ q.1 * q.2 := Nat.mul_le_mul (by omega) (by omega)
      have hdouble : 2 * w * (2 * w) = 2 * (w * (2 * w)) := Nat.mul_assoc 2 w (2 * w)
      have hpos' : 0 < w * (2 * w) := Nat.mul_pos hw0 (by omega)
      omega
  · rw [sizes_eq_nil (.inl (Nat.eq_zero_of_not_pos hmin))]
    exact List.Pairwise.nil

/-! ## The whole list -/

/-- There are no more than 32 powers of two to multiply a width with. -/
theorem exponents_le {n : Nat} (hmin : 0 < s.minWidth.toNat)
    (hn : ∀ k, k < n ↔ s.minWidth.toNat * 2 ^ k ≤ s.maxWidth.toNat) : n ≤ 32 := by
  have hmax : s.maxWidth.toNat < 2 ^ 32 := s.maxWidth.toNat_lt_size
  by_contra hlt
  have hwide : 2 ^ 32 ≤ s.minWidth.toNat * 2 ^ 32 := Nat.le_mul_of_pos_left _ hmin
  have hle := (hn 32).1 (by omega)
  omega

theorem takeWhile_lt_range (n m : Nat) : (List.range m).takeWhile (· < n) = List.range (min n m) := by
  induction m generalizing n with
  | zero => simp
  | succ m ih =>
    cases n with
    | zero => simp [List.range_succ_eq_map]
    | succ n =>
      rw [Nat.succ_min_succ, List.range_succ_eq_map, List.range_succ_eq_map]
      simp [List.takeWhile_map, Function.comp_def, ih]

theorem sizes_eq_sizeGrid (s : Settings) : s.sizes = s.sizeGrid := by
  rw [sizeGrid]
  split
  · rename_i hzero
    exact sizes_eq_nil (.inl (by simp [hzero]))
  · rename_i hne
    have hmin : 0 < s.minWidth.toNat := UInt32.lt_iff_toNat_lt.1 (UInt32.pos_iff_ne_zero.2 hne)
    obtain ⟨n, hn, hsizes⟩ := s.exists_sizes_eq_flatMap hmin
    have hwidths : ((List.range 32).map fun k => s.minWidth.toNat * Nat.pow 2 k).takeWhile
        (· ≤ s.maxWidth.toNat) = (List.range n).map fun k => s.minWidth.toNat * 2 ^ k := by
      have hexponents : ∀ k, decide (s.minWidth.toNat * Nat.pow 2 k ≤ s.maxWidth.toNat) = decide (k < n) :=
        fun k => decide_eq_decide.2 (hn k).symm
      rw [List.takeWhile_map, Function.comp_def]
      simp only [hexponents, takeWhile_lt_range, Nat.min_eq_left (exponents_le hmin hn)]
      rfl
    rw [hsizes, hwidths, List.flatMap_map]

theorem length_sizesOfWidth_le (s : Settings) (w : Nat) : (s.sizesOfWidth w).length ≤ 2 := by
  rw [sizesOfWidth]
  split
  · exact Nat.le_refl 2
  · exact Nat.le_succ 1

theorem length_sizes_le (s : Settings) : s.sizes.length ≤ 64 := by
  by_cases hmin : 0 < s.minWidth.toNat
  · obtain ⟨n, hn, hsizes⟩ := s.exists_sizes_eq_flatMap hmin
    have hfew : ∀ exponents : List Nat,
        (exponents.flatMap fun k => s.sizesOfWidth (s.minWidth.toNat * 2 ^ k)).length ≤ 2 * exponents.length := by
      intro exponents
      induction exponents with
      | nil => simp
      | cons k exponents ih =>
        have := s.length_sizesOfWidth_le (s.minWidth.toNat * 2 ^ k)
        rw [List.flatMap_cons, List.length_append, List.length_cons]
        omega
    have hlength := hfew (List.range n)
    have hn32 := exponents_le hmin hn
    rw [List.length_range] at hlength
    rw [hsizes]
    omega
  · rw [sizes_eq_nil (.inl (Nat.eq_zero_of_not_pos hmin))]
    exact Nat.zero_le _

/-- **The candidates double the least width.** Whatever the settings, going from candidate to candidate comes to
an end and meets `sizes`. There is none if the least width is zero or greater than the greatest one. Otherwise
they are, for each power of two by which the least width does not exceed the greatest one, the sizes of that
width. Areas increase, no size comes twice, every side and every area is what its 32 or 64 bits hold, and there
are at most 64 candidates. -/
theorem sizes_double_least_width (s : Settings) :
    (∀ l, Sizes.Yields s.tallVariants s.maxWidth.toNat s.firstSize? l ↔ l = s.sizes) ∧
    (s.minWidth = 0 ∨ s.maxWidth < s.minWidth → s.sizes = []) ∧
    (0 < s.minWidth → s.minWidth ≤ s.maxWidth →
      ∃ n, (∀ k, k < n ↔ s.minWidth.toNat * 2 ^ k ≤ s.maxWidth.toNat) ∧
        s.sizes = (List.range n).flatMap fun k => s.sizesOfWidth (s.minWidth.toNat * 2 ^ k)) ∧
    s.sizes = s.sizeGrid ∧
    (s.sizes.Pairwise fun p q => p.1 * p.2 < q.1 * q.2) ∧ s.sizes.Nodup ∧
    (∀ p ∈ s.sizes, p.1 < 2 ^ 32 ∧ p.2 < 2 ^ 32 ∧ p.1 * p.2 < 2 ^ 64) ∧
    s.sizes.length ≤ 64 := by
  refine ⟨fun l => s.yields_iff, ?_, ?_, s.sizes_eq_sizeGrid, s.sizes_pairwise_area, ?_, ?_, s.length_sizes_le⟩
  · intro hmin
    refine sizes_eq_nil (hmin.imp_left fun hzero => ?_)
    rw [hzero]
    rfl
  · intro hmin _
    exact s.exists_sizes_eq_flatMap (UInt32.lt_iff_toNat_lt.1 hmin)
  · refine s.sizes_pairwise_area.imp ?_
    rintro p q hlt rfl
    exact Nat.lt_irrefl _ hlt
  · intro p hp
    obtain ⟨-, hgrid⟩ := mem_sizes_iff.1 hp
    obtain ⟨hW, hH⟩ := hgrid.sides
    have harea : p.1 * p.2 < 2 ^ 32 * 2 ^ 32 := Nat.mul_lt_mul'' hW hH
    exact ⟨hW, hH, harea⟩

/-- From 3 times 2 ^ 29 on the last square is twice as wide, and no tall size follows it. -/
example : ({ minWidth := 1610612736, maxWidth := 4294967295 } : Settings).sizeGrid =
    [(1610612736, 1610612736), (1610612736, 3221225472), (3221225472, 3221225472)] := by decide

end Settings
end TextureAtlas
