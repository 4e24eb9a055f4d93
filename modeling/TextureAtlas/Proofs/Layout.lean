import Mathlib.Data.List.Pairwise
import TextureAtlas.Archive
import TextureAtlas.Atlas
import TextureAtlas.ColorIndex
import TextureAtlas.Proofs.FirstFit

/-!
# Layouts

A layout says where blocks lie on a canvas, without the canvas: each name asks for a block, for a mere
registration or for nothing (`Demand.ofName`), and each block takes the first origin at which it
overlaps no earlier one (`Layout.meet`). Pixels and team-colour flags are read off the blocks
(`Layout.pixel`, `Layout.isLogo`). `Layout.Proper` collects what holds of every layout so made.
-/

namespace TextureAtlas

/-! ## What a name asks for -/

/-- The first layer of all frames in their order. -/
def ArchiveEntry.firstLayer? (e : ArchiveEntry) : Option (Array UInt8) :=
  (e.frames.flatMap (·.layers)).head?

/-- A block of pixels that wants a place. -/
structure Request where
  name : String
  width : Nat
  height : Nat
  key : UInt32
  logo : Bool
  /-- Palette index at an offset from the origin of the block. -/
  paint : Nat → Nat → UInt8

inductive Demand where
  | nothing
  | register (name : String)
  | place (q : Request)

namespace Demand

/-- An entry has the size and the key of its first frame, and its first layer as rows of pixels. Missing
bytes are 0. -/
def ofEntry (isLogo : Bool) (e : ArchiveEntry) : Demand :=
  match e.frames with
  | [] => .register e.name
  | frame :: _ =>
    .place ⟨e.name, frame.width.toNat, frame.height.toNat, frame.transparencyIndex, isLogo,
      fun i j => (e.firstLayer?.getD #[]).getD (j * frame.width.toNat + i) 0⟩

/-- A swatch is a square of one palette index, of which it takes the low byte. -/
def ofSwatch (side n : UInt32) : Demand :=
  .place ⟨ColorIndex.name n, side.toNat, side.toNat, n - 1, false, fun _ _ => n.toUInt8⟩

/-- The first archive that has the name decides; without one, a swatch name asks for its swatch. -/
def ofName (isLogo : String → Bool) (archives : List Archive) (side : UInt32) (name : String) : Demand :=
  match archives.find? (·.contains name) with
  | some a =>
    match a.entry? name with
    | some e => ofEntry (isLogo a.name) e
    | none => .nothing
  | none =>
    match ColorIndex.ofName? name with
    | some n => ofSwatch side n
    | none => .nothing

/-- The name that the demand registers. -/
def name? : Demand → Option String
  | .nothing => none
  | .register name => some name
  | .place q => some q.name

end Demand

/-! ## Where the blocks lie -/

/-- A block in its place. -/
structure Spot where
  request : Request
  rect : Rect

def Spot.fragment (p : Spot) : Fragment := ⟨p.rect, p.request.key, p.request.logo, true⟩

/-- The records of all names, and the blocks in the order in which they were placed. -/
structure Layout where
  fragments : NameTable Fragment := {}
  spots : List Spot := []

namespace Layout

/-- Whether the rectangle overlaps no block. -/
def isFree (l : Layout) (r : Rect) : Bool := l.spots.all fun p => !p.rect.overlaps r

def register (l : Layout) (name : String) : Layout := { l with fragments := l.fragments.insert name {} }

def place (l : Layout) (q : Request) (r : Rect) : Layout :=
  ⟨l.fragments.insert q.name (Spot.fragment ⟨q, r⟩), l.spots ++ [⟨q, r⟩]⟩

/-- Meets one demand; names that are registered are passed over. -/
def meet (W H : Nat) (l : Layout) : Demand → Except AtlasError Layout
  | .nothing => .ok l
  | .register name => .ok (if l.fragments.contains name then l else l.register name)
  | .place q =>
    if l.fragments.contains q.name then .ok l
    else match scanOrigins l.isFree W H q.width q.height with
      | some r => .ok (l.place q r)
      | none => .error (.bufferFull W H q.width q.height)

/-- The layout of the names on a `W × H` canvas, in the order given. -/
def ofNames (isLogo : String → Bool) (archives : List Archive) (side : UInt32) (W H : Nat)
    (names : List String) : Except AtlasError Layout :=
  (names.map (Demand.ofName isLogo archives side)).foldlM (meet W H) {}

/-! ## What it looks like -/

/-- The block that covers the pixel. -/
def spotAt? (l : Layout) (px py : Nat) : Option Spot := l.spots.find? fun p => decide (p.rect.HasPixel px py)

/-- The palette index of a pixel; 0 outside the blocks. -/
def pixel (l : Layout) (px py : Nat) : UInt8 :=
  match l.spotAt? px py with
  | some p => p.request.paint (px - p.rect.x) (py - p.rect.y)
  | none => 0

/-- Whether a block of team-colour paint covers the pixel. -/
def isLogo (l : Layout) (px py : Nat) : Bool :=
  match l.spotAt? px py with
  | some p => p.request.logo
  | none => false

/-- The layout as an atlas, row by row. -/
def atlas (l : Layout) (W H : Nat) : Atlas where
  width := W
  height := H
  indices := .ofFn fun i : Fin (W * H) => l.pixel (i % W) (i / W)
  logo := .ofFn fun i : Fin (W * H) => l.isLogo (i % W) (i / W)
  fragments := l.fragments
  indices_size := Array.size_ofFn
  logo_size := Array.size_ofFn

variable {W H : Nat} {l l' : Layout} {p : Spot} {q : Request} {r : Rect} {px py : Nat}

theorem isFree_iff : l.isFree r = true ↔ ∀ p ∈ l.spots, p.rect.Apart r := by
  simp only [isFree, List.all_eq_true, Bool.not_eq_true', Rect.apart_iff]

theorem spotAt?_eq_none : l.spotAt? px py = none ↔ ∀ p ∈ l.spots, ¬ p.rect.HasPixel px py := by
  simp only [spotAt?, List.find?_eq_none, decide_eq_true_eq]

/-- A block in a free place is found at its own pixels, and the others where they were. -/
theorem spotAt?_place (hr : l.isFree r = true) (q : Request) (px py : Nat) :
    (l.place q r).spotAt? px py = if r.HasPixel px py then some ⟨q, r⟩ else l.spotAt? px py := by
  have happ : (l.place q r).spotAt? px py =
      (l.spotAt? px py).or (if r.HasPixel px py then some ⟨q, r⟩ else none) := by
    simp only [spotAt?, place, List.find?_append, List.find?_singleton, decide_eq_true_eq]
  by_cases hp : r.HasPixel px py
  · have hnone : l.spotAt? px py = none :=
      spotAt?_eq_none.2 fun p hmem hpx => isFree_iff.1 hr p hmem px py hpx hp
    rw [happ, hnone, if_pos hp, Option.none_or]
  · rw [happ, if_neg hp, if_neg hp, Option.or_none]

/-! ## One demand -/

/-- A demand for a registered name changes nothing. Any other one that is met adds a record under its name,
and a request adds its block at the first fit. -/
theorem meet_inv {d : Demand} (hl : l.meet W H d = .ok l') :
    (l' = l ∧ ∀ name, d.name? = some name → l.fragments.contains name = true) ∨
      (∃ name, d = .register name ∧ l.fragments.contains name = false ∧ l' = l.register name) ∨
      ∃ q r, d = .place q ∧ l.fragments.contains q.name = false ∧
        scanOrigins l.isFree W H q.width q.height = some r ∧ l' = l.place q r := by
  cases d with
  | nothing =>
    cases hl
    exact .inl ⟨rfl, fun name h => nomatch h⟩
  | register name =>
    simp only [Layout.meet, Except.ok.injEq] at hl
    cases hc : l.fragments.contains name with
    | true =>
      rw [if_pos hc] at hl
      refine .inl ⟨hl.symm, fun m hm => ?_⟩
      cases hm
      exact hc
    | false =>
      rw [if_neg (by rw [hc]; exact Bool.false_ne_true)] at hl
      exact .inr (.inl ⟨name, rfl, hc, hl.symm⟩)
  | place q =>
    simp only [Layout.meet] at hl
    cases hc : l.fragments.contains q.name with
    | true =>
      rw [if_pos hc] at hl
      cases hl
      refine .inl ⟨rfl, fun m hm => ?_⟩
      cases hm
      exact hc
    | false =>
      rw [if_neg (by rw [hc]; exact Bool.false_ne_true)] at hl
      split at hl
      · rename_i r hr
        cases hl
        exact .inr (.inr ⟨q, r, rfl, hc, hr, rfl⟩)
      · cases hl

theorem meetAll_cons {d : Demand} {demands : List Demand}
    (hl : (d :: demands).foldlM (Layout.meet W H) l = .ok l') :
    ∃ next, l.meet W H d = .ok next ∧ demands.foldlM (Layout.meet W H) next = .ok l' := by
  rw [List.foldlM_cons] at hl
  cases hd : l.meet W H d with
  | error e => rw [hd] at hl; cases hl
  | ok next => rw [hd] at hl; exact ⟨next, rfl, hl⟩

/-- What meeting one demand preserves, meeting all of them does. -/
theorem meetAll_preserves {P : Layout → Prop}
    (hstep : ∀ {l next : Layout} {d : Demand}, P l → l.meet W H d = .ok next → P next) {demands : List Demand}
    (h : P l) (hl : demands.foldlM (Layout.meet W H) l = .ok l') : P l' := by
  induction demands generalizing l with
  | nil => cases hl; exact h
  | cons d demands ih =>
    obtain ⟨next, hd, hrest⟩ := meetAll_cons hl
    exact ih (hstep h hd) hrest

/-! ## Invariants -/

/-- What holds of a layout made by meeting demands. -/
structure Proper (W H : Nat) (l : Layout) : Prop where
  sized : ∀ p ∈ l.spots, p.rect.w = p.request.width ∧ p.rect.h = p.request.height
  /-- Each block took the first origin at which it overlaps none of the blocks before it. -/
  first : ∀ done p rest, l.spots = done ++ p :: rest →
    IsFirstFit (fun r => ∀ b ∈ done, b.rect.Apart r) W H p.rect
  apart : l.spots.Pairwise fun a b => a.rect.Apart b.rect
  recorded : ∀ p ∈ l.spots, l.fragments.get? p.request.name = some p.fragment
  accounted : ∀ name f, l.fragments.get? name = some f →
    f = {} ∨ ∃ p ∈ l.spots, p.request.name = name ∧ p.fragment = f

theorem proper_empty (W H : Nat) : Proper W H {} where
  sized := by simp
  first := by simp
  apart := List.Pairwise.nil
  recorded := by simp
  accounted := by simp

theorem Proper.apart_of_ne {b : Spot} (h : l.Proper W H) (hp : p ∈ l.spots) (hb : b ∈ l.spots) (hne : p ≠ b) :
    p.rect.Apart b.rect := by
  have : Std.Symm fun a b : Spot => a.rect.Apart b.rect := ⟨fun _ _ => Rect.Apart.symm⟩
  exact h.apart.forall hp hb hne

theorem Proper.register {name : String} (h : l.Proper W H) (hn : l.fragments.contains name = false) :
    (l.register name).Proper W H where
  sized := h.sized
  first := h.first
  apart := h.apart
  recorded p hp := by
    have hne : p.request.name ≠ name := by
      rintro rfl
      simp [Table.contains, h.recorded p hp] at hn
    simp only [Layout.register, Table.get?_insert, if_neg hne, h.recorded p hp]
  accounted m f hf := by
    simp only [Layout.register, Table.get?_insert] at hf
    split at hf
    · exact .inl (Option.some.inj hf).symm
    · exact h.accounted m f hf

theorem Proper.place (h : l.Proper W H) (hn : l.fragments.contains q.name = false)
    (hr : scanOrigins l.isFree W H q.width q.height = some r) : (l.place q r).Proper W H := by
  obtain ⟨hw, hh, hfit⟩ := scanOrigins_eq_some_iff.1 hr
  have hfree := isFree_iff.1 hfit.vacant
  refine ⟨fun p hp => ?_, fun done p rest hsplit => ?_, ?_, fun p hp => ?_, fun name f hf => ?_⟩
  · rcases List.mem_append.1 hp with hp | hp
    · exact h.sized p hp
    · obtain rfl := List.mem_singleton.1 hp
      exact ⟨hw, hh⟩
  · -- Either the new block is the last one, or it is among those after `p`.
    rcases List.eq_nil_or_concat rest with rfl | ⟨rest, b, rfl⟩
    · obtain ⟨rfl, hp⟩ := List.append_inj' hsplit rfl
      obtain rfl := (List.cons.inj hp).1
      exact hfit.congr fun r _ => isFree_iff
    · have hsplit : l.spots ++ [⟨q, r⟩] = (done ++ p :: rest) ++ [b] := by
        simpa [Layout.place] using hsplit
      exact h.first done p rest (List.append_inj' hsplit rfl).1
  · refine List.pairwise_append.2 ⟨h.apart, List.pairwise_singleton _ _, fun a ha b hb => ?_⟩
    obtain rfl := List.mem_singleton.1 hb
    exact hfree a ha
  · rcases List.mem_append.1 hp with hp | hp
    · have hne : p.request.name ≠ q.name := by
        intro he
        simp [Table.contains, ← he, h.recorded p hp] at hn
      simp only [Layout.place, Table.get?_insert, if_neg hne, h.recorded p hp]
    · obtain rfl := List.mem_singleton.1 hp
      simp only [Layout.place, Table.get?_insert, if_true]
  · simp only [Layout.place, Table.get?_insert] at hf
    split at hf
    · rename_i hname
      exact .inr ⟨⟨q, r⟩, by simp [Layout.place], hname.symm, Option.some.inj hf⟩
    · rcases h.accounted name f hf with he | ⟨p, hp, hpn⟩
      · exact .inl he
      · exact .inr ⟨p, List.mem_append_left _ hp, hpn⟩

theorem Proper.meet {d : Demand} (h : l.Proper W H) (hl : l.meet W H d = .ok l') : l'.Proper W H := by
  rcases meet_inv hl with ⟨rfl, -⟩ | ⟨name, -, hn, rfl⟩ | ⟨q, r, -, hn, hr, rfl⟩
  · exact h
  · exact h.register hn
  · exact h.place hn hr

theorem Proper.meetAll {demands : List Demand} (h : l.Proper W H)
    (hl : demands.foldlM (Layout.meet W H) l = .ok l') : l'.Proper W H :=
  meetAll_preserves (fun h hl => h.meet hl) h hl

theorem proper_ofNames {isLogo : String → Bool} {archives : List Archive} {side : UInt32}
    {names : List String} (hl : ofNames isLogo archives side W H names = .ok l) : l.Proper W H :=
  (proper_empty W H).meetAll hl

/-! ## Failures -/

theorem meet_error {d : Demand} {e : AtlasError} (hl : l.meet W H d = .error e) :
    ∃ w h, e = .bufferFull W H w h := by
  cases d with
  | nothing => cases hl
  | register name => cases hl
  | place q =>
    simp only [Layout.meet] at hl
    split at hl
    · cases hl
    · split at hl
      · cases hl
      · cases hl
        exact ⟨q.width, q.height, rfl⟩

/-- A layout fails only for want of room. -/
theorem ofNames_error {isLogo : String → Bool} {archives : List Archive} {side : UInt32}
    {names : List String} {e : AtlasError} (hl : ofNames isLogo archives side W H names = .error e) :
    ∃ w h, e = .bufferFull W H w h := by
  have hfold : ∀ (demands : List Demand) (l : Layout), demands.foldlM (Layout.meet W H) l = .error e →
      ∃ w h, e = .bufferFull W H w h := by
    intro demands
    induction demands with
    | nil => intro l hl; cases hl
    | cons d demands ih =>
      intro l hl
      rw [List.foldlM_cons] at hl
      cases hd : l.meet W H d with
      | error e' => rw [hd] at hl; cases hl; exact meet_error hd
      | ok next => rw [hd] at hl; exact ih next hl
  exact hfold _ _ hl

/-! ## Reading pixels -/

/-- Blocks are apart, so a pixel belongs to the block that covers it. -/
theorem Proper.spotAt?_eq_some (h : l.Proper W H) (hp : p ∈ l.spots) (hpx : p.rect.HasPixel px py) :
    l.spotAt? px py = some p := by
  cases hb : l.spotAt? px py with
  | none => exact absurd hpx (spotAt?_eq_none.1 hb p hp)
  | some b =>
    have hbpx : b.rect.HasPixel px py := by simpa using List.find?_some hb
    by_contra hne
    have hapart := h.apart_of_ne (List.mem_of_find?_eq_some hb) hp fun he => hne (congrArg some he)
    exact hapart px py hbpx hpx

/-- Pixel by pixel, the atlas has the blocks of the layout and nothing else. -/
structure ShownBy (l : Layout) (a : Atlas) : Prop where
  block : ∀ p ∈ l.spots, ∀ i < p.rect.w, ∀ j < p.rect.h,
    a.indices[(p.rect.y + j) * a.width + (p.rect.x + i)]? = some (p.request.paint i j) ∧
      a.logo[(p.rect.y + j) * a.width + (p.rect.x + i)]? = some p.request.logo
  blank : ∀ px < a.width, ∀ py < a.height, (∀ p ∈ l.spots, ¬ p.rect.HasPixel px py) →
    a.indices[py * a.width + px]? = some 0 ∧ a.logo[py * a.width + px]? = some false

theorem atlas_getElem? (l : Layout) (hx : px < W) (hy : py < H) :
    (l.atlas W H).indices[py * W + px]? = some (l.pixel px py) ∧
      (l.atlas W H).logo[py * W + px]? = some (l.isLogo px py) := by
  have hmod : (py * W + px) % W = px := by rw [Nat.mul_add_mod', Nat.mod_eq_of_lt hx]
  have hdiv : (py * W + px) / W = py := by
    rw [Nat.mul_comm, Nat.mul_add_div (Nat.zero_lt_of_lt hx), Nat.div_eq_of_lt hx, Nat.add_zero]
  have hlt := Plane.cell_lt hx hy
  constructor
  · simp only [atlas, Array.getElem?_ofFn, hlt, dite_true, hmod, hdiv]
  · simp only [atlas, Array.getElem?_ofFn, hlt, dite_true, hmod, hdiv]

theorem Proper.shownBy (h : l.Proper W H) : l.ShownBy (l.atlas W H) where
  block p hp i hi j hj := by
    have hpx : p.rect.HasPixel (p.rect.x + i) (p.rect.y + j) := by simp only [Rect.HasPixel]; omega
    obtain ⟨done, rest, hsplit⟩ := List.append_of_mem hp
    obtain ⟨hx, hy⟩ := (h.first done p rest hsplit).fits.lt hpx
    obtain ⟨hindex, hlogo⟩ := atlas_getElem? l hx hy
    rw [Layout.pixel, h.spotAt?_eq_some hp hpx] at hindex
    rw [Layout.isLogo, h.spotAt?_eq_some hp hpx] at hlogo
    simp only [Nat.add_sub_cancel_left] at hindex hlogo
    exact ⟨hindex, hlogo⟩
  blank px hx py hy hout := by
    obtain ⟨hindex, hlogo⟩ := atlas_getElem? l hx hy
    rw [Layout.pixel, spotAt?_eq_none.2 hout] at hindex
    rw [Layout.isLogo, spotAt?_eq_none.2 hout] at hlogo
    exact ⟨hindex, hlogo⟩

end Layout
end TextureAtlas
