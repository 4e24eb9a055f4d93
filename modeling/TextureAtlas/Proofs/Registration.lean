import TextureAtlas.Proofs.ColorIndex
import TextureAtlas.Proofs.Composition

/-!
# Who registers a name

A name that some archive provides is registered as it is, any other swatch name as the name its swatch
goes by (`TextureIndex.registeredName?`). Of all names that are registered as one and the same, the first
decides the record, and the others find it settled (`Layout.record_ofNames`).
-/

namespace TextureAtlas

/-! ## What a name asks for -/

namespace Demand
variable {isLogo : String → Bool} {archives : List Archive} {side n : UInt32} {name : String}

theorem ofName_of_provided {reader : Reader} {e : ArchiveEntry}
    (hr : (TextureIndex.ofArchives archives).lookup name = some reader) (he : reader.entry? name = some e) :
    ofName isLogo archives side name = ofEntry (isLogo reader.name) e := by
  rw [TextureIndex.lookup_ofArchives, Option.map_eq_some_iff] at hr
  obtain ⟨a, ha, rfl⟩ := hr
  have hentry : a.entry? name = some e := he
  simp [ofName, ha, hentry, Reader.ofArchive]

theorem ofName_of_swatch (hr : (TextureIndex.ofArchives archives).lookup name = none)
    (hn : ColorIndex.ofName? name = some n) : ofName isLogo archives side name = ofSwatch side n := by
  rw [TextureIndex.lookup_ofArchives, Option.map_eq_none_iff] at hr
  simp [ofName, hr, hn]

theorem ofName_of_unknown (hr : (TextureIndex.ofArchives archives).lookup name = none)
    (hn : ColorIndex.ofName? name = none) : ofName isLogo archives side name = .nothing := by
  rw [TextureIndex.lookup_ofArchives, Option.map_eq_none_iff] at hr
  simp [ofName, hr, hn]

theorem name?_ofEntry (isLogo : Bool) (e : ArchiveEntry) : (ofEntry isLogo e).name? = some e.name := by
  unfold ofEntry
  split <;> rfl

end Demand

/-- What a reader provides is an entry of the name looked up. -/
theorem TextureIndex.exists_entry_of_lookup {archives : List Archive} {name : String} {reader : Reader}
    (hr : (TextureIndex.ofArchives archives).lookup name = some reader) :
    ∃ e, reader.entry? name = some e ∧ e.name = name := by
  rw [TextureIndex.lookup_ofArchives, Option.map_eq_some_iff] at hr
  obtain ⟨a, ha, rfl⟩ := hr
  have hcontains : a.contains name = true := by simpa using List.find?_some ha
  exact Archive.entry?_of_contains hcontains

/-- The name under which a requested name is registered: itself if a reader provides it, else the name
of the swatch that it stands for. -/
def TextureIndex.registeredName? (t : TextureIndex) (name : String) : Option String :=
  if (t.lookup name).isSome then some name else (ColorIndex.ofName? name).map ColorIndex.name

theorem TextureIndex.registeredName?_eq_some {t : TextureIndex} {m name : String} :
    t.registeredName? m = some name ↔
      m = name ∧ (t.lookup name).isSome = true ∨
        t.lookup m = none ∧ ∃ n, ColorIndex.ofName? m = some n ∧ ColorIndex.name n = name := by
  unfold registeredName?
  cases hr : t.lookup m with
  | some reader =>
    constructor
    · rintro ⟨⟩
      exact .inl ⟨rfl, by rw [hr]; rfl⟩
    · rintro (⟨rfl, -⟩ | ⟨⟨⟩, -⟩)
      rfl
  | none =>
    simp only [Option.isSome_none, Bool.false_eq_true, if_false, Option.map_eq_some_iff, true_and]
    constructor
    · exact .inr
    · rintro (⟨rfl, hsome⟩ | hn)
      · simp [hr] at hsome
      · exact hn

theorem Demand.name?_ofName (isLogo : String → Bool) (archives : List Archive) (side : UInt32) (name : String) :
    (ofName isLogo archives side name).name? = (TextureIndex.ofArchives archives).registeredName? name := by
  unfold TextureIndex.registeredName?
  cases hr : (TextureIndex.ofArchives archives).lookup name with
  | some reader =>
    obtain ⟨e, he, hname⟩ := TextureIndex.exists_entry_of_lookup hr
    rw [ofName_of_provided hr he, name?_ofEntry, hname]
    rfl
  | none =>
    cases hn : ColorIndex.ofName? name with
    | some n =>
      rw [ofName_of_swatch hr hn]
      rfl
    | none =>
      rw [ofName_of_unknown hr hn]
      rfl

namespace Layout
variable {W H : Nat} {l l' : Layout} {d : Demand} {name : String} {f : Fragment}

/-- The record that the demand leaves under its name when it is the first one for it. -/
def Answers (l : Layout) : Demand → Fragment → Prop
  | .nothing, _ => False
  | .register _, f => f = {}
  | .place q, f => ∃ p ∈ l.spots, p.request = q ∧ p.fragment = f

theorem Answers.mono (h : l.Answers d f) (hs : l.spots ⊆ l'.spots) : l'.Answers d f := by
  cases d with
  | nothing => exact h
  | register name => exact h
  | place q =>
    obtain ⟨p, hp, hpq⟩ := h
    exact ⟨p, hs hp, hpq⟩

/-! ## One demand -/

/-- A demand for a registered name changes nothing, any other adds one record under its name. -/
theorem meet_cases (hl : l.meet W H d = .ok l') :
    (l' = l ∧ ∀ name, d.name? = some name → l.fragments.contains name = true) ∨
      ∃ name f, d.name? = some name ∧ l.fragments.contains name = false ∧
        l'.fragments = l.fragments.insert name f ∧ l'.Answers d f ∧ l.spots ⊆ l'.spots := by
  rcases meet_inv hl with hsame | ⟨name, rfl, hn, rfl⟩ | ⟨q, r, rfl, hn, -, rfl⟩
  · exact .inl hsame
  · exact .inr ⟨name, {}, rfl, hn, rfl, rfl, fun p hp => hp⟩
  · refine .inr ⟨q.name, _, rfl, hn, rfl, ⟨⟨q, r⟩, ?_, rfl, rfl⟩, ?_⟩
    · simp [Layout.place]
    · exact List.subset_append_left _ _

/-! ## All demands -/

theorem spots_meetAll {demands : List Demand} (hl : demands.foldlM (Layout.meet W H) l = .ok l') :
    l.spots ⊆ l'.spots := by
  refine meetAll_preserves (P := fun m => l.spots ⊆ m.spots) (fun h hd => ?_) (List.Subset.refl _) hl
  rcases meet_cases hd with ⟨rfl, -⟩ | ⟨-, -, -, -, -, -, hs⟩
  · exact h
  · exact fun p hp => hs (h hp)

theorem get?_meetAll_of_known {demands : List Demand} (hl : demands.foldlM (Layout.meet W H) l = .ok l')
    (hf : l.fragments.get? name = some f) : l'.fragments.get? name = some f := by
  refine meetAll_preserves (P := fun m => m.fragments.get? name = some f) (fun h hd => ?_) hf hl
  rcases meet_cases hd with ⟨rfl, -⟩ | ⟨m, g, -, hm, hfrag, -⟩
  · exact h
  · have hne : name ≠ m := by
      rintro rfl
      rw [Table.contains_eq_false_iff, h] at hm
      cases hm
    rw [hfrag, Table.get?_insert, if_neg hne, h]

/-- The first demand for a name leaves its record, and without one the name is not registered. -/
theorem record_meetAll {demands : List Demand} (hl : demands.foldlM (Layout.meet W H) l = .ok l')
    (name : String) (hnew : l.fragments.get? name = none) :
    match demands.find? fun d => d.name? = some name with
    | some d => ∃ f, l'.fragments.get? name = some f ∧ l'.Answers d f
    | none => l'.fragments.get? name = none := by
  induction demands generalizing l with
  | nil => cases hl; exact hnew
  | cons d demands ih =>
    obtain ⟨next, hd, hrest⟩ := meetAll_cons hl
    rw [List.find?_cons]
    by_cases hname : d.name? = some name
    · simp only [hname, decide_true]
      rcases meet_cases hd with ⟨-, hknown⟩ | ⟨m, f, hm, -, hfrag, hans, -⟩
      · have := hknown name hname
        simp [Table.contains, hnew] at this
      · obtain rfl : m = name := Option.some.inj (hm.symm.trans hname)
        refine ⟨f, get?_meetAll_of_known hrest ?_, hans.mono (spots_meetAll hrest)⟩
        rw [hfrag, Table.get?_insert, if_pos rfl]
    · simp only [hname, decide_false]
      refine ih hrest ?_
      rcases meet_cases hd with ⟨rfl, -⟩ | ⟨m, f, hm, -, hfrag, -⟩
      · exact hnew
      · have hne : name ≠ m := by
          rintro rfl
          exact hname hm
        rw [hfrag, Table.get?_insert, if_neg hne, hnew]

/-- The record of a name is left by the first of the names that asks for it. -/
theorem record_ofNames {isLogo : String → Bool} {archives : List Archive} {side : UInt32}
    {names : List String} (hl : ofNames isLogo archives side W H names = .ok l) (name : String) :
    match names.find? fun m => (TextureIndex.ofArchives archives).registeredName? m = some name with
    | some m => ∃ f, l.fragments.get? name = some f ∧ l.Answers (Demand.ofName isLogo archives side m) f
    | none => l.fragments.get? name = none := by
  have hrecord := record_meetAll hl name rfl
  rw [List.find?_map] at hrecord
  simp only [Function.comp_def, Demand.name?_ofName] at hrecord
  cases hm : names.find? fun m =>
      decide ((TextureIndex.ofArchives archives).registeredName? m = some name) with
  | some m => simpa [hm] using hrecord
  | none => simpa [hm] using hrecord

/-- A name under which one of the names is registered has a record, left by one of them. -/
theorem exists_record {isLogo : String → Bool} {archives : List Archive} {side : UInt32}
    {names : List String} (hl : ofNames isLogo archives side W H names = .ok l) {m : String} (hm : m ∈ names)
    (hasks : (TextureIndex.ofArchives archives).registeredName? m = some name) :
    ∃ m' ∈ names, (TextureIndex.ofArchives archives).registeredName? m' = some name ∧
      ∃ f, l.fragments.get? name = some f ∧ l.Answers (Demand.ofName isLogo archives side m') f := by
  have hrecord := record_ofNames hl name
  cases hfirst : names.find? fun m =>
      decide ((TextureIndex.ofArchives archives).registeredName? m = some name) with
  | none =>
    have := List.find?_eq_none.1 hfirst m hm
    simp [hasks] at this
  | some m' =>
    rw [hfirst] at hrecord
    exact ⟨m', List.mem_of_find?_eq_some hfirst, by simpa using List.find?_some hfirst, hrecord⟩

theorem get?_of_unasked {isLogo : String → Bool} {archives : List Archive} {side : UInt32}
    {names : List String} (hl : ofNames isLogo archives side W H names = .ok l)
    (hunasked : ∀ m ∈ names, (TextureIndex.ofArchives archives).registeredName? m ≠ some name) :
    l.fragments.get? name = none := by
  have hrecord := record_ofNames hl name
  have hnone : (names.find? fun m =>
      decide ((TextureIndex.ofArchives archives).registeredName? m = some name)) = none :=
    List.find?_eq_none.2 fun m hm => by simpa using hunasked m hm
  rw [hnone] at hrecord
  exact hrecord

end Layout

/-! ## The records of an atlas -/

/-- A fragment of that size, key and flag has its place under the name. -/
def Atlas.Places (a : Atlas) (name : String) (w h : Nat) (key : UInt32) (isLogo : Bool) : Prop :=
  ∃ r : Rect, a.placed? name = some ⟨r, key, isLogo, true⟩ ∧ r.w = w ∧ r.h = h

theorem Layout.Proper.places {W H : Nat} {l : Layout} {q : Request} {name : String} {f : Fragment}
    (h : l.Proper W H) (hf : l.fragments.get? name = some f) (hans : l.Answers (.place q) f) :
    (l.atlas W H).Places name q.width q.height q.key q.logo := by
  obtain ⟨p, hp, rfl, rfl⟩ := hans
  refine ⟨p.rect, ?_, h.sized p hp⟩
  simp [Atlas.placed?, Layout.atlas, hf, Spot.fragment]

section
variable {names : NameSet} {archives : List Archive} {settings : Settings} {W H : Nat} {a : Atlas}

theorem exists_layout_of_composeAtSize (hW : 0 < W) (hH : 0 < H)
    (ha : composeAtSize names (.ofArchives archives) settings W H = .ok a) :
    ∃ l, Layout.ofNames settings.isLogoArchive archives settings.swatchSize W H names.names = .ok l ∧
      l.Proper W H ∧ a = l.atlas W H := by
  rcases composeAtSize_cases names archives settings hW hH with hlayout | ⟨hover, -⟩
  swap
  · rw [hover] at ha
    cases ha
  rw [hlayout] at ha
  cases hl : Layout.ofNames settings.isLogoArchive archives settings.swatchSize W H names.names with
  | error e => rw [hl] at ha; cases ha
  | ok l =>
    rw [hl] at ha
    cases ha
    exact ⟨l, rfl, Layout.proper_ofNames hl, rfl⟩

/-- An atlas has exactly the fragments that the requested names are registered under. -/
theorem contains_fragments_iff (hW : 0 < W) (hH : 0 < H)
    (ha : composeAtSize names (.ofArchives archives) settings W H = .ok a) (name : String) :
    a.fragments.contains name = true ↔ ∃ m, names.contains m = true ∧
      (TextureIndex.ofArchives archives).registeredName? m = some name := by
  obtain ⟨l, hl, -, rfl⟩ := exists_layout_of_composeAtSize hW hH ha
  simp only [Layout.atlas, ← Table.mem_keys_iff (t := names)]
  constructor
  · intro hcontains
    by_contra hunasked
    have hnone := Layout.get?_of_unasked hl fun m hm hasks => hunasked ⟨m, hm, hasks⟩
    simp [Table.contains, hnone] at hcontains
  · rintro ⟨m, hm, hasks⟩
    obtain ⟨-, -, -, f, hf, -⟩ := Layout.exists_record hl hm hasks
    simp [Table.contains, hf]

end
end TextureAtlas
