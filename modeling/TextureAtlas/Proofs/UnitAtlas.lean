import TextureAtlas.Proofs.Mesh
import TextureAtlas.Proofs.Registration
import TextureAtlas.Proofs.SizeSearch

/-!
# Every face finds its fragment

The names of all faces in a tree are gathered, and the atlas is composed of them. A requested swatch or
texture has its place in the atlas, under its own name, and keeps it whatever is placed later on. So no
reference is lost between the tree and the texture coordinates (`faces_find_fragments`).
-/

namespace TextureAtlas

/-! ## The record behind a name -/

theorem Atlas.uv_of_placed? {a : Atlas} {name : String} {f : Fragment} (h : a.placed? name = some f) :
    a.uv name = .ofRect f.rect a.width a.height := by
  rw [uv, h]

/-- The swatch of `n` is recorded at the rectangle, and all its pixels have the palette index and no team
colour. -/
structure Atlas.ShowsSwatch (a : Atlas) (n : UInt32) (side : Nat) (r : Rect) : Prop where
  recorded : a.placed? (ColorIndex.name n) = some ⟨r, n - 1, false, true⟩
  sized : r.w = side ∧ r.h = side
  painted : ∀ i < side, ∀ j < side,
    a.indices[(r.y + j) * a.width + (r.x + i)]? = some n.toUInt8 ∧
      a.logo[(r.y + j) * a.width + (r.x + i)]? = some false

theorem Layout.Proper.showsSwatch {l : Layout} {W H : Nat} {side n : UInt32} {f : Fragment} (h : l.Proper W H)
    (hf : l.fragments.get? (ColorIndex.name n) = some f) (hans : l.Answers (Demand.ofSwatch side n) f) :
    (l.atlas W H).ShowsSwatch n side.toNat f.rect := by
  obtain ⟨p, hp, hq, rfl⟩ := hans
  have hsized := h.sized p hp
  rw [hq] at hsized
  refine ⟨?_, hsized, fun i hi j hj => ?_⟩
  · simp [Atlas.placed?, Layout.atlas, hf, Spot.fragment, hq]
  · have hblock := h.shownBy.block p hp i (hsized.1.symm ▸ hi) j (hsized.2.symm ▸ hj)
    rw [hq] at hblock
    exact hblock

/-! ## From the tree to the coordinates -/

section
variable {names : NameSet} {archives : List Archive} {settings : Settings} {a : Atlas}

/-- A composed atlas is that of the layout of the names on a canvas of its own size. -/
theorem exists_layout_of_compose (ha : compose names (.ofArchives archives) settings = .ok (some a)) :
    ∃ W H l, Layout.ofNames settings.isLogoArchive archives settings.swatchSize W H names.names = .ok l ∧
      l.Proper W H ∧ a = l.atlas W H := by
  have hvalid := valid_of_compose ha
  obtain ⟨W, H, hleast⟩ := (compose_eq_some_iff hvalid).1 ha
  obtain ⟨hW, hH⟩ := hleast.inGrid.pos hvalid.minWidth_pos
  exact ⟨W, H, exists_layout_of_composeAtSize hW hH hleast.success⟩

section
variable (ha : compose names (.ofArchives archives) settings = .ok (some a))
include ha

/-- Whichever spelling of a swatch comes first, its number is that of the printed name. -/
theorem showsSwatch_of_requested {n : UInt32} (hname : names.contains (ColorIndex.name n) = true)
    (hr : (TextureIndex.ofArchives archives).lookup (ColorIndex.name n) = none) :
    ∃ r, a.ShowsSwatch n settings.swatchSize.toNat r := by
  obtain ⟨W, H, l, hl, hproper, rfl⟩ := exists_layout_of_compose ha
  obtain ⟨m, -, hasks, f, hf, hans⟩ := Layout.exists_record hl (Table.mem_keys_iff.2 hname)
    (TextureIndex.registeredName?_eq_some.2 (.inr ⟨hr, n, ColorIndex.ofName?_name n, rfl⟩))
  rcases TextureIndex.registeredName?_eq_some.1 hasks with ⟨-, hsome⟩ | ⟨hrm, k, hk, hkn⟩
  · simp [hr] at hsome
  · obtain rfl := ColorIndex.name_injective hkn
    rw [Demand.ofName_of_swatch hrm hk] at hans
    exact ⟨f.rect, hproper.showsSwatch hf hans⟩

/-- Under the name of a provided texture something is placed, if only a swatch that came before it. -/
theorem exists_placed_of_provided {name : String} {reader : Reader} {e : ArchiveEntry}
    (hname : names.contains name = true) (hr : (TextureIndex.ofArchives archives).lookup name = some reader)
    (he : reader.entry? name = some e) (hframes : e.frames ≠ []) : ∃ f, a.placed? name = some f := by
  obtain ⟨W, H, l, hl, hproper, rfl⟩ := exists_layout_of_compose ha
  obtain ⟨m, -, hasks, f, hf, hans⟩ := Layout.exists_record hl (Table.mem_keys_iff.2 hname)
    (TextureIndex.registeredName?_eq_some.2 (.inl ⟨rfl, by simp [hr]⟩))
  have hblock : ∃ q, l.Answers (.place q) f := by
    rcases TextureIndex.registeredName?_eq_some.1 hasks with ⟨rfl, -⟩ | ⟨hrm, k, hk, -⟩
    · obtain ⟨frame, frames, hcons⟩ := List.exists_cons_of_ne_nil hframes
      rw [Demand.ofName_of_provided hr he, Demand.ofEntry, hcons] at hans
      exact ⟨_, hans⟩
    · rw [Demand.ofName_of_swatch hrm hk] at hans
      exact ⟨_, hans⟩
  obtain ⟨q, hq⟩ := hblock
  obtain ⟨r, hplaced, -⟩ := hproper.places hf hq
  exact ⟨_, hplaced⟩

theorem uv_eq_zero_of_unknown {name : String} (hr : (TextureIndex.ofArchives archives).lookup name = none)
    (hn : ColorIndex.ofName? name = none) : a.uv name = .zero := by
  obtain ⟨W, H, l, hl, -, rfl⟩ := exists_layout_of_compose ha
  have hnone : l.fragments.get? name = none := by
    refine Layout.get?_of_unasked hl fun m _ hasks => ?_
    rcases TextureIndex.registeredName?_eq_some.1 hasks with ⟨-, hsome⟩ | ⟨-, k, -, rfl⟩
    · simp [hr] at hsome
    · rw [ColorIndex.ofName?_name] at hn
      cases hn
  simp [Atlas.uv, Atlas.placed?, Layout.atlas, hnone]

end

/-- **Every face finds its fragment.** Let an atlas be composed for a tree, and take any face of any node.
If the face has no texture but a palette index, and no archive provides a texture of that swatch's name,
then the swatch is in the atlas. If an archive provides the texture of the face, with a frame, then
something is placed under its name. In both cases the coordinates are those of the fragment. If no archive
provides the texture and it is no swatch name, then they are zero. -/
theorem faces_find_fragments {root o : MeshObject} {p : Primitive}
    (ha : compose root.referencedFragments (.ofArchives archives) settings = .ok (some a))
    (ho : o ∈ root.preorder) (hp : p ∈ o.primitives) :
    (∀ n, p.textureName = none → p.colorIndex = some n →
      (TextureIndex.ofArchives archives).lookup (ColorIndex.name n) = none →
        ∃ r, a.ShowsSwatch n settings.swatchSize.toNat r ∧
          a.uv (ColorIndex.name n) = .ofRect r a.width a.height) ∧
    (∀ name reader e, p.textureName = some name →
      (TextureIndex.ofArchives archives).lookup name = some reader → reader.entry? name = some e →
      e.frames ≠ [] →
        ∃ f, a.placed? name = some f ∧ a.uv name = .ofRect f.rect a.width a.height) ∧
    ∀ name, p.textureName = some name → (TextureIndex.ofArchives archives).lookup name = none →
      ColorIndex.ofName? name = none → a.uv name = .zero := by
  have hrequested : ∀ {name}, p.fragmentName = some name →
      root.referencedFragments.contains name = true := by
    intro name hname
    exact MeshObject.contains_referencedFragments.2 ⟨o, ho, p, hp, hname⟩
  refine ⟨?_, ?_, ?_⟩
  · intro n htexture hcolor hr
    have hname : p.fragmentName = some (ColorIndex.name n) := by
      simp [Primitive.fragmentName, htexture, hcolor]
    obtain ⟨r, hshows⟩ := showsSwatch_of_requested ha (hrequested hname) hr
    refine ⟨r, hshows, ?_⟩
    rw [Atlas.uv_of_placed? hshows.recorded]
  · intro name reader e htexture hr he hframes
    have hname : p.fragmentName = some name := by simp [Primitive.fragmentName, htexture]
    obtain ⟨f, hplaced⟩ := exists_placed_of_provided ha (hrequested hname) hr he hframes
    exact ⟨f, hplaced, Atlas.uv_of_placed? hplaced⟩
  · intro name _ hr hn
    exact uv_eq_zero_of_unknown ha hr hn

end

/-- A body with a plate, and below it an arm with a face in colour 5 and one whose texture is missing. -/
theorem faces_of_body_and_arm_find_fragments :
    ∃ a, compose
        (MeshObject.node "body" 0 0 0 none [] [{ textureName := some "plate" }]
          [.node "arm" 0 0 0 none [] [{ colorIndex := some 5 }, { textureName := some "ghost" }] []]
          ).referencedFragments
        (.ofArchives [⟨"a.gaf", [⟨"plate", [⟨2, 1, 0, [#[5, 6]]⟩]⟩]⟩])
        { minWidth := 8, maxWidth := 8, tallVariants := false } = .ok (some a) ∧
      (∃ f, a.placed? "plate" = some f ∧ a.uv "plate" = .ofRect f.rect a.width a.height) ∧
      (∃ r, a.ShowsSwatch 5 4 r ∧ a.uv (ColorIndex.name 5) = .ofRect r a.width a.height) ∧
      a.uv "ghost" = .zero := by
  generalize harm : MeshObject.node "arm" 0 0 0 none [] [{ colorIndex := some 5 },
    { textureName := some "ghost" }] [] = arm
  generalize hroot : MeshObject.node "body" 0 0 0 none [] [{ textureName := some "plate" }] [arm] = root
  have hnames : root.referencedFragments = .ofNames ["plate", ColorIndex.name 5, "ghost"] := by
    simp [← hroot, ← harm, MeshObject.referencedFragments, MeshObject.gather, MeshObject.children,
      MeshObject.ownFragments, MeshObject.primitives, Primitive.fragmentName, NameTable.ofNames]
  have hbody : root ∈ root.preorder := by simp [MeshObject.preorder_eq]
  have harm' : arm ∈ root.preorder := by
    simp [MeshObject.preorder_eq, ← hroot, MeshObject.children, MeshObject.preorderAll]
  have ha : ∃ a, compose root.referencedFragments
      (.ofArchives [⟨"a.gaf", [⟨"plate", [⟨2, 1, 0, [#[5, 6]]⟩]⟩]⟩])
      { minWidth := 8, maxWidth := 8, tallVariants := false } = .ok (some a) := by
    have hvalid : ({ minWidth := 8, maxWidth := 8, tallVariants := false } : Settings).Valid := rfl
    have hsize : ∃ a, composeAtSize root.referencedFragments
        (.ofArchives [⟨"a.gaf", [⟨"plate", [⟨2, 1, 0, [#[5, 6]]⟩]⟩]⟩])
        { minWidth := 8, maxWidth := 8, tallVariants := false } 8 8 = .ok a := by
      rw [composeAtSize_eq_layout _ _ _ (by decide) (by decide) (by decide), hnames]
      exact ⟨_, rfl⟩
    obtain ⟨a, ha⟩ := hsize
    exact exists_compose_of_success hvalid ⟨⟨0, rfl⟩, by decide, .inl rfl, by decide⟩ ha
  obtain ⟨a, ha⟩ := ha
  refine ⟨a, ha, ?_, ?_, ?_⟩
  · exact (faces_find_fragments ha hbody (p := { textureName := some "plate" })
      (by simp [← hroot, MeshObject.primitives])).2.1 "plate" _ _ rfl
      (by rw [TextureIndex.lookup_ofArchives]; rfl) rfl (by simp)
  · exact (faces_find_fragments ha harm' (p := { colorIndex := some 5 })
      (by simp [← harm, MeshObject.primitives])).1 5 rfl rfl
      (by rw [TextureIndex.lookup_ofArchives]; rfl)
  · exact (faces_find_fragments ha harm' (p := { textureName := some "ghost" })
      (by simp [← harm, MeshObject.primitives])).2.2 "ghost" rfl
      (by rw [TextureIndex.lookup_ofArchives]; rfl) (by decide)

end TextureAtlas
