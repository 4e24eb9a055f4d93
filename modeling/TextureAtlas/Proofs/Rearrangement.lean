import TextureAtlas.Compose
import TextureAtlas.Proofs.Mesh

/-!
# Rearranged trees

Children and faces may stand in another order, at any nodes, and a subtree may be there twice
(`MeshObject.Rearranged`). Such trees refer to the same names (`MeshObject.Rearranged.mentions_iff`), so the
names gathered from them are the same, and so is the atlas (`MeshObject.gathers_names_of_tree`).
-/

namespace TextureAtlas.MeshObject
variable {o o' c x y : MeshObject} {name : String}

/-! ## Subtrees -/

theorem nodeCount_le_of_mem {l : List MeshObject} (h : o ∈ l) : o.nodeCount ≤ nodeCountAll l := by
  induction l with
  | nil => cases h
  | cons a l ih =>
    rw [nodeCountAll]
    rcases List.mem_cons.1 h with rfl | h
    · exact Nat.le_add_right ..
    · exact Nat.le_trans (ih h) (Nat.le_add_left ..)

theorem mem_preorder_iff : x ∈ o.preorder ↔ x = o ∨ ∃ c ∈ o.children, x ∈ c.preorder := by
  rw [preorder_eq, List.mem_cons, mem_preorderAll]

/-- The nodes below a node of a tree are nodes of the tree. -/
theorem mem_preorder_trans (hy : y ∈ x.preorder) (hx : x ∈ o.preorder) : y ∈ o.preorder := by
  induction hn : o.nodeCount using Nat.strong_induction_on generalizing o with
  | _ n ih =>
    rcases mem_preorder_iff.1 hx with rfl | ⟨c, hc, hx⟩
    · exact hy
    · have hsmall : c.nodeCount < n := by
        have := nodeCount_le_of_mem hc
        rw [← hn, nodeCount_eq o]
        omega
      exact mem_preorder_iff.2 (.inr ⟨c, hc, ih _ hsmall hx rfl⟩)

/-! ## The same nodes in other places -/

/-- The node with other faces. -/
def withPrimitives : MeshObject → List Primitive → MeshObject
  | node n x y z s v _ c, p => node n x y z s v p c

/-- The node with other children. -/
def withChildren : MeshObject → List MeshObject → MeshObject
  | node n x y z s v p _, c => node n x y z s v p c

@[simp] theorem children_withPrimitives (o : MeshObject) (p : List Primitive) :
    (o.withPrimitives p).children = o.children := by cases o; rfl

@[simp] theorem primitives_withPrimitives (o : MeshObject) (p : List Primitive) :
    (o.withPrimitives p).primitives = p := by cases o; rfl

@[simp] theorem children_withChildren (o : MeshObject) (l : List MeshObject) :
    (o.withChildren l).children = l := by cases o; rfl

@[simp] theorem primitives_withChildren (o : MeshObject) (l : List MeshObject) :
    (o.withChildren l).primitives = o.primitives := by cases o; rfl

/-- The second tree is the first one with `x` as one more child of some node. -/
inductive Grafted (x : MeshObject) : MeshObject → MeshObject → Prop
  | here {o : MeshObject} {before after : List MeshObject} (h : o.children = before ++ after) :
      Grafted x o (o.withChildren (before ++ x :: after))
  | inside {o c c' : MeshObject} {before after : List MeshObject} (h : o.children = before ++ c :: after) :
      Grafted x c c' → Grafted x o (o.withChildren (before ++ c' :: after))

/-- The trees differ in the order of children and of faces, at any nodes, and in copies of subtrees. -/
inductive Rearranged : MeshObject → MeshObject → Prop
  | children {o : MeshObject} {l : List MeshObject} (h : o.children.Perm l) : Rearranged o (o.withChildren l)
  | primitives {o : MeshObject} {l : List Primitive} (h : o.primitives.Perm l) : Rearranged o (o.withPrimitives l)
  | copy {o o' x : MeshObject} (hx : x ∈ o.preorder) (h : Grafted x o o') : Rearranged o o'
  | inside {o c c' : MeshObject} {before after : List MeshObject} (h : o.children = before ++ c :: after) :
      Rearranged c c' → Rearranged o (o.withChildren (before ++ c' :: after))
  | refl (o : MeshObject) : Rearranged o o
  | symm {o o' : MeshObject} : Rearranged o o' → Rearranged o' o
  | trans {o o' o'' : MeshObject} : Rearranged o o' → Rearranged o' o'' → Rearranged o o''

/-! ## What they refer to -/

theorem mentions_iff {l : List MeshObject} : Mentions l name ↔ ∃ o ∈ l, Mentions [o] name := by
  simp only [Mentions, preorderAll, List.append_nil, mem_preorderAll]
  constructor
  · rintro ⟨x, ⟨o, ho, hx⟩, hface⟩
    exact ⟨o, ho, x, hx, hface⟩
  · rintro ⟨o, ho, x, hx, hface⟩
    exact ⟨x, ⟨o, ho, hx⟩, hface⟩

theorem mentions_append {l l' : List MeshObject} : Mentions (l ++ l') name ↔ Mentions l name ∨ Mentions l' name := by
  rw [mentions_iff, mentions_iff (l := l), mentions_iff (l := l')]
  simp only [List.mem_append, or_and_right, exists_or]

/-- The names at a place among siblings are those before it, those there and those behind it. -/
theorem mentions_siblings {before after : List MeshObject} :
    Mentions (before ++ c :: after) name ↔ Mentions (before ++ after) name ∨ Mentions [c] name := by
  rw [← List.singleton_append, mentions_append, mentions_append, mentions_append, or_left_comm, or_comm]

theorem mentions_single : Mentions [o] name ↔ name ∈ o.ownFragments ∨ Mentions o.children name := by
  rw [mentions_cons, List.append_nil, mentions_iff, mentions_iff (l := o.children)]
  simp only [List.mem_reverse]

theorem mentions_withChildren {l : List MeshObject} :
    Mentions [o.withChildren l] name ↔ name ∈ o.ownFragments ∨ Mentions l name := by
  rw [mentions_single, ownFragments, primitives_withChildren, children_withChildren, ownFragments]

theorem Mentions.of_mem_preorder (hx : x ∈ o.preorder) (h : Mentions [x] name) : Mentions [o] name := by
  simp only [Mentions, preorderAll, List.append_nil] at h ⊢
  obtain ⟨y, hy, hface⟩ := h
  exact ⟨y, mem_preorder_trans hy hx, hface⟩

/-- A graft adds the names of the grafted tree. -/
theorem Grafted.mentions_iff (h : Grafted x o o') : Mentions [o'] name ↔ Mentions [o] name ∨ Mentions [x] name := by
  induction h with
  | @here o before after h =>
    rw [mentions_withChildren, mentions_siblings, mentions_single (o := o), h, or_assoc]
  | @inside o c c' before after h _ ih =>
    rw [mentions_withChildren, mentions_siblings, mentions_single (o := o), h, mentions_siblings, ih, or_assoc, or_assoc]

/-- Rearranged trees refer to the same names. -/
theorem Rearranged.mentions_iff (h : Rearranged o o') : Mentions [o'] name ↔ Mentions [o] name := by
  induction h with
  | @children o l h =>
    rw [mentions_withChildren, mentions_single, MeshObject.mentions_iff, MeshObject.mentions_iff (l := o.children)]
    simp only [h.mem_iff]
  | primitives h =>
    rw [mentions_single, mentions_single, children_withPrimitives, mem_ownFragments, mem_ownFragments,
      primitives_withPrimitives]
    simp only [h.mem_iff]
  | copy hx h =>
    rw [h.mentions_iff]
    exact ⟨fun h => h.elim id (Mentions.of_mem_preorder hx), .inl⟩
  | @inside o c c' before after h _ ih =>
    rw [mentions_withChildren, mentions_single (o := o), h, mentions_siblings, mentions_siblings, ih]
  | refl => rfl
  | symm _ ih => exact ih.symm
  | trans _ _ ih ih' => exact ih'.trans ih

theorem Rearranged.referencedFragments_eq (h : Rearranged o o') : o'.referencedFragments = o.referencedFragments := by
  refine NameTable.eq_of_contains fun name => ?_
  have hmentions : ∀ o : MeshObject, o.referencedFragments.contains name = true ↔ Mentions [o] name := by
    intro o
    rw [contains_referencedFragments, Mentions, preorderAll, preorderAll, List.append_nil]
  rw [hmentions, hmentions, h.mentions_iff]

/-- **The loop gathers exactly the names in the tree.** It takes as many nodes as the tree has, and a name is
gathered iff a face of some node samples the fragment. So the order of children and of faces at any node and
copies of subtrees make no difference to the names, nor to the atlas that is composed of them. -/
theorem gathers_names_of_tree (root : MeshObject) :
    (gather [root] {} 0).2 = root.nodeCount ∧ root.preorder.length = root.nodeCount ∧
    (∀ name, root.referencedFragments.contains name = true ↔
      ∃ o ∈ root.preorder, ∃ p ∈ o.primitives, p.fragmentName = some name) ∧
    ∀ root', Rearranged root root' → root'.referencedFragments = root.referencedFragments ∧
      ∀ index settings,
        compose root'.referencedFragments index settings = compose root.referencedFragments index settings := by
  refine ⟨?_, length_preorder root, fun name => contains_referencedFragments, fun root' h => ?_⟩
  · rw [taken_gather, nodeCountAll, nodeCountAll, Nat.zero_add, Nat.add_zero]
  · refine ⟨h.referencedFragments_eq, fun index settings => ?_⟩
    rw [h.referencedFragments_eq]

end TextureAtlas.MeshObject
