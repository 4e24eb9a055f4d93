import TextureAtlas.Mesh
import TextureAtlas.Proofs.Sink.Calls

/-!
# The names that a tree refers to

The loop over a stack of pending nodes (`MeshObject.gather`) meets the nodes of the trees on the stack and
no others, so the gathered names are those of the faces in `MeshObject.preorder`, whatever the order in
which they come up. It takes each node once (`MeshObject.taken_gather`).
-/

namespace TextureAtlas

namespace MeshObject

theorem preorder_eq (o : MeshObject) : o.preorder = o :: preorderAll o.children := by
  cases o
  rw [preorder, children]

theorem mem_preorderAll {x : MeshObject} {l : List MeshObject} :
    x ∈ preorderAll l ↔ ∃ o ∈ l, x ∈ o.preorder := by
  induction l with
  | nil => simp [preorderAll]
  | cons o l ih => simp [preorderAll, ih]

theorem mem_ownFragments {o : MeshObject} {name : String} :
    name ∈ o.ownFragments ↔ ∃ p ∈ o.primitives, p.fragmentName = some name :=
  List.mem_filterMap

/-- Some face of some node in the trees samples the fragment. -/
def Mentions (trees : List MeshObject) (name : String) : Prop :=
  ∃ o ∈ preorderAll trees, ∃ p ∈ o.primitives, p.fragmentName = some name

/-- A node may be replaced by its own faces and its children, in any order. -/
theorem mentions_cons {o : MeshObject} {stack : List MeshObject} {name : String} :
    Mentions (o :: stack) name ↔ name ∈ o.ownFragments ∨ Mentions (o.children.reverse ++ stack) name := by
  have hnodes : ∀ x, x ∈ preorderAll (o :: stack) ↔ x = o ∨ x ∈ preorderAll (o.children.reverse ++ stack) := by
    intro x
    simp only [preorderAll, preorder_eq o, List.mem_append, List.mem_cons, mem_preorderAll, List.mem_reverse,
      or_and_right, exists_or, or_assoc]
  simp only [Mentions, hnodes, mem_ownFragments, exists_eq_or_imp]

mutual
theorem length_preorder (o : MeshObject) : o.preorder.length = o.nodeCount := by
  cases o with
  | node name x y z selection vertices primitives children =>
    rw [preorder, nodeCount, List.length_cons, length_preorderAll children, Nat.add_comm]

theorem length_preorderAll (l : List MeshObject) : (preorderAll l).length = nodeCountAll l := by
  cases l with
  | nil => rfl
  | cons o l => rw [preorderAll, nodeCountAll, List.length_append, length_preorder o, length_preorderAll l]
end

/-- The loop takes each node of the trees on the stack once. -/
theorem taken_gather (stack : List MeshObject) (names : NameSet) (taken : Nat) :
    (gather stack names taken).2 = taken + nodeCountAll stack := by
  fun_induction gather stack names taken with
  | case1 names taken => rfl
  | case2 o stack names taken ih =>
    rw [ih, nodeCountAll_append, nodeCountAll_reverse, nodeCountAll, nodeCount_eq]
    omega

/-- The loop adds to the names those of the trees on the stack. -/
theorem contains_gather (stack : List MeshObject) (names : NameSet) (taken : Nat) (name : String) :
    (gather stack names taken).1.contains name = true ↔
      names.contains name = true ∨ Mentions stack name := by
  fun_induction gather stack names taken with
  | case1 names taken => simp [Mentions, preorderAll]
  | case2 o stack names taken ih =>
    rw [ih, NameTable.contains_insertAll, mentions_cons, or_assoc, or_left_comm]

/-- A name is gathered iff a face of some node samples the fragment. -/
theorem contains_referencedFragments {o : MeshObject} {name : String} :
    o.referencedFragments.contains name = true ↔
      ∃ x ∈ o.preorder, ∃ p ∈ x.primitives, p.fragmentName = some name := by
  rw [referencedFragments, contains_gather]
  simp [Mentions, preorderAll, Table.contains]

end MeshObject
end TextureAtlas
