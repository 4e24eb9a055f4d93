import TextureAtlas.ColorIndex
import TextureAtlas.Table

/-!
# Mesh trees

A unit is a list of mesh trees. Each node has vertices, faces and children; a face samples the
fragment of its texture or, if it names none, the swatch of its palette colour. The names a tree
refers to are gathered with an explicit stack; `MeshObject.preorder` lists the nodes by recursion.
-/

namespace TextureAtlas

/-- A corner in 16.16 fixed point. -/
structure Vertex where
  x : Int32
  y : Int32
  z : Int32
  deriving DecidableEq, Repr, Inhabited

/-- A face: the vertices it joins, and a texture name or a palette index. -/
structure Primitive where
  textureName : Option String := none
  colorIndex : Option UInt32 := none
  vertices : List UInt32 := []
  deriving DecidableEq, Repr, Inhabited

/-- The fragment that the face samples: its texture if it names one, else its swatch. -/
def Primitive.fragmentName (p : Primitive) : Option String :=
  match p.textureName, p.colorIndex with
  | some t, _ => some t
  | none, some c => some (ColorIndex.name c)
  | none, none => none

/-- A node of a mesh tree. -/
inductive MeshObject where
  | node (name : String) (x y z : Int32) (selection : Option UInt32) (vertices : List Vertex)
      (primitives : List Primitive) (children : List MeshObject)
  deriving Inhabited

namespace MeshObject

def name : MeshObject → String | node n _ _ _ _ _ _ _ => n

def x : MeshObject → Int32 | node _ x _ _ _ _ _ _ => x

def y : MeshObject → Int32 | node _ _ y _ _ _ _ _ => y

def z : MeshObject → Int32 | node _ _ _ z _ _ _ _ => z

/-- The face that stands for the node when it is selected. -/
def selection : MeshObject → Option UInt32 | node _ _ _ _ s _ _ _ => s

def vertices : MeshObject → List Vertex | node _ _ _ _ _ v _ _ => v

def primitives : MeshObject → List Primitive | node _ _ _ _ _ _ p _ => p

def children : MeshObject → List MeshObject | node _ _ _ _ _ _ _ c => c

mutual
/-- Number of nodes of the tree. -/
def nodeCount : MeshObject → Nat
  | node _ _ _ _ _ _ _ children => 1 + nodeCountAll children

/-- Number of nodes of a list of trees. -/
def nodeCountAll : List MeshObject → Nat
  | [] => 0
  | o :: rest => nodeCount o + nodeCountAll rest
end

mutual
/-- The nodes of the tree, each before its children. -/
def preorder : MeshObject → List MeshObject
  | node n x y z s v p children => node n x y z s v p children :: preorderAll children

/-- The nodes of a list of trees. -/
def preorderAll : List MeshObject → List MeshObject
  | [] => []
  | o :: rest => preorder o ++ preorderAll rest
end

/-- The fragment names of the node's own faces. -/
def ownFragments (o : MeshObject) : List String := o.primitives.filterMap Primitive.fragmentName

theorem nodeCountAll_append (a b : List MeshObject) :
    nodeCountAll (a ++ b) = nodeCountAll a + nodeCountAll b := by
  induction a with
  | nil => simp [nodeCountAll]
  | cons o a ih => simp [nodeCountAll, ih, Nat.add_assoc]

theorem nodeCount_eq (o : MeshObject) : o.nodeCount = 1 + nodeCountAll o.children := by
  cases o; simp [nodeCount, children]

theorem nodeCountAll_reverse (a : List MeshObject) : nodeCountAll a.reverse = nodeCountAll a := by
  induction a with
  | nil => rfl
  | cons o a ih => simp [nodeCountAll_append, nodeCountAll, ih]; omega

/-- Takes nodes from a stack, last child first, and adds their fragment names to `names`. Also counts
the nodes taken. -/
def gather : List MeshObject → NameSet → Nat → NameSet × Nat
  | [], names, taken => (names, taken)
  | o :: stack, names, taken =>
    gather (o.children.reverse ++ stack)
      (o.ownFragments.foldl (fun names n => names.insert n ()) names) (taken + 1)
  termination_by stack => nodeCountAll stack
  decreasing_by
    simp only [nodeCountAll_append, nodeCountAll_reverse, nodeCountAll, nodeCount_eq]
    omega

/-- Every fragment name that the tree refers to. -/
def referencedFragments (o : MeshObject) : NameSet := (gather [o] {} 0).1

end MeshObject
end TextureAtlas
