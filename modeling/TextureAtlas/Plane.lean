/-!
# Row-major planes

A plane of `width` columns is an array whose cell `(x, y)` has index `y * width + x`. A run is a
stretch of consecutive cells; a block is one run per row. Writing never changes the size of a plane,
and a cell outside the array is left out.
-/

namespace TextureAtlas.Plane
variable {α : Type}

/-- Whether one of the `n` cells from `start` on is set. -/
def anyInRun (a : Array Bool) (start : Nat) : Nat → Bool
  | 0 => false
  | n + 1 => a.getD start false || anyInRun a (start + 1) n

/-- `a` with `v` in the `n` cells from `start` on. -/
def fillRun (a : Array α) (start : Nat) (v : α) : Nat → Array α
  | 0 => a
  | n + 1 => fillRun (a.setIfInBounds start v) (start + 1) v n

/-- `a` with `v` in `w` cells of each of the rows `y`, `y + 1`, … (`n` of them) from column `x`. -/
def fillBlock (a : Array α) (width x w : Nat) (v : α) (y : Nat) : Nat → Array α
  | 0 => a
  | n + 1 => fillBlock (fillRun a (y * width + x) v w) width x w v (y + 1) n

/-- `a` with `n` cells from `start` on taken from `source`, beginning at `origin`. -/
def copyRun (a : Array UInt8) (start : Nat) (source : Array UInt8) (origin : Nat) : Nat → Array UInt8
  | 0 => a
  | n + 1 => copyRun (a.setIfInBounds start (source.getD origin 0)) (start + 1) source (origin + 1) n

/-- `a` with `n` rows of `source` (each `stride` long) written from row `y` and column `x` on. Of
each row at most `cols` cells are written, and only those that `source` still has. -/
def copyBlock (a : Array UInt8) (width x cols stride : Nat) (source : Array UInt8) (y row : Nat) :
    Nat → Array UInt8
  | 0 => a
  | n + 1 =>
    let origin := row * stride
    copyBlock (copyRun a (y * width + x) source origin (min cols (source.size - origin)))
      width x cols stride source (y + 1) (row + 1) n

/-! ## Sizes stay -/

@[simp] theorem size_fillRun (a : Array α) (start : Nat) (v : α) (n : Nat) :
    (fillRun a start v n).size = a.size := by
  induction n generalizing a start with
  | zero => rfl
  | succ n ih => simp [fillRun, ih]

@[simp] theorem size_fillBlock (a : Array α) (width x w : Nat) (v : α) (y n : Nat) :
    (fillBlock a width x w v y n).size = a.size := by
  induction n generalizing a y with
  | zero => rfl
  | succ n ih => simp [fillBlock, ih]

@[simp] theorem size_copyRun (a : Array UInt8) (start : Nat) (source : Array UInt8) (origin n : Nat) :
    (copyRun a start source origin n).size = a.size := by
  induction n generalizing a start origin with
  | zero => rfl
  | succ n ih => simp [copyRun, ih]

@[simp] theorem size_copyBlock (a : Array UInt8) (width x cols stride : Nat) (source : Array UInt8)
    (y row n : Nat) : (copyBlock a width x cols stride source y row n).size = a.size := by
  induction n generalizing a y row with
  | zero => rfl
  | succ n ih => simp [copyBlock, ih]

end TextureAtlas.Plane
