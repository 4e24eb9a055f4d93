/-!
# Globs

A glob is matched against the whole of a path, byte by byte. `*` and `?` also match separators; `**`
between separators stands for any chain of directories; `[…]` is a class, negated by `!` or `^`; braces
list alternatives; a backslash takes the next character literally.
-/

namespace TextureAtlas

/-- One piece of a glob. -/
inductive GlobToken where
  | literal (c : Char)
  /-- Any one byte. -/
  | anyByte
  /-- Any run of bytes. -/
  | anyRun
  /-- Any leading directories, or none. -/
  | anyPrefix
  /-- A separator and anything after it. -/
  | anySuffix
  /-- One separator, or two with anything between them. -/
  | anyMiddle
  /-- One byte out of the ranges, or none of them. -/
  | byteClass (negated : Bool) (ranges : List (Char × Char))
  | alternatives (branches : List (List GlobToken))
  deriving Inhabited

/-- A glob, piece by piece. -/
structure Glob where
  tokens : List GlobToken
  deriving Inhabited

namespace GlobToken

/-! ## Reading a glob -/

/-- The ranges of a class after its opening bracket, and what follows it. `first` holds until a
character has been read, `joined` after a dash that may join two characters. Ranges are kept
backwards. -/
def readClass : List Char → Bool → Bool → List (Char × Char) → Option (List (Char × Char) × List Char)
  | [], _, _, _ => none
  | c :: rest, first, joined, ranges =>
    if c = ']' ∧ !first then
      some ((if joined then ('-', '-') :: ranges else ranges).reverse, rest)
    else if c = '-' ∧ !first ∧ !joined then readClass rest false true ranges
    else if joined then
      match ranges with
      | (low, _) :: others => if c < low then none else readClass rest false false ((low, c) :: others)
      | [] => none
    else readClass rest false false ((c, c) :: ranges)

/-- What two stars mean, with `before` in front of them, `rest` behind and `acc` the pieces so far,
backwards: the pieces with theirs, the last character taken and what follows it. Between separators or
at an end of the glob they stand for directories, elsewhere for two single stars. -/
def readStars (inside : Bool) (before : Option Char) (rest : List Char) (acc : List GlobToken) :
    List GlobToken × Char × List Char :=
  let atEnd : Bool := rest.isEmpty || (inside && (rest.head? = some ',' || rest.head? = some '\x7d'))
  let plain := (anyRun :: anyRun :: acc, '*', rest)
  match acc with
  | [] =>
    match rest with
    | [] => ([anyPrefix], '*', [])
    | '/' :: rest => ([anyPrefix], '/', rest)
    | _ => plain
  | last :: others =>
    let joinedWith (t : GlobToken) : List GlobToken := match last with
      | anyPrefix => anyPrefix :: others
      | anySuffix => anySuffix :: others
      | _ => t :: others
    if before ≠ some '/' then plain
    else if atEnd then (joinedWith anySuffix, '*', rest)
    else match rest with
      | '/' :: rest => (joinedWith anyMiddle, '/', rest)
      | _ => plain

mutual
/-- The pieces of a glob up to its end or, among alternatives, up to a comma or the closing brace.
`before` is the character in front, `acc` the pieces read so far, backwards. -/
def readAll : Nat → Bool → Option Char → List Char → List GlobToken →
    Option (List GlobToken × List Char)
  | 0, _, _, _, _ => none
  | _ + 1, inside, _, [], acc => if inside then none else some (acc.reverse, [])
  | fuel + 1, inside, before, c :: rest, acc =>
    if c = '?' then readAll fuel inside (some c) rest (anyByte :: acc)
    else if c = '[' then
      let (negated, body) := match rest with
        | '!' :: body => (true, body)
        | '^' :: body => (true, body)
        | body => (false, body)
      match readClass body true false [] with
      | none => none
      | some (ranges, rest) => readAll fuel inside (some ']') rest (byteClass negated ranges :: acc)
    else if c = '\x7b' then
      match readBranches fuel (some c) rest [] with
      | none => none
      | some (branches, rest) => readAll fuel inside (some '\x7d') rest (alternatives branches :: acc)
    else if c = '\x7d' then if inside then some (acc.reverse, c :: rest) else none
    else if c = ',' ∧ inside then some (acc.reverse, c :: rest)
    else if c = '\\' then
      match rest with
      | [] => none
      | d :: rest => readAll fuel inside (some d) rest (literal d :: acc)
    else if c = '*' then
      match rest with
      | '*' :: rest =>
        let (acc, before, rest) := readStars inside before rest acc
        readAll fuel inside (some before) rest acc
      | _ => readAll fuel inside (some c) rest (anyRun :: acc)
    else readAll fuel inside (some c) rest (literal c :: acc)

/-- The alternatives from the next one on, up to the closing brace. -/
def readBranches : Nat → Option Char → List Char → List (List GlobToken) →
    Option (List (List GlobToken) × List Char)
  | 0, _, _, _ => none
  | fuel + 1, before, cs, acc =>
    match readAll fuel true before cs [] with
    | some (branch, ',' :: rest) => readBranches fuel (some ',') rest (branch :: acc)
    | some (branch, '\x7d' :: rest) => some ((branch :: acc).reverse, rest)
    | _ => none
end

/-! ## Matching -/

/-- The bytes of a character. -/
def bytes (c : Char) : List UInt8 := (String.singleton c).toUTF8.toList

/-- The byte ranges of a class item: the last byte of its first character to the first byte of its
last one, and the other bytes of both on their own. -/
def byteRanges (low high : Char) : List (UInt8 × UInt8) :=
  let single (b : UInt8) := (b, b)
  if low = high then (bytes low).map single
  else
    let a := bytes low
    let b := bytes high
    a.dropLast.map single ++ [(a.getLastD 0, b.headD 0)] ++ b.tail.map single

/-- Whether the byte is in the class. -/
def classHas (negated : Bool) (ranges : List (Char × Char)) (b : UInt8) : Bool :=
  negated != (ranges.flatMap fun r => byteRanges r.1 r.2).any fun r => r.1 ≤ b && b ≤ r.2

/-- How far a path may have been matched: for each number of bytes from 0 on, whether so many can be
covered by the pieces so far. -/
abbrev Reach := List Bool

namespace Reach

/-- Nothing has been covered yet of a path of `n` bytes. -/
def start (n : Nat) : Reach := true :: List.replicate n false

/-- One more byte, with the property. -/
def step (path : List UInt8) (p : UInt8 → Bool) (r : Reach) : Reach :=
  false :: List.zipWith (fun b reached => reached && p b) path r

/-- One more separator. -/
def separator (path : List UInt8) (r : Reach) : Reach := step path (· = '/'.toUInt8) r

/-- Any number of bytes more; `seen` holds if an earlier place was reached. -/
def spread (seen : Bool) : Reach → Reach
  | [] => []
  | reached :: rest => (seen || reached) :: spread (seen || reached) rest

/-- Either way. -/
def either (r s : Reach) : Reach := List.zipWith (· || ·) r s

end Reach

mutual
/-- Whether the piece stands for nothing at all: braces around nothing, and braces around such braces. -/
def isVoid : GlobToken → Bool
  | alternatives branches => allVoid branches
  | _ => false

/-- Whether a branch stands for nothing at all. -/
def isVoidBranch : List GlobToken → Bool
  | [] => true
  | t :: rest => isVoid t && isVoidBranch rest

/-- Whether every branch stands for nothing at all. -/
def allVoid : List (List GlobToken) → Bool
  | [] => true
  | branch :: rest => isVoidBranch branch && allVoid rest
end

mutual
/-- How far the path may have been matched behind one more piece. -/
def extend (path : List UInt8) : GlobToken → Reach → Reach
  | literal c, r => (bytes c).foldl (fun r b => r.step path (· = b)) r
  | anyByte, r => r.step path fun _ => true
  | anyRun, r => r.spread false
  | anyPrefix, r => r.either ((r.spread false).separator path)
  | anySuffix, r => (r.separator path).spread false
  | anyMiddle, r =>
    let behind := r.separator path
    behind.either ((behind.spread false).separator path)
  | byteClass negated ranges, r => r.step path (classHas negated ranges)
  | alternatives branches, r => if allVoid branches then r else extendAny path branches r

/-- How far the path may have been matched behind all pieces in turn. -/
def extendAll (path : List UInt8) : List GlobToken → Reach → Reach
  | [], r => r
  | t :: rest, r => extendAll path rest (extend path t r)

/-- How far the path may have been matched behind one of the branches; those that stand for nothing are
passed over. -/
def extendAny (path : List UInt8) : List (List GlobToken) → Reach → Reach
  | [], r => r.map fun _ => false
  | branch :: rest, r =>
    if isVoidBranch branch then extendAny path rest r
    else (extendAll path branch r).either (extendAny path rest r)
end

end GlobToken

namespace Glob

/-- Reads a glob; `none` if a class or brace stays open, a brace closes nothing, a range runs
backwards or a backslash ends the text. -/
def ofText? (s : String) : Option Glob :=
  (GlobToken.readAll (2 * s.length + 2) false none s.toList []).map fun r => ⟨r.1⟩

/-- Whether the glob matches the whole text. -/
def isMatch (g : Glob) (s : String) : Bool :=
  match g.tokens with
  | [.anyPrefix] => true
  | tokens =>
    let path := s.toUTF8.toList
    (GlobToken.extendAll path tokens (.start path.length)).getLastD false

end Glob

/-- Globs that let a path through, and globs that keep it out. -/
structure PathFilter where
  /-- If given, a path has to match one of them. -/
  include? : Option (List Glob) := none
  /-- A path must not match any of them. -/
  exclude : List Glob := []

namespace PathFilter

/-- Whether the path is kept out. Backslashes count as separators. -/
def skips (f : PathFilter) (path : String) : Bool :=
  let shown := String.ofList (path.toList.map fun c => if c = '\\' then '/' else c)
  f.exclude.any (·.isMatch shown) || f.include?.any fun globs => !globs.any (·.isMatch shown)

end PathFilter
end TextureAtlas
