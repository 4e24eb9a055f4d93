import TextureAtlas.Decimal.Numeral
import TextureAtlas.Yaml.Node

/-!
# What YAML scalars mean

A plain scalar may stand for nothing, a truth value, an integer or a float; any scalar stands for its
text. A literal scalar stands for a value only under the tag of its type. Digits behind a leading zero
are no number.
-/

namespace TextureAtlas.Yaml

/-! ## Texts -/

/-- Whether a plain text stands for nothing. -/
def isNull (cs : List Char) : Bool :=
  ["null", "Null", "NULL", "~"].any fun word => cs = word.toList

/-- The truth value that a plain text stands for. -/
def bool? (cs : List Char) : Option Bool :=
  if ["true", "True", "TRUE"].any fun word => cs = word.toList then some true
  else if ["false", "False", "FALSE"].any fun word => cs = word.toList then some false
  else none

/-- The value of a digit in a base up to 16. -/
def digitIn? (base : Nat) (c : Char) : Option Nat := (Json.hexValue? c).filter (· < base)

/-- The value of a run of at least one digit. -/
def digitsIn? (base : Nat) (cs : List Char) : Option Nat :=
  if cs.isEmpty then none else cs.foldlM (fun n c => (digitIn? base c).map (base * n + ·)) 0

/-- Whether a text is a run of more than one digit that begins with a zero, behind a sign or not. -/
def isZeroLed (cs : List Char) : Bool :=
  let digits := match cs with
    | '+' :: rest => rest
    | '-' :: rest => rest
    | rest => rest
  1 < digits.length && digits.head? = some '0' && digits.all Char.isDigit

/-- The number behind a prefix that names its base. -/
def based? : List Char → Option Nat
  | '0' :: 'x' :: digits => digitsIn? 16 digits
  | '0' :: 'o' :: digits => digitsIn? 8 digits
  | '0' :: 'b' :: digits => digitsIn? 2 digits
  | _ => none

/-- The natural number that a plain text stands for; a plus sign may precede it. -/
def natural? (cs : List Char) : Option Nat :=
  let unsigned := match cs with
    | '+' :: rest => rest
    | rest => rest
  based? unsigned <|> (if isZeroLed cs then none else digitsIn? 10 unsigned)

/-- The amount of the negative integer that a plain text stands for. -/
def negative? : List Char → Option Nat
  | '-' :: rest => based? rest <|> (if isZeroLed rest then none else digitsIn? 10 rest)
  | _ => none

/-- The finite number that a text stands for if a leading plus sign is left off. -/
def finite? (cs : List Char) : Option Float :=
  ((Decimal.Numeral.ofText? cs).map (·.toDouble)).filter (·.isFinite)

/-- The float that a plain text stands for. -/
def float? (cs : List Char) : Option Float :=
  let unsigned := match cs with
    | '+' :: rest => rest
    | rest => rest
  if unsigned.length < cs.length ∧ startsWithAny ['+', '-'] unsigned then none
  else if [".inf", ".Inf", ".INF"].any fun word => unsigned = word.toList then some (1 / 0)
  else if ["-.inf", "-.Inf", "-.INF"].any fun word => cs = word.toList then some (-1 / 0)
  else if [".nan", ".NaN", ".NAN"].any fun word => cs = word.toList then some (0 / 0)
  else finite? unsigned

/-! ## Nodes -/

/-- The full tag of a type that every document knows. -/
def coreTag (type : String) : List Char := ("tag:yaml.org,2002:" ++ type).toList

namespace Node

/-- The node itself, or the one that it refers to as an alias. -/
def resolved? (root : Node) : Node → Option Node
  | reference n => root.anchored? n
  | n => some n

/-- The text of a scalar. -/
def text? : Node → Option (List Char)
  | scalar _ _ text => some text
  | _ => none

/-- The text of a scalar that may stand for a value of the type. -/
def textOf? (type : String) : Node → Option (List Char)
  | scalar p style text =>
    if style = .plain ∨ (style = .literal ∧ p.tag = some (coreTag type)) then some text else none
  | _ => none

/-- Whether the node stands for something. Undefined if it is tagged as nothing and is something. -/
def isSome? : Node → Option Bool
  | scalar p .plain text =>
    match p.tag with
    | some tag =>
      if tag = coreTag "null" then if isNull text then some false else none else some true
    | none => some (!(text.isEmpty || isNull text))
  | _ => some true

/-- Whether nothing is written of the node. -/
def isBlank : Node → Bool
  | scalar _ .plain text => text.isEmpty
  | _ => false

def string? (n : Node) : Option String := n.text?.map String.ofList

def truth? (n : Node) : Option Bool := (n.textOf? "bool").bind bool?

def uint32? (n : Node) : Option UInt32 :=
  ((n.textOf? "int").bind natural?).bind fun k => if k < UInt32.size then some k.toUInt32 else none

def single? (n : Node) : Option Float32 := ((n.textOf? "float").bind float?).map (·.toFloat32)

end Node
end TextureAtlas.Yaml
