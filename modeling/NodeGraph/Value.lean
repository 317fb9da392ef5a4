import NodeGraph.Binary
import NodeGraph.Decimal.Style

/-!
# Slot values and their coercion

A slot holds a `Value`: nothing, or a value of one of six types. Ports declare a `ValueType`, and a
value is coerced to that type when it is written. Coercion is best effort: nothing becomes zero, a
value of the right type is kept, a scalar takes any numeric value (`Value.convert?`). Where no
conversion exists the zero of the type stands in (`Value.convert`), and the caller can tell.

`Value.as?` and `Value.as` are the same with the data of a value in place of the value, for those
who know the type that they ask for.
-/

namespace NodeGraph

/-- A vector with two components. Its equality is one of data, and `Value.equal` is that of
numbers. -/
structure Vec2 where
  x : Float32
  y : Float32
  deriving DecidableEq

/-- A vector with three components, such as a point or a colour. -/
structure Vec3 where
  x : Float32
  y : Float32
  z : Float32
  deriving DecidableEq

/-- A vector with four components. No operation makes one, but ports and literals can have it. -/
structure Vec4 where
  x : Float32
  y : Float32
  z : Float32
  w : Float32
  deriving DecidableEq

/-- The declared type of a port, of a parameter or of a step's result. Absence is not a type. -/
inductive ValueType where
  | bool
  | integer
  | scalar
  | vector2
  | vector3
  | vector4
  deriving DecidableEq, Repr

/-- What a slot holds. Values also stand in documents, as literals and as parameters. -/
inductive Value where
  /-- An unwritten slot, or a literal that was not given. -/
  | absent
  | bool (value : Bool)
  | integer (value : Int32)
  | scalar (value : Float32)
  | vector2 (value : Vec2)
  | vector3 (value : Vec3)
  | vector4 (value : Vec4)
  deriving DecidableEq

instance : Inhabited ValueType := ⟨.scalar⟩

instance : Inhabited Value := ⟨.absent⟩

namespace ValueType

/-- The type's name in a document, by which a document's reader finds it. -/
def name : ValueType → String
  | .bool => "Bool"
  | .integer => "Integer"
  | .scalar => "Scalar"
  | .vector2 => "Vector2"
  | .vector3 => "Vector3"
  | .vector4 => "Vector4"

/-- The type's name in text shown to people, where a scalar is called by its usual name. -/
def label : ValueType → String
  | .scalar => "Float"
  | ty => ty.name

/-- All types, in the order of their declaration. A type's name in a document is looked up among
them. -/
def all : List ValueType :=
  [.bool, .integer, .scalar, .vector2, .vector3, .vector4]

/-- Whether values of this type convert to a scalar. There is no conversion to the other types. -/
def isNumeric : ValueType → Bool
  | .bool | .integer | .scalar => true
  | .vector2 | .vector3 | .vector4 => false

/-- The data of a value of this type, that is the value without its constructor. -/
abbrev Payload : ValueType → Type
  | .bool => Bool
  | .integer => Int32
  | .scalar => Float32
  | .vector2 => Vec2
  | .vector3 => Vec3
  | .vector4 => Vec4

/-- The data of the type's zero. For vectors it is zero in all components. -/
def zeroPayload : (ty : ValueType) → ty.Payload
  | .bool => false
  | .integer => (0 : Int32)
  | .scalar => (0 : Float32)
  | .vector2 => ⟨0, 0⟩
  | .vector3 => ⟨0, 0, 0⟩
  | .vector4 => ⟨0, 0, 0, 0⟩

/-- The value of this type with the given data. -/
def value : (ty : ValueType) → ty.Payload → Value
  | .bool, b => .bool b
  | .integer, i => .integer i
  | .scalar, s => .scalar s
  | .vector2, v => .vector2 v
  | .vector3, v => .vector3 v
  | .vector4, v => .vector4 v

/-- The zero of this type, which stands in where there is no value or no conversion. -/
def zero (ty : ValueType) : Value :=
  ty.value ty.zeroPayload

end ValueType

namespace Value

/-- The type of a value that is present. An absent value has none. -/
def type? : Value → Option ValueType
  | .absent => none
  | .bool _ => some .bool
  | .integer _ => some .integer
  | .scalar _ => some .scalar
  | .vector2 _ => some .vector2
  | .vector3 _ => some .vector3
  | .vector4 _ => some .vector4

/-- Whether there is no value, as in a slot before it is first written. -/
def isAbsent : Value → Bool
  | .absent => true
  | _ => false

/-- A truth value, an integer or a scalar seen as a scalar. An integer that is no scalar is
rounded. -/
def number? : Value → Option Float32
  | .bool b => some (if b then 1 else 0)
  | .integer i => some (Binary.single i.toInt)
  | .scalar s => some s
  | _ => none

/-- The data of a value of exactly the given type, with no coercion. -/
def payload? : (ty : ValueType) → Value → Option ty.Payload
  | .bool, .bool b => some b
  | .integer, .integer i => some i
  | .scalar, .scalar s => some s
  | .vector2, .vector2 v => some v
  | .vector3, .vector3 v => some v
  | .vector4, .vector4 v => some v
  | _, _ => none

/-- The value coerced to a type, where that needs no fallback. An absent value is the zero of every
type. -/
def convert? (v : Value) (ty : ValueType) : Option Value :=
  if v.isAbsent then some ty.zero
  else if v.type? = some ty then some v
  else if ty = .scalar then v.number?.map .scalar
  else none

/-- The value coerced to a type, with the zero of the type as fallback. The result has the type
always. -/
def convert (v : Value) (ty : ValueType) : Value :=
  (v.convert? ty).getD ty.zero

/-- The data of the coerced value, where coercion needs no fallback. It is there exactly if
`convert?` gives a value. -/
def as? (ty : ValueType) (v : Value) : Option ty.Payload :=
  (v.convert? ty).bind (payload? ty)

/-- The data of the coerced value, with the zero of the type as fallback. -/
def as (ty : ValueType) (v : Value) : ty.Payload :=
  (v.as? ty).getD ty.zeroPayload

/-- Whether two values are equal as numbers: zeros of either sign are equal, and NaN differs from
everything. Values of different types are never equal. -/
def equal : Value → Value → Bool
  | .absent, .absent => true
  | .bool a, .bool b => a == b
  | .integer a, .integer b => a == b
  | .scalar a, .scalar b => a == b
  | .vector2 a, .vector2 b => a.x == b.x && a.y == b.y
  | .vector3 a, .vector3 b => a.x == b.x && a.y == b.y && a.z == b.z
  | .vector4 a, .vector4 b => a.x == b.x && a.y == b.y && a.z == b.z && a.w == b.w
  | _, _ => false

end Value

/-- The two components in parentheses, as messages and listings show a vector. -/
def Vec2.text (v : Vec2) : String :=
  let s := Decimal.Style.plain.scalar
  "(" ++ s v.x ++ ", " ++ s v.y ++ ")"

/-- The three components in parentheses, each in the plain style. -/
def Vec3.text (v : Vec3) : String :=
  let s := Decimal.Style.plain.scalar
  "(" ++ s v.x ++ ", " ++ s v.y ++ ", " ++ s v.z ++ ")"

/-- The four components in parentheses, with commas between them. -/
def Vec4.text (v : Vec4) : String :=
  let s := Decimal.Style.plain.scalar
  "(" ++ s v.x ++ ", " ++ s v.y ++ ", " ++ s v.z ++ ", " ++ s v.w ++ ")"

/-- The value as shown to people. Scalars are in the plain style, which never uses an exponent. -/
def Value.text : Value → String
  | .absent => "none"
  | .bool b => if b then "true" else "false"
  | .integer i => toString i.toInt
  | .scalar s => Decimal.Style.plain.scalar s
  | .vector2 v => v.text
  | .vector3 v => v.text
  | .vector4 v => v.text

end NodeGraph
