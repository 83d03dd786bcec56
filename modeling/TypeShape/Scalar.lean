import TypeShape.TypeName

/-!
Scalar kinds: the types that are told by their name alone.

A boxed kind and its plain counterpart are different kinds.  Every kind but the
plain ones has a qualified name and a short one.
-/
namespace TypeShape

inductive Scalar where
  | byte | short | int | long | bigint | float | double | decimal | char
  | string | boolean | object | void
  | boxedByte | boxedShort | boxedInt | boxedLong | boxedFloat | boxedDouble
  | boxedChar | boxedBoolean | boxedVoid
deriving DecidableEq

namespace Scalar

def text : Scalar → String
  | byte => "byte"
  | short => "short"
  | int => "int"
  | long => "long"
  | bigint => "bigint"
  | float => "float"
  | double => "double"
  | decimal => "decimal"
  | char => "char"
  | string => "string"
  | boolean => "boolean"
  | object => "object"
  | void => "void"
  | boxedByte => "boxed_byte"
  | boxedShort => "boxed_short"
  | boxedInt => "boxed_int"
  | boxedLong => "boxed_long"
  | boxedFloat => "boxed_float"
  | boxedDouble => "boxed_double"
  | boxedChar => "boxed_char"
  | boxedBoolean => "boxed_boolean"
  | boxedVoid => "boxed_void"

def named : List (String × Scalar) :=
  [byte, short, int, long, bigint, float, double, decimal, char, string,
   boolean, object, void, boxedByte, boxedShort, boxedInt, boxedLong,
   boxedFloat, boxedDouble, boxedChar, boxedBoolean, boxedVoid].map
    fun kind => (kind.text, kind)

theorem lookup_named (kind : Scalar) : named.lookup kind.text = some kind := by
  cases kind <;> decide

/-- No two kinds have one name. -/
theorem text_injective {a b : Scalar} (h : a.text = b.text) : a = b := by
  have ha := lookup_named a
  rw [h, lookup_named b] at ha
  exact (Option.some.inj ha).symm

/-- The type names that stand for a scalar kind. -/
def typeNames : List (String × Scalar) :=
  [("byte", byte), ("short", short), ("int", int), ("long", long),
   ("float", float), ("double", double), ("char", char), ("boolean", boolean),
   ("void", void), ("java.lang.Byte", boxedByte), ("Byte", boxedByte),
   ("java.lang.Short", boxedShort), ("Short", boxedShort),
   ("java.lang.Integer", boxedInt), ("Integer", boxedInt),
   ("java.lang.Long", boxedLong), ("Long", boxedLong),
   ("java.lang.Float", boxedFloat), ("Float", boxedFloat),
   ("java.lang.Double", boxedDouble), ("Double", boxedDouble),
   ("java.lang.Character", boxedChar), ("Character", boxedChar),
   ("java.lang.Boolean", boxedBoolean), ("Boolean", boxedBoolean),
   ("java.lang.Void", boxedVoid), ("Void", boxedVoid),
   ("java.lang.String", string), ("String", string),
   ("java.lang.Object", object), ("Object", object),
   ("java.math.BigInteger", bigint), ("BigInteger", bigint),
   ("java.math.BigDecimal", decimal), ("BigDecimal", decimal)]

def ofTypeName? (name : String) : Option Scalar :=
  typeNames.lookup name

/-- The kinds that wrap a plain value in an object. -/
def isBoxed : Scalar → Bool
  | boxedByte | boxedShort | boxedInt | boxedLong | boxedFloat | boxedDouble |
      boxedChar
  | boxedBoolean | boxedVoid => true
  | _ => false

/-- The kinds of what returns nothing. -/
def isVoid : Scalar → Bool
  | void | boxedVoid => true
  | _ => false

end Scalar

end TypeShape
