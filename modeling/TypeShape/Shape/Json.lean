import TypeShape.Shape
import TypeShape.Text.Literal

/-!
The written form of shapes: compact JSON in which every shape is an object of
its kind and what it is made of.
-/
namespace TypeShape

/-- The object that every shape is written as. -/
def writtenAs (kind : String) (content : List Char) : List Char :=
  "\x7b\"kind\":\"".toList ++ kind.toList ++ "\",\"of\":".toList ++ content ++
    ['}']

def writtenStrings (strings : List String) : List Char :=
  Text.bracketed (strings.map Text.literal)

def Leaf.writtenContent : Leaf → List Char
  | .scalar kind => Text.literal kind.text
  | .enumeration constants => writtenStrings constants
  | .custom type => Text.literal type.signature
  | .unknown type => Text.literal type.signature

namespace Shape

mutual

def written : Shape → List Char
  | leaf content => writtenAs content.kindText content.writtenContent
  | sequence kind element => writtenAs kind.text element.written
  | mapping key value =>
    writtenAs "map" ("\x7b\"key\":".toList ++ key.written ++
      ",\"value\":".toList ++ value.written ++ ['}'])
  | record fields => writtenAs "complex" ('{' :: writtenFields fields ++ ['}'])

/-- The fields of a record in order, separated by commas. -/
def writtenFields : List (String × Shape) → List Char
  | [] => []
  | (name, shape) :: rest =>
      Text.literal name ++ ':' :: shape.written ++ writtenRest rest

def writtenRest : List (String × Shape) → List Char
  | [] => []
  | (name, shape) :: rest =>
      ',' :: Text.literal name ++ ':' :: shape.written ++ writtenRest rest

end

def json (shape : Shape) : String :=
  String.ofList shape.written

end Shape

end TypeShape
