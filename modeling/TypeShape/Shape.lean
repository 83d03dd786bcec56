import TypeShape.Scalar
import TypeShape.TypeExpr

/-!
Shapes: what a type expression is made of, all the way down to its leaves.

Two shapes are alike when they differ at most in the order of record fields, at
any depth.
-/
namespace TypeShape

inductive SequenceKind where
  | array
  | collection
deriving DecidableEq

def SequenceKind.text : SequenceKind → String
  | .array => "array"
  | .collection => "collection"

inductive Leaf where
  | scalar (kind : Scalar)
  | enumeration (constants : List String)
  /-- A type that is kept as it is and not looked into. -/
  | custom (type : TypeExpr)
  | unknown (type : TypeExpr)
deriving DecidableEq

def Leaf.kindText : Leaf → String
  | .scalar _ => "simple"
  | .enumeration _ => "enum"
  | .custom _ => "custom"
  | .unknown _ => "unknown"

inductive Shape where
  | leaf (leaf : Leaf)
  | sequence (kind : SequenceKind) (element : Shape)
  | mapping (key value : Shape)
  /-- The fields stand in the order in which their names were first met. -/
  | record (fields : List (String × Shape))

namespace Shape

def kindText : Shape → String
  | leaf content => content.kindText
  | sequence kind _ => kind.text
  | mapping _ _ => "map"
  | record _ => "complex"

/-- Whether there is nothing to descend into. -/
def isLeaf : Shape → Bool
  | leaf _ => true
  | _ => false

def fieldNames? : Shape → Option (List String)
  | record fields => some (fields.map Prod.fst)
  | _ => none

mutual

def decEq : (a b : Shape) → Decidable (a = b)
  | leaf a, leaf b =>
    if h : a = b then isTrue (by rw [h])
      else isFalse (fun h' => h (Shape.leaf.inj h'))
  | sequence kind a, sequence kind' b =>
    if hkind : kind = kind' then
      match decEq a b with
      | isTrue h => isTrue (by rw [hkind, h])
      | isFalse h => isFalse (fun h' => h (Shape.sequence.inj h').2)
    else isFalse (fun h' => hkind (Shape.sequence.inj h').1)
  | mapping key value, mapping key' value' =>
    match decEq key key', decEq value value' with
    | isTrue hkey, isTrue hvalue => isTrue (by rw [hkey, hvalue])
    | isFalse hkey, _ => isFalse (fun h' => hkey (Shape.mapping.inj h').1)
    | _, isFalse hvalue => isFalse (fun h' => hvalue (Shape.mapping.inj h').2)
  | record fields, record fields' =>
    match decEqFields fields fields' with
    | isTrue h => isTrue (by rw [h])
    | isFalse h => isFalse (fun h' => h (Shape.record.inj h'))
  | leaf _, sequence _ _ => isFalse nofun
  | leaf _, mapping _ _ => isFalse nofun
  | leaf _, record _ => isFalse nofun
  | sequence _ _, leaf _ => isFalse nofun
  | sequence _ _, mapping _ _ => isFalse nofun
  | sequence _ _, record _ => isFalse nofun
  | mapping _ _, leaf _ => isFalse nofun
  | mapping _ _, sequence _ _ => isFalse nofun
  | mapping _ _, record _ => isFalse nofun
  | record _, leaf _ => isFalse nofun
  | record _, sequence _ _ => isFalse nofun
  | record _, mapping _ _ => isFalse nofun

def decEqFields : (as bs : List (String × Shape)) → Decidable (as = bs)
  | [], [] => isTrue rfl
  | [], _ :: _ => isFalse nofun
  | _ :: _, [] => isFalse nofun
  | (name, a) :: as, (name', b) :: bs =>
    if hname : name = name' then
      match decEq a b, decEqFields as bs with
      | isTrue ha, isTrue has => isTrue (by rw [hname, ha, has])
      | isFalse ha, _ =>
          isFalse (fun h => ha (Prod.mk.inj (List.cons.inj h).1).2)
      | _, isFalse has => isFalse (fun h => has (List.cons.inj h).2)
    else isFalse (fun h => hname (Prod.mk.inj (List.cons.inj h).1).1)

end

instance : DecidableEq Shape := decEq

mutual

/-- Equality up to the order of record fields. -/
def alike : Shape → Shape → Bool
  | leaf a, leaf b => a == b
  | sequence kind a, sequence kind' b => kind == kind' && alike a b
  | mapping key value, mapping key' value' =>
      alike key key' && alike value value'
  | record fields, record fields' =>
    fields.length == fields'.length && alikeFields fields fields'
  | _, _ => false

/-- Whether each of the fields has one of the same name in the other record that
is alike. -/
def alikeFields : List (String × Shape) → List (String × Shape) → Bool
  | [], _ => true
  | (name, shape) :: rest, fields' =>
    (match fields'.lookup name with
      | some shape' => alike shape shape'
      | none => false) && alikeFields rest fields'

end

mutual

/-- The number of shapes on the longest way from a shape down to a leaf or an
empty record. -/
def height : Shape → Nat
  | leaf _ => 1
  | sequence _ element => element.height + 1
  | mapping key value => max key.height value.height + 1
  | record fields => heightOfFields fields + 1

def heightOfFields : List (String × Shape) → Nat
  | [] => 0
  | (_, shape) :: rest => max shape.height (heightOfFields rest)

end

mutual

/-- The leaves of a shape at all depths, in the order in which they stand. -/
def leaves : Shape → List Leaf
  | leaf content => [content]
  | sequence _ element => element.leaves
  | mapping key value => key.leaves ++ value.leaves
  | record fields => leavesOfFields fields

def leavesOfFields : List (String × Shape) → List Leaf
  | [] => []
  | (_, shape) :: rest => shape.leaves ++ leavesOfFields rest

end

theorem mem_leavesOfFields {content : Leaf} {fields : List (String × Shape)} :
    content ∈ leavesOfFields fields ↔
      ∃ field ∈ fields, content ∈ field.2.leaves := by
  induction fields with
  | nil => simp [leavesOfFields]
  | cons field rest ih => simp [leavesOfFields, ih]

end Shape

end TypeShape
