import Mathlib.Data.Finset.Dedup
import Mathlib.Data.Finset.Erase
import Mathlib.Data.Finset.Insert
import TypeShape.Run

/-!
What the steps of a run are made inside of.  The resolution of an expression and
the expansion of a record are frames around all steps between their beginning
and their end.  A guard that is kept in one place through a whole run is changed
where these begin and changed back where they end: it counts the resolutions
that are under way and has the set of the records that are being expanded.
-/
namespace TypeShape

/-- Something that steps are made inside of. -/
inductive Frame where
  /-- The resolution of an expression, which was begun inside this many
  others. -/
  | resolving (expr : TypeExpr) (depth : Nat)
  /-- The expansion of the record with this signature. -/
  | expanding (signature : String)
deriving DecidableEq

namespace Frame

def isResolving : Frame → Bool
  | resolving _ _ => true
  | expanding _ => false

def record? : Frame → Option String
  | resolving _ _ => none
  | expanding signature => some signature

/-- Whether this is a resolution that the limit on the depth lets go on. -/
def isWithin (limit : Nat) : Frame → Bool
  | resolving _ depth => depth < limit
  | expanding _ => false

end Frame

/-- The number of resolutions that are under way. -/
def depthOf (frames : List Frame) : Nat :=
  frames.countP Frame.isResolving

/-- The signatures of the records that are being expanded, the innermost
first. -/
def recordsOf (frames : List Frame) : List String :=
  frames.filterMap Frame.record?

@[simp] theorem depthOf_nil : depthOf [] = 0 := rfl

@[simp] theorem depthOf_resolving (expr : TypeExpr) (depth : Nat)
    (frames : List Frame) :
    depthOf (.resolving expr depth :: frames) = depthOf frames + 1 :=
  List.countP_cons_of_pos rfl

@[simp] theorem depthOf_expanding (signature : String) (frames : List Frame) :
    depthOf (.expanding signature :: frames) = depthOf frames :=
  List.countP_cons_of_neg nofun

@[simp] theorem recordsOf_nil : recordsOf [] = [] := rfl

@[simp] theorem recordsOf_resolving (expr : TypeExpr) (depth : Nat)
    (frames : List Frame) :
    recordsOf (.resolving expr depth :: frames) = recordsOf frames := rfl

@[simp] theorem recordsOf_expanding (signature : String) (frames : List Frame) :
    recordsOf (.expanding signature :: frames) =
      signature :: recordsOf frames :=
  rfl

/-- The frames around the innermost one, if it is this one. -/
def closeFrame? (frame : Frame) : List Frame → Option (List Frame)
  | [] => none
  | innermost :: frames => if innermost = frame then some frames else none

/-- The frames after a step, the innermost first.  A step that ends something is
in its place only where nothing that began later is still under way. -/
def Step.framesAfter? (frames : List Frame) : Step → Option (List Frame)
  | asked _ => some frames
  | enter expr depth _ => some (.resolving expr depth :: frames)
  | leave expr depth _ => closeFrame? (.resolving expr depth) frames
  | expand signature => some (.expanding signature :: frames)
  | expanded signature => closeFrame? (.expanding signature) frames

def framesAfter? (frames : List Frame) (steps : List Step) :
    Option (List Frame) :=
  steps.foldlM Step.framesAfter? frames

@[simp] theorem framesAfter?_nil (frames : List Frame) :
    framesAfter? frames [] = some frames := rfl

theorem framesAfter?_cons (frames : List Frame) (step : Step)
    (steps : List Step) :
    framesAfter? frames (step :: steps) =
      (step.framesAfter? frames).bind (framesAfter? · steps) :=
  rfl

/-- What a program keeps in mind that guards its resolutions. -/
structure Guard where
  /-- The number of resolutions that are under way. -/
  depth : Nat := 0
  /-- The signatures of the records that are being expanded. -/
  expanding : Finset String := ∅
deriving DecidableEq

namespace Guard

/-- The guard after a step.  What a step ends is taken out again whether or not
it was in before, so nothing but the order of the steps sees to it that the
guard comes back to what it was. -/
def after (guard : Guard) : Step → Guard
  | .asked _ => guard
  | .enter _ _ _ => { guard with depth := guard.depth + 1 }
  | .leave _ _ _ => { guard with depth := guard.depth - 1 }
  | .expand signature =>
      { guard with expanding := insert signature guard.expanding }
  | .expanded signature =>
      { guard with expanding := guard.expanding.erase signature }

def afterAll (guard : Guard) (steps : List Step) : Guard :=
  steps.foldl after guard

/-- The guard that tells exactly what is around. -/
def around (frames : List Frame) : Guard where
  depth := depthOf frames
  expanding := (recordsOf frames).toFinset

end Guard

end TypeShape
