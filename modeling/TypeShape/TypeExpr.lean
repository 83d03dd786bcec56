import TypeShape.TypeName
import TypeShape.Text.Quoted

/-!
Type expressions: a name, type parameters in order, and a number of array
dimensions.

Each expression has one canonical text, its signature: the name, the parameters
between angle brackets and separated by a comma and a blank, then a pair of
square brackets for each dimension.
-/
namespace TypeShape

/-- A type with its parameters, as often an array of it as `dim` says. -/
structure TypeExpr where
  name : TypeName
  params : List TypeExpr
  dim : Nat

namespace TypeExpr

inductive Fault where
  | invalidName (text : String)
  | negativeDimension (dim : Int)
deriving DecidableEq

def Fault.message : Fault → String
  | .invalidName text =>
    "invalid type name " ++ Text.quoted text ++
      ": must be non-empty and contain no whitespace or any of `<>[]`"
  | .negativeDimension dim =>
    "array dimension must not be negative (got " ++ toString dim ++ ")"

mutual

def decEq : (a b : TypeExpr) → Decidable (a = b)
  | ⟨name, params, dim⟩, ⟨name', params', dim'⟩ =>
    if hname : name = name' then
      if hdim : dim = dim' then
        match decEqAll params params' with
        | isTrue hparams => isTrue (by rw [hname, hdim, hparams])
        | isFalse hparams => isFalse (fun h => hparams (TypeExpr.mk.inj h).2.1)
      else isFalse (fun h => hdim (TypeExpr.mk.inj h).2.2)
    else isFalse (fun h => hname (TypeExpr.mk.inj h).1)

def decEqAll : (as bs : List TypeExpr) → Decidable (as = bs)
  | [], [] => isTrue rfl
  | [], _ :: _ => isFalse nofun
  | _ :: _, [] => isFalse nofun
  | a :: as, b :: bs =>
    match decEq a b, decEqAll as bs with
    | isTrue ha, isTrue has => isTrue (by rw [ha, has])
    | isFalse ha, _ => isFalse (fun h => ha (List.cons.inj h).1)
    | _, isFalse has => isFalse (fun h => has (List.cons.inj h).2)

end

instance : DecidableEq TypeExpr := decEq

def dimBrackets : Nat → List Char
  | 0 => []
  | dim + 1 => '[' :: ']' :: dimBrackets dim

mutual

/-- The characters of the canonical text, followed by others. -/
def renderOnto : TypeExpr → List Char → List Char
  | ⟨name, params, dim⟩, tail =>
    name.chars ++ renderParamsOnto params (dimBrackets dim ++ tail)

/-- The parameter list, nothing at all if there are no parameters, followed by
other characters. -/
def renderParamsOnto : List TypeExpr → List Char → List Char
  | [], tail => tail
  | first :: rest, tail => '<' :: first.renderOnto (renderRestOnto rest tail)

def renderRestOnto : List TypeExpr → List Char → List Char
  | [], tail => '>' :: tail
  | next :: rest, tail =>
      ',' :: ' ' :: next.renderOnto (renderRestOnto rest tail)

end

def render (e : TypeExpr) : List Char :=
  e.renderOnto []

def renderParams (params : List TypeExpr) : List Char :=
  renderParamsOnto params []

def renderRest (params : List TypeExpr) : List Char :=
  renderRestOnto params []

mutual

theorem renderOnto_eq (e : TypeExpr) (tail : List Char) :
    e.renderOnto tail = e.render ++ tail := by
  obtain ⟨name, params, dim⟩ := e
  simp only [render, renderOnto]
  rw [renderParamsOnto_eq params (dimBrackets dim ++ tail),
    renderParamsOnto_eq params (dimBrackets dim ++ [])]
  simp

theorem renderParamsOnto_eq (params : List TypeExpr) (tail : List Char) :
    renderParamsOnto params tail = renderParams params ++ tail := by
  match params with
  | [] => rfl
  | first :: rest =>
    simp only [renderParams, renderParamsOnto]
    rw [renderOnto_eq first (renderRestOnto rest tail),
      renderOnto_eq first (renderRestOnto rest []), renderRestOnto_eq rest tail]
    simp [renderRest]

theorem renderRestOnto_eq (params : List TypeExpr) (tail : List Char) :
    renderRestOnto params tail = renderRest params ++ tail := by
  match params with
  | [] => rfl
  | next :: rest =>
    simp only [renderRest, renderRestOnto]
    rw [renderOnto_eq next (renderRestOnto rest tail),
      renderOnto_eq next (renderRestOnto rest []), renderRestOnto_eq rest tail]
    simp [renderRest]

end

theorem render_mk (name : TypeName) (params : List TypeExpr) (dim : Nat) :
    render ⟨name, params, dim⟩ =
      name.chars ++ renderParams params ++ dimBrackets dim := by
  simp [render, renderOnto, renderParamsOnto_eq]

@[simp] theorem renderParams_nil : renderParams [] = [] := rfl

theorem renderParams_cons (first : TypeExpr) (rest : List TypeExpr) :
    renderParams (first :: rest) = '<' :: first.render ++ renderRest rest := by
  exact congrArg ('<' :: ·) (renderOnto_eq first (renderRest rest))

@[simp] theorem renderRest_nil : renderRest [] = ['>'] := rfl

theorem renderRest_cons (next : TypeExpr) (rest : List TypeExpr) :
    renderRest (next :: rest) =
      ',' :: ' ' :: next.render ++ renderRest rest := by
  exact congrArg (',' :: ' ' :: ·) (renderOnto_eq next (renderRest rest))

/-- The canonical text. -/
def signature (e : TypeExpr) : String :=
  String.ofList e.render

mutual

/-- The expression and, at all depths, its parameters, each before its own
parameters. -/
def preorder : TypeExpr → List TypeExpr
  | ⟨name, params, dim⟩ => ⟨name, params, dim⟩ :: preorderAll params

def preorderAll : List TypeExpr → List TypeExpr
  | [] => []
  | first :: rest => first.preorder ++ preorderAll rest

end

def isArray (e : TypeExpr) : Bool :=
  0 < e.dim

/-- The type of an array's elements: one dimension less. -/
def element? (e : TypeExpr) : Option TypeExpr :=
  match e.dim with
  | 0 => none
  | dim + 1 => some { e with dim := dim }

/-- The element type has a dimension less, so taking elements comes to an
end. -/
theorem dim_of_element? {e element : TypeExpr} (h : e.element? = some element) :
    element.dim + 1 = e.dim := by
  unfold element? at h
  split at h
  · cases h
  · next dim hdim =>
    cases h
    exact hdim.symm

theorem element?_eq_none_iff {e : TypeExpr} :
    e.element? = none ↔ e.dim = 0 := by
  unfold element?
  split
  · next hdim => simp [hdim]
  · next dim hdim => simp [hdim]

theorem params_of_element? {e element : TypeExpr}
    (h : e.element? = some element) : element.params = e.params := by
  unfold element? at h
  split at h
  · cases h
  · cases h
    rfl

/-- The expression followed by its element type, that one's element type, and so
on to the last. -/
def elements (e : TypeExpr) : List TypeExpr :=
  match _helement : e.element? with
  | none => [e]
  | some element => e :: elements element
termination_by e.dim
decreasing_by
  have := dim_of_element? (by assumption)
  omega

/-- An expression from parts that are sound but for the text of the name. -/
def ofText (name : String) (params : List TypeExpr) (dim : Nat) :
    Except Fault TypeExpr :=
  match TypeName.ofText? name with
  | some name => .ok ⟨name, params, dim⟩
  | none => .error (.invalidName name)

/-- An expression from its parts.  The dimension is looked at before the
name. -/
def ofParts (name : String) (params : List TypeExpr) (dim : Int) :
    Except Fault TypeExpr :=
  match dim with
  | .ofNat dim => ofText name params dim
  | .negSucc _ => .error (.negativeDimension dim)

def named (name : String) : Except Fault TypeExpr :=
  ofText name [] 0

def object : TypeExpr :=
  ⟨.object, [], 0⟩

/-- A parameter by its position; the most general type stands in for one that is
missing. -/
def paramOrObject (e : TypeExpr) (index : Nat) : TypeExpr :=
  e.params[index]?.getD object

end TypeExpr

end TypeShape
