import TypeShape.Accessor
import TypeShape.Registry
import TypeShape.Run
import TypeShape.Shape
import TypeShape.TypeExpr.Reading

/-!
The resolver: from type expressions to shapes.

An expression is resolved by the first of these that applies: an array by its
element type; a scalar by its name; a registered name as a custom leaf; and then
by what the provider says about the name.  A name that it does not know is
treated as the settings say, an enumeration is a leaf, a collection and a
mapping are resolved by their parameters, and a record by its fields, in which
the parameters replace the type variables.

Every resolution inside another lies one level deeper, and below the level that
the settings allow nothing is looked at.  A record that is met again inside its
own expansion is refused at once, for it would come back for ever.
-/
namespace TypeShape

structure Resolver where
  provider : Provider
  settings : Settings := {}
  registry : Registry := .empty
  /-- Whether a record inside itself is refused.  Without that only the depth is
  bounded. -/
  refusesCycles : Bool := true

inductive Request where
  | expr (expr : TypeExpr)
  | signature (text : String)
  /-- Several named expressions, as one record. -/
  | roots (roots : List (String × TypeExpr))

namespace Resolver

variable (resolver : Resolver)

def resolveUnknown (expr : TypeExpr) : Run Shape :=
  match resolver.settings.unknown with
  | .reject => .fail (.unknownType expr.name.text)
  | .asCustom => pure (.leaf (.custom expr))
  | .asUnknown => pure (.leaf (.unknown expr))

def addField (below : TypeExpr → Run Shape) (bindings : Bindings)
    (fields : Table Shape) (source : FieldSource) : Run (Table Shape) := do
  let expr ← .ofExcept
    ((TypeExpr.ofSignatureWith bindings source.type).mapError .badExpr)
  let shape ← below expr
  pure (fields.put source.name shape)

/-- The fields of a record: those it declares, then those that its methods stand
for. -/
def expandFields (below : TypeExpr → Run Shape) (expr : TypeExpr) :
    Run (Table Shape) := do
  let name := expr.name.text
  let typeVars ← .askOrFail (.typeVars name) (resolver.provider.typeVars name)
  let bindings := Bindings.zip typeVars expr.params
  let declared ← .askOrFail (.fields name) (resolver.provider.fields name)
  let fields ← (declared.map FieldDecl.source).foldlM (addField below bindings)
    .empty
  if resolver.settings.extraction = .declaredOnly then
    pure fields
  else
    let methods ← .askOrFail (.methods name) (resolver.provider.methods name)
    (resolver.settings.extraction.sources methods).foldlM
      (addField below bindings) fields

def resolveRecord (below : List String → TypeExpr → Run Shape)
    (enclosing : List String) (expr : TypeExpr) : Run Shape :=
  if resolver.refusesCycles = true ∧ expr.signature ∈ enclosing then
    .fail (.cyclic expr.signature)
  else do
    let fields ← Run.between (.expand expr.signature) (.expanded expr.signature)
      (resolver.expandFields (below (expr.signature :: enclosing)) expr)
    pure (.record fields.entries)

def resolveCategory (below : List String → TypeExpr → Run Shape)
    (enclosing : List String) (expr : TypeExpr) : Option Category → Run Shape
  | none => resolver.resolveUnknown expr
  | some (.enumeration constants) => pure (.leaf (.enumeration constants))
  | some .collection => do
    let element ← below enclosing (expr.paramOrObject 0)
    pure (.sequence .collection element)
  | some .mapping => do
    let key ← below enclosing (expr.paramOrObject 0)
    let value ← below enclosing (expr.paramOrObject 1)
    pure (.mapping key value)
  | some .record => resolver.resolveRecord below enclosing expr

def resolveName (below : List String → TypeExpr → Run Shape)
    (enclosing : List String) (expr : TypeExpr) : Run Shape := do
  let name := expr.name.text
  match ← Run.ask (.scalar name) (resolver.provider.scalar name) with
  | some kind => pure (.leaf (.scalar kind))
  | none =>
    if resolver.registry.contains name then
      pure (.leaf (.custom expr))
    else
      let category ← .askOrFail (.category name)
        (resolver.provider.category name)
      resolver.resolveCategory below enclosing expr category

/-- One level of resolution: `below` resolves what lies one level deeper inside
the records whose signatures it is given. -/
def resolveLevel (below : List String → TypeExpr → Run Shape)
    (enclosing : List String) (expr : TypeExpr) : Run Shape :=
  match expr.element? with
  | some element => do
    let shape ← below enclosing element
    pure (.sequence .array shape)
  | none => resolver.resolveName below enclosing expr

/-- Resolves an expression with a number of levels left, inside the records with
the given signatures. -/
def resolveWithin : Nat → List String → TypeExpr → Run Shape
  | 0, enclosing, expr =>
    let depth := resolver.settings.maxDepth
    Run.between (.enter expr depth enclosing) (.leave expr depth enclosing)
      (.fail (.tooDeep resolver.settings.maxDepth expr.signature))
  | left + 1, enclosing, expr =>
    let depth := resolver.settings.maxDepth - (left + 1)
    Run.between (.enter expr depth enclosing) (.leave expr depth enclosing)
      (resolver.resolveLevel (resolveWithin left) enclosing expr)

def resolve (expr : TypeExpr) : Run Shape :=
  resolver.resolveWithin resolver.settings.maxDepth [] expr

def resolveSignature (text : String) : Run Shape := do
  let expr ← .ofExcept ((TypeExpr.ofSignature text).mapError .badExpr)
  resolver.resolve expr

/-- The fields that a named shape contributes to a record: a record's own
fields, or one field of that name. -/
def contribution (name : String) : Shape → List (String × Shape)
  | .record fields => fields
  | shape => [(name, shape)]

def addRoot (fields : Table Shape) (root : String × TypeExpr) :
    Run (Table Shape) := do
  let shape ← resolver.resolve root.2
  pure (fields.putAll (contribution root.1 shape))

/-- Resolves several named expressions, one after another, as one record. -/
def resolveRoots (roots : List (String × TypeExpr)) : Run Shape := do
  let fields ← roots.foldlM resolver.addRoot .empty
  pure (.record fields.entries)

def run : Request → Run Shape
  | .expr expr => resolver.resolve expr
  | .signature text => resolver.resolveSignature text
  | .roots roots => resolver.resolveRoots roots

end Resolver

end TypeShape
