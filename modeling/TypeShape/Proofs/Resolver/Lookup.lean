import TypeShape.Proofs.Resolver.Invariant

/-!
Looking a name up.  An expression that is no array is told by its name: the name
is a scalar's, or registered, or the provider fails to give its category, or it
finds the category.  In each case the questions that are asked are known, and so
is what becomes of them.
-/
namespace TypeShape

namespace Resolver

variable (resolver : Resolver) (below : List String → TypeExpr → Run Shape)
  (enclosing : List String) {expr : TypeExpr}

/-- The run that looks a name up as far as its category and finds it. -/
def categoryFound (name : String) : Run Unit :=
  ⟨[.asked (.scalar name), .asked (.category name)], .ok ()⟩

theorem resolveName_of_scalar {kind : Scalar}
    (hscalar : resolver.provider.scalar expr.name.text = some kind) :
    resolver.resolveName below enclosing expr =
      ⟨[.asked (.scalar expr.name.text)], .ok (.leaf (.scalar kind))⟩ := by
  unfold resolveName
  rw [Run.bind_of_ok (a := some kind) (congrArg Except.ok hscalar)]
  rfl

theorem resolveName_of_registered
    (hscalar : resolver.provider.scalar expr.name.text = none)
    (hregistry : resolver.registry.contains expr.name.text = true) :
    resolver.resolveName below enclosing expr =
      ⟨[.asked (.scalar expr.name.text)], .ok (.leaf (.custom expr))⟩ := by
  unfold resolveName
  rw [Run.bind_of_ok (a := none) (congrArg Except.ok hscalar)]
  simp only [hregistry, if_true]
  rfl

theorem resolveName_of_lookupFailed
    (hscalar : resolver.provider.scalar expr.name.text = none)
    (hregistry : resolver.registry.contains expr.name.text = false)
    {reason : String}
    (hcategory : resolver.provider.category expr.name.text = .error reason) :
    resolver.resolveName below enclosing expr =
      ⟨[.asked (.scalar expr.name.text), .asked (.category expr.name.text)],
        .error (.lookupFailed expr.name.text reason)⟩ := by
  unfold resolveName
  rw [Run.bind_of_ok (a := none) (congrArg Except.ok hscalar)]
  simp only [hregistry, Bool.false_eq_true, if_false]
  rw [Run.bind_of_error (by rw [hcategory]; rfl)]
  rfl

theorem resolveName_of_finds {category : Option Category}
    (hfinds : resolver.Finds expr category) :
    resolver.resolveName below enclosing expr =
      categoryFound expr.name.text >>= fun _ =>
        resolver.resolveCategory below enclosing expr category := by
  unfold resolveName
  rw [Run.bind_of_ok (a := none) (congrArg Except.ok hfinds.scalar)]
  simp only [hfinds.registry, Bool.false_eq_true, if_false]
  rw [Run.bind_of_ok (a := category) (by rw [hfinds.category]; rfl),
    Run.bind_of_ok (a := ()) rfl]
  rfl

/-- What the name of an expression that is no array may be looked up as. -/
theorem lookup_cases (helement : expr.element? = none) :
    (∃ kind, resolver.provider.scalar expr.name.text = some kind) ∨
    (resolver.provider.scalar expr.name.text = none ∧
      resolver.registry.contains expr.name.text = true) ∨
    (resolver.provider.scalar expr.name.text = none ∧
      resolver.registry.contains expr.name.text = false ∧
      ∃ reason, resolver.provider.category expr.name.text = .error reason) ∨
    ∃ category, resolver.Finds expr category := by
  cases hscalar : resolver.provider.scalar expr.name.text with
  | some kind => exact Or.inl ⟨kind, rfl⟩
  | none =>
      cases hregistry : resolver.registry.contains expr.name.text with
      | true => exact Or.inr (Or.inl ⟨rfl, rfl⟩)
      | false =>
          cases hcategory : resolver.provider.category expr.name.text with
          | error reason =>
              exact Or.inr (Or.inr (Or.inl ⟨rfl, rfl, reason, rfl⟩))
          | ok category =>
              exact Or.inr (Or.inr
                (Or.inr ⟨category, helement, hscalar, hregistry, hcategory⟩))

end Resolver

end TypeShape
