import TypeShape.Proofs.Run.Comparison
import TypeShape.Shape
import TypeShape.Table

/-!
Items that are resolved one after another, each of which contributes entries to
one table.  The fields of a record come together in this way, and so do several
roots.  All items have to be resolved, and the first that cannot be decides how
the whole fails, whatever the others contribute.
-/
namespace TypeShape

variable {ι : Type}

theorem exists_shape_of_resolved {items : List ι}
    {outcome : ι → Except ResolveFault Shape}
    (h : ∀ item ∈ items, ∃ shape, outcome item = .ok shape) :
    ∃ shape : ι → Shape, ∀ item ∈ items, outcome item = .ok (shape item) := by
  refine ⟨fun item => (outcome item).toOption.getD (.record []), ?_⟩
  intro item hitem
  obtain ⟨shape, hshape⟩ := h item hitem
  simp only [hshape, Except.toOption, Option.getD_some]

theorem resolved_or_fault (outcome : ι → Except ResolveFault Shape)
    (items : List ι) :
    (∀ item ∈ items, ∃ shape, outcome item = .ok shape) ∨
    ∃ before item after fault, items = before ++ item :: after ∧
      (∀ earlier ∈ before, ∃ shape, outcome earlier = .ok shape) ∧
      outcome item = .error fault := by
  induction items with
  | nil => exact Or.inl (List.forall_mem_nil _)
  | cons item rest ih =>
      cases hitem : outcome item with
      | error fault =>
          exact Or.inr
            ⟨[], item, rest, fault, rfl, List.forall_mem_nil _, hitem⟩
      | ok shape =>
          rcases ih with
            hall | ⟨before, other, after, fault, rfl, hbefore, hfault⟩
          · exact Or.inl (List.forall_mem_cons.2 ⟨⟨shape, hitem⟩, hall⟩)
          · exact Or.inr ⟨item :: before, other, after, fault, rfl,
              List.forall_mem_cons.2 ⟨⟨shape, hitem⟩, hbefore⟩, hfault⟩

namespace Run

variable {resolve : ι → Run Shape}
  {contribute : ι → Shape → List (String × Shape)}

/-- Resolves an item and puts what it contributes into a table. -/
def gather (resolve : ι → Run Shape)
    (contribute : ι → Shape → List (String × Shape)) (table : Table Shape)
    (item : ι) : Run (Table Shape) := do
  let shape ← resolve item
  pure (table.putAll (contribute item shape))

/-- Items that can all be resolved contribute their entries one after
another. -/
theorem gatherAll_of_resolved {items : List ι} {shape : ι → Shape}
    (h : ∀ item ∈ items, (resolve item).outcome = .ok (shape item))
    (start : Table Shape) :
    (items.foldlM (gather resolve contribute) start).outcome = .ok (start.putAll
      (items.flatMap fun item => contribute item (shape item))) := by
  induction items generalizing start with
  | nil => rfl
  | cons item rest ih =>
      obtain ⟨hitem, hrest⟩ := List.forall_mem_cons.1 h
      have hgathered : (gather resolve contribute start item).outcome =
          .ok (start.putAll (contribute item (shape item))) := by
        rw [gather, bind_of_ok hitem]
        rfl
      rw [List.foldlM_cons, bind_of_ok hgathered, ih hrest, List.flatMap_cons,
        Table.putAll_append]

/-- The first item that cannot be resolved decides, whatever comes after it. -/
theorem gatherAll_of_fault {before after : List ι} {item : ι}
    {fault : ResolveFault}
    (hbefore : ∀ earlier ∈ before,
      ∃ shape, (resolve earlier).outcome = .ok shape)
    (hfault : (resolve item).outcome = .error fault) (start : Table Shape) :
    ((before ++ item :: after).foldlM (gather resolve contribute)
      start).outcome = .error fault := by
  obtain ⟨shape, hshape⟩ := exists_shape_of_resolved hbefore
  rw [List.foldlM_append, bind_of_ok (gatherAll_of_resolved hshape start),
    List.foldlM_cons, gather, bind_of_error hfault]
  rfl

theorem resolved_of_gatherAll {items : List ι} {start table : Table Shape}
    (h : (items.foldlM (gather resolve contribute) start).outcome = .ok table) :
    ∀ item ∈ items, ∃ shape, (resolve item).outcome = .ok shape := by
  rcases resolved_or_fault (fun item => (resolve item).outcome) items with
    hall | ⟨before, item, after, fault, rfl, hbefore, hfault⟩
  · exact hall
  · cases (gatherAll_of_fault hbefore hfault start).symm.trans h

end Run

end TypeShape
