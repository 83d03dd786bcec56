import Mathlib
import TypeShape.Proofs.Resolver.Invariant
import TypeShape.Proofs.Run.Gathering
import TypeShape.Proofs.Shape.Alike

/-!
Several roots as one record.  Each root is resolved as if it were alone, so the
whole fails as the first root that fails and succeeds if none does.  What the
roots contribute is put together in their order, whatever the roots are called.
For roots that contribute different names the order shows only in the order of
the fields.
-/
namespace TypeShape

namespace Resolver

/-- The fields that a root contributes, if it can be resolved. -/
def rootFields (resolver : Resolver) (root : String × TypeExpr) :
    List (String × Shape) :=
  match (resolver.resolve root.2).outcome with
  | .ok shape => contribution root.1 shape
  | .error _ => []

def Resolves (resolver : Resolver) (root : String × TypeExpr) : Prop :=
  ∃ shape, (resolver.resolve root.2).outcome = .ok shape

/-- Roots are resolved each by itself and put together in their order. -/
structure GathersRoots (resolver : Resolver) : Prop where
  /-- There is a record of the roots just if there is a shape of each. -/
  succeeds : ∀ roots,
    (∃ shape, (resolver.resolveRoots roots).outcome = .ok shape) ↔
      ∀ root ∈ roots, resolver.Resolves root
  /-- The first root that cannot be resolved decides how the whole fails. -/
  fails : ∀ roots fault, (resolver.resolveRoots roots).outcome = .error fault ↔
    ∃ before root after, roots = before ++ root :: after ∧
      (∀ earlier ∈ before, resolver.Resolves earlier) ∧
      (resolver.resolve root.2).outcome = .error fault
  /-- A name stands where it was contributed first, with what was contributed
  last. -/
  gathers : ∀ roots shape, (resolver.resolveRoots roots).outcome = .ok shape →
    ∃ fields, shape = .record fields ∧
      entryNames fields =
        (entryNames (roots.flatMap resolver.rootFields)).eraseDups ∧
      ∀ before name last after,
        roots.flatMap resolver.rootFields = before ++ (name, last) :: after →
        name ∉ entryNames after → fields.lookup name = some last
  /-- The fields of more roots extend those of the roots before them. -/
  append : ∀ roots roots' fields fields',
    (resolver.resolveRoots roots).outcome = .ok (.record fields) →
    (resolver.resolveRoots roots').outcome = .ok (.record fields') →
    (resolver.resolveRoots (roots ++ roots')).outcome =
      .ok (.record ((Table.ofList fields).putAll fields').entries)
  /-- The order of roots that contribute different names makes no difference. -/
  permuted : ∀ roots roots' shape, roots.Perm roots' →
    roots.Pairwise (fun root root' =>
      (entryNames (resolver.rootFields root)).Disjoint
        (entryNames (resolver.rootFields root'))) →
    (resolver.resolveRoots roots).outcome = .ok shape →
    ∃ shape', (resolver.resolveRoots roots').outcome = .ok shape' ∧
      shape.alike shape' = true

variable {resolver : Resolver} {roots roots' : List (String × TypeExpr)}

/-! ### Gathering -/

theorem addRoot_eq_gather :
    resolver.addRoot =
      Run.gather (fun root : String × TypeExpr => resolver.resolve root.2)
        fun root shape => contribution root.1 shape :=
  rfl

theorem outcome_resolveRoots (roots : List (String × TypeExpr)) :
    (resolver.resolveRoots roots).outcome =
      (roots.foldlM resolver.addRoot .empty).outcome.map
        fun fields => .record fields.entries :=
  Run.outcome_bind_pure _ _

theorem rootFields_of_ok {root : String × TypeExpr} {shape : Shape}
    (h : (resolver.resolve root.2).outcome = .ok shape) :
    resolver.rootFields root = contribution root.1 shape := by
  rw [rootFields, h]

/-- Roots that can all be resolved are one record of all that they
contribute. -/
theorem resolveRoots_of_resolves (h : ∀ root ∈ roots, resolver.Resolves root) :
    (resolver.resolveRoots roots).outcome = .ok
      (.record (Table.ofList (roots.flatMap resolver.rootFields)).entries) := by
  obtain ⟨shape, hshape⟩ := exists_shape_of_resolved h
  have hfields : roots.flatMap (fun root => contribution root.1 (shape root)) =
      roots.flatMap resolver.rootFields :=
    List.flatMap_congr
      fun root hroot => (rootFields_of_ok (hshape root hroot)).symm
  rw [outcome_resolveRoots, addRoot_eq_gather, Run.gatherAll_of_resolved hshape,
    hfields]
  rfl

theorem resolveRoots_of_fault {before after : List (String × TypeExpr)}
    {root : String × TypeExpr} {fault : ResolveFault}
    (hbefore : ∀ earlier ∈ before, resolver.Resolves earlier)
    (hfault : (resolver.resolve root.2).outcome = .error fault) :
    (resolver.resolveRoots (before ++ root :: after)).outcome =
      .error fault := by
  rw [outcome_resolveRoots, addRoot_eq_gather,
    Run.gatherAll_of_fault hbefore hfault]
  rfl

theorem resolves_of_resolveRoots {shape : Shape}
    (h : (resolver.resolveRoots roots).outcome = .ok shape) :
    ∀ root ∈ roots, resolver.Resolves root := by
  rw [outcome_resolveRoots, addRoot_eq_gather] at h
  cases hfields :
    (roots.foldlM (Run.gather (fun root => resolver.resolve root.2)
      fun root shape => contribution root.1 shape) Table.empty).outcome with
  | error fault =>
      rw [hfields] at h
      cases h
  | ok fields => exact Run.resolved_of_gatherAll hfields

theorem eq_record_of_resolveRoots {shape : Shape}
    (h : (resolver.resolveRoots roots).outcome = .ok shape) :
    shape =
      .record (Table.ofList (roots.flatMap resolver.rootFields)).entries :=
  Except.ok.inj
    (h.symm.trans (resolveRoots_of_resolves (resolves_of_resolveRoots h)))

/-! ### The order of the roots -/

variable (resolver) in
/-- No shape that is found has two fields of one name, at any depth. -/
theorem invariant_wellNamed :
    resolver.Invariant anyTerms (fun _ _ _ => True)
      (fun _ shape => shape.WellNamed) where
  liberal := liberal_anyTerms
  enter _ _ := trivial
  leave _ _ := trivial
  tooDeep _ := trivial
  cyclic _ _ _ := trivial
  part _ _ := trivial
  field _ _ _ := trivial
  leaf _ _ := .leaf _
  sequence kind helement := .sequence kind helement
  mapping hkey hvalue := .mapping hkey hvalue
  record {_ fields} hfields := .record fields.distinct hfields

theorem wellNamed_of_resolve {expr : TypeExpr} {shape : Shape}
    (h : (resolver.resolve expr).outcome = .ok shape) : shape.WellNamed :=
  (resolver.invariant_wellNamed.resolve trivial).value shape h

theorem wellNamed_rootFields (root : String × TypeExpr) :
    (Shape.record (resolver.rootFields root)).WellNamed := by
  unfold rootFields
  split
  · next shape hshape =>
      have hwell := wellNamed_of_resolve hshape
      cases shape with
      | record fields => exact hwell
      | _ =>
          refine .record (List.nodup_singleton _) ?_
          intro field hfield
          cases List.mem_singleton.1 hfield
          exact hwell
  · exact .record List.nodup_nil (List.forall_mem_nil _)

theorem wellNamed_flatMap_rootFields
    (h : roots.Pairwise
      (fun root root' => (entryNames (resolver.rootFields root)).Disjoint
        (entryNames (resolver.rootFields root')))) :
    (Shape.record (roots.flatMap resolver.rootFields)).WellNamed := by
  constructor
  · rw [entryNames, List.map_flatMap, List.nodup_flatMap]
    refine ⟨fun root _ => ?_, h⟩
    cases resolver.wellNamed_rootFields root with
    | record hnames _ => exact hnames
  · intro field hfield
    obtain ⟨root, _, hmem⟩ := List.mem_flatMap.1 hfield
    cases resolver.wellNamed_rootFields root with
    | record _ hshapes => exact hshapes field hmem

/-- Several roots come to what they come to one by one, put together in their
order. -/
theorem resolveRoots_gathersRoots (resolver : Resolver) :
    resolver.GathersRoots where
  succeeds roots := by
    constructor
    · rintro ⟨shape, hshape⟩
      exact resolves_of_resolveRoots hshape
    · exact fun hresolves => ⟨_, resolveRoots_of_resolves hresolves⟩
  fails roots fault := by
    constructor
    · intro hfault
      rcases resolved_or_fault (fun root => (resolver.resolve root.2).outcome)
        roots with
        hall | ⟨before, root, after, first, rfl, hbefore, hfirst⟩
      · cases hfault.symm.trans (resolveRoots_of_resolves hall)
      · cases hfault.symm.trans (resolveRoots_of_fault hbefore hfirst)
        exact ⟨before, root, after, rfl, hbefore, hfirst⟩
    · rintro ⟨before, root, after, rfl, hbefore, hfault⟩
      exact resolveRoots_of_fault hbefore hfault
  gathers roots shape hshape := by
    refine ⟨_, eq_record_of_resolveRoots hshape, Table.names_ofList _, ?_⟩
    intro before name last after hfields hlast
    rw [hfields]
    exact Table.get?_ofList_of_last hlast
  append roots roots' fields fields' hroots hroots' := by
    cases eq_record_of_resolveRoots hroots
    cases eq_record_of_resolveRoots hroots'
    have hall : ∀ root ∈ roots ++ roots', resolver.Resolves root :=
      List.forall_mem_append.2
        ⟨resolves_of_resolveRoots hroots, resolves_of_resolveRoots hroots'⟩
    rw [resolveRoots_of_resolves hall, List.flatMap_append,
      Table.ofList_entries, Table.putAll_ofList, Table.ofList,
      Table.putAll_append]
    rfl
  permuted roots roots' shape hperm hdisjoint hshape := by
    have hresolves := resolves_of_resolveRoots hshape
    have hresolves' : ∀ root ∈ roots', resolver.Resolves root :=
      fun root hroot => hresolves root (hperm.mem_iff.2 hroot)
    have hfields := hperm.flatMap_right resolver.rootFields
    -- no name is put twice, so the fields are just what is contributed, in any
    -- order
    cases wellNamed_flatMap_rootFields hdisjoint with
    | record hnames hshapes =>
        have hnames' :
            (entryNames (roots'.flatMap resolver.rootFields)).Nodup :=
          (hfields.map Prod.fst).nodup_iff.1 hnames
        refine ⟨_, resolveRoots_of_resolves hresolves', ?_⟩
        rw [eq_record_of_resolveRoots hshape,
          Table.entries_ofList_of_nodup hnames,
          Table.entries_ofList_of_nodup hnames']
        exact Shape.alike_record_of_perm hfields hnames
          (fun field hfield => (hshapes field hfield).alike_self)

/-- A resolver for points with two coordinates. -/
def plane : Resolver where
  provider :=
    { category name := .ok (if name = "Point" then some .record else none)
      typeVars _ := .ok []
      fields _ := .ok [⟨"x", "int"⟩, ⟨"y", "int"⟩] }

def bareRoot (name : String) (type : TypeName) : String × TypeExpr :=
  (name, ⟨type, [], 0⟩)

/-- A root called like a coordinate replaces it, and one called otherwise may as
well stand first.  A root that is unknown fails before the others are looked
at. -/
theorem resolveRoots_gathersRoots_plane :
    let point := bareRoot "point" ⟨"Point", by decide⟩
    let across := bareRoot "x" ⟨"long", by decide⟩
    let color := bareRoot "color" ⟨"byte", by decide⟩
    let nowhere := bareRoot "nowhere" ⟨"Nowhere", by decide⟩
    (plane.resolveRoots ([point] ++ [across])).outcome = .ok (.record
      [("x", .leaf (.scalar .long)), ("y", .leaf (.scalar .int))]) ∧
    (plane.resolveRoots [point, color]).outcome = .ok (.record
      [("x", .leaf (.scalar .int)), ("y", .leaf (.scalar .int)),
       ("color", .leaf (.scalar .byte))]) ∧
    (∃ shape', (plane.resolveRoots [color, point]).outcome = .ok shape' ∧
      (Shape.record [("x", .leaf (.scalar .int)), ("y", .leaf (.scalar .int)),
        ("color", .leaf (.scalar .byte))]).alike shape' = true) ∧
    (plane.resolveRoots [point, nowhere, across]).outcome =
      .error (.unknownType "Nowhere") := by
  intro point across color nowhere
  have hgathers := resolveRoots_gathersRoots plane
  have hpoint : (plane.resolveRoots [point]).outcome = .ok
      (.record [("x", .leaf (.scalar .int)), ("y", .leaf (.scalar .int))]) := by
    cbv
  have hacross : (plane.resolveRoots [across]).outcome =
      .ok (.record [("x", .leaf (.scalar .long))]) := by
    cbv
  have hcolored : (plane.resolveRoots [point, color]).outcome =
      .ok (.record [("x", .leaf (.scalar .int)), ("y", .leaf (.scalar .int)),
        ("color", .leaf (.scalar .byte))]) := by
    cbv
  have hresolves : plane.Resolves point :=
    (hgathers.succeeds [point]).1 ⟨_, hpoint⟩ point (by simp)
  have hdisjoint : [point, color].Pairwise fun root root' =>
      (entryNames (plane.rootFields root)).Disjoint
          (entryNames (plane.rootFields root')) := by
    have hnames : entryNames (plane.rootFields point) = ["x", "y"] ∧
        entryNames (plane.rootFields color) = ["color"] := by
      constructor <;> cbv
    rw [List.pairwise_pair, hnames.1, hnames.2]
    simp
  refine ⟨hgathers.append _ _ _ _ hpoint hacross, hcolored,
    hgathers.permuted _ _ _ (List.Perm.swap color point []) hdisjoint hcolored,
    ?_⟩
  refine (hgathers.fails _ _).2 ⟨[point], nowhere, [across], rfl, ?_, by cbv⟩
  exact List.forall_mem_singleton.2 hresolves

end Resolver

end TypeShape
