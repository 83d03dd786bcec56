import Mathlib
import TypeShape.Proofs.Resolver.DepthLimit
import TypeShape.Proofs.Resolver.FramePath
import TypeShape.Proofs.Resolver.Invariant

/-!
What the limit on the depth bounds.  Types may expand without end, but
resolutions nest no deeper than the limit, and so no shape is higher.  A record
of several roots lies one level above them.  A run is cut just where a
resolution begins that has as many others around it as the limit says.
-/
namespace TypeShape

/-! ### The height of fields -/

theorem Shape.heightOfFields_le {limit : Nat} {fields : List (String × Shape)}
    (h : FieldsAll (fun shape => shape.height ≤ limit) fields) :
    Shape.heightOfFields fields ≤ limit := by
  induction fields with
  | nil => exact Nat.zero_le limit
  | cons field rest ih =>
      obtain ⟨hfield, hrest⟩ := List.forall_mem_cons.1 h
      exact Nat.max_le.2 ⟨hfield, ih hrest⟩

theorem Shape.height_le_heightOfFields {fields : List (String × Shape)}
    {field : String × Shape} (h : field ∈ fields) :
    field.2.height ≤ Shape.heightOfFields fields := by
  induction fields with
  | nil => cases h
  | cons first rest ih =>
      rcases List.mem_cons.1 h with rfl | hrest
      · exact Nat.le_max_left _ _
      · exact Nat.le_trans (ih hrest) (Nat.le_max_right _ _)

/-- The levels that a request lays above those it resolves. -/
def Request.levelsAbove : Request → Nat
  | .expr _ => 0
  | .signature _ => 0
  | .roots _ => 1

namespace Resolver

/-- The limit on the depth holds in a run. -/
structure HeldByLimit (resolver : Resolver) (run : Run Shape) : Prop where
  /-- Wherever the run has come to, no more resolutions than the limit says are
  under way that it lets go on, and at most one that it does not. -/
  nesting : ∀ before after, run.steps = before ++ after →
    ∃ frames, framesAfter? [] before = some frames ∧
      frames.countP (Frame.isWithin resolver.settings.maxDepth) ≤
        resolver.settings.maxDepth ∧
      depthOf frames ≤ resolver.settings.maxDepth + 1
  /-- Every resolution that begins comes to an end. -/
  returns : framesAfter? [] run.steps = some []
  /-- The run is cut just where a resolution begins that has as many others
  around it as the limit says, and the fault names this limit. -/
  cut : ∀ limit signature, run.outcome = .error (.tooDeep limit signature) ↔
    limit = resolver.settings.maxDepth ∧ ∃ before expr enclosing after frames,
      run.steps = before ++ .enter expr limit enclosing :: after ∧
      expr.signature = signature ∧ framesAfter? [] before = some frames ∧
      depthOf frames = resolver.settings.maxDepth

variable {resolver : Resolver} {frames frames' : List Frame}

/-! ### How deep resolutions nest -/

theorem countP_isWithin_le_depthOf (limit : Nat) (frames : List Frame) :
    frames.countP (Frame.isWithin limit) ≤ depthOf frames := by
  apply List.countP_mono_left
  intro frame _ hwithin
  cases frame with
  | resolving expr depth => rfl
  | expanding signature => cases hwithin

/-- A resolution that the limit lets go on has fewer others around it. -/
theorem countP_isWithin_resolving_le {limit depth : Nat} (expr : TypeExpr)
    (hdepth : depth = depthOf frames)
    (h : frames.countP (Frame.isWithin limit) ≤ limit) :
    (Frame.resolving expr depth :: frames).countP (Frame.isWithin limit) ≤
      limit := by
  -- the others around it are counted by the depth that it knows
  rw [List.countP_cons]
  split
  · next hwithin =>
      have haround := countP_isWithin_le_depthOf limit frames
      have hdepth_lt : depth < limit := of_decide_eq_true hwithin
      omega
  · exact h

theorem Stacked.countP_isWithin_le (limit : Nat) (h : resolver.Stacked frames) :
    frames.countP (Frame.isWithin limit) ≤ limit := by
  induction h with
  | nil => exact Nat.zero_le limit
  | resolving expr _ hdepth ih =>
      exact countP_isWithin_resolving_le expr hdepth ih
  | @expanding frames expr depth _ hdepth _ _ ih =>
      rw [List.countP_cons_of_neg (Bool.false_ne_true)]
      exact countP_isWithin_resolving_le expr hdepth ih

theorem Moves.depthOf_le {step : Step} (h : resolver.Moves frames step frames')
    (hframes : depthOf frames ≤ resolver.settings.maxDepth + 1) :
    depthOf frames' ≤ resolver.settings.maxDepth + 1 := by
  cases h with
  | asked => exact hframes
  | enter _ hroom =>
      rw [depthOf_resolving]
      exact Nat.succ_le_succ hroom
  | leave =>
      rw [depthOf_resolving] at hframes
      exact Nat.le_of_succ_le hframes
  | expand => rwa [depthOf_expanding]
  | expanded => rwa [depthOf_expanding] at hframes

theorem Path.depthOf_le {steps : List Step}
    (h : resolver.Path frames steps frames')
    (hframes : depthOf frames ≤ resolver.settings.maxDepth + 1) :
    depthOf frames' ≤ resolver.settings.maxDepth + 1 := by
  induction h with
  | nil => exact hframes
  | cons hmove _ ih => exact ih (hmove.depthOf_le hframes)

theorem run_heldByLimit (resolver : Resolver) (request : Request) :
    resolver.HeldByLimit (resolver.run request) where
  nesting before after hsteps := by
    have hpath := (resolver.run_keeps request).path
    rw [hsteps] at hpath
    obtain ⟨frames, hbefore, -⟩ := hpath.exists_of_append
    exact ⟨frames, hbefore.framesAfter?_eq,
      (hbefore.stacked .nil).countP_isWithin_le _,
      hbefore.depthOf_le (Nat.zero_le _)⟩
  returns := (resolver.run_keeps request).path.framesAfter?_eq
  cut limit signature := by
    have hkeeps := resolver.run_keeps request
    rw [hkeeps.cut limit signature]
    refine and_congr_right ?_
    rintro rfl
    constructor
    · rintro ⟨expr, enclosing, hsignature, hmem⟩
      obtain ⟨before, after, hsteps⟩ := List.append_of_mem hmem
      have hpath := hkeeps.path
      rw [hsteps] at hpath
      obtain ⟨around, hbefore, hdepth, -⟩ := hpath.at_enter
      exact ⟨before, expr, enclosing, after, around, hsteps, hsignature,
        hbefore.framesAfter?_eq, hdepth.symm⟩
    · rintro ⟨before, expr, enclosing, after, _, hsteps, hsignature, -⟩
      refine ⟨expr, enclosing, hsignature, ?_⟩
      rw [hsteps]
      exact List.mem_append_right before List.mem_cons_self

/-! ### How high shapes are -/

/-- With some levels left no shape is found that is higher than these. -/
theorem invariant_height (resolver : Resolver) :
    resolver.Invariant anyTerms (fun _ _ _ => True)
      (fun left shape => shape.height ≤ left) where
  liberal := liberal_anyTerms
  enter _ _ := trivial
  leave _ _ := trivial
  tooDeep _ := trivial
  cyclic _ _ _ := trivial
  part _ _ := trivial
  field _ _ _ := trivial
  leaf _ _ := Nat.succ_le_succ (Nat.zero_le _)
  sequence _ helement := Nat.succ_le_succ helement
  mapping hkey hvalue := Nat.succ_le_succ (Nat.max_le.2 ⟨hkey, hvalue⟩)
  record hfields := Nat.succ_le_succ (Shape.heightOfFields_le hfields)

theorem fieldsAll_height_contribution (name : String) (shape : Shape)
    {limit : Nat} (h : shape.height ≤ limit) :
    FieldsAll (fun field => field.height ≤ limit)
      (contribution name shape) := by
  intro field hfield
  cases shape with
  | record fields =>
      have hrecord : Shape.heightOfFields fields + 1 ≤ limit := h
      exact (Shape.height_le_heightOfFields hfield).trans
        (Nat.le_of_succ_le hrecord)
  | _ =>
      cases List.mem_singleton.1 hfield
      exact h

theorem run_height_le (resolver : Resolver) (request : Request) {shape : Shape}
    (h : (resolver.run request).outcome = .ok shape) :
    shape.height ≤ resolver.settings.maxDepth + request.levelsAbove := by
  have hheight := resolver.invariant_height
  cases request with
  | expr expr => exact (hheight.resolve trivial).value shape h
  | signature text =>
      exact (hheight.resolveSignature fun _ _ => trivial).value shape h
  | roots roots =>
      exact (hheight.resolveRoots (fun _ _ => trivial) (fun name _ hshape =>
        fieldsAll_height_contribution name _ hshape)).value shape h

/-- The limit on the depth bounds every run, whatever the provider answers: how
deep resolutions nest, where it is cut, and how high the shape is that it comes
to. -/
theorem run_boundedByLimit (resolver : Resolver) (request : Request) :
    resolver.HeldByLimit (resolver.run request) ∧
    ∀ shape, (resolver.run request).outcome = .ok shape →
      shape.height ≤ resolver.settings.maxDepth + request.levelsAbove :=
  ⟨resolver.run_heldByLimit request, fun _ => resolver.run_height_le request⟩

/-- With three levels an array of arrays of numbers is as high as a shape can
be, and the record of such a root has one level more.  A type that grows at
every level is cut inside three resolutions. -/
theorem run_boundedByLimit_cubes :
    let three : Resolver := limitedTo { provider := growing } 3
    let number : TypeExpr := ⟨⟨"int", by decide⟩, [], 2⟩
    let numbers : Shape :=
      .sequence .array (.sequence .array (.leaf (.scalar .int)))
    (three.run (.expr number)).outcome = .ok numbers ∧
    numbers.height ≤ 3 + 0 ∧
    numbers.height = 3 ∧
    (three.run (.roots [("cube", number)])).outcome =
      .ok (.record [("cube", numbers)]) ∧
    (Shape.record [("cube", numbers)]).height ≤ 3 + 1 ∧
    (Shape.record [("cube", numbers)]).height = 4 ∧
    (three.run (.signature "A<int>")).outcome =
      .error (.tooDeep 3 "A<A<A<A<int>>>>") ∧
    ∃ before expr enclosing after frames,
      (three.run (.signature "A<int>")).steps =
        before ++ .enter expr 3 enclosing :: after ∧
      expr.signature = "A<A<A<A<int>>>>" ∧
      framesAfter? [] before = some frames ∧ depthOf frames = 3 := by
  intro three number numbers
  have harray : (three.run (.expr number)).outcome = .ok numbers := by cbv
  have hroots : (three.run (.roots [("cube", number)])).outcome =
      .ok (.record [("cube", numbers)]) := by cbv
  have hcut : (three.run (.signature "A<int>")).outcome =
      .error (.tooDeep 3 "A<A<A<A<int>>>>") := by cbv
  have hheld := (run_boundedByLimit three (.signature "A<int>")).1
  exact ⟨harray, (run_boundedByLimit three _).2 _ harray, by cbv, hroots,
    (run_boundedByLimit three _).2 _ hroots, by cbv, hcut,
    ((hheld.cut _ _).1 hcut).2⟩

end Resolver

end TypeShape
