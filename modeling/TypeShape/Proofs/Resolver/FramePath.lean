import Mathlib
import TypeShape.Proofs.Resolver.DepthLimit
import TypeShape.Proofs.Resolver.Lookup
import TypeShape.Proofs.Run.Frames

/-!
The steps of a run lead from frames to frames.  What a step may be depends on
the frames around it alone, and what is known of the frames is kept by every
step.  The steps that resolve an expression come back to the frames that they
began in, whatever becomes of the resolution, and they come to the limit on the
depth just if the resolution is cut there.
-/
namespace TypeShape

namespace Resolver

variable (resolver : Resolver)

/-! ### Steps from frames to frames -/

/-- One step of a run, from the frames around it to the frames after it.  Below
the limit on the depth a resolution makes no step but its last one. -/
inductive Moves : List Frame → Step → List Frame → Prop
  | asked {frames : List Frame} (question : Question)
      (hroom : depthOf frames ≤ resolver.settings.maxDepth) :
      Moves frames (.asked question) frames
  | enter {frames : List Frame} {depth : Nat} {enclosing : List String}
      (expr : TypeExpr) (hroom : depthOf frames ≤ resolver.settings.maxDepth)
      (hdepth : depth = depthOf frames)
      (henclosing : enclosing = recordsOf frames) :
      Moves frames (.enter expr depth enclosing)
        (.resolving expr depth :: frames)
  | leave {frames : List Frame} {depth : Nat} {enclosing : List String}
      (expr : TypeExpr) (henclosing : enclosing = recordsOf frames) :
      Moves (.resolving expr depth :: frames) (.leave expr depth enclosing)
        frames
  | expand {frames : List Frame} {expr : TypeExpr} {depth : Nat}
      (hroom : depthOf frames < resolver.settings.maxDepth)
      (hfinds : resolver.Finds expr (some .record))
      (hnew : ¬ resolver.Refuses (recordsOf frames) expr) :
      Moves (.resolving expr depth :: frames) (.expand expr.signature)
        (.expanding expr.signature :: .resolving expr depth :: frames)
  | expanded {frames : List Frame} (signature : String) :
      Moves (.expanding signature :: frames) (.expanded signature) frames

/-- Several steps, one after another. -/
inductive Path : List Frame → List Step → List Frame → Prop
  | nil {frames : List Frame} : Path frames [] frames
  | cons {frames middle frames' : List Frame} {step : Step} {steps : List Step}
      (hmove : resolver.Moves frames step middle)
      (hrest : Path middle steps frames') : Path frames (step :: steps) frames'

/-- Frames as they lie around the steps of a run: each resolution knows how many
are around it, and each expansion is that of the record which is being resolved
directly around it and not refused. -/
inductive Stacked : List Frame → Prop
  | nil : Stacked []
  | resolving {frames : List Frame} {depth : Nat} (expr : TypeExpr)
      (hframes : Stacked frames) (hdepth : depth = depthOf frames) :
      Stacked (.resolving expr depth :: frames)
  | expanding {frames : List Frame} {expr : TypeExpr} {depth : Nat}
      (hframes : Stacked frames) (hdepth : depth = depthOf frames)
      (hfinds : resolver.Finds expr (some .record))
      (hnew : ¬ resolver.Refuses (recordsOf frames) expr) :
      Stacked (.expanding expr.signature :: .resolving expr depth :: frames)

variable {resolver}

/-! ### What a step preserves -/

section Moves

variable {frames frames' : List Frame} {step : Step}

/-- A step leaves the frames as they are, or begins one, or ends the
innermost. -/
theorem Moves.cases_frames (h : resolver.Moves frames step frames') :
    (frames' = frames ∧ ∀ others, step.framesAfter? others = some others) ∨
    (∃ frame, frames' = frame :: frames ∧
      ∀ others, step.framesAfter? others = some (frame :: others)) ∨
    ∃ frame, frames = frame :: frames' ∧
      ∀ others, step.framesAfter? (frame :: others) = some others := by
  cases h with
  | asked => exact Or.inl ⟨rfl, fun _ => rfl⟩
  | enter => exact Or.inr (Or.inl ⟨_, rfl, fun _ => rfl⟩)
  | leave => exact Or.inr (Or.inr ⟨_, rfl, fun _ => if_pos rfl⟩)
  | expand => exact Or.inr (Or.inl ⟨_, rfl, fun _ => rfl⟩)
  | expanded => exact Or.inr (Or.inr ⟨_, rfl, fun _ => if_pos rfl⟩)

theorem Moves.framesAfter?_eq (h : resolver.Moves frames step frames') :
    step.framesAfter? frames = some frames' := by
  rcases h.cases_frames with
    ⟨rfl, hstep⟩ | ⟨frame, rfl, hstep⟩ | ⟨frame, rfl, hstep⟩
  · exact hstep _
  · exact hstep _
  · exact hstep _

theorem Moves.stacked (h : resolver.Moves frames step frames')
    (hframes : resolver.Stacked frames) : resolver.Stacked frames' := by
  cases h with
  | asked => exact hframes
  | enter expr _ hdepth => exact .resolving expr hframes hdepth
  | leave =>
      cases hframes with
      | resolving _ hframes => exact hframes
  | expand _ hfinds hnew =>
      cases hframes with
      | resolving _ hframes hdepth =>
          exact .expanding hframes hdepth hfinds hnew
  | expanded =>
      cases hframes with
      | expanding hframes hdepth => exact .resolving _ hframes hdepth

/-- A step that ends a resolution is its last one. -/
theorem Moves.eq_leave {expr : TypeExpr} {depth : Nat}
    (h : resolver.Moves (.resolving expr depth :: frames) step frames) :
    step = .leave expr depth (recordsOf frames) := by
  generalize haround : Frame.resolving expr depth :: frames = around at h
  have hlength : frames.length + 1 = around.length := by
    rw [← haround, List.length_cons]
  cases h with
  | asked => omega
  | enter =>
      rw [List.length_cons] at hlength
      omega
  | leave _ henclosing =>
      cases haround
      rw [henclosing]
  | expand =>
      rw [List.length_cons] at hlength
      omega
  | expanded => cases haround

theorem Stacked.nodup (hrefuses : resolver.refusesCycles = true)
    (h : resolver.Stacked frames) : (recordsOf frames).Nodup := by
  induction h with
  | nil => exact List.nodup_nil
  | resolving _ _ _ ih => exact ih
  | expanding _ _ _ hnew ih =>
      exact List.nodup_cons.2 ⟨fun hmem => hnew ⟨hrefuses, hmem⟩, ih⟩

theorem Stacked.length_le (h : resolver.Stacked frames) :
    (recordsOf frames).length ≤ depthOf frames := by
  induction h with
  | nil => exact Nat.le_refl 0
  | resolving _ _ _ ih =>
      rw [recordsOf_resolving, depthOf_resolving]
      exact Nat.le_succ_of_le ih
  | expanding _ _ _ _ ih =>
      simp only [recordsOf_expanding, recordsOf_resolving, depthOf_expanding,
        depthOf_resolving, List.length_cons]
      exact Nat.succ_le_succ ih

/-- What is being expanded is a record that is being resolved. -/
theorem Stacked.exists_resolving (h : resolver.Stacked frames)
    {signature : String} (hsignature : signature ∈ recordsOf frames) :
    ∃ expr depth, .resolving expr depth ∈ frames ∧
      resolver.Finds expr (some .record) ∧ expr.signature = signature := by
  induction h with
  | nil => cases hsignature
  | resolving _ _ _ ih =>
      obtain ⟨expr, depth, hmem, hexpr⟩ := ih hsignature
      exact ⟨expr, depth, List.mem_cons_of_mem _ hmem, hexpr⟩
  | @expanding frames expr depth _ _ hfinds _ ih =>
      rcases List.mem_cons.1 hsignature with rfl | hsignature
      · exact ⟨expr, depth, by simp, hfinds, rfl⟩
      · obtain ⟨expr, depth, hmem, hexpr⟩ := ih hsignature
        exact ⟨expr, depth,
          List.mem_cons_of_mem _ (List.mem_cons_of_mem _ hmem), hexpr⟩

/-- A guard that tells what is around a step tells what is around the next one.
For the end of an expansion this holds because its record is not being expanded
further out. -/
theorem Moves.guard_after (hrefuses : resolver.refusesCycles = true)
    (h : resolver.Moves frames step frames')
    (hframes : resolver.Stacked frames) :
    (Guard.around frames).after step = Guard.around frames' := by
  cases h with
  | asked => rfl
  | enter => simp [Guard.around, Guard.after]
  | leave => simp [Guard.around, Guard.after]
  | expand => simp [Guard.around, Guard.after]
  | expanded signature =>
      have hnew : signature ∉ recordsOf frames' :=
        (List.nodup_cons.1 (hframes.nodup hrefuses)).1
      simp [Guard.around, Guard.after, hnew]

end Moves

/-! ### What several steps preserve -/

section Path

variable {frames middle frames' : List Frame} {steps steps' : List Step}

theorem Path.append (h : resolver.Path frames steps middle)
    (h' : resolver.Path middle steps' frames') :
    resolver.Path frames (steps ++ steps') frames' := by
  induction h with
  | nil => exact h'
  | cons hmove _ ih => exact .cons hmove (ih h')

theorem Path.asked (hroom : depthOf frames ≤ resolver.settings.maxDepth)
    (questions : List Question) :
    resolver.Path frames (questions.map .asked) frames := by
  induction questions with
  | nil => exact .nil
  | cons question rest ih => exact .cons (.asked question hroom) ih

theorem Path.concat (h : resolver.Path frames steps middle) {last : Step}
    (hlast : resolver.Moves middle last frames') :
    resolver.Path frames (steps ++ [last]) frames' :=
  h.append (.cons hlast .nil)

theorem Path.exists_of_append
    (h : resolver.Path frames (steps ++ steps') frames') :
    ∃ middle, resolver.Path frames steps middle ∧
      resolver.Path middle steps' frames' := by
  induction steps generalizing frames with
  | nil => exact ⟨frames, .nil, h⟩
  | cons step rest ih =>
      cases h with
      | cons hmove hrest =>
          obtain ⟨middle, hfirst, hsecond⟩ := ih hrest
          exact ⟨middle, .cons hmove hfirst, hsecond⟩

theorem Path.stacked (h : resolver.Path frames steps frames')
    (hframes : resolver.Stacked frames) : resolver.Stacked frames' := by
  induction h with
  | nil => exact hframes
  | cons hmove _ ih => exact ih (hmove.stacked hframes)

theorem Path.framesAfter?_eq (h : resolver.Path frames steps frames') :
    framesAfter? frames steps = some frames' := by
  induction h with
  | nil => rfl
  | cons hmove _ ih =>
      rw [framesAfter?_cons, hmove.framesAfter?_eq, Option.bind_some, ih]

theorem Path.guard_afterAll (hrefuses : resolver.refusesCycles = true)
    (h : resolver.Path frames steps frames')
    (hframes : resolver.Stacked frames) :
    (Guard.around frames).afterAll steps = Guard.around frames' := by
  induction h with
  | nil => rfl
  | @cons frames middle _ step steps hmove _ ih =>
      change ((Guard.around frames).after step).afterAll steps = _
      rw [hmove.guard_after hrefuses hframes]
      exact ih (hmove.stacked hframes)

/-- Steps that come to fewer frames make a last step inside the innermost of
those that they leave, and everything before it is properly nested. -/
theorem Path.exists_close (pushed : List Frame) {final : List Frame}
    {frame : Frame} (h : resolver.Path (pushed ++ frame :: frames) steps final)
    (hfinal : final.length ≤ frames.length) :
    ∃ inner last rest, steps = inner ++ last :: rest ∧
      framesAfter? pushed inner = some [] ∧
      resolver.Path (pushed ++ frame :: frames) inner (frame :: frames) ∧
      resolver.Moves (frame :: frames) last frames := by
  -- what was begun since lies above the frame, and only under it can the frame
  -- end
  induction steps generalizing pushed with
  | nil =>
      cases h
      simp only [List.length_append, List.length_cons] at hfinal
      omega
  | cons step steps ih =>
      cases h with
      | @cons _ middle _ _ _ hmove hrest =>
          rcases hmove.cases_frames with
            ⟨rfl, hstep⟩ | ⟨first, rfl, hstep⟩ | ⟨first, hfirst, hstep⟩
          · obtain ⟨inner, last, rest, rfl, hframes, hinner, hlast⟩ :=
              ih _ hrest
            refine ⟨step :: inner, last, rest, rfl, ?_, .cons hmove hinner,
              hlast⟩
            rw [framesAfter?_cons, hstep, Option.bind_some, hframes]
          · obtain ⟨inner, last, rest, rfl, hframes, hinner, hlast⟩ :=
              ih (first :: pushed) hrest
            refine ⟨step :: inner, last, rest, rfl, ?_, .cons hmove hinner,
              hlast⟩
            rw [framesAfter?_cons, hstep, Option.bind_some, hframes]
          · cases pushed with
            | nil =>
                obtain ⟨rfl, rfl⟩ := List.cons.inj hfirst
                exact ⟨[], step, steps, rfl, rfl, .nil, hmove⟩
            | cons other pushed =>
                obtain ⟨rfl, rfl⟩ := List.cons.inj hfirst
                obtain ⟨inner, last, rest, rfl, hframes, hinner, hlast⟩ :=
                  ih _ hrest
                refine ⟨step :: inner, last, rest, rfl, ?_, .cons hmove hinner,
                  hlast⟩
                rw [framesAfter?_cons, hstep, Option.bind_some, hframes]

/-- Where a resolution begins it is handed what is around it. -/
theorem Path.at_enter {before after : List Step} {expr : TypeExpr} {depth : Nat}
    {enclosing : List String}
    (h : resolver.Path frames (before ++ .enter expr depth enclosing :: after)
      frames') :
    ∃ around, resolver.Path frames before around ∧
      depth = depthOf around ∧
      enclosing = recordsOf around ∧
      depth ≤ resolver.settings.maxDepth ∧
      resolver.Path (.resolving expr depth :: around) after frames' := by
  obtain ⟨around, hbefore, hafter⟩ := h.exists_of_append
  cases hafter with
  | cons hmove hrest =>
      cases hmove with
      | enter _ hroom hdepth henclosing =>
          exact ⟨around, hbefore, hdepth, henclosing, hdepth ▸ hroom, hrest⟩

end Path

end Resolver

/-! ### Runs inside frames -/

namespace Run

variable {α β ε : Type} {resolver : Resolver} {frames : List Frame}

/-- The run is made inside some frames and comes back to them, and it is cut
just if it began a resolution that lies at the limit on the depth. -/
structure Keeps (resolver : Resolver) (frames : List Frame) (run : Run α) :
    Prop where
  path : resolver.Path frames run.steps frames
  cut : ∀ limit signature, run.outcome = .error (.tooDeep limit signature) ↔
    limit = resolver.settings.maxDepth ∧
    ∃ expr enclosing,
      expr.signature = signature ∧ .enter expr limit enclosing ∈ run.steps

theorem Keeps.still {run : Run α} (hsteps : run.steps = [])
    (hfinished : run.Finished) : run.Keeps resolver frames where
  path := by
    rw [hsteps]
    exact .nil
  cut limit signature := by
    rw [hsteps]
    constructor
    · intro hcut
      cases hfinished _ hcut
    · rintro ⟨_, _, _, _, hmem⟩
      cases hmem

theorem Keeps.pure (a : α) : (Pure.pure a : Run α).Keeps resolver frames :=
  .still rfl (finished_of_ok rfl)

theorem Keeps.fail {fault : ResolveFault} (h : fault.isTooDeep = false) :
    (Run.fail fault : Run α).Keeps resolver frames := by
  apply Keeps.still rfl
  intro fault' hfault
  cases hfault
  exact h

theorem Keeps.ofExcept (outcome : Except TypeExpr.Fault α) :
    (Run.ofExcept (outcome.mapError ResolveFault.badExpr)).Keeps resolver
      frames := by
  cases outcome with
  | error fault => exact Keeps.fail rfl
  | ok a => exact Keeps.pure a

theorem Keeps.asked (hroom : depthOf frames ≤ resolver.settings.maxDepth)
    {run : Run α} (questions : List Question)
    (hsteps : run.steps = questions.map .asked) (hfinished : run.Finished) :
    run.Keeps resolver frames where
  path := by
    rw [hsteps]
    exact .asked hroom questions
  cut limit signature := by
    rw [hsteps]
    constructor
    · intro hcut
      cases hfinished _ hcut
    · rintro ⟨_, _, _, _, hmem⟩
      obtain ⟨_, _, hasked⟩ := List.mem_map.1 hmem
      cases hasked

theorem Keeps.bind {run : Run α} {next : α → Run β}
    (h : run.Keeps resolver frames)
    (hnext : ∀ a, run.outcome = .ok a → (next a).Keeps resolver frames) :
    (run >>= next).Keeps resolver frames := by
  rcases run.ok_or_error with ⟨a, ha⟩ | ⟨fault, hfault⟩
  · have hnext := hnext a ha
    rw [bind_of_ok ha]
    refine ⟨h.path.append hnext.path,
      fun limit signature => (hnext.cut limit signature).trans ?_⟩
    simp only [List.mem_append]
    constructor
    · rintro ⟨rfl, expr, enclosing, hsignature, hmem⟩
      exact ⟨rfl, expr, enclosing, hsignature, Or.inr hmem⟩
    · rintro ⟨rfl, expr, enclosing, hsignature, hmem | hmem⟩
      · -- the first part has a value, so it was not cut
        have hcut :=
          (h.cut _ signature).2 ⟨rfl, expr, enclosing, hsignature, hmem⟩
        cases ha.symm.trans hcut
      · exact ⟨rfl, expr, enclosing, hsignature, hmem⟩
  · rw [bind_of_error hfault]
    refine ⟨h.path, fun limit signature => Iff.trans ?_ (h.cut limit signature)⟩
    rw [hfault]
    simp

theorem Keeps.foldlM {step : β → ε → Run β}
    (hstep : ∀ b item, (step b item).Keeps resolver frames) (items : List ε)
    (start : β) : (items.foldlM step start).Keeps resolver frames := by
  induction items generalizing start with
  | nil => exact Keeps.pure start
  | cons item rest ih =>
      rw [List.foldlM_cons]
      exact Keeps.bind (hstep start item) (fun b _ => ih b)

/-- A run between two steps that lead into a frame and out of it again. -/
theorem Keeps.between {run : Run α} {first last : Step} {frame : Frame}
    (hfirst : resolver.Moves frames first (frame :: frames))
    (hlast : resolver.Moves (frame :: frames) last frames)
    (hroom : ∀ expr enclosing,
      first ≠ .enter expr resolver.settings.maxDepth enclosing)
    (hends : ∀ expr depth enclosing, last ≠ .enter expr depth enclosing)
    (h : run.Keeps resolver (frame :: frames)) :
    (run.between first last).Keeps resolver frames where
  path := .cons hfirst (h.path.concat hlast)
  cut limit signature := by
    rw [outcome_between, h.cut limit signature]
    refine and_congr_right ?_
    rintro rfl
    simp only [Run.between, List.cons_append, List.mem_cons, List.mem_append,
      List.not_mem_nil, or_false, (hroom _ _).symm, (hends _ _ _).symm,
      false_or]

end Run

namespace Resolver

variable {resolver : Resolver}

/-- What lies one level deeper keeps the frames that it is made inside of, where
there are so many levels left below them. -/
def KeepsBelow (resolver : Resolver) (left : Nat)
    (below : List String → TypeExpr → Run Shape) : Prop :=
  ∀ frames, depthOf frames + left = resolver.settings.maxDepth →
    ∀ part, (below (recordsOf frames) part).Keeps resolver frames

section Level

variable {frames : List Frame} {expr : TypeExpr} {left : Nat}
  {below : List String → TypeExpr → Run Shape}

theorem steps_resolveUnknown (resolver : Resolver) (expr : TypeExpr) :
    (resolver.resolveUnknown expr).steps = [] := by
  unfold resolveUnknown
  split <;> rfl

theorem addField_keeps {below : TypeExpr → Run Shape}
    (hbelow : ∀ part, (below part).Keeps resolver frames) (bindings : Bindings)
    (fields : Table Shape) (source : FieldSource) :
    (addField below bindings fields source).Keeps resolver frames := by
  unfold addField
  apply Run.Keeps.bind (Run.Keeps.ofExcept _)
  intro type _
  apply Run.Keeps.bind (hbelow type)
  exact fun shape _ => Run.Keeps.pure _

theorem expandFields_keeps (hroom : depthOf frames ≤ resolver.settings.maxDepth)
    {below : TypeExpr → Run Shape}
    (hbelow : ∀ part, (below part).Keeps resolver frames) (expr : TypeExpr) :
    (resolver.expandFields below expr).Keeps resolver frames := by
  have hask : ∀ {α : Type} (question : Question) (answer : Except String α),
      (Run.askOrFail question answer).Keeps resolver frames :=
    fun question answer =>
      .asked hroom [question] rfl (Run.finished_askOrFail question answer)
  unfold expandFields
  apply Run.Keeps.bind (hask _ _)
  intro typeVars _
  apply Run.Keeps.bind (hask _ _)
  intro declared _
  apply Run.Keeps.bind (Run.Keeps.foldlM (addField_keeps hbelow _) _ _)
  intro fields _
  split
  · exact Run.Keeps.pure fields
  · apply Run.Keeps.bind (hask _ _)
    exact fun methods _ => Run.Keeps.foldlM (addField_keeps hbelow _) _ _

variable (hbelow : resolver.KeepsBelow left below)
  (hleft : depthOf frames + (left + 1) = resolver.settings.maxDepth)
  {depth : Nat}

include hbelow hleft

/-- A record is expanded directly inside its own resolution. -/
theorem resolveRecord_keeps (hfinds : resolver.Finds expr (some .record)) :
    (resolver.resolveRecord below (recordsOf frames) expr).Keeps resolver
      (.resolving expr depth :: frames) := by
  by_cases hrefuses : resolver.Refuses (recordsOf frames) expr
  · rw [resolveRecord_of_refuses hrefuses]
    exact Run.Keeps.fail rfl
  · rw [resolveRecord_of_not_refuses hrefuses]
    have hinner : ∀ part,
        (below (expr.signature :: recordsOf frames) part).Keeps resolver
          (.expanding expr.signature :: .resolving expr depth :: frames) := by
      apply hbelow
        (.expanding expr.signature :: .resolving expr depth :: frames)
      rw [depthOf_expanding, depthOf_resolving]
      omega
    have hfields := expandFields_keeps
      (by rw [depthOf_expanding, depthOf_resolving]; omega) hinner expr
    have hexpand : resolver.Moves (.resolving expr depth :: frames)
        (.expand expr.signature)
        (.expanding expr.signature :: .resolving expr depth :: frames) :=
      .expand (by omega) hfinds hrefuses
    apply Run.Keeps.bind (.between hexpand (.expanded _) nofun nofun hfields)
    exact fun fields _ => Run.Keeps.pure _

theorem resolveCategory_keeps {category : Option Category}
    (hfinds : resolver.Finds expr category) :
    (resolver.resolveCategory below (recordsOf frames) expr category).Keeps
      resolver (.resolving expr depth :: frames) := by
  have hpart : ∀ part, (below (recordsOf frames) part).Keeps resolver
      (.resolving expr depth :: frames) := by
    apply hbelow (.resolving expr depth :: frames)
    rw [depthOf_resolving]
    omega
  cases category with
  | none =>
      exact .still (resolver.steps_resolveUnknown expr)
        (resolver.finished_resolveUnknown expr)
  | some category =>
      cases category with
      | enumeration constants => exact Run.Keeps.pure _
      | collection =>
          apply Run.Keeps.bind (hpart _)
          exact fun element _ => Run.Keeps.pure _
      | mapping =>
          apply Run.Keeps.bind (hpart _)
          intro key _
          apply Run.Keeps.bind (hpart _)
          exact fun value _ => Run.Keeps.pure _
      | record => exact resolveRecord_keeps hbelow hleft hfinds

theorem resolveName_keeps (helement : expr.element? = none) :
    (resolver.resolveName below (recordsOf frames) expr).Keeps resolver
      (.resolving expr depth :: frames) := by
  have hroom : depthOf (.resolving expr depth :: frames) ≤
      resolver.settings.maxDepth := by
    rw [depthOf_resolving]
    omega
  rcases resolver.lookup_cases helement with
    ⟨kind, hscalar⟩ | ⟨hscalar, hregistry⟩ |
      ⟨hscalar, hregistry, reason, hfailed⟩ | ⟨category, hfinds⟩
  · rw [resolver.resolveName_of_scalar below _ hscalar]
    exact .asked hroom [.scalar expr.name.text] rfl (Run.finished_of_ok rfl)
  · rw [resolver.resolveName_of_registered below _ hscalar hregistry]
    exact .asked hroom [.scalar expr.name.text] rfl (Run.finished_of_ok rfl)
  · rw [resolver.resolveName_of_lookupFailed below _ hscalar hregistry hfailed]
    refine .asked hroom [.scalar expr.name.text, .category expr.name.text] rfl
      ?_
    intro fault hfault
    cases hfault
    rfl
  · rw [resolver.resolveName_of_finds below _ hfinds]
    apply Run.Keeps.bind
      (.asked hroom [.scalar expr.name.text, .category expr.name.text] rfl
        (Run.finished_of_ok rfl))
    exact fun _ _ => resolveCategory_keeps hbelow hleft hfinds

theorem resolveLevel_keeps :
    (resolver.resolveLevel below (recordsOf frames) expr).Keeps resolver
      (.resolving expr depth :: frames) := by
  unfold resolveLevel
  split
  · apply Run.Keeps.bind (hbelow (.resolving expr depth :: frames) ?_ _)
    · exact fun shape _ => Run.Keeps.pure _
    · rw [depthOf_resolving]
      omega
  · next helement => exact resolveName_keeps hbelow hleft helement

end Level

/-- With as many levels left below the frames, a resolution comes back to
them. -/
theorem resolveWithin_keeps (left : Nat) :
    resolver.KeepsBelow left (resolver.resolveWithin left) := by
  induction left with
  | zero =>
      intro frames hleft part
      have hdepth : resolver.settings.maxDepth = depthOf frames := hleft.symm
      have henter : resolver.Moves frames
          (.enter part resolver.settings.maxDepth (recordsOf frames))
          (.resolving part resolver.settings.maxDepth :: frames) :=
        .enter part hdepth.ge hdepth rfl
      refine ⟨.cons henter (.cons (.leave part rfl) .nil),
        fun limit signature => ?_⟩
      constructor
      · intro hcut
        cases hcut
        exact ⟨rfl, part, recordsOf frames, rfl, List.mem_cons_self⟩
      · rintro ⟨rfl, expr, enclosing, rfl, hmem⟩
        rcases List.mem_cons.1 hmem with heq | hlast
        · cases heq
          rfl
        · cases List.mem_singleton.1 hlast
  | succ left ih =>
      intro frames hleft part
      have hdepth : resolver.settings.maxDepth - (left + 1) =
          depthOf frames := by
        omega
      have henter : resolver.Moves frames (.enter part
          (resolver.settings.maxDepth - (left + 1)) (recordsOf frames))
          (.resolving part (resolver.settings.maxDepth - (left + 1)) ::
            frames) :=
        .enter part (by omega) hdepth rfl
      refine Run.Keeps.between henter (.leave part rfl) ?_ nofun
        (resolveLevel_keeps ih hleft)
      intro expr enclosing heq
      have hlimit := (Step.enter.inj heq).2.1
      omega

variable (resolver) in
/-- Every run is made inside of nothing and comes back to that. -/
theorem run_keeps (request : Request) :
    (resolver.run request).Keeps resolver [] := by
  have hresolve : ∀ expr, (resolver.resolve expr).Keeps resolver [] :=
    resolveWithin_keeps resolver.settings.maxDepth [] (Nat.zero_add _)
  cases request with
  | expr expr => exact hresolve expr
  | signature text =>
      apply Run.Keeps.bind (Run.Keeps.ofExcept _)
      exact fun expr _ => hresolve expr
  | roots roots =>
      have hadd : ∀ (fields : Table Shape) (root : String × TypeExpr),
          (resolver.addRoot fields root).Keeps resolver [] := by
        intro fields root
        apply Run.Keeps.bind (hresolve root.2)
        exact fun shape _ => Run.Keeps.pure _
      apply Run.Keeps.bind (Run.Keeps.foldlM hadd roots _)
      exact fun fields _ => Run.Keeps.pure _

end Resolver

end TypeShape
