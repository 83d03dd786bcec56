import Mathlib
import TypeShape.Proofs.Resolver.CycleGuard
import TypeShape.Proofs.Resolver.FramePath

/-!
The state of the guard.  A resolution is handed the number of resolutions and
the records that it lies inside of.  A guard that is kept in one place through
the whole run, changed where something begins and changed back where it ends,
knows the same: it is exact wherever a resolution begins, and whatever becomes
of the resolution, it is afterwards what it was before.
-/
namespace TypeShape

namespace Resolver

/-- The guard is exact and always restored in a run. -/
structure KeepsGuard (resolver : Resolver) (run : Run Shape) : Prop where
  /-- Where a resolution begins the guard has counted the resolutions around it,
  no more than the limit, and holds the records that are expanded around it.
  These are records by their category, all different, and no more than there are
  resolutions. -/
  entered : ∀ before expr depth enclosing after,
    run.steps = before ++ .enter expr depth enclosing :: after →
    ∃ frames, framesAfter? [] before = some frames ∧
      Guard.afterAll {} before = ⟨depth, enclosing.toFinset⟩ ∧
      depth = depthOf frames ∧
      depth ≤ resolver.settings.maxDepth ∧
      enclosing = recordsOf frames ∧
      enclosing.Nodup ∧
      enclosing.length ≤ depth ∧
      ∀ signature ∈ enclosing,
        ∃ record outer, .resolving record outer ∈ frames ∧
          resolver.Finds record (some .record) ∧
          record.signature = signature
  /-- A resolution that begins also ends, after steps that are properly nested,
  and the guard is then what it was before. -/
  restored : ∀ before expr depth enclosing after,
    run.steps = before ++ .enter expr depth enclosing :: after →
    ∃ inner rest, after = inner ++ .leave expr depth enclosing :: rest ∧
      framesAfter? [] inner = some [] ∧
      Guard.afterAll {} (before ++ .enter expr depth enclosing :: inner ++
        [.leave expr depth enclosing]) = Guard.afterAll {} before
  /-- The whole run leaves nothing behind, so the next one begins as it did. -/
  finished :
    framesAfter? [] run.steps = some [] ∧ Guard.afterAll {} run.steps = {}

variable {resolver : Resolver}

/-- A guard that begins with nothing tells what is around after any steps. -/
theorem Path.afterAll_eq_around (hrefuses : resolver.refusesCycles = true)
    {steps : List Step} {frames : List Frame}
    (h : resolver.Path [] steps frames) :
    Guard.afterAll {} steps = Guard.around frames :=
  h.guard_afterAll hrefuses .nil

/-- Where a resolution begins that has an end, it ends inside the same
frames. -/
theorem Path.exists_leave {around : List Frame} {expr : TypeExpr} {depth : Nat}
    {after : List Step}
    (h : resolver.Path (.resolving expr depth :: around) after []) :
    ∃ inner rest,
      after = inner ++ .leave expr depth (recordsOf around) :: rest ∧
      framesAfter? [] inner = some [] ∧
      resolver.Path (.resolving expr depth :: around)
        (inner ++ [.leave expr depth (recordsOf around)]) around := by
  obtain ⟨inner, last, rest, hafter, hnested, hinner, hlast⟩ :=
    h.exists_close [] (Nat.zero_le _)
  rw [hlast.eq_leave] at hafter hlast
  exact ⟨inner, rest, hafter, hnested, hinner.concat hlast⟩

/-- The state of the guard is exact in every run and always restored, with a
shape and with every fault. -/
theorem run_keepsGuard (resolver : Resolver) (request : Request) :
    resolver.guarded.KeepsGuard (resolver.guarded.run request) where
  entered before expr depth enclosing after hsteps := by
    have hpath := (resolver.guarded.run_keeps request).path
    rw [hsteps] at hpath
    obtain ⟨around, hbefore, hdepth, henclosing, hroom, -⟩ := hpath.at_enter
    have hstacked := hbefore.stacked .nil
    refine ⟨around, hbefore.framesAfter?_eq, ?_, hdepth, hroom, henclosing, ?_,
      ?_, ?_⟩
    · rw [hbefore.afterAll_eq_around rfl, hdepth, henclosing]
      rfl
    · rw [henclosing]
      exact hstacked.nodup rfl
    · rw [hdepth, henclosing]
      exact hstacked.length_le
    · intro signature hsignature
      rw [henclosing] at hsignature
      exact hstacked.exists_resolving hsignature
  restored before expr depth enclosing after hsteps := by
    have hpath := (resolver.guarded.run_keeps request).path
    rw [hsteps] at hpath
    obtain ⟨around, hbefore, hdepth, rfl, hroom, hafter⟩ := hpath.at_enter
    obtain ⟨inner, rest, hleave, hnested, hcall⟩ := hafter.exists_leave
    refine ⟨inner, rest, hleave, hnested, ?_⟩
    have henter : resolver.guarded.Moves around
        (.enter expr depth (recordsOf around))
        (.resolving expr depth :: around) :=
      .enter expr (hdepth ▸ hroom) hdepth rfl
    have hreturned := hbefore.append (.cons henter hcall)
    rw [List.append_assoc, List.cons_append, hreturned.afterAll_eq_around rfl,
      hbefore.afterAll_eq_around rfl]
  finished := by
    have hpath := (resolver.guarded.run_keeps request).path
    exact ⟨hpath.framesAfter?_eq, hpath.afterAll_eq_around rfl⟩

/-- A tree whose children are trees is refused in its second resolution, which
makes no step of an expansion: what is ended afterwards is the expansion of the
first. -/
example :
    let trees : Resolver :=
      { provider :=
          { category _ := .ok (some .record)
            typeVars _ := .ok []
            fields _ := .ok [⟨"size", "int"⟩, ⟨"first", "Tree"⟩] } }
    let tree : TypeExpr := ⟨⟨"Tree", by decide⟩, [], 0⟩
    let size : TypeExpr := ⟨⟨"int", by decide⟩, [], 0⟩
    (trees.run (.expr tree)).steps = [.enter tree 0 [], .asked (.scalar "Tree"),
      .asked (.category "Tree"), .expand "Tree", .asked (.typeVars "Tree"),
      .asked (.fields "Tree"), .enter size 1 ["Tree"], .asked (.scalar "int"),
      .leave size 1 ["Tree"], .enter tree 1 ["Tree"], .asked (.scalar "Tree"),
      .asked (.category "Tree"), .leave tree 1 ["Tree"], .expanded "Tree",
      .leave tree 0 []] := by
  cbv

end Resolver

end TypeShape
