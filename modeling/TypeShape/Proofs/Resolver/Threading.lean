import Mathlib
import TypeShape.Proofs.Resolver.CycleGuard
import TypeShape.Proofs.Run.Frames

/-!
A resolver that threads its guard.  Where `resolveWithin` is handed what lies
around a resolution, a program keeps it in one place: it counts up when it goes
down into an expression and down when it comes back, and puts a record into the
set when it begins to expand it and takes it out again afterwards.  It knows
nothing of the levels that are left or of what is further out.  Both come to the
same, step by step, and at each step the guard of the one is what the other is
handed.
-/
namespace TypeShape

/-! ### Programs with a guard -/

/-- What a program notes of a step.  Where an expression is gone into and come
back from it notes the guard that it has there. -/
inductive Note where
  | asked (question : Question)
  | enter (expr : TypeExpr) (guard : Guard)
  | leave (expr : TypeExpr) (guard : Guard)
  | expand (signature : String)
  | expanded (signature : String)

def Step.note : Step → Note
  | asked question => .asked question
  | enter expr depth enclosing => .enter expr ⟨depth, enclosing.toFinset⟩
  | leave expr depth enclosing => .leave expr ⟨depth, enclosing.toFinset⟩
  | expand signature => .expand signature
  | expanded signature => .expanded signature

/-- What a program keeps through a whole resolution. -/
structure Progress where
  guard : Guard := {}
  notes : List Note := []

/-- Programs that go on from what they find, and leave what they kept behind
even if they fail. -/
abbrev Threaded := ExceptT ResolveFault (StateM Progress)

namespace Threaded

variable {α β ε : Type}

/-- What comes of a program, and what it leaves behind. -/
def execute (program : Threaded α) (progress : Progress) :
    Except ResolveFault α × Progress :=
  (program.run.run progress).run

def note (note : Note) : Threaded Unit :=
  modify fun progress => { progress with notes := progress.notes ++ [note] }

def guard : Threaded Guard := do
  pure (← get).guard

def setGuard (guard : Guard) : Threaded Unit :=
  modify fun progress => { progress with guard }

def ofExcept (outcome : Except ResolveFault α) : Threaded α :=
  ExceptT.mk (pure outcome)

/-- What comes of a program as a value, so that something can be done before a
fault is passed on. -/
def attempt (program : Threaded α) : Threaded (Except ResolveFault α) :=
  ExceptT.lift program.run

def ask (question : Question) (answer : α) : Threaded α := do
  note (.asked question)
  pure answer

def askOrFail (question : Question) (answer : Except String α) :
    Threaded α := do
  note (.asked question)
  ofExcept (answer.mapError (.lookupFailed question.subject))

end Threaded

namespace Resolver

variable (resolver : Resolver)

def threadUnknown (expr : TypeExpr) : Threaded Shape :=
  match resolver.settings.unknown with
  | .reject => throw (.unknownType expr.name.text)
  | .asCustom => pure (.leaf (.custom expr))
  | .asUnknown => pure (.leaf (.unknown expr))

def threadField (descend : TypeExpr → Threaded Shape) (bindings : Bindings)
    (fields : Table Shape) (source : FieldSource) : Threaded (Table Shape) := do
  let expr ← .ofExcept
    ((TypeExpr.ofSignatureWith bindings source.type).mapError .badExpr)
  let shape ← descend expr
  pure (fields.put source.name shape)

def threadFields (descend : TypeExpr → Threaded Shape) (expr : TypeExpr) :
    Threaded (Table Shape) := do
  let name := expr.name.text
  let typeVars ← .askOrFail (.typeVars name) (resolver.provider.typeVars name)
  let bindings := Bindings.zip typeVars expr.params
  let declared ← .askOrFail (.fields name) (resolver.provider.fields name)
  let fields ← (declared.map FieldDecl.source).foldlM
    (threadField descend bindings) .empty
  if resolver.settings.extraction = .declaredOnly then
    pure fields
  else
    let methods ← .askOrFail (.methods name) (resolver.provider.methods name)
    (resolver.settings.extraction.sources methods).foldlM
      (threadField descend bindings) fields

/-- The fields of a record, if it is not in the set yet.  It is taken out of the
set again before a fault of its fields is passed on. -/
def threadRecord (descend : TypeExpr → Threaded Shape) (expr : TypeExpr) :
    Threaded (Table Shape) := do
  let signature := expr.signature
  let guard ← Threaded.guard
  if signature ∈ guard.expanding then
    throw (.cyclic signature)
  .note (.expand signature)
  .setGuard { guard with expanding := insert signature guard.expanding }
  let fields ← Threaded.attempt (resolver.threadFields descend expr)
  let guard ← Threaded.guard
  .setGuard { guard with expanding := guard.expanding.erase signature }
  .note (.expanded signature)
  .ofExcept fields

def threadCategory (descend : TypeExpr → Threaded Shape) (expr : TypeExpr) :
    Option Category → Threaded Shape
  | none => resolver.threadUnknown expr
  | some (.enumeration constants) => pure (.leaf (.enumeration constants))
  | some .collection => do
    let element ← descend (expr.paramOrObject 0)
    pure (.sequence .collection element)
  | some .mapping => do
    let key ← descend (expr.paramOrObject 0)
    let value ← descend (expr.paramOrObject 1)
    pure (.mapping key value)
  | some .record => do
    let fields ← resolver.threadRecord descend expr
    pure (.record fields.entries)

def threadName (descend : TypeExpr → Threaded Shape) (expr : TypeExpr) :
    Threaded Shape := do
  let name := expr.name.text
  match ← Threaded.ask (.scalar name) (resolver.provider.scalar name) with
  | some kind => pure (.leaf (.scalar kind))
  | none =>
    if resolver.registry.contains name then
      pure (.leaf (.custom expr))
    else
      let category ← .askOrFail (.category name)
        (resolver.provider.category name)
      resolver.threadCategory descend expr category

def threadLevel (descend : TypeExpr → Threaded Shape) (expr : TypeExpr) :
    Threaded Shape :=
  match expr.element? with
  | some element => do
    let shape ← descend element
    pure (.sequence .array shape)
  | none => resolver.threadName descend expr

/-- Goes down into an expression unless the depth is at its limit, and counts
down again before a fault is passed on.  The number bounds how many calls there
are inside one another, which nothing depends on if it is above the limit. -/
def descend : Nat → TypeExpr → Threaded Shape
  | 0, expr => throw (.tooDeep resolver.settings.maxDepth expr.signature)
  | calls + 1, expr => do
    let guard ← Threaded.guard
    .note (.enter expr guard)
    if resolver.settings.maxDepth ≤ guard.depth then
      .note (.leave expr guard)
      throw (.tooDeep resolver.settings.maxDepth expr.signature)
    .setGuard { guard with depth := guard.depth + 1 }
    let shape ← Threaded.attempt (resolver.threadLevel (descend calls) expr)
    let guard ← Threaded.guard
    .setGuard { guard with depth := guard.depth - 1 }
    let guard ← Threaded.guard
    .note (.leave expr guard)
    .ofExcept shape

end Resolver

/-! ### What a program computes -/

namespace Threaded

variable {α β ε : Type}

/-- The program notes the steps of a run and comes to its end, and it gives the
guard back as it was. -/
def Computes (program : Threaded α) (guard : Guard) (run : Run α) : Prop :=
  ∀ notes, program.execute ⟨guard, notes⟩ =
    (run.outcome, ⟨guard, notes ++ run.steps.map Step.note⟩)

theorem execute_bind (program : Threaded α) (next : α → Threaded β)
    (progress : Progress) :
    (program >>= next).execute progress = match program.execute progress with
      | (.ok a, progress) => (next a).execute progress
      | (.error fault, progress) => (.error fault, progress) := by
  rcases h : program.execute progress with ⟨outcome, progress'⟩
  have hrun : program.run.run progress = (outcome, progress') := h
  simp only [execute, ExceptT.run_bind, StateT.run_bind, hrun]
  cases outcome <;> rfl

@[simp] theorem execute_ofExcept (outcome : Except ResolveFault α)
    (progress : Progress) :
    (Threaded.ofExcept outcome).execute progress = (outcome, progress) := rfl

@[simp] theorem execute_throw (fault : ResolveFault) (progress : Progress) :
    (throw fault : Threaded α).execute progress = (.error fault, progress) :=
  rfl

@[simp] theorem execute_pure (a : α) (progress : Progress) :
    (Pure.pure a : Threaded α).execute progress = (.ok a, progress) := rfl

@[simp] theorem execute_note (note : Note) (progress : Progress) :
    (Threaded.note note).execute progress =
      (.ok (), { progress with notes := progress.notes ++ [note] }) := rfl

@[simp] theorem execute_guard (progress : Progress) :
    Threaded.guard.execute progress = (.ok progress.guard, progress) := rfl

@[simp] theorem execute_setGuard (guard : Guard) (progress : Progress) :
    (Threaded.setGuard guard).execute progress =
      (.ok (), { progress with guard }) :=
  rfl

@[simp] theorem execute_attempt (program : Threaded α) (progress : Progress) :
    (Threaded.attempt program).execute progress =
      (.ok (program.execute progress).1, (program.execute progress).2) := rfl

variable {guard : Guard}

theorem Computes.ofExcept (outcome : Except ResolveFault α) :
    (Threaded.ofExcept outcome).Computes guard (.ofExcept outcome) := by
  intro notes
  rw [Run.ofExcept, List.map_nil, List.append_nil]
  rfl

theorem Computes.bind {program : Threaded α} {next : α → Threaded β}
    {run : Run α} {follow : α → Run β} (h : program.Computes guard run)
    (hnext : ∀ a, (next a).Computes guard (follow a)) :
    (program >>= next).Computes guard (run >>= follow) := by
  intro notes
  rw [execute_bind, h]
  rcases run.ok_or_error with ⟨a, ha⟩ | ⟨fault, hfault⟩
  · rw [Run.bind_of_ok ha, ha, List.map_append, ← List.append_assoc]
    exact hnext a _
  · rw [Run.bind_of_error hfault, hfault]

theorem Computes.pure (a : α) :
    (Pure.pure a : Threaded α).Computes guard (Pure.pure a) :=
  Computes.ofExcept (.ok a)

theorem Computes.throw (fault : ResolveFault) :
    (MonadExcept.throw fault : Threaded α).Computes guard (.fail fault) :=
  Computes.ofExcept (.error fault)

theorem Computes.ask (question : Question) (answer : α) :
    (Threaded.ask question answer).Computes guard (.ask question answer) :=
  fun _ => rfl

theorem Computes.askOrFail (question : Question) (answer : Except String α) :
    (Threaded.askOrFail question answer).Computes guard
      (.askOrFail question answer) :=
  fun _ => rfl

theorem Computes.foldlM {step : β → ε → Threaded β} {follow : β → ε → Run β}
    (hstep : ∀ b item, (step b item).Computes guard (follow b item))
    (items : List ε) (start : β) :
    (items.foldlM step start).Computes guard (items.foldlM follow start) := by
  induction items generalizing start with
  | nil => exact .pure start
  | cons item rest ih =>
      rw [List.foldlM_cons, List.foldlM_cons]
      exact .bind (hstep start item) ih

end Threaded

/-! ### One level -/

namespace Resolver

variable {resolver : Resolver}

/-- Going down from the depth comes to what lies one level deeper, inside any
records. -/
def DescendsTo (descend : TypeExpr → Threaded Shape) (depth : Nat)
    (below : List String → TypeExpr → Run Shape) : Prop :=
  ∀ enclosing, enclosing.Nodup → ∀ part,
    (descend part).Computes ⟨depth, enclosing.toFinset⟩ (below enclosing part)

theorem threadUnknown_computes (resolver : Resolver) (expr : TypeExpr)
    (guard : Guard) :
    (resolver.threadUnknown expr).Computes guard
      (resolver.resolveUnknown expr) := by
  unfold threadUnknown resolveUnknown
  cases resolver.settings.unknown with
  | reject => exact .throw _
  | asCustom => exact .pure _
  | asUnknown => exact .pure _

section Fields

variable {descend : TypeExpr → Threaded Shape} {guard : Guard}
  {below : TypeExpr → Run Shape}
  (hdescend : ∀ part, (descend part).Computes guard (below part))

include hdescend

theorem threadField_computes (bindings : Bindings) (fields : Table Shape)
    (source : FieldSource) :
    (threadField descend bindings fields source).Computes guard
      (addField below bindings fields source) := by
  unfold threadField addField
  apply Threaded.Computes.bind (.ofExcept _)
  intro expr
  apply Threaded.Computes.bind (hdescend expr)
  exact fun shape => .pure _

theorem threadFields_computes (resolver : Resolver) (expr : TypeExpr) :
    (resolver.threadFields descend expr).Computes guard
      (resolver.expandFields below expr) := by
  have hfields (bindings : Bindings) := Threaded.Computes.foldlM
    (threadField_computes hdescend bindings)
  unfold threadFields expandFields
  apply Threaded.Computes.bind (.askOrFail _ _)
  intro typeVars
  apply Threaded.Computes.bind (.askOrFail _ _)
  intro declared
  apply Threaded.Computes.bind (hfields _ _ _)
  intro fields
  split
  · exact .pure fields
  · apply Threaded.Computes.bind (.askOrFail _ _)
    exact fun methods => hfields _ _ _

end Fields

theorem threadRecord_of_mem (resolver : Resolver)
    (descend : TypeExpr → Threaded Shape) (depth : Nat)
    {enclosing : List String} {expr : TypeExpr}
    (hmem : expr.signature ∈ enclosing) :
    (resolver.threadRecord descend expr).Computes ⟨depth, enclosing.toFinset⟩
      (.fail (.cyclic expr.signature)) := by
  intro notes
  simp only [threadRecord, Threaded.execute_bind, Threaded.execute_guard,
    List.mem_toFinset, if_pos hmem, Threaded.execute_throw]
  simp [Run.fail]

section Level

variable {descend : TypeExpr → Threaded Shape} {depth : Nat}
  {below : List String → TypeExpr → Run Shape} {enclosing : List String}
  (hdescend : DescendsTo descend depth below) (hnodup : enclosing.Nodup)

include hdescend hnodup

/-- The record is not in the set when it is put in, so the set is what it was
when it is taken out. -/
theorem threadRecord_computes {expr : TypeExpr}
    (hnew : expr.signature ∉ enclosing) :
    (resolver.threadRecord descend expr).Computes ⟨depth, enclosing.toFinset⟩
      (Run.between (.expand expr.signature) (.expanded expr.signature)
        (resolver.expandFields (below (expr.signature :: enclosing))
          expr)) := by
  have hfields := threadFields_computes
    (hdescend (expr.signature :: enclosing) (List.nodup_cons.2 ⟨hnew, hnodup⟩))
    resolver expr
  have hback : (insert expr.signature enclosing.toFinset).erase expr.signature =
      enclosing.toFinset := Finset.erase_insert (by rwa [List.mem_toFinset])
  rw [List.toFinset_cons] at hfields
  intro notes
  simp only [threadRecord, Threaded.execute_bind, Threaded.execute_guard,
    List.mem_toFinset, if_neg hnew, Threaded.execute_note,
    Threaded.execute_setGuard, Threaded.execute_attempt, hfields _, hback,
    Threaded.execute_ofExcept]
  simp [Run.between, Step.note]

variable (hrefuses : resolver.refusesCycles = true)

include hrefuses

theorem threadCategory_computes (expr : TypeExpr) (category : Option Category) :
    (resolver.threadCategory descend expr category).Computes
      ⟨depth, enclosing.toFinset⟩
      (resolver.resolveCategory below enclosing expr category) := by
  cases category with
  | none => exact resolver.threadUnknown_computes expr _
  | some category =>
      cases category with
      | enumeration constants => exact .pure _
      | collection =>
          apply Threaded.Computes.bind (hdescend enclosing hnodup _)
          exact fun element => .pure _
      | mapping =>
          apply Threaded.Computes.bind (hdescend enclosing hnodup _)
          intro key
          apply Threaded.Computes.bind (hdescend enclosing hnodup _)
          exact fun value => .pure _
      | record =>
          change (resolver.threadRecord descend expr >>= _).Computes _
            (resolver.resolveRecord below enclosing expr)
          by_cases hmem : expr.signature ∈ enclosing
          · have hrefused := threadRecord_of_mem resolver descend depth hmem
            rw [resolveRecord_of_refuses ⟨hrefuses, hmem⟩]
            exact hrefused.bind
              fun fields => .pure (Shape.record fields.entries)
          · rw [resolveRecord_of_not_refuses fun h => hmem h.2]
            apply Threaded.Computes.bind
              (threadRecord_computes hdescend hnodup hmem)
            exact fun fields => .pure _

theorem threadName_computes (expr : TypeExpr) :
    (resolver.threadName descend expr).Computes ⟨depth, enclosing.toFinset⟩
      (resolver.resolveName below enclosing expr) := by
  unfold threadName resolveName
  apply Threaded.Computes.bind (.ask _ _)
  intro kind
  cases kind with
  | some kind => exact .pure _
  | none =>
      dsimp only
      split
      · exact .pure _
      · apply Threaded.Computes.bind (.askOrFail _ _)
        exact threadCategory_computes hdescend hnodup hrefuses expr

theorem threadLevel_computes (expr : TypeExpr) :
    (resolver.threadLevel descend expr).Computes ⟨depth, enclosing.toFinset⟩
      (resolver.resolveLevel below enclosing expr) := by
  unfold threadLevel resolveLevel
  cases expr.element? with
  | some element =>
      apply Threaded.Computes.bind (hdescend enclosing hnodup element)
      exact fun shape => .pure _
  | none => exact threadName_computes hdescend hnodup hrefuses expr

end Level

/-! ### All levels -/

theorem descend_computes (hrefuses : resolver.refusesCycles = true)
    {left calls depth : Nat}
    (hdepth : depth + left = resolver.settings.maxDepth)
    (hcalls : left < calls) :
    DescendsTo (resolver.descend calls) depth
      (resolver.resolveWithin left) := by
  induction calls generalizing left depth with
  | zero => omega
  | succ calls ih =>
      intro enclosing hnodup expr notes
      cases left with
      | zero =>
          have hlimit : resolver.settings.maxDepth = depth := hdepth.symm
          simp only [descend, Threaded.execute_bind, Threaded.execute_guard,
            Threaded.execute_note, if_pos hlimit.le, Threaded.execute_throw]
          simp [resolveWithin, Run.between, Run.fail, Step.note, hlimit]
      | succ left =>
          have hroom : ¬ resolver.settings.maxDepth ≤ depth := by omega
          have hdepth' : resolver.settings.maxDepth - (left + 1) = depth := by
            omega
          have hdeeper : depth + 1 + left = resolver.settings.maxDepth := by
            omega
          have hbelow := ih hdeeper (Nat.lt_of_succ_lt_succ hcalls)
          have hlevel := threadLevel_computes hbelow hnodup hrefuses expr
          simp only [descend, Threaded.execute_bind, Threaded.execute_guard,
            Threaded.execute_note, if_neg hroom, Threaded.execute_setGuard,
            Threaded.execute_attempt, hlevel _, Threaded.execute_ofExcept]
          simp [resolveWithin, Run.between, Step.note, hdepth']

/-- Begun with nothing around it, a resolution that threads its guard makes the
steps of `resolve`, with the guard that these are handed, comes to the same end,
and leaves the guard as it was. -/
theorem descend_eq_resolve (hrefuses : resolver.refusesCycles = true)
    {calls : Nat} (hcalls : resolver.settings.maxDepth < calls)
    (expr : TypeExpr) :
    (resolver.descend calls expr).execute {} = ((resolver.resolve expr).outcome,
      { notes := (resolver.resolve expr).steps.map Step.note }) :=
  descend_computes hrefuses (Nat.zero_add _) hcalls [] List.nodup_nil expr []

end Resolver

end TypeShape
