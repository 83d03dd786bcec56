import TypeShape.Proofs.Resolver.DepthLimit
import TypeShape.Proofs.TypeExpr.UniqueReading

/-!
Refusing a record inside its own expansion.  The guard is exact: a resolver
without it gives the same answer, or else the guard refused a type that has no
shape under any limit.

Three runs are compared here.  With the same number of levels left the guarded
run and the unguarded one agree up to the point where the guard refuses.  If
the guard refuses a signature, the unguarded run comes back to the record with
that signature, and does so again inside that record, until the limit cuts it.
-/
namespace TypeShape

namespace Run

variable {α β γ δ : Type}

/-- The guard refused something, or both runs are the same but for related
values. -/
def SameUnlessCyclic (S : α → β → Prop) (run : Run α) (run' : Run β) : Prop :=
  (∃ signature, run.outcome = .error (.cyclic signature)) ∨
  run.SameButFor S run'

theorem sameUnlessCyclic_self (run : Run α) : run.SameUnlessCyclic Eq run :=
  Or.inr (sameButFor_eq_iff.2 rfl)

theorem SameUnlessCyclic.bind {S : α → β → Prop} {T : γ → δ → Prop}
    {run : Run α} {run' : Run β} {next : α → Run γ} {next' : β → Run δ}
    (h : run.SameUnlessCyclic S run')
    (hnext : ∀ a b, S a b → (next a).SameUnlessCyclic T (next' b)) :
    (run >>= next).SameUnlessCyclic T (run' >>= next') := by
  rcases h with ⟨signature, hcyclic⟩ | hsame
  · refine Or.inl ⟨signature, ?_⟩
    rw [bind_of_error hcyclic]
  · by_cases hcyclic : ∃ signature,
      (run >>= next).outcome = .error (.cyclic signature)
    · exact Or.inl hcyclic
    · refine Or.inr (hsame.bind ?_)
      intro a b ha hab
      rcases hnext a b hab with ⟨signature, hnext⟩ | hnext
      · exact absurd ⟨signature, by rw [bind_of_ok ha]; exact hnext⟩ hcyclic
      · exact hnext

theorem SameUnlessCyclic.between {S : α → β → Prop} {run : Run α} {run' : Run β}
    (h : run.SameUnlessCyclic S run') (first last : Step) :
    (run.between first last).SameUnlessCyclic S (run'.between first last) := by
  rcases h with hcyclic | hsame
  · exact Or.inl hcyclic
  · exact Or.inr (hsame.between first last)

/-- The second run is cut, or it does what the first one does, except that the
first one may fail for another reason than that the guard refused one of the
signatures in question. -/
def Pursued (limit : Nat) (refused : String → Prop) (S : α → β → Prop)
    (run : Run α) (run' : Run β) : Prop :=
  run'.CutAt limit ∨
  (∃ a b, run.outcome = .ok a ∧ run'.outcome = .ok b ∧ S a b) ∨
  ∃ fault, run.outcome = .error fault ∧
    ∀ signature, refused signature → fault ≠ .cyclic signature

variable {limit : Nat} {refused : String → Prop}

theorem pursued_self {run : Run α}
    (h : ∀ signature, run.outcome ≠ .error (.cyclic signature)) :
    run.Pursued limit refused Eq run := by
  rcases run.ok_or_error with ⟨a, ha⟩ | ⟨fault, hfault⟩
  · exact Or.inr (Or.inl ⟨a, a, ha, ha, rfl⟩)
  · refine Or.inr (Or.inr ⟨fault, hfault, ?_⟩)
    rintro signature _ rfl
    exact h signature hfault

theorem Pursued.bind {S : α → β → Prop} {T : γ → δ → Prop} {run : Run α}
    {run' : Run β} {next : α → Run γ} {next' : β → Run δ}
    (h : run.Pursued limit refused S run')
    (hnext : ∀ a b, S a b → (next a).Pursued limit refused T (next' b)) :
    (run >>= next).Pursued limit refused T (run' >>= next') := by
  rcases h with hcut | ⟨a, b, ha, hb, hab⟩ | ⟨fault, hfault, hother⟩
  · exact Or.inl (hcut.bind next')
  · rcases hnext a b hab with hcut | hdone
    · exact Or.inl (hcut.bind_of_ok hb)
    · rw [Pursued, bind_of_ok ha, bind_of_ok hb]
      exact Or.inr hdone
  · refine Or.inr (Or.inr ⟨fault, ?_, hother⟩)
    rw [bind_of_error hfault]

/-- A run that pursues a refused signature is cut. -/
theorem Pursued.cutAt {S : α → β → Prop} {run : Run α} {run' : Run β}
    (h : run.Pursued limit refused S run') {signature : String}
    (hrefused : refused signature)
    (hcyclic : run.outcome = .error (.cyclic signature)) :
    run'.CutAt limit := by
  rcases h with hcut | ⟨a, b, ha, _, _⟩ | ⟨fault, hfault, hother⟩
  · exact hcut
  · rw [hcyclic] at ha
    cases ha
  · rw [hcyclic] at hfault
    cases hfault
    exact absurd rfl (hother signature hrefused)

theorem Pursued.mono {refused' : String → Prop} {S : α → β → Prop} {run : Run α}
    {run' : Run β} (h : run.Pursued limit refused S run')
    (hle : ∀ signature, refused' signature → refused signature) :
    run.Pursued limit refused' S run' := by
  rcases h with hcut | hok | ⟨fault, hfault, hother⟩
  · exact Or.inl hcut
  · exact Or.inr (Or.inl hok)
  · exact Or.inr (Or.inr ⟨fault, hfault, fun signature hsignature =>
      hother signature (hle signature hsignature)⟩)

end Run

/-- A run with the guard compared with the run without it, as long as the guard
refuses nothing. -/
def guardRemoval : Comparison where
  Holds := Run.SameUnlessCyclic
  pure h := Or.inr ⟨rfl, Or.inl ⟨_, _, rfl, rfl, h⟩⟩
  bind h hnext := h.bind hnext
  badExpr fault := Or.inr ⟨rfl, Or.inr ⟨.badExpr fault, rfl, rfl⟩⟩
  expanding _ h := h.between _ _

/-- A run with the guard compared with a run without it under any limit, when
some signatures are refused. -/
def pursuit (limit : Nat) (refused : String → Prop) : Comparison where
  Holds := Run.Pursued limit refused
  pure h := Or.inr (Or.inl ⟨_, _, rfl, rfl, h⟩)
  bind h hnext := h.bind hnext
  badExpr fault := Or.inr (Or.inr ⟨.badExpr fault, rfl, nofun⟩)
  expanding _ h := h

namespace Resolver

variable (resolver : Resolver)

def guarded : Resolver :=
  { resolver with refusesCycles := true }

/-- The resolver without the guard, which only the limit on the depth stops. -/
def unguarded : Resolver :=
  { resolver with refusesCycles := false }

theorem not_refuses_unguarded (enclosing : List String) (expr : TypeExpr) :
    ¬ resolver.unguarded.Refuses enclosing expr := by
  intro hrefuses
  exact Bool.false_ne_true hrefuses.1

/-- Canonical texts identify expressions, whatever commas their names hold: two
expressions with the same text are one.  So the guard, which compares texts,
refuses a record just if that very expression is being expanded already. -/
theorem signature_eq_iff :
    (∀ e e' : TypeExpr, e.signature = e'.signature ↔ e = e') ∧
    ∀ (resolver : Resolver) (below : List String → TypeExpr → Run Shape)
      (expanding : List TypeExpr) (expr : TypeExpr),
      resolver.guarded.resolveRecord below (expanding.map TypeExpr.signature)
        expr = .fail (.cyclic expr.signature) ↔ expr ∈ expanding := by
  refine ⟨fun e e' => TypeExpr.signature_injective.eq_iff, ?_⟩
  intro resolver below expanding expr
  have hmem : expr.signature ∈ expanding.map TypeExpr.signature ↔
      expr ∈ expanding :=
    List.mem_map_of_injective TypeExpr.signature_injective
  rw [← hmem]
  constructor
  · intro hfail
    by_contra hnew
    -- a record that is not refused makes at least the step that begins its
    -- expansion
    rw [resolveRecord_of_not_refuses (fun hrefuses => hnew hrefuses.2)] at hfail
    exact Run.fail_ne_between_bind _ _ _ _ _ hfail.symm
  · intro hsame
    exact resolveRecord_of_refuses ⟨rfl, hsame⟩

theorem suits_guardRemoval :
    Suits guardRemoval Eq resolver.guarded resolver.unguarded where
  scalar _ := Run.sameUnlessCyclic_self _
  category _ := Run.sameUnlessCyclic_self _
  typeVars _ := Run.sameUnlessCyclic_self _
  fields _ := Run.sameUnlessCyclic_self _
  methods _ := Run.sameUnlessCyclic_self _
  extraction := rfl
  registry _ := rfl
  unknown _ := Run.sameUnlessCyclic_self _

/-- With as many levels left and under the same limit, the guard changes
nothing unless it refuses something. -/
theorem resolveWithin_sameUnlessCyclic (left : Nat) (enclosing : List String)
    (expr : TypeExpr) :
    (resolver.guarded.resolveWithin left enclosing expr).SameUnlessCyclic Eq
      (resolver.unguarded.resolveWithin left enclosing expr) := by
  induction left generalizing enclosing expr with
  | zero => exact Run.sameUnlessCyclic_self _
  | succ left ih =>
      refine Run.SameUnlessCyclic.between ?_ _ _
      apply resolveLevel_holds (C := guardRemoval) shapeCongruence_eq
        resolver.suits_guardRemoval (ih enclosing)
        (ih (expr.signature :: enclosing))
      · intro _
        exact Or.inl ⟨expr.signature, rfl⟩
      · intro hrefuses
        exact absurd hrefuses (resolver.not_refuses_unguarded enclosing expr)

theorem askOrFail_ne_cyclic {α : Type} (question : Question)
    (answer : Except String α) (signature : String) :
    (Run.askOrFail question answer).outcome ≠ .error (.cyclic signature) := by
  cases answer <;> simp [Run.askOrFail, Except.mapError]

theorem resolveUnknown_ne_cyclic (expr : TypeExpr) (signature : String) :
    (resolver.resolveUnknown expr).outcome ≠ .error (.cyclic signature) := by
  unfold resolveUnknown
  split <;> simp [Run.fail, Run.pure_def]

theorem suits_pursuit (limit : Nat) (refused : String → Prop) :
    Suits (pursuit limit refused) Eq resolver.guarded
      (resolver.unguarded.limitedTo limit) where
  scalar _ := Run.pursued_self nofun
  category _ := Run.pursued_self (askOrFail_ne_cyclic _ _)
  typeVars _ := Run.pursued_self (askOrFail_ne_cyclic _ _)
  fields _ := Run.pursued_self (askOrFail_ne_cyclic _ _)
  methods _ := Run.pursued_self (askOrFail_ne_cyclic _ _)
  extraction := rfl
  registry _ := rfl
  unknown expr := Run.pursued_self (resolver.resolveUnknown_ne_cyclic expr)

section Pursuit

variable {limit : Nat} {refused : String → Prop}

theorem cutAt_resolveWithin_zero (enclosing : List String) (expr : TypeExpr) :
    ((resolver.limitedTo limit).resolveWithin 0 enclosing expr).CutAt limit :=
  ⟨expr.signature, rfl⟩

/-- A guarded run that has no level left is not stopped by the guard. -/
theorem pursued_resolveWithin_zero (enclosing : List String) (expr : TypeExpr)
    (run : Run Shape) :
    (resolver.guarded.resolveWithin 0 enclosing expr).Pursued limit refused Eq
      run :=
  Or.inr (Or.inr ⟨_, rfl, nofun⟩)

/-- One level of a pursuit.  The numbers of levels left in the two runs have
nothing to do with one another, nor have the records around them. -/
theorem pursued_resolveWithin_succ {left k : Nat}
    {enclosing enclosing' : List String} {expr : TypeExpr}
    (hbelow : ∀ part,
      (resolver.guarded.resolveWithin left enclosing part).Pursued limit refused
        Eq
        ((resolver.unguarded.limitedTo limit).resolveWithin k enclosing' part))
    (hinner : ∀ part, (resolver.guarded.resolveWithin left
      (expr.signature :: enclosing) part).Pursued limit refused Eq
      ((resolver.unguarded.limitedTo limit).resolveWithin k
        (expr.signature :: enclosing') part))
    (hown : expr.signature ∈ enclosing → ¬ refused expr.signature) :
    (resolver.guarded.resolveWithin (left + 1) enclosing expr).Pursued limit
      refused Eq ((resolver.unguarded.limitedTo limit).resolveWithin (k + 1)
        enclosing' expr) := by
  change (pursuit limit refused).Holds Eq
    (resolver.guarded.resolveLevel _ enclosing expr)
    ((resolver.unguarded.limitedTo limit).resolveLevel _ enclosing' expr)
  apply resolveLevel_holds shapeCongruence_eq
    (resolver.suits_pursuit limit refused) hbelow hinner
  · intro hrefuses
    refine Or.inr (Or.inr ⟨_, rfl, ?_⟩)
    intro signature hrefused heq
    cases heq
    exact hown hrefuses.2 hrefused
  · intro hrefuses
    exact absurd hrefuses
      ((resolver.limitedTo limit).not_refuses_unguarded enclosing' expr)

/-- Where the guard refuses a signature, the run without the guard comes back
to the record with that signature.  So it is cut if every resolution of that
record with no more levels left is cut. -/
theorem pursued_of_cutAt {signature : String} {k : Nat}
    (hcut : ∀ j ≤ k, ∀ expr, expr.signature = signature →
      ∀ enclosing, ((resolver.unguarded.limitedTo limit).resolveWithin j
        enclosing expr).CutAt limit)
    (left : Nat) (enclosing enclosing' : List String) (expr : TypeExpr) :
    (resolver.guarded.resolveWithin left enclosing expr).Pursued limit
      (· = signature) Eq ((resolver.unguarded.limitedTo limit).resolveWithin k
        enclosing' expr) := by
  induction k generalizing left enclosing enclosing' expr with
  | zero =>
      exact Or.inl (resolver.unguarded.cutAt_resolveWithin_zero enclosing' expr)
  | succ k ih =>
      by_cases hsignature : expr.signature = signature
      · exact Or.inl (hcut (k + 1) (Nat.le_refl _) expr hsignature enclosing')
      · cases left with
        | zero => exact resolver.pursued_resolveWithin_zero enclosing expr _
        | succ left =>
            have hbelow := ih (fun j hj => hcut j (Nat.le_succ_of_le hj)) left
            exact resolver.pursued_resolveWithin_succ
              (hbelow enclosing enclosing') (hbelow _ _) (fun _ => hsignature)

/-- A record that is refused inside itself is cut without the guard: with one
level more because it is cut with all smaller numbers of levels. -/
theorem cutAt_of_cyclic_self {left : Nat} {enclosing : List String}
    {expr : TypeExpr} (hnew : expr.signature ∉ enclosing)
    (hcyclic :
      (resolver.guarded.resolveWithin (left + 1) enclosing expr).outcome =
        .error (.cyclic expr.signature))
    (k : Nat) (enclosing' : List String) :
    ((resolver.unguarded.limitedTo limit).resolveWithin k enclosing' expr).CutAt
      limit := by
  induction k using Nat.strongRecOn generalizing enclosing' with
  | ind k ih =>
      cases k with
      | zero =>
          exact resolver.unguarded.cutAt_resolveWithin_zero enclosing' expr
      | succ k =>
          have hcut : ∀ j ≤ k, ∀ other, other.signature = expr.signature →
              ∀ around, ((resolver.unguarded.limitedTo limit).resolveWithin j
                around other).CutAt limit := by
            intro j hj other hother around
            rw [TypeExpr.signature_injective hother]
            exact ih j (Nat.lt_succ_of_le hj) around
          have hbelow := resolver.pursued_of_cutAt hcut left
          have hlevel :=
            resolver.pursued_resolveWithin_succ (hbelow enclosing enclosing')
              (hbelow _ _) (fun hmem => absurd hmem hnew)
          exact hlevel.cutAt rfl hcyclic

/-- Where the guard refuses a signature that was not yet being expanded at the
start of a run, the run without the guard is cut under every limit and with
any number of levels left. -/
theorem pursued_of_not_mem_enclosing (left k : Nat)
    (enclosing enclosing' : List String) (expr : TypeExpr) :
    (resolver.guarded.resolveWithin left enclosing expr).Pursued limit
      (· ∉ enclosing) Eq ((resolver.unguarded.limitedTo limit).resolveWithin k
        enclosing' expr) := by
  induction left generalizing k enclosing enclosing' expr with
  | zero => exact resolver.pursued_resolveWithin_zero enclosing expr _
  | succ left ih =>
      by_cases hself : (resolver.guarded.resolveWithin (left + 1) enclosing
        expr).outcome = .error (.cyclic expr.signature) ∧
        expr.signature ∉ enclosing
      · exact Or.inl
          (resolver.cutAt_of_cyclic_self hself.2 hself.1 k enclosing')
      · cases k with
        | zero =>
            exact Or.inl
              (resolver.unguarded.cutAt_resolveWithin_zero enclosing' expr)
        | succ k =>
            have hbelow : ∀ part,
                (resolver.guarded.resolveWithin left enclosing part).Pursued
                  limit (· ∉ expr.signature :: enclosing) Eq
                  ((resolver.unguarded.limitedTo limit).resolveWithin k
                    enclosing' part) := by
              intro part
              exact (ih k enclosing enclosing' part).mono
                (fun signature hnew hmem => hnew (List.mem_cons_of_mem _ hmem))
            have hlevel := resolver.pursued_resolveWithin_succ hbelow (ih k
              (expr.signature :: enclosing) (expr.signature :: enclosing'))
              (fun _ hnew => hnew List.mem_cons_self)
            rcases hlevel with hcut | hok | ⟨fault, hfault, hother⟩
            · exact Or.inl hcut
            · exact Or.inr (Or.inl hok)
            · refine Or.inr (Or.inr ⟨fault, hfault, ?_⟩)
              rintro signature hnew rfl
              have hne : signature ≠ expr.signature := by
                rintro rfl
                exact hself ⟨hfault, hnew⟩
              exact hother signature (by simp [hne, hnew]) rfl

end Pursuit

/-- The guard against records inside themselves is exact.  With the guard a
resolution is the same run as without it, or it refuses a type whose resolution
without the guard is cut under every limit.  So it refuses no type that has a
shape under some limit. -/
theorem resolve_guarded_eq_or_cyclic (expr : TypeExpr) :
    (resolver.guarded.resolve expr = resolver.unguarded.resolve expr ∨
      ∃ signature,
        (resolver.guarded.resolve expr).outcome = .error (.cyclic signature) ∧
        ∀ limit, ∃ deep,
          ((resolver.unguarded.limitedTo limit).resolve expr).outcome =
            .error (.tooDeep limit deep)) ∧
    ∀ limit shape,
      ((resolver.unguarded.limitedTo limit).resolve expr).outcome = .ok shape →
      resolver.guarded.resolve expr = resolver.unguarded.resolve expr := by
  have hexact :
      resolver.guarded.resolve expr = resolver.unguarded.resolve expr ∨
      ∃ signature,
        (resolver.guarded.resolve expr).outcome = .error (.cyclic signature) ∧
        ∀ limit,
          ((resolver.unguarded.limitedTo limit).resolve expr).CutAt limit := by
    rcases resolver.resolveWithin_sameUnlessCyclic resolver.settings.maxDepth []
      expr with
      ⟨signature, hcyclic⟩ | hsame
    · refine Or.inr ⟨signature, hcyclic, ?_⟩
      intro limit
      exact (resolver.pursued_of_not_mem_enclosing _ limit [] [] expr).cutAt
        List.not_mem_nil hcyclic
    · exact Or.inl (Run.sameButFor_eq_iff.1 hsame)
  refine ⟨hexact, ?_⟩
  intro limit shape hshape
  rcases hexact with hsame | ⟨signature, _, hcut⟩
  · exact hsame
  · obtain ⟨deep, hdeep⟩ := hcut limit
    rw [hshape] at hdeep
    cases hdeep

/-- A resolver for which a box holds a value of its parameter and every other
record holds a box of itself. -/
def boxes : Resolver where
  provider :=
    { category _ := .ok (some .record)
      typeVars name := .ok (if name = "Box" then ["T"] else [])
      fields name := .ok
        (if name = "Box" then [⟨"value", "T"⟩]
        else [⟨"self", "Box<" ++ name ++ ">"⟩]) }
  settings := { maxDepth := 4 }

/-- A box in a box is not refused.  A node is refused in its own box, and
without the guard no limit gives it a shape. -/
theorem resolve_guarded_boxes :
    boxes.guarded.resolve ⟨⟨"Box", by decide⟩,
      [⟨⟨"Box", by decide⟩, [⟨⟨"int", by decide⟩, [], 0⟩], 0⟩], 0⟩ =
      boxes.unguarded.resolve ⟨⟨"Box", by decide⟩,
        [⟨⟨"Box", by decide⟩, [⟨⟨"int", by decide⟩, [], 0⟩], 0⟩], 0⟩ ∧
    (boxes.guarded.resolve ⟨⟨"Node", by decide⟩, [], 0⟩).outcome =
      .error (.cyclic "Node") ∧
    ∀ limit, ∃ deep, ((boxes.unguarded.limitedTo limit).resolve
      ⟨⟨"Node", by decide⟩, [], 0⟩).outcome = .error (.tooDeep limit deep) := by
  have hshape : ((boxes.unguarded.limitedTo 4).resolve ⟨⟨"Box", by decide⟩,
      [⟨⟨"Box", by decide⟩, [⟨⟨"int", by decide⟩, [], 0⟩], 0⟩], 0⟩).outcome =
      .ok (.record [("value", .record [("value", .leaf (.scalar .int))])]) := by
    cbv
  have hcyclic : (boxes.guarded.resolve ⟨⟨"Node", by decide⟩, [], 0⟩).outcome =
      .error (.cyclic "Node") := by
    cbv
  have hcut : (boxes.unguarded.resolve ⟨⟨"Node", by decide⟩, [], 0⟩).outcome =
      .error (.tooDeep 4 "Node") := by
    cbv
  refine ⟨(resolve_guarded_eq_or_cyclic boxes _).2 4 _ hshape, hcyclic, ?_⟩
  rcases (resolve_guarded_eq_or_cyclic boxes
    ⟨⟨"Node", by decide⟩, [], 0⟩).1 with
    hsame | ⟨_, _, hdeep⟩
  · rw [hsame, hcut] at hcyclic
    cases hcyclic
  · exact hdeep

end Resolver

end TypeShape
