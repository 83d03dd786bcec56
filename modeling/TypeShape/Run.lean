import TypeShape.TypeExpr
import TypeShape.Provider

/-!
Runs: what a resolution did, step by step, and what came of it.

The steps of a run that fails are those up to the failure, so the questions that
were asked can be read off a run whatever its outcome.  Besides questions a run
notes where the resolution of an expression begins and ends, and where the
fields of a record are gone through.
-/
namespace TypeShape

inductive ResolveFault where
  | badExpr (fault : TypeExpr.Fault)
  | unknownType (name : String)
  /-- The provider failed at a question about the name, for a reason of its
  own. -/
  | lookupFailed (name reason : String)
  /-- The record with this signature holds itself. -/
  | cyclic (signature : String)
  | tooDeep (limit : Nat) (signature : String)
deriving DecidableEq

def ResolveFault.message : ResolveFault → String
  | .badExpr fault => fault.message
  | .unknownType name => "unknown type `" ++ name ++ "`"
  | .lookupFailed name _ => "metadata lookup for `" ++ name ++ "` failed"
  | .cyclic signature => "type `" ++ signature ++ "` refers back to itself"
  | .tooDeep limit signature =>
    "type tree deeper than " ++ toString limit ++ " levels at `" ++ signature ++
      "`"

/-- A step of a run.  Steps that begin and end something carry the number of
expressions that are being resolved around it and the signatures of the records
that are being expanded around it, the innermost first. -/
inductive Step where
  | asked (question : Question)
  | enter (expr : TypeExpr) (depth : Nat) (enclosing : List String)
  | leave (expr : TypeExpr) (depth : Nat) (enclosing : List String)
  | expand (signature : String)
  | expanded (signature : String)
deriving DecidableEq

def Step.question? : Step → Option Question
  | asked question => some question
  | _ => none

/-- Steps, and what came of them. -/
structure Run (α : Type) where
  steps : List Step
  outcome : Except ResolveFault α

namespace Run

variable {α β : Type}

/-- Goes on with a second run after the first, unless that failed. -/
def andThen (run : Run α) (next : α → Run β) : Run β :=
  match run.outcome with
  | .ok a => ⟨run.steps ++ (next a).steps, (next a).outcome⟩
  | .error fault => ⟨run.steps, .error fault⟩

instance : Monad Run where
  pure a := ⟨[], .ok a⟩
  bind := andThen

def fail (fault : ResolveFault) : Run α :=
  ⟨[], .error fault⟩

def ofExcept (outcome : Except ResolveFault α) : Run α :=
  ⟨[], outcome⟩

def ask (question : Question) (answer : α) : Run α :=
  ⟨[.asked question], .ok answer⟩

/-- The run that is one question which the provider may fail to answer. -/
def askOrFail (question : Question) (answer : Except String α) : Run α :=
  ⟨[.asked question], answer.mapError (.lookupFailed question.subject)⟩

/-- Sets a run between two steps, which are made whether it fails or not. -/
def between (first last : Step) (run : Run α) : Run α :=
  ⟨first :: run.steps ++ [last], run.outcome⟩

def questions (run : Run α) : List Question :=
  run.steps.filterMap Step.question?

theorem pure_def (a : α) : (pure a : Run α) = ⟨[], .ok a⟩ := rfl

theorem bind_of_ok {run : Run α} {a : α} (h : run.outcome = .ok a)
    (next : α → Run β) :
    run >>= next = ⟨run.steps ++ (next a).steps, (next a).outcome⟩ := by
  simp [bind, andThen, h]

theorem bind_of_error {run : Run α} {fault : ResolveFault}
    (h : run.outcome = .error fault) (next : α → Run β) :
    run >>= next = ⟨run.steps, .error fault⟩ := by
  simp [bind, andThen, h]

theorem map_id (run : Run α) : id <$> run = run := by
  obtain ⟨steps, outcome⟩ := run
  cases outcome <;> simp [Functor.map, andThen]

theorem pure_bind (a : α) (next : α → Run β) :
    (pure a : Run α) >>= next = next a := by
  simp [bind, pure, andThen]

/-- Nothing depends on how runs that follow one another are grouped. -/
theorem bind_assoc {γ : Type} (run : Run α) (next : α → Run β)
    (last : β → Run γ) :
    run >>= next >>= last = run >>= fun a => next a >>= last := by
  obtain ⟨steps, outcome⟩ := run
  cases outcome with
  | error fault => simp [bind, andThen]
  | ok a =>
      cases h : (next a).outcome <;> simp [bind, andThen, h, List.append_assoc]

instance : LawfulMonad Run := LawfulMonad.mk' Run map_id pure_bind bind_assoc

end Run

end TypeShape
