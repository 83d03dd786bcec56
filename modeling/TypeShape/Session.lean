import TypeShape.Resolver
import TypeShape.Shape.Recorder

/-!
Sessions: a resolver that is used again and again while its registry changes.

Only the registry is kept from one action to the next; whether a resolution
fails or not, it leaves nothing behind.
-/
namespace TypeShape

inductive Action where
  | resolve (request : Request)
  | walk (request : Request) (visitor : Visitor Call Recording)
      (script : List Bool)
  | register (name : String)
  | unregister (name : String)
  | registerAll (names : List String)
  | contains (name : String)
  | registry
  | registryEquals (names : List String)
  | settings
  | scalar (name : String)

inductive Answer where
  | shape (outcome : Except ResolveFault Shape)
  | walked (outcome : Except ResolveFault WalkRecord)
  | changed (changed : Bool)
  | contains (contained : Bool)
  | registry (registry : Registry)
  | equal (equal : Bool)
  | settings (settings : Settings)
  | scalar (kind : Option Scalar)

/-- What comes of an action, the questions it asked, and the resolver after
it. -/
structure Reaction where
  answer : Answer
  questions : List Question := []
  resolver : Resolver

namespace Resolver

def perform (resolver : Resolver) : Action → Reaction
  | .resolve request =>
    let run := resolver.run request
    { answer := .shape run.outcome, questions := run.questions, resolver }
  | .walk request visitor script =>
    let run := resolver.run request
    { answer := .walked (run.outcome.map (·.recordWalk visitor script))
      questions := run.questions
      resolver }
  | .register name =>
    { answer := .changed (!resolver.registry.contains name)
      resolver :=
        { resolver with registry := resolver.registry.register name } }
  | .unregister name =>
    { answer := .changed (resolver.registry.contains name)
      resolver :=
        { resolver with registry := resolver.registry.unregister name } }
  | .registerAll names =>
    let registry := resolver.registry.registerAll names
    { answer := .registry registry, resolver := { resolver with registry } }
  | .contains name =>
      { answer := .contains (resolver.registry.contains name), resolver }
  | .registry => { answer := .registry resolver.registry, resolver }
  | .registryEquals names =>
    { answer := .equal (decide (resolver.registry = .ofList names)), resolver }
  | .settings => { answer := .settings resolver.settings, resolver }
  | .scalar name =>
    let run := Run.ask (.scalar name) (resolver.provider.scalar name)
    { answer := .scalar (resolver.provider.scalar name)
      questions := run.questions
      resolver }

/-- Does several things with a resolver, one after another. -/
def performAll (resolver : Resolver) : List Action → List Reaction
  | [] => []
  | action :: rest =>
    let reaction := resolver.perform action
    reaction :: reaction.resolver.performAll rest

end Resolver

end TypeShape
