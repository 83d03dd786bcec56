import TypeShape.Scalar

/-!
Providers: what is asked about type names, and who answers.

Everything that is known about a type is learnt by asking one of five questions
about its name.  Four of them may fail, with a text that says why.
-/
namespace TypeShape

/-- A declared field.  Its type is a signature in terms of the type variables of
its owner. -/
structure FieldDecl where
  name : String
  type : String
deriving DecidableEq

/-- A method, as far as it matters for accessors: signatures for its parameters
and its result. -/
structure MethodDecl where
  name : String
  params : List String := []
  returns : String := "void"
deriving DecidableEq

/-- What kind of type a name that is not a scalar's stands for.  The elements of
a collection are of its first parameter, a mapping goes from its first to its
second. -/
inductive Category where
  | enumeration (constants : List String)
  | collection
  | mapping
  | record
deriving DecidableEq

/-- The answers about type names.  A category of `none` says that the name is
not known.  Where nothing else is said, scalars are told by the fixed table and
no type has methods. -/
structure Provider where
  scalar : String → Option Scalar := Scalar.ofTypeName?
  category : String → Except String (Option Category)
  typeVars : String → Except String (List String)
  fields : String → Except String (List FieldDecl)
  methods : String → Except String (List MethodDecl) := fun _ => .ok []

inductive Question where
  | scalar (name : String)
  | category (name : String)
  | typeVars (name : String)
  | fields (name : String)
  | methods (name : String)
deriving DecidableEq

namespace Question

def subject : Question → String
  | scalar name | category name | typeVars name | fields name | methods name =>
      name

def line : Question → String
  | scalar name => "simple_type " ++ name
  | category name => "category " ++ name
  | typeVars name => "type_variables " ++ name
  | fields name => "declared_fields " ++ name
  | methods name => "methods " ++ name

end Question

namespace Provider

/-- Answers about categories, variables and fields as before, and the rest as by
default. -/
def basic (provider : Provider) : Provider where
  category := provider.category
  typeVars := provider.typeVars
  fields := provider.fields

def withScalars (provider : Provider) (table : List (String × Option Scalar)) :
    Provider :=
  { provider with scalar :=
    fun name => (table.lookup name).getD (provider.scalar name) }

/-- Fails at the questions whose words are listed; those about scalars cannot
fail. -/
def failingAt (provider : Provider) (lines : List String) : Provider where
  scalar := provider.scalar
  category name := answerUnless (.category name) (provider.category name)
  typeVars name := answerUnless (.typeVars name) (provider.typeVars name)
  fields name := answerUnless (.fields name) (provider.fields name)
  methods name := answerUnless (.methods name) (provider.methods name)
where
  answerUnless {α : Type} (question : Question) (answer : Except String α) :
      Except String α :=
    if lines.contains question.line then .error ("no answer: " ++ question.line)
      else answer

end Provider

end TypeShape
