/-!
Registries of custom types: sets of type names that are kept as they are and not
looked into.

The names stand in increasing order, each once.  So two registries with the same
names are equal, in whichever way they came about.
-/
namespace TypeShape

/-- Inserts a name into a list of increasing names. -/
def insertName (name : String) : List String → List String
  | [] => [name]
  | head :: rest =>
    if name < head then name :: head :: rest
    else if name = head then head :: rest
    else head :: insertName name rest

theorem mem_insertName {name other : String} {names : List String} :
    other ∈ insertName name names ↔ other = name ∨ other ∈ names := by
  induction names with
  | nil => simp [insertName]
  | cons head rest ih =>
    unfold insertName
    split
    · simp
    · split
      · next heq => simp [heq]
      · simp only [List.mem_cons, ih]
        exact or_left_comm

/-- The order of names is total, so a name that is neither below nor equal is
above. -/
theorem name_lt_of_not_lt_of_ne {a b : String} (hlt : ¬ a < b) (hne : a ≠ b) :
    b < a :=
  Classical.byContradiction fun hba =>
    hne (String.le_antisymm (String.not_lt.1 hba) (String.not_lt.1 hlt))

theorem pairwise_insertName (name : String) {names : List String}
    (h : names.Pairwise (· < ·)) :
    (insertName name names).Pairwise (· < ·) := by
  induction names with
  | nil => simp [insertName]
  | cons head rest ih =>
    obtain ⟨hhead, hrest⟩ := List.pairwise_cons.1 h
    unfold insertName
    split
    · next hlt =>
      refine List.pairwise_cons.2 ⟨fun other hother => ?_, h⟩
      rcases List.mem_cons.1 hother with rfl | hmem
      · exact hlt
      · exact String.lt_trans hlt (hhead other hmem)
    · next hlt =>
      split
      · exact h
      · next hne =>
        refine List.pairwise_cons.2 ⟨fun other hother => ?_, ih hrest⟩
        rcases mem_insertName.1 hother with rfl | hmem
        · exact name_lt_of_not_lt_of_ne hlt hne
        · exact hhead other hmem

structure Registry where
  names : List String := []
  increasing : names.Pairwise (· < ·) := by simp
deriving DecidableEq

namespace Registry

def empty : Registry := {}

def contains (registry : Registry) (name : String) : Bool :=
  registry.names.contains name

def size (registry : Registry) : Nat :=
  registry.names.length

def isEmpty (registry : Registry) : Bool :=
  registry.names.isEmpty

def register (registry : Registry) (name : String) : Registry where
  names := insertName name registry.names
  increasing := pairwise_insertName name registry.increasing

def unregister (registry : Registry) (name : String) : Registry where
  names := registry.names.filter (· != name)
  increasing := registry.increasing.filter _

def registerAll (registry : Registry) (names : List String) : Registry :=
  names.foldl register registry

def ofList (names : List String) : Registry :=
  empty.registerAll names

theorem contains_register (registry : Registry) (name other : String) :
    (registry.register name).contains other =
      (other == name || registry.contains other) := by
  rw [Bool.eq_iff_iff]
  simp [contains, register, mem_insertName]

theorem contains_unregister (registry : Registry) (name other : String) :
    (registry.unregister name).contains other =
      (registry.contains other && other != name) := by
  rw [Bool.eq_iff_iff]
  simp [contains, unregister]

end Registry

end TypeShape
