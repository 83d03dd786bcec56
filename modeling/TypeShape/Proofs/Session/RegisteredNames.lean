import Mathlib.Data.Finset.Card
import Mathlib.Data.List.Induction
import TypeShape.Session

/-!
The registry of a resolver over a session.  At each point it is the set of the
names that the last action to mention them registers, whatever else is done in
between.  What the actions answer tells when the set changes, and so how many
names it has.
-/
namespace TypeShape

/-! ### Registries are sets -/

namespace Registry

theorem nodup_names (registry : Registry) : registry.names.Nodup := by
  refine registry.increasing.imp ?_
  rintro name _ hlt rfl
  exact String.lt_irrefl name hlt

theorem contains_iff {registry : Registry} {name : String} :
    registry.contains name = true ↔ name ∈ registry.names :=
  List.contains_iff_mem

/-- The names stand in order, so a registry is known by what it contains. -/
theorem eq_iff_contains {registry registry' : Registry} :
    registry = registry' ↔
      ∀ name, registry.contains name = registry'.contains name := by
  constructor
  · exact fun h _ => h ▸ rfl
  · intro h
    have hperm : registry.names.Perm registry'.names := by
      rw [List.perm_ext_iff_of_nodup registry.nodup_names registry'.nodup_names]
      intro name
      rw [← contains_iff, ← contains_iff, h]
    have hnames : registry.names = registry'.names :=
      hperm.eq_of_pairwise
        (fun _ _ _ _ hab hba => (String.lt_asymm hab hba).elim)
        registry.increasing registry'.increasing
    cases registry
    cases registry'
    cases hnames
    rfl

theorem mem_toFinset_iff {registry : Registry} {name : String} :
    name ∈ registry.names.toFinset ↔ registry.contains name = true := by
  rw [List.mem_toFinset, contains_iff]

/-- Each name stands once, so the size is the number of different names. -/
theorem size_eq_card {registry : Registry} {names : Finset String}
    (h : ∀ name, name ∈ names ↔ registry.contains name = true) :
    registry.size = names.card := by
  have hnames : registry.names.toFinset = names := by
    ext name
    rw [mem_toFinset_iff, h]
  rw [← hnames, List.toFinset_card_of_nodup registry.nodup_names]
  rfl

theorem contains_registerAll (registry : Registry) (names : List String)
    (name : String) :
    (registry.registerAll names).contains name = true ↔
      name ∈ names ∨ registry.contains name = true := by
  induction names generalizing registry with
  | nil => simp [registerAll]
  | cons first rest ih =>
      refine (ih (registry.register first)).trans ?_
      rw [contains_register, Bool.or_eq_true, beq_iff_eq, List.mem_cons,
        or_left_comm, or_assoc]

theorem contains_ofList (names : List String) (name : String) :
    (ofList names).contains name = true ↔ name ∈ names := by
  refine (contains_registerAll empty names name).trans (or_iff_left ?_)
  exact Bool.false_ne_true

theorem size_ofList (names : List String) :
    (ofList names).size = names.toFinset.card :=
  size_eq_card fun name => by rw [contains_ofList, List.mem_toFinset]

theorem register_eq_self {registry : Registry} {name : String}
    (h : registry.contains name = true) :
    registry.register name = registry := by
  refine eq_iff_contains.2 fun other => ?_
  rw [contains_register]
  by_cases hother : other = name
  · rw [hother, h, Bool.or_true]
  · rw [beq_eq_false_iff_ne.2 hother, Bool.false_or]

theorem length_insertName {name : String} {names : List String}
    (h : name ∉ names) : (insertName name names).length = names.length + 1 := by
  induction names with
  | nil => rfl
  | cons head rest ih =>
      rw [List.mem_cons, not_or] at h
      obtain ⟨hhead, hrest⟩ := h
      rw [insertName, if_neg hhead]
      split
      · rfl
      · rw [List.length_cons, ih hrest, List.length_cons]

theorem size_register (registry : Registry) (name : String) :
    (registry.register name).size =
      registry.size + (!registry.contains name).toNat := by
  by_cases h : registry.contains name = true
  · rw [register_eq_self h, h]
    rfl
  · rw [Bool.eq_false_iff.2 h]
    exact length_insertName fun hmem => h (contains_iff.2 hmem)

/-- No more than one place is freed when a name is taken out. -/
theorem size_unregister (registry : Registry) (name : String) :
    (registry.unregister name).size + (registry.contains name).toNat =
      registry.size := by
  have herase : (registry.unregister name).names = registry.names.erase name :=
    (registry.nodup_names.erase_eq_filter name).symm
  rw [size, herase]
  by_cases h : registry.contains name = true
  · have hpos : 0 < registry.names.length :=
      List.length_pos_of_mem (contains_iff.1 h)
    rw [List.length_erase_of_mem (contains_iff.1 h), h, Bool.toNat_true]
    exact Nat.sub_add_cancel hpos
  · rw [List.erase_of_not_mem fun hmem => h (contains_iff.2 hmem),
      Bool.eq_false_iff.2 h]
    rfl

end Registry

/-! ### What an action says of a name -/

namespace Action

def Registers : Action → String → Prop
  | register name, other => other = name
  | registerAll names, other => other ∈ names
  | _, _ => False

def Unregisters : Action → String → Prop
  | unregister name, other => other = name
  | _, _ => False

/-- The action says whether the name is registered. -/
def Mentions (action : Action) (name : String) : Prop :=
  action.Registers name ∨ action.Unregisters name

/-- The last of the actions that mention the name registers it. -/
def LastRegisters (actions : List Action) (name : String) : Prop :=
  ∃ before action after, actions = before ++ action :: after ∧
    action.Registers name ∧
    ∀ later ∈ after, ¬ later.Mentions name

theorem not_lastRegisters_nil (name : String) : ¬ LastRegisters [] name := by
  rintro ⟨before, action, after, h, -⟩
  exact List.append_ne_nil_of_right_ne_nil before
    (List.cons_ne_nil action after) h.symm

theorem lastRegisters_concat {actions : List Action} {action : Action}
    {name : String} :
    LastRegisters (actions ++ [action]) name ↔ action.Registers name ∨
      LastRegisters actions name ∧ ¬ action.Unregisters name := by
  constructor
  · rintro ⟨before, found, after, h, hfound, hafter⟩
    induction after using List.reverseRecOn with
    | nil =>
        obtain ⟨-, hlast⟩ := List.append_inj' h rfl
        cases hlast
        exact .inl hfound
    | append_singleton after last =>
        rw [← List.cons_append, ← List.append_assoc] at h
        obtain ⟨rfl, hlast⟩ := List.append_inj' h rfl
        cases hlast
        obtain ⟨hafter, hlast⟩ := List.forall_mem_append.1 hafter
        have hquiet := hlast action List.mem_cons_self
        exact .inr ⟨⟨before, found, after, rfl, hfound, hafter⟩,
          fun h => hquiet (.inr h)⟩
  · rintro (h | ⟨⟨before, found, after, rfl, hfound, hafter⟩, hkept⟩)
    · exact ⟨actions, action, [], rfl, h, by simp⟩
    · by_cases h : action.Registers name
      · exact ⟨_, action, [], rfl, h, by simp⟩
      · refine ⟨before, found, after ++ [action], by simp, hfound, ?_⟩
        rw [List.forall_mem_append, List.forall_mem_singleton]
        exact ⟨hafter, not_or.2 ⟨h, hkept⟩⟩

end Action

/-! ### The registry after some actions -/

namespace Resolver

/-- The resolver after some actions. -/
def after (resolver : Resolver) (actions : List Action) : Resolver :=
  actions.foldl (fun resolver action => (resolver.perform action).resolver)
    resolver

theorem after_append (resolver : Resolver) (first second : List Action) :
    resolver.after (first ++ second) = (resolver.after first).after second :=
  List.foldl_append

theorem after_concat (resolver : Resolver) (actions : List Action)
    (action : Action) :
    resolver.after (actions ++ [action]) =
      ((resolver.after actions).perform action).resolver :=
  resolver.after_append actions [action]

theorem performAll_concat (resolver : Resolver) (actions : List Action)
    (action : Action) :
    resolver.performAll (actions ++ [action]) = resolver.performAll actions ++
      [(resolver.after actions).perform action] := by
  induction actions generalizing resolver with
  | nil => rfl
  | cons first rest ih => exact congrArg (resolver.perform first :: ·) (ih _)

theorem contains_perform (resolver : Resolver) (action : Action)
    (name : String) :
    (resolver.perform action).resolver.registry.contains name = true ↔
      action.Registers name ∨
      resolver.registry.contains name = true ∧ ¬ action.Unregisters name := by
  cases action with
  | register other =>
      simp [perform, Registry.contains_register, Action.Registers,
        Action.Unregisters]
  | unregister other =>
      simp [perform, Registry.contains_unregister, Action.Registers,
        Action.Unregisters]
  | registerAll names =>
      simp [perform, Registry.contains_registerAll, Action.Registers,
        Action.Unregisters]
  | _ => simp [perform, Action.Registers, Action.Unregisters]

/-- A session with a registry of some names knows them as if they had been
registered first. -/
theorem contains_after (provider : Provider) (settings : Settings)
    (initial : List String) (actions : List Action) (name : String) :
    (after { provider, settings, registry := .ofList initial }
      actions).registry.contains name = true ↔
      Action.LastRegisters (.registerAll initial :: actions) name := by
  induction actions using List.reverseRecOn with
  | nil =>
      have hfirst := @Action.lastRegisters_concat [] (.registerAll initial) name
      simp only [List.nil_append, Action.not_lastRegisters_nil, false_and,
        or_false] at hfirst
      exact (Registry.contains_ofList initial name).trans hfirst.symm
  | append_singleton actions action ih =>
      rw [after_concat, contains_perform, ih, ← List.cons_append,
        Action.lastRegisters_concat]

end Resolver

/-! ### Changes and the number of names -/

namespace Action

/-- The registration of several names is that of one name after another. -/
def oneByOne : Action → List Action
  | registerAll names => names.map register
  | action => [action]

def isRegister : Action → Bool
  | register _ => true
  | _ => false

def isUnregister : Action → Bool
  | unregister _ => true
  | _ => false

end Action

def Answer.isChange : Answer → Bool
  | changed whether => whether
  | _ => false

namespace Resolver

/-- How many actions of a kind answer that they have changed something. -/
def changes (resolver : Resolver) (kind : Action → Bool)
    (actions : List Action) : Nat :=
  (actions.zip (resolver.performAll actions)).countP fun done =>
    kind done.1 && done.2.answer.isChange

theorem changes_cons (resolver : Resolver) (kind : Action → Bool)
    (action : Action) (rest : List Action) :
    resolver.changes kind (action :: rest) =
      (resolver.perform action).resolver.changes kind rest +
        (kind action && (resolver.perform action).answer.isChange).toNat := by
  rw [changes, performAll, List.zip_cons_cons, List.countP_cons,
    ← Bool.cond_eq_ite]
  rfl

theorem after_oneByOne (resolver : Resolver) (actions : List Action) :
    resolver.after (actions.flatMap Action.oneByOne) =
      resolver.after actions := by
  induction actions generalizing resolver with
  | nil => rfl
  | cons action rest ih =>
      have hfirst : resolver.after action.oneByOne =
          (resolver.perform action).resolver := by
        cases action with
        | registerAll names =>
            simp only [Action.oneByOne]
            induction names generalizing resolver with
            | nil => rfl
            | cons name names ih => exact ih _
        | _ => rfl
      rw [List.flatMap_cons, after_append, hfirst]
      exact ih _

theorem size_perform (resolver : Resolver) {action : Action}
    (hsingle : ∀ names, action ≠ .registerAll names) :
    (resolver.perform action).resolver.registry.size +
      (action.isUnregister && (resolver.perform action).answer.isChange).toNat =
      resolver.registry.size + (action.isRegister &&
        (resolver.perform action).answer.isChange).toNat := by
  cases action with
  | register name =>
      simpa [perform, Action.isRegister, Action.isUnregister, Answer.isChange]
        using
          resolver.registry.size_register name
  | unregister name =>
      simpa [perform, Action.isRegister, Action.isUnregister, Answer.isChange]
        using
          resolver.registry.size_unregister name
  | registerAll names => exact absurd rfl (hsingle names)
  | _ => rfl

theorem size_after (resolver : Resolver) {actions : List Action}
    (hsingle : ∀ action ∈ actions, ∀ names, action ≠ .registerAll names) :
    (resolver.after actions).registry.size +
      resolver.changes Action.isUnregister actions =
      resolver.registry.size + resolver.changes Action.isRegister actions := by
  induction actions generalizing resolver with
  | nil => rfl
  | cons action rest ih =>
      obtain ⟨hfirst, hrest⟩ := List.forall_mem_cons.1 hsingle
      have hstep := resolver.size_perform hfirst
      have hlast := ih (resolver.perform action).resolver hrest
      rw [changes_cons, changes_cons]
      have hafter : resolver.after (action :: rest) =
          (resolver.perform action).resolver.after rest := rfl
      rw [hafter]
      omega

theorem ne_registerAll_of_mem_oneByOne {actions : List Action} :
    ∀ action ∈ actions.flatMap Action.oneByOne,
      ∀ names, action ≠ .registerAll names := by
  intro action hmem
  obtain ⟨whole, -, hpart⟩ := List.mem_flatMap.1 hmem
  cases whole <;> simp [Action.oneByOne] at hpart <;> grind

/-- The registry after some actions is a set of names, which began as a given
list. -/
structure KeepsSet (initial : List String) (start : Resolver)
    (actions : List Action) : Prop where
  /-- A name is contained if it was registered last, and the names of the list
  were registered first. -/
  contains_iff : ∀ name, (start.after actions).registry.contains name = true ↔
    Action.LastRegisters (.registerAll initial :: actions) name
  /-- An action that registers a name or takes one out answers whether that
  makes a difference. -/
  answers : ∀ name,
    ∀ action ∈ [Action.register name, .unregister name], ∃ reaction,
      (start.performAll (actions ++ [action])).getLast? = some reaction ∧
      reaction.answer = .changed (reaction.resolver.registry.contains name !=
        (start.after actions).registry.contains name)
  /-- The size is the number of names. -/
  size_eq_card : ∃ names : Finset String, (∀ name,
    name ∈ names ↔ (start.after actions).registry.contains name = true) ∧
    (start.after actions).registry.size = names.card
  /-- The size follows from what has been answered. -/
  size_eq : ((start.after actions).registry.size : Int) =
    initial.toFinset.card +
      start.changes Action.isRegister (actions.flatMap Action.oneByOne) -
      start.changes Action.isUnregister (actions.flatMap Action.oneByOne)
  /-- A resolution leaves the registry as it is. -/
  resolutions : ∀ request visitor script, ∀ action ∈
    [Action.resolve request, .walk request visitor script], ∃ reaction,
      (start.performAll (actions ++ [action])).getLast? = some reaction ∧
      reaction.resolver.registry = (start.after actions).registry
  /-- It does not matter how the names came to be registered. -/
  eq_iff : ∀ registry, (start.after actions).registry = registry ↔ ∀ name,
    (start.after actions).registry.contains name = registry.contains name

/-- Over every session the registry is a set of names. -/
theorem after_keepsSet (provider : Provider) (settings : Settings)
    (initial : List String) (actions : List Action) :
    KeepsSet initial { provider, settings, registry := .ofList initial }
      actions := by
  have hlast (start : Resolver) (action : Action) :
      (start.performAll (actions ++ [action])).getLast? =
        some ((start.after actions).perform action) := by
    rw [performAll_concat, List.getLast?_concat]
  refine ⟨contains_after provider settings initial actions, ?_, ?_, ?_, ?_,
    fun registry => Registry.eq_iff_contains⟩
  · intro name action haction
    refine ⟨_, hlast _ action, ?_⟩
    rcases List.mem_pair.1 haction with rfl | rfl
    · simp [perform, Registry.contains_register]
    · simp [perform, Registry.contains_unregister]
  · exact ⟨_, fun name => Registry.mem_toFinset_iff,
      Registry.size_eq_card fun name => Registry.mem_toFinset_iff⟩
  · have hsize := size_after { provider, settings, registry := .ofList initial }
      (@ne_registerAll_of_mem_oneByOne actions)
    rw [after_oneByOne, Registry.size_ofList] at hsize
    omega
  · intro request visitor script action haction
    refine ⟨_, hlast _ action, ?_⟩
    rcases List.mem_pair.1 haction with rfl | rfl <;> rfl

end Resolver

end TypeShape
