import Mathlib
import TypeShape.Proofs.Catalog.Clauses
import TypeShape.Proofs.Document.Writing

/-!
Settings that a text overrides.  Such a text is an object with a member for each
setting that it names, amid others that may hold anything.  Whatever is not
named keeps its default, and a setting that is named twice is refused, even with
the same value.
-/
namespace TypeShape

/-! ### Whole numbers -/

namespace Numeral

/-- Taken in one by one, digits are gathered into the number that they stand for
as long as it fits. -/
theorem foldl_take_of_lt {digits : List Nat}
    (h : Token.digitsValue digits < digitBound) :
    digits.foldl Gathered.take { digits := 0 } =
      ⟨Token.digitsValue digits, digits.length, false⟩ := by
  induction digits using List.reverseRecOn with
  | nil => rfl
  | append_singleton digits digit ih =>
      have hvalue : Token.digitsValue (digits ++ [digit]) =
          Token.digitsValue digits * 10 + digit := by
        simp [Token.digitsValue]
      rw [hvalue] at h ⊢
      rw [List.foldl_append, ih (by omega), List.foldl_cons, List.foldl_nil,
        Gathered.take, if_neg (not_or.2 ⟨Bool.false_ne_true, Nat.not_le.2 h⟩),
        List.length_append]
      rfl

theorem number?_of_lt {digits : List Nat}
    (h : Token.digitsValue digits < digitBound) :
    number? ⟨false, digits, none, none⟩ =
      some (.natural (Token.digitsValue digits)) := by
  have hgathered : gatheredWhole ⟨false, digits, none, none⟩ =
      (Token.digitsValue digits, 0) := by
    simp only [gatheredWhole, foldl_take_of_lt h, Nat.sub_self]
  simp [number?, hgathered]

end Numeral

/-- A document that is a whole number below `2 ^ 64`, written with digits
alone. -/
def IsWhole (n : Nat) (document : Document) : Prop :=
  ∃ digits, document = .number ⟨false, digits, none, none⟩ ∧
    Nat.ofDigits 10 digits.reverse = n ∧ n < 2 ^ 64

namespace Settings

theorem readDepth_of_isWhole {n : Nat} {document : Document}
    (h : IsWhole n document) (path : List PathStep) :
    readDepth path document = .ok n := by
  obtain ⟨digits, rfl, rfl, hlt⟩ := h
  rw [← Token.digitsValue_eq_ofDigits] at hlt ⊢
  have hnumber := @Numeral.number?_of_lt digits hlt
  simp [readDepth, Document.found?, hnumber]

/-! ### Overrides -/

/-- A setting with a value. -/
inductive Override where
  | extraction (choice : Extraction)
  | unknown (policy : UnknownPolicy)
  | maxDepth (levels : Nat)

namespace Override

def name : Override → String
  | extraction _ => "field_extraction"
  | unknown _ => "unknown_type_handling"
  | maxDepth _ => "max_depth"

def allNames : List String :=
  ["field_extraction", "unknown_type_handling", "max_depth"]

def extractions : List (String × Extraction) :=
  [("none", .declaredOnly), ("getters", .getters), ("setters", .setters),
   ("both", .both)]

def policies : List (String × UnknownPolicy) :=
  [("throw_error", .reject), ("treat_as_custom", .asCustom),
   ("distinct_token", .asUnknown)]

def IsValue : Override → Document → Prop
  | extraction choice, document =>
      ∃ text, (text, choice) ∈ extractions ∧ IsText text document
  | unknown policy, document =>
      ∃ text, (text, policy) ∈ policies ∧ IsText text document
  | maxDepth levels, document => IsWhole levels document

/-- The values that settings have if they are not named. -/
def defaults : List Override :=
  [extraction .both, unknown .reject, maxDepth 64]

def HoldsIn : Override → Settings → Prop
  | extraction choice, settings => settings.extraction = choice
  | unknown policy, settings => settings.unknown = policy
  | maxDepth levels, settings => settings.maxDepth = levels

/-- Members of an object that override settings in turn, amid others. -/
inductive NamedBy : List Override → List (Option String × Document) → Prop
  | nil : NamedBy [] []
  | override {override : Override} {rest : List Override} {document : Document}
      {members : List (Option String × Document)}
      (hvalue : override.IsValue document) (hrest : NamedBy rest members) :
      NamedBy (override :: rest) ((some override.name, document) :: members)
  | other {overrides : List Override} {name : String} {document : Document}
      {members : List (Option String × Document)} (hname : name ∉ allNames)
      (hrest : NamedBy overrides members) :
      NamedBy overrides ((some name, document) :: members)

/-! ### Drafts -/

/-- What a draft says of the setting. -/
def heldIn (draft : SettingsDraft) : Override → Option Override
  | extraction _ => draft.extraction.map extraction
  | unknown _ => draft.unknown.map unknown
  | maxDepth _ => draft.maxDepth.map maxDepth

def putIn (draft : SettingsDraft) : Override → SettingsDraft
  | extraction choice => { draft with extraction := some choice }
  | unknown policy => { draft with unknown := some policy }
  | maxDepth levels => { draft with maxDepth := some levels }

theorem heldIn_putIn (draft : SettingsDraft) (override other : Override) :
    other.heldIn (override.putIn draft) =
      if other.name = override.name then some override
        else other.heldIn draft := by
  cases override <;> cases other <;> simp [heldIn, putIn, name]

theorem heldIn_empty (override : Override) : override.heldIn {} = none := by
  cases override <;> rfl

theorem holdsIn_of_heldIn {override : Override} {draft : SettingsDraft}
    (h : override.heldIn draft = some override) :
    override.HoldsIn draft.settings := by
  cases override <;>
    obtain ⟨value, hdraft, hvalue⟩ := Option.map_eq_some_iff.1 h <;>
    cases hvalue <;>
    simp [HoldsIn, SettingsDraft.settings, hdraft]

theorem holdsIn_of_default {override : Override} {draft : SettingsDraft}
    (h : override.heldIn draft = none) (hdefault : override ∈ defaults) :
    override.HoldsIn draft.settings := by
  simp only [defaults, List.mem_cons, List.not_mem_nil, or_false] at hdefault
  rcases hdefault with rfl | rfl | rfl <;>
    simp [HoldsIn, SettingsDraft.settings, Option.map_eq_none_iff.1 h]

end Override

/-! ### Reading -/

theorem readExtraction_of_mem {text : String} {choice : Extraction}
    (h : (text, choice) ∈ Override.extractions) (path : List PathStep) :
    readExtraction path (.string (some text)) = .ok choice := by
  simp only [Override.extractions, List.mem_cons, Prod.mk.injEq,
    List.not_mem_nil, or_false] at h
  rcases h with ⟨rfl, rfl⟩ | ⟨rfl, rfl⟩ | ⟨rfl, rfl⟩ | ⟨rfl, rfl⟩ <;> rfl

theorem readUnknown_of_mem {text : String} {policy : UnknownPolicy}
    (h : (text, policy) ∈ Override.policies) (path : List PathStep) :
    readUnknown path (.string (some text)) = .ok policy := by
  simp only [Override.policies, List.mem_cons, Prod.mk.injEq, List.not_mem_nil,
    or_false] at h
  rcases h with ⟨rfl, rfl⟩ | ⟨rfl, rfl⟩ | ⟨rfl, rfl⟩ <;> rfl

theorem readOnce_bind {ε α β : Type} {value : α} {read : Except ε α}
    (h : read = .ok value) (repeated : ε) (slot : Option α)
    (next : Option α → Except ε β) :
    (readOnce repeated slot read >>= next) =
      if slot.isSome then .error repeated else next (some value) := by
  subst h
  cases slot <;> rfl

/-- A member that names a setting is taken up if the setting has not been named
before. -/
theorem readMember_override {override : Override} {document : Document}
    (hvalue : override.IsValue document) (draft : SettingsDraft) :
    readMember draft (some override.name, document) =
      if (override.heldIn draft).isSome then .error (.repeated [] override.name)
      else .ok (override.putIn draft) := by
  cases override with
  | extraction choice =>
      obtain ⟨text, htext, rfl⟩ := hvalue
      rw [Override.heldIn, Option.isSome_map]
      exact readOnce_bind (readExtraction_of_mem htext _) _ _ _
  | unknown policy =>
      obtain ⟨text, htext, rfl⟩ := hvalue
      rw [Override.heldIn, Option.isSome_map]
      exact readOnce_bind (readUnknown_of_mem htext _) _ _ _
  | maxDepth levels =>
      rw [Override.heldIn, Option.isSome_map]
      exact readOnce_bind (readDepth_of_isWhole hvalue _) _ _ _

theorem readMember_other {name : String} {document : Document}
    (hname : name ∉ Override.allNames) (hsound : document.sound = true)
    (draft : SettingsDraft) :
    readMember draft (some name, document) = .ok draft := by
  refine Except.bind_eq_ok_iff.2 ⟨name, rfl, ?_⟩
  split
  · exact absurd (by decide) hname
  · exact absurd (by decide) hname
  · exact absurd (by decide) hname
  · rw [Document.skip, if_pos hsound]
    rfl

/-! ### Settings that are named again -/

namespace Override

/-- None of the settings is named twice, or held in the draft already. -/
def NewTo (draft : SettingsDraft) (overrides : List Override) : Prop :=
  (overrides.map name).Nodup ∧
  ∀ override ∈ overrides, override.heldIn draft = none

/-- The setting is one that is named twice, or that is held in the draft
already. -/
def NamedAgain (draft : SettingsDraft) (overrides : List Override)
    (override : Override) : Prop :=
  override ∈ overrides ∧
  ((override.heldIn draft).isSome ∨
    1 < (overrides.map name).count override.name)

variable {draft : SettingsDraft} {override : Override} {rest : List Override}

theorem NewTo.cons (hslot : override.heldIn draft = none)
    (h : NewTo (override.putIn draft) rest) :
    NewTo draft (override :: rest) := by
  obtain ⟨hnodup, hnew⟩ := h
  have hother : ∀ other ∈ rest,
      other.name ≠ override.name ∧ other.heldIn draft = none := by
    intro other hmem
    have hnone := hnew other hmem
    rw [heldIn_putIn] at hnone
    split at hnone
    · cases hnone
    · next hname => exact ⟨hname, hnone⟩
  refine ⟨List.nodup_cons.2 ⟨fun hmem => ?_, hnodup⟩,
    List.forall_mem_cons.2 ⟨hslot, ?_⟩⟩
  · obtain ⟨other, hmem, hname⟩ := List.mem_map.1 hmem
    exact (hother other hmem).1 hname
  · exact fun other hmem => (hother other hmem).2

theorem NamedAgain.cons {other : Override}
    (h : NamedAgain (override.putIn draft) rest other) :
    NamedAgain draft (override :: rest) other := by
  obtain ⟨hmem, htwice⟩ := h
  refine ⟨List.mem_cons_of_mem override hmem, ?_⟩
  rw [heldIn_putIn] at htwice
  rw [List.map_cons, List.count_cons]
  by_cases hname : other.name = override.name
  · have hpos : 0 < (rest.map name).count other.name :=
      List.count_pos_iff.2 (List.mem_map_of_mem hmem)
    rw [if_pos (beq_iff_eq.2 hname.symm)]
    exact .inr (Nat.succ_lt_succ hpos)
  · rw [if_neg hname] at htwice
    exact htwice.imp_right fun h => Nat.lt_add_right _ h

/-- What is put into a draft in turn is held there at the end, and nothing else
is. -/
theorem heldIn_foldl_putIn {overrides : List Override}
    (hnodup : (overrides.map name).Nodup) (draft : SettingsDraft) :
    (∀ override ∈ overrides,
      override.heldIn (overrides.foldl putIn draft) = some override) ∧
    ∀ override : Override, override.name ∉ overrides.map name → override.heldIn
      (overrides.foldl putIn draft) = override.heldIn draft := by
  induction overrides using List.reverseRecOn with
  | nil => exact ⟨by simp, fun _ _ => rfl⟩
  | append_singleton overrides last ih =>
      rw [List.map_append, List.nodup_append] at hnodup
      obtain ⟨hnodup, -, hdisjoint⟩ := hnodup
      obtain ⟨hheld, hothers⟩ := ih hnodup
      simp only [List.foldl_append, List.foldl_cons, List.foldl_nil,
        heldIn_putIn]
      constructor
      · rw [List.forall_mem_append, List.forall_mem_singleton, if_pos rfl]
        refine ⟨fun override hmem => ?_, rfl⟩
        rw [if_neg
          (hdisjoint _ (List.mem_map_of_mem hmem) _ List.mem_cons_self)]
        exact hheld override hmem
      · intro override hname
        rw [List.map_append, List.mem_append, not_or, List.map_singleton,
          List.mem_singleton] at hname
        rw [if_neg hname.2]
        exact hothers override hname.1

end Override

/-- Members that name no setting again put their values into the draft.
Otherwise they are refused, with the name of a setting that is named again. -/
theorem foldlM_readMember {overrides : List Override}
    {members : List (Option String × Document)}
    (hnamed : Override.NamedBy overrides members)
    (hsound : ∀ member ∈ members, member.2.sound = true)
    (draft : SettingsDraft) :
    (Override.NewTo draft overrides ∧
      members.foldlM readMember draft =
        .ok (overrides.foldl Override.putIn draft)) ∨
    ∃ override, Override.NamedAgain draft overrides override ∧
      members.foldlM readMember draft =
        .error (.repeated [] override.name) := by
  induction hnamed generalizing draft with
  | nil => exact .inl ⟨⟨List.nodup_nil, by simp⟩, rfl⟩
  | other hname _ ih =>
      obtain ⟨hfirst, hsound⟩ := List.forall_mem_cons.1 hsound
      rw [List.foldlM_cons, readMember_other hname hfirst]
      exact ih hsound draft
  | @override override rest document members hvalue _ ih =>
      obtain ⟨-, hsound⟩ := List.forall_mem_cons.1 hsound
      rw [List.foldlM_cons, readMember_override hvalue]
      by_cases hslot : (override.heldIn draft).isSome = true
      · rw [if_pos hslot]
        exact .inr ⟨override, ⟨List.mem_cons_self, .inl hslot⟩, rfl⟩
      · rw [if_neg hslot]
        rcases ih hsound (override.putIn draft) with
          ⟨hnew, hread⟩ | ⟨other, hagain, hread⟩
        · exact .inl ⟨hnew.cons (Option.not_isSome_iff_eq_none.1 hslot), hread⟩
        · exact .inr ⟨other, hagain.cons, hread⟩

/-- From a text that overrides settings, each at most once, these are loaded
with the values they are given and all others with their defaults.  If a setting
is named again, nothing is loaded. -/
theorem ofJson_of_namedBy {overrides : List Override}
    {members : List (Option String × Document)} {text : String}
    (hnamed : Override.NamedBy overrides members)
    (hwritten : (Document.object members).WrittenAs text.toList) :
    ((overrides.map Override.name).Nodup →
      ∃ settings, ofJson text = .ok settings ∧
        (∀ override ∈ overrides, override.HoldsIn settings) ∧
        ∀ override ∈ Override.defaults,
          override.name ∉ overrides.map Override.name →
          override.HoldsIn settings) ∧
    (¬ (overrides.map Override.name).Nodup →
      ∃ name, 1 < (overrides.map Override.name).count name ∧
        ofJson text = .error (.mismatch [] (.duplicateField name))) := by
  have hsound :=
    Document.soundMembers_iff.1 (Document.sound_of_writtenAs hwritten)
  rw [ofJson, Document.ofText_of_writtenAs hwritten, ofDocument]
  rcases foldlM_readMember hnamed hsound {} with
    ⟨⟨hnodup, -⟩, hread⟩ | ⟨override, hagain, hread⟩
  · obtain ⟨hheld, hothers⟩ := Override.heldIn_foldl_putIn hnodup {}
    rw [hread]
    refine ⟨fun _ => ⟨_, rfl, ?_, ?_⟩, fun h => absurd hnodup h⟩
    · exact fun override hmem =>
        Override.holdsIn_of_heldIn (hheld override hmem)
    · intro override hdefault hname
      refine Override.holdsIn_of_default ?_ hdefault
      rw [hothers override hname, Override.heldIn_empty]
  · have htwice : 1 < (overrides.map Override.name).count override.name := by
      simpa [Override.heldIn_empty] using hagain.2
    rw [hread]
    refine ⟨fun hnodup => ?_, fun _ => ⟨override.name, htwice, rfl⟩⟩
    exact absurd (List.nodup_iff_count_le_one.1 hnodup override.name)
      (Nat.not_le.2 htwice)

/-- A name may be spelled with escapes, and a number may be as large as it can
be. -/
theorem ofJson_of_namedBy_escaped :
    (∃ settings, ofJson ("\x7b\"note\": [1e999, \x7b\"\\uD800\": null\x7d],\n" ++
        "\"max_depth\": 18446744073709551615, \"\": 0, " ++
        "\"field\\u005fextraction\": \"none\"\x7d") = .ok settings ∧
      settings.maxDepth = 18446744073709551615 ∧
      settings.extraction = .declaredOnly ∧ settings.unknown = .reject) ∧
    ∃ name, ofJson "\x7b\"max_depth\": 7, \"max_depth\": 7\x7d" =
      .error (.mismatch [] (.duplicateField name)) := by
  have hwhole {digits : List Nat} {n : Nat}
      (hdigits : Nat.ofDigits 10 digits.reverse = n) (hlt : n < 2 ^ 64) :
      IsWhole n (.number ⟨false, digits, none, none⟩) :=
    ⟨digits, rfl, hdigits, hlt⟩
  constructor
  · have hnamed : Override.NamedBy
        [.maxDepth 18446744073709551615, .extraction .declaredOnly]
        [(some "note", .list
          [.number ⟨false, [1], none, some 999⟩, .object [(none, .null)]]),
         (some "max_depth", .number
           ⟨false, [1, 8, 4, 4, 6, 7, 4, 4, 0, 7, 3, 7, 0, 9, 5, 5, 1, 6, 1, 5],
             none, none⟩), (some "", .number ⟨false, [0], none, none⟩),
         (some "field_extraction", .string (some "none"))] :=
      .other (by decide) (.override (hwhole (by decide) (by norm_num))
        (.other (by decide) (.override ⟨"none", by decide, rfl⟩ .nil)))
    refine
      ((ofJson_of_namedBy hnamed ((Document.writtenAs_iff_scan rfl).2 ?_)).1
        (by decide)).imp fun settings h => ⟨h.1, h.2.1 (.maxDepth _) (by simp),
          h.2.1 (.extraction .declaredOnly) (by simp),
          h.2.2 (.unknown .reject) (by simp [Override.defaults]) (by decide)⟩
    decide +kernel
  · have hnamed : Override.NamedBy [.maxDepth 7, .maxDepth 7]
        [(some "max_depth", .number ⟨false, [7], none, none⟩),
          (some "max_depth", .number ⟨false, [7], none, none⟩)] :=
      .override (hwhole (by decide) (by norm_num))
        (.override (hwhole (by decide) (by norm_num)) .nil)
    refine
      ((ofJson_of_namedBy hnamed ((Document.writtenAs_iff_scan rfl).2 ?_)).2
        (by decide)).imp fun name h => h.2
    decide +kernel

end Settings

end TypeShape
