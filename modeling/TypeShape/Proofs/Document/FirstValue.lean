import Mathlib
import TypeShape.Catalog.Loading
import TypeShape.Proofs.Document.TokenEnd
import TypeShape.Proofs.Outcome
import TypeShape.Settings.Loading

/-!
Documents that are complete.  A document without fault that is a list or an
object ends with its closing bracket, so it is the document of every longer text
as well.  What is loaded is loaded from a document without fault, and so from
the first value of a text, whatever comes after it.
-/
namespace TypeShape

namespace Document

/-! ### Faults end up in the document -/

theorem soundItems_iff {items : List Document} :
    soundItems items = true ↔ ∀ item ∈ items, item.sound = true := by
  induction items with
  | nil => simp [soundItems]
  | cons item rest ih => simp [soundItems, ih]

theorem soundMembers_iff {members : List (Option String × Document)} :
    soundMembers members = true ↔
      ∀ member ∈ members, member.2.sound = true := by
  induction members with
  | nil => simp [soundMembers]
  | cons member rest ih => simp [soundMembers, ih]

theorem Frame.sound_of_plug {frame : Frame} {last : Document}
    (h : (frame.plug last).sound = true) : last.sound = true := by
  cases frame with
  | list items => exact soundItems_iff.1 h last (by simp)
  | object members => exact soundMembers_iff.1 h (none, last) (by simp)
  | member members key => exact soundMembers_iff.1 h (key, last) (by simp)

/-- What is put into the innermost container is part of the document. -/
theorem sound_of_plug {stack : List Frame} {last : Document}
    (h : (plug stack last).sound = true) : last.sound = true := by
  induction stack generalizing last with
  | nil => exact h
  | cons frame stack ih => exact Frame.sound_of_plug (ih h)

theorem not_sound_plug_broken (stack : List Frame) :
    ¬ (plug stack broken).sound = true :=
  fun h => Bool.false_ne_true (sound_of_plug h)

/-! ### The end of a container -/

def isContainer : Document → Bool
  | list _ | object _ => true
  | _ => false

/-- The machine is done with a value only where it is not inside a container. -/
theorem eq_of_settle {value document : Document} {stack : List Frame}
    (h : settle value stack = .done document) (hsound : document.sound = true) :
    document = value := by
  match stack, h with
  | [], h => exact (State.done.inj h).symm
  | .object members :: stack, h =>
    cases h
    exact absurd hsound (not_sound_plug_broken (.object members :: stack))

theorem not_sound_of_abandon {document : Document} {stack : List Frame}
    (h : abandon stack = .done document) : ¬ document.sound = true := by
  cases h
  exact not_sound_plug_broken stack

theorem not_isContainer_of_takeValue {token : Token} {document : Document}
    {stack : List Frame} (h : takeValue stack token = .done document)
    (hsound : document.sound = true) : document.isContainer = false := by
  unfold takeValue at h
  split at h
  · rw [eq_of_settle h hsound]; rfl
  · rw [eq_of_settle h hsound]; rfl
  · rw [eq_of_settle h hsound]; rfl
  · rw [eq_of_settle h hsound]; rfl
  · cases h
  · cases h
  · exact absurd hsound (not_sound_of_abandon h)

theorem not_sound_of_takeKey {members : List (Option String × Document)}
    {token : Token} {document : Document} {stack : List Frame}
    (h : takeKey members stack token = .done document) :
    ¬ document.sound = true := by
  unfold takeKey at h
  split at h
  · cases h
  · exact not_sound_of_abandon h

/-- A list or an object without fault is complete with a closing bracket. -/
theorem isClosing_of_take {phase : Phase} {stack : List Frame} {token : Token}
    {document : Document} (h : take phase stack token = .done document)
    (hsound : document.sound = true)
    (hcontainer : document.isContainer = true) : token.isClosing = true := by
  unfold take at h
  split at h
  · rw [not_isContainer_of_takeValue h hsound] at hcontainer
    cases hcontainer
  · rfl
  · rw [not_isContainer_of_takeValue h hsound] at hcontainer
    cases hcontainer
  · exact absurd hsound (not_sound_of_takeKey h)
  · rfl
  · exact absurd hsound (not_sound_of_takeKey h)
  · cases h
  · cases h
  · rfl
  · cases h
  · rfl
  · exact absurd hsound (not_sound_of_abandon h)

/-- The machine gives a list or an object without fault only after its closing
bracket. -/
theorem exists_closing_of_sound {tokens : List Token} {phase : Phase}
    {stack : List Frame}
    (hsound : (tokens.foldl State.step (.reading phase stack)).document.sound =
      true)
    (hcontainer :
      (tokens.foldl State.step (.reading phase stack)).document.isContainer =
        true) :
    ∃ before token after, tokens = before ++ token :: after ∧
      token.isClosing = true ∧
      (before ++ [token]).foldl State.step (.reading phase stack) =
        .done (tokens.foldl State.step (.reading phase stack)).document := by
  induction tokens generalizing phase stack with
  | nil => exact absurd hsound (not_sound_plug_broken stack)
  | cons token rest ih =>
      rw [List.foldl_cons] at hsound hcontainer ⊢
      cases hstep : State.step (.reading phase stack) token with
      | reading phase' stack' =>
          rw [hstep] at hsound hcontainer
          obtain ⟨before, closing, after, rfl, hclosing, hdone⟩ :=
            ih hsound hcontainer
          refine ⟨token :: before, closing, after, rfl, hclosing, ?_⟩
          rw [List.cons_append, List.foldl_cons, hstep, hdone]
      | done document =>
          rw [hstep, foldl_step_done] at hsound hcontainer
          refine ⟨[], token, rest, rfl,
            isClosing_of_take hstep hsound hcontainer, ?_⟩
          rw [foldl_step_done]
          exact hstep

/-- A list or an object without fault is the first value of the text, whatever
is appended. -/
theorem ofText_append {text : List Char} (hsound : (ofText text).sound = true)
    (hcontainer : (ofText text).isContainer = true) (more : List Char) :
    ofText (text ++ more) = ofText text := by
  obtain ⟨before, token, after, htokens, hclosing, hdone⟩ :=
    exists_closing_of_sound hsound hcontainer
  obtain ⟨after', hafter'⟩ := Token.scan_append htokens hclosing more
  rw [ofText, hafter', List.append_cons]
  exact ofTokens_append_of_done hdone after'

/-! ### What is loaded is without fault -/

mutual

/-- What can be kept is without fault. -/
theorem sound_of_keep? {levels : Nat} {document : Document} {value : Json}
    (h : document.keep? levels = some value) : document.sound = true := by
  match document, levels, h with
  | null, _, _ => rfl
  | bool _, _, _ => rfl
  | number _, _, _ => rfl
  | string _, _, _ => rfl
  | list items, levels + 1, h =>
    obtain ⟨values, hitems, -⟩ := Option.map_eq_some_iff.1 h
    exact soundItems_of_keepItems? hitems
  | object members, levels + 1, h =>
    obtain ⟨values, hmembers, -⟩ := Option.map_eq_some_iff.1 h
    exact soundMembers_of_keepMembers? hmembers

theorem soundItems_of_keepItems? {levels : Nat} {items : List Document}
    {values : List Json} (h : keepItems? levels items = some values) :
    soundItems items = true := by
  match items, h with
  | [], _ => rfl
  | item :: rest, h =>
    simp only [keepItems?, Option.bind_eq_bind, Option.bind_eq_some_iff] at h
    obtain ⟨value, hitem, others, hrest, -⟩ := h
    simp [soundItems, sound_of_keep? hitem, soundItems_of_keepItems? hrest]

theorem soundMembers_of_keepMembers? {levels : Nat}
    {members : List (Option String × Document)} {values : List (String × Json)}
    (h : keepMembers? levels members = some values) :
    soundMembers members = true := by
  match members, h with
  | [], _ => rfl
  | (some name, document) :: rest, h =>
    simp only [keepMembers?, Option.bind_eq_bind, Option.bind_eq_some_iff] at h
    obtain ⟨value, hvalue, others, hrest, -⟩ := h
    simp [soundMembers, sound_of_keep? hvalue,
      soundMembers_of_keepMembers? hrest]

end

theorem sound_of_keep {levels : Nat} {document : Document} {value : Json}
    (h : document.keep levels = .ok value) : document.sound = true := by
  unfold keep at h
  split at h
  · cases h
  · next hkeep => exact sound_of_keep? hkeep

theorem sound_of_skip {document : Document} (h : document.skip = .ok ()) :
    document.sound = true := by
  unfold skip at h
  split at h
  · next hsound => exact hsound
  · cases h

theorem unexpected_ne_ok {α : Type} {path : List PathStep} {document : Document}
    {expected : String} {value : α} :
    document.unexpected path expected ≠ .ok value := by
  unfold unexpected
  split
  · exact fun h => by cases h
  · exact fun h => by cases h

theorem sound_of_choice {α : Type} {path : List PathStep}
    {ofText? : String → Option α} {known : List String} {document : Document}
    {value : α} (h : document.choice path ofText? known = .ok value) :
    document.sound = true := by
  unfold choice at h
  split at h
  · next hfound =>
      cases document with
      | string text => rfl
      | number numeral =>
          obtain ⟨_, -, hstring⟩ := Option.map_eq_some_iff.1 hfound
          cases hstring
      | _ => cases hfound
  · exact absurd h unexpected_ne_ok

end Document

theorem exists_of_readOnce {ε α : Type} {repeated : ε} {slot slot' : Option α}
    {read : Except ε α} (h : readOnce repeated slot read = .ok slot') :
    ∃ value, read = .ok value := by
  unfold readOnce at h
  split at h
  · cases h
  · match read, h with
    | .ok value, _ => exact ⟨value, rfl⟩

namespace Declaration

theorem sound_of_readMember {path : List PathStep} {draft draft' : Draft}
    {member : Option String × Document}
    (h : readMember path draft member = .ok draft') :
    member.2.sound = true := by
  obtain ⟨name, -, hread⟩ := Except.bind_eq_ok_iff.1 h
  split at hread
  · obtain ⟨kind, hkind, -⟩ := Except.bind_eq_ok_iff.1 hread
    obtain ⟨value, hvalue⟩ := exists_of_readOnce hkind
    exact Document.sound_of_choice hvalue
  · obtain ⟨value, hvalue, -⟩ := Except.bind_eq_ok_iff.1 hread
    exact Document.sound_of_keep hvalue

theorem sound_of_ofDocument {path : List PathStep} {document : Document}
    {decl : Declaration} (h : ofDocument path document = .ok decl) :
    document.sound = true := by
  unfold ofDocument at h
  split at h
  · next members =>
      obtain ⟨draft, hdraft, -⟩ := Except.bind_eq_ok_iff.1 h
      refine Document.soundMembers_iff.2 fun member hmember => ?_
      obtain ⟨before, after, hread⟩ :=
        Except.exists_of_mem_foldlM hdraft hmember
      exact sound_of_readMember hread
  · cases h
  · next kind items =>
      obtain ⟨kind', hkind, hrest⟩ := Except.bind_eq_ok_iff.1 h
      obtain ⟨values, hvalues, -⟩ := Except.bind_eq_ok_iff.1 hrest
      refine Document.soundItems_iff.2 (List.forall_mem_cons.2
        ⟨Document.sound_of_choice hkind, fun item hitem => ?_⟩)
      obtain ⟨value, -, hvalue⟩ :=
        exists_related_of_mem (Except.mapM_eq_ok_iff.1 hvalues).flip hitem
      exact Document.sound_of_keep hvalue
  · exact absurd h Document.unexpected_ne_ok

end Declaration

namespace Catalog

theorem sound_of_readTypes {path : List PathStep} {document : Document}
    {types : Table Declaration} (h : readTypes path document = .ok types) :
    document.sound = true := by
  unfold readTypes at h
  split at h
  · refine Document.soundMembers_iff.2 fun member hmember => ?_
    obtain ⟨before, after, hread⟩ := Except.exists_of_mem_foldlM h hmember
    obtain ⟨name, -, hdecl⟩ := Except.bind_eq_ok_iff.1 hread
    obtain ⟨decl, hdecl, -⟩ := Except.bind_eq_ok_iff.1 hdecl
    exact Declaration.sound_of_ofDocument hdecl
  · exact absurd h Document.unexpected_ne_ok

theorem sound_of_readMember {types types' : Option (Table Declaration)}
    {member : Option String × Document}
    (h : readMember types member = .ok types') : member.2.sound = true := by
  obtain ⟨name, -, hread⟩ := Except.bind_eq_ok_iff.1 h
  split at hread
  · obtain ⟨value, hvalue⟩ := exists_of_readOnce hread
    exact sound_of_readTypes hvalue
  · obtain ⟨_, hskip, _⟩ := Except.bind_eq_ok_iff.1 hread
    exact Document.sound_of_skip hskip

theorem sound_of_ofDocument {document : Document} {catalog : Catalog}
    (h : ofDocument document = .ok catalog) :
    document.sound = true ∧ document.isContainer = true := by
  unfold ofDocument at h
  split at h
  · obtain ⟨types, htypes, -⟩ := Except.bind_eq_ok_iff.1 h
    refine ⟨Document.soundMembers_iff.2 fun member hmember => ?_, rfl⟩
    obtain ⟨before, after, hread⟩ := Except.exists_of_mem_foldlM htypes hmember
    exact sound_of_readMember hread
  · exact ⟨rfl, rfl⟩
  · next types rest =>
      obtain ⟨table, htable, hrest⟩ := Except.bind_eq_ok_iff.1 h
      -- an item after the types would have been refused
      cases rest with
      | nil =>
          exact ⟨by
            simp
              [Document.sound, Document.soundItems, sound_of_readTypes htable],
            rfl⟩
      | cons item rest => cases hrest
  · exact absurd h Document.unexpected_ne_ok

end Catalog

namespace Settings

theorem sound_of_readPolicy {α : Type} {path : List PathStep}
    {ofText? : String → Option α} {known : List String} {document : Document}
    {policy : α} (h : readPolicy path ofText? known document = .ok policy) :
    document.sound = true := by
  unfold readPolicy at h
  split at h
  · rfl
  · next key value rest =>
      obtain ⟨name, -, hname⟩ := Except.bind_eq_ok_iff.1 h
      obtain ⟨choice, -, hvalue⟩ := Except.bind_eq_ok_iff.1 hname
      -- the only member has the value `null`
      cases value with
      | null =>
          cases rest with
          | nil => rfl
          | cons member rest => cases hvalue
      | _ =>
          obtain ⟨_, hunexpected, _⟩ := Except.bind_eq_ok_iff.1 hvalue
          exact absurd hunexpected Document.unexpected_ne_ok
  · cases h

theorem sound_of_readDepth {path : List PathStep} {document : Document}
    {depth : Nat} (h : readDepth path document = .ok depth) :
    document.sound = true := by
  unfold readDepth at h
  split at h
  · next hfound =>
      cases document with
      | number numeral => rfl
      | string text =>
          obtain ⟨_, -, hnumber⟩ := Option.map_eq_some_iff.1 hfound
          cases hnumber
      | _ => cases hfound
  · cases h
  · exact absurd h Document.unexpected_ne_ok

theorem sound_of_readMember {draft draft' : SettingsDraft}
    {member : Option String × Document}
    (h : readMember draft member = .ok draft') : member.2.sound = true := by
  obtain ⟨name, -, hread⟩ := Except.bind_eq_ok_iff.1 h
  split at hread
  · obtain ⟨slot, hslot, -⟩ := Except.bind_eq_ok_iff.1 hread
    obtain ⟨value, hvalue⟩ := exists_of_readOnce hslot
    exact sound_of_readPolicy hvalue
  · obtain ⟨slot, hslot, -⟩ := Except.bind_eq_ok_iff.1 hread
    obtain ⟨value, hvalue⟩ := exists_of_readOnce hslot
    exact sound_of_readPolicy hvalue
  · obtain ⟨slot, hslot, -⟩ := Except.bind_eq_ok_iff.1 hread
    obtain ⟨value, hvalue⟩ := exists_of_readOnce hslot
    exact sound_of_readDepth hvalue
  · obtain ⟨_, hskip, _⟩ := Except.bind_eq_ok_iff.1 hread
    exact Document.sound_of_skip hskip

theorem exists_of_readItem? {α : Type} {index : Nat} {items : List Document}
    {read : List PathStep → Document → Except LoadFault α} {slot : Option α}
    (h : readItem? index items read = .ok slot) {item : Document}
    (hitem : items[index]? = some item) :
    ∃ value, read [.item index] item = .ok value := by
  rw [readItem?, hitem] at h
  match hread : read [.item index] item with
  | .ok value => exact ⟨value, rfl⟩
  | .error fault =>
    simp only [hread] at h
    cases h

theorem sound_of_readItems {items : List Document} {draft : SettingsDraft}
    (h : readItems items = .ok draft) : Document.soundItems items = true := by
  obtain ⟨extraction, hextraction, h⟩ := Except.bind_eq_ok_iff.1 h
  obtain ⟨unknown, hunknown, h⟩ := Except.bind_eq_ok_iff.1 h
  obtain ⟨maxDepth, hmaxDepth, h⟩ := Except.bind_eq_ok_iff.1 h
  split at h
  · cases h
  · next hlength =>
      refine Document.soundItems_iff.2 fun item hitem => ?_
      obtain ⟨index, hfound⟩ := List.mem_iff_getElem?.1 hitem
      have hindex : index < items.length :=
        (List.getElem?_eq_some_iff.1 hfound).1
      match index, hfound, hindex with
      | 0, hfound, _ =>
        obtain ⟨_, hread⟩ := exists_of_readItem? hextraction hfound
        exact sound_of_readPolicy hread
      | 1, hfound, _ =>
        obtain ⟨_, hread⟩ := exists_of_readItem? hunknown hfound
        exact sound_of_readPolicy hread
      | 2, hfound, _ =>
        obtain ⟨_, hread⟩ := exists_of_readItem? hmaxDepth hfound
        exact sound_of_readDepth hread
      | index + 3, _, hindex => omega

theorem sound_of_ofDocument {document : Document} {settings : Settings}
    (h : ofDocument document = .ok settings) :
    document.sound = true ∧ document.isContainer = true := by
  unfold ofDocument at h
  split at h
  · obtain ⟨draft, hdraft, -⟩ := Except.bind_eq_ok_iff.1 h
    refine ⟨Document.soundMembers_iff.2 fun member hmember => ?_, rfl⟩
    obtain ⟨before, after, hread⟩ := Except.exists_of_mem_foldlM hdraft hmember
    exact sound_of_readMember hread
  · obtain ⟨draft, hdraft, -⟩ := Except.bind_eq_ok_iff.1 h
    exact ⟨sound_of_readItems hdraft, rfl⟩
  · exact absurd h Document.unexpected_ne_ok

end Settings

/-! ### What follows the first value -/

/-- The document of a text from which something is loaded stays the same if more
is appended to the text. -/
theorem Document.ofText_toList_append {text : String}
    (h : (ofText text.toList).sound = true ∧
      (ofText text.toList).isContainer = true)
    (more : String) : ofText (text ++ more).toList = ofText text.toList := by
  rw [String.toList_append, ofText_append h.1 h.2]

/-- A catalog or settings that are loaded from a text are loaded from every
longer text that starts with it, whatever comes after it. -/
theorem ofJson_append_eq_ok (text more : String) :
    (∀ catalog, Catalog.ofJson text = .ok catalog →
      Catalog.ofJson (text ++ more) = .ok catalog) ∧
    (∀ settings, Settings.ofJson text = .ok settings →
      Settings.ofJson (text ++ more) = .ok settings) := by
  constructor
  · intro catalog h
    rw [Catalog.ofJson,
      Document.ofText_toList_append (Catalog.sound_of_ofDocument h)]
    exact h
  · intro settings h
    rw [Settings.ofJson,
      Document.ofText_toList_append (Settings.sound_of_ofDocument h)]
    exact h

/-- What follows may be no JSON at all. -/
theorem ofJson_append_eq_ok_points :
    Catalog.ofJson
      ("\x7b\"types\": \x7b\"a.P\": [\"map\"]\x7d\x7d" ++ ", \x7b\"") =
      .ok (Catalog.empty.declare "a.P" .mapping) ∧
    Settings.ofJson ("[\"none\"]" ++ "\"ignore\"]") =
      .ok { extraction := .declaredOnly } := by
  constructor
  · exact (ofJson_append_eq_ok _ _).1 _ (by cbv)
  · exact (ofJson_append_eq_ok _ _).2 _ (by cbv)

end TypeShape
