import Mathlib.Data.List.Forall2

/-!
Steps that may fail, one after another.  All of them succeed if the whole does.
-/
namespace TypeShape

section Outcome

variable {ε α β : Type}

theorem Except.bind_eq_ok_iff {outcome : Except ε α} {next : α → Except ε β}
    {b : β} :
    outcome >>= next = .ok b ↔ ∃ a, outcome = .ok a ∧ next a = .ok b := by
  cases outcome with
  | error fault => simp [bind, Except.bind]
  | ok a => simp [bind, Except.bind]

theorem Except.mapM_eq_ok_iff {f : α → Except ε β} {items : List α}
    {results : List β} :
    items.mapM f = .ok results ↔
      List.Forall₂ (fun item result => f item = .ok result) items results := by
  induction items generalizing results with
  | nil => simp [pure, Except.pure, eq_comm]
  | cons item rest ih =>
      rw [List.mapM_cons, Except.bind_eq_ok_iff, List.forall₂_cons_left_iff]
      constructor
      · rintro ⟨first, hfirst, hrest⟩
        obtain ⟨others, hothers, hresults⟩ := Except.bind_eq_ok_iff.1 hrest
        cases hresults
        exact ⟨first, others, hfirst, ih.1 hothers, rfl⟩
      · rintro ⟨first, others, hfirst, hothers, rfl⟩
        exact ⟨first, hfirst,
          Except.bind_eq_ok_iff.2 ⟨others, ih.2 hothers, rfl⟩⟩

/-- In lists that are related member by member, each member of the second has a
partner in the first. -/
theorem exists_related_of_mem {R : α → β → Prop} {items : List α}
    {results : List β} {b : β} (h : List.Forall₂ R items results)
    (hb : b ∈ results) : ∃ a ∈ items, R a b := by
  induction h with
  | nil => cases hb
  | @cons a b' rest rest' hab _ ih =>
      rcases List.mem_cons.1 hb with rfl | hb
      · exact ⟨a, List.mem_cons_self, hab⟩
      · obtain ⟨partner, hpartner, hrelated⟩ := ih hb
        exact ⟨partner, List.mem_cons_of_mem a hpartner, hrelated⟩

theorem Except.exists_of_mem_foldlM {step : β → α → Except ε β} {items : List α}
    {start last : β} (h : items.foldlM step start = .ok last) {item : α}
    (hitem : item ∈ items) : ∃ before after, step before item = .ok after := by
  induction items generalizing start with
  | nil => cases hitem
  | cons first rest ih =>
      rw [List.foldlM_cons, Except.bind_eq_ok_iff] at h
      obtain ⟨next, hfirst, hrest⟩ := h
      rcases List.mem_cons.1 hitem with rfl | hitem
      · exact ⟨start, next, hfirst⟩
      · exact ih hrest hitem

/-- In a fold over members with different names, where each step adds its name
to those that the state stands for, the state stands for all of them at last. -/
theorem Except.foldlM_of_distinct {step : β → α → Except ε β}
    {nameOf : α → String} {state : List String → β} {members : List α}
    {seen : List String} (hdistinct : (members.map nameOf).Nodup)
    (hfresh : ∀ member ∈ members, nameOf member ∉ seen)
    (hstep : ∀ member ∈ members, ∀ seen, nameOf member ∉ seen →
      step (state seen) member = .ok (state (nameOf member :: seen))) :
    members.foldlM step (state seen) =
      .ok (state ((members.map nameOf).reverse ++ seen)) := by
  induction members generalizing seen with
  | nil => rfl
  | cons member rest ih =>
      obtain ⟨hnew, hrest⟩ := List.nodup_cons.1 hdistinct
      have hfresh' : ∀ other ∈ rest, nameOf other ∉ nameOf member :: seen := by
        intro other hother hmem
        rcases List.mem_cons.1 hmem with hsame | hseen
        · exact hnew (hsame ▸ List.mem_map_of_mem hother)
        · exact hfresh other (List.mem_cons_of_mem member hother) hseen
      have hlast := ih hrest hfresh'
        fun other hother => hstep other (List.mem_cons_of_mem _ hother)
      rw [List.foldlM_cons,
        hstep member List.mem_cons_self seen (hfresh member List.mem_cons_self)]
      rw [List.map_cons, List.reverse_cons, List.append_assoc]
      exact hlast

theorem exists_forall₂_of_forall {R : α → β → Prop} {items : List α}
    (h : ∀ item ∈ items, ∃ result, R item result) :
    ∃ results, List.Forall₂ R items results := by
  induction items with
  | nil => exact ⟨[], .nil⟩
  | cons item rest ih =>
      obtain ⟨result, hresult⟩ := h item List.mem_cons_self
      obtain ⟨results, hresults⟩ :=
        ih fun other hother => h other (List.mem_cons_of_mem _ hother)
      exact ⟨result :: results, .cons hresult hresults⟩

end Outcome

end TypeShape
