import Mathlib
import TypeShape.Catalog.Loading
import TypeShape.Proofs.Outcome

/-!
Objects that say what they have to.  Each of the clauses that such an object
says is a member with a name of its own, the members stand in any order, and a
clause may be left out where it says what goes without saying.  A reader that
keeps the members and fills in one slot for each name has the slots of all that
is said in the end.
-/
namespace TypeShape

/-! ### The form -/

/-- A thing that an object says: under which name, with which values, and
whether it may be left out. -/
structure Clause where
  name : String
  Admits : Document → Prop
  MayOmit : Prop

/-- Members that say clauses, each once at most. -/
structure SaidBy (clauses : List Clause)
    (members : List (Option String × Document)) : Prop where
  distinct : (members.map Prod.fst).Nodup
  allowed : ∀ member ∈ members, ∃ clause ∈ clauses,
    member.1 = some clause.name ∧ clause.Admits member.2
  complete :
    ∀ clause ∈ clauses, some clause.name ∈ members.map Prod.fst ∨ clause.MayOmit

/-- A document that is an object of such members. -/
def Describes (clauses : List Clause) (document : Document) : Prop :=
  ∃ members, document = .object members ∧ SaidBy clauses members

def IsText (text : String) (document : Document) : Prop :=
  document = .string (some text)

def IsListOf {α : Type} (Is : α → Document → Prop) (values : List α)
    (document : Document) : Prop :=
  ∃ items, document = .list items ∧ List.Forall₂ Is values items

/-- A clause that must be said is said by one member, and the other members say
the other clauses. -/
theorem SaidBy.exists_of_required {clause : Clause} {clauses : List Clause}
    {members : List (Option String × Document)}
    (h : SaidBy (clause :: clauses) members) (hrequired : ¬ clause.MayOmit)
    (hnames : ∀ other ∈ clauses, other.name ≠ clause.name) :
    ∃ before document after,
      members = before ++ (some clause.name, document) :: after ∧
      clause.Admits document ∧
      SaidBy clauses (before ++ after) ∧
      ∀ member ∈ before ++ after, member.1 ≠ some clause.name := by
  obtain ⟨hdistinct, hallowed, hcomplete⟩ := h
  have hthere := (hcomplete clause List.mem_cons_self).resolve_right hrequired
  obtain ⟨⟨key, document⟩, hmember, rfl⟩ := List.mem_map.1 hthere
  obtain ⟨before, after, rfl⟩ := List.append_of_mem hmember
  have hperm : (before ++ (some clause.name, document) :: after).Perm
      ((some clause.name, document) :: (before ++ after)) := List.perm_middle
  obtain ⟨hnew, hdistinct'⟩ :=
    List.nodup_cons.1 ((hperm.map Prod.fst).nodup_iff.1 hdistinct)
  have hother : ∀ member ∈ before ++ after, member.1 ≠ some clause.name := by
    intro member hmem hsame
    exact hnew (List.mem_map.2 ⟨member, hmem, hsame⟩)
  refine ⟨before, document, after, rfl, ?_, ⟨hdistinct', ?_, ?_⟩, hother⟩
  · obtain ⟨found, hfound, hname, hadmits⟩ := hallowed _ hmember
    rcases List.mem_cons.1 hfound with rfl | hfound
    · exact hadmits
    · exact absurd (Option.some.inj hname).symm (hnames found hfound)
  · intro member hmem
    obtain ⟨found, hfound, hname, hadmits⟩ :=
      hallowed member (hperm.mem_iff.2 (List.mem_cons_of_mem _ hmem))
    rcases List.mem_cons.1 hfound with rfl | hfound
    · exact absurd hname (hother member hmem)
    · exact ⟨found, hfound, hname, hadmits⟩
  · intro other hmem
    refine (hcomplete other (List.mem_cons_of_mem _ hmem)).imp_left
      fun hthere => ?_
    have hthere' := (hperm.map Prod.fst).mem_iff.1 hthere
    refine (List.mem_cons.1 hthere').resolve_left fun hsame => ?_
    exact hnames other hmem (Option.some.inj hsame)

/-! ### Reading what is kept -/

/-- A document from which a value is read once it has been kept. -/
def Reads {α : Type} (levels : Nat) (read : Json → Except Mismatch α)
    (document : Document) (value : α) : Prop :=
  ∃ json, document.keep? levels = some json ∧ read json = .ok value

/-- A member as it is kept. -/
def Kept (levels : Nat) (member : Option String × Document)
    (kept : String × Json) : Prop :=
  member.1 = some kept.1 ∧ member.2.keep? levels = some kept.2

theorem keepItems?_of_forall₂ {levels : Nat} {items : List Document}
    {values : List Json}
    (h : List.Forall₂ (fun item value => item.keep? levels = some value) items
      values) : Document.keepItems? levels items = some values := by
  induction h with
  | nil => rfl
  | cons hitem _ ih => simp [Document.keepItems?, hitem, ih]

theorem keepMembers?_of_forall₂ {levels : Nat}
    {members : List (Option String × Document)} {kept : List (String × Json)}
    (h : List.Forall₂ (Kept levels) members kept) :
    Document.keepMembers? levels members = some kept := by
  induction h with
  | nil => rfl
  | @cons member kept members rest hmember _ ih =>
      obtain ⟨key, document⟩ := member
      obtain ⟨rfl, hdocument⟩ := hmember
      simp [Document.keepMembers?, hdocument, ih]

theorem keep?_object {levels : Nat} {members : List (Option String × Document)}
    {kept : List (String × Json)}
    (h : List.Forall₂ (Kept levels) members kept) :
    (Document.object members).keep? (levels + 1) = some (.object kept) := by
  rw [Document.keep?, keepMembers?_of_forall₂ h, Option.map_some]

theorem IsText.reads {text : String} {document : Document}
    (h : IsText text document) (levels : Nat) :
    Reads levels Json.readString document text := by
  cases h
  exact ⟨.string text, by simp [Document.keep?], rfl⟩

theorem IsListOf.reads {α : Type} {Is : α → Document → Prop} {levels : Nat}
    {read : Json → Except Mismatch α}
    (hread : ∀ value document,
      Is value document → Reads levels read document value)
    {values : List α} {document : Document} (h : IsListOf Is values document) :
    Reads (levels + 1) (Json.readList read) document values := by
  obtain ⟨items, rfl, hitems⟩ := h
  have hkept : ∃ kept, List.Forall₂
      (fun item value => item.keep? levels = some value) items kept ∧
      List.Forall₂ (fun json value => read json = .ok value) kept values := by
    induction hitems with
    | nil => exact ⟨[], .nil, .nil⟩
    | cons hitem _ ih =>
        obtain ⟨json, hkeep, hjson⟩ := hread _ _ hitem
        obtain ⟨kept, hkept, hvalues⟩ := ih
        exact ⟨json :: kept, .cons hkeep hkept, .cons hjson hvalues⟩
  obtain ⟨kept, hkept, hvalues⟩ := hkept
  refine ⟨.list kept, ?_, Except.mapM_eq_ok_iff.2 hvalues⟩
  rw [Document.keep?, keepItems?_of_forall₂ hkept, Option.map_some]

/-! ### Slots -/

/-- What has been read under a name, if the name is among those that have been
met. -/
def slot {α : Type} (seen : List String) (name : String) (value : α) :
    Option α :=
  if name ∈ seen then some value else none

section Slot

variable {α : Type} {seen : List String} {name other : String} {value : α}

@[simp] theorem slot_cons_self : slot (name :: seen) name value = some value :=
  if_pos List.mem_cons_self

theorem slot_cons_of_ne (h : name ≠ other) :
    slot (other :: seen) name value = slot seen name value := by
  simp [slot, h]

theorem slot_of_mem (h : name ∈ seen) : slot seen name value = some value :=
  if_pos h

theorem getD_slot {default : α} (h : name ∈ seen ∨ value = default) :
    (slot seen name value).getD default = value := by
  by_cases hmem : name ∈ seen
  · rw [slot_of_mem hmem, Option.getD_some]
  · rw [slot, if_neg hmem, Option.getD_none, h.resolve_left hmem]

theorem readOnce_slot {ε : Type} {repeated : ε} {read : Except ε α}
    (hfresh : name ∉ seen) (hread : read = .ok value) :
    readOnce repeated (slot seen name value) read =
      .ok (slot (name :: seen) name value) := by
  rw [slot, if_neg hfresh, slot_cons_self, hread]
  rfl

end Slot

/-! ### Reading an object -/

/-- A clause that a reader can take in: whatever says it can be kept, and is
read into its slot the first time. -/
def Clause.TakenBy {σ : Type} (clause : Clause) (levels : Nat)
    (step : σ → String × Json → Except Mismatch σ) (state : List String → σ) :
    Prop :=
  ∀ document,
    clause.Admits document → ∃ json, document.keep? levels = some json ∧
      ∀ seen, clause.name ∉ seen → step (state seen) (clause.name, json) =
        .ok (state (clause.name :: seen))

theorem Clause.takenBy_of_reads {σ α : Type} {clause : Clause} {levels : Nat}
    {step : σ → String × Json → Except Mismatch σ} {state : List String → σ}
    {read : Json → Except Mismatch α} {value : α}
    (hreads : ∀ document,
      clause.Admits document → Reads levels read document value)
    (hstep : ∀ json, read json = .ok value → ∀ seen, clause.name ∉ seen → step
      (state seen) (clause.name, json) = .ok (state (clause.name :: seen))) :
    clause.TakenBy levels step state := by
  intro document hdocument
  obtain ⟨json, hkeep, hread⟩ := hreads document hdocument
  exact ⟨json, hkeep, hstep json hread⟩

/-- If each clause can be taken in, whatever says the clauses is kept and read,
with nothing left out that must be there. -/
theorem SaidBy.exists_kept {σ : Type} {clauses : List Clause}
    {members : List (Option String × Document)} (hsaid : SaidBy clauses members)
    {levels : Nat} {step : σ → String × Json → Except Mismatch σ}
    {state : List String → σ}
    (htaken : ∀ clause ∈ clauses, clause.TakenBy levels step state) :
    ∃ kept seen, List.Forall₂ (Kept levels) members kept ∧
      kept.foldlM step (state []) = .ok (state seen) ∧
      ∀ clause ∈ clauses, clause.name ∈ seen ∨ clause.MayOmit := by
  have hmembers : ∀ member ∈ members, ∃ kept, Kept levels member kept ∧
      ∀ seen, kept.1 ∉ seen →
        step (state seen) kept = .ok (state (kept.1 :: seen)) := by
    intro member hmember
    obtain ⟨clause, hclause, hname, hvalue⟩ := hsaid.allowed member hmember
    obtain ⟨json, hkeep, hstep⟩ := htaken clause hclause member.2 hvalue
    exact ⟨(clause.name, json), ⟨hname, hkeep⟩, hstep⟩
  obtain ⟨kept, hkept⟩ := exists_forall₂_of_forall hmembers
  have hnames : members.map Prod.fst = (kept.map Prod.fst).map some := by
    clear hmembers hsaid
    induction hkept with
    | nil => rfl
    | cons hmember _ ih =>
        rw [List.map_cons, List.map_cons, List.map_cons, hmember.1.1, ih]
  have hdistinct : (kept.map Prod.fst).Nodup := by
    have h := hsaid.distinct
    rw [hnames] at h
    exact h.of_map some
  have hsteps : ∀ member ∈ kept, ∀ seen, member.1 ∉ seen →
      step (state seen) member = .ok (state (member.1 :: seen)) := by
    intro member hmember
    obtain ⟨_, -, -, hstep⟩ := exists_related_of_mem hkept hmember
    exact hstep
  refine ⟨kept, (kept.map Prod.fst).reverse ++ [], hkept.imp fun _ _ h => h.1,
    Except.foldlM_of_distinct hdistinct (fun _ _ => List.not_mem_nil) hsteps,
    ?_⟩
  intro clause hclause
  refine (hsaid.complete clause hclause).imp_left fun hmem => ?_
  rw [hnames, List.mem_map] at hmem
  obtain ⟨name, hname, hsome⟩ := hmem
  rw [List.append_nil, List.mem_reverse, ← Option.some.inj hsome]
  exact hname

end TypeShape
