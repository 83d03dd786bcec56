import TypeShape.TypeExpr

/-!
Canonical texts are uniquely readable.  What ends a name is a bracket or a
comma with a blank after it; a comma alone may belong to the name.  So although
not every canonical text can be read back, no two expressions have the same.
-/
namespace TypeShape

namespace TypeExpr

/-- Induction from the parameters of an expression to the expression. -/
@[elab_as_elim, induction_eliminator]
theorem inductionOnParams {motive : TypeExpr → Prop}
    (mk : ∀ name params dim,
      (∀ param ∈ params, motive param) → motive ⟨name, params, dim⟩)
    (e : TypeExpr) : motive e := by
  match e with
  | ⟨name, params, dim⟩ =>
      exact mk name params dim (fun param _ => inductionOnParams mk param)
termination_by sizeOf e

/-- What may stand after a canonical text inside another one. -/
def EndsExpr (tail : List Char) : Prop :=
  tail = [] ∨ (∃ rest, tail = '>' :: rest) ∨ ∃ rest, tail = ',' :: ' ' :: rest

/-- What may stand after a name inside a canonical text. -/
def EndsName (tail : List Char) : Prop :=
  EndsExpr tail ∨ (∃ rest, tail = '<' :: rest) ∨ ∃ rest, tail = '[' :: rest

theorem not_endsName_blank (rest : List Char) : ¬ EndsName (' ' :: rest) := by
  simp [EndsName, EndsExpr]

/-- Only a comma could be both in a name and after it, and then a blank shows
that it is after it. -/
theorem eq_nil_of_endsName {tail tail' extra : List Char}
    (htail : EndsName tail) (htail' : EndsName tail')
    (h : tail = extra ++ tail') (hextra : ∀ c ∈ extra, isNameChar c = true) :
    extra = [] := by
  cases extra with
  | nil => rfl
  | cons c more =>
      subst h
      have hc : isNameChar c = true := hextra c List.mem_cons_self
      rcases htail with
        (htail | ⟨rest, htail⟩ | ⟨rest, htail⟩) | ⟨rest, htail⟩ | ⟨rest, htail⟩
      · cases htail
      · cases htail
        exact absurd hc (by decide)
      · cases more with
        | nil =>
            have hblank : tail' = ' ' :: rest := (List.cons.inj htail).2
            exact absurd (hblank ▸ htail') (not_endsName_blank rest)
        | cons d more =>
            have hd : d = ' ' := (List.cons.inj (List.cons.inj htail).2).1
            have hname := hextra d (by simp)
            rw [hd] at hname
            exact absurd hname (by decide)
      · cases htail
        exact absurd hc (by decide)
      · cases htail
        exact absurd hc (by decide)

theorem name_append_inj {name name' : TypeName} {tail tail' : List Char}
    (htail : EndsName tail) (htail' : EndsName tail')
    (h : name.chars ++ tail = name'.chars ++ tail') :
    name = name' ∧ tail = tail' := by
  rcases List.append_eq_append_iff.1 h with
    ⟨extra, hchars, hrest⟩ | ⟨extra, hchars, hrest⟩
  · have hnil : extra = [] := eq_nil_of_endsName htail htail' hrest (fun c hc =>
      name'.isNameChar_of_mem (hchars ▸ List.mem_append_right _ hc))
    subst hnil
    exact ⟨TypeName.eq_of_chars_eq (by simpa using hchars.symm), hrest⟩
  · have hnil : extra = [] := eq_nil_of_endsName htail' htail hrest
      (fun c hc => name.isNameChar_of_mem (hchars ▸ List.mem_append_right _ hc))
    subst hnil
    exact ⟨TypeName.eq_of_chars_eq (by simpa using hchars), hrest.symm⟩

theorem dimBrackets_append_inj {dim dim' : Nat} {tail tail' : List Char}
    (htail : EndsExpr tail) (htail' : EndsExpr tail')
    (h : dimBrackets dim ++ tail = dimBrackets dim' ++ tail') :
    dim = dim' ∧ tail = tail' := by
  have hopen : ∀ rest, ¬ EndsExpr ('[' :: rest) := by simp [EndsExpr]
  induction dim generalizing dim' with
  | zero =>
      cases dim' with
      | zero => exact ⟨rfl, h⟩
      | succ dim' =>
          have htail₂ : tail = '[' :: ']' :: (dimBrackets dim' ++ tail') := h
          exact absurd (htail₂ ▸ htail) (hopen _)
  | succ dim ih =>
      cases dim' with
      | zero =>
          have htail₂ : tail' = '[' :: ']' :: (dimBrackets dim ++ tail) :=
            h.symm
          exact absurd (htail₂ ▸ htail') (hopen _)
      | succ dim' =>
          obtain ⟨rfl, hrest⟩ := ih (List.cons.inj (List.cons.inj h).2).2
          exact ⟨rfl, hrest⟩

theorem dimBrackets_append_ne_angle {dim : Nat} {tail : List Char}
    (htail : EndsExpr tail) (rest : List Char) :
    dimBrackets dim ++ tail ≠ '<' :: rest := by
  cases dim with
  | zero =>
      rcases htail with rfl | ⟨more, rfl⟩ | ⟨more, rfl⟩ <;> simp [dimBrackets]
  | succ dim => simp [dimBrackets]

theorem endsName_params (params : List TypeExpr) (dim : Nat) {tail : List Char}
    (htail : EndsExpr tail) :
    EndsName (renderParams params ++ (dimBrackets dim ++ tail)) := by
  cases params with
  | nil =>
      cases dim with
      | zero => exact Or.inl htail
      | succ dim => exact Or.inr (Or.inr ⟨_, rfl⟩)
  | cons first rest =>
      rw [renderParams_cons]
      exact Or.inr (Or.inl ⟨_, rfl⟩)

theorem endsExpr_renderRest (rest : List TypeExpr) (tail : List Char) :
    EndsExpr (renderRest rest ++ tail) := by
  cases rest with
  | nil => exact Or.inr (Or.inl ⟨_, rfl⟩)
  | cons next rest =>
      rw [renderRest_cons]
      exact Or.inr (Or.inr ⟨_, rfl⟩)

/-- The expression can be told from every other by its canonical text, also
when others follow that text. -/
def ReadsOff (e : TypeExpr) : Prop :=
  ∀ e' tail tail', EndsExpr tail → EndsExpr tail' →
    e.render ++ tail = e'.render ++ tail' → e = e' ∧ tail = tail'

theorem renderRest_append_inj {rest rest' : List TypeExpr}
    {tail tail' : List Char} (hrest : ∀ param ∈ rest, param.ReadsOff)
    (h : renderRest rest ++ tail = renderRest rest' ++ tail') :
    rest = rest' ∧ tail = tail' := by
  induction rest generalizing rest' with
  | nil =>
      cases rest' with
      | nil => exact ⟨rfl, (List.cons.inj h).2⟩
      | cons next' rest' => simp [renderRest_cons] at h
  | cons next rest ih =>
      cases rest' with
      | nil => simp [renderRest_cons] at h
      | cons next' rest' =>
          simp only [renderRest_cons, List.cons_append, List.append_assoc,
            List.cons.injEq, true_and] at h
          obtain ⟨rfl, htails⟩ := hrest next List.mem_cons_self next' _ _
            (endsExpr_renderRest rest tail) (endsExpr_renderRest rest' tail') h
          obtain ⟨rfl, htail⟩ :=
            ih (fun param hparam => hrest param (List.mem_cons_of_mem _ hparam))
              htails
          exact ⟨rfl, htail⟩

theorem renderParams_append_inj {params params' : List TypeExpr}
    {dim dim' : Nat} {tail tail' : List Char}
    (hparams : ∀ param ∈ params, param.ReadsOff) (htail : EndsExpr tail)
    (htail' : EndsExpr tail')
    (h : renderParams params ++ (dimBrackets dim ++ tail) =
      renderParams params' ++ (dimBrackets dim' ++ tail')) :
    params = params' ∧ dimBrackets dim ++ tail = dimBrackets dim' ++ tail' := by
  cases params with
  | nil =>
      cases params' with
      | nil => exact ⟨rfl, h⟩
      | cons first' rest' =>
          rw [renderParams_cons] at h
          exact absurd h (dimBrackets_append_ne_angle htail _)
  | cons first rest =>
      cases params' with
      | nil =>
          rw [renderParams_cons] at h
          exact absurd h.symm (dimBrackets_append_ne_angle htail' _)
      | cons first' rest' =>
          simp only [renderParams_cons, List.cons_append, List.append_assoc,
            List.cons.injEq, true_and] at h
          obtain ⟨rfl, hrests⟩ := hparams first List.mem_cons_self first' _ _
            (endsExpr_renderRest rest _) (endsExpr_renderRest rest' _) h
          obtain ⟨rfl, hdims⟩ := renderRest_append_inj
            (fun param hparam => hparams param (List.mem_cons_of_mem _ hparam))
            hrests
          exact ⟨rfl, hdims⟩

theorem readsOff (e : TypeExpr) : e.ReadsOff := by
  induction e with
  | mk name params dim ih =>
      rintro ⟨name', params', dim'⟩ tail tail' htail htail' h
      simp only [render_mk, List.append_assoc] at h
      obtain ⟨rfl, hparams⟩ :=
        name_append_inj (endsName_params params dim htail)
          (endsName_params params' dim' htail') h
      obtain ⟨rfl, hdims⟩ := renderParams_append_inj ih htail htail' hparams
      obtain ⟨rfl, rfl⟩ := dimBrackets_append_inj htail htail' hdims
      exact ⟨rfl, rfl⟩

/-- No two expressions have the same canonical text. -/
theorem signature_injective : Function.Injective signature := by
  intro e e' h
  have hrender : e.render = e'.render := String.ofList_injective h
  exact (e.readsOff e' [] [] (Or.inl rfl) (Or.inl rfl) (by rw [hrender])).1

end TypeExpr

end TypeShape
