import Mathlib
import TypeShape.Proofs.TypeExpr.Grammar

/-!
What reading keeps of a text.  Reading is lenient: lists may be left open, and
there may be square brackets that do not count.  Still a text that is read and
the canonical text of what it is read as are the same but for white space,
square brackets and closing angle brackets: no name, comma or list is lost, made
up or moved.  So what a text is read as can be counted in the text.
-/
namespace TypeShape

open Text

/-- A text without its white space, its square brackets and its closing angle
brackets. -/
def skeleton (text : List Char) : List Char :=
  text.filter fun c => isNameChar c || c == '<'

@[simp] theorem skeleton_append (first second : List Char) :
    skeleton (first ++ second) = skeleton first ++ skeleton second :=
  List.filter_append ..

@[simp] theorem skeleton_cons_open (text : List Char) :
    skeleton ('<' :: text) = '<' :: skeleton text := rfl

@[simp] theorem skeleton_cons_comma (text : List Char) :
    skeleton (',' :: text) = ',' :: skeleton text := rfl

theorem skeleton_eq_nil {text : List Char}
    (h : ∀ c ∈ text, isNameChar c = false ∧ c ≠ '<') : skeleton text = [] := by
  rw [skeleton, List.filter_eq_nil_iff]
  intro c hc
  simp [h c hc]

theorem skeleton_joinPieces (first : List Char) (rest : List (List Char)) :
    skeleton (joinPieces first rest) =
      joinPieces (skeleton first) (rest.map skeleton) := by
  induction rest generalizing first with
  | nil => rw [List.map_nil, joinPieces_nil, joinPieces_nil]
  | cons second rest ih =>
      rw [List.map_cons, joinPieces_cons, joinPieces_cons, skeleton_append,
        skeleton_cons_comma, ih]

theorem map_eq_map_of_forall₂ {α β γ : Type} {f : α → γ} {g : β → γ}
    {items : List α} {results : List β}
    (h : List.Forall₂ (fun item result => f item = g result) items results) :
    items.map f = results.map g := by
  induction h with
  | nil => rfl
  | cons hhead _ ih => rw [List.map_cons, List.map_cons, hhead, ih]

/-- What is left out of a skeleton does not matter for the count of what is
kept. -/
theorem count_skeleton {c : Char} (hc : (isNameChar c || c == '<') = true)
    (text : List Char) : (skeleton text).count c = text.count c :=
  List.count_filter hc

/-- A character of a name, but for the comma, which may also stand between
parameters. -/
def isWordChar (c : Char) : Bool :=
  !isBlank c && !isBracket c && c != ','

theorem isWordChar_eq (c : Char) : isWordChar c = (isNameChar c && c != ',') :=
  rfl

theorem isWordChar_of_isNameChar {c : Char} (h : isNameChar c = true) :
    isWordChar c = (c != ',') := by
  rw [isWordChar_eq, h, Bool.true_and]

theorem filter_skeleton (text : List Char) :
    (skeleton text).filter isWordChar = text.filter isWordChar := by
  rw [skeleton, List.filter_filter]
  apply List.filter_congr
  intro c _
  by_cases hc : isNameChar c = true
  · rw [hc, Bool.true_or, Bool.and_true]
  · rw [isWordChar_eq, Bool.eq_false_iff.2 hc, Bool.false_and, Bool.false_and]

namespace TypeExpr

theorem skeleton_blanks {text : List Char} (h : ∀ c ∈ text, isBlank c = true) :
    skeleton text = [] := by
  apply skeleton_eq_nil
  intro c hc
  refine ⟨by simp [isNameChar, h c hc], ?_⟩
  rintro rfl
  exact absurd (h _ hc) (by decide)

@[simp] theorem skeleton_dimBrackets (dim : Nat) :
    skeleton (dimBrackets dim) = [] := by
  apply skeleton_eq_nil
  intro c hc
  rcases eq_bracket_of_mem_dimBrackets hc with rfl | rfl <;> decide

@[simp] theorem skeleton_name (name : TypeName) :
    skeleton name.chars = name.chars := by
  apply List.filter_eq_self.2
  intro c hc
  simp [name.isNameChar_of_mem hc]

theorem skeleton_tail {tail : List Char} {dim : Nat}
    (h : tail = [] ∨ tail = '>' :: dimBrackets dim) : skeleton tail = [] := by
  rcases h with rfl | rfl
  · rfl
  · exact skeleton_dimBrackets dim

/-- The list of some parameters has the skeleton of pieces that have the
parameters' skeletons. -/
theorem skeleton_renderParams {first : List Char} {rest : List (List Char)}
    {params : List TypeExpr}
    (h : List.Forall₂
      (fun piece param => skeleton piece = skeleton param.render)
      (first :: rest) params) :
    skeleton (renderParams params) =
      '<' :: skeleton (joinPieces first rest) := by
  cases h with
  | @cons _ param _ others hfirst hrest =>
      have hparams : renderParams (param :: others) =
          '<' :: (joinPieces param.render (canonicalRest others) ++ ['>']) := by
        rw [renderParams_cons, renderRest_eq_canonicalRest]
        simp [joinPieces]
      -- the blanks before the parameters after the first are no part of the
      -- skeleton
      have hothers : (canonicalRest others).map skeleton =
          rest.map skeleton := by
        rw [canonicalRest, List.map_map]
        exact (map_eq_map_of_forall₂ hrest).symm
      have hclose : skeleton ['>'] = [] := rfl
      rw [hparams, skeleton_cons_open, skeleton_append, hclose, List.append_nil,
        skeleton_joinPieces, skeleton_joinPieces, hothers, hfirst]

/-- A text that is read has the skeleton of the canonical text of what it is
read as. -/
theorem skeleton_of_read {text : List Char} {e : TypeExpr}
    (h : read text = .ok e) : skeleton text = skeleton e.render := by
  refine read_rule ?padded ?bare ?listed h
  case padded =>
    intro before core after e hbefore hafter hcore
    simp [skeleton_blanks hbefore, skeleton_blanks hafter, hcore]
  case bare =>
    intro name dim
    rw [render_mk, renderParams_nil, List.append_nil]
  case listed =>
    intro name extra first rest tail params dim _ hpieces htail
    simp [render_mk, skeleton_renderParams hpieces, skeleton_tail htail]

/-! ### Counting in canonical texts -/

theorem preorderAll_eq_flatMap (params : List TypeExpr) :
    preorderAll params = params.flatMap preorder := by
  induction params with
  | nil => rfl
  | cons first rest ih => rw [preorderAll, ih, List.flatMap_cons]

theorem preorder_mk (name : TypeName) (params : List TypeExpr) (dim : Nat) :
    preorder ⟨name, params, dim⟩ =
      ⟨name, params, dim⟩ :: params.flatMap preorder := by
  rw [preorder, preorderAll_eq_flatMap]

theorem count_name {c : Char} (hc : isNameChar c = false) (name : TypeName) :
    name.chars.count c = 0 :=
  List.count_eq_zero.2 (not_mem_name hc)

theorem count_dimBrackets {c : Char} (hopen : c ≠ '[') (hclose : c ≠ ']')
    (dim : Nat) : (dimBrackets dim).count c = 0 :=
  List.count_eq_zero.2 (not_mem_dimBrackets hopen hclose dim)

theorem count_renderRest (c : Char) (rest : List TypeExpr) :
    (renderRest rest).count c = ['>'].count c +
      rest.length * [',', ' '].count c + (rest.map (·.render.count c)).sum := by
  induction rest with
  | nil => simp
  | cons next rest ih =>
      have hnext : renderRest (next :: rest) =
          [',', ' '] ++ next.render ++ renderRest rest :=
        renderRest_cons next rest
      rw [hnext, List.count_append, List.count_append, ih, List.length_cons,
        List.map_cons, List.sum_cons, Nat.succ_mul]
      omega

/-- A list of parameters adds its brackets, and a comma with a blank between
each two. -/
theorem count_renderParams (c : Char) (first : TypeExpr)
    (rest : List TypeExpr) :
    (renderParams (first :: rest)).count c =
      ['<'].count c + ['>'].count c + rest.length * [',', ' '].count c +
        ((first :: rest).map (·.render.count c)).sum := by
  have hparams : renderParams (first :: rest) =
      ['<'] ++ first.render ++ renderRest rest :=
    renderParams_cons first rest
  rw [hparams, List.count_append, List.count_append, count_renderRest,
    List.map_cons, List.sum_cons]
  omega

/-- Each expression with parameters opens one list. -/
theorem count_open_render (e : TypeExpr) :
    e.render.count '<' =
      e.preorder.countP (fun part => !part.params.isEmpty) := by
  induction e with
  | mk name params dim ih =>
      rw [render_mk, List.count_append, List.count_append,
        count_name (by decide), count_dimBrackets (by decide) (by decide),
        preorder_mk, Nat.zero_add, Nat.add_zero]
      cases params with
      | nil => rfl
      | cons first rest =>
          have hlist : (renderParams (first :: rest)).count '<' =
              ((first :: rest).map (·.render.count '<')).sum + 1 := by
            rw [count_renderParams]
            simp [Nat.add_comm]
          rw [hlist, List.countP_cons_of_pos rfl, List.countP_flatMap,
            List.map_congr_left ih]
          rfl

/-- There is one expression more than there are lists and commas, but for those
commas that are part of the name at the root. -/
theorem length_preorder_add_count {e : TypeExpr} (h : e.PlainBelow) :
    e.preorder.length + e.name.chars.count ',' =
      1 + e.render.count '<' + e.render.count ',' := by
  induction e with
  | mk name params dim ih =>
      have hparam : ∀ param ∈ params, param.preorder.length =
          1 + param.render.count '<' + param.render.count ',' := by
        intro param hparam
        obtain ⟨hname, hbelow⟩ := plainBelow_iff.1 h param hparam
        rw [← ih param hparam hbelow, List.count_eq_zero.2 hname]
        rfl
      rw [render_mk, List.count_append, List.count_append, List.count_append,
        List.count_append, count_name (c := '<') (by decide),
        count_dimBrackets (by decide) (by decide),
        count_dimBrackets (by decide) (by decide), preorder_mk,
        List.length_cons, List.length_flatMap, List.map_congr_left hparam]
      cases params with
      | nil => simp [Nat.add_comm]
      | cons first rest =>
          have hopen : (renderParams (first :: rest)).count '<' =
              1 + ((first :: rest).map (·.render.count '<')).sum := by
            simp [count_renderParams]
          have hcomma : (renderParams (first :: rest)).count ',' =
              rest.length + ((first :: rest).map (·.render.count ',')).sum := by
            simp [count_renderParams]
          have hsum : ((first :: rest).map fun param =>
              1 + param.render.count '<' + param.render.count ',').sum =
                rest.length + 1 +
                  ((first :: rest).map (·.render.count '<')).sum +
                  ((first :: rest).map (·.render.count ',')).sum := by
            rw [List.sum_map_add, List.sum_map_add, List.map_const',
              List.sum_replicate, List.length_cons, smul_eq_mul, Nat.mul_one]
          rw [hopen, hcomma, hsum]
          change _ + name.chars.count ',' = _
          omega

theorem filter_renderParams (params : List TypeExpr) :
    (renderParams params).filter isWordChar =
      params.flatMap (·.render.filter isWordChar) := by
  have hcomma : isWordChar ',' = false := by decide
  have hblank : isWordChar ' ' = false := by decide
  have hopen : isWordChar '<' = false := by decide
  have hclose : isWordChar '>' = false := by decide
  have hrest (rest : List TypeExpr) : (renderRest rest).filter isWordChar =
      rest.flatMap (·.render.filter isWordChar) := by
    induction rest with
    | nil => simp [hclose]
    | cons next rest ih => simp [renderRest_cons, hcomma, hblank, ih]
  cases params with
  | nil => rfl
  | cons first rest => simp [renderParams_cons, hopen, hrest rest]

/-- The names stand in the canonical text one after another, each before those
of its parameters. -/
theorem filter_render (e : TypeExpr) :
    e.render.filter isWordChar =
      (e.preorder.flatMap (·.name.chars)).filter isWordChar := by
  induction e with
  | mk name params dim ih =>
      have hdims : (dimBrackets dim).filter isWordChar = [] := by
        rw [List.filter_eq_nil_iff]
        intro c hc
        rcases eq_bracket_of_mem_dimBrackets hc with rfl | rfl <;> decide
      rw [render_mk, List.filter_append, List.filter_append, hdims,
        List.append_nil, filter_renderParams, preorder_mk, List.flatMap_cons,
        List.filter_append, List.flatMap_assoc, List.filter_flatMap]
      congr 1
      exact List.flatMap_congr ih

theorem isWordChar_of_mem_names {e : TypeExpr} {c : Char}
    (hc : c ∈ e.preorder.flatMap (·.name.chars)) :
    isWordChar c = (c != ',') := by
  obtain ⟨part, _, hmem⟩ := List.mem_flatMap.1 hc
  exact isWordChar_of_isNameChar (part.name.isNameChar_of_mem hmem)

/-- Nothing of a text that is read is lost, doubled or moved, even if it is no
text of the grammar.  The expressions at all depths are as many as the lists
that are opened and the commas between their pieces say, as many of them have
parameters as lists are opened, no more lists are closed than opened, and the
names stand in the text in the order of the expressions. -/
theorem ofSignature_accountedFor (text : String) (e : TypeExpr)
    (h : ofSignature text = .ok e) :
    (e.preorder.length : Int) = 1 + text.toList.count '<' +
      text.toList.count ',' - e.name.chars.count ',' ∧
    e.preorder.countP (fun part => !part.params.isEmpty) =
      text.toList.count '<' ∧
    text.toList.count '>' ≤ text.toList.count '<' ∧
    text.toList.filter isWordChar =
      (e.preorder.flatMap (·.name.chars)).filter (· != ',') := by
  have hskeleton := skeleton_of_read h
  have hcount {c : Char} (hc : (isNameChar c || c == '<') = true) :
      e.render.count c = text.toList.count c := by
    rw [← count_skeleton hc, ← hskeleton, count_skeleton hc]
  have hopen := hcount (c := '<') (by decide)
  have hcomma := hcount (c := ',') (by decide)
  refine ⟨?_, ?_, ?_, ?_⟩
  · have hparts := length_preorder_add_count (plainBelow_of_read h)
    rw [hopen, hcomma] at hparts
    omega
  · rw [← count_open_render, hopen]
  · have hbalance := angleBalance_nonneg_of_read h
    rw [angleBalance_eq_count] at hbalance
    omega
  · calc text.toList.filter isWordChar
      _ = e.render.filter isWordChar := by
        rw [← filter_skeleton, hskeleton, filter_skeleton]
      _ = (e.preorder.flatMap (·.name.chars)).filter isWordChar :=
        filter_render e
      _ = (e.preorder.flatMap (·.name.chars)).filter (· != ',') :=
        List.filter_congr fun _ => isWordChar_of_mem_names

/-- A list that is left open, square brackets that do not count and a comma in
the name at the root. -/
theorem ofSignature_accountedFor_open_list :
    let e : TypeExpr :=
      ⟨⟨"x,y", by decide⟩, [⟨⟨"A", by decide⟩, [⟨⟨"B", by decide⟩, [], 0⟩], 1⟩,
        ⟨⟨"C", by decide⟩, [], 0⟩], 0⟩
    ofSignature " x,y<A[]<B>[],\tC" = .ok e ∧
    (e.preorder.length : Int) = 1 + 2 + 2 - 1 ∧
    e.preorder.countP (fun part => !part.params.isEmpty) = 2 ∧
    " x,y<A[]<B>[],\tC".toList.count '>' ≤ 2 ∧
    " x,y<A[]<B>[],\tC".toList.filter isWordChar =
      ['x', 'y', 'A', 'B', 'C'] := by
  intro e
  have hread : ofSignature " x,y<A[]<B>[],\tC" = .ok e := by cbv
  have hopen : " x,y<A[]<B>[],\tC".toList.count '<' = 2 := by decide
  have hcomma : " x,y<A[]<B>[],\tC".toList.count ',' = 2 := by decide
  have hroot : e.name.chars.count ',' = 1 := by decide
  obtain ⟨hparts, hlists, hclosed, hnames⟩ := ofSignature_accountedFor _ e hread
  rw [hopen] at hparts hlists hclosed
  rw [hcomma, hroot] at hparts
  exact ⟨hread, hparts, hlists, hclosed, hnames.trans (by decide)⟩

end TypeExpr

end TypeShape
