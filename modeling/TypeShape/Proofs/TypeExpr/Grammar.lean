import Mathlib
import TypeShape.Proofs.TypeExpr.AngleBalance

/-!
The grammar of signatures.  A text writes an expression if it is the name, the
texts of the parameters between angle brackets and parted by commas, and the
dimensions, with white space around any of these texts.  Reading accepts just
the texts that write an expression whose names below the root hold no comma,
among those whose angle brackets are as many opening as closing and follow no
square bracket.
-/
namespace TypeShape

open Text

/-- The texts of parameters between angle brackets; nothing if there are
none. -/
def angled : List (List Char) → List Char
  | [] => []
  | first :: rest => '<' :: joinPieces first rest ++ ['>']

namespace TypeExpr

/-- A name, pieces of text between angle brackets, and dimensions, without white
space between them. -/
def core (name : TypeName) (pieces : List (List Char)) (dim : Nat) :
    List Char :=
  name.chars ++ angled pieces ++ dimBrackets dim

/-- The texts that write an expression, with any white space around it and
around its parameters. -/
inductive WrittenAs : TypeExpr → List Char → Prop
  | intro {name : TypeName} {params : List TypeExpr} {dim : Nat}
      {before after : List Char} {pieces : List (List Char)}
      (hbefore : ∀ c ∈ before, isBlank c = true)
      (hafter : ∀ c ∈ after, isBlank c = true)
      (hpieces : List.Forall₂ WrittenAs params pieces) :
      WrittenAs ⟨name, params, dim⟩ (before ++ core name pieces dim ++ after)

/-! ### What is written is read -/

theorem isBlank_of_mem_name {name : TypeName} {c : Char} (hc : c ∈ name.chars) :
    isBlank c = false := by
  have h := name.isNameChar_of_mem hc
  simp only [isNameChar, Bool.and_eq_true, Bool.not_eq_true'] at h
  exact h.1

theorem not_mem_name {name : TypeName} {c : Char} (hc : isNameChar c = false) :
    c ∉ name.chars := by
  intro hmem
  rw [name.isNameChar_of_mem hmem] at hc
  cases hc

theorem getLast?_name_ne (name : TypeName) :
    name.chars.getLast? ≠ some ']' := by
  intro h
  exact not_mem_name (by decide) (List.mem_of_getLast? h)

theorem core_ne_nil (name : TypeName) (pieces : List (List Char)) (dim : Nat) :
    core name pieces dim ≠ [] := by
  simp [core, name.ne_nil]

theorem isBlank_head?_core {name : TypeName} {pieces : List (List Char)}
    {dim : Nat} : ∀ c ∈ (core name pieces dim).head?, isBlank c = false := by
  intro c hc
  cases hname : name.chars with
  | nil => exact absurd hname name.ne_nil
  | cons d rest =>
      rw [core, hname] at hc
      have hcd : d = c := by simpa using hc
      have hmem : c ∈ name.chars := by
        rw [hname, hcd]
        exact List.mem_cons_self
      exact isBlank_of_mem_name hmem

theorem isBlank_getLast?_core {name : TypeName} {pieces : List (List Char)}
    {dim : Nat} : ∀ c ∈ (core name pieces dim).getLast?, isBlank c = false := by
  intro c hc
  cases dim with
  | succ dim =>
      rw [core, dimBrackets_add, ← List.append_assoc] at hc
      have hclose : ']' = c := by simpa [dimBrackets] using hc
      rw [← hclose]
      decide
  | zero =>
      cases pieces with
      | cons first rest =>
          have hclose : '>' = c := by
            simpa [core, angled, dimBrackets, List.getLast?_cons] using hc
          rw [← hclose]
          decide
      | nil =>
          have hmem : c ∈ name.chars := by
            apply List.mem_of_getLast?
            simpa [core, angled, dimBrackets] using hc
          exact isBlank_of_mem_name hmem

theorem open_not_mem_name_dims (name : TypeName) (dim : Nat) :
    '<' ∉ name.chars ++ dimBrackets dim := by
  rw [List.mem_append, not_or]
  exact ⟨not_mem_name (by decide),
    not_mem_dimBrackets (by decide) (by decide) dim⟩

theorem outline_bare (name : TypeName) (dim : Nat) :
    Outline.ofText (name.chars ++ dimBrackets dim) =
      { head := name.chars, params := [], dim := dim } := by
  have hname := getLast?_name_ne name
  rw [Outline.ofText, cutAtAngle_of_not_mem (open_not_mem_name_dims name dim),
    trailingDims_append hname]
  simp only [dropTrailingDims_append_dims hname]
  cases dim with
  | zero => simp [dimBrackets]
  | succ dim => simp

/-- The dimensions are counted from the end of the text, and the closing
bracket is looked for from there as well. -/
theorem outline_angled (name : TypeName) {list : List Char}
    (hlevel : angleBalance list = 0) (dim : Nat) :
    Outline.ofText (name.chars ++ '<' :: (list ++ '>' :: dimBrackets dim)) =
      { head := name.chars, params := splitBy angleWeight list, dim } := by
  have hlast : (name.chars ++ '<' :: list ++ ['>']).getLast? ≠ some ']' := by
    rw [List.getLast?_concat]
    decide
  have hwhole : name.chars ++ '<' :: (list ++ '>' :: dimBrackets dim) =
      name.chars ++ '<' :: list ++ ['>'] ++ dimBrackets dim := by
    simp
  have hcount : trailingDims
      (name.chars ++ '<' :: (list ++ '>' :: dimBrackets dim)) = dim := by
    rw [hwhole, trailingDims_append hlast]
  have hangles : list.count '>' ≤ list.count '<' := by
    rw [angleBalance_eq_count] at hlevel
    omega
  rw [Outline.ofText, hcount, cutAtAngle_append (not_mem_name (by decide))]
  simp only [dropTrailingDims_self (getLast?_name_ne name), ite_self,
    dropClosingAngle_append, splitParams_eq hangles]

/-- The outline finds the name, the pieces and the dimensions again, if the
pieces are passed over one by one. -/
theorem outline_core {name : TypeName} {pieces : List (List Char)}
    (hlevel : ∀ piece ∈ pieces, angleBalance piece = 0)
    (hpieces : ∀ piece ∈ pieces, PassedOver 0 piece) (dim : Nat) :
    Outline.ofText (core name pieces dim) =
      { head := name.chars, params := pieces, dim := dim } := by
  cases pieces with
  | nil =>
      have hcore : core name [] dim = name.chars ++ dimBrackets dim := by
        simp [core, angled]
      rw [hcore, outline_bare]
  | cons first rest =>
      have hcore : core name (first :: rest) dim = name.chars ++
          '<' :: (joinPieces first rest ++ '>' :: dimBrackets dim) := by
        simp [core, angled]
      have hsplit := splitBy_joinPieces (hpieces first List.mem_cons_self)
        (fun piece hpiece => hpieces piece (List.mem_cons_of_mem _ hpiece))
      rw [hcore, outline_angled name (angleBalance_joinPieces_of_level hlevel),
        hsplit]

theorem not_mem_blanks {c : Char} (hc : isBlank c = false) {text : List Char}
    (h : ∀ c ∈ text, isBlank c = true) : c ∉ text := by
  intro hmem
  rw [h c hmem] at hc
  cases hc

/-- Inside brackets commas do not matter. -/
theorem passedOver_joinPieces {openAngles : Int} (hopen : openAngles ≠ 0)
    {first : List Char} {rest : List (List Char)}
    (hfirst : PassedOver openAngles first)
    (hrest : ∀ piece ∈ rest, PassedOver openAngles piece) :
    PassedOver openAngles (joinPieces first rest) := by
  apply hfirst.append
  induction rest with
  | nil => exact passedOver_of_plain (by simp) (by simp)
  | cons second rest ih =>
      have hcomma : PassedOver openAngles [','] :=
        passedOver_of_plain (by simp [angleWeight])
          (fun hzero => absurd hzero hopen)
      have hsecond := hcomma.append (hrest second List.mem_cons_self)
      exact hsecond.append
        (ih (fun piece hpiece => hrest piece (List.mem_cons_of_mem _ hpiece)))

theorem angleBalance_angled {pieces : List (List Char)}
    (h : ∀ piece ∈ pieces, angleBalance piece = 0) :
    angleBalance (angled pieces) = 0 := by
  cases pieces with
  | nil => rfl
  | cons first rest =>
      rw [angled, angleBalance_append, angleBalance,
        angleBalance_joinPieces_of_level h]
      rfl

theorem WrittenAs.angleBalance_eq_zero {e : TypeExpr} {text : List Char}
    (h : e.WrittenAs text) : angleBalance text = 0 := by
  induction e generalizing text with
  | mk name params dim ih =>
      cases h with
      | @intro _ _ _ before after pieces hbefore hafter hpieces =>
          have hlevel : ∀ piece ∈ pieces, angleBalance piece = 0 := by
            intro piece hpiece
            obtain ⟨param, hparam, hwritten⟩ :=
              exists_related_of_mem hpieces hpiece
            exact ih param hparam hwritten
          rw [angleBalance_padded hbefore hafter, core, angleBalance_append,
            angleBalance_append, angleBalance_name, angleBalance_angled hlevel,
            angleBalance_dimBrackets]
          rfl

/-- A text that writes an expression closes every bracket that it opens, and
splits a list that it is in only at a comma of its own name. -/
theorem WrittenAs.passedOver {e : TypeExpr} {text : List Char}
    (h : e.WrittenAs text) {openAngles : Int} (hopen : 0 ≤ openAngles)
    (hname : openAngles = 0 → ',' ∉ e.name.chars) :
    PassedOver openAngles text := by
  induction e generalizing text openAngles with
  | mk name params dim ih =>
      cases h with
      | @intro _ _ _ before after pieces hbefore hafter hpieces =>
          have hinside : ∀ piece ∈ pieces,
              PassedOver (openAngles + 1) piece := by
            intro piece hpiece
            obtain ⟨param, hparam, hwritten⟩ :=
              exists_related_of_mem hpieces hpiece
            exact ih param hparam hwritten (by omega) (by omega)
          have hangled : PassedOver openAngles (angled pieces) := by
            cases pieces with
            | nil =>
                exact passedOver_of_plain (by simp [angled]) (by simp [angled])
            | cons first rest =>
                exact passedOver_angled (passedOver_joinPieces (by omega)
                  (hinside first List.mem_cons_self) (fun piece hpiece =>
                    hinside piece (List.mem_cons_of_mem _ hpiece)))
          have hblanks : ∀ blanks : List Char,
              (∀ c ∈ blanks, isBlank c = true) → PassedOver openAngles blanks :=
            fun blanks hblank =>
              passedOver_of_plain
                (fun c hc => angleWeight_of_isBlank (hblank c hc))
                (fun _ => not_mem_blanks (by decide) hblank)
          have hchars : PassedOver openAngles name.chars :=
            passedOver_of_plain (fun c hc =>
              angleWeight_of_isNameChar (name.isNameChar_of_mem hc)) hname
          have hdims : PassedOver openAngles (dimBrackets dim) :=
            passedOver_of_plain (fun c hc => angleWeight_of_mem_dimBrackets hc)
              (fun _ => not_mem_dimBrackets (by decide) (by decide) dim)
          exact ((hblanks before hbefore).append
            ((hchars.append hangled).append hdims)).append
            (hblanks after hafter)

/-- A text that writes an expression reads as that expression, unless a name
below the root holds a comma. -/
theorem WrittenAs.read {e : TypeExpr} {text : List Char} (h : e.WrittenAs text)
    (hplain : e.PlainBelow) : read text = .ok e := by
  induction e generalizing text with
  | mk name params dim ih =>
      cases h with
      | @intro _ _ _ before after pieces hbefore hafter hpieces =>
          have hparams := plainBelow_iff.1 hplain
          have htrim : trim (before ++ core name pieces dim ++ after) =
              core name pieces dim :=
            trim_padded hbefore hafter isBlank_head?_core isBlank_getLast?_core
              (core_ne_nil name pieces dim)
          have hpassed : ∀ piece ∈ pieces, PassedOver 0 piece := by
            intro piece hpiece
            obtain ⟨param, hparam, hread⟩ :=
              exists_related_of_mem
                ((List.forall₂_and_left _ _).2 ⟨hparams, hpieces⟩) hpiece
            exact hread.2.passedOver (Int.le_refl 0) (fun _ => hread.1.1)
          have hlevel : ∀ piece ∈ pieces, angleBalance piece = 0 := by
            intro piece hpiece
            obtain ⟨param, _, hwritten⟩ := exists_related_of_mem hpieces hpiece
            exact hwritten.angleBalance_eq_zero
          apply read_eq_ok_iff.2
          rw [htrim, outline_core hlevel hpassed]
          refine ⟨?_, rfl, rfl⟩
          have hmembers :=
            (List.forall₂_and_left _ _).2 ⟨fun param hparam => hparam, hpieces⟩
          refine (hmembers.imp ?_).flip
          rintro param piece ⟨hparam, hwritten⟩
          exact ih param hparam hwritten (hparams param hparam).2

/-! ### What is read is written -/

/-- The pieces of the canonical text after the first, with the blank that stands
before each of them. -/
def canonicalRest (rest : List TypeExpr) : List (List Char) :=
  rest.map (' ' :: ·.render)

theorem renderRest_eq_canonicalRest (rest : List TypeExpr) :
    renderRest rest = (canonicalRest rest).flatMap (',' :: ·) ++ ['>'] := by
  induction rest with
  | nil => rfl
  | cons next rest ih =>
      rw [renderRest_cons, ih]
      simp [canonicalRest]

end TypeExpr

end TypeShape
