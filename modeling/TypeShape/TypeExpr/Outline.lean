import TypeShape.Text.Blank

/-!
The outline of a signature: where its head ends, what its parameters are, how
many dimensions it has.

An outline is found from brackets and commas alone, before any name is looked
at, and it is found for every text: one with unclosed or stray brackets has an
outline too, and it is left to the names to show what is wrong with it.
-/
namespace TypeShape

/-- The pairs of square brackets at the start of a reversed text: what follows
them, and how many they are. -/
def dropReversedDims : List Char → List Char × Nat
  | ']' :: '[' :: rest =>
    let dropped := dropReversedDims rest
    (dropped.1, dropped.2 + 1)
  | rest => (rest, 0)

def trailingDims (text : List Char) : Nat :=
  (dropReversedDims text.reverse).2

def dropTrailingDims (text : List Char) : List Char :=
  (dropReversedDims text.reverse).1.reverse

/-- A text cut at its first opening angle bracket: the head, and what follows
the bracket. -/
def cutAtAngle : List Char → List Char × Option (List Char)
  | [] => ([], none)
  | c :: rest =>
    if c = '<' then ([], some rest)
    else
      let cut := cutAtAngle rest
      (c :: cut.1, cut.2)

/-- A parameter list without its closing angle bracket and the dimensions after
it.  A list that is not closed is left as it is, dimensions and all. -/
def dropClosingAngle (list : List Char) : List Char :=
  match (dropReversedDims list.reverse).1 with
  | '>' :: rest => rest.reverse
  | _ => list

def angleWeight (c : Char) : Int :=
  if c = '<' then 1 else if c = '>' then -1 else 0

section

variable {κ : Type} [Add κ] [OfNat κ 0] [DecidableEq κ]

/-- The pieces of a list from a point at which the angle brackets, each with its
weight, have been counted up to `counter`: the first piece, and the others.
Only a comma at which the count is zero parts two pieces. -/
def splitFrom (weight : Char → κ) (counter : κ) :
    List Char → List Char × List (List Char)
  | [] => ([], [])
  | c :: rest =>
    if c = ',' ∧ counter = 0 then
      let pieces := splitFrom weight counter rest
      ([], pieces.1 :: pieces.2)
    else
      let pieces := splitFrom weight (counter + weight c) rest
      (c :: pieces.1, pieces.2)

def splitBy (weight : Char → κ) (list : List Char) : List (List Char) :=
  let pieces := splitFrom weight 0 list
  pieces.1 :: pieces.2

end

/-- The weight as it is counted with 32 bits, which wrap around. -/
def counterWeight (c : Char) : Int32 :=
  Int32.ofInt (angleWeight c)

/-- The pieces of a list between the commas at which the counter is zero. -/
def splitTopLevel (list : List Char) : List (List Char) :=
  splitBy counterWeight list

/-- The parameters that a list holds.  Only where so many brackets open that the
counter might wrap around upwards is it not relied on: no reader could go down
into as many lists inside one another. -/
def splitParams (list : List Char) : List (List Char) :=
  if list.count '<' < 2147483648 then splitTopLevel list
  else splitBy angleWeight list

structure Outline where
  head : List Char
  params : List (List Char)
  dim : Nat
deriving DecidableEq

namespace Outline

/-- The outline of a text.  The dimensions are counted at the end of the whole
text; the head loses its own only if there are any. -/
def ofText (text : List Char) : Outline where
  head :=
    let head := (cutAtAngle text).1
    if 0 < trailingDims text then dropTrailingDims head else head
  params :=
    match (cutAtAngle text).2 with
    | none => []
    | some list => splitParams (dropClosingAngle list)
  dim := trailingDims text

end Outline

/-! ### The counter -/

/-- A counter that does not wrap around is zero where as many brackets have been
closed as opened. -/
theorem ofInt_eq_zero_iff {openAngles : Int} (hlow : -2147483648 ≤ openAngles)
    (hhigh : openAngles < 2147483648) :
    Int32.ofInt openAngles = 0 ↔ openAngles = 0 := by
  rw [← Int32.toInt_inj, Int32.toInt_ofInt_of_le hlow hhigh]
  exact Iff.rfl

theorem angleWeight_add_count_le (c : Char) (rest : List Char) :
    angleWeight c + rest.count '<' ≤ (c :: rest).count '<' := by
  unfold angleWeight
  split
  · next heq =>
    rw [heq, List.count_cons_self]
    omega
  · have hrest := List.count_le_count_cons (a := '<') (b := c) (l := rest)
    split <;> omega

theorem count_sub_angleWeight_le (c : Char) (rest : List Char) :
    rest.count '>' - angleWeight c ≤ (c :: rest).count '>' := by
  have hrest := List.count_le_count_cons (a := '>') (b := c) (l := rest)
  unfold angleWeight
  split
  · omega
  · split
    · next heq =>
      rw [heq, List.count_cons_self]
      omega
    · omega

/-- With fewer than `2 ^ 31` brackets of either kind the counter does not wrap
around. -/
theorem splitFrom_counterWeight {openAngles : Int} {list : List Char}
    (hopen : openAngles + list.count '<' < 2147483648)
    (hclose : -2147483648 < openAngles - list.count '>') :
    splitFrom counterWeight (Int32.ofInt openAngles) list =
      splitFrom angleWeight openAngles list := by
  induction list generalizing openAngles with
  | nil => rfl
  | cons c rest ih =>
    have hless := angleWeight_add_count_le c rest
    have hmore := count_sub_angleWeight_le c rest
    have hrest := @ih (openAngles + angleWeight c) (by omega) (by omega)
    have hzero := @ofInt_eq_zero_iff openAngles (by omega) (by omega)
    by_cases hcomma : c = ',' ∧ openAngles = 0
    · obtain ⟨rfl, rfl⟩ := hcomma
      rw [splitFrom, if_pos ⟨rfl, rfl⟩, splitFrom, if_pos ⟨rfl, rfl⟩]
      exact congrArg (fun pieces => ([], pieces.1 :: pieces.2)) hrest
    · rw [splitFrom, if_neg (by rwa [hzero]), splitFrom, if_neg hcomma,
        counterWeight, ← Int32.ofInt_add, hrest]

theorem splitTopLevel_eq_splitBy {list : List Char}
    (hopen : list.count '<' < 2147483648)
    (hclose : list.count '>' < 2147483648) :
    splitTopLevel list = splitBy angleWeight list := by
  have hsplit := @splitFrom_counterWeight 0 list (by omega) (by omega)
  exact congrArg (fun pieces => pieces.1 :: pieces.2) hsplit

/-- A list that closes no more brackets than it opens is split exactly. -/
theorem splitParams_eq {list : List Char}
    (h : list.count '>' ≤ list.count '<') :
    splitParams list = splitBy angleWeight list := by
  unfold splitParams
  split
  · next hopen =>
    exact splitTopLevel_eq_splitBy hopen (Nat.lt_of_le_of_lt h hopen)
  · rfl

/-! ### Every piece is shorter than the text -/

theorem length_dropReversedDims (text : List Char) :
    (dropReversedDims text).1.length + 2 * (dropReversedDims text).2 =
      text.length := by
  fun_induction dropReversedDims text with
  | case1 rest dropped ih =>
    have hrest : dropped.1.length + 2 * dropped.2 = rest.length := ih
    change dropped.1.length + 2 * (dropped.2 + 1) = rest.length + 1 + 1
    omega
  | case2 => simp

theorem length_dropClosingAngle_le (list : List Char) :
    (dropClosingAngle list).length ≤ list.length := by
  unfold dropClosingAngle
  split
  · next rest h =>
    have hlength := congrArg List.length h
    have hdims := length_dropReversedDims list.reverse
    simp only [List.length_reverse, List.length_cons] at hlength hdims ⊢
    omega
  · exact Nat.le_refl _

theorem length_of_cutAtAngle {text list : List Char}
    (h : (cutAtAngle text).2 = some list) : list.length < text.length := by
  induction text with
  | nil => simp [cutAtAngle] at h
  | cons c rest ih =>
    unfold cutAtAngle at h
    split at h
    · cases h
      simp
    · exact Nat.lt_succ_of_lt (ih h)

theorem length_le_of_mem_splitFrom {κ : Type} [Add κ] [OfNat κ 0]
    [DecidableEq κ] (weight : Char → κ) (counter : κ) (list : List Char) :
    ∀ piece ∈ (splitFrom weight counter list).1 ::
        (splitFrom weight counter list).2,
      piece.length ≤ list.length := by
  induction list generalizing counter with
  | nil => simp [splitFrom]
  | cons c rest ih =>
    intro piece hpiece
    unfold splitFrom at hpiece
    split at hpiece
    · rcases List.mem_cons.1 hpiece with rfl | hmem
      · simp
      · exact Nat.le_succ_of_le (ih counter piece hmem)
    · simp only [List.mem_cons] at hpiece
      rcases hpiece with rfl | hmem
      · exact Nat.succ_le_succ (ih _ _ List.mem_cons_self)
      · exact Nat.le_succ_of_le (ih _ piece (List.mem_cons_of_mem _ hmem))

theorem length_le_of_mem_splitParams {list piece : List Char}
    (h : piece ∈ splitParams list) : piece.length ≤ list.length := by
  unfold splitParams at h
  split at h
  · exact length_le_of_mem_splitFrom counterWeight 0 list piece h
  · exact length_le_of_mem_splitFrom angleWeight 0 list piece h

/-- Each parameter is shorter than the text it is a part of, because that text
also holds the opening bracket.  A reader may therefore recurse on
parameters. -/
theorem Outline.length_lt_of_mem_params {text piece : List Char}
    (h : piece ∈ (Outline.ofText text).params) :
    piece.length < text.length := by
  simp only [Outline.ofText] at h
  split at h
  · simp at h
  · next list hlist =>
    exact Nat.lt_of_le_of_lt
      (Nat.le_trans (length_le_of_mem_splitParams h)
        (length_dropClosingAngle_le list)) (length_of_cutAtAngle hlist)

end TypeShape
