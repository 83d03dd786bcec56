import Mathlib
import TypeShape.Proofs.TypeExpr.AngleBalance

/-!
Lists cut at their top level.  The pieces of a list are known by what brackets
say of them: they give the list when they are joined by commas, each but the
last ends where as many angle brackets have been closed as opened, and no comma
in a piece stands at such a point.  Brackets that do not match make no
difference to this, nor do points at which more of them have been closed than
opened.  The counter of a list has 32 bits, so it takes more brackets than that
counts to cut a list at a wrong point.
-/
namespace TypeShape

/-! ### The cut -/

/-- A text in which as many angle brackets open as close. -/
def IsLevel (text : List Char) : Prop :=
  text.count '<' = text.count '>'

/-- Where in a list that has been cut at commas the piece after the given ones
starts. -/
def startAfter (before : List (List Char)) : Nat :=
  (before.map fun piece => piece.length + 1).sum

/-- The pieces are those of the list between the commas at its top level. -/
structure IsTopLevelCut (list : List Char) (pieces : List (List Char)) :
    Prop where
  ne_nil : pieces ≠ []
  joined : List.intercalate [','] pieces = list
  level_start : ∀ before piece after, pieces = before ++ piece :: after →
    IsLevel (list.take (startAfter before))
  level_end : ∀ before piece after, pieces = before ++ piece :: after →
    after ≠ [] → IsLevel (list.take (startAfter before + piece.length))
  no_comma : ∀ piece ∈ pieces,
    ∀ read unread, piece = read ++ ',' :: unread → ¬ IsLevel read

theorem isLevel_iff {text : List Char} :
    IsLevel text ↔ angleBalance text = 0 := by
  rw [IsLevel, angleBalance_eq_count]
  omega

theorem intercalate_eq_joinPieces (first : List Char)
    (rest : List (List Char)) :
    List.intercalate [','] (first :: rest) = joinPieces first rest := by
  induction rest generalizing first with
  | nil => rw [joinPieces_nil, List.intercalate_singleton]
  | cons second rest ih =>
      rw [List.intercalate_cons_cons, ih, joinPieces_cons, List.append_assoc]
      rfl

/-! ### What has been read where a piece starts -/

/-- Pieces with a comma after each. -/
def readUpTo (before : List (List Char)) : List Char :=
  before.flatMap (· ++ [','])

theorem length_readUpTo (before : List (List Char)) :
    (readUpTo before).length = startAfter before := by
  simp [readUpTo, startAfter, List.length_flatMap]

theorem intercalate_append (before : List (List Char)) (piece : List Char)
    (after : List (List Char)) :
    List.intercalate [','] (before ++ piece :: after) =
      readUpTo before ++ List.intercalate [','] (piece :: after) := by
  induction before with
  | nil => rfl
  | cons first before ih =>
      obtain ⟨second, rest, hrest⟩ : ∃ second rest,
          before ++ piece :: after = second :: rest :=
        List.exists_cons_of_ne_nil (by simp)
      rw [List.cons_append, hrest, List.intercalate_cons_cons, ← hrest, ih]
      simp [readUpTo]

section ReadUpTo

variable {list piece : List Char} {pieces before after : List (List Char)}
  (hjoined : List.intercalate [','] pieces = list)
  (hsplit : pieces = before ++ piece :: after)

include hjoined hsplit

theorem take_startAfter : list.take (startAfter before) = readUpTo before := by
  rw [← hjoined, hsplit, intercalate_append]
  exact List.take_left' (length_readUpTo before)

theorem take_startAfter_add :
    list.take (startAfter before + piece.length) =
      readUpTo before ++ piece := by
  rw [← hjoined, hsplit, intercalate_append, intercalate_eq_joinPieces,
    joinPieces, ← List.append_assoc]
  exact List.take_left' (by rw [List.length_append, length_readUpTo])

end ReadUpTo

theorem angleBalance_readUpTo_concat (before : List (List Char))
    (piece : List Char) :
    angleBalance (readUpTo (before ++ [piece])) =
      angleBalance (readUpTo before ++ piece) := by
  have hcomma : angleBalance [','] = 0 := rfl
  have hread : readUpTo (before ++ [piece]) =
      readUpTo before ++ piece ++ [','] := by
    simp [readUpTo]
  rw [hread, angleBalance_append, hcomma, Int.add_zero]

theorem angleBalance_readUpTo {before : List (List Char)}
    (h : ∀ piece ∈ before, angleBalance piece = 0) :
    angleBalance (readUpTo before) = 0 := by
  induction before using List.reverseRecOn with
  | nil => rfl
  | append_singleton before piece ih =>
      obtain ⟨hbefore, hpiece⟩ := List.forall_mem_append.1 h
      rw [angleBalance_readUpTo_concat, angleBalance_append, ih hbefore,
        hpiece piece List.mem_cons_self]
      rfl

/-! ### Cutting from a point inside brackets -/

/-- From a point at which `openAngles` more angle brackets have been opened than
closed, no comma of the text stands outside all of them. -/
def Unparted (openAngles : Int) (text : List Char) : Prop :=
  ∀ read unread,
    text = read ++ ',' :: unread → openAngles + angleBalance read ≠ 0

theorem unparted_nil (openAngles : Int) : Unparted openAngles [] := by
  intro read unread h
  cases read <;> cases h

theorem unparted_cons_iff {openAngles : Int} {c : Char} {rest : List Char} :
    Unparted openAngles (c :: rest) ↔ ¬ (c = ',' ∧ openAngles = 0) ∧
      Unparted (openAngles + angleWeight c) rest := by
  constructor
  · intro h
    constructor
    · rintro ⟨rfl, rfl⟩
      exact h [] rest rfl rfl
    · rintro read unread rfl
      rw [Int.add_assoc]
      exact h (c :: read) unread rfl
  · rintro ⟨hc, hrest⟩ read unread h
    cases read with
    | nil =>
        obtain ⟨rfl, rfl⟩ := List.cons.inj h
        exact fun hzero => hc ⟨rfl, by simpa [angleBalance] using hzero⟩
    | cons d read =>
        obtain ⟨rfl, rfl⟩ := List.cons.inj h
        rw [angleBalance, ← Int.add_assoc]
        exact hrest read unread rfl

/-- Pieces that begin at a point at which `openAngles` more angle brackets have
been opened than closed: all but the last end outside all brackets, and no comma
in a piece stands there. -/
inductive PartedFrom : Int → List Char → List (List Char) → Prop
  | last {openAngles : Int} {piece : List Char}
      (hpiece : Unparted openAngles piece) : PartedFrom openAngles piece []
  | comma {openAngles : Int} {first second : List Char}
      {rest : List (List Char)} (hfirst : Unparted openAngles first)
      (hlevel : openAngles + angleBalance first = 0)
      (hrest : PartedFrom 0 second rest) :
      PartedFrom openAngles first (second :: rest)

/-- A first piece may begin earlier, unless there is a comma that parts it. -/
theorem PartedFrom.cons {openAngles : Int} {c : Char} {first : List Char}
    {rest : List (List Char)} (hc : ¬ (c = ',' ∧ openAngles = 0))
    (h : PartedFrom (openAngles + angleWeight c) first rest) :
    PartedFrom openAngles (c :: first) rest := by
  cases h with
  | last hpiece => exact .last (unparted_cons_iff.2 ⟨hc, hpiece⟩)
  | comma hfirst hlevel hrest =>
      refine .comma (unparted_cons_iff.2 ⟨hc, hfirst⟩) ?_ hrest
      rw [angleBalance, ← Int.add_assoc, hlevel]

theorem partedFrom_splitFrom (openAngles : Int) (list : List Char) :
    PartedFrom openAngles (splitFrom angleWeight openAngles list).1
      (splitFrom angleWeight openAngles list).2 := by
  induction list generalizing openAngles with
  | nil => exact .last (unparted_nil openAngles)
  | cons c rest ih =>
      unfold splitFrom
      split
      · next hcomma =>
          have hrest := ih openAngles
          rw [hcomma.2] at hrest ⊢
          exact .comma (unparted_nil 0) rfl hrest
      · next hcomma => exact .cons hcomma (ih _)

/-- A text without a comma that parts it goes to the first piece as a whole. -/
theorem splitFrom_append_of_unparted {openAngles : Int} {text : List Char}
    (h : Unparted openAngles text) (tail : List Char) :
    splitFrom angleWeight openAngles (text ++ tail) =
      (text ++ (splitFrom angleWeight (openAngles + angleBalance text) tail).1,
        (splitFrom angleWeight (openAngles + angleBalance text) tail).2) := by
  induction text generalizing openAngles with
  | nil => simp [angleBalance]
  | cons c rest ih =>
      obtain ⟨hc, hrest⟩ := unparted_cons_iff.1 h
      rw [List.cons_append, splitFrom, if_neg hc, ih hrest, angleBalance,
        Int.add_assoc]
      rfl

theorem splitFrom_joinPieces {openAngles : Int} {first : List Char}
    {rest : List (List Char)} (h : PartedFrom openAngles first rest) :
    splitFrom angleWeight openAngles (joinPieces first rest) =
      (first, rest) := by
  induction h with
  | @last openAngles piece hpiece =>
      have hsplit := splitFrom_append_of_unparted hpiece []
      simpa [joinPieces_nil, splitFrom] using hsplit
  | comma hfirst hlevel _ ih =>
      rw [joinPieces_cons, splitFrom_append_of_unparted hfirst, hlevel,
        splitFrom, if_pos ⟨rfl, rfl⟩, ih]
      simp

/-! ### Cutting from the start -/

/-- From the start of a list, it is the same to ask this of each piece by
itself. -/
theorem partedFrom_zero_iff {first : List Char} {rest : List (List Char)} :
    PartedFrom 0 first rest ↔
      (∀ piece ∈ first :: rest, Unparted 0 piece) ∧
        ∀ piece ∈ (first :: rest).dropLast, angleBalance piece = 0 := by
  induction rest generalizing first with
  | nil =>
      constructor
      · intro h
        cases h with
        | last hpiece => simpa using hpiece
      · exact fun h => .last (h.1 first List.mem_cons_self)
  | cons second rest ih =>
      rw [List.dropLast_cons_cons]
      constructor
      · intro h
        cases h with
        | comma hfirst hlevel hrest =>
            obtain ⟨hunparted, hlevels⟩ := ih.1 hrest
            rw [Int.zero_add] at hlevel
            exact ⟨List.forall_mem_cons.2 ⟨hfirst, hunparted⟩,
              List.forall_mem_cons.2 ⟨hlevel, hlevels⟩⟩
      · rintro ⟨hunparted, hlevels⟩
        obtain ⟨hfirst, hunparted⟩ := List.forall_mem_cons.1 hunparted
        obtain ⟨hlevel, hlevels⟩ := List.forall_mem_cons.1 hlevels
        exact .comma hfirst (by rw [hlevel]; rfl) (ih.2 ⟨hunparted, hlevels⟩)

/-- What has been read is level where each piece starts and where each but the
last ends if these pieces are level. -/
theorem isTopLevelCut_cons_iff {list first : List Char}
    {rest : List (List Char)} :
    IsTopLevelCut list (first :: rest) ↔
      joinPieces first rest = list ∧ PartedFrom 0 first rest := by
  rw [partedFrom_zero_iff]
  constructor
  · rintro ⟨-, hjoined, hstart, hend, hcomma⟩
    refine ⟨by rw [← intercalate_eq_joinPieces, hjoined], ?_, ?_⟩
    · intro piece hpiece read unread hread
      rw [Int.zero_add]
      exact fun hzero =>
        hcomma piece hpiece read unread hread (isLevel_iff.2 hzero)
    · intro piece hpiece
      obtain ⟨before, between, hsplit⟩ := List.append_of_mem hpiece
      have hlast : first :: rest = before ++
          piece :: (between ++ [(first :: rest).getLast (by simp)]) := by
        rw [← List.cons_append, ← List.append_assoc, ← hsplit,
          List.dropLast_append_getLast]
      have hstart' := hstart _ _ _ hlast
      have hend' := hend _ _ _ hlast (by simp)
      rw [take_startAfter hjoined hlast, isLevel_iff] at hstart'
      rw [take_startAfter_add hjoined hlast, isLevel_iff, angleBalance_append,
        hstart'] at hend'
      rwa [Int.zero_add] at hend'
  · rintro ⟨hjoined, hunparted, hlevels⟩
    rw [← intercalate_eq_joinPieces] at hjoined
    -- of the pieces before another piece, none is the last
    have hbefore {before after : List (List Char)} {piece : List Char}
        (hsplit : first :: rest = before ++ piece :: after) :
        angleBalance (readUpTo before) = 0 := by
      apply angleBalance_readUpTo
      intro earlier hearlier
      apply hlevels
      rw [hsplit, List.dropLast_append_of_ne_nil (by simp)]
      exact List.mem_append_left _ hearlier
    refine ⟨by simp, hjoined, ?_, ?_, ?_⟩
    · intro before piece after hsplit
      rw [take_startAfter hjoined hsplit, isLevel_iff, hbefore hsplit]
    · intro before piece after hsplit hafter
      obtain ⟨next, others, rfl⟩ := List.exists_cons_of_ne_nil hafter
      rw [take_startAfter_add hjoined hsplit, isLevel_iff,
        ← angleBalance_readUpTo_concat]
      rw [List.append_cons] at hsplit
      exact hbefore hsplit
    · intro piece hpiece read unread hread hlevel
      apply hunparted piece hpiece read unread hread
      rw [isLevel_iff.1 hlevel]
      rfl

/-- By a count that does not wrap around a list is cut at its top level, and in
no other way. -/
theorem splitBy_eq_iff {list : List Char} {pieces : List (List Char)} :
    splitBy angleWeight list = pieces ↔ IsTopLevelCut list pieces := by
  constructor
  · rintro rfl
    exact isTopLevelCut_cons_iff.2
      ⟨joinPieces_splitFrom angleWeight 0 list, partedFrom_splitFrom 0 list⟩
  · intro h
    obtain ⟨first, rest, rfl⟩ := List.exists_cons_of_ne_nil h.ne_nil
    obtain ⟨rfl, hparted⟩ := isTopLevelCut_cons_iff.1 h
    rw [splitBy, splitFrom_joinPieces hparted]

/-! ### The counter -/

/-- With fewer than `2 ^ 31` brackets of either kind a list is cut at its top
level, and in no other way than it is split. -/
theorem splitTopLevel_eq_iff {list : List Char} {pieces : List (List Char)}
    (hopen : list.count '<' < 2 ^ 31) (hclose : list.count '>' < 2 ^ 31) :
    splitTopLevel list = pieces ↔ IsTopLevelCut list pieces := by
  rw [splitTopLevel_eq_splitBy hopen hclose, splitBy_eq_iff]

/-- Where a bracket is closed that was not opened, the commas after it part
nothing until one is opened again. -/
theorem splitTopLevel_eq_iff_stray :
    "A>,B<,C,D<,".toList.count '<' < 2 ^ 31 ∧
    "A>,B<,C,D<,".toList.count '>' < 2 ^ 31 ∧
    IsTopLevelCut "A>,B<,C,D<,".toList
      ["A>,B<".toList, "C".toList, "D<,".toList] := by
  have hopen : "A>,B<,C,D<,".toList.count '<' < 2 ^ 31 := by decide
  have hclose : "A>,B<,C,D<,".toList.count '>' < 2 ^ 31 := by decide
  exact ⟨hopen, hclose, (splitTopLevel_eq_iff hopen hclose).1 (by decide)⟩

/-- Closing brackets count the counter down, all the way around if they are
enough. -/
theorem splitFrom_closing (openAngles : Int) (closing : Nat)
    (rest : List Char) :
    splitFrom counterWeight (Int32.ofInt openAngles)
      (List.replicate closing '>' ++ rest) =
      (List.replicate closing '>' ++ (splitFrom counterWeight
        (Int32.ofInt (openAngles - closing)) rest).1,
        (splitFrom counterWeight
          (Int32.ofInt (openAngles - closing)) rest).2) := by
  induction closing generalizing openAngles with
  | zero => simp
  | succ closing ih =>
      have hweight : counterWeight '>' = Int32.ofInt (-1) := rfl
      have hcount : openAngles + -1 - closing =
          openAngles - (closing + 1 : Nat) := by
        omega
      rw [List.replicate_succ, List.cons_append, splitFrom,
        if_neg (by simp), hweight, ← Int32.ofInt_add, ih, hcount]
      rfl

/-- Closing brackets that count the counter all the way around are cut off at a
comma. -/
theorem splitTopLevel_of_turn {closing : Nat}
    (hturn : Int32.ofInt (0 - closing) = 0) :
    splitTopLevel (List.replicate closing '>' ++ [',']) =
      [List.replicate closing '>', []] := by
  have hcomma : splitFrom counterWeight 0 [','] = ([], [[]]) := by decide
  have hcounting := splitFrom_closing 0 closing [',']
  rw [hturn, hcomma, List.append_nil] at hcounting
  exact congrArg (fun pieces => pieces.1 :: pieces.2) hcounting

/-- None of them has been opened, so there is no top level at this comma. -/
theorem not_isTopLevelCut_closing {closing : Nat} (hpos : 0 < closing) :
    ¬ IsTopLevelCut (List.replicate closing '>' ++ [','])
      [List.replicate closing '>', []] := by
  intro hcut
  have hlevel := hcut.level_end [] _ _ rfl (by simp)
  rw [take_startAfter_add hcut.joined (List.nil_append _).symm,
    IsLevel] at hlevel
  simp [readUpTo, List.count_replicate] at hlevel
  omega

/-- After `2 ^ 32` closing brackets the counter is zero again, and a list is cut
where it has no top level. -/
theorem splitTopLevel_wraps_around :
    ¬ IsTopLevelCut (List.replicate (2 ^ 32) '>' ++ [','])
      (splitTopLevel (List.replicate (2 ^ 32) '>' ++ [','])) := by
  have hturn : Int32.ofInt (0 - (2 ^ 32 : Nat)) = 0 := by decide
  rw [splitTopLevel_of_turn hturn]
  exact not_isTopLevelCut_closing (Nat.two_pow_pos 32)

end TypeShape
