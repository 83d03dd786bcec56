import Mathlib
import TypeShape.Proofs.Document.FirstValue
import TypeShape.Proofs.Document.Numerals
import TypeShape.Proofs.Document.Spelling

/-!
How documents are written.  A document is a sequence of tokens, and a text of it
holds them in turn with white space around them as one likes.  Every such text
has that document, whichever way its strings and numerals are written.
-/
namespace TypeShape

namespace Token

/-! ### Texts of tokens -/

def IsBlank (gap : List Char) : Prop :=
  ∀ c ∈ gap, c = ' ' ∨ c = '\t' ∨ c = '\n' ∨ c = '\r'

/-- The texts of a token. -/
def WrittenAs : Token → List Char → Prop
  | openList, text => text = ['[']
  | closeList, text => text = [']']
  | openObject, text => text = ['{']
  | closeObject, text => text = ['}']
  | comma, text => text = [',']
  | colon, text => text = [':']
  | null, text => text = ['n', 'u', 'l', 'l']
  | bool true, text => text = ['t', 'r', 'u', 'e']
  | bool false, text => text = ['f', 'a', 'l', 's', 'e']
  | number numeral, text => numeral.WrittenAs text
  | string content, text =>
      ∃ spelled, SpelledAs content spelled ∧ text = '"' :: (spelled ++ ['"'])
  | bad, _ => False

/-- The texts of tokens that stand one after another. -/
inductive AllWrittenAs : List Token → List Char → Prop
  | nil {gap : List Char} (hgap : IsBlank gap) : AllWrittenAs [] gap
  | cons {token : Token} {rest : List Token} {gap text more : List Char}
      (hgap : IsBlank gap) (htoken : token.WrittenAs text)
      (hrest : AllWrittenAs rest more) :
      AllWrittenAs (token :: rest) (gap ++ (text ++ more))

def isPunctuation : Token → Bool
  | openList | closeList | openObject | closeObject | comma | colon => true
  | _ => false

/-- Whether a token is a numeral, which is at an end only if something else
follows. -/
def isNumber : Token → Bool
  | number _ => true
  | _ => false

/-- Tokens in which no numeral is followed by anything but punctuation. -/
def Separated (tokens : List Token) : Prop :=
  tokens.IsChain
    fun token next => token.isNumber = true → next.isPunctuation = true

/-! ### Reading the tokens again -/

theorem bad_not_mem_of_allWrittenAs {tokens : List Token} {text : List Char}
    (h : AllWrittenAs tokens text) : bad ∉ tokens := by
  induction h with
  | nil => exact List.not_mem_nil
  | cons _ htoken _ ih =>
      rw [List.mem_cons, not_or]
      exact ⟨by rintro rfl; exact htoken, ih⟩

theorem isSpace_iff {c : Char} :
    isSpace c = true ↔ c = ' ' ∨ c = '\t' ∨ c = '\n' ∨ c = '\r' := by
  simp [isSpace, or_assoc]

theorem ends_of_isSpace {c : Char} (h : isSpace c = true) :
    c.isDigit = false ∧ c ≠ '.' ∧ c ≠ 'e' ∧ c ≠ 'E' := by
  rcases isSpace_iff.1 h with rfl | rfl | rfl | rfl <;> decide

/-- A token does not start with white space, and where it is punctuation it does
not go on with a numeral. -/
theorem exists_cons_of_writtenAs {token : Token} {text : List Char}
    (h : token.WrittenAs text) :
    ∃ c tail, text = c :: tail ∧
      isSpace c = false ∧
      (token.isPunctuation = true →
        c.isDigit = false ∧ c ≠ '.' ∧ c ≠ 'e' ∧ c ≠ 'E') := by
  cases token with
  | number numeral =>
      obtain ⟨c, tail, rfl, hc⟩ := h.exists_cons
      refine ⟨c, tail, rfl, Bool.eq_false_iff.2 fun hspace => ?_,
        fun h => absurd h Bool.false_ne_true⟩
      rcases hc with rfl | hdigit
      · cases hspace
      · rw [(ends_of_isSpace hspace).1] at hdigit
        cases hdigit
  | string content =>
      obtain ⟨spelled, -, rfl⟩ := h
      exact ⟨'"', spelled ++ ['"'], rfl, rfl,
        fun h => absurd h Bool.false_ne_true⟩
  | bad => exact h.elim
  | bool value =>
      cases value <;> exact ⟨_, _, h, rfl, fun h => absurd h Bool.false_ne_true⟩
  | null => exact ⟨_, _, h, rfl, fun h => absurd h Bool.false_ne_true⟩
  | _ => exact ⟨_, _, h, rfl, fun _ => by decide⟩

/-- A token is read from its text, and the rest is left. -/
theorem first_of_writtenAs {token : Token} {text : List Char}
    (h : token.WrittenAs text) {more : List Char}
    (hmore : token.isNumber = true → Numeral.EndsNumeral more) :
    first (text ++ more) = (token, more) := by
  cases token with
  | number numeral => exact first_of_numeral h (hmore rfl)
  | string content =>
      obtain ⟨spelled, hspelled, rfl⟩ := h
      obtain ⟨parts, hparts, rfl⟩ := exists_parts_of_spelledAs hspelled more
      rw [List.cons_append, List.append_assoc, List.cons_append,
        List.nil_append, first, hparts]
      rfl
  | bad => exact h.elim
  | bool value => cases value <;> cases h <;> rfl
  | _ => cases h; rfl

theorem AllWrittenAs.endsNumeral {tokens : List Token} {text : List Char}
    (h : AllWrittenAs tokens text)
    (hhead : ∀ token ∈ tokens.head?, token.isPunctuation = true) :
    Numeral.EndsNumeral text := by
  cases h with
  | nil hgap =>
      exact fun c hc =>
        ends_of_isSpace (isSpace_iff.2 (hgap c (List.mem_of_mem_head? hc)))
  | @cons token rest gap text more hgap htoken hrest =>
      cases gap with
      | cons c gap =>
          rintro c' ⟨⟩
          exact ends_of_isSpace (isSpace_iff.2 (hgap c List.mem_cons_self))
      | nil =>
          obtain ⟨c, tail, rfl, -, hends⟩ := exists_cons_of_writtenAs htoken
          rintro c' ⟨⟩
          exact hends (hhead token rfl)

theorem dropWhile_isSpace_of_isBlank {gap : List Char} (h : IsBlank gap)
    (text : List Char) :
    (gap ++ text).dropWhile isSpace = text.dropWhile isSpace :=
  List.dropWhile_append_of_pos fun c hc => isSpace_iff.2 (h c hc)

/-- The tokens of a text are read again. -/
theorem scan_of_allWrittenAs {tokens : List Token} {text : List Char}
    (h : AllWrittenAs tokens text) (hseparated : Separated tokens) :
    scan text = tokens := by
  induction h with
  | @nil gap hgap =>
      apply scan_of_blank
      rw [← List.append_nil gap, dropWhile_isSpace_of_isBlank hgap]
      rfl
  | @cons token rest gap text more hgap htoken hrest ih =>
      obtain ⟨hhead, hseparated⟩ := List.isChain_cons.1 hseparated
      have hmore : token.isNumber = true → Numeral.EndsNumeral more :=
        fun hnumber =>
          hrest.endsNumeral fun next hnext => hhead next hnext hnumber
      have hfirst := first_of_writtenAs htoken hmore
      obtain ⟨c, tail, rfl, hspace, -⟩ := exists_cons_of_writtenAs htoken
      have htrimmed : (gap ++ (c :: tail ++ more)).dropWhile isSpace =
          c :: (tail ++ more) := by
        rw [dropWhile_isSpace_of_isBlank hgap, List.cons_append,
          List.dropWhile_cons, hspace]
        rfl
      rw [List.cons_append] at hfirst
      rw [scan_of_token htrimmed, hfirst, ih hseparated]

/-! ### Nothing else is read -/

/-- What is read as a token writes it. -/
theorem exists_text_of_first {text : List Char} (h : (first text).1 ≠ .bad) :
    ∃ tokenText, (first text).1.WrittenAs tokenText ∧
      text = tokenText ++ (first text).2 := by
  have hread {α : Type} {token : α → Token} {result : Option (α × List Char)}
      (h : (orBad token result).1 ≠ .bad) :
      ∃ value rest, result = some (value, rest) := by
    match result, h with
    | none, h => exact absurd rfl h
    | some (value, rest), _ => exact ⟨value, rest, rfl⟩
  revert h
  fun_cases first text with
  | case10 tail =>
      intro h
      obtain ⟨parts, rest, hparts⟩ := hread h
      obtain ⟨spelled, hspelled, rfl⟩ := exists_spelled_of_stringParts? hparts
      rw [hparts]
      refine ⟨'"' :: (spelled ++ ['"']),
        ⟨spelled, spelledAs_of_escapedAs hspelled, rfl⟩, ?_⟩
      simp [orBad]
  | case11 tail =>
      intro h
      obtain ⟨numeral, rest, hnumeral⟩ := hread h
      obtain ⟨body, hbody, rfl⟩ := exists_writtenAs_of_numeral? hnumeral
      rw [hnumeral]
      exact ⟨'-' :: body, hbody, rfl⟩
  | case12 =>
      intro h
      obtain ⟨numeral, rest, hnumeral⟩ := hread h
      obtain ⟨body, hbody, rfl⟩ := exists_writtenAs_of_numeral? hnumeral
      rw [hnumeral]
      exact ⟨body, hbody, rfl⟩
  | _ => exact fun _ => ⟨_, rfl, rfl⟩

/-- A text without faults writes the tokens that are read from it. -/
theorem allWrittenAs_of_scan {tokens : List Token} {text : List Char}
    (h : scan text = tokens) (hbad : bad ∉ tokens) :
    AllWrittenAs tokens text := by
  induction tokens generalizing text with
  | nil =>
      match htrimmed : text.dropWhile isSpace with
      | [] =>
          exact .nil fun c hc =>
            isSpace_iff.1 (List.dropWhile_eq_nil_iff.1 htrimmed c hc)
      | c :: tail =>
        rw [scan_of_token htrimmed] at h
        cases h
  | cons token rest ih =>
      match htrimmed : text.dropWhile isSpace with
      | [] =>
        rw [scan_of_blank htrimmed] at h
        cases h
      | c :: tail =>
        rw [scan_of_token htrimmed] at h
        obtain ⟨rfl, hrest⟩ := List.cons.inj h
        rw [List.mem_cons, not_or] at hbad
        obtain ⟨tokenText, htoken, hsplit⟩ :=
          exists_text_of_first (Ne.symm hbad.1)
        have hgap : IsBlank (text.takeWhile isSpace) :=
          fun c hc => isSpace_iff.1 (List.mem_takeWhile_imp hc)
        have htext : text =
            text.takeWhile isSpace ++ (tokenText ++ (first (c :: tail)).2) := by
          rw [← hsplit, ← htrimmed, List.takeWhile_append_dropWhile]
        rw [htext]
        exact .cons hgap htoken (ih hrest hbad.2)

end Token

namespace Document

/-! ### The tokens of a document -/

mutual

def tokens : Document → List Token
  | null => [.null]
  | bool value => [.bool value]
  | number numeral => [.number numeral]
  | string text => [.string text]
  | list [] => [.openList, .closeList]
  | list (item :: rest) => .openList :: (item.tokens ++ tokensAfterItem rest)
  | object [] => [.openObject, .closeObject]
  | object ((key, value) :: rest) =>
    .openObject :: .string key :: .colon ::
      (value.tokens ++ tokensAfterMember rest)
  | broken => [.bad]

/-- The tokens that follow an item of a list, given the items after it. -/
def tokensAfterItem : List Document → List Token
  | [] => [.closeList]
  | item :: rest => .comma :: (item.tokens ++ tokensAfterItem rest)

def tokensAfterMember : List (Option String × Document) → List Token
  | [] => [.closeObject]
  | (key, value) :: rest =>
    .comma :: .string key :: .colon :: (value.tokens ++ tokensAfterMember rest)

end

/-- The texts of a document. -/
def WrittenAs (document : Document) (text : List Char) : Prop :=
  Token.AllWrittenAs document.tokens text

/-! ### No numeral is followed by another -/

open Token in
theorem separated_cons {token : Token} {rest : List Token}
    (htoken : token.isNumber = false) (hrest : Separated rest) :
    Separated (token :: rest) :=
  List.isChain_cons.2
    ⟨fun _ _ h => absurd (htoken.symm.trans h) Bool.false_ne_true, hrest⟩

mutual

/-- The tokens of a document are separated, and so they are from punctuation
after it. -/
theorem separated_tokens_append (document : Document) {more : List Token}
    (hmore : Token.Separated more)
    (hhead : ∀ token ∈ more.head?, token.isPunctuation = true) :
    Token.Separated (document.tokens ++ more) := by
  match document with
  | null => exact separated_cons rfl hmore
  | bool _ => exact separated_cons rfl hmore
  | number _ =>
      exact List.isChain_cons.2 ⟨fun next hnext _ => hhead next hnext, hmore⟩
  | string _ => exact separated_cons rfl hmore
  | list [] => exact separated_cons rfl (separated_cons rfl hmore)
  | list (item :: rest) =>
    rw [tokens, List.cons_append, List.append_assoc]
    obtain ⟨hrest, hfirst⟩ := separated_tokensAfterItem_append rest hmore
    exact separated_cons rfl (separated_tokens_append _ hrest hfirst)
  | object [] => exact separated_cons rfl (separated_cons rfl hmore)
  | object ((key, value) :: rest) =>
    rw [tokens, List.cons_append, List.cons_append, List.cons_append,
      List.append_assoc]
    obtain ⟨hrest, hfirst⟩ := separated_tokensAfterMember_append rest hmore
    exact separated_cons rfl (separated_cons rfl (separated_cons rfl
      (separated_tokens_append _ hrest hfirst)))
  | broken => exact separated_cons rfl hmore

theorem separated_tokensAfterItem_append (items : List Document)
    {more : List Token} (hmore : Token.Separated more) :
    Token.Separated (tokensAfterItem items ++ more) ∧
    ∀ token ∈ (tokensAfterItem items ++ more).head?,
      token.isPunctuation = true := by
  match items with
  | [] => exact ⟨separated_cons rfl hmore, by rintro _ ⟨⟩; rfl⟩
  | item :: rest =>
    rw [tokensAfterItem, List.cons_append, List.append_assoc]
    obtain ⟨hrest, hfirst⟩ := separated_tokensAfterItem_append rest hmore
    exact ⟨separated_cons rfl (separated_tokens_append _ hrest hfirst),
      by rintro _ ⟨⟩; rfl⟩

theorem separated_tokensAfterMember_append
    (members : List (Option String × Document)) {more : List Token}
    (hmore : Token.Separated more) :
    Token.Separated (tokensAfterMember members ++ more) ∧
    ∀ token ∈ (tokensAfterMember members ++ more).head?,
      token.isPunctuation = true := by
  match members with
  | [] => exact ⟨separated_cons rfl hmore, by rintro _ ⟨⟩; rfl⟩
  | (key, value) :: rest =>
    rw [tokensAfterMember, List.cons_append, List.cons_append, List.cons_append,
      List.append_assoc]
    obtain ⟨hrest, hfirst⟩ := separated_tokensAfterMember_append rest hmore
    exact ⟨separated_cons rfl (separated_cons rfl (separated_cons rfl
      (separated_tokens_append _ hrest hfirst))), by rintro _ ⟨⟩; rfl⟩

end

/-! ### The machine makes the document of its tokens -/

theorem step_eq_takeValue {phase : Phase}
    (hphase : phase = .value ∨ phase = .firstItem) {token : Token}
    (htoken : token ≠ .closeList) (stack : List Frame) :
    State.step (.reading phase stack) token = takeValue stack token := by
  rcases hphase with rfl | rfl
  · rfl
  · simp [State.step, take, htoken]

mutual

/-- Where a value may stand, the tokens of a document put the document there. -/
theorem foldl_tokens {document : Document} (hsound : document.sound = true)
    {phase : Phase} (hphase : phase = .value ∨ phase = .firstItem)
    (stack : List Frame) :
    document.tokens.foldl State.step (.reading phase stack) =
      settle document stack := by
  match document, hsound with
  | null, _ => exact step_eq_takeValue hphase (by simp) stack
  | bool _, _ => exact step_eq_takeValue hphase (by simp) stack
  | number _, _ => exact step_eq_takeValue hphase (by simp) stack
  | string _, _ => exact step_eq_takeValue hphase (by simp) stack
  | list [], _ =>
    rw [tokens, List.foldl_cons, step_eq_takeValue hphase (by simp)]
    rfl
  | list (item :: rest), hsound =>
    obtain ⟨hitem, hrest⟩ := Bool.and_eq_true_iff.1 hsound
    rw [tokens, List.foldl_cons, step_eq_takeValue hphase (by simp), takeValue,
      List.foldl_append, foldl_tokens hitem (.inr rfl)]
    exact foldl_tokensAfterItem hrest [item] stack
  | object [], _ =>
    rw [tokens, List.foldl_cons, step_eq_takeValue hphase (by simp)]
    rfl
  | object ((key, value) :: rest), hsound =>
    obtain ⟨hvalue, hrest⟩ := Bool.and_eq_true_iff.1 hsound
    rw [tokens, List.foldl_cons, step_eq_takeValue hphase (by simp),
      List.foldl_cons, List.foldl_cons, List.foldl_append]
    have hkey : State.step
        (State.step (takeValue stack .openObject) (.string key)) .colon =
        .reading .value (.member [] key :: stack) := rfl
    rw [hkey, foldl_tokens hvalue (.inl rfl)]
    exact foldl_tokensAfterMember hrest [(key, value)] stack

/-- After an item of a list the list is completed. -/
theorem foldl_tokensAfterItem {items : List Document}
    (hsound : soundItems items = true) (before : List Document)
    (stack : List Frame) :
    (tokensAfterItem items).foldl State.step
      (.reading .separator (.list before :: stack)) =
      settle (.list (before.reverse ++ items)) stack := by
  match items, hsound with
  | [], _ =>
    rw [List.append_nil]
    rfl
  | item :: rest, hsound =>
    obtain ⟨hitem, hrest⟩ := Bool.and_eq_true_iff.1 hsound
    have hcomma : State.step (.reading .separator (.list before :: stack))
        .comma = .reading .value (.list before :: stack) := rfl
    rw [tokensAfterItem, List.foldl_cons, hcomma, List.foldl_append,
      foldl_tokens hitem (.inl rfl)]
    have hcompleted := foldl_tokensAfterItem hrest (item :: before) stack
    rw [List.reverse_cons, List.append_assoc] at hcompleted
    exact hcompleted

theorem foldl_tokensAfterMember {members : List (Option String × Document)}
    (hsound : soundMembers members = true)
    (before : List (Option String × Document)) (stack : List Frame) :
    (tokensAfterMember members).foldl State.step
      (.reading .separator (.object before :: stack)) =
      settle (.object (before.reverse ++ members)) stack := by
  match members, hsound with
  | [], _ =>
    rw [List.append_nil]
    rfl
  | (key, value) :: rest, hsound =>
    obtain ⟨hvalue, hrest⟩ := Bool.and_eq_true_iff.1 hsound
    have hkey : State.step (State.step
        (State.step (.reading .separator (.object before :: stack)) .comma)
        (.string key)) .colon = .reading .value (.member before key :: stack) :=
      rfl
    rw [tokensAfterMember, List.foldl_cons, List.foldl_cons, List.foldl_cons,
      hkey, List.foldl_append, foldl_tokens hvalue (.inl rfl)]
    have hcompleted :=
      foldl_tokensAfterMember hrest ((key, value) :: before) stack
    rw [List.reverse_cons, List.append_assoc] at hcompleted
    exact hcompleted

end

/-- The tokens of a document without fault make the document, whatever comes
after them. -/
theorem ofTokens_tokens_append {document : Document}
    (hsound : document.sound = true) (more : List Token) :
    ofTokens (document.tokens ++ more) = document :=
  ofTokens_append_of_done (foldl_tokens hsound (.inl rfl) []) more

/-! ### What is written is without fault -/

mutual

/-- A fault, and nothing else, has a token that has no text. -/
theorem bad_not_mem_tokens_iff {document : Document} :
    Token.bad ∉ document.tokens ↔ document.sound = true := by
  match document with
  | null => simp [tokens, sound]
  | bool _ => simp [tokens, sound]
  | number _ => simp [tokens, sound]
  | string _ => simp [tokens, sound]
  | list [] => simp [tokens, sound, soundItems]
  | list (item :: rest) =>
    simp [tokens, sound, soundItems, bad_not_mem_tokens_iff,
      bad_not_mem_tokensAfterItem_iff]
  | object [] => simp [tokens, sound, soundMembers]
  | object ((key, value) :: rest) =>
    simp [tokens, sound, soundMembers, bad_not_mem_tokens_iff,
      bad_not_mem_tokensAfterMember_iff]
  | broken => simp [tokens, sound]

theorem bad_not_mem_tokensAfterItem_iff {items : List Document} :
    Token.bad ∉ tokensAfterItem items ↔ soundItems items = true := by
  match items with
  | [] => simp [tokensAfterItem, soundItems]
  | item :: rest =>
    simp [tokensAfterItem, soundItems, bad_not_mem_tokens_iff,
      bad_not_mem_tokensAfterItem_iff]

theorem bad_not_mem_tokensAfterMember_iff
    {members : List (Option String × Document)} :
    Token.bad ∉ tokensAfterMember members ↔ soundMembers members = true := by
  match members with
  | [] => simp [tokensAfterMember, soundMembers]
  | (key, value) :: rest =>
    simp [tokensAfterMember, soundMembers, bad_not_mem_tokens_iff,
      bad_not_mem_tokensAfterMember_iff]

end

theorem sound_of_writtenAs {document : Document} {text : List Char}
    (h : document.WrittenAs text) : document.sound = true :=
  bad_not_mem_tokens_iff.1 (Token.bad_not_mem_of_allWrittenAs h)

/-- The texts of a document without fault are those in which its tokens are
read. -/
theorem writtenAs_iff_scan {document : Document}
    (hsound : document.sound = true) {text : List Char} :
    document.WrittenAs text ↔ Token.scan text = document.tokens := by
  constructor
  · intro h
    have hseparated := separated_tokens_append document List.isChain_nil
      (fun token htoken => by cases htoken)
    rw [List.append_nil] at hseparated
    exact Token.scan_of_allWrittenAs h hseparated
  · exact fun h =>
      Token.allWrittenAs_of_scan h (bad_not_mem_tokens_iff.2 hsound)

/-- A document is read from each of its texts. -/
theorem ofText_of_writtenAs {document : Document} {text : List Char}
    (h : document.WrittenAs text) : ofText text = document := by
  have hsound := sound_of_writtenAs h
  have hread := ofTokens_tokens_append hsound []
  rwa [ofText, (writtenAs_iff_scan hsound).1 h,
    ← List.append_nil document.tokens]

end Document

end TypeShape
