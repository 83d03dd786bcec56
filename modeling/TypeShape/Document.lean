import TypeShape.Document.Token

/-!
JSON documents, read as far as they are well formed.

A document is built from tokens by a machine that keeps the containers it is
inside of on a stack.  It is done as soon as the first value is complete, and no
token after that counts.  Where the tokens are at fault, or end too early, it
puts `broken` into the innermost container and is done as well.  So the document
of a faulty text holds everything before the fault, and a reader who goes
through it in order meets what is wrong with the text and what is wrong with its
values in the order in which they stand.
-/
namespace TypeShape

/-- A JSON value as it is written, or as much of it as there is. -/
inductive Document where
  | null
  | bool (value : Bool)
  | number (numeral : Numeral)
  /-- A string, without its text if the escapes in it do not fit together. -/
  | string (text : Option String)
  | list (items : List Document)
  /-- The members in order, each with its key, or without it if the escapes in
  it do not fit together.  Where a key is missing there is a last member without
  key that is `broken`. -/
  | object (members : List (Option String × Document))
  | broken

namespace Document

/-! ### Soundness -/

mutual

/-- Whether a document is without fault.  Escapes that do not fit together are
no fault of the document, nor is a number that is too large. -/
def sound : Document → Bool
  | list items => soundItems items
  | object members => soundMembers members
  | broken => false
  | _ => true

def soundItems : List Document → Bool
  | [] => true
  | item :: rest => item.sound && soundItems rest

def soundMembers : List (Option String × Document) → Bool
  | [] => true
  | (_, value) :: rest => value.sound && soundMembers rest

end

/-! ### The machine -/

/-- A container that is being read, with what is in it so far, the last thing
first. -/
inductive Frame where
  | list (items : List Document)
  | object (members : List (Option String × Document))
  | member (members : List (Option String × Document)) (key : Option String)

inductive Phase where
  | value
  | firstItem
  | key
  | firstKey
  | colon
  /-- A comma, or the end of the container. -/
  | separator
deriving DecidableEq

/-- The state of the machine: where it is, inside which containers, or what it
has read. -/
inductive State where
  | reading (phase : Phase) (stack : List Frame)
  | done (document : Document)

def Frame.plug : Frame → Document → Document
  | .list items, last => .list (last :: items).reverse
  | .object members, last => .object ((none, last) :: members).reverse
  | .member members key, last => .object ((key, last) :: members).reverse

/-- The whole document if the innermost container ends with a given value and no
other container goes on after that. -/
def plug (stack : List Frame) (last : Document) : Document :=
  stack.foldl (fun inner frame => frame.plug inner) last

def abandon (stack : List Frame) : State :=
  .done (plug stack broken)

def settle (value : Document) : List Frame → State
  | [] => .done value
  | .list items :: stack =>
      .reading .separator (.list (value :: items) :: stack)
  | .object members :: stack => abandon (.object members :: stack)
  | .member members key :: stack =>
      .reading .separator (.object ((key, value) :: members) :: stack)

def takeValue (stack : List Frame) : Token → State
  | .null => settle .null stack
  | .bool value => settle (.bool value) stack
  | .number numeral => settle (.number numeral) stack
  | .string text => settle (.string text) stack
  | .openList => .reading .firstItem (.list [] :: stack)
  | .openObject => .reading .firstKey (.object [] :: stack)
  | _ => abandon stack

def takeKey (members : List (Option String × Document)) (stack : List Frame) :
    Token → State
  | .string text => .reading .colon (.member members text :: stack)
  | _ => abandon (.object members :: stack)

def take : Phase → List Frame → Token → State
  | .value, stack, token => takeValue stack token
  | .firstItem, .list _ :: stack, .closeList => settle (.list []) stack
  | .firstItem, stack, token => takeValue stack token
  | .key, .object members :: stack, token => takeKey members stack token
  | .firstKey, .object _ :: stack, .closeObject => settle (.object []) stack
  | .firstKey, .object members :: stack, token => takeKey members stack token
  | .colon, stack, .colon => .reading .value stack
  | .separator, .list items :: stack, .comma =>
      .reading .value (.list items :: stack)
  | .separator, .list items :: stack, .closeList =>
      settle (.list items.reverse) stack
  | .separator, .object members :: stack, .comma =>
      .reading .key (.object members :: stack)
  | .separator, .object members :: stack, .closeObject =>
      settle (.object members.reverse) stack
  | _, stack, _ => abandon stack

/-- Takes a token.  Once it is done the machine takes no notice of tokens. -/
def State.step : State → Token → State
  | .reading phase stack, token => take phase stack token
  | .done document, _ => .done document

def State.document : State → Document
  | .reading _ stack => plug stack broken
  | .done document => document

def ofTokens (tokens : List Token) : Document :=
  (tokens.foldl State.step (.reading .value [])).document

/-- The document that a text starts with. -/
def ofText (text : List Char) : Document :=
  ofTokens (Token.scan text)

/-! ### The machine stops at the end of the first value -/

@[simp] theorem foldl_step_done (document : Document) (tokens : List Token) :
    tokens.foldl State.step (.done document) = .done document := by
  induction tokens with
  | nil => rfl
  | cons token rest ih => simpa [State.step] using ih

/-- Tokens after the first value make no difference. -/
theorem ofTokens_append_of_done {tokens : List Token} {document : Document}
    (h : tokens.foldl State.step (.reading .value []) = .done document)
    (more : List Token) : ofTokens (tokens ++ more) = document := by
  simp [ofTokens, List.foldl_append, h, State.document]

end Document

end TypeShape
