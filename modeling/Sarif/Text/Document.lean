import Sarif.Text.Token

/-!
# Documents

A `Document` is the tree of a JSON text as it stands, member order, repeated names and number
spelling included. A text that is not JSON has a document too, up to the place where it goes
wrong: arrays and objects say how they end, and a value that is none is `broken`. A reader that
walks such a document from left to right meets the same first problem as one that reads the
text, so what a value is read as can be said on documents alone.

`Document.ofTokens` builds the document by a stack of open arrays and objects and one step per
token; it needs no recursion of its own and accepts any depth.
-/

namespace Sarif

/-- How the members of an object end. -/
inductive Ending where
  /-- With the closing brace. -/
  | closed
  /-- After a member, with neither a comma nor the closing brace. -/
  | broken (defect : Defect)
  /-- Where a name must stand, with no string there. -/
  | unnamed (defect : Defect)
  deriving DecidableEq, Repr

/-- A JSON text as a tree, up to the place where it goes wrong if it does. -/
inductive Document where
  | null
  | boolean (value : Bool)
  | numeral (value : Numeral)
  | literal (value : Literal)
  /-- An array; `defect` is set when its closing bracket is missing. -/
  | array (items : List Document) (defect : Option Defect)
  | object (members : List (Literal × Document)) (ending : Ending)
  | broken (what : Broken)

/-- An array or an object that is still open, with what it holds so far, the last first. -/
inductive Frame where
  | array (before : List Document)
  | object (before : List (Literal × Document)) (name : Literal)

/-- What may come next in a text, with the frames that are open, the innermost first. -/
inductive Parse where
  /-- A value must come. -/
  | value (stack : List Frame)
  /-- A bracket was opened: a value or the closing bracket may come. -/
  | firstItem (stack : List Frame)
  /-- A brace was opened: a name or the closing brace may come. -/
  | firstName (stack : List Frame)
  /-- A comma came in an object: a name must follow. -/
  | name (stack : List Frame) (before : List (Literal × Document))
  /-- A name came: a colon must follow. -/
  | colon (stack : List Frame) (before : List (Literal × Document)) (name : Literal)
  /-- A value is complete: a comma or a closing mark may come, nothing at the top level. -/
  | complete (stack : List Frame) (value : Document)
  /-- The text went wrong; `trailing` when it did so after its document. -/
  | stopped (root : Document) (trailing : Bool)

namespace Parse

/-- The document of a text that goes wrong within `inner`. -/
def enclose : List Frame → Document → Document
  | [], inner => inner
  | .array before :: outer, inner =>
    enclose outer (.array (before.reverse ++ [inner]) (some .malformed))
  | .object before key :: outer, inner =>
    enclose outer (.object (before.reverse ++ [(key, inner)]) (.broken .malformed))

/-- The parse of a text that goes wrong within `inner`. -/
def stop (stack : List Frame) (inner : Document) : Parse :=
  .stopped (enclose stack inner) false

/-- A token where a value must come. -/
def stepValue (stack : List Frame) : Token → Parse
  | .openArray => .firstItem stack
  | .openObject => .firstName stack
  | .null => .complete stack .null
  | .boolean b => .complete stack (.boolean b)
  | .numeral n => .complete stack (.numeral n)
  | .literal l => .complete stack (.literal l)
  | .broken b => stop stack (.broken b)
  | _ => stop stack (.broken .unexpected)

/-- A token where a name must come. -/
def stepName (stack : List Frame) (before : List (Literal × Document)) : Token → Parse
  | .literal l => .colon stack before l
  | _ => stop stack (.object before.reverse (.unnamed .malformed))

/-- A token after a value within the innermost frame. -/
def stepComplete (stack : List Frame) (inner : Document) (token : Token) : Parse :=
  match stack with
  | [] => .stopped inner true
  | .array before :: outer =>
    match token with
    | .comma => .value (.array (inner :: before) :: outer)
    | .closeArray => .complete outer (.array (before.reverse ++ [inner]) none)
    | _ => stop outer (.array (before.reverse ++ [inner]) (some .malformed))
  | .object before key :: outer =>
    match token with
    | .comma => .name outer ((key, inner) :: before)
    | .closeObject => .complete outer (.object (before.reverse ++ [(key, inner)]) .closed)
    | _ => stop outer (.object (before.reverse ++ [(key, inner)]) (.broken .malformed))

/-- One token: what may come after it. -/
def step : Parse → Token → Parse
  | .value stack, token => stepValue stack token
  | .firstItem stack, .closeArray => .complete stack (.array [] none)
  | .firstItem stack, token => stepValue (.array [] :: stack) token
  | .firstName stack, .closeObject => .complete stack (.object [] .closed)
  | .firstName stack, token => stepName stack [] token
  | .name stack before, token => stepName stack before token
  | .colon stack before key, .colon => .value (.object before key :: stack)
  | .colon stack before key, _ => stop (.object before key :: stack) (.broken .unexpected)
  | .complete stack inner, token => stepComplete stack inner token
  | .stopped root trailing, _ => .stopped root trailing

/-- The document at the end of the text, and whether more than blanks follow it. -/
def finish : Parse → Document × Bool
  | .value stack => (enclose stack (.broken .missing), false)
  | .firstItem stack => (enclose (.array [] :: stack) (.broken .missing), false)
  | .firstName stack => (enclose stack (.object [] (.unnamed .truncated)), false)
  | .name stack before =>
    (enclose stack (.object before.reverse (.unnamed .truncated)), false)
  | .colon stack before key =>
    (enclose (.object before key :: stack) (.broken .missing), false)
  | .complete [] inner => (inner, false)
  | .complete (.array before :: outer) inner =>
    (enclose outer (.array (before.reverse ++ [inner]) (some .truncated)), false)
  | .complete (.object before key :: outer) inner =>
    (enclose outer (.object (before.reverse ++ [(key, inner)]) (.broken .truncated)), false)
  | .stopped root trailing => (root, trailing)

end Parse

namespace Document

/-- The document of a list of tokens, and whether more than blanks follow it. -/
def ofTokens (tokens : List Token) : Document × Bool :=
  (tokens.foldl Parse.step (.value [])).finish

/-- The document of a text, and whether more than blanks follow it. -/
def ofText (text : List Char) : Document × Bool :=
  ofTokens (Token.ofText text)

/-- A well-formed string. -/
def string (s : String) : Document :=
  .literal (Literal.ofString s)

end Document

namespace Ending

/-- The defect of an object that is not closed. -/
def defect? : Ending → Option Defect
  | closed => none
  | broken d => some d
  | unnamed d => some d

end Ending

namespace Document

mutual

/-- The first defect that a reader meets that skips the document: the contents of strings and
the size of numbers do not matter to it. -/
def skip : Document → Option Defect
  | .null => none
  | .boolean _ => none
  | .numeral _ => none
  | .literal l => l.defect
  | .array items defect => (skipItems items).or defect
  | .object members ending => (skipMembers members).or ending.defect?
  | .broken b => some b.skipped

/-- The first defect in a run of items. -/
def skipItems : List Document → Option Defect
  | [] => none
  | item :: rest => (skip item).or (skipItems rest)

/-- The first defect in a run of members. -/
def skipMembers : List (Literal × Document) → Option Defect
  | [] => none
  | (name, value) :: rest => name.defect.or ((skip value).or (skipMembers rest))

end

mutual

/-- The compact spelling of a document. What is broken has none. -/
def text : Document → List Char
  | .null => ['n', 'u', 'l', 'l']
  | .boolean true => ['t', 'r', 'u', 'e']
  | .boolean false => ['f', 'a', 'l', 's', 'e']
  | .numeral n => n.text
  | .literal l => l.text
  | .array items _ => '[' :: itemsText items ++ [']']
  | .object members _ => '{' :: membersText members ++ ['}']
  | .broken _ => []

/-- The spelling of a run of items, with commas between them. -/
def itemsText : List Document → List Char
  | [] => []
  | item :: rest => text item ++ moreItemsText rest

/-- The spelling of the items after the first, each with a comma in front. -/
def moreItemsText : List Document → List Char
  | [] => []
  | item :: rest => ',' :: text item ++ moreItemsText rest

/-- The spelling of a run of members, with commas between them. -/
def membersText : List (Literal × Document) → List Char
  | [] => []
  | (name, value) :: rest => name.text ++ ':' :: text value ++ moreMembersText rest

/-- The spelling of the members after the first, each with a comma in front. -/
def moreMembersText : List (Literal × Document) → List Char
  | [] => []
  | (name, value) :: rest => ',' :: name.text ++ ':' :: text value ++ moreMembersText rest

end

/-- The text of a document. -/
def render (d : Document) : String :=
  String.ofList d.text

end Document
end Sarif
