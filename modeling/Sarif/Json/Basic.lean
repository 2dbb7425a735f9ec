import Sarif.Text.Document
import Sarif.Hash.Basic

/-!
# JSON values

A `Json` is a value in the form in which property bags store it: numbers are known as integers
or floating-point values, and the members of an object are sorted by name with no name twice.
The order of names is the order of their bytes. The module has the equality of such values,
their structural hash, and the document that a value is written as.
-/

namespace Sarif

/-- A stored JSON value. The members of an object are kept sorted by name. -/
inductive Json where
  | null
  | boolean (value : Bool)
  | number (value : Number)
  | string (value : String)
  | array (items : List Json)
  | object (members : List (String × Json))

namespace Json

/-- Puts a member into its place; it replaces one of the same name. -/
def insertMember (name : String) (value : Json) : List (String × Json) → List (String × Json)
  | [] => [(name, value)]
  | (other, held) :: rest =>
    if name < other then (name, value) :: (other, held) :: rest
    else if name = other then (name, value) :: rest
    else (other, held) :: insertMember name value rest

/-- The members of an object from members in any order; of several values under one name the
last one counts. -/
def sortMembers (members : List (String × Json)) : List (String × Json) :=
  members.foldl (fun sorted member => insertMember member.1 member.2 sorted) []

/-- The object of a list of members in any order. -/
def ofMembers (members : List (String × Json)) : Json :=
  object (sortMembers members)

/-- The value stored for a floating-point number; one that is not finite is stored as null. -/
def ofFloat (x : Binary64) : Json :=
  if x.isFinite then number (.float x) else null

/-- The value under a name in a list of members. -/
def lookup (name : String) : List (String × Json) → Option Json
  | [] => none
  | (other, value) :: rest => if other = name then some value else lookup name rest

/-- The string that a value is, if it is one. -/
def string? : Json → Option String
  | string s => some s
  | _ => none

mutual

/-- Equality of stored values: numbers as numbers, arrays item by item, objects member by
member. -/
def same : Json → Json → Bool
  | null, other => match other with
    | null => true
    | _ => false
  | boolean b, other => match other with
    | boolean c => b == c
    | _ => false
  | number n, other => match other with
    | number m => n.same m
    | _ => false
  | string s, other => match other with
    | string t => s == t
    | _ => false
  | array items, other => match other with
    | array others => sameItems items others
    | _ => false
  | object members, other => match other with
    | object others => sameMembers members others
    | _ => false

/-- Equality of runs of items. -/
def sameItems : List Json → List Json → Bool
  | [], others => others.isEmpty
  | item :: rest, others => match others with
    | [] => false
    | other :: more => same item other && sameItems rest more

/-- Equality of runs of members. -/
def sameMembers : List (String × Json) → List (String × Json) → Bool
  | [], others => others.isEmpty
  | (name, value) :: rest, others => match others with
    | [] => false
    | (name', value') :: more => name == name' && same value value' && sameMembers rest more

end

mutual

/-- The structural hash of a stored value. A number hashes as its text. -/
def hash : Json → HashCode
  | null => 0
  | boolean b => HashCode.ofBool b
  | number n => HashCode.ofString n.text
  | string s => HashCode.ofString s
  | array items => foldItems HashCode.seed items
  | object members => foldMembers 0 members

/-- Folds items into a running hash, one place each. -/
def foldItems (running : HashCode) : List Json → HashCode
  | [] => running
  | item :: rest => foldItems (HashCode.combine (running * 31) (hash item)) rest

/-- Lays members over a running hash. -/
def foldMembers (running : HashCode) : List (String × Json) → HashCode
  | [] => running
  | (name, value) :: rest => foldMembers (running ^^^ HashCode.ofString name ^^^ hash value) rest

end

mutual

/-- The document that a stored value is written as. -/
def document : Json → Document
  | null => .null
  | boolean b => .boolean b
  | number n => .numeral n.numeral
  | string s => Document.string s
  | array items => .array (itemDocuments items) none
  | object members => .object (memberDocuments members) .closed

/-- The documents of a run of items. -/
def itemDocuments : List Json → List Document
  | [] => []
  | item :: rest => document item :: itemDocuments rest

/-- The documents of a run of members. -/
def memberDocuments : List (String × Json) → List (Literal × Document)
  | [] => []
  | (name, value) :: rest => (Literal.ofString name, document value) :: memberDocuments rest

end

end Json
end Sarif
