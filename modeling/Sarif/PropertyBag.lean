import Sarif.Error
import Sarif.Node.Read
import Sarif.Node.Write

/-!
# Property bags

Every node may carry a bag of named JSON values. A bag is an ordered dictionary: setting a
property overwrites in place or appends, removing one keeps the order of the rest. Values go in
and come out raw, or through the type that the caller asks for. The `tags` property, an array of
strings without repetition, has operations of its own.
-/

namespace Sarif

/-- The named values that a node carries beside its fields. -/
abbrev PropertyBag := Dict Json

/-- A value offered to a bag, which may turn out not to be storable. -/
inductive Offered where
  | json (value : Json)
  /-- An integer of any size. -/
  | integer (value : Int)
  /-- A floating-point number; one that is not finite is stored as null. -/
  | float (value : Binary64)
  /-- A map whose keys are pairs of numbers. -/
  | pairMap (entries : List ((Int × Int) × Int))
  | node {kind : Kind} (node : Node kind)
  /-- A value of any other type that fails to be stored. -/
  | unstorable (problem : StoreProblem)

/-- The stored form of an integer, if there is one. -/
def Json.ofInteger (i : Int) : Except StoreProblem Json :=
  if Number.minInteger ≤ i ∧ i ≤ Number.maxInteger then .ok (.number (.integer i))
  else .error .numberOutOfRange

/-- The stored form of an offered value. A map needs no key, and so no string, when it is
empty. -/
def Offered.toJson : Offered → Except StoreProblem Json
  | json value => .ok value
  | integer i => Json.ofInteger i
  | float x => .ok (Json.ofFloat x)
  | pairMap [] => .ok (.object [])
  | pairMap (_ :: _) => .error .keyNotString
  | node n => .ok n.document.toJson
  | unstorable problem => .error problem

namespace PropertyBag

/-- Reads a bag from a text. -/
def load (text : String) : Except Problem PropertyBag := do
  let v ← FieldType.load (.required .bag) text
  return v.content

/-- The bag of a list of pairs: a repeated key keeps its first position and takes its last value. -/
def ofPairs (pairs : List (String × Json)) : PropertyBag :=
  Dict.ofList pairs

/-- The property that holds the tags. -/
def tagsKey : String := "tags"

/-- A property read as a type; nothing if there is no such property. -/
def read (bag : PropertyBag) (t : FieldType) (name : String) :
    Except Error (Option (FieldValue t)) :=
  match bag.get? name with
  | none => .ok none
  | some value =>
    match t.ofJson value with
    | .ok v => .ok (some v)
    | .error problem => .error (.property name (.read problem))

/-- Stores an offered value under a name: the value that was there, and the bag afterwards. -/
def set (bag : PropertyBag) (name : String) (value : Offered) :
    Except Error (Option Json × PropertyBag) :=
  match value.toJson with
  | .ok stored => .ok (bag.get? name, bag.insert name stored)
  | .error problem => .error (.property name (.store problem))

/-- Stores a value as it is under a name: the value that was there, and the bag afterwards. -/
def setRaw (bag : PropertyBag) (name : String) (value : Json) : Option Json × PropertyBag :=
  (bag.get? name, bag.insert name value)

/-- Removes a property: the value that was there, and the bag afterwards. -/
def remove (bag : PropertyBag) (name : String) : Option Json × PropertyBag :=
  (bag.get? name, bag.erase name)

/-- The strings of the tags, in order; nothing if they are not an array. -/
def tags (bag : PropertyBag) : List String :=
  match bag.get? tagsKey with
  | some (.array items) => items.filterMap Json.string?
  | _ => []

/-- Whether a tag is among the tags. -/
def hasTag (bag : PropertyBag) (tag : String) : Bool :=
  bag.tags.contains tag

/-- The items of the tags; none if they are not an array. -/
def tagItems (bag : PropertyBag) : List Json :=
  match bag.get? tagsKey with
  | some (.array items) => items
  | _ => []

/-- Whether an item of the tags is the given tag. -/
def isTag (tag : String) (item : Json) : Bool :=
  item.string? == some tag

/-- Adds a tag, unless it is there, and says whether it was added. Tags that are missing or not
an array become an array. -/
def addTag (bag : PropertyBag) (tag : String) : Bool × PropertyBag :=
  let items := bag.tagItems
  if items.any (isTag tag) then (false, bag.insert tagsKey (.array items))
  else (true, bag.insert tagsKey (.array (items ++ [.string tag])))

/-- Removes a tag wherever it stands, and says whether it was there. Tags that are an empty
array afterwards are dropped. -/
def removeTag (bag : PropertyBag) (tag : String) : Bool × PropertyBag :=
  match bag.get? tagsKey with
  | some (.array items) =>
    let kept := items.filter fun item => !isTag tag item
    let removed := kept.length != items.length
    (removed, if kept.isEmpty then bag.erase tagsKey else bag.insert tagsKey (.array kept))
  | _ => (false, bag)

/-- The document of a bag. -/
def document (bag : PropertyBag) : Document :=
  Flat.document (.map .json) bag

/-- The structural hash of a bag. -/
def hash (bag : PropertyBag) : HashCode :=
  Flat.hash (.map .json) bag

/-- Whether two bags hold the same, whatever the order. -/
def same (bag other : PropertyBag) : Bool :=
  Flat.same (.map .json) bag other

end PropertyBag

/-- The place of the property bag, which every kind has as its last field. -/
def Kind.properties (k : Kind) : Place k.fields ⟨"properties", .optional .bag⟩ :=
  .ofIndex (k.fields.length - 1) (by cases k <;> rfl)

namespace Node

variable {k : Kind}

/-- The property bag of a node, if it has one. -/
def bag? (n : Node k) : Option PropertyBag :=
  n.get k.properties

/-- The node with another property bag, or with none. -/
def setBag (n : Node k) (bag : Option PropertyBag) : Node k :=
  n.set k.properties bag

/-- The property bag of a node, empty if it has none. -/
def bag (n : Node k) : PropertyBag :=
  n.bag?.getD Dict.empty

/-- A property of a node read as a type. -/
def property (n : Node k) (t : FieldType) (name : String) :
    Except Error (Option (FieldValue t)) :=
  match n.bag? with
  | some bag => bag.read t name
  | none => .ok none

/-- Sets a property of a node and gives back the value that was there. The bag is made first, if
there is none, and stays made when the value cannot be stored. -/
def setProperty (n : Node k) (name : String) (value : Offered) :
    Node k × Except Error (Option Json) :=
  match PropertyBag.set n.bag name value with
  | .ok (old, bag) => (n.setBag (some bag), .ok old)
  | .error e => (n.setBag (some n.bag), .error e)

/-- A copy of a node, which must be there. -/
def copyFrom (k : Kind) : Option (Node k) → Except Error (Node k)
  | some n => .ok n
  | none => .error (.absentSource k)

end Node
end Sarif
