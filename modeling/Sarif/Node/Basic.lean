import Sarif.Schema.Fields
import Sarif.Value.Flat

/-!
# Nodes

A node of kind `k` is a record of values for the fields of `k`. The types of the family are
indexed by the schema, so a node can only hold what its kind allows, and one definition over the
family serves all kinds. Lists and maps of nodes are spelled out as members of the family; their
ordinary forms are `Slots.toList` and `Entries.toDict`.

`Ty.Content` gives the ordinary form of a value of each type, and `Node.get` and `Node.set` read
and write a field in that form.
-/

namespace Sarif

mutual

/-- A node of a kind. -/
inductive Node : Kind → Type where
  | mk {k : Kind} (fields : Record k.fields) : Node k

/-- A value of a type. -/
inductive Value : Ty → Type where
  | flat {f : Flat} (x : f.Value) : Value (.flat f)
  | node {k : Kind} (n : Node k) : Value (.node k)
  | nodes {k : Kind} (s : Slots k) : Value (.nodes k)
  | nodeMap {k : Kind} (e : Entries k) : Value (.nodeMap k)

/-- What a field holds. -/
inductive FieldValue : FieldType → Type where
  | required {t : Ty} (v : Value t) : FieldValue (.required t)
  | absent {t : Ty} : FieldValue (.optional t)
  | present {t : Ty} (v : Value t) : FieldValue (.optional t)

/-- Values for a list of fields. -/
inductive Record : List Field → Type where
  | nil : Record []
  | cons {f : Field} {fs : List Field} (v : FieldValue f.type) (rest : Record fs) :
    Record (f :: fs)

/-- A list of nodes whose slots may be empty. -/
inductive Slots : Kind → Type where
  | nil {k : Kind} : Slots k
  | empty {k : Kind} (rest : Slots k) : Slots k
  | full {k : Kind} (n : Node k) (rest : Slots k) : Slots k

/-- The entries of an ordered map of nodes. -/
inductive Entries : Kind → Type where
  | nil {k : Kind} : Entries k
  | cons {k : Kind} (key : String) (n : Node k) (rest : Entries k) : Entries k

end

/-- A node together with its kind. -/
abbrev AnyNode := (k : Kind) × Node k

/-- The record of a node. -/
def Node.fields {k : Kind} : Node k → Record k.fields
  | .mk fields => fields

namespace Slots

/-- The ordinary form of a list of nodes. -/
def toList {k : Kind} : Slots k → List (Option (Node k))
  | nil => []
  | empty rest => none :: rest.toList
  | full n rest => some n :: rest.toList

/-- A list of nodes from its ordinary form. -/
def ofList {k : Kind} : List (Option (Node k)) → Slots k
  | [] => nil
  | none :: rest => empty (ofList rest)
  | some n :: rest => full n (ofList rest)

@[simp] theorem toList_ofList {k : Kind} (l : List (Option (Node k))) :
    (ofList l).toList = l := by
  induction l with
  | nil => rfl
  | cons slot rest ih => cases slot <;> simp [ofList, toList, ih]

@[simp] theorem ofList_toList {k : Kind} : (s : Slots k) → ofList s.toList = s
  | nil => rfl
  | empty rest => by simp [toList, ofList, ofList_toList rest]
  | full n rest => by simp [toList, ofList, ofList_toList rest]

end Slots

namespace Entries

/-- The entries as an ordinary list. -/
def toList {k : Kind} : Entries k → List (String × Node k)
  | nil => []
  | cons key n rest => (key, n) :: rest.toList

/-- Entries from an ordinary list. -/
def ofList {k : Kind} : List (String × Node k) → Entries k
  | [] => nil
  | (key, n) :: rest => cons key n (ofList rest)

@[simp] theorem toList_ofList {k : Kind} (l : List (String × Node k)) :
    (ofList l).toList = l := by
  induction l with
  | nil => rfl
  | cons entry rest ih => simp [ofList, toList, ih]

@[simp] theorem ofList_toList {k : Kind} : (e : Entries k) → ofList e.toList = e
  | nil => rfl
  | cons key n rest => by simp [toList, ofList, ofList_toList rest]

/-- The ordinary form of a map of nodes. -/
def toDict {k : Kind} (e : Entries k) : Dict (Node k) :=
  ⟨e.toList⟩

/-- A map of nodes from its ordinary form. -/
def ofDict {k : Kind} (d : Dict (Node k)) : Entries k :=
  ofList d.entries

@[simp] theorem toDict_ofDict {k : Kind} (d : Dict (Node k)) : (ofDict d).toDict = d := by
  simp [ofDict, toDict]

@[simp] theorem ofDict_toDict {k : Kind} (e : Entries k) : ofDict e.toDict = e := by
  simp [ofDict, toDict]

end Entries

/-- The ordinary form of the values of a type. -/
abbrev Ty.Content : Ty → Type
  | .flat f => f.Value
  | .node k => Node k
  | .nodes k => List (Option (Node k))
  | .nodeMap k => Dict (Node k)

/-- The ordinary form of what a field holds. -/
abbrev FieldType.Content : FieldType → Type
  | .required t => t.Content
  | .optional t => Option t.Content

namespace Value

/-- The ordinary form of a value. -/
def content : {t : Ty} → Value t → t.Content
  | _, flat x => x
  | _, node n => n
  | _, nodes s => s.toList
  | _, nodeMap e => e.toDict

/-- A value from its ordinary form. -/
def ofContent : (t : Ty) → t.Content → Value t
  | .flat _, x => flat x
  | .node _, n => node n
  | .nodes _, l => nodes (Slots.ofList l)
  | .nodeMap _, d => nodeMap (Entries.ofDict d)

@[simp] theorem content_ofContent (t : Ty) (c : t.Content) : (ofContent t c).content = c := by
  cases t <;> simp [ofContent, content]

@[simp] theorem ofContent_content {t : Ty} (v : Value t) : ofContent t v.content = v := by
  cases v <;> simp [ofContent, content]

end Value

namespace FieldValue

/-- The ordinary form of what a field holds. -/
def content : {t : FieldType} → FieldValue t → t.Content
  | _, required v => v.content
  | _, absent => none
  | _, present v => some v.content

/-- What a field holds from its ordinary form. -/
def ofContent : (t : FieldType) → t.Content → FieldValue t
  | .required t, c => required (Value.ofContent t c)
  | .optional _, none => absent
  | .optional t, some c => present (Value.ofContent t c)

@[simp] theorem content_ofContent (t : FieldType) (c : t.Content) :
    (ofContent t c).content = c := by
  cases t with
  | required t => simp [ofContent, content]
  | optional t => cases c <;> simp [ofContent, content]

@[simp] theorem ofContent_content {t : FieldType} (v : FieldValue t) :
    ofContent t v.content = v := by
  cases v <;> simp [ofContent, content]

end FieldValue

/-- The place of a field in a list of fields. -/
inductive Place : List Field → Field → Type where
  | here {f : Field} {fs : List Field} : Place (f :: fs) f
  | later {g f : Field} {fs : List Field} (p : Place fs f) : Place (g :: fs) f
  deriving DecidableEq

namespace Place

/-- The place of the field at an index. -/
def ofIndex : {fs : List Field} → {f : Field} → (i : Nat) → fs[i]? = some f → Place fs f
  | _ :: _, _, 0, found => (Option.some.inj found) ▸ here
  | _ :: _, _, i + 1, found => later (ofIndex i (by simpa using found))

/-- The first field of a name, with its place. -/
def find? (name : String) : (fs : List Field) → Option ((f : Field) × Place fs f)
  | [] => none
  | f :: fs =>
    if f.name = name then some ⟨f, here⟩
    else (find? name fs).map fun found => ⟨_, later found.2⟩

end Place

namespace Record

/-- What the field at a place holds. -/
def get : {fs : List Field} → {f : Field} → Record fs → Place fs f → FieldValue f.type
  | _, _, cons v _, .here => v
  | _, _, cons _ rest, .later p => rest.get p

/-- The record with another value at a place. -/
def set : {fs : List Field} → {f : Field} → Record fs → Place fs f → FieldValue f.type →
    Record fs
  | _, _, cons _ rest, .here, v => cons v rest
  | _, _, cons v rest, .later p, w => cons v (rest.set p w)

end Record

namespace Record

/-- A field holds what was put into it. -/
@[simp] theorem get_set : {fs : List Field} → {f : Field} → (r : Record fs) →
    (p : Place fs f) → (v : FieldValue f.type) → (r.set p v).get p = v
  | _, _, cons _ _, .here, _ => rfl
  | _, _, cons _ rest, .later p, v => get_set rest p v

/-- Putting back what a field holds changes nothing. -/
@[simp] theorem set_get : {fs : List Field} → {f : Field} → (r : Record fs) →
    (p : Place fs f) → r.set p (r.get p) = r
  | _, _, cons _ _, .here => rfl
  | _, _, cons v rest, .later p => congrArg (cons v) (set_get rest p)

/-- Of two values put into one field the second stays. -/
@[simp] theorem set_set : {fs : List Field} → {f : Field} → (r : Record fs) →
    (p : Place fs f) → (v w : FieldValue f.type) → (r.set p v).set p w = r.set p w
  | _, _, cons _ _, .here, _, _ => rfl
  | _, _, cons u rest, .later p, v, w => congrArg (cons u) (set_set rest p v w)

end Record

namespace Node

variable {k : Kind} {f : Field}

/-- The content of a field. -/
def get (n : Node k) (p : Place k.fields f) : f.type.Content :=
  (n.fields.get p).content

/-- The node with other content in a field. -/
def set (n : Node k) (p : Place k.fields f) (c : f.type.Content) : Node k :=
  mk (n.fields.set p (FieldValue.ofContent _ c))

@[simp] theorem get_set (n : Node k) (p : Place k.fields f) (c : f.type.Content) :
    (n.set p c).get p = c := by
  simp [get, set, fields]

@[simp] theorem set_get (n : Node k) (p : Place k.fields f) : n.set p (n.get p) = n := by
  cases n
  simp [get, set, fields]

@[simp] theorem set_set (n : Node k) (p : Place k.fields f) (c d : f.type.Content) :
    (n.set p c).set p d = n.set p d := by
  simp [set, fields]

end Node
end Sarif
