import Sarif.Node.Read
import Sarif.Node.Write

/-!
# Well-formed nodes

The types of nodes leave out what a record type cannot say: that the keys of a map are distinct,
that a sentinel is not below `-1`, that the members of a stored object are sorted. `Each` lifts a
predicate on scalars, and one on the keys of a map, to every place of a node at any depth, and
the properties that the theorems about nodes speak of are its instances.
-/

namespace Sarif

/-- A well-formed number is an integer that is kept as one, or a finite floating-point value. -/
def Number.WellFormed : Number → Prop
  | integer i => minInteger ≤ i ∧ i ≤ maxInteger
  | float x => x.isFinite = true

namespace Json

/-- The names of the members of an object are in strict order. -/
def SortedNames (members : List (String × Json)) : Prop :=
  members.Pairwise fun one other => one.1 < other.1

mutual

/-- A well-formed stored value has well-formed numbers and sorted objects. -/
def WellFormed : Json → Prop
  | null => True
  | boolean _ => True
  | number n => n.WellFormed
  | string _ => True
  | array items => WellFormedItems items
  | object members => SortedNames members ∧ WellFormedMembers members

/-- Every item of a run is well-formed. -/
def WellFormedItems : List Json → Prop
  | [] => True
  | item :: rest => WellFormed item ∧ WellFormedItems rest

/-- Every value in a run of members is well-formed. -/
def WellFormedMembers : List (String × Json) → Prop
  | [] => True
  | (_, value) :: rest => WellFormed value ∧ WellFormedMembers rest

end

end Json

namespace Scalar

/-- A well-formed scalar keeps the invariant of its type. -/
def WellFormed : (s : Scalar) → s.Value → Prop
  | sentinel, x => Sentinel.WellFormed x
  | dateTime, x => DateTime.WellFormed x
  | json, x => Json.WellFormed x
  | _, _ => True

/-- A number is finite; every other scalar is. -/
def Finite : (s : Scalar) → s.Value → Prop
  | number, x => Binary64.isFinite x = true
  | _, _ => True

end Scalar

/-- The year of a date-time, in universal time, has at most four digits and no sign. -/
def DateTime.InEra (t : DateTime) : Prop :=
  0 ≤ (Date.ofDayNumber (t.seconds / secondsPerDay)).year ∧
    (Date.ofDayNumber (t.seconds / secondsPerDay)).year ≤ 9999

/-- A date-time lies in the years 0000 to 9999; every other scalar does. -/
def Scalar.InEra : (s : Scalar) → s.Value → Prop
  | dateTime, x => DateTime.InEra x
  | _, _ => True

section ReadsBack

/-! What is written for a floating-point number need not be read as that number: only a stored value
keeps it. Which numbers a reader finds again is a matter of how it reads a numeral. -/

variable (float? : Numeral → Option Binary64)

/-- A number is found again in what is written for it. Every integer is. -/
def Number.ReadsBack : Number → Prop
  | integer _ => True
  | float x => float? (Numeral.ofFloat x) = some x

namespace Json

mutual

/-- Every number of a stored value is found again in what is written for it. -/
def ReadsBack : Json → Prop
  | number n => n.ReadsBack float?
  | array items => ReadsBackItems items
  | object members => ReadsBackMembers members
  | _ => True

/-- Every number in a run of items is found again. -/
def ReadsBackItems : List Json → Prop
  | [] => True
  | item :: rest => ReadsBack item ∧ ReadsBackItems rest

/-- Every number in a run of members is found again. -/
def ReadsBackMembers : List (String × Json) → Prop
  | [] => True
  | (_, value) :: rest => ReadsBack value ∧ ReadsBackMembers rest

end

end Json

/-- Every number of a scalar is found again in what is written for it. -/
def Scalar.ReadsBack : (s : Scalar) → s.Value → Prop
  | number, x => (Number.float x).ReadsBack float?
  | json, x => Json.ReadsBack float? x
  | _, _ => True

end ReadsBack

/-- The keys of a map of nodes, in order. -/
def Entries.keys {k : Kind} : Entries k → List String
  | .nil => []
  | .cons key _ rest => key :: rest.keys

section Each

variable (scalar : (s : Scalar) → s.Value → Prop) (keys : List String → Prop)

/-- `scalar` holds of every scalar of a flat value, and `keys` of its keys if it is a map. -/
def Flat.Each : (f : Flat) → f.Value → Prop
  | .scalar s, x => scalar s x
  | .array s, x => ∀ item ∈ (x : List s.Value), scalar s item
  | .slots s, x => ∀ slot ∈ (x : List (Option s.Value)), ∀ item ∈ slot, scalar s item
  | .map s, x => keys (Dict.keys x) ∧ ∀ entry ∈ Dict.entries x, scalar s entry.2

mutual

/-- `scalar` holds of every scalar of a node and `keys` of the keys of every map, at any
depth. -/
def Node.Each : {k : Kind} → Node k → Prop
  | _, .mk fields => fields.Each
termination_by structural _ n => n

/-- `scalar` holds of every scalar of a value and `keys` of the keys of every map. -/
def Value.Each : {t : Ty} → Value t → Prop
  | _, .flat x => Flat.Each scalar keys _ x
  | _, .node n => n.Each
  | _, .nodes s => s.Each
  | _, .nodeMap e => keys e.keys ∧ e.Each
termination_by structural _ v => v

/-- `scalar` holds of every scalar of a field and `keys` of the keys of every map. -/
def FieldValue.Each : {t : FieldType} → FieldValue t → Prop
  | _, .required v => v.Each
  | _, .absent => True
  | _, .present v => v.Each
termination_by structural _ v => v

/-- `scalar` holds of every scalar of a record and `keys` of the keys of every map. -/
def Record.Each : {fs : List Field} → Record fs → Prop
  | _, .nil => True
  | _, .cons v rest => v.Each ∧ rest.Each
termination_by structural _ r => r

/-- `scalar` holds of every scalar of a list of nodes and `keys` of the keys of every map. -/
def Slots.Each : {k : Kind} → Slots k → Prop
  | _, .nil => True
  | _, .empty rest => rest.Each
  | _, .full n rest => n.Each ∧ rest.Each
termination_by structural _ s => s

/-- `scalar` holds of every scalar in the nodes of a map and `keys` of the keys of every map
below them. -/
def Entries.Each : {k : Kind} → Entries k → Prop
  | _, .nil => True
  | _, .cons _ n rest => n.Each ∧ rest.Each
termination_by structural _ e => e

end

end Each

section Combine

-- The linter does not see that the theorems of a mutual block use what is included in them.
set_option linter.unusedSectionVars false

variable {one other both : (s : Scalar) → s.Value → Prop}
  {oneKeys otherKeys bothKeys : List String → Prop}
  (together : ∀ s x, one s x → other s x → both s x)
  (keysTogether : ∀ keys, oneKeys keys → otherKeys keys → bothKeys keys)
include together keysTogether

/-- What two predicates say together of a flat value. -/
theorem Flat.Each.combine : (f : Flat) → (x : f.Value) →
    Flat.Each one oneKeys f x → Flat.Each other otherKeys f x → Flat.Each both bothKeys f x
  | .scalar s, x, first, second => together s x first second
  | .array s, _, first, second => fun item member =>
      together s item (first item member) (second item member)
  | .slots s, _, first, second => fun slot member item held =>
      together s item (first slot member item held) (second slot member item held)
  | .map s, _, first, second =>
      ⟨keysTogether _ first.1 second.1, fun entry member =>
        together s entry.2 (first.2 entry member) (second.2 entry member)⟩

mutual

/-- What two predicates say together of a node. -/
theorem Node.Each.combine : {k : Kind} → (n : Node k) →
    n.Each one oneKeys → n.Each other otherKeys → n.Each both bothKeys
  | _, .mk fields => by
      intro first second
      exact Record.Each.combine fields first second

/-- What two predicates say together of a value. -/
theorem Value.Each.combine : {t : Ty} → (v : Value t) →
    v.Each one oneKeys → v.Each other otherKeys → v.Each both bothKeys
  | _, .flat x => by
      intro first second
      exact Flat.Each.combine together keysTogether _ x first second
  | _, .node n => by
      intro first second
      exact Node.Each.combine n first second
  | _, .nodes s => by
      intro first second
      exact Slots.Each.combine s first second
  | _, .nodeMap e => by
      rintro ⟨keys, first⟩ ⟨keys', second⟩
      exact ⟨keysTogether _ keys keys', Entries.Each.combine e first second⟩

/-- What two predicates say together of a field. -/
theorem FieldValue.Each.combine : {t : FieldType} → (v : FieldValue t) →
    v.Each one oneKeys → v.Each other otherKeys → v.Each both bothKeys
  | _, .required v => by
      intro first second
      exact Value.Each.combine v first second
  | _, .absent => by
      intro _ _
      trivial
  | _, .present v => by
      intro first second
      exact Value.Each.combine v first second

/-- What two predicates say together of a record. -/
theorem Record.Each.combine : {fs : List Field} → (r : Record fs) →
    r.Each one oneKeys → r.Each other otherKeys → r.Each both bothKeys
  | _, .nil => by
      intro _ _
      trivial
  | _, .cons v rest => by
      rintro ⟨first, firsts⟩ ⟨second, seconds⟩
      exact ⟨FieldValue.Each.combine v first second, Record.Each.combine rest firsts seconds⟩

/-- What two predicates say together of a list of nodes. -/
theorem Slots.Each.combine : {k : Kind} → (s : Slots k) →
    s.Each one oneKeys → s.Each other otherKeys → s.Each both bothKeys
  | _, .nil => by
      intro _ _
      trivial
  | _, .empty rest => by
      intro first second
      exact Slots.Each.combine rest first second
  | _, .full n rest => by
      rintro ⟨first, firsts⟩ ⟨second, seconds⟩
      exact ⟨Node.Each.combine n first second, Slots.Each.combine rest firsts seconds⟩

/-- What two predicates say together of the nodes of a map. -/
theorem Entries.Each.combine : {k : Kind} → (e : Entries k) →
    e.Each one oneKeys → e.Each other otherKeys → e.Each both bothKeys
  | _, .nil => by
      intro _ _
      trivial
  | _, .cons _ n rest => by
      rintro ⟨first, firsts⟩ ⟨second, seconds⟩
      exact ⟨Node.Each.combine n first second, Entries.Each.combine rest firsts seconds⟩

end

end Combine

/-- What holds throughout a map of nodes holds throughout the node of each entry. -/
theorem Entries.each_iff {scalar : (s : Scalar) → s.Value → Prop} {keys : List String → Prop}
    {k : Kind} : (e : Entries k) →
    (e.Each scalar keys ↔ ∀ entry ∈ e.toList, entry.2.Each scalar keys)
  | .nil => by simp [Entries.Each, toList]
  | .cons key n rest => by simp [Entries.Each, toList, each_iff rest]

/-- A predicate on the scalars of a node may be weakened, and so may one on the keys. -/
theorem Node.Each.imp {one other : (s : Scalar) → s.Value → Prop}
    {oneKeys otherKeys : List String → Prop} (weaken : ∀ s x, one s x → other s x)
    (weakenKeys : ∀ keys, oneKeys keys → otherKeys keys) {k : Kind} (n : Node k)
    (each : n.Each one oneKeys) : n.Each other otherKeys :=
  Node.Each.combine (fun s x first _ => weaken s x first)
    (fun keys first _ => weakenKeys keys first) n each each

namespace Node

variable {k : Kind}

/-- A well-formed node has distinct keys in every map, and well-formed scalars. These are the
nodes that reading, the default nodes and the operations of this library make. -/
def WellFormed (n : Node k) : Prop :=
  n.Each Scalar.WellFormed List.Nodup

/-- Every floating-point number in the fields of a node is finite, at any depth. -/
def FloatsFinite (n : Node k) : Prop :=
  n.Each Scalar.Finite fun _ => True

/-- A reader of texts finds every floating-point number of a node again in what is written for it,
at any depth and within bags too. -/
def FloatsReadBack (n : Node k) : Prop :=
  n.Each (Scalar.ReadsBack Numeral.float?) fun _ => True

/-- Every date-time of a node lies in the years 0000 to 9999 of universal time, at any depth. -/
def DatesInEra (n : Node k) : Prop :=
  n.Each Scalar.InEra fun _ => True

end Node
end Sarif
