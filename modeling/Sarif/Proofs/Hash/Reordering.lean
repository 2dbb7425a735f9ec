import Sarif.Node.FieldNames
import Sarif.Proofs.Hash.Consistency

/-!
# The order of maps and the signs of zeros

A map remembers the order of its entries and a number the sign of its zero, and a document shows
both. `Node.Reordered` relates a node to each that differs from it in nothing else: entries of maps
and bags stand in another order, in any number of places at any depth, and zeros in number fields
have another sign. Neither is part of what a node is compared by: `Node.same_and_hash_of_reordered`
says that such nodes are equal and have one hash. Zeros inside a bag are not among those that may
change sign.
-/

namespace Sarif

/-! ## Reordering -/

/-- The same scalar, or two zeros if it is a number. -/
def Scalar.SameButSign : (s : Scalar) → s.Value → s.Value → Prop
  | number, x, y => x = y ∨ (Binary64.isZero x = true ∧ Binary64.isZero y = true)
  | _, x, y => x = y

/-- Flat values of one type: lists item by item, maps entry by entry once the entries of the second
are put into another order. -/
def Flat.Reordered : (f : Flat) → f.Value → f.Value → Prop
  | .scalar s, x, y => s.SameButSign x y
  | .array s, x, y => List.Forall₂ s.SameButSign x y
  | .slots s, x, y => List.Forall₂ (Option.Rel s.SameButSign) x y
  | .map s, d, e => Dict.Aligned s.SameButSign (Dict.entries d) (Dict.entries e)

mutual

/-- Nodes that differ in the order of maps and the signs of zeros at most. -/
def Node.Reordered : {k : Kind} → Node k → Node k → Prop
  | _, .mk fields, m => match m with
    | .mk others => fields.Reordered others
termination_by structural _ n => n

/-- Values that differ in the order of maps and the signs of zeros at most. -/
def Value.Reordered : {t : Ty} → Value t → Value t → Prop
  | _, .flat x, w => match w with
    | .flat y => Flat.Reordered _ x y
  | _, .node n, w => match w with
    | .node m => n.Reordered m
  | _, .nodes s, w => match w with
    | .nodes t => s.Reordered t
  | _, .nodeMap e, w => match w with
    | .nodeMap d => e.Reordered d.toList
termination_by structural _ v => v

/-- Fields that are both absent, or hold values that differ in order and signs at most. -/
def FieldValue.Reordered : {t : FieldType} → FieldValue t → FieldValue t → Prop
  | _, .required v, w => match w with
    | .required u => v.Reordered u
  | _, .absent, w => match w with
    | .absent => True
    | .present _ => False
  | _, .present v, w => match w with
    | .present u => v.Reordered u
    | .absent => False
termination_by structural _ v => v

/-- Records whose fields differ in order and signs at most. -/
def Record.Reordered : {fs : List Field} → Record fs → Record fs → Prop
  | _, .nil, _ => True
  | _, .cons v rest, w => match w with
    | .cons u more => v.Reordered u ∧ rest.Reordered more
termination_by structural _ r => r

/-- Lists of nodes, slot by slot: a list has no order to change. -/
def Slots.Reordered : {k : Kind} → Slots k → Slots k → Prop
  | _, .nil, w => match w with
    | .nil => True
    | _ => False
  | _, .empty rest, w => match w with
    | .empty more => rest.Reordered more
    | _ => False
  | _, .full n rest, w => match w with
    | .full m more => n.Reordered m ∧ rest.Reordered more
    | _ => False
termination_by structural _ s => s

/-- Entries of a map against entries in any order: the first stands somewhere among the others, and
the rest are a reordering of what is left of these. -/
def Entries.Reordered : {k : Kind} → Entries k → List (String × Node k) → Prop
  | _, .nil, others => others = []
  | _, .cons key n rest, others => ∃ before m after,
      others = before ++ (key, m) :: after ∧ n.Reordered m ∧ rest.Reordered (before ++ after)
termination_by structural _ e => e

end

/-! ## Reordered nodes are related -/

/-- An entry aligned with one anywhere in a list is aligned together with the rest. -/
theorem Dict.Aligned.cons {α : Type} {relate : α → α → Prop} {key : String} {x y : α}
    {entries before after : List (String × α)} (head : relate x y)
    (tail : Dict.Aligned relate entries (before ++ after)) :
    Dict.Aligned relate ((key, x) :: entries) (before ++ (key, y) :: after) := by
  obtain ⟨reordered, perm, each⟩ := tail
  exact ⟨(key, y) :: reordered, List.perm_middle.trans (perm.cons _), .cons ⟨rfl, head⟩ each⟩

/-- Dictionaries with aligned entries are related if the keys of the first are distinct. -/
theorem Dict.related_of_aligned {α : Type} {relate : α → α → Prop} {d e : Dict α}
    (distinct : d.WellFormed) (aligned : Dict.Aligned relate d.entries e.entries) :
    Dict.Related relate d e := by
  have distinct' : e.WellFormed := aligned.keys_perm.nodup_iff.mp distinct
  exact (Dict.related_iff_aligned distinct distinct').mpr aligned

/-- Reordered flat values are related. -/
theorem Flat.related_of_reordered {scalar : (s : Scalar) → s.Value → Prop} (f : Flat)
    {x y : f.Value} (distinct : Flat.Each scalar List.Nodup f x) (reordered : f.Reordered x y) :
    Flat.Related Scalar.SameButSign f x y := by
  cases f with
  | map s => exact Dict.related_of_aligned distinct.1 reordered
  | _ => exact reordered

section Related

variable {scalar : (s : Scalar) → s.Value → Prop}

mutual

/-- Reordered nodes are related. -/
theorem Node.related_of_reordered : {k : Kind} → (n m : Node k) → n.Each scalar List.Nodup →
    n.Reordered m → n.Related Scalar.SameButSign m
  | _, .mk fields, .mk others => by
      intro distinct reordered
      exact Record.related_of_reordered fields others distinct reordered

/-- Reordered values are related. -/
theorem Value.related_of_reordered : {t : Ty} → (v w : Value t) → v.Each scalar List.Nodup →
    v.Reordered w → v.Related Scalar.SameButSign w
  | _, .flat _, .flat _ => by
      intro distinct reordered
      exact Flat.related_of_reordered _ distinct reordered
  | _, .node n, .node m => by
      intro distinct reordered
      exact Node.related_of_reordered n m distinct reordered
  | _, .nodes s, .nodes t => by
      intro distinct reordered
      exact Slots.related_of_reordered s t distinct reordered
  | _, .nodeMap e, .nodeMap d => by
      rintro ⟨keys, distinct⟩ reordered
      have aligned := Entries.aligned_of_reordered e d.toList distinct reordered
      have keys' : e.toDict.WellFormed := by rwa [Entries.keys_eq_toList] at keys
      exact (Entries.related_iff_toDict e d).mpr (Dict.related_of_aligned keys' aligned)

/-- Reordered fields are related. -/
theorem FieldValue.related_of_reordered : {t : FieldType} → (v w : FieldValue t) →
    v.Each scalar List.Nodup → v.Reordered w → v.Related Scalar.SameButSign w
  | _, .required v, .required w => by
      intro distinct reordered
      exact Value.related_of_reordered v w distinct reordered
  | _, .absent, .absent => by
      intro _ _
      trivial
  | _, .absent, .present _ => by
      intro _ reordered
      exact reordered.elim
  | _, .present _, .absent => by
      intro _ reordered
      exact reordered.elim
  | _, .present v, .present w => by
      intro distinct reordered
      exact Value.related_of_reordered v w distinct reordered

/-- Reordered records are related. -/
theorem Record.related_of_reordered : {fs : List Field} → (r s : Record fs) →
    r.Each scalar List.Nodup → r.Reordered s → r.Related Scalar.SameButSign s
  | _, .nil, .nil => by
      intro _ _
      trivial
  | _, .cons v rest, .cons w more => by
      rintro ⟨distinct, distincts⟩ ⟨reordered, reordereds⟩
      exact ⟨FieldValue.related_of_reordered v w distinct reordered,
        Record.related_of_reordered rest more distincts reordereds⟩

/-- Reordered lists of nodes are related. -/
theorem Slots.related_of_reordered : {k : Kind} → (s t : Slots k) → s.Each scalar List.Nodup →
    s.Reordered t → s.Related Scalar.SameButSign t
  | _, .nil, t => by
      cases t with
      | nil => exact fun _ _ => trivial
      | _ => exact fun _ reordered => reordered.elim
  | _, .empty rest, t => by
      cases t with
      | empty more => exact Slots.related_of_reordered rest more
      | _ => exact fun _ reordered => reordered.elim
  | _, .full n rest, t => by
      cases t with
      | full m more =>
          rintro ⟨distinct, distincts⟩ ⟨reordered, reordereds⟩
          exact ⟨Node.related_of_reordered n m distinct reordered,
            Slots.related_of_reordered rest more distincts reordereds⟩
      | _ => exact fun _ reordered => reordered.elim

/-- Reordered entries are aligned. -/
theorem Entries.aligned_of_reordered : {k : Kind} → (e : Entries k) →
    (others : List (String × Node k)) → e.Each scalar List.Nodup → e.Reordered others →
    Dict.Aligned (Node.Related Scalar.SameButSign) e.toList others
  | _, .nil, others => by
      rintro _ rfl
      exact ⟨[], .nil, .nil⟩
  | _, .cons key n rest, others => by
      rintro ⟨distinct, distincts⟩ ⟨before, m, after, rfl, reordered, reordereds⟩
      have head := Node.related_of_reordered n m distinct reordered
      exact .cons head (Entries.aligned_of_reordered rest _ distincts reordereds)

end

end Related

/-! ## What the order and the signs do not reach -/

/-- Two zeros are one number. -/
theorem Binary64.sameNumber_of_isZero {x y : Binary64} (first : x.isZero = true)
    (second : y.isZero = true) : x.sameNumber y = true := by
  have magnitude : x.magnitude = 0 := by simpa [isZero] using first
  simp [sameNumber, isNaN, magnitude, first, second]

namespace Scalar

/-- Scalars that differ in the sign of a zero at most are equal. -/
theorem same_of_sameButSign (s : Scalar) (x y : s.Value) (comparable : s.Comparable x)
    (alike : s.SameButSign x y) : s.same x y = true := by
  cases s with
  | number =>
      rcases alike with rfl | ⟨first, second⟩
      · exact Binary64.sameNumber_self comparable.2
      · exact Binary64.sameNumber_of_isZero first second
  | _ =>
      obtain rfl := alike
      exact same_self _ x comparable

/-- Scalars that differ in the sign of a zero at most have one hash. -/
theorem hash_eq_of_sameButSign (s : Scalar) (x y : s.Value) (alike : s.SameButSign x y) :
    s.hash x = s.hash y := by
  cases s with
  | number =>
      rcases alike with rfl | ⟨first, second⟩
      · rfl
      · exact ofFloat_eq_of_sameNumber (Binary64.sameNumber_of_isZero first second)
  | _ => exact congrArg _ alike

end Scalar

namespace Node

/-- Entries of maps and bags in another order, at any depth, and other signs of zeros in number
fields leave a node equal to what it was and with the hash that it had. -/
theorem same_and_hash_of_reordered {k : Kind} (x y : Node k) (wellFormed : x.WellFormed)
    (noNaN : x.NoNaN) (reordered : x.Reordered y) : x.same y = true ∧ x.hash = y.hash := by
  have comparable : x.Each Scalar.Comparable List.Nodup :=
    Each.combine (fun _ _ => And.intro) (fun _ distinct _ => distinct) x wellFormed noNaN
  have related := related_of_reordered x y comparable reordered
  constructor
  · refine (same_iff_related x y).mpr ?_
    exact Related.combine (fun s a b comparable alike _ =>
      Scalar.same_of_sameButSign s a b comparable alike) x y comparable related related
  · refine hash_eq_of_related x y comparable ?_
    exact Related.combine (fun s a b _ alike _ => Scalar.hash_eq_of_sameButSign s a b alike)
      x y comparable related related

/-- A message string with properties. -/
def notedString (properties : List (String × Json)) : Node .multiformatMessageString :=
  (default .multiformatMessageString).setBag (some ⟨properties⟩)

/-- A rule with message strings and a configuration with a rank. -/
def rankedRule (strings : List (String × Node .multiformatMessageString)) (rank : Binary64) :
    Node .reportingDescriptor :=
  ((default .reportingDescriptor).set ReportingDescriptor.messageStrings (some ⟨strings⟩)).set
    ReportingDescriptor.defaultConfiguration
    (some ((default .reportingConfiguration).set ReportingConfiguration.rank (some rank)))

/-- A rule of rank `0.0` with two message strings, one of which has two properties. -/
def orderedRule : Node .reportingDescriptor :=
  rankedRule [("short", notedString [("a", .null), ("b", .boolean true)]), ("long", default _)]
    .zero

/-- The rule of rank `-0.0` with the strings and the properties in the other order. -/
def reorderedRule : Node .reportingDescriptor :=
  rankedRule [("long", default _), ("short", notedString [("b", .boolean true), ("a", .null)])]
    .negativeZero

/-- Two rules that differ in the order of a map, the order of a bag in it and the sign of a rank are
equal and have one hash. -/
theorem same_and_hash_of_reordered_rule :
    orderedRule.same reorderedRule = true ∧ orderedRule.hash = reorderedRule.hash := by
  have wellFormed : orderedRule.WellFormed := by
    have noted : (notedString [("a", .null), ("b", .boolean true)]).WellFormed :=
      ⟨trivial, trivial, ⟨by decide, by simp [Scalar.WellFormed, Json.WellFormed]⟩, trivial⟩
    exact ⟨trivial, trivial, trivial, trivial, trivial, trivial, trivial, trivial,
      ⟨by decide, noted, ⟨trivial, trivial, trivial, trivial⟩, trivial⟩,
      ⟨trivial, trivial, trivial, trivial, trivial, trivial⟩, trivial, trivial, trivial, trivial,
      trivial⟩
  have noNaN : orderedRule.NoNaN := by
    have noted : (notedString [("a", .null), ("b", .boolean true)]).NoNaN :=
      ⟨trivial, trivial, ⟨trivial, fun _ _ => trivial⟩, trivial⟩
    exact ⟨trivial, trivial, trivial, trivial, trivial, trivial, trivial, trivial,
      ⟨trivial, noted, ⟨trivial, trivial, trivial, trivial⟩, trivial⟩,
      ⟨trivial, trivial, rfl, trivial, trivial, trivial⟩, trivial, trivial, trivial, trivial,
      trivial⟩
  have reordered : orderedRule.Reordered reorderedRule := by
    have noted : (notedString [("a", .null), ("b", .boolean true)]).Reordered
        (notedString [("b", .boolean true), ("a", .null)]) :=
      ⟨rfl, trivial, ⟨_, .swap .., .cons ⟨rfl, rfl⟩ (.cons ⟨rfl, rfl⟩ .nil)⟩, trivial⟩
    have strings : (Entries.ofList [("short", notedString [("a", .null), ("b", .boolean true)]),
        ("long", default _)]).Reordered
          [("long", default _), ("short", notedString [("b", .boolean true), ("a", .null)])] :=
      ⟨[_], _, [], rfl, noted, [], _, [], rfl, ⟨rfl, trivial, trivial, trivial⟩, rfl⟩
    exact ⟨rfl, trivial, trivial, trivial, trivial, trivial, trivial, trivial, strings,
      ⟨trivial, trivial, .inr ⟨rfl, rfl⟩, trivial, trivial, trivial⟩, trivial, trivial, trivial,
      trivial, trivial⟩
  exact same_and_hash_of_reordered orderedRule reorderedRule wellFormed noNaN reordered

end Node
end Sarif
