import Mathlib.Data.List.Forall2
import Mathlib.Data.List.Nodup
import Mathlib.Data.List.Perm.Subperm
import Sarif.Node.Equality
import Sarif.Proofs.Dict
import Sarif.Proofs.Node.WellFormed

/-!
# Relations between nodes

A relation on scalars lifts to nodes: lists are related slot by slot, maps when they have equally
many entries and every entry of the one finds a related value under its key in the other.
`Node.same_iff_related` says that equality of nodes is the lifted equality of scalars. What
follows from it, together with what is known of one node, is shown on scalars and lifted by
`Node.Related.combine`.
-/

namespace Sarif

variable (relate : (s : Scalar) → s.Value → s.Value → Prop)

/-- Two dictionaries of one size, with related values under the keys of the first. -/
def Dict.Related {α : Type} (relate : α → α → Prop) (d e : Dict α) : Prop :=
  d.size = e.size ∧
    ∀ entry ∈ d.entries, ∃ value, e.get? entry.1 = some value ∧ relate entry.2 value

/-- Flat values of one type whose scalars are related. -/
def Flat.Related : (f : Flat) → f.Value → f.Value → Prop
  | .scalar s, x, y => relate s x y
  | .array s, x, y => List.Forall₂ (relate s) x y
  | .slots s, x, y => List.Forall₂ (Option.Rel (relate s)) x y
  | .map s, d, e => Dict.Related (relate s) d e

mutual

/-- Nodes of one kind whose scalars are related. -/
def Node.Related : {k : Kind} → Node k → Node k → Prop
  | _, .mk fields, m => match m with
    | .mk others => fields.Related others
termination_by structural _ n => n

/-- Values of one type whose scalars are related. -/
def Value.Related : {t : Ty} → Value t → Value t → Prop
  | _, .flat x, w => match w with
    | .flat y => Flat.Related relate _ x y
  | _, .node n, w => match w with
    | .node m => n.Related m
  | _, .nodes s, w => match w with
    | .nodes t => s.Related t
  | _, .nodeMap e, w => match w with
    | .nodeMap d => e.length = d.length ∧ e.RelatedIn d
termination_by structural _ v => v

/-- Fields that are both absent, or hold related values. -/
def FieldValue.Related : {t : FieldType} → FieldValue t → FieldValue t → Prop
  | _, .required v, w => match w with
    | .required u => v.Related u
  | _, .absent, w => match w with
    | .absent => True
    | .present _ => False
  | _, .present v, w => match w with
    | .present u => v.Related u
    | .absent => False
termination_by structural _ v => v

/-- Records with related fields. -/
def Record.Related : {fs : List Field} → Record fs → Record fs → Prop
  | _, .nil, _ => True
  | _, .cons v rest, w => match w with
    | .cons u more => v.Related u ∧ rest.Related more
termination_by structural _ r => r

/-- Lists of nodes that are related slot by slot. -/
def Slots.Related : {k : Kind} → Slots k → Slots k → Prop
  | _, .nil, w => match w with
    | .nil => True
    | _ => False
  | _, .empty rest, w => match w with
    | .empty more => rest.Related more
    | _ => False
  | _, .full n rest, w => match w with
    | .full m more => n.Related m ∧ rest.Related more
    | _ => False
termination_by structural _ s => s

/-- Every entry of the first map finds a related node under its key in the second. -/
def Entries.RelatedIn : {k : Kind} → Entries k → Entries k → Prop
  | _, .nil, _ => True
  | _, .cons key n rest, d => (∃ m, d.lookup key = some m ∧ n.Related m) ∧ rest.RelatedIn d
termination_by structural _ e => e

end

/-! ## Equality as a lifted relation -/

namespace Flat

/-- Lists are equal item by item exactly when corresponding items are equal. -/
theorem sameItems_iff {α : Type} (same : α → α → Bool) (xs ys : List α) :
    sameItems same xs ys = true ↔ List.Forall₂ (fun x y => same x y = true) xs ys := by
  induction xs generalizing ys with
  | nil => cases ys <;> simp [sameItems]
  | cons x xs inductionHypothesis =>
      cases ys with
      | nil => simp [sameItems]
      | cons y ys => simp [sameItems, inductionHypothesis]

/-- Slots are equal when both are empty or both hold equal values. -/
theorem sameSlot_iff {α : Type} (same : α → α → Bool) (x y : Option α) :
    sameSlot same x y = true ↔ Option.Rel (fun x y => same x y = true) x y := by
  cases x <;> cases y <;> simp [sameSlot]

end Flat

namespace Dict

variable {α : Type}

/-- A list of entries is found in a dictionary exactly when each entry is. -/
theorem subsumedBy_iff (same : α → α → Bool) (d : Dict α) (entries : List (String × α)) :
    subsumedBy same d entries = true ↔
      ∀ entry ∈ entries, ∃ value, d.get? entry.1 = some value ∧ same entry.2 value = true := by
  induction entries with
  | nil => simp [subsumedBy]
  | cons entry rest inductionHypothesis =>
      obtain ⟨key, value⟩ := entry
      cases found : d.get? key <;> simp [subsumedBy, inductionHypothesis, found]

/-- Equality of dictionaries is the lifted equality of their values. -/
theorem same_iff_related (same : α → α → Bool) (d e : Dict α) :
    Dict.same same d e = true ↔ Dict.Related (fun x y => same x y = true) d e := by
  simp [Dict.same, Dict.Related, subsumedBy_iff]

end Dict

/-- Equality of flat values is the lifted equality of scalars. -/
theorem Flat.same_iff_related (f : Flat) (x y : f.Value) :
    f.same x y = true ↔ Flat.Related (fun s a b => s.same a b = true) f x y := by
  cases f with
  | scalar s => simp [Flat.same, Flat.Related]
  | array s => exact sameItems_iff _ _ _
  | slots s => simp [Flat.same, Flat.Related, sameItems_iff, sameSlot_iff]
  | map s => exact Dict.same_iff_related _ _ _

mutual

/-- Equality of nodes is the lifted equality of scalars. -/
theorem Node.same_iff_related : {k : Kind} → (n m : Node k) →
    (n.same m = true ↔ n.Related (fun s a b => s.same a b = true) m)
  | _, .mk fields, .mk others => by
      simpa [Node.same, Node.Related] using Record.same_iff_related fields others

/-- Equality of values is the lifted equality of scalars. -/
theorem Value.same_iff_related : {t : Ty} → (v w : Value t) →
    (v.same w = true ↔ v.Related (fun s a b => s.same a b = true) w)
  | _, .flat x, .flat y => by
      simpa [Value.same, Value.Related] using Flat.same_iff_related _ x y
  | _, .node n, .node m => by
      simpa [Value.same, Value.Related] using Node.same_iff_related n m
  | _, .nodes s, .nodes t => by
      simpa [Value.same, Value.Related] using Slots.same_iff_related s t
  | _, .nodeMap e, .nodeMap d => by
      simp [Value.same, Value.Related, Entries.subsumedBy_iff_relatedIn e d]

/-- Equality of fields is the lifted equality of scalars. -/
theorem FieldValue.same_iff_related : {t : FieldType} → (v w : FieldValue t) →
    (v.same w = true ↔ v.Related (fun s a b => s.same a b = true) w)
  | _, .required v, .required w => by
      simpa [FieldValue.same, FieldValue.Related] using Value.same_iff_related v w
  | _, .absent, .absent => by simp [FieldValue.same, FieldValue.Related]
  | _, .absent, .present _ => by simp [FieldValue.same, FieldValue.Related]
  | _, .present _, .absent => by simp [FieldValue.same, FieldValue.Related]
  | _, .present v, .present w => by
      simpa [FieldValue.same, FieldValue.Related] using Value.same_iff_related v w

/-- Equality of records is the lifted equality of scalars. -/
theorem Record.same_iff_related : {fs : List Field} → (r s : Record fs) →
    (r.same s = true ↔ r.Related (fun s a b => s.same a b = true) s)
  | _, .nil, .nil => by simp [Record.same, Record.Related]
  | _, .cons v rest, .cons w more => by
      simp [Record.same, Record.Related, FieldValue.same_iff_related v w,
        Record.same_iff_related rest more]

/-- Equality of lists of nodes is the lifted equality of scalars. -/
theorem Slots.same_iff_related : {k : Kind} → (s t : Slots k) →
    (s.same t = true ↔ s.Related (fun s a b => s.same a b = true) t)
  | _, .nil, t => by cases t <;> simp [Slots.same, Slots.Related]
  | _, .empty rest, t => by
      cases t with
      | empty more => simpa [Slots.same, Slots.Related] using Slots.same_iff_related rest more
      | _ => simp [Slots.same, Slots.Related]
  | _, .full n rest, t => by
      cases t with
      | full m more =>
          simp [Slots.same, Slots.Related, Node.same_iff_related n m,
            Slots.same_iff_related rest more]
      | _ => simp [Slots.same, Slots.Related]

/-- Entries are found in a map exactly when related nodes are. -/
theorem Entries.subsumedBy_iff_relatedIn : {k : Kind} → (e d : Entries k) →
    (e.subsumedBy d = true ↔ e.RelatedIn (fun s a b => s.same a b = true) d)
  | _, .nil, _ => by simp [Entries.subsumedBy, Entries.RelatedIn]
  | _, .cons key n rest, d => by
      have tail := Entries.subsumedBy_iff_relatedIn rest d
      cases found : d.lookup key with
      | none => simp [Entries.subsumedBy, Entries.RelatedIn, found]
      | some m =>
          simp [Entries.subsumedBy, Entries.RelatedIn, found, tail, Node.same_iff_related n m]

end

/-! ## Looking up in maps -/

namespace Entries

variable {k : Kind}

/-- The number of entries is the length of their list. -/
theorem length_eq_toList : (e : Entries k) → e.length = e.toList.length
  | .nil => rfl
  | .cons _ _ rest => by simp [length, toList, length_eq_toList rest]

/-- The keys of a map are those of the list of its entries. -/
theorem keys_eq_toList : (e : Entries k) → e.keys = e.toList.map Prod.fst
  | .nil => rfl
  | .cons _ _ rest => by simp [keys, toList, keys_eq_toList rest]

/-- Looking up a key in a map is looking it up in the list of its entries. -/
theorem lookup_eq_toList (key : String) : (e : Entries k) →
    e.lookup key = Dict.lookup key e.toList
  | .nil => rfl
  | .cons _ _ rest => by simp [lookup, toList, Dict.lookup, lookup_eq_toList key rest]

end Entries

/-! ## Maps entry by entry -/

section Runs

variable {α β : Type} {r : α → β → Prop} {xs : List α}

/-- A run of partners for the items of a run that have one each. -/
theorem exists_forall₂ (each : ∀ x ∈ xs, ∃ y, r x y) : ∃ ys, List.Forall₂ r xs ys := by
  induction xs with
  | nil => exact ⟨[], .nil⟩
  | cons x xs inductionHypothesis =>
      obtain ⟨y, head⟩ := each x (List.mem_cons_self ..)
      obtain ⟨ys, tail⟩ := inductionHypothesis fun z inside =>
        each z (List.mem_cons_of_mem _ inside)
      exact ⟨y :: ys, .cons head tail⟩

/-- An item of a run has a partner in a run that is related item by item. -/
theorem exists_of_forall₂ {ys : List β} (related : List.Forall₂ r xs ys) {x : α} (inside : x ∈ xs) :
    ∃ y ∈ ys, r x y := by
  induction related with
  | nil => cases inside
  | cons head _ inductionHypothesis =>
      rcases List.mem_cons.mp inside with rfl | later
      · exact ⟨_, List.mem_cons_self .., head⟩
      · obtain ⟨y, member, holds⟩ := inductionHypothesis later
        exact ⟨y, List.mem_cons_of_mem _ member, holds⟩

end Runs

/-- Dictionaries without a repeated key are related when their entries are one by one, in some
order. -/
theorem Dict.related_iff_aligned {α : Type} {relate : α → α → Prop} {d e : Dict α}
    (first : d.WellFormed) (second : e.WellFormed) :
    Dict.Related relate d e ↔ Dict.Aligned relate d.entries e.entries := by
  constructor
  · rintro ⟨sizes, found⟩
    obtain ⟨partners, each⟩ := exists_forall₂ (r := fun one other : String × α =>
      other ∈ e.entries ∧ one.1 = other.1 ∧ relate one.2 other.2) fun entry inside => by
        obtain ⟨value, lookup, related⟩ := found entry inside
        exact ⟨(entry.1, value), mem_of_lookup lookup, rfl, related⟩
    have keys : d.entries.map Prod.fst = partners.map Prod.fst := by
      rw [← List.forall₂_eq_eq_eq, List.forall₂_map_left_iff, List.forall₂_map_right_iff]
      exact each.imp fun _ _ pair => pair.2.1
    have inside : ∀ partner ∈ partners, partner ∈ e.entries := by
      intro partner member
      obtain ⟨_, _, held⟩ := exists_of_forall₂ each.flip member
      exact held.1
    have distinct : partners.Nodup := List.Nodup.of_map Prod.fst (keys ▸ first)
    have perm : partners.Perm e.entries :=
      (List.subperm_of_subset distinct inside).perm_of_length_le
        (Nat.le_of_eq (sizes.symm.trans each.length_eq))
    exact ⟨partners, perm.symm, each.imp fun _ _ pair => pair.2⟩
  · rintro ⟨reordered, perm, each⟩
    refine ⟨each.length_eq.trans perm.length_eq.symm, fun entry inside => ?_⟩
    obtain ⟨⟨key, value⟩, member, rfl, related⟩ := exists_of_forall₂ each inside
    exact ⟨value, lookup_of_mem second (perm.mem_iff.mpr member), related⟩

/-- Dictionaries of aligned entries are related. -/
theorem Dict.related_ofList {α : Type} {relate : α → α → Prop} {xs ys : List (String × α)}
    (distinct : (xs.map Prod.fst).Nodup) (aligned : Dict.Aligned relate xs ys) :
    Dict.Related relate (ofList xs) (ofList ys) := by
  have distinct' : (ys.map Prod.fst).Nodup := aligned.keys_perm.nodup_iff.mp distinct
  rw [ofList_of_nodup distinct, ofList_of_nodup distinct']
  exact (related_iff_aligned distinct distinct').mpr aligned

/-- Entries are related to a map when each finds a related node under its key. -/
theorem Entries.relatedIn_iff {k : Kind} (relate : (s : Scalar) → s.Value → s.Value → Prop) :
    (e d : Entries k) → (e.RelatedIn relate d ↔
      ∀ entry ∈ e.toList, ∃ m, d.lookup entry.1 = some m ∧ entry.2.Related relate m)
  | .nil, d => by simp [RelatedIn, toList]
  | .cons key n rest, d => by simp [RelatedIn, toList, relatedIn_iff relate rest d]

/-- Maps of nodes are related when their dictionaries are. -/
theorem Entries.related_iff_toDict {k : Kind} {relate : (s : Scalar) → s.Value → s.Value → Prop}
    (e d : Entries k) :
    (e.length = d.length ∧ e.RelatedIn relate d) ↔
      Dict.Related (Node.Related relate) e.toDict d.toDict := by
  simp only [relatedIn_iff, length_eq_toList, lookup_eq_toList]
  rfl

/-! ## Nodes related to themselves -/

section Reflexive

-- The linter does not see that the theorems of a mutual block use what is included in them.
set_option linter.unusedSectionVars false

variable {scalar : (s : Scalar) → s.Value → Prop} {relate : (s : Scalar) → s.Value → s.Value → Prop}
  (reflexive : ∀ s x, scalar s x → relate s x x)
include reflexive

/-- A flat value is related to itself if its scalars are and its keys are distinct. -/
theorem Flat.Related.refl : (f : Flat) → (x : f.Value) → Flat.Each scalar List.Nodup f x →
    Flat.Related relate f x x
  | .scalar s, x, each => reflexive s x each
  | .array s, _, each => List.forall₂_same.mpr fun item member =>
      reflexive s item (each item member)
  | .slots s, _, each => List.forall₂_same.mpr fun slot member => by
      cases slot with
      | none => exact .none
      | some item => exact .some (reflexive s item (each _ member item rfl))
  | .map s, _, each =>
      ⟨rfl, fun entry member =>
        ⟨entry.2, Dict.lookup_of_mem each.1 member, reflexive s entry.2 (each.2 entry member)⟩⟩

mutual

/-- A node is related to itself if its scalars are and its keys are distinct. -/
theorem Node.Related.refl : {k : Kind} → (n : Node k) → n.Each scalar List.Nodup →
    n.Related relate n
  | _, .mk fields => by
      intro each
      exact Record.Related.refl fields each

/-- A value is related to itself if its scalars are and its keys are distinct. -/
theorem Value.Related.refl : {t : Ty} → (v : Value t) → v.Each scalar List.Nodup →
    v.Related relate v
  | _, .flat x => by
      intro each
      exact Flat.Related.refl reflexive _ x each
  | _, .node n => by
      intro each
      exact Node.Related.refl n each
  | _, .nodes s => by
      intro each
      exact Slots.Related.refl s each
  | _, .nodeMap e => by
      rintro ⟨distinct, each⟩
      refine ⟨rfl, Entries.RelatedIn.of_subset e e each fun entry member => ?_⟩
      rw [Entries.lookup_eq_toList]
      exact Dict.lookup_of_mem (by rwa [← Entries.keys_eq_toList]) member

/-- A field is related to itself if its scalars are and its keys are distinct. -/
theorem FieldValue.Related.refl : {t : FieldType} → (v : FieldValue t) →
    v.Each scalar List.Nodup → v.Related relate v
  | _, .required v => by
      intro each
      exact Value.Related.refl v each
  | _, .absent => by
      intro _
      trivial
  | _, .present v => by
      intro each
      exact Value.Related.refl v each

/-- A record is related to itself if its scalars are and its keys are distinct. -/
theorem Record.Related.refl : {fs : List Field} → (r : Record fs) → r.Each scalar List.Nodup →
    r.Related relate r
  | _, .nil => by
      intro _
      trivial
  | _, .cons v rest => by
      rintro ⟨each, eachs⟩
      exact ⟨FieldValue.Related.refl v each, Record.Related.refl rest eachs⟩

/-- A list of nodes is related to itself if its scalars are and its keys are distinct. -/
theorem Slots.Related.refl : {k : Kind} → (s : Slots k) → s.Each scalar List.Nodup →
    s.Related relate s
  | _, .nil => by
      intro _
      trivial
  | _, .empty rest => by
      intro each
      exact Slots.Related.refl rest each
  | _, .full n rest => by
      rintro ⟨each, eachs⟩
      exact ⟨Node.Related.refl n each, Slots.Related.refl rest eachs⟩

/-- Entries are related to a map in which each is found. -/
theorem Entries.RelatedIn.of_subset : {k : Kind} → (e d : Entries k) →
    e.Each scalar List.Nodup →
    (∀ entry ∈ e.toList, d.lookup entry.1 = some entry.2) → e.RelatedIn relate d
  | _, .nil, _ => by
      intro _ _
      trivial
  | _, .cons key n rest, d => by
      rintro ⟨each, eachs⟩ found
      have inhabited := found (key, n) (List.mem_cons_self ..)
      refine ⟨⟨n, inhabited, Node.Related.refl n each⟩, ?_⟩
      exact Entries.RelatedIn.of_subset rest d eachs fun entry member =>
        found entry (List.mem_cons_of_mem _ member)

end

end Reflexive

/-! ## Combining relations -/

section Combine

-- The linter does not see that the theorems of a mutual block use what is included in them.
set_option linter.unusedSectionVars false

variable {scalar : (s : Scalar) → s.Value → Prop} {keys : List String → Prop}
  {relate other both : (s : Scalar) → s.Value → s.Value → Prop}

/-- What two relations between lists say together of each pair of items. -/
theorem forall₂_combine {α : Type} {holds : α → Prop} {r s t : α → α → Prop}
    (together : ∀ x y, holds x → r x y → s x y → t x y) {xs ys : List α}
    (each : ∀ x ∈ xs, holds x) (first : List.Forall₂ r xs ys) (second : List.Forall₂ s xs ys) :
    List.Forall₂ t xs ys := by
  induction first with
  | nil => exact .nil
  | cons head tail inductionHypothesis =>
      cases second with
      | cons head' tail' =>
          have now := each _ (List.mem_cons_self ..)
          have later := fun x member => each x (List.mem_cons_of_mem _ member)
          exact .cons (together _ _ now head head') (inductionHypothesis later tail')

/-- What two relations between dictionaries say together of the values under each key. -/
theorem Dict.Related.combine {α : Type} {holds : α → Prop} {r s t : α → α → Prop}
    (together : ∀ x y, holds x → r x y → s x y → t x y) {d e : Dict α}
    (each : ∀ entry ∈ d.entries, holds entry.2)
    (first : Dict.Related r d e) (second : Dict.Related s d e) : Dict.Related t d e := by
  refine ⟨first.1, fun entry member => ?_⟩
  obtain ⟨value, found, relation⟩ := first.2 entry member
  obtain ⟨value', found', relation'⟩ := second.2 entry member
  obtain rfl : value' = value := Option.some.inj (found'.symm.trans found)
  exact ⟨value', found, together _ _ (each entry member) relation relation'⟩

variable (together : ∀ s x y, scalar s x → relate s x y → other s x y → both s x y)
include together

/-- What two lifted relations say together of flat values. -/
theorem Flat.Related.combine : (f : Flat) → {x y : f.Value} → Flat.Each scalar keys f x →
    Flat.Related relate f x y → Flat.Related other f x y → Flat.Related both f x y
  | .scalar s, x, y, each, first, second => together s x y each first second
  | .array s, _, _, each, first, second => forall₂_combine (together s) each first second
  | .slots s, _, _, each, first, second => by
      refine forall₂_combine (fun x y holds one two => ?_) each first second
      cases one with
      | none => exact .none
      | some one =>
          cases two with
          | some two => exact .some (together s _ _ (holds _ rfl) one two)
  | .map s, _, _, each, first, second => Dict.Related.combine (together s) each.2 first second

mutual

/-- What two lifted relations say together of nodes. -/
theorem Node.Related.combine : {k : Kind} → (n m : Node k) → n.Each scalar keys →
    n.Related relate m → n.Related other m → n.Related both m
  | _, .mk fields, .mk others => by
      intro each first second
      exact Record.Related.combine fields others each first second

/-- What two lifted relations say together of values. -/
theorem Value.Related.combine : {t : Ty} → (v w : Value t) → v.Each scalar keys →
    v.Related relate w → v.Related other w → v.Related both w
  | _, .flat _, .flat _ => by
      intro each first second
      exact Flat.Related.combine together _ each first second
  | _, .node n, .node m => by
      intro each first second
      exact Node.Related.combine n m each first second
  | _, .nodes s, .nodes t => by
      intro each first second
      exact Slots.Related.combine s t each first second
  | _, .nodeMap e, .nodeMap d => by
      rintro ⟨_, each⟩ ⟨sizes, first⟩ ⟨_, second⟩
      exact ⟨sizes, Entries.RelatedIn.combine e d each first second⟩

/-- What two lifted relations say together of fields. -/
theorem FieldValue.Related.combine : {t : FieldType} → (v w : FieldValue t) →
    v.Each scalar keys → v.Related relate w → v.Related other w → v.Related both w
  | _, .required v, .required w => by
      intro each first second
      exact Value.Related.combine v w each first second
  | _, .absent, .absent => by
      intro _ _ _
      trivial
  | _, .absent, .present _ => by
      intro _ first
      exact first.elim
  | _, .present _, .absent => by
      intro _ first
      exact first.elim
  | _, .present v, .present w => by
      intro each first second
      exact Value.Related.combine v w each first second

/-- What two lifted relations say together of records. -/
theorem Record.Related.combine : {fs : List Field} → (r s : Record fs) → r.Each scalar keys →
    r.Related relate s → r.Related other s → r.Related both s
  | _, .nil, .nil => by
      intro _ _ _
      trivial
  | _, .cons v rest, .cons w more => by
      rintro ⟨each, eachs⟩ ⟨first, firsts⟩ ⟨second, seconds⟩
      exact ⟨FieldValue.Related.combine v w each first second,
        Record.Related.combine rest more eachs firsts seconds⟩

/-- What two lifted relations say together of lists of nodes. -/
theorem Slots.Related.combine : {k : Kind} → (s t : Slots k) → s.Each scalar keys →
    s.Related relate t → s.Related other t → s.Related both t
  | _, .nil, t => by
      cases t with
      | nil => exact fun _ _ _ => trivial
      | _ => exact fun _ first => first.elim
  | _, .empty rest, t => by
      cases t with
      | empty more => exact Slots.Related.combine rest more
      | _ => exact fun _ first => first.elim
  | _, .full n rest, t => by
      cases t with
      | full m more =>
          rintro ⟨each, eachs⟩ ⟨first, firsts⟩ ⟨second, seconds⟩
          exact ⟨Node.Related.combine n m each first second,
            Slots.Related.combine rest more eachs firsts seconds⟩
      | _ => exact fun _ first => first.elim

/-- What two lifted relations say together of the entries of a map of nodes. -/
theorem Entries.RelatedIn.combine : {k : Kind} → (e d : Entries k) → e.Each scalar keys →
    e.RelatedIn relate d → e.RelatedIn other d → e.RelatedIn both d
  | _, .nil, _ => by
      intro _ _ _
      trivial
  | _, .cons _ n rest, d => by
      rintro ⟨each, eachs⟩ ⟨⟨m, found, holds⟩, firsts⟩ ⟨⟨m', found', holds'⟩, seconds⟩
      obtain rfl : m' = m := Option.some.inj (found'.symm.trans found)
      exact ⟨⟨m', found, Node.Related.combine n m' each holds holds'⟩,
        Entries.RelatedIn.combine rest d eachs firsts seconds⟩

end

end Combine
end Sarif
