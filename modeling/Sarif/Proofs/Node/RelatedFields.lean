import Mathlib.Data.List.Forall2
import Mathlib.Data.List.Perm.Subperm
import Sarif.Proofs.Node.Default
import Sarif.Proofs.Node.Related

/-!
# Fields of related nodes

Corresponding fields of related nodes hold what is related, and nodes stay related when related
content is put into the same field of both. Equality of nodes identifies different numbers, stored
values and orders of entries, but no different strings, sentinels or lists of them. A relation that
is like it leaves the same in a field of such a type of both nodes (`Node.Related.get_eq`).
-/

namespace Sarif

/-! ## What a key of related maps leads to -/

namespace Dict

variable {α : Type} {relate : α → α → Prop} {d e : Dict α}

/-- Related dictionaries have the same keys while those of the first are distinct. -/
theorem Related.keys_perm (related : Related relate d e) (distinct : d.WellFormed) :
    d.keys.Perm e.keys := by
  have covered : d.keys ⊆ e.keys := by
    intro key among
    obtain ⟨entry, held, rfl⟩ := List.mem_map.mp among
    obtain ⟨value, found, _⟩ := related.2 entry held
    exact mem_keys_of_get? found
  refine (List.subperm_of_subset distinct covered).perm_of_length_le ?_
  rw [keys, keys, List.length_map, List.length_map]
  exact Nat.le_of_eq related.1.symm

/-- A key leads to related values in related dictionaries, or to nothing in both. -/
theorem Related.get? (related : Related relate d e) (distinct : d.WellFormed) (key : String) :
    Option.Rel relate (d.get? key) (e.get? key) := by
  cases found : d.get? key with
  | some value =>
      obtain ⟨other, found', holds⟩ := related.2 (key, value) (mem_of_lookup found)
      exact found' ▸ .some holds
  | none =>
      cases found' : e.get? key with
      | none => exact .none
      | some other =>
          have among := (related.keys_perm distinct).mem_iff.mpr (mem_keys_of_get? found')
          obtain ⟨⟨_, value⟩, held, rfl⟩ := List.mem_map.mp among
          cases found.symm.trans (lookup_of_mem distinct held)

end Dict

/-! ## Content of fields -/

section Content

variable (relate : (s : Scalar) → s.Value → s.Value → Prop)

/-- Values of one type, in their ordinary form, whose scalars are related. -/
def Ty.Related : (t : Ty) → t.Content → t.Content → Prop
  | .flat f => Flat.Related relate f
  | .node _ => Node.Related relate
  | .nodes _ => List.Forall₂ (Option.Rel (Node.Related relate))
  | .nodeMap _ => Dict.Related (Node.Related relate)

/-- Contents of one field that are both absent, or whose scalars are related. -/
def FieldType.Related : (t : FieldType) → t.Content → t.Content → Prop
  | .required t => t.Related relate
  | .optional t => Option.Rel (t.Related relate)

variable {relate}

/-- Lists of nodes are related when their ordinary forms are slot by slot. -/
theorem Slots.related_iff_toList {k : Kind} : (s t : Slots k) →
    (s.Related relate t ↔ List.Forall₂ (Option.Rel (Node.Related relate)) s.toList t.toList)
  | .nil, t => by cases t <;> simp [Related, toList]
  | .empty rest, t => by
      cases t with
      | empty more => simp [Related, toList, related_iff_toList rest more]
      | _ => simp [Related, toList]
  | .full n rest, t => by
      cases t with
      | full m more => simp [Related, toList, related_iff_toList rest more]
      | _ => simp [Related, toList]

/-- Values are related when their ordinary forms are. -/
theorem Value.related_iff {t : Ty} (v w : Value t) :
    v.Related relate w ↔ t.Related relate v.content w.content := by
  cases v with
  | flat x => cases w; rfl
  | node n => cases w; rfl
  | nodes s => cases w; exact Slots.related_iff_toList _ _
  | nodeMap e => cases w; exact Entries.related_iff_toDict _ _

/-- Fields are related when their ordinary forms are. -/
theorem FieldValue.related_iff {t : FieldType} (v w : FieldValue t) :
    v.Related relate w ↔ t.Related relate v.content w.content := by
  cases v <;> cases w <;> simp [Related, content, FieldType.Related, Value.related_iff]

/-- Related records are related in each field. -/
theorem Record.Related.get : {fs : List Field} → {f : Field} → {r s : Record fs} →
    r.Related relate s → (p : Place fs f) → (r.get p).Related relate (s.get p)
  | _, _, .cons _ _, .cons _ _, related, .here => related.1
  | _, _, .cons _ _, .cons _ _, related, .later p => Record.Related.get related.2 p

/-- Related records stay related when related values are put into one field of both. -/
theorem Record.Related.set : {fs : List Field} → {f : Field} → {r s : Record fs} →
    r.Related relate s → (p : Place fs f) → {v w : FieldValue f.type} → v.Related relate w →
    (r.set p v).Related relate (s.set p w)
  | _, _, .cons _ _, .cons _ _, related, .here, _, _, holds => ⟨holds, related.2⟩
  | _, _, .cons _ _, .cons _ _, related, .later p, _, _, holds =>
      ⟨related.1, Record.Related.set related.2 p holds⟩

namespace Node

variable {k : Kind} {f : Field} {n m : Node k}

/-- A node is related to another when its record is. -/
theorem related_iff_fields : n.Related relate m ↔ n.fields.Related relate m.fields := by
  cases n
  cases m
  rfl

/-- Related nodes hold related contents in each field. -/
theorem Related.get (related : n.Related relate m) (p : Place k.fields f) :
    f.type.Related relate (n.get p) (m.get p) :=
  (FieldValue.related_iff _ _).mp ((related_iff_fields.mp related).get p)

/-- Related nodes stay related when related contents are put into one field of both. -/
theorem Related.set (related : n.Related relate m) (p : Place k.fields f) {c d : f.type.Content}
    (contents : f.type.Related relate c d) : (n.set p c).Related relate (m.set p d) := by
  refine Record.Related.set (related_iff_fields.mp related) p ((FieldValue.related_iff _ _).mpr ?_)
  rwa [FieldValue.content_ofContent, FieldValue.content_ofContent]

/-- Related nodes stay related when related nodes are put into one field of both. -/
theorem Related.set_node {name : String} {j : Kind} (related : n.Related relate m)
    (p : Place k.fields ⟨name, .required (.node j)⟩) {c d : Node j} (nodes : c.Related relate d) :
    (n.set p c).Related relate (m.set p d) :=
  related.set p nodes

end Node
end Content

/-! ## Fields that hold the same -/

/-- Whether equality of scalars of a type is nothing but the identity. -/
def Scalar.discrete : Scalar → Bool
  | number | json => false
  | _ => true

/-- Whether equality of values of a type is nothing but the identity. -/
def Ty.discrete : Ty → Bool
  | .flat (.scalar s) | .flat (.array s) => s.discrete
  | _ => false

/-- Whether equality of contents of a field is nothing but the identity. -/
def FieldType.discrete : FieldType → Bool
  | .required t | .optional t => t.discrete

/-- A relation between scalars that is the identity for discrete types and relates each well-formed
and finite scalar to itself. -/
structure Scalar.LikeEquality (relate : (s : Scalar) → s.Value → s.Value → Prop) : Prop where
  iff_eq {s : Scalar} {x y : s.Value} (discrete : s.discrete = true) : relate s x y ↔ x = y
  refl (s : Scalar) (x : s.Value) (wellFormed : s.WellFormed x) (finite : s.Finite x) : relate s x x

section LikeEquality

variable {relate : (s : Scalar) → s.Value → s.Value → Prop}
  (likeEquality : Scalar.LikeEquality relate)
include likeEquality

/-- Values of a discrete type are related exactly if they are the same. -/
theorem Ty.related_iff_eq {t : Ty} (discrete : t.discrete = true) {c d : t.Content} :
    t.Related relate c d ↔ c = d := by
  match t with
  | .flat (.scalar s) => exact likeEquality.iff_eq discrete
  | .flat (.array s) =>
      have identity : relate s = (· = ·) := by
        funext x y
        exact propext (likeEquality.iff_eq discrete)
      rw [Ty.Related, Flat.Related, identity, List.forall₂_eq_eq_eq]

/-- Contents of a discrete field are related exactly if they are the same. -/
theorem FieldType.related_iff_eq {t : FieldType} (discrete : t.discrete = true) {c d : t.Content} :
    t.Related relate c d ↔ c = d := by
  cases t with
  | required t => exact Ty.related_iff_eq likeEquality discrete
  | optional t =>
      cases c <;> cases d <;>
        simp [Related, Ty.related_iff_eq likeEquality (show t.discrete = true from discrete)]

/-- A discrete field of related nodes holds the same in both. -/
theorem Node.Related.get_eq {k : Kind} {f : Field} {n m : Node k} (related : n.Related relate m)
    (p : Place k.fields f) (discrete : f.type.discrete = true) : n.get p = m.get p :=
  (FieldType.related_iff_eq likeEquality discrete).mp (related.get p)

/-- Related nodes stay related when the same is put into a discrete field of both. -/
theorem Node.Related.set_eq {k : Kind} {f : Field} {n m : Node k} (related : n.Related relate m)
    (p : Place k.fields f) (discrete : f.type.discrete = true) (c : f.type.Content) :
    (n.set p c).Related relate (m.set p c) :=
  related.set p ((FieldType.related_iff_eq likeEquality discrete).mpr rfl)

/-- A default node is related to itself. -/
theorem Node.related_default (k : Kind) : (Node.default k).Related relate (Node.default k) :=
  Node.Related.refl (fun s x faithful => likeEquality.refl s x faithful.1 faithful.2.1) _
    (Node.default_faithful .stored k)

end LikeEquality
end Sarif
