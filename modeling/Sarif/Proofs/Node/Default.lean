import Sarif.Node.Default
import Sarif.Node.Write
import Sarif.Proofs.Reading.Admission
import Sarif.Proofs.Reading.Scalars

/-!
# Default nodes are like any other

What a reader puts in where a document says nothing is well-formed, finite and of the years 0000 to
9999, and it can be told from what is written for it. It is also written with at most two arrays or
objects within one another, so what a document leaves out can make the document that is written for
the node two levels deeper, and no more.
-/

namespace Sarif

/-! ## Scalars of default nodes -/

/-- Zero is found again in what is written for it, whatever the source. -/
theorem Number.readsBack_zero (source : Source) :
    (Number.float Binary64.zero).ReadsBack source.float? := by
  cases source with
  | text room =>
      have found : (Numeral.ofFloat Binary64.zero).float? = some Binary64.zero := by decide +kernel
      exact found
  | stored =>
      have finite : Binary64.zero.isFinite = true := by decide
      exact readsBack_nearest (n := .float Binary64.zero) finite

variable (source : Source)

/-- The default of a scalar type is faithful. -/
theorem Scalar.default_faithful (s : Scalar) : s.Faithful source.float? s.default := by
  cases s with
  | number =>
      exact ⟨trivial, (by decide : Binary64.zero.isFinite = true), trivial,
        Number.readsBack_zero source⟩
  | sentinel => exact ⟨(by decide : -1 ≤ Sentinel.unset.raw), trivial, trivial, trivial⟩
  | dateTime =>
      have wellFormed : DateTime.WellFormed ⟨0, 0⟩ := by
        unfold DateTime.WellFormed
        decide
      have inEra : DateTime.InEra ⟨0, 0⟩ := by
        unfold DateTime.InEra
        decide
      exact ⟨wellFormed, trivial, inEra, trivial⟩
  | _ => exact ⟨trivial, trivial, trivial, trivial⟩

/-- The default of a flat type is faithful. -/
theorem Flat.default_faithful (f : Flat) :
    Flat.Each (Scalar.Faithful source.float?) List.Nodup f f.default := by
  cases f with
  | scalar s => exact s.default_faithful source
  | array s => exact fun item inside => nomatch inside
  | slots s => exact fun slot inside => nomatch inside
  | map s => exact ⟨List.nodup_nil, fun entry inside => nomatch inside⟩

/-- Default records are faithful if the default nodes of the layers below are. -/
theorem Record.defaultWith_faithful {layer : Nat} {node : (k : Kind) → k.layer < layer → Node k}
    (each : ∀ k below, (node k below).Each (Scalar.Faithful source.float?) List.Nodup)
    (fs : List Field) (below : (fs.all fun f => f.type.below layer) = true) :
    (Record.defaultWith node fs below).Each (Scalar.Faithful source.float?) List.Nodup := by
  induction fs with
  | nil => trivial
  | cons f fs inductionHypothesis =>
      refine ⟨?_, inductionHypothesis _⟩
      obtain ⟨name, type⟩ := f
      match type with
      | .optional t => trivial
      | .required (.flat g) => exact g.default_faithful source
      | .required (.node k) => exact each k _
      | .required (.nodes k) => trivial
      | .required (.nodeMap k) => exact ⟨List.nodup_nil, trivial⟩

/-- Default nodes of every layer are faithful. -/
theorem Node.defaultBelow_faithful (layer : Nat) (k : Kind) (below : k.layer < layer) :
    (Node.defaultBelow layer k below).Each (Scalar.Faithful source.float?) List.Nodup := by
  induction layer generalizing k with
  | zero => cases below
  | succ layer inductionHypothesis =>
      exact Record.defaultWith_faithful source (fun k' below' => inductionHypothesis k' _) _ _

/-- The default node of a kind is faithful. -/
theorem Node.default_faithful (k : Kind) :
    (Node.default k).Each (Scalar.Faithful source.float?) List.Nodup :=
  defaultBelow_faithful source _ k _

/-- The default of a field is faithful. -/
theorem FieldValue.default_faithful (t : FieldType) :
    (FieldValue.default t).Each (Scalar.Faithful source.float?) List.Nodup := by
  match t with
  | .optional t => trivial
  | .required (.flat f) => exact f.default_faithful source
  | .required (.node k) => exact Node.default_faithful source k
  | .required (.nodes k) => trivial
  | .required (.nodeMap k) => exact ⟨List.nodup_nil, trivial⟩

/-! ## How deep defaults nest -/

/-- How many arrays and objects the default of a field is written with, within one another. -/
def FieldType.defaultNesting (t : FieldType) : Nat :=
  match (FieldValue.default t).document? with
  | none => 0
  | some d => d.nesting

/-- No field of a node has a default that is written more than two levels deep. -/
theorem Kind.defaultNesting_le (k : Kind) :
    (k.fields.all fun f => decide (f.type.defaultNesting ≤ 2)) = true := by
  cases k <;> decide +kernel

end Sarif
