import Sarif.Proofs.Node.Agreement
import Sarif.Proofs.Node.RoundTrip
import Sarif.Proofs.Sentinel

/-!
# Assigning a field before writing or after loading

The members that a record is written as are read field by field, and nothing that is read for one
field depends on another. So a field may be assigned in a node before it is written or in what is
loaded from its text, with the same result, if the new content is read from what is written for it
(`Node.load_text_set`). Sentinels are, whatever number they were made from.
-/

namespace Sarif

variable {source : Source} {f : Field}

/-! ## Records -/

/-- A field is read from what is written for it, or is the default where nothing is written. -/
def FieldValue.Rereads {t : FieldType} (v : FieldValue t) : Prop :=
  ∀ source, ∃ known, v.reread source = .ok known ∧ known.getD (FieldValue.default t) = v

-- The recursion is on the place of the field: up to it both records are read alike, and behind it
-- there is nothing left to compare.
/-- A field of a record may be assigned before the record is written or in what is read from its
members. -/
theorem Record.readMembers_set : {fs : List Field} → {f : Field} → (fs.map Field.name).Nodup →
    (r : Record fs) → (place : Place fs f) → {v : FieldValue f.type} → v.Rereads →
    {draft : Draft fs} → Draft.readMembers source (Draft.blank fs) r.members = .ok draft →
    ∃ after, Draft.readMembers source (Draft.blank fs) (r.set place v).members = .ok after ∧
      after.finish = draft.finish.set place v
  | f :: fs, _, distinct, .cons v rest, .here, w, rereads, draft, success => by
      obtain ⟨fresh, _⟩ := List.nodup_cons.mp distinct
      rw [readMembers_cons v rest fresh] at success
      obtain ⟨known, _, success⟩ := Problem.bind_eq_ok success
      obtain ⟨tail, read, rfl⟩ := Problem.map_eq_ok success
      obtain ⟨back, reread, held⟩ := rereads source
      refine ⟨.cons back tail, ?_, congrArg (Record.cons · tail.finish) held⟩
      rw [Record.set, readMembers_cons w rest fresh, reread, Problem.ok_bind, read]
      rfl
  | g :: fs, _, distinct, .cons v rest, .later place, w, rereads, draft, success => by
      obtain ⟨fresh, others⟩ := List.nodup_cons.mp distinct
      rw [readMembers_cons v rest fresh] at success
      obtain ⟨known, reread, success⟩ := Problem.bind_eq_ok success
      obtain ⟨tail, read, rfl⟩ := Problem.map_eq_ok success
      obtain ⟨after, behind, finished⟩ := readMembers_set others rest place rereads read
      refine ⟨.cons known after, ?_, congrArg (Record.cons _) finished⟩
      rw [Record.set, readMembers_cons v _ fresh, reread, Problem.ok_bind, behind]
      rfl

/-! ## Nodes -/

/-- A field of a node may be assigned before the node is written or after it is loaded. -/
theorem Node.load_text_set {k : Kind} {n m : Node k} (loaded : Node.load k n.text = .ok m)
    (place : Place k.fields f) {c : f.type.Content}
    (rereads : (FieldValue.ofContent f.type c).Rereads) :
    Node.load k (n.set place c).text = .ok (m.set place c) := by
  rw [load_eq_ok_iff (ofText_text _)] at loaded ⊢
  obtain ⟨fields⟩ := n
  rw [Node.document, Value.read] at loaded
  obtain ⟨_, inner, draft, entered, read, made⟩ := Source.of_enter_bind loaded
  obtain rfl : mk draft.finish = m := by injection made
  obtain ⟨after, read', finished⟩ :=
    Record.readMembers_set k.fields_distinct fields place rereads read
  have written : ((mk fields).set place c).document =
      .object (fields.set place (FieldValue.ofContent f.type c)).members .closed := rfl
  rw [written, Value.read, entered, Problem.ok_bind, read', Problem.ok_bind]
  exact congrArg (fun r => Except.ok (Value.node (mk r))) finished

/-! ## What is read from what is written for it -/

/-- What holds no array or object and can be told from its document is read from what is written for
it, wherever it stands. -/
theorem FieldValue.rereads_of_faithful {t : FieldType} {v : FieldValue t}
    (legible : t.legible = true)
    (faithful : ∀ source : Source, v.Each (Scalar.Faithful source.float?) List.Nodup)
    (flat : ∀ d ∈ v.document?, d.nesting = 0) : v.Rereads := by
  intro source
  cases written : v.document? with
  | none =>
      refine ⟨none, ?_, (v.eq_default_of_unwritten written).symm⟩
      rw [reread, written]
  | some d =>
      refine ⟨some v, ?_, rfl⟩
      have read := v.read_document? legible source (faithful source) d written
      rw [flat d written, Source.within_zero] at read
      rw [reread, written]
      exact congrArg (Except.map some) read

/-- A well-formed sentinel is read from what is written for it. -/
theorem FieldValue.rereads_sentinel {s : Sentinel} (wellFormed : s.WellFormed) :
    (FieldValue.ofContent (.required .sentinel) s).Rereads := by
  refine rereads_of_faithful rfl (fun _ => ⟨wellFormed, trivial, trivial, trivial⟩)
    fun d written => ?_
  change (if s.isUnset = true then none else some (Scalar.integerDocument s.raw.toInt)) = some d
    at written
  split at written
  · cases written
  · obtain rfl := Option.some.inj written
    rfl

/-! ## Sentinels of numbers -/

-- Powers are those of the core library, wherever Mathlib is imported too.
attribute [local instance (2000)] instPowNat

namespace Sentinel

/-- The sentinel of a number is set and holds the number, or the largest that a sentinel can hold
if the number is larger. It comes after the unset one; two of them are equal, and compare, as the
numbers do up to the largest. Put into a sentinel field of a node that is loaded from its text, it
is loaded from the text of the node, and everything else in the node as before. -/
theorem ofNat_saturates (v w : Nat) :
    isUnset (ofNat v) = false ∧
      value? (ofNat v) = some (min v (2 ^ (63 : Nat) - 1)) ∧
      compare unset (ofNat v) = .lt ∧
      (ofNat v = ofNat w ↔ min v (2 ^ (63 : Nat) - 1) = min w (2 ^ (63 : Nat) - 1)) ∧
      compare (ofNat v) (ofNat w) =
        Ord.compare (min v (2 ^ (63 : Nat) - 1)) (min w (2 ^ (63 : Nat) - 1)) ∧
      ∀ (k : Kind) (name : String) (field : FieldOf k name (.required .sentinel)) (n m : Node k),
        Node.load k n.text = .ok m →
          Node.load k (n.set field (ofNat v)).text = .ok (m.set field (ofNat v)) ∧
            (m.set field (ofNat v)).get field = ofNat v := by
  have wellFormed := wellFormed_ofNat v
  have set : isUnset (ofNat v) = false := by
    rw [Bool.eq_false_iff, Ne, ← value?_eq_none_iff wellFormed, value?_ofNat]
    exact Option.some_ne_none _
  refine ⟨set, value?_ofNat v, compare_unset_ofNat v, ofNat_eq_ofNat_iff, compare_ofNat v w, ?_⟩
  intro k name field n m loaded
  exact ⟨Node.load_text_set loaded field (FieldValue.rereads_sentinel wellFormed), Node.get_set ..⟩

/-- The largest unsigned number of 64 bits has the sentinel of the largest signed one, and this is
what is loaded as the index of a location that was loaded without one. -/
theorem ofNat_saturates_index :
    ofNat (2 ^ (64 : Nat) - 1) = ofNat (2 ^ (63 : Nat) - 1) ∧
      Node.load .artifactLocation (ArtifactLocation.ofUri "a.c").text =
        .ok (ArtifactLocation.ofUri "a.c") ∧
      Node.load .artifactLocation
          ((ArtifactLocation.ofUri "a.c").set ArtifactLocation.index
            (ofNat (2 ^ (64 : Nat) - 1))).text =
        .ok ((ArtifactLocation.ofUri "a.c").set ArtifactLocation.index
          (ofNat (2 ^ (64 : Nat) - 1))) := by
  obtain ⟨_, _, _, equal, _, loads⟩ := ofNat_saturates (2 ^ (64 : Nat) - 1) (2 ^ (63 : Nat) - 1)
  have before := Node.load_text_ofUri "a.c"
  refine ⟨equal.mpr (by decide), before, ?_⟩
  exact (loads _ _ ArtifactLocation.index _ _ before).1

/-- A number of 64 bits that no sentinel can hold is not held by its own, which is that of the
number below. -/
theorem ofNat_saturates_aboveLargest :
    value? (ofNat (2 ^ (63 : Nat))) ≠ some (2 ^ (63 : Nat)) ∧
      ofNat (2 ^ (63 : Nat)) = ofNat (2 ^ (63 : Nat) - 1) := by
  rw [value?_ofNat, ofNat_eq_ofNat_iff]
  decide

end Sentinel
end Sarif
