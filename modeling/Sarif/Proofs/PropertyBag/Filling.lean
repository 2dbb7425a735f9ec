import Sarif.Proofs.Node.Agreement
import Sarif.Proofs.Node.RoundTrip
import Sarif.Proofs.PropertyBag.History

/-!
# Ways of filling a bag

A bag can be read from the text of an object, made from a list of pairs, or filled by storing one
pair after the other. All three treat a repeated key alike: it keeps its first position and takes
its last value, so they come to the same bag (`PropertyBag.load_eq_ok_iff`,
`PropertyBag.performAll_fillCalls`). Only a text has a limit on nesting and numbers to be scaled:
pairs that nest deeper make a bag which cannot be read from its own text, and a floating-point
number can be read from it as one of its neighbours.
-/

namespace Sarif
namespace PropertyBag

variable {pairs : List (String × Json)}

/-- The calls that store one pair after the other. -/
def fillCalls (pairs : List (String × Json)) : List BagCall :=
  pairs.map fun pair => .setRaw pair.1 pair.2

/-- The object with pairs as its members, in their order. -/
def pairsDocument (pairs : List (String × Json)) : Document :=
  .object (Flat.memberDocuments .json pairs) .closed

/-- A member of an object has the name and the value of a pair. The object is the outermost value
of a text, so that 126 more arrays and objects may be opened in it. -/
def Holds (member : Literal × Document) (pair : String × Json) : Prop :=
  member.1.read = .ok pair.1 ∧ Json.read (.text 126) member.2 = .ok pair.2

/-- A text is an object whose members are pairs, in their order. How it is laid out, and how it
spells the names and values, does not matter. -/
def Spells (text : String) (pairs : List (String × Json)) : Prop :=
  ∃ members, Document.ofText text.toList = (.object members .closed, false) ∧
    List.Forall₂ Holds members pairs

/-! ## Reading -/

/-- Members are read as pairs exactly if each has the name and the value of its pair. -/
theorem readEntries_eq_ok_iff {members : List (Literal × Document)} :
    Flat.readEntries (Json.read (.text 126)) members = .ok pairs ↔
      List.Forall₂ Holds members pairs := by
  constructor
  · intro success
    induction members generalizing pairs with
    | nil =>
        obtain rfl := Except.ok.inj success
        exact .nil
    | cons member rest inductionHypothesis =>
        obtain ⟨name, named, success⟩ := Problem.bind_eq_ok success
        obtain ⟨value, held, success⟩ := Problem.bind_eq_ok success
        obtain ⟨later, tail, success⟩ := Problem.bind_eq_ok success
        obtain rfl := Except.ok.inj success
        exact .cons ⟨named, held⟩ (inductionHypothesis tail)
  · intro each
    induction each with
    | nil => rfl
    | cons head _ inductionHypothesis =>
        rw [Flat.readEntries, head.1, Problem.ok_bind, head.2, Problem.ok_bind, inductionHypothesis]
        rfl

/-- What comes of reading a document is what comes of loading its text. -/
theorem load_of_ofText {text : String} {d : Document}
    (parsed : Document.ofText text.toList = (d, false)) :
    load text = Flat.read .start (.map .json) d := by
  have value : Value.read .start .bag d = (Flat.read .start (.map .json) d).map .flat := by
    rw [Value.read]
  rw [load, FieldType.load_eq_read parsed, FieldValue.read, FieldValue.readWith, value]
  cases Flat.read .start (.map .json) d <;> rfl

/-- A document is read as a bag exactly if it is an object of pairs of which it is the bag. -/
theorem readBag_eq_ok_iff {d : Document} {bag : PropertyBag} :
    Flat.read .start (.map .json) d = .ok bag ↔
      ∃ members pairs, d = .object members .closed ∧ List.Forall₂ Holds members pairs ∧
        ofPairs pairs = bag := by
  constructor
  · intro success
    cases d with
    | object members ending =>
        obtain ⟨whole, inner, pairs, entered, entries, made⟩ := Source.of_enter_bind success
        obtain rfl : Source.text 126 = inner := Except.ok.inj entered
        cases ending with
        | closed => exact ⟨members, pairs, rfl, readEntries_eq_ok_iff.mp entries, made⟩
        | broken defect => cases whole
        | unnamed defect => cases whole
    | _ => exact absurd success (Document.refuse_ne_ok _ _ _)
  · rintro ⟨members, pairs, rfl, each, rfl⟩
    have entered : Source.start.enter = .ok (.text 126) := rfl
    have entries : Flat.readEntries (Scalar.read (.text 126) .json) members = .ok pairs :=
      readEntries_eq_ok_iff.mpr each
    rw [Flat.read, Flat.readMap, entered, Problem.ok_bind, entries]
    rfl

/-- A text is read as a bag exactly if it spells pairs of which it is the bag. -/
theorem load_eq_ok_iff {text : String} {bag : PropertyBag} :
    load text = .ok bag ↔ ∃ pairs, Spells text pairs ∧ ofPairs pairs = bag := by
  constructor
  · intro loaded
    obtain ⟨_, success, _⟩ := Problem.bind_eq_ok loaded
    obtain ⟨d, parsed⟩ := FieldType.exists_of_load success
    rw [load_of_ofText parsed] at loaded
    obtain ⟨members, pairs, rfl, each, made⟩ := readBag_eq_ok_iff.mp loaded
    exact ⟨pairs, ⟨members, parsed, each⟩, made⟩
  · rintro ⟨pairs, ⟨members, parsed, each⟩, made⟩
    rw [load_of_ofText parsed]
    exact readBag_eq_ok_iff.mpr ⟨members, pairs, rfl, each, made⟩

/-- The object of pairs is parsed from its text. -/
theorem ofText_pairsDocument (pairs : List (String × Json)) :
    Document.ofText (pairsDocument pairs).render.toList = (pairsDocument pairs, false) :=
  Document.ofText_render (Flat.document_sound (.map .json) ⟨pairs⟩)

/-- The members of the object of pairs are read or refused as malformed, whatever becomes of their
numbers. -/
theorem settles_readEntries (pairs : List (String × Json)) (source : Source) :
    source.Settles (Document.membersNesting (Flat.memberDocuments .json pairs))
      (Flat.readEntries (Json.read source) (Flat.memberDocuments .json pairs)) := by
  induction pairs with
  | nil => exact source.admits_zero
  | cons pair rest inductionHypothesis =>
      have head := Json.settles_read pair.2 source
      have name := Literal.read_ofString pair.1
      simp only [Flat.memberDocuments, List.map_cons, Flat.readEntries, Document.membersNesting,
        name, Problem.ok_bind]
      exact head.append inductionHypothesis fun x others => (pair.1, x) :: others

/-- The object of pairs is refused if it nests too deep. -/
theorem load_pairsDocument_of_deep (deep : 127 < (pairsDocument pairs).nesting) :
    load (pairsDocument pairs).render = .error (.broken .malformed) := by
  have settles : Source.start.Settles (pairsDocument pairs).nesting
      (Flat.read .start (.map .json) (pairsDocument pairs)) :=
    Source.Settles.enter (settles_readEntries pairs) Dict.ofList
  rw [load_of_ofText (ofText_pairsDocument pairs)]
  exact settles.eq_error (decide_eq_false (Nat.not_le.mpr deep))

/-- The object of pairs whose numbers read back spells them, if it does not nest too deep. -/
theorem spells_pairsDocument (wellFormed : ∀ pair ∈ pairs, pair.2.WellFormed)
    (readBack : ∀ pair ∈ pairs, pair.2.ReadsBack Numeral.float?)
    (shallow : (pairsDocument pairs).nesting ≤ 127) :
    Spells (pairsDocument pairs).render pairs := by
  refine ⟨_, ofText_pairsDocument pairs, ?_⟩
  rw [Flat.memberDocuments, List.forall₂_map_left_iff, List.forall₂_same]
  intro pair inside
  have written : (Literal.ofString pair.1, pair.2.document) ∈ Flat.memberDocuments .json pairs :=
    List.mem_map.mpr ⟨pair, inside, rfl⟩
  have deepest := Document.nesting_le_membersNesting written
  have shallower : Document.membersNesting (Flat.memberDocuments .json pairs) ≤ 126 :=
    Nat.le_of_succ_le_succ shallow
  refine ⟨Literal.read_ofString pair.1, ?_⟩
  exact (Json.read_document pair.2 (wellFormed pair inside) (.text 126)
    (readBack pair inside)).trans
    (Source.within_of_le (deepest.trans shallower) _)

/-! ## Storing one pair after the other -/

/-- Storing pairs one after the other makes their bag. -/
theorem performAll_fillCalls (pairs : List (String × Json)) :
    performAll Dict.empty (fillCalls pairs) = ofPairs pairs := by
  rw [performAll, fillCalls, List.foldl_map]
  rfl

/-- The bag of pairs, and what comes of it by further calls, is what the history tells. -/
theorem records_ofPairs (pairs : List (String × Json)) (calls : List BagCall) :
    ((ofPairs pairs).performAll calls).Records (fillCalls pairs ++ calls) := by
  rw [← performAll_fillCalls]
  exact (records_empty.performAll (fillCalls pairs)).performAll calls

/-! ## All ways of filling a bag -/

/-- A bag is filled with pairs: it is what is read from any text that spells them and what comes
of storing one after the other. Its keys are those of the pairs, where they came first, and each
has the last value that the pairs have for it. -/
structure FilledWith (bag : PropertyBag) (pairs : List (String × Json)) : Prop where
  read : ∀ text, Spells text pairs → load text = .ok bag
  stored : performAll Dict.empty (fillCalls pairs) = bag
  keys : bag.keys = (pairs.map Prod.fst).eraseDups
  value : ∀ key, bag.get? key = Dict.lookup key pairs.reverse

/-- All ways of filling a bag with pairs come to the same bag. The compact text of the pairs is one
of those that it is read from, if their floating-point numbers read back and it nests at most 127
arrays and objects; if it nests deeper it is refused. From there on, whatever calls are made, the
bag holds what the calls tell, and every call gives back the value that it replaces or removes. -/
theorem ofPairs_filledWith (pairs : List (String × Json))
    (wellFormed : ∀ pair ∈ pairs, pair.2.WellFormed) (calls : List BagCall) (call : BagCall) :
    (ofPairs pairs).FilledWith pairs ∧
      ((∀ pair ∈ pairs, pair.2.ReadsBack Numeral.float?) →
        (pairsDocument pairs).nesting ≤ 127 → Spells (pairsDocument pairs).render pairs) ∧
      (127 < (pairsDocument pairs).nesting →
        load (pairsDocument pairs).render = .error (.broken .malformed)) ∧
      ((ofPairs pairs).performAll calls).Records (fillCalls pairs ++ calls) ∧
      (((ofPairs pairs).performAll calls).perform call).1 =
        BagCall.answer (fillCalls pairs ++ calls) call := by
  have filled : (ofPairs pairs).FilledWith pairs :=
    ⟨fun _ spelled => load_eq_ok_iff.mpr ⟨pairs, spelled, rfl⟩, performAll_fillCalls pairs,
      Dict.keys_ofList pairs, Dict.get?_ofList pairs⟩
  have records := records_ofPairs pairs calls
  exact ⟨filled, spells_pairsDocument wellFormed, load_pairsDocument_of_deep, records,
    records.answer call⟩

/-- Three pairs, two of them under one key, which takes a floating-point number, 0.1, at last. -/
def repeatedPairs : List (String × Json) :=
  [("a", .null), ("b", .boolean true), ("a", .number (.float ⟨0x3FB999999999999A⟩))]

/-- Calls that remove the repeated key and set it again. -/
def reinsertion : List BagCall :=
  [.remove "a", .setRaw "a" .null]

/-- The repeated key keeps its place and takes its last value. Removed and set again, it comes
last; the other one gives back its value when it is removed then. -/
theorem ofPairs_filledWith_repeatedPairs :
    load (pairsDocument repeatedPairs).render =
        .ok ⟨[("a", .number (.float ⟨0x3FB999999999999A⟩)), ("b", .boolean true)]⟩ ∧
      ((ofPairs repeatedPairs).performAll reinsertion).keys = ["b", "a"] ∧
      BagCall.CameInBefore (fillCalls repeatedPairs ++ reinsertion) "b" "a" ∧
      (((ofPairs repeatedPairs).performAll reinsertion).perform (.remove "b")).1 =
        .ok (some (.boolean true)) := by
  have finite : Binary64.isFinite ⟨0x3FB999999999999A⟩ = true := by decide
  have wellFormed : ∀ pair ∈ repeatedPairs, pair.2.WellFormed := by
    simp [repeatedPairs, Json.WellFormed, Number.WellFormed, finite]
  have number : (Numeral.ofFloat ⟨0x3FB999999999999A⟩).float? = some ⟨0x3FB999999999999A⟩ :=
    Numeral.float?_ofFloat finite (by decide +kernel) (by decide +kernel)
  have readBack : ∀ pair ∈ repeatedPairs, pair.2.ReadsBack Numeral.float? := by
    simp [repeatedPairs, Json.ReadsBack, Number.ReadsBack, number]
  have shallow : (pairsDocument repeatedPairs).nesting ≤ 127 := by decide
  obtain ⟨filled, spells, _, records, answer⟩ :=
    ofPairs_filledWith repeatedPairs wellFormed reinsertion (.remove "b")
  have keys : ((ofPairs repeatedPairs).performAll reinsertion).keys = ["b", "a"] := by decide
  have order := records.order
  rw [keys] at order
  refine ⟨filled.read _ (spells readBack shallow), keys, ?_, answer⟩
  exact (List.pairwise_cons.mp order).1 "a" (List.mem_singleton_self _)

/-- Arrays within one another. -/
def nestedArrays : Nat → Json
  | 0 => .null
  | depth + 1 => .array [nestedArrays depth]

/-- Arrays within one another are well-formed. -/
theorem nestedArrays_wellFormed (depth : Nat) : (nestedArrays depth).WellFormed := by
  induction depth with
  | zero => trivial
  | succ depth inductionHypothesis => exact ⟨inductionHypothesis, trivial⟩

/-- Arrays within one another hold no number. -/
theorem nestedArrays_readsBack (float? : Numeral → Option Binary64) (depth : Nat) :
    (nestedArrays depth).ReadsBack float? := by
  induction depth with
  | zero => trivial
  | succ depth inductionHypothesis => exact ⟨inductionHypothesis, trivial⟩

/-- Arrays within one another nest as deep as there are many. -/
theorem nesting_nestedArrays (depth : Nat) : (nestedArrays depth).document.nesting = depth := by
  induction depth with
  | zero => rfl
  | succ depth inductionHypothesis =>
      rw [nestedArrays, Json.document, Json.itemDocuments, Json.itemDocuments, Document.nesting,
        Document.itemsNesting, Document.itemsNesting, inductionHypothesis,
        Nat.max_eq_left depth.zero_le]

/-- One pair, of a number that does not read back. -/
def driftingPair : List (String × Json) :=
  [("x", .number (.float ⟨0x403F3ECA06FAEA82⟩))]

/-- The number is written as `31.245270191439438`, and the bag of the text has the number that comes
next, which is written as `31.24527019143944`. -/
theorem load_driftingPair :
    load (pairsDocument driftingPair).render =
      .ok ⟨[("x", .number (.float ⟨0x403F3ECA06FAEA83⟩))]⟩ := by
  have found : (Numeral.ofFloat ⟨0x403F3ECA06FAEA82⟩).float? = some ⟨0x403F3ECA06FAEA83⟩ := by
    decide +kernel
  have read : Numeral.read (.text 126) (.ofFloat ⟨0x403F3ECA06FAEA82⟩) =
      .ok (.float ⟨0x403F3ECA06FAEA83⟩) := by
    rw [Numeral.read, Numeral.numberOr_ofFloat, Source.float?, found]
    rfl
  refine load_eq_ok_iff.mpr ⟨[("x", .number (.float ⟨0x403F3ECA06FAEA83⟩))], ⟨_,
    ofText_pairsDocument driftingPair, .cons ⟨?_, ?_⟩ .nil⟩, rfl⟩
  · exact Literal.read_ofString "x"
  · change Json.read (.text 126) (.numeral (.ofFloat ⟨0x403F3ECA06FAEA82⟩)) = _
    rw [Json.read, read]
    rfl

/-- Not every bag that can be filled by storing pairs is read from the text of the pairs. A property
that nests 127 arrays cannot be read within an object, and a number need not read back. -/
theorem ofPairs_filledWith_unread :
    (¬ ∀ pairs : List (String × Json), (∀ pair ∈ pairs, pair.2.WellFormed) →
      (∀ pair ∈ pairs, pair.2.ReadsBack Numeral.float?) →
        load (pairsDocument pairs).render = .ok (performAll Dict.empty (fillCalls pairs))) ∧
    ¬ ∀ pairs : List (String × Json), (∀ pair ∈ pairs, pair.2.WellFormed) →
      (pairsDocument pairs).nesting ≤ 127 →
        load (pairsDocument pairs).render = .ok (performAll Dict.empty (fillCalls pairs)) := by
  constructor
  · intro always
    have wellFormed : ∀ pair ∈ [("x", nestedArrays 127)], pair.2.WellFormed := by
      simp [nestedArrays_wellFormed]
    have readBack : ∀ pair ∈ [("x", nestedArrays 127)], pair.2.ReadsBack Numeral.float? := by
      simp [nestedArrays_readsBack]
    have deep : 127 < (pairsDocument [("x", nestedArrays 127)]).nesting := by
      simp [pairsDocument, Flat.memberDocuments, Document.nesting, Document.membersNesting,
        Scalar.document, nesting_nestedArrays]
    have read := always _ wellFormed readBack
    rw [load_pairsDocument_of_deep deep] at read
    cases read
  · intro always
    have finite : Binary64.isFinite ⟨0x403F3ECA06FAEA82⟩ = true := by decide
    have wellFormed : ∀ pair ∈ driftingPair, pair.2.WellFormed := by
      simp [driftingPair, Json.WellFormed, Number.WellFormed, finite]
    have read := always driftingPair wellFormed (by decide)
    rw [load_driftingPair] at read
    cases read

end PropertyBag
end Sarif
