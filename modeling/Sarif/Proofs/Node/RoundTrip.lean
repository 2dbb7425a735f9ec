import Sarif.Build
import Sarif.PropertyBag
import Sarif.Proofs.Node.Default
import Sarif.Proofs.Node.EachPart
import Sarif.Proofs.Node.ReadsBack
import Sarif.Proofs.Number.Scaling
import Sarif.Proofs.Sentinel

/-!
# Texts of nodes read back

What a node is written as has nothing broken in it, so its text is parsed as its document again
and read as the node. A node that nests deeper than 127 arrays and objects is written all the
same, and its text is refused.
-/

namespace Sarif

/-! ## What is written is sound -/

/-- The numeral of a number is sound. -/
theorem Number.numeral_sound (n : Number) : n.numeral.Sound := by
  intro c member
  cases n with
  | integer i => cases member
  | float x =>
      simp only [numeral, Numeral.ofFloat] at member
      split at member
      · exact Numeral.isDigit_of_mem_paddedDigits member
      · simp only [Numeral.scientific] at member
        split at member
        · cases member
        · exact Numeral.isDigit_of_mem_paddedDigits member

/-- The literal of a string is sound. -/
theorem Literal.ofString_sound (s : String) : (ofString s).Sound := by
  refine ⟨rfl, fun piece member => ?_⟩
  obtain ⟨c, _, rfl⟩ := List.mem_map.mp member
  exact ⟨c, rfl⟩

/-- A run of items is sound when each of them is. -/
theorem Document.soundItems_of_forall {items : List Document}
    (each : ∀ item ∈ items, item.Sound) : SoundItems items := by
  induction items with
  | nil => trivial
  | cons item rest inductionHypothesis =>
      refine ⟨each item (List.mem_cons_self ..), ?_⟩
      exact inductionHypothesis fun item member => each item (List.mem_cons_of_mem _ member)

/-- A run of members is sound when the names and the values are. -/
theorem Document.soundMembers_of_forall {members : List (Literal × Document)}
    (each : ∀ member ∈ members, member.1.Sound ∧ member.2.Sound) : SoundMembers members := by
  induction members with
  | nil => trivial
  | cons member rest inductionHypothesis =>
      have head := each member (List.mem_cons_self ..)
      refine ⟨head.1, head.2, ?_⟩
      exact inductionHypothesis fun member inside => each member (List.mem_cons_of_mem _ inside)

namespace Json

mutual

/-- A stored value is written soundly. -/
theorem document_sound : (x : Json) → x.document.Sound
  | null => trivial
  | boolean _ => trivial
  | number n => n.numeral_sound
  | string s => Literal.ofString_sound s
  | array items => ⟨rfl, itemDocuments_sound items⟩
  | object members => ⟨rfl, memberDocuments_sound members⟩

/-- A run of items is written soundly. -/
theorem itemDocuments_sound : (items : List Json) → Document.SoundItems (itemDocuments items)
  | [] => trivial
  | item :: rest => ⟨document_sound item, itemDocuments_sound rest⟩

/-- A run of members is written soundly. -/
theorem memberDocuments_sound : (members : List (String × Json)) →
    Document.SoundMembers (memberDocuments members)
  | [] => trivial
  | (name, value) :: rest =>
      ⟨Literal.ofString_sound name, document_sound value, memberDocuments_sound rest⟩

end

end Json

/-- A scalar is written soundly. -/
theorem Scalar.document_sound (s : Scalar) (x : s.Value) : (s.document x).Sound := by
  cases s with
  | text => exact Literal.ofString_sound x
  | boolean => trivial
  | integer w => exact Number.numeral_sound _
  | number =>
      simp only [document]
      split
      · exact Number.numeral_sound _
      · trivial
  | sentinel => exact Number.numeral_sound _
  | dateTime => exact Literal.ofString_sound _
  | choice c => exact Literal.ofString_sound _
  | json => exact Json.document_sound x
  | unit => trivial

/-- A flat value is written soundly. -/
theorem Flat.document_sound (f : Flat) (x : f.Value) : (f.document x).Sound := by
  cases f with
  | scalar s => exact s.document_sound x
  | array s =>
      refine ⟨rfl, Document.soundItems_of_forall fun item member => ?_⟩
      obtain ⟨y, _, rfl⟩ := List.mem_map.mp member
      exact s.document_sound y
  | slots s =>
      refine ⟨rfl, Document.soundItems_of_forall fun item member => ?_⟩
      obtain ⟨slot, _, rfl⟩ := List.mem_map.mp member
      cases slot with
      | none => trivial
      | some y => exact s.document_sound y
  | map s =>
      refine ⟨rfl, Document.soundMembers_of_forall fun item member => ?_⟩
      obtain ⟨entry, _, rfl⟩ := List.mem_map.mp member
      exact ⟨Literal.ofString_sound _, s.document_sound entry.2⟩

mutual

/-- A node is written soundly. -/
theorem Node.document_sound : {k : Kind} → (n : Node k) → n.document.Sound
  | _, .mk fields => ⟨rfl, Record.members_sound fields⟩

/-- A value is written soundly. -/
theorem Value.document_sound : {t : Ty} → (v : Value t) → v.document.Sound
  | _, .flat x => Flat.document_sound _ x
  | _, .node n => Node.document_sound n
  | _, .nodes s => ⟨rfl, Slots.documents_sound s⟩
  | _, .nodeMap e => ⟨rfl, Entries.members_sound e⟩

/-- What is written of a field is sound. -/
theorem FieldValue.document?_sound : {t : FieldType} → (v : FieldValue t) →
    ∀ d ∈ v.document?, d.Sound
  | _, .required v, d, written => by
      have sound := Value.document_sound v
      rw [FieldValue.document?] at written
      split at written
      · cases written
      · exact Option.some.inj written ▸ sound
  | _, .absent, _, written => by cases written
  | _, .present v, d, written => by
      have sound := Value.document_sound v
      exact Option.some.inj written ▸ sound

/-- A record is written soundly. -/
theorem Record.members_sound : {fs : List Field} → (r : Record fs) →
    Document.SoundMembers r.members
  | _, .nil => trivial
  | f :: _, .cons v rest => by
      have head := FieldValue.document?_sound v
      have tail := Record.members_sound rest
      rw [Record.members]
      split
      · next d written => exact ⟨Literal.ofString_sound f.name, head d written, tail⟩
      · exact tail

/-- A list of nodes is written soundly. -/
theorem Slots.documents_sound : {k : Kind} → (s : Slots k) → Document.SoundItems s.documents
  | _, .nil => trivial
  | _, .empty rest => ⟨trivial, Slots.documents_sound rest⟩
  | _, .full n rest => ⟨Node.document_sound n, Slots.documents_sound rest⟩

/-- A map of nodes is written soundly. -/
theorem Entries.members_sound : {k : Kind} → (e : Entries k) → Document.SoundMembers e.members
  | _, .nil => trivial
  | _, .cons key n rest =>
      ⟨Literal.ofString_sound key, Node.document_sound n, Entries.members_sound rest⟩

end

/-! ## Loading what was written -/

/-- A finite number is told from every other one by a text of at most 53 bits near the point. -/
theorem Scalar.faithful_number {x : Binary64} (finite : x.isFinite = true)
    (few : (Numeral.ofFloat x).decimal.coefficient < 2 ^ 53)
    (near : (Numeral.ofFloat x).decimal.scale.natAbs ≤ 22) :
    Scalar.Faithful Source.start.float? .number x := by
  have found : (Numeral.ofFloat x).float? = some x := Numeral.float?_ofFloat finite few near
  exact ⟨trivial, finite, trivial, found⟩

namespace Node

variable {k : Kind}

/-- A node that a reader of floating-point numbers tells from every other one by its document. -/
theorem faithful {float? : Numeral → Option Binary64} (n : Node k) (wellFormed : n.WellFormed)
    (finite : n.FloatsFinite) (inEra : n.DatesInEra)
    (readsBack : n.Each (Scalar.ReadsBack float?) fun _ => True) :
    n.Each (Scalar.Faithful float?) List.Nodup := by
  have numbers : n.Each (fun s x => s.WellFormed x ∧ s.Finite x) List.Nodup :=
    Each.combine (fun _ _ => And.intro) (fun _ distinct _ => distinct) n wellFormed finite
  have times : n.Each (fun s x => s.InEra x ∧ s.ReadsBack float? x) fun _ => True :=
    Each.combine (fun _ _ => And.intro) (fun _ _ _ => trivial) n inEra readsBack
  exact Each.combine (fun _ _ both more => ⟨both.1, both.2, more⟩)
    (fun _ distinct _ => distinct) n numbers times

/-- What holds of a node that a reader of texts tells from every other one by its document. -/
theorem of_faithful {n : Node k} (faithful : n.Each (Scalar.Faithful Numeral.float?) List.Nodup) :
    n.WellFormed ∧ n.FloatsFinite ∧ n.FloatsReadBack ∧ n.DatesInEra := by
  refine ⟨?_, ?_, ?_, ?_⟩
  · exact Each.imp (fun _ _ whole => whole.1) (fun _ distinct => distinct) n faithful
  · exact Each.imp (fun _ _ whole => whole.2.1) (fun _ _ => trivial) n faithful
  · exact Each.imp (fun _ _ whole => whole.2.2.2) (fun _ _ => trivial) n faithful
  · exact Each.imp (fun _ _ whole => whole.2.2.1) (fun _ _ => trivial) n faithful

/-- A stored value keeps every finite number, so it tells a node from every other one. -/
theorem faithful_stored (n : Node k) (wellFormed : n.WellFormed) (finite : n.FloatsFinite)
    (inEra : n.DatesInEra) : n.Each (Scalar.Faithful Source.stored.float?) List.Nodup := by
  refine n.faithful wellFormed finite inEra ?_
  exact Each.combine (fun s _ => s.readsBack_stored) (fun _ _ _ => trivial) n wellFormed finite

/-- The text of a node is the text of its document. -/
theorem ofText_text (n : Node k) : Document.ofText n.text.toList = (n.document, false) :=
  Document.ofText_render n.document_sound

/-- What is read from a sound document is loaded from its text. -/
theorem load_render {d : Document} (sound : d.Sound) {nesting : Nat} {n : Node k}
    (read : Value.read .start (.node k) d = Source.start.within nesting (.node n)) :
    Node.load k d.render = Source.start.within nesting n := by
  have field : FieldValue.read .start (.required (.node k)) d =
      Source.start.within nesting (.required (.node n)) := by
    rw [FieldValue.read, FieldValue.readWith, read, Source.map_within]
  have loaded : FieldType.load (.required (.node k)) d.render =
      Source.start.within nesting (.required (.node n)) := by
    rw [FieldType.load, Document.ofText_render sound]
    simp only [field, Bool.false_eq_true, if_false]
    exact Source.bind_within_ok rfl
  rw [Node.load, loaded]
  exact Source.bind_within_ok rfl

/-- The text of a node is loaded as the node, if it does not nest too deep. -/
theorem load_text_eq_within (n : Node k) (wellFormed : n.WellFormed) (finite : n.FloatsFinite)
    (inEra : n.DatesInEra) (readBack : n.FloatsReadBack) :
    Node.load k n.text = Source.start.within n.document.nesting n :=
  load_render n.document_sound
    (read_document n .start (n.faithful wellFormed finite inEra readBack))

/-- A well-formed node whose numbers are finite and read back, whose date-times lie in the years
0000 to 9999 and whose text nests at most 127 arrays and objects is loaded from its text. -/
theorem load_text (n : Node k) (wellFormed : n.WellFormed) (finite : n.FloatsFinite)
    (readBack : n.FloatsReadBack) (inEra : n.DatesInEra) (shallow : n.document.nesting ≤ 127) :
    Node.load k n.text = .ok n := by
  rw [load_text_eq_within n wellFormed finite inEra readBack]
  exact Source.within_of_le shallow n

/-- When the detected result was found: 2023-11-14T22:13:20.5Z. -/
def detection : ResultProvenance :=
  (default .resultProvenance).set ResultProvenance.firstDetectionTimeUtc
    (some ⟨1700000000, 500000000⟩)

/-- A result with an index, a rank of 58.5, an empty slot among its locations, fingerprints and
properties out of alphabetical order, and the time of its detection. -/
def detectedResult : Result :=
  ((((((default .result).set Result.ruleIndex (Sentinel.ofNat 3)).set
    Result.locations (some [none, some (default .location)])).set
    Result.partialFingerprints (some ⟨[("second", "0a"), ("first", "")]⟩)).set
    Result.rank (some ⟨0x404D400000000000⟩)).set
    Result.provenance (some detection)).set
    Kind.result.properties
      (some ⟨[("weight", .number (.float ⟨0x3FB999999999999A⟩)), ("notes", .array [.null])]⟩)

/-- The detected result is told from every other one by its document. -/
theorem detectedResult_faithful :
    detectedResult.Each (Scalar.Faithful Source.start.float?) List.Nodup := by
  have rank : Scalar.Faithful Source.start.float? .number ⟨0x404D400000000000⟩ :=
    Scalar.faithful_number (by decide) (by decide +kernel) (by decide +kernel)
  have finite : Binary64.isFinite ⟨0x3FB999999999999A⟩ = true := by decide
  have weight : (Numeral.ofFloat ⟨0x3FB999999999999A⟩).float? = some ⟨0x3FB999999999999A⟩ :=
    Numeral.float?_ofFloat finite (by decide +kernel) (by decide +kernel)
  have time : Scalar.Faithful Source.start.float? .dateTime ⟨1700000000, 500000000⟩ := by
    refine ⟨?_, trivial, ?_, trivial⟩
    · change DateTime.WellFormed _
      unfold DateTime.WellFormed
      decide
    · change DateTime.InEra _
      unfold DateTime.InEra
      decide
  have detected : detection.Each (Scalar.Faithful Source.start.float?) List.Nodup := by
    refine (default_faithful .start .resultProvenance).set _ ?_
    rintro _ ⟨⟩
    exact time
  refine ((((((default_faithful .start .result).set _ ?index).set _ ?locations).set _
    ?fingerprints).set _ ?rank).set _ ?provenance).set _ ?properties
  case index => exact ⟨Sentinel.wellFormed_ofNat 3, trivial, trivial, trivial⟩
  case locations =>
    rintro _ ⟨⟩ slot inside n ⟨⟩
    simp only [List.mem_cons, List.not_mem_nil, Option.some.injEq] at inside
    obtain rfl : n = default .location := by simpa using inside
    exact default_faithful .start .location
  case fingerprints =>
    rintro _ ⟨⟩
    exact ⟨by decide, fun entry _ => ⟨trivial, trivial, trivial, trivial⟩⟩
  case rank =>
    rintro _ ⟨⟩
    exact rank
  case provenance =>
    rintro _ ⟨⟩
    exact detected
  case properties =>
    rintro _ ⟨⟩
    refine ⟨by decide, List.forall_mem_cons.mpr ⟨?_, List.forall_mem_singleton.mpr ?_⟩⟩
    · exact ⟨finite, trivial, trivial, weight⟩
    · exact ⟨⟨trivial, trivial⟩, trivial, trivial, trivial, trivial⟩

/-- The detected result is loaded from its text, with the empty slot in its place, the entries in
their order and the time and both numbers as they were. -/
theorem load_text_detectedResult : Node.load .result detectedResult.text = .ok detectedResult := by
  obtain ⟨wellFormed, finite, readBack, inEra⟩ := of_faithful detectedResult_faithful
  exact load_text detectedResult wellFormed finite readBack inEra (by decide)

/-- A location that has a URI and nothing else is loaded from its text, whatever the URI is. -/
theorem load_text_ofUri (uri : String) :
    Node.load .artifactLocation (ArtifactLocation.ofUri uri).text =
      .ok (ArtifactLocation.ofUri uri) := by
  have shallow : (ArtifactLocation.ofUri uri).document.nesting ≤ 127 := Nat.le_of_ble_eq_true rfl
  rw [load_text_eq_within (ArtifactLocation.ofUri uri)
    ⟨trivial, trivial, Sentinel.wellFormed_unset, trivial, trivial, trivial⟩
    ⟨trivial, trivial, trivial, trivial, trivial, trivial⟩
    ⟨trivial, trivial, trivial, trivial, trivial, trivial⟩
    ⟨trivial, trivial, trivial, trivial, trivial, trivial⟩]
  exact Source.within_of_le shallow _

end Node
end Sarif
