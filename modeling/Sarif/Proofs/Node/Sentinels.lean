import Sarif.Build
import Sarif.Proofs.Artifacts.Lookup
import Sarif.Proofs.Node.Default
import Sarif.Proofs.Node.EachPart
import Sarif.Proofs.Node.Fits
import Sarif.Proofs.Node.SameDocument
import Sarif.Proofs.Reading.Context

/-!
# Sentinels stay at `-1` or above

`Node.Obtained` describes the nodes that a program can come by: those that it loads, converts from
properties or makes by default, what it takes out of them, and what look-ups of artifacts and
assignments of sentinels make of them. No sentinel of such a node is below `-1`, since none of
these steps lets one in (`Node.Obtained.sentinelsBounded`). So each sentinel field holds a number
or is unset, and is written exactly if it holds one. The other way round, a document with a lower
integer where a sentinel is read is refused, wherever in the document it stands.
-/

namespace Sarif

/-! ## The invariant -/

/-- A sentinel is not below `-1`; every other scalar will do. -/
def Scalar.SentinelBounded : (s : Scalar) → s.Value → Prop
  | .sentinel, x => Sentinel.WellFormed x
  | _, _ => True

/-- No sentinel of a node is below `-1`, at any depth. -/
def Node.SentinelsBounded {k : Kind} (n : Node k) : Prop :=
  n.Each Scalar.SentinelBounded fun _ => True

/-- Well-formed scalars are not sentinels below `-1`. -/
theorem Scalar.sentinelBounded_of_wellFormed (s : Scalar) (x : s.Value)
    (wellFormed : s.WellFormed x) :
    s.SentinelBounded x := by
  cases s with
  | sentinel => exact wellFormed
  | _ => trivial

/-- A well-formed node has no sentinel below `-1`. -/
theorem Node.WellFormed.sentinelsBounded {k : Kind} {n : Node k} (wellFormed : n.WellFormed) :
    n.SentinelsBounded :=
  Each.imp Scalar.sentinelBounded_of_wellFormed (fun _ _ => trivial) n wellFormed

/-- The type of the scalars of a flat type. -/
def Flat.element : Flat → Scalar
  | scalar s => s
  | array s => s
  | slots s => s
  | map s => s

/-- A field of a plain type holds neither nodes nor sentinels. -/
inductive FieldType.Plain : FieldType → Prop where
  | required {f : Flat} (other : f.element ≠ .sentinel) : Plain (.required (.flat f))
  | optional {f : Flat} (other : f.element ≠ .sentinel) : Plain (.optional (.flat f))

/-- What is not a sentinel is not one below `-1`. -/
theorem Scalar.sentinelBounded_of_ne {s : Scalar} (other : s ≠ .sentinel) (x : s.Value) :
    s.SentinelBounded x := by
  cases s with
  | sentinel => exact absurd rfl other
  | _ => trivial

/-- A flat value of other scalars has no sentinel below `-1`. -/
theorem Flat.each_sentinelBounded {f : Flat} (other : f.element ≠ .sentinel) (x : f.Value) :
    Flat.Each Scalar.SentinelBounded (fun _ => True) f x := by
  have each := @Scalar.sentinelBounded_of_ne f.element other
  cases f with
  | scalar s => exact each x
  | array s => exact fun item _ => each item
  | slots s => exact fun _ _ item _ => each item
  | map s => exact ⟨trivial, fun entry _ => each entry.2⟩

/-- A field of a plain type has no sentinel below `-1`, whatever it holds. -/
theorem FieldType.Plain.each {t : FieldType} (plain : t.Plain) (c : t.Content) :
    t.Each Scalar.SentinelBounded (fun _ => True) c := by
  cases plain with
  | required other => exact Flat.each_sentinelBounded other c
  | optional other => exact fun x _ => Flat.each_sentinelBounded other x

/-! ## Looking up artifacts -/

/-- A location with an index has no sentinel below `-1` if it had none before. -/
theorem ArtifactLocation.sentinelsBounded_withIndex {location : ArtifactLocation}
    (bounded : location.SentinelsBounded) (i : Nat) : (location.withIndex i).SentinelsBounded :=
  Node.Each.set bounded ArtifactLocation.index (Sentinel.wellFormed_ofNat i)

/-- An artifact of which only the location is known has no sentinel below `-1` if the location has
none. -/
theorem Artifact.sentinelsBounded_ofLocation {location : ArtifactLocation}
    (bounded : location.SentinelsBounded) : (Artifact.ofLocation location).SentinelsBounded := by
  have start : (Node.default .artifact).SentinelsBounded :=
    Node.Each.imp (fun s x faithful => s.sentinelBounded_of_wellFormed x faithful.1)
      (fun _ _ => trivial) _ (Node.default_faithful .stored .artifact)
  refine Node.Each.set start Artifact.location fun held inside => ?_
  obtain rfl := Option.some.inj inside
  exact bounded

namespace Run

variable {run : Run}

/-- A run with one more artifact has no sentinel below `-1` if run and artifact have none. -/
theorem sentinelsBounded_withArtifact (bounded : run.SentinelsBounded) {artifact : Artifact}
    (held : artifact.SentinelsBounded) : (run.withArtifact artifact).SentinelsBounded := by
  have table : ∀ slot ∈ run.table, ∀ known ∈ slot, known.SentinelsBounded := by
    have whole := Node.Each.get bounded artifacts
    rw [Run.table]
    cases present : run.get artifacts with
    | none => exact List.forall_mem_nil _
    | some slots => exact whole slots present
  refine Node.Each.set bounded artifacts fun slots inside slot among known full => ?_
  obtain rfl := Option.some.inj inside
  rcases List.mem_append.mp among with earlier | last
  · exact table slot earlier known full
  · obtain rfl := List.mem_singleton.mp last
    obtain rfl := Option.some.inj full
    exact held

/-- Looking up an artifact lets no sentinel below `-1` into the run or the location. -/
theorem sentinelsBounded_artifactIndex (bounded : run.SentinelsBounded)
    {location : ArtifactLocation}
    (known : location.SentinelsBounded) (add : Bool) :
    (run.artifactIndex location add).run.SentinelsBounded ∧
      (run.artifactIndex location add).location.SentinelsBounded := by
  have indexed := ArtifactLocation.sentinelsBounded_withIndex known
  unfold artifactIndex
  split
  · next i _ => exact ⟨bounded, indexed i⟩
  · split
    · have added := Artifact.sentinelsBounded_ofLocation (indexed run.table.length)
      exact ⟨sentinelsBounded_withArtifact bounded added, indexed run.table.length⟩
    · exact ⟨bounded, known⟩

end Run

/-! ## Nodes that a program can come by -/

namespace Node

/-- A node that a program can come by. -/
inductive Obtained : {k : Kind} → Node k → Prop where
  /-- It is loaded from a text. -/
  | loaded {k : Kind} {text : String} {n : Node k} (success : Node.load k text = .ok n) : Obtained n
  /-- It is what a property is read as, or part of it. -/
  | property {k : Kind} {bag : PropertyBag} {name : String} {t : FieldType} {v : FieldValue t}
      {n : Node k} (success : bag.read t name = .ok (some v)) (held : ⟨k, n⟩ ∈ v.children) :
      Obtained n
  /-- It is the default node of a kind. -/
  | default (k : Kind) : Obtained (Node.default k)
  /-- It stands below one that the program has. -/
  | part {k : Kind} {n : Node k} {path : List Nat} {y : AnyNode} (whole : Obtained n)
      (leads : descendant? path ⟨k, n⟩ = some y) : Obtained y.2
  /-- It is one that the program has, with another put below it. -/
  | replaced {k : Kind} {n : Node k} {y : AnyNode} (whole : Obtained n) (other : Obtained y.2)
      (path : List Nat) : Obtained (n.replaceAt path y)
  /-- A sentinel was assigned to a field. -/
  | assigned {k : Kind} {name : String} {n : Node k} {s : Sentinel} (before : Obtained n)
      (field : FieldOf k name (.required .sentinel)) (made : s.Made) : Obtained (n.set field s)
  /-- Something that holds neither nodes nor sentinels was assigned to a field. -/
  | filled {k : Kind} {f : Field} {n : Node k} (before : Obtained n) (place : Place k.fields f)
      (plain : f.type.Plain) (c : f.type.Content) : Obtained (n.set place c)
  /-- It is the run after an artifact was looked up in it. -/
  | searched {run : Run} {location : ArtifactLocation} (host : Obtained run)
      (known : Obtained location) (add : Bool) : Obtained (run.artifactIndex location add).run
  /-- It is the location after its artifact was looked up. -/
  | located {run : Run} {location : ArtifactLocation} (host : Obtained run)
      (known : Obtained location) (add : Bool) : Obtained (run.artifactIndex location add).location


/-- What a property is read as is well-formed. -/
theorem each_of_read {bag : PropertyBag} {name : String} {t : FieldType} {v : FieldValue t}
    (success : bag.read t name = .ok (some v)) : v.Each Scalar.Regular List.Nodup := by
  unfold PropertyBag.read at success
  split at success
  · cases success
  · next value _ =>
    split at success
    · next read =>
      obtain rfl := Option.some.inj (Except.ok.inj success)
      exact (FieldValue.fits_of_readWith
        (fun t v => Value.fits_of_read value.document _ t v) read).1
    · cases success

/-- No node that a program can come by has a sentinel below `-1`. -/
theorem Obtained.sentinelsBounded {k : Kind} {n : Node k} (obtained : Obtained n) :
    n.SentinelsBounded := by
  induction obtained with
  | loaded success => exact (wellFormed_of_load success).sentinelsBounded
  | property success held =>
      have each := (each_of_read success).child _ held
      exact Each.imp (fun s x regular => s.sentinelBounded_of_wellFormed x regular.1)
        (fun _ _ => trivial) _ each
  | default k =>
      exact Each.imp (fun s x faithful => s.sentinelBounded_of_wellFormed x faithful.1)
        (fun _ _ => trivial) _ (Node.default_faithful .stored k)
  | part _ leads inductionHypothesis =>
      exact Each.descendant (x := ⟨_, _⟩) inductionHypothesis leads
  | replaced _ _ path whole other => exact Each.replaceAt whole path other
  | assigned _ field made inductionHypothesis =>
      exact Each.set inductionHypothesis field made.wellFormed
  | filled _ place plain c inductionHypothesis =>
      exact Each.set inductionHypothesis place (plain.each c)
  | searched _ _ add host known => exact (Run.sentinelsBounded_artifactIndex host known add).1
  | located _ _ add host known => exact (Run.sentinelsBounded_artifactIndex host known add).2

end Node

/-! ## Writing sentinels -/

/-- A document mentions a name if it is an object with a member of that name. -/
def Document.Mentions (name : String) : Document → Prop
  | .object members _ => .ok name ∈ names members
  | _ => False

/-- A record is written with a member for a field exactly if what the field holds is written. -/
theorem Record.mem_names_members_iff : {fs : List Field} → {f : Field} → (r : Record fs) →
    (place : Place fs f) → (fs.map Field.name).Nodup →
    (.ok f.name ∈ Document.names r.members ↔ (r.get place).document? ≠ none)
  | f :: _, _, .cons v rest, .here, distinct => by
      have fresh : .ok f.name ∉ Document.names rest.members := by
        intro held
        obtain ⟨name, inside, same⟩ := List.mem_map.mp (rest.names_members_sublist.subset held)
        exact (List.nodup_cons.mp distinct).1 (Except.ok.inj same ▸ inside)
      rw [members, Record.get]
      cases v.document? with
      | none => simpa using fresh
      | some d => simp [Document.names, Literal.read_ofString]
  | g :: _, f, .cons v rest, .later place, distinct => by
      obtain ⟨fresh, others⟩ := List.nodup_cons.mp distinct
      have later := rest.mem_names_members_iff place others
      have other : f.name ≠ g.name := fun same => fresh (same ▸ List.mem_map_of_mem place.mem)
      rw [members, Record.get]
      cases v.document? with
      | none => exact later
      | some d =>
          rw [← later]
          simp [Document.names, Literal.read_ofString, other]

namespace Node

variable {k : Kind} {name : String}

/-- A sentinel field is written exactly if its sentinel is set. -/
theorem mentions_iff (n : Node k) (field : FieldOf k name (.required .sentinel)) :
    n.document.Mentions name ↔ Sentinel.isUnset (n.get field) = false := by
  obtain ⟨fields⟩ := n
  have written := fields.mem_names_members_iff field k.fields_distinct
  refine written.trans ?_
  match held : fields.get field with
  | .required (.flat x) =>
      have content : (Node.mk fields).get field = x := congrArg FieldValue.content held
      rw [content, FieldValue.document?]
      change (if Sentinel.isUnset x = true then none else some _) ≠ none ↔
        Sentinel.isUnset x = false
      cases Sentinel.isUnset x <;> simp

/-- What can be relied on in a sentinel field of a node. -/
structure SentinelKept (n : Node k) (field : FieldOf k name (.required .sentinel)) : Prop where
  /-- It is not below `-1`. -/
  bounded : -1 ≤ Sentinel.raw (n.get field)
  /-- It holds no number exactly if it is unset. -/
  value : Sentinel.value? (n.get field) = none ↔ Sentinel.isUnset (n.get field) = true
  /-- It is left out of what is written exactly if it is unset. -/
  omitted : ¬ n.document.Mentions name ↔ Sentinel.isUnset (n.get field) = true

/-- The sentinel fields of a node without a sentinel below `-1` can be relied on. -/
theorem SentinelsBounded.kept {n : Node k} (bounded : n.SentinelsBounded)
    (field : FieldOf k name (.required .sentinel)) : n.SentinelKept field := by
  have wellFormed : Sentinel.WellFormed (n.get field) := Each.get bounded field
  refine ⟨wellFormed, Sentinel.value?_eq_none_iff wellFormed, ?_⟩
  rw [mentions_iff, Bool.not_eq_false]

end Node

/-! ## Refusing what is below `-1` -/

/-- A numeral for an integer below `-1`, however large. -/
def Numeral.BelowUnset (n : Numeral) : Prop :=
  n.integral = true ∧ n.negative = true ∧ 1 < n.whole

/-- The integer that a negative numeral is read as is the negative of its whole part. -/
theorem Numeral.eq_of_read_integer {source : Source} {n : Numeral} (negative : n.negative = true)
    {i : Int} (read : n.read source = .ok (.integer i)) : i = -n.whole := by
  have found := numberOr_of_read read
  unfold numberOr at found
  split at found
  · next j integer =>
      cases found
      split at integer
      · rw [integer?, if_pos negative] at integer
        split at integer
        · exact (Option.some.inj integer).symm
        · cases integer
      · cases integer
  · obtain ⟨_, _, other⟩ := Option.map_eq_some_iff.mp found
    cases other

/-- A word of 64 bits is read from a numeral for the integer that it stands for. -/
theorem Width.integer_of_read {source : Source} {n : Numeral} {raw : Int64}
    (success : Width.read .signed64 source (.numeral n) = .ok raw) :
    n.read source = .ok (.integer raw.toInt) := by
  obtain ⟨number, read, checked⟩ := Problem.bind_eq_ok success
  cases number with
  | float x => cases checked
  | integer i =>
      cases fits : Width.signed64.holds i with
      | false =>
          simp only [fits] at checked
          cases checked
      | true =>
          simp only [fits, if_true] at checked
          have word : Int64.ofInt i = raw := Except.ok.inj checked
          obtain ⟨low, high⟩ := of_decide_eq_true fits
          rw [read, ← word, Int64.toInt_ofInt_of_le low (Int.lt_of_le_sub_one high)]

/-- An integer below `-1` is not read as a sentinel. -/
theorem Sentinel.read_numeral_ne_ok {source : Source} {n : Numeral} (below : n.BelowUnset)
    (s : Sentinel) : Sentinel.read source (.numeral n) ≠ .ok s := by
  intro success
  have bound : -1 ≤ s.raw.toInt := Int64.le_iff_toInt_le.mp (wellFormed_of_read success)
  obtain ⟨raw, word, checked⟩ := Problem.bind_eq_ok success
  have value := Numeral.eq_of_read_integer below.2.1 (Width.integer_of_read word)
  have held : s.raw = raw := by
    cases made : ofRaw? raw with
    | none =>
        rw [made] at checked
        cases checked
    | some t =>
        rw [made] at checked
        obtain rfl := Except.ok.inj checked
        rw [(ofRaw?_eq_some_iff.mp made).1]
  have size := below.2.2
  rw [held, value] at bound
  omega

/-- A sentinel is not read from an integer below `-1`. -/
theorem Value.read_sentinel_ne_ok {n : Numeral} (below : n.BelowUnset) (source : Source)
    (v : Value .sentinel) : Value.read source .sentinel (.numeral n) ≠ .ok v := by
  intro success
  rw [Value.read] at success
  obtain ⟨s, read, _⟩ := Problem.map_eq_ok success
  exact Sentinel.read_numeral_ne_ok below s read

namespace Node

open Document (Context)

/-- Every sentinel field at any depth of a node that a program can come by is at `-1` or above: it
holds no number exactly if it is unset, and is left out of what is written exactly then. A text or
a stored value with an integer below `-1` where a sentinel is read, at any depth, is not read as a
node of any kind. -/
theorem sentinels_not_below_unset (k : Kind) :
    (∀ n : Node k, Obtained n → ∀ path x, descendant? path ⟨k, n⟩ = some x →
      ∀ name (field : FieldOf x.1 name (.required .sentinel)), x.2.SentinelKept field) ∧
    ∀ fill, Context (.node k) .sentinel fill → ∀ integer : Numeral, integer.BelowUnset →
      (∀ text trailing, Document.ofText text.toList = (fill (.numeral integer), trailing) →
        ∀ n, Node.load k text ≠ .ok n) ∧
      ∀ value : Json, value.document = fill (.numeral integer) →
        ∀ v, FieldType.ofJson (.required (.node k)) value ≠ .ok v := by
  constructor
  · intro n obtained path x leads name field
    have below := Each.descendant (x := ⟨k, n⟩) obtained.sentinelsBounded leads
    exact SentinelsBounded.kept below field
  · intro fill context integer below
    have refused := context.read_ne_ok (d := .numeral integer) trivial
      (Value.read_sentinel_ne_ok below)
    refine ⟨fun text trailing parsed n loaded => ?_, fun value stored v read => ?_⟩
    · exact refused .start _ (of_load parsed loaded).2
    · rw [FieldType.ofJson, stored] at read
      obtain ⟨w, found, _⟩ := Problem.map_eq_ok read
      exact refused .stored w found

/-- A location with a URI. -/
def sourceLocation : ArtifactLocation :=
  ArtifactLocation.ofUri "a.c"

/-- A run into which the artifact of the location was taken, with another index in the location that
the table keeps. -/
def renumberedRun : Run :=
  (Run.artifactIndex (Node.default .run) sourceLocation true).run.replaceAt [1, 0]
    ⟨.artifactLocation, sourceLocation.set ArtifactLocation.index (.ofNat 7)⟩

/-- A run with one artifact, whose location is in positional form and has `d` in the place of its
index. -/
def runWithIndex (d : Document) : Document :=
  .object [(.ofString "artifacts", .array [.object [(.ofString "location",
    .array [.null, .null, d] none)] .closed] none)] .closed

/-- The index in the artifact table can be relied on after a look-up and an assignment. The run is
not loaded with `-2` in its place. -/
theorem sentinels_not_below_unset_renumberedRun :
    Obtained renumberedRun ∧
      (∃ m, descendant? [1, 0] ⟨.run, renumberedRun⟩ = some ⟨.artifactLocation, m⟩ ∧
        m.get ArtifactLocation.index = .ofNat 7 ∧ m.SentinelKept ArtifactLocation.index) ∧
      ∀ n, Node.load .run (runWithIndex (.numeral ⟨true, 2, [], none⟩)).render ≠ .ok n := by
  have source : Obtained sourceLocation :=
    .filled (.default .artifactLocation) ArtifactLocation.uri (.optional (by decide)) (some "a.c")
  have obtained : Obtained renumberedRun :=
    .replaced (y := ⟨.artifactLocation, _⟩) (.searched (.default .run) source true)
      (.assigned source ArtifactLocation.index (.ofNat 7)) [1, 0]
  have context : Context (.node .run) .sentinel runWithIndex :=
    .member (f := ⟨"artifacts", .optional (.nodes .artifact)⟩) [] [] .closed (by decide)
      (Literal.read_ofString _) <|
    .slot [] [] none <|
    .member (f := ⟨"location", .optional (.node .artifactLocation)⟩) [] [] .closed (by decide)
      (Literal.read_ofString _) <|
    .item (f := ⟨"index", .required .sentinel⟩) [.null, .null] [] none rfl .here
  have parsed : Document.ofText (runWithIndex (.numeral ⟨true, 2, [], none⟩)).render.toList =
      (runWithIndex (.numeral ⟨true, 2, [], none⟩), false) := by
    refine Document.ofText_render ⟨rfl, Literal.ofString_sound _, ⟨rfl, ⟨rfl,
      Literal.ofString_sound _, ⟨rfl, trivial, trivial, ?_, trivial⟩, trivial⟩, trivial⟩, trivial⟩
    exact List.forall_mem_nil _
  obtain ⟨kept, refused⟩ := sentinels_not_below_unset .run
  refine ⟨obtained, ⟨_, rfl, rfl, ?_⟩, ?_⟩
  · exact kept _ obtained [1, 0] _ rfl _ ArtifactLocation.index
  · exact (refused _ context ⟨true, 2, [], none⟩ ⟨rfl, rfl, by decide⟩).1 _ _ parsed

end Node
end Sarif
