import Mathlib.Data.List.Nodup
import Sarif.ArtifactTable
import Sarif.Build
import Sarif.Proofs.Node.Frame
import Sarif.Proofs.Sentinel

/-!
# Look-ups in the artifact table

An artifact is known by its key, the URI and the base name of its location. A look-up takes the
index that the location has if the slot there holds the key, else the first slot that does, else it
adds one (`Run.artifactIndex_spec`).
-/

namespace Sarif

/-! ## Keys -/

/-- What tells artifacts apart: a URI and the name of the base that it is relative to. -/
abbrev ArtifactKey := Option String × Option String

/-- The key of the artifact that a location refers to. -/
def ArtifactLocation.key (location : ArtifactLocation) : ArtifactKey :=
  (location.get uri, location.get uriBaseId)

/-- The key of an artifact, if it has a location. -/
def Artifact.key? (artifact : Artifact) : Option ArtifactKey :=
  (artifact.get location).map ArtifactLocation.key

/-- A slot of a table holds an artifact of a key. -/
def HoldsAt (table : NodeList Artifact) (key : ArtifactKey) (i : Nat) : Prop :=
  ∃ artifact, NodeList.at? table i = some artifact ∧ artifact.key? = some key

/-- An index does not change the key of a location. -/
@[simp] theorem ArtifactLocation.key_withIndex (location : ArtifactLocation) (i : Nat) :
    (location.withIndex i).key = location.key := by
  have otherUri : (location.withIndex i).get uri = location.get uri :=
    Node.get_set_of_ne location index _ uri (by decide)
  have otherBase : (location.withIndex i).get uriBaseId = location.get uriBaseId :=
    Node.get_set_of_ne location index _ uriBaseId (by decide)
  rw [key, key, otherUri, otherBase]

/-- Locations are of the same artifact exactly if their keys are equal. -/
theorem ArtifactLocation.sameArtifact_iff {location other : ArtifactLocation} :
    sameArtifact location other = true ↔ location.key = other.key := by
  simp [sameArtifact, key]

/-- An artifact is the one of a location exactly if it has its key. -/
theorem Artifact.isAt_iff {artifact : Artifact} {location : ArtifactLocation} :
    artifact.isAt location = true ↔ artifact.key? = some location.key := by
  rw [isAt, key?]
  cases artifact.get Artifact.location with
  | none => simp
  | some known => simp [ArtifactLocation.sameArtifact_iff]

section Slots

variable {table : NodeList Artifact} {location : ArtifactLocation} {key : ArtifactKey} {i : Nat}

/-- The slots that hold a key can be told from the keys of the slots. -/
theorem holdsAt_iff_keys :
    HoldsAt table key i ↔ (table.map (·.bind Artifact.key?))[i]? = some (some key) := by
  rw [HoldsAt, NodeList.at?, List.getElem?_map]
  cases table[i]? with
  | none => simp
  | some slot => cases slot <;> simp

/-- A slot holds the key of a location exactly if what it holds is the artifact of the location. -/
theorem holdsAt_iff_isAt :
    HoldsAt table location.key i ↔
      (NodeList.at? table i).any (Artifact.isAt · location) = true := by
  simp only [HoldsAt, Option.any_eq_true, Artifact.isAt_iff]

/-- The slots that hold the key of a location are those that a search for it accepts. -/
theorem holdsAt_iff_getElem :
    HoldsAt table location.key i ↔
      ∃ inside : i < table.length, table[i].any (Artifact.isAt · location) = true := by
  rw [holdsAt_iff_isAt, NodeList.at?]
  by_cases inside : i < table.length
  · simp [inside]
  · simp [inside]

/-- A slot that holds a key is there. -/
theorem HoldsAt.lt_length (here : HoldsAt table key i) : i < table.length := by
  obtain ⟨artifact, stands, _⟩ := here
  exact (List.getElem?_eq_some_iff.mp (Option.join_eq_some_iff.mp stands)).1

end Slots

/-! ## Searching -/

namespace ArtifactLocation

variable {table : NodeList Artifact} {location : ArtifactLocation} {i : Nat}

/-- The index of a location is trusted exactly if its slot holds the key. -/
theorem trustedIndex?_eq_some_iff :
    location.trustedIndex? table = some i ↔
      Sentinel.value? (location.get index) = some i ∧ HoldsAt table location.key i := by
  rw [trustedIndex?, Option.filter_eq_some_iff, holdsAt_iff_isAt]

/-- No index is trusted exactly if the slot that the location has the index of does not hold the
key. -/
theorem trustedIndex?_eq_none_iff :
    location.trustedIndex? table = none ↔
      ∀ j, Sentinel.value? (location.get index) = some j → ¬ HoldsAt table location.key j := by
  simp only [trustedIndex?, Option.filter_eq_none_iff, holdsAt_iff_isAt]

/-- A search finds the first slot that holds the key. -/
theorem position?_eq_some_iff :
    NodeList.position? table (Artifact.isAt · location) = some i ↔
      HoldsAt table location.key i ∧ ∀ j < i, ¬ HoldsAt table location.key j := by
  simp only [NodeList.position?, List.findIdx?_eq_some_iff_getElem, holdsAt_iff_getElem]
  constructor
  · rintro ⟨inside, here, before⟩
    exact ⟨⟨inside, here⟩, fun j less ⟨_, there⟩ => before j less there⟩
  · rintro ⟨⟨inside, here⟩, before⟩
    exact ⟨inside, here, fun j less there => before j less ⟨Nat.lt_trans less inside, there⟩⟩

/-- A search finds nothing exactly if no slot holds the key. -/
theorem position?_eq_none_iff :
    NodeList.position? table (Artifact.isAt · location) = none ↔
      ∀ j, ¬ HoldsAt table location.key j := by
  simp only [NodeList.position?, List.findIdx?_eq_none_iff, holdsAt_iff_getElem]
  constructor
  · rintro nowhere j ⟨inside, here⟩
    rw [nowhere _ (List.getElem_mem inside)] at here
    cases here
  · intro nowhere slot among
    obtain ⟨j, inside, rfl⟩ := List.getElem_of_mem among
    exact Bool.eq_false_iff.mpr fun here => nowhere j ⟨inside, here⟩

/-- A slot is found if it is the one of a trusted index, or if no index is trusted and it is the
first that holds the key. -/
theorem indexIn?_eq_some_iff :
    location.indexIn? table = some i ↔
      (Sentinel.value? (location.get index) = some i ∧ HoldsAt table location.key i) ∨
        (∀ j, Sentinel.value? (location.get index) = some j → ¬ HoldsAt table location.key j) ∧
          HoldsAt table location.key i ∧ ∀ j < i, ¬ HoldsAt table location.key j := by
  rw [indexIn?, Option.or_eq_some_iff, trustedIndex?_eq_some_iff, trustedIndex?_eq_none_iff,
    position?_eq_some_iff]

/-- No slot is found exactly if none holds the key. -/
theorem indexIn?_eq_none_iff :
    location.indexIn? table = none ↔ ∀ j, ¬ HoldsAt table location.key j := by
  rw [indexIn?, Option.or_eq_none_iff, trustedIndex?_eq_none_iff, position?_eq_none_iff]
  exact ⟨fun nowhere => nowhere.2, fun nowhere => ⟨fun j _ => nowhere j, nowhere⟩⟩

/-- A location with an index is found again at this index if its slot holds the key; of slots whose
index no sentinel holds, if it is the first. -/
theorem indexIn?_withIndex (here : HoldsAt table location.key i)
    (first : (Sentinel.ofNat i).value? = some i ∨ ∀ j < i, ¬ HoldsAt table location.key j) :
    (location.withIndex i).indexIn? table = some i := by
  have index : Sentinel.value? ((location.withIndex i).get index) = (Sentinel.ofNat i).value? :=
    congrArg Sentinel.value? (Node.get_set location ArtifactLocation.index _)
  rw [indexIn?_eq_some_iff, key_withIndex, index]
  by_cases holds : (Sentinel.ofNat i).value? = some i
  · exact .inl ⟨holds, here⟩
  · have before := first.resolve_left holds
    refine .inr ⟨fun j value => before j ?_, here, before⟩
    have least := (Sentinel.value?_ofNat i).symm.trans value
    have other : j ≠ i := by
      rintro rfl
      exact holds value
    have bound := Option.some.inj least
    omega

end ArtifactLocation

/-! ## One look-up -/

namespace Run

variable {run : Run} {location : ArtifactLocation} {add : Bool} {i : Nat}

/-- The slots of the artifact table, none if there is no table. -/
def table (run : Run) : NodeList Artifact :=
  (run.get artifacts).getD []

/-- The run with one more artifact behind those of its table. -/
def withArtifact (run : Run) (artifact : Artifact) : Run :=
  run.set artifacts (some (NodeList.push run.table (some artifact)))

/-- How a look-up comes to a slot, and what it leaves as the run. -/
inductive Located (run : Run) (location : ArtifactLocation) (add : Bool) (i : Nat) :
    Run → Prop where
  /-- The location has the index of a slot that holds its key. -/
  | trusted (index : Sentinel.value? (location.get ArtifactLocation.index) = some i)
      (here : HoldsAt run.table location.key i) : Located run location add i run
  /-- The location has no such index, and the slot is the first that holds its key. -/
  | found
      (stale : ∀ j, Sentinel.value? (location.get ArtifactLocation.index) = some j →
        ¬ HoldsAt run.table location.key j)
      (here : HoldsAt run.table location.key i)
      (first : ∀ j < i, ¬ HoldsAt run.table location.key j) : Located run location add i run
  /-- No slot holds the key, and an artifact is added behind all slots. -/
  | added {artifact : Artifact} (allowed : add = true)
      (missing : ∀ j, ¬ HoldsAt run.table location.key j) (last : i = run.table.length)
      (placed : artifact.get Artifact.location = some (location.withIndex i)) :
      Located run location add i (run.withArtifact artifact)

@[simp] theorem table_withArtifact (run : Run) (artifact : Artifact) :
    (run.withArtifact artifact).table = NodeList.push run.table (some artifact) := by
  rw [withArtifact, table, Node.get_set]
  rfl

/-- Without a table nothing is found in it. -/
theorem bind_indexIn? (run : Run) (location : ArtifactLocation) :
    (run.get artifacts).bind location.indexIn? = location.indexIn? run.table := by
  rw [table]
  cases run.get artifacts with
  | none =>
      refine (ArtifactLocation.indexIn?_eq_none_iff.mpr fun j here => ?_).symm
      exact absurd here.lt_length (Nat.not_lt_zero j)
  | some slots => rfl

/-- A look-up comes to a slot, or leaves everything as it is because no slot holds the key and none
may be added. -/
theorem artifactIndex_cases (run : Run) (location : ArtifactLocation) (add : Bool) :
    (∃ i after, Located run location add i after ∧
        run.artifactIndex location add = ⟨after, location.withIndex i, Sentinel.ofNat i⟩) ∨
      (add = false ∧ (∀ j, ¬ HoldsAt run.table location.key j) ∧
        run.artifactIndex location add = ⟨run, location, Sentinel.unset⟩) := by
  rw [artifactIndex, bind_indexIn?]
  cases found : location.indexIn? run.table with
  | some i =>
      refine .inl ⟨i, run, ?_, rfl⟩
      rcases ArtifactLocation.indexIn?_eq_some_iff.mp found with
        ⟨index, here⟩ | ⟨stale, here, first⟩
      · exact .trusted index here
      · exact .found stale here first
  | none =>
      have missing := ArtifactLocation.indexIn?_eq_none_iff.mp found
      cases add with
      | true => exact .inl ⟨run.table.length, _, .added rfl missing rfl (Node.get_set ..), rfl⟩
      | false => exact .inr ⟨rfl, missing, rfl⟩

/-- A slot of a longer table holds what it held, and the new slot what was added. -/
theorem holdsAt_push {slots : NodeList Artifact} {artifact : Artifact} {key : ArtifactKey} :
    HoldsAt (NodeList.push slots (some artifact)) key i ↔
      HoldsAt slots key i ∨ (i = slots.length ∧ artifact.key? = some key) := by
  simp only [holdsAt_iff_keys, NodeList.push, List.map_append, List.getElem?_append,
    List.length_map]
  rcases Nat.lt_trichotomy i slots.length with less | rfl | more
  · simp [less, Nat.ne_of_lt less]
  · simp
  · have behind : ¬ i < slots.length := Nat.lt_asymm more
    have beyond : ¬ i - slots.length = 0 := by omega
    simp [behind, beyond, Nat.ne_of_gt more]

/-- The slot that a look-up comes to holds the key of the location afterwards. -/
theorem Located.holdsAt {after : Run} (located : Located run location add i after) :
    HoldsAt after.table location.key i := by
  cases located with
  | trusted _ here => exact here
  | found _ here _ => exact here
  | added _ _ last placed =>
      rw [table_withArtifact, holdsAt_push]
      refine .inr ⟨last, ?_⟩
      rw [Artifact.key?, placed, Option.map_some, ArtifactLocation.key_withIndex]

/-- The slot that a look-up comes to is the one that the new index leads to, or the first that holds
the key. -/
theorem Located.first {after : Run} (located : Located run location add i after) :
    (Sentinel.ofNat i).value? = some i ∨ ∀ j < i, ¬ HoldsAt after.table location.key j := by
  cases located with
  | trusted index _ => exact .inl (Sentinel.value?_ofNat_of_lt (Sentinel.lt_of_value? index))
  | found _ _ first => exact .inr first
  | added _ missing last _ =>
      refine .inr fun j less here => ?_
      rw [table_withArtifact, holdsAt_push] at here
      rcases here with before | ⟨here, _⟩
      · exact missing j before
      · omega

/-- The answer of a look-up that comes to a slot is its answer to the same question from then on,
whether or not an artifact may be added. -/
theorem Located.again {after : Run} (located : Located run location add i after) (again : Bool) :
    after.artifactIndex (location.withIndex i) again =
      ⟨after, location.withIndex i, Sentinel.ofNat i⟩ := by
  have found := ArtifactLocation.indexIn?_withIndex located.holdsAt located.first
  rw [artifactIndex, bind_indexIn?, found]
  exact congrArg (ArtifactLookup.mk after · _) (Node.set_set ..)

/-- A look-up whose answer is unset was not to add an artifact, found no slot that holds the key,
and leaves run and location as they were. Any other look-up answers with the index of a slot that
holds the key, and the location has this index and is otherwise as it was. The slot is the one of
the old index if it holds the key, else the first that does, else a new one behind all others with
an artifact at the location as it is now; apart from that the run is as it was. Looking up the
location that comes out gives the same answer and changes nothing. -/
theorem artifactIndex_spec (run : Run) (location : ArtifactLocation) (add : Bool) :
    ((run.artifactIndex location add).index = Sentinel.unset →
      add = false ∧ (∀ j, ¬ HoldsAt run.table location.key j) ∧
        (run.artifactIndex location add).run = run ∧
        (run.artifactIndex location add).location = location) ∧
    ((run.artifactIndex location add).index ≠ Sentinel.unset →
      ∃ i, (run.artifactIndex location add).index.StandsFor i ∧
        (run.artifactIndex location add).location =
          location.set ArtifactLocation.index (run.artifactIndex location add).index ∧
        HoldsAt (run.artifactIndex location add).run.table location.key i ∧
        Located run location add i (run.artifactIndex location add).run ∧
        ∀ again, (run.artifactIndex location add).run.artifactIndex
            (run.artifactIndex location add).location again =
          run.artifactIndex location add) := by
  rcases run.artifactIndex_cases location add with
    ⟨i, after, located, eq⟩ | ⟨refused, missing, eq⟩
  · rw [eq]
    refine ⟨fun unset => absurd unset (Sentinel.ofNat_ne_unset i), fun _ => ?_⟩
    exact ⟨i, Sentinel.standsFor_ofNat i, rfl, located.holdsAt, located, located.again⟩
  · rw [eq]
    exact ⟨fun _ => ⟨refused, missing, rfl, rfl⟩, fun set => absurd rfl set⟩

/-- A run whose table has an empty slot, an artifact without a location, and one that is relative to
a base. -/
def sparseRun : Run :=
  (Node.default .run).set artifacts
    (some [some (Artifact.ofLocation (ArtifactLocation.ofUri "a.c")), none,
      some (Node.default .artifact),
      some (Artifact.ofLocation (ArtifactLocation.ofUriAndBase "b.c" "SRCROOT"))])

/-- The location of the last artifact of the table, with the index of the empty slot. -/
def staleLocation : ArtifactLocation :=
  (ArtifactLocation.ofUriAndBase "b.c" "SRCROOT").withIndex 1

/-- The last artifact is found in spite of the old index, and again with the new one; without its
base the location refers to no artifact. -/
theorem artifactIndex_spec_sparseRun :
    (∃ i, Located sparseRun staleLocation true i sparseRun ∧
        (sparseRun.artifactIndex staleLocation true).index.StandsFor i ∧
        ∀ again, sparseRun.artifactIndex (staleLocation.withIndex 3) again =
          sparseRun.artifactIndex staleLocation true) ∧
      (sparseRun.artifactIndex (ArtifactLocation.ofUri "b.c") false).index = Sentinel.unset ∧
      ∀ j, ¬ HoldsAt sparseRun.table (ArtifactLocation.ofUri "b.c").key j := by
  have present : sparseRun.artifactIndex staleLocation true =
      ⟨sparseRun, staleLocation.withIndex 3, Sentinel.ofNat 3⟩ := by
    rfl
  have absent : (sparseRun.artifactIndex (ArtifactLocation.ofUri "b.c") false).index =
      Sentinel.unset := by
    rfl
  obtain ⟨_, found⟩ := artifactIndex_spec sparseRun staleLocation true
  obtain ⟨missed, _⟩ := artifactIndex_spec sparseRun (ArtifactLocation.ofUri "b.c") false
  rw [present] at found ⊢
  obtain ⟨i, stands, _, _, located, again⟩ := found (Sentinel.ofNat_ne_unset 3)
  exact ⟨⟨i, located, stands, again⟩, absent, (missed absent).2.1⟩

end Run
end Sarif
