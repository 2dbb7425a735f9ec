import Sarif.Proofs.Artifacts.Lookup
import Sarif.Proofs.Dict

/-!
# Sequences of look-ups

A run that starts without artifacts and is only ever asked for artifacts keeps a table of the keys
that were to be added, each once, in the order in which they first were. One look-up keeps this up
(`Run.Tabulates.artifactIndex`), so every sequence does, and an index once given to a key stays
(`Run.artifactIndex_sequence`).
-/

namespace Sarif

/-! ## A table of keys -/

/-- In a list of distinct items an item has the index at which it stands. -/
theorem idxOf?_eq_some_iff_of_nodup {α : Type} [BEq α] [LawfulBEq α] {xs : List α}
    (distinct : xs.Nodup) {x : α} {i : Nat} :
    xs.idxOf? x = some i ↔ xs[i]? = some x := by
  rw [List.idxOf?_eq_some_iff, List.getElem?_eq_some_iff]
  constructor
  · rintro ⟨inside, here, _⟩
    exact ⟨inside, here⟩
  · rintro ⟨inside, here⟩
    refine ⟨inside, here, fun j less there => ?_⟩
    exact Nat.ne_of_lt less ((distinct.getElem_inj_iff).mp (there.trans here.symm))

/-- One request to look up an artifact. -/
structure ArtifactRequest where
  location : ArtifactLocation
  add : Bool

/-- The keys of the requests that are to add artifacts, each once, in the order in which they first
come. -/
def addedKeys (requests : List ArtifactRequest) : List ArtifactKey :=
  ((requests.filter ArtifactRequest.add).map fun request => request.location.key).eraseDups

/-- What is looked up on a request. -/
def Run.answer (run : Run) (request : ArtifactRequest) : ArtifactLookup :=
  run.artifactIndex request.location request.add

/-- The run after a sequence of requests. -/
def Run.afterRequests (run : Run) (requests : List ArtifactRequest) : Run :=
  requests.foldl (fun run request => (run.answer request).run) run

/-- The table of a run is that of a list of keys: every slot holds an artifact, whose key is the one
at its index, and which has this index in its location; and no key comes twice. -/
structure Run.Tabulates (run : Run) (keys : List ArtifactKey) : Prop where
  slots : run.table.map (·.bind Artifact.key?) = keys.map some
  distinct : keys.Nodup
  indexed : ∀ i artifact, NodeList.at? run.table i = some artifact →
    ∃ location, artifact.get Artifact.location = some location ∧
      (location.get ArtifactLocation.index : Sentinel).StandsFor i

/-- The keys of a table with those of a request. -/
def keysWith (keys : List ArtifactKey) (request : ArtifactRequest) : List ArtifactKey :=
  if request.add = true ∧ request.location.key ∉ keys then keys ++ [request.location.key] else keys

/-- One more request adds its key if it is to add one and the key is new. -/
theorem addedKeys_concat (requests : List ArtifactRequest) (request : ArtifactRequest) :
    addedKeys (requests ++ [request]) = keysWith (addedKeys requests) request := by
  rw [addedKeys, List.filter_append, List.map_append]
  cases adds : request.add with
  | false => simp [keysWith, adds, addedKeys]
  | true =>
      have last : ([request].filter ArtifactRequest.add).map (·.location.key) =
          [request.location.key] := by
        simp [adds]
      rw [last, keysWith]
      by_cases before : request.location.key ∈ addedKeys requests
      · have known := eraseDups_concat_of_mem (List.mem_eraseDups.mp before)
        simp only [before, not_true_eq_false, and_false, if_false]
        exact known
      · have fresh := eraseDups_concat_of_notMem (mt List.mem_eraseDups.mpr before)
        simp only [adds, before, not_false_eq_true, and_true, if_true]
        exact fresh

/-- The key of a request is missing afterwards exactly if it was missing and was not to be added. -/
theorem notMem_keysWith_iff {keys : List ArtifactKey} {request : ArtifactRequest} :
    request.location.key ∉ keysWith keys request ↔
      request.location.key ∉ keys ∧ request.add = false := by
  rw [keysWith]
  split
  · next new => simp [new.1]
  · next old => cases adds : request.add <;> simp_all

/-- No key is added twice. -/
theorem nodup_addedKeys (requests : List ArtifactRequest) : (addedKeys requests).Nodup :=
  nodup_eraseDups _

/-- Keys that were added stay where they are. -/
theorem addedKeys_prefix (requests more : List ArtifactRequest) :
    addedKeys requests <+: addedKeys (requests ++ more) := by
  rw [addedKeys, addedKeys, List.filter_append, List.map_append, List.eraseDups_append]
  exact List.prefix_append ..

/-- A key that was added keeps its index when more are. -/
theorem idxOf?_addedKeys_append {requests : List ArtifactRequest} {key : ArtifactKey} {i : Nat}
    (found : (addedKeys requests).idxOf? key = some i) (more : List ArtifactRequest) :
    (addedKeys (requests ++ more)).idxOf? key = some i := by
  have stands := (idxOf?_eq_some_iff_of_nodup (nodup_addedKeys requests)).mp found
  obtain ⟨inside, _⟩ := List.getElem?_eq_some_iff.mp stands
  obtain ⟨added, eq⟩ := addedKeys_prefix requests more
  refine (idxOf?_eq_some_iff_of_nodup (nodup_addedKeys _)).mpr ?_
  rw [← eq, List.getElem?_append_left inside, stands]

namespace Run

variable {run : Run} {keys : List ArtifactKey} {requests : List ArtifactRequest}

/-! ## One request -/

/-- A slot of a tabulated run holds the key at its index. -/
theorem Tabulates.holdsAt_iff (tabulates : run.Tabulates keys) {key : ArtifactKey} {i : Nat} :
    HoldsAt run.table key i ↔ keys[i]? = some key := by
  rw [holdsAt_iff_keys, tabulates.slots, List.getElem?_map]
  cases keys[i]? <;> simp

/-- No slot of a tabulated run holds a key exactly if it is not one of the keys. -/
theorem Tabulates.notMem_iff (tabulates : run.Tabulates keys) {key : ArtifactKey} :
    key ∉ keys ↔ ∀ i, ¬ HoldsAt run.table key i := by
  simp only [tabulates.holdsAt_iff, List.mem_iff_getElem?, not_exists]

/-- A tabulated run has a slot for every key. -/
theorem Tabulates.length_table (tabulates : run.Tabulates keys) :
    run.table.length = keys.length := by
  have lengths := congrArg List.length tabulates.slots
  rwa [List.length_map, List.length_map] at lengths

/-- Of a new key an artifact with its index is added. -/
theorem Tabulates.withArtifact (tabulates : run.Tabulates keys) {artifact : Artifact}
    {location : ArtifactLocation} (fresh : location.key ∉ keys)
    (placed : artifact.get Artifact.location = some location)
    (index : (location.get ArtifactLocation.index : Sentinel).StandsFor run.table.length) :
    (run.withArtifact artifact).Tabulates (keys ++ [location.key]) where
  slots := by
    have key : artifact.key? = some location.key := by rw [Artifact.key?, placed, Option.map_some]
    rw [table_withArtifact, NodeList.push, List.map_append, List.map_append, tabulates.slots]
    exact congrArg (keys.map some ++ [·]) key
  distinct := List.concat_eq_append ▸ tabulates.distinct.concat fresh
  indexed := by
    intro i other stands
    rw [table_withArtifact, NodeList.at?, NodeList.push, List.getElem?_append] at stands
    split at stands
    · exact tabulates.indexed i other stands
    · next behind =>
        cases last : i - run.table.length with
        | zero =>
            have here : i = run.table.length := by omega
            rw [last] at stands
            obtain rfl : artifact = other := Option.some.inj stands
            exact ⟨location, placed, here ▸ index⟩
        | succ more =>
            rw [last] at stands
            cases stands

/-- A request leaves a tabulated run tabulated, with the key of the request if it was to be added,
and answers with the index of the key in the table, unset if it is not there. -/
theorem tabulates_answer (tabulates : run.Tabulates keys) (request : ArtifactRequest) :
    (run.answer request).run.Tabulates (keysWith keys request) ∧
      (run.answer request).index =
        Sentinel.ofOption ((keysWith keys request).idxOf? request.location.key) := by
  rcases run.artifactIndex_cases request.location request.add with
    ⟨i, after, located, eq⟩ | ⟨refused, missing, eq⟩
  · -- However the slot was come to, a key that is held is not added once more.
    have known (here : HoldsAt run.table request.location.key i) :
        run.Tabulates (keysWith keys request) ∧
          Sentinel.ofNat i =
            Sentinel.ofOption ((keysWith keys request).idxOf? request.location.key) := by
      have stands := tabulates.holdsAt_iff.mp here
      have unchanged : keysWith keys request = keys :=
        if_neg fun new => new.2 (List.mem_of_getElem? stands)
      rw [unchanged, (idxOf?_eq_some_iff_of_nodup tabulates.distinct).mpr stands]
      exact ⟨tabulates, rfl⟩
    rw [answer, eq]
    cases located with
    | trusted _ here => exact known here
    | found _ here _ => exact known here
    | added allowed missing last placed =>
        have fresh := tabulates.notMem_iff.mpr missing
        have extended : keysWith keys request = keys ++ [request.location.key] :=
          if_pos ⟨allowed, fresh⟩
        have index : ((request.location.withIndex i).get ArtifactLocation.index :
            Sentinel).StandsFor run.table.length := by
          rw [ArtifactLocation.withIndex, Node.get_set, ← last]
          exact Sentinel.standsFor_ofNat i
        have after := tabulates.withArtifact (by rwa [ArtifactLocation.key_withIndex]) placed index
        rw [ArtifactLocation.key_withIndex, ← extended] at after
        refine ⟨after, ?_⟩
        have stands : (keysWith keys request)[i]? = some request.location.key := by
          rw [extended, last, tabulates.length_table, List.getElem?_concat_length]
        rw [(idxOf?_eq_some_iff_of_nodup after.distinct).mpr stands]
        rfl
  · have absent := tabulates.notMem_iff.mpr missing
    have unchanged : keysWith keys request = keys := if_neg fun new => by simp [refused] at new
    rw [answer, eq, unchanged, List.idxOf?_eq_none_iff.mpr absent]
    exact ⟨tabulates, rfl⟩

/-- A request that is not to add an artifact leaves the run as it is. -/
theorem run_answer_of_not_add (run : Run) {request : ArtifactRequest}
    (refused : request.add = false) :
    (run.answer request).run = run := by
  rw [answer]
  rcases run.artifactIndex_cases request.location request.add with
    ⟨i, after, located, eq⟩ | ⟨_, _, eq⟩
  · rw [eq]
    cases located with
    | trusted => rfl
    | found => rfl
    | added allowed => cases refused.symm.trans allowed
  · rw [eq]

/-! ## Sequences of requests -/

/-- The last of a sequence of requests comes after the others. -/
theorem afterRequests_concat (run : Run) (requests : List ArtifactRequest)
    (request : ArtifactRequest) :
    run.afterRequests (requests ++ [request]) =
      ((run.afterRequests requests).answer request).run := by
  rw [afterRequests, List.foldl_append]
  rfl

/-- Every sequence of requests leaves a run that had no artifacts tabulated. -/
theorem tabulates_afterRequests (empty : run.table = []) (requests : List ArtifactRequest) :
    (run.afterRequests requests).Tabulates (addedKeys requests) := by
  induction requests using List.reverseRecOn with
  | nil =>
      refine ⟨?_, List.nodup_nil, fun i artifact stands => ?_⟩
      · rw [afterRequests, List.foldl_nil, empty]
        rfl
      · rw [afterRequests, List.foldl_nil, empty] at stands
        cases stands
  | append_singleton requests request inductionHypothesis =>
      rw [afterRequests_concat, addedKeys_concat]
      exact (tabulates_answer inductionHypothesis request).1

/-- Requests that are not to add artifacts leave the run as it is. -/
theorem afterRequests_of_not_add (run : Run) (refused : ∀ request ∈ requests, request.add = false) :
    run.afterRequests requests = run := by
  induction requests using List.reverseRecOn with
  | nil => rfl
  | append_singleton requests request inductionHypothesis =>
      obtain ⟨before, last⟩ := List.forall_mem_append.mp refused
      rw [afterRequests_concat, inductionHypothesis before]
      exact run.run_answer_of_not_add (last request (List.mem_singleton_self request))

/-- After any sequence of requests a request is answered with the index of its key among the keys
added so far, its own included. -/
theorem index_answer (empty : run.table = []) (requests : List ArtifactRequest)
    (request : ArtifactRequest) :
    ((run.afterRequests requests).answer request).index =
      Sentinel.ofOption ((addedKeys (requests ++ [request])).idxOf? request.location.key) := by
  rw [addedKeys_concat]
  exact (tabulates_answer (tabulates_afterRequests empty requests) request).2

/-- From a run whose artifacts are absent or have no slots, any sequence of requests leads to a
table of the keys that were to be added, each once and in the order in which they first came,
whose artifacts have their own index; absent artifacts stay absent as long as none was to be
added. Each request is answered with the index that its key has in the table, unset exactly if the
key was neither there nor to be added. A key that was given an index is given the same one ever
after. -/
theorem artifactIndex_sequence {run : Run} (empty : run.table = [])
    (requests : List ArtifactRequest) :
    (run.afterRequests requests).Tabulates (addedKeys requests) ∧
    (run.get artifacts = none → (∀ request ∈ requests, request.add = false) →
      (run.afterRequests requests).get artifacts = none) ∧
    (∀ request : ArtifactRequest,
      ((run.afterRequests requests).answer request).index =
          Sentinel.ofOption ((addedKeys (requests ++ [request])).idxOf? request.location.key) ∧
        (((run.afterRequests requests).answer request).index = Sentinel.unset ↔
          request.location.key ∉ addedKeys requests ∧ request.add = false)) ∧
    ∀ (request : ArtifactRequest) (more : List ArtifactRequest) (later : ArtifactRequest),
      later.location.key = request.location.key →
      ((run.afterRequests requests).answer request).index ≠ Sentinel.unset →
      ((run.afterRequests (requests ++ request :: more)).answer later).index =
        ((run.afterRequests requests).answer request).index := by
  refine ⟨tabulates_afterRequests empty requests, ?_, ?_, ?_⟩
  · intro absent refused
    rw [run.afterRequests_of_not_add refused, absent]
  · intro request
    refine ⟨index_answer empty requests request, ?_⟩
    rw [index_answer empty, Sentinel.ofOption_eq_unset_iff, List.idxOf?_eq_none_iff,
      addedKeys_concat, notMem_keysWith_iff]
  · intro request more later same given
    rw [index_answer empty, ne_eq, Sentinel.ofOption_eq_unset_iff] at given
    obtain ⟨i, found⟩ := Option.ne_none_iff_exists'.mp given
    -- Later keys come behind those of the first requests, so the index stays.
    have longer : requests ++ request :: more ++ [later] =
        (requests ++ [request]) ++ (more ++ [later]) := by simp
    rw [index_answer empty, index_answer empty, found, longer, same,
      idxOf?_addedKeys_append found (more ++ [later])]

/-- A run that says nothing but what is required. -/
def bareRun : Run :=
  Node.default .run

/-- Requests for two files: the first is asked for before it is there, added, and asked for with the
index of the second. -/
def fileRequests : List ArtifactRequest :=
  [⟨.ofUri "a.c", false⟩, ⟨.ofUri "a.c", true⟩, ⟨.ofUriAndBase "b.c" "SRCROOT", true⟩,
    ⟨(ArtifactLocation.ofUri "a.c").withIndex 1, true⟩]

/-- Nothing is found at first, so the absent artifacts stay absent; then the table has the two files
in order, and the first has the same index as before. -/
theorem artifactIndex_sequence_fileRequests :
    (bareRun.afterRequests (fileRequests.take 1)).get artifacts = none ∧
      (bareRun.afterRequests fileRequests).Tabulates
        [(some "a.c", none), (some "b.c", some "SRCROOT")] ∧
      ((bareRun.afterRequests (fileRequests.take 3)).answer
          ⟨(ArtifactLocation.ofUri "a.c").withIndex 1, true⟩).index = Sentinel.ofNat 0 := by
  have empty : bareRun.table = [] := rfl
  obtain ⟨_, absent, _, _⟩ := artifactIndex_sequence empty (fileRequests.take 1)
  obtain ⟨tabulates, _, _, _⟩ := artifactIndex_sequence empty fileRequests
  obtain ⟨_, _, _, stable⟩ := artifactIndex_sequence empty (fileRequests.take 1)
  have first : ((bareRun.afterRequests (fileRequests.take 1)).answer
      ⟨.ofUri "a.c", true⟩).index = Sentinel.ofNat 0 := by rfl
  refine ⟨absent rfl (by decide), tabulates, ?_⟩
  have given := stable ⟨.ofUri "a.c", true⟩ [⟨.ofUriAndBase "b.c" "SRCROOT", true⟩]
    ⟨(ArtifactLocation.ofUri "a.c").withIndex 1, true⟩ (ArtifactLocation.key_withIndex ..)
    (first ▸ Sentinel.ofNat_ne_unset 0)
  exact given.trans first

end Run
end Sarif
