import Mathlib.Data.List.DropRight
import Sarif.Proofs.Dict
import Sarif.PropertyBag

/-!
# Bags and their histories

What a bag holds can be told from the calls that were made on it, without going through them one
by one: under a key it holds the value that was last stored there since the key was last removed,
and its keys stand in the order in which they came in since then. `PropertyBag.Records` says this
of a bag and a history; no other bag holds the same (`PropertyBag.Records.unique`). A call keeps
it up (`PropertyBag.Records.perform`), and gives back what the history tells of the key that it is
about.
-/

namespace Sarif

/-- A call that sets or removes a property. -/
inductive BagCall where
  | set (name : String) (value : Offered)
  | setRaw (name : String) (value : Json)
  | remove (name : String)

namespace BagCall

/-- The property that a call is about. -/
def name : BagCall → String
  | set name _ => name
  | setRaw name _ => name
  | remove name => name

/-- The value that a call stores; none if it removes one, or cannot store what it is offered. -/
def stored? : BagCall → Option Json
  | set _ value => value.toJson.toOption
  | setRaw _ value => some value
  | remove _ => none

/-- The value that a call stores under a key. -/
def storedUnder? (key : String) (call : BagCall) : Option Json :=
  if call.name = key then call.stored? else none

/-- Whether a call removes a key. -/
def removes (key : String) : BagCall → Bool
  | remove name => name == key
  | _ => false

/-! ## What a history tells -/

/-- The part of a history since a key was last removed. -/
def sinceRemoval (key : String) (history : List BagCall) : List BagCall :=
  history.rtakeWhile fun call => !call.removes key

/-- The value that was last stored under a key since the key was last removed. -/
def lastValue? (key : String) (history : List BagCall) : Option Json :=
  ((sinceRemoval key history).filterMap (storedUnder? key)).getLast?

/-- How many calls had been made when a key came in: the first call that stored under it since it
was last removed comes after them. -/
def arrival? (key : String) (history : List BagCall) : Option Nat :=
  ((sinceRemoval key history).findIdx? fun call => (call.storedUnder? key).isSome).map
    (history.length - (sinceRemoval key history).length + ·)

/-- One key came in before another. -/
def CameInBefore (history : List BagCall) (one other : String) : Prop :=
  ∃ i j, arrival? one history = some i ∧ arrival? other history = some j ∧ i < j

/-- What a call gives back after a history: the value that the property had, or why the value that
is offered cannot be stored. -/
def answer (history : List BagCall) : BagCall → Except Error (Option Json)
  | set name value =>
    match value.toJson with
    | .ok _ => .ok (lastValue? name history)
    | .error problem => .error (.property name (.store problem))
  | setRaw name _ => .ok (lastValue? name history)
  | remove name => .ok (lastValue? name history)

variable {key : String} {history : List BagCall} {call : BagCall}

/-- A call that stores a value removes no key. -/
theorem keeps_of_stored {value : Json} (stored : call.stored? = some value) (key : String) :
    call.removes key = false := by
  cases call with
  | remove name => cases stored
  | _ => rfl

/-- What a call stores under a key is what it stores. -/
theorem stored?_of_storedUnder? {value : Json} (stored : call.storedUnder? key = some value) :
    call.stored? = some value := by
  rw [storedUnder?] at stored
  split at stored
  · exact stored
  · cases stored

/-- A call that removes a key leaves nothing of the history since its removal. -/
theorem sinceRemoval_concat_of_removes (removed : call.removes key = true) :
    sinceRemoval key (history ++ [call]) = [] :=
  List.rtakeWhile_concat_neg _ _ _ (by simp [removed])

/-- Any other call is part of the history since the removal of a key. -/
theorem sinceRemoval_concat_of_keeps (kept : call.removes key = false) :
    sinceRemoval key (history ++ [call]) = sinceRemoval key history ++ [call] :=
  List.rtakeWhile_concat_pos _ _ _ (by simp [kept])

/-- The history since a removal is no longer than the whole history. -/
theorem length_sinceRemoval_le (key : String) (history : List BagCall) :
    (sinceRemoval key history).length ≤ history.length :=
  (List.rtakeWhile_suffix _ _).length_le

/-- Nothing is under a key after it was removed. -/
theorem lastValue?_concat_of_removes (removed : call.removes key = true) :
    lastValue? key (history ++ [call]) = none := by
  rw [lastValue?, sinceRemoval_concat_of_removes removed]
  rfl

/-- After any other call a key has the value that the call stores under it, or the one that it
had. -/
theorem lastValue?_concat_of_keeps (kept : call.removes key = false) :
    lastValue? key (history ++ [call]) = (call.storedUnder? key).or (lastValue? key history) := by
  rw [lastValue?, sinceRemoval_concat_of_keeps kept, List.filterMap_append, List.getLast?_append,
    lastValue?]
  cases stored : call.storedUnder? key <;> simp [stored]

/-- A key that was in and is not removed came in when it did. -/
theorem arrival?_concat_of_some {i : Nat} (kept : call.removes key = false)
    (entered : arrival? key history = some i) : arrival? key (history ++ [call]) = some i := by
  obtain ⟨index, found, place⟩ := Option.map_eq_some_iff.mp entered
  have bound := length_sinceRemoval_le key history
  rw [arrival?, sinceRemoval_concat_of_keeps kept, List.findIdx?_append, found, List.length_append,
    List.length_append, ← place]
  simp only [Option.or, Option.map_some, Option.some.injEq, List.length_singleton]
  omega

/-- A key that was not in comes in with a call that stores under it. -/
theorem arrival?_concat_of_none {value : Json} (stored : call.storedUnder? key = some value)
    (missing : arrival? key history = none) :
    arrival? key (history ++ [call]) = some history.length := by
  have kept : call.removes key = false := keeps_of_stored (stored?_of_storedUnder? stored) key
  have bound := length_sinceRemoval_le key history
  have fresh := Option.map_eq_none_iff.mp missing
  rw [arrival?, sinceRemoval_concat_of_keeps kept, List.findIdx?_append, fresh, List.length_append,
    List.length_append]
  simp only [List.findIdx?_singleton, stored, Option.isSome_some, if_true, Option.map_some,
    Option.none_or, Option.some.injEq, List.length_singleton]
  omega

/-- A key came in earlier than now. -/
theorem arrival?_lt {i : Nat} (entered : arrival? key history = some i) : i < history.length := by
  obtain ⟨index, found, place⟩ := Option.map_eq_some_iff.mp entered
  obtain ⟨inside, _⟩ := List.findIdx?_eq_some_iff_findIdx_eq.mp found
  have bound := length_sinceRemoval_le key history
  omega

/-- A key is in exactly if there is a value under it. -/
theorem arrival?_eq_none_iff : arrival? key history = none ↔ lastValue? key history = none := by
  rw [arrival?, Option.map_eq_none_iff, lastValue?, List.getLast?_eq_none_iff,
    List.filterMap_eq_nil_iff, List.findIdx?_eq_none_iff]
  simp

/-- Keys that are not removed stay in the order in which they came in. -/
theorem CameInBefore.concat {one other : String} (before : CameInBefore history one other)
    (oneKept : call.removes one = false) (otherKept : call.removes other = false) :
    CameInBefore (history ++ [call]) one other := by
  obtain ⟨i, j, first, second, less⟩ := before
  exact ⟨i, j, arrival?_concat_of_some oneKept first,
    arrival?_concat_of_some otherKept second, less⟩

/-- Of two keys only one came in before the other. -/
theorem CameInBefore.asymm {one other : String} (before : CameInBefore history one other) :
    ¬ CameInBefore history other one := by
  obtain ⟨i, j, first, second, less⟩ := before
  rintro ⟨later, sooner, third, fourth, more⟩
  obtain rfl := Option.some.inj (second.symm.trans third)
  obtain rfl := Option.some.inj (first.symm.trans fourth)
  exact absurd more (Nat.lt_asymm less)

end BagCall

namespace PropertyBag

open BagCall

variable {bag : PropertyBag} {history : List BagCall} {call : BagCall}

/-- A call on a bag: what it gives back, and the bag afterwards. A value that cannot be stored
leaves the bag as it is. -/
def perform (bag : PropertyBag) : BagCall → Except Error (Option Json) × PropertyBag
  | .set name value =>
    match bag.set name value with
    | .ok (old, after) => (.ok old, after)
    | .error e => (.error e, bag)
  | .setRaw name value => (bag.setRaw name value).map .ok id
  | .remove name => (bag.remove name).map .ok id

/-- A bag after a run of calls. -/
def performAll (bag : PropertyBag) (calls : List BagCall) : PropertyBag :=
  calls.foldl (fun bag call => (bag.perform call).2) bag

/-- A bag holds what a history tells: its keys are distinct, every key has the value that was last
stored under it since it was last removed, and the keys stand in the order in which they came in. -/
structure Records (bag : PropertyBag) (history : List BagCall) : Prop where
  distinct : bag.WellFormed
  value : ∀ key, bag.get? key = lastValue? key history
  order : bag.keys.Pairwise (CameInBefore history)

/-- A call inserts what it stores, erases what it removes, or does nothing. -/
theorem perform_cases (bag : PropertyBag) (call : BagCall) :
    (∃ value, call.stored? = some value ∧ (bag.perform call).2 = bag.insert call.name value) ∨
      (call = .remove call.name ∧ (bag.perform call).2 = bag.erase call.name) ∨
      (call.stored? = none ∧ (∀ key, call.removes key = false) ∧ (bag.perform call).2 = bag) := by
  cases call with
  | set name value =>
      cases converted : value.toJson with
      | ok stored =>
          refine .inl ⟨stored, ?_, ?_⟩
          · simp [stored?, converted, Except.toOption]
          · simp [perform, PropertyBag.set, converted, BagCall.name]
      | error problem =>
          refine .inr (.inr ⟨?_, fun _ => rfl, ?_⟩)
          · simp [stored?, converted, Except.toOption]
          · simp [perform, PropertyBag.set, converted]
  | setRaw name value => exact .inl ⟨value, rfl, rfl⟩
  | remove name => exact .inr (.inl ⟨rfl, rfl⟩)

/-- A call gives back what the history tells. -/
theorem Records.answer (records : bag.Records history) (call : BagCall) :
    (bag.perform call).1 = BagCall.answer history call := by
  cases call with
  | set name value =>
      cases converted : value.toJson with
      | ok stored =>
          simp [perform, PropertyBag.set, BagCall.answer, converted, records.value]
      | error problem => simp [perform, PropertyBag.set, BagCall.answer, converted]
  | setRaw name value => exact congrArg Except.ok (records.value name)
  | remove name => exact congrArg Except.ok (records.value name)

/-- A key of a bag has come in. -/
theorem Records.exists_arrival (records : bag.Records history) {key : String}
    (inside : key ∈ bag.keys) :
    ∃ i, arrival? key history = some i := by
  refine Option.ne_none_iff_exists'.mp fun missing => ?_
  rw [arrival?_eq_none_iff, ← records.value] at missing
  exact Dict.lookup_eq_none_iff.mp missing inside

/-- A key that a bag does not have has not come in. -/
theorem Records.arrival?_eq_none (records : bag.Records history) {key : String}
    (missing : key ∉ bag.keys) : arrival? key history = none := by
  rw [arrival?_eq_none_iff, ← records.value]
  exact Dict.lookup_eq_none_iff.mpr missing

/-- A history leaves no choice: there is only one bag that holds what it tells. -/
theorem Records.unique {other : PropertyBag} (records : bag.Records history)
    (others : other.Records history) : bag = other := by
  have held (key : String) : bag.get? key = other.get? key :=
    (records.value key).trans (others.value key).symm
  have same (key : String) : key ∈ bag.keys ↔ key ∈ other.keys := by
    rw [← not_iff_not]
    exact (Dict.lookup_eq_none_iff.symm.trans (Eq.congr_left (held key))).trans
      Dict.lookup_eq_none_iff
  have perm := (List.perm_ext_iff_of_nodup records.distinct others.distinct).mpr same
  have keys : bag.keys = other.keys := by
    refine perm.eq_of_pairwise ?_ records.order others.order
    exact fun _ _ _ _ before after => absurd after before.asymm
  exact congrArg Dict.mk (Dict.entries_eq_of_lookup records.distinct keys held)

/-! ## One call -/

/-- A call that stores a value is recorded. -/
theorem Records.insert (records : bag.Records history) {value : Json}
    (stored : call.stored? = some value) :
    Records (bag.insert call.name value) (history ++ [call]) := by
  have kept := keeps_of_stored stored
  refine ⟨Dict.nodup_put _ _ records.distinct, fun key => ?_, ?_⟩
  · rw [lastValue?_concat_of_keeps (kept key), storedUnder?, ← records.value]
    split
    · next here =>
      rw [← here, stored]
      exact Dict.lookup_put _
    · next apart => exact Dict.lookup_put_of_ne (Ne.symm apart) _
  · have order : bag.keys.Pairwise (CameInBefore (history ++ [call])) :=
      records.order.imp fun before => before.concat (kept _) (kept _)
    rw [Dict.keys_insert]
    split
    · exact order
    · next missing =>
      -- The key goes to the end; every other one came in with an earlier call.
      refine List.pairwise_append.mpr ⟨order, List.pairwise_singleton ..,
        fun key inside last new => ?_⟩
      obtain ⟨i, entered⟩ := records.exists_arrival inside
      obtain rfl := List.mem_singleton.mp new
      have here : call.storedUnder? call.name = some value := (if_pos rfl).trans stored
      exact ⟨i, history.length, arrival?_concat_of_some (kept key) entered,
        arrival?_concat_of_none here (records.arrival?_eq_none missing), arrival?_lt entered⟩

/-- A removal is recorded. -/
theorem Records.erase (records : bag.Records history) (name : String) :
    Records (bag.erase name) (history ++ [.remove name]) := by
  have keys : (bag.erase name).keys = bag.keys.erase name := Dict.map_fst_drop bag.entries
  have kept {key : String} (apart : key ≠ name) : (BagCall.remove name).removes key = false :=
    beq_eq_false_iff_ne.mpr (Ne.symm apart)
  refine ⟨?_, fun key => ?_, ?_⟩
  · rw [Dict.WellFormed, keys]
    exact records.distinct.erase name
  · by_cases here : key = name
    · subst here
      have removed : (BagCall.remove key).removes key = true := beq_self_eq_true key
      rw [lastValue?_concat_of_removes removed]
      exact Dict.lookup_drop records.distinct
    · have silent : (BagCall.remove name).storedUnder? key = none := if_neg (Ne.symm here)
      rw [lastValue?_concat_of_keeps (kept here), silent, Option.none_or, ← records.value]
      exact Dict.lookup_drop_of_ne here _
  · rw [keys]
    -- The removed key is not among those that are left, so each of them arrived when it did.
    refine (records.order.sublist List.erase_sublist).imp_of_mem fun one other before => ?_
    exact before.concat (kept (records.distinct.mem_erase_iff.mp one).1)
      (kept (records.distinct.mem_erase_iff.mp other).1)

/-- A call that neither stores nor removes anything is recorded. -/
theorem Records.idle (records : bag.Records history) (stores : call.stored? = none)
    (kept : ∀ key, call.removes key = false) : bag.Records (history ++ [call]) := by
  refine ⟨records.distinct, fun key => ?_, records.order.imp fun before =>
    before.concat (kept _) (kept _)⟩
  rw [lastValue?_concat_of_keeps (kept key), storedUnder?, stores, ite_self, Option.none_or,
    records.value]

/-- A call is recorded. -/
theorem Records.perform (records : bag.Records history) (call : BagCall) :
    (bag.perform call).2.Records (history ++ [call]) := by
  rcases bag.perform_cases call with
    ⟨value, stored, after⟩ | ⟨removal, after⟩ | ⟨stores, kept, after⟩
  · rw [after]
    exact records.insert stored
  · rw [after, removal]
    exact records.erase call.name
  · rw [after]
    exact records.idle stores kept

/-! ## A run of calls -/

/-- The empty bag has no history. -/
theorem records_empty : Records Dict.empty [] :=
  ⟨List.nodup_nil, fun _ => rfl, List.Pairwise.nil⟩

/-- A run of calls is recorded. -/
theorem Records.performAll (records : bag.Records history) (calls : List BagCall) :
    (bag.performAll calls).Records (history ++ calls) := by
  induction calls generalizing bag history with
  | nil => rwa [List.append_nil]
  | cons call rest inductionHypothesis =>
      rw [List.append_cons]
      exact inductionHypothesis (records.perform call)

end PropertyBag
end Sarif
