import Sarif.Proofs.Json.Zeros
import Sarif.PropertyBag

/-!
# Equality and structural hashes

Equal nodes should have equal hashes. They do when the floating-point zeros that stand in their
property bags have the same signs, and the sign of a stored zero is the only thing that can part
them: `Node.hash_respects_same` says that a node has the hash of every node equal to it
exactly when it stores no such zero. Zeros in the fields of a node do no harm, since their hash
does not read their text.
-/

namespace Sarif

namespace Scalar

/-- The zeros of two stored values have the same signs; every other scalar agrees. -/
def ZeroSignsAgree : (s : Scalar) → s.Value → s.Value → Prop
  | json, x, y => Json.zeroSigns x = Json.zeroSigns y
  | _, _, _ => True

/-- A stored value holds no floating-point zero; no other scalar does. -/
def StoresNoZero : (s : Scalar) → s.Value → Prop
  | json, x => Json.zeroSigns x = []
  | _, _ => True

/-- A number is not a NaN; no other scalar is. -/
def NotNaN : (s : Scalar) → s.Value → Prop
  | number, x => Binary64.isNaN x = false
  | _, _ => True

/-- A well-formed scalar that is not a NaN. -/
def Comparable (s : Scalar) (x : s.Value) : Prop :=
  s.WellFormed x ∧ s.NotNaN x

end Scalar

namespace Node

variable {k : Kind}

/-- The zeros that two nodes store in corresponding bags have the same signs. -/
def ZeroSignsAgree (n m : Node k) : Prop :=
  n.Related Scalar.ZeroSignsAgree m

/-- No bag of a node holds a floating-point zero, at any depth. -/
def StoresNoZero (n : Node k) : Prop :=
  n.Each Scalar.StoresNoZero fun _ => True

/-- No floating-point number in the fields of a node is a NaN, at any depth. -/
def NoNaN (n : Node k) : Prop :=
  n.Each Scalar.NotNaN fun _ => True

end Node

open HashCode

/-! ## Scalars -/

namespace Scalar

/-- Numbers that compare equal have one hash, zeros of either sign included. -/
theorem ofFloat_eq_of_sameNumber {x y : Binary64} (same : x.sameNumber y = true) :
    ofFloat x = ofFloat y := by
  obtain rfl | ⟨first, second⟩ := Binary64.eq_or_isZero_of_sameNumber same
  · rfl
  · simp [ofFloat, Binary64.normalizeZero, first, second]

/-- Equal scalars have equal hashes if their stored zeros have the same signs. -/
theorem hash_eq_of_same (s : Scalar) (x y : s.Value) (same : s.same x y = true)
    (agree : s.ZeroSignsAgree x y) : s.hash x = s.hash y := by
  cases s with
  | number => exact ofFloat_eq_of_sameNumber same
  | json => exact congrArg Json.hash ((Json.same_cases x y same).2 agree)
  | unit => rfl
  | _ => exact congrArg _ (of_decide_eq_true same)

/-- The stored zeros of equal scalars have the same signs if one of them has no such zero. -/
theorem zeroSignsAgree_of_storesNoZero (s : Scalar) (x y : s.Value) (noZero : s.StoresNoZero x)
    (same : s.same x y = true) : s.ZeroSignsAgree x y := by
  cases s with
  | json =>
      have none : Json.zeroSigns x = [] := noZero
      have lengths := (Json.same_cases x y same).1
      rw [none, List.length_nil] at lengths
      exact none.trans (List.eq_nil_of_length_eq_zero lengths.symm).symm
  | _ => trivial

/-- A well-formed scalar that is not a NaN is equal to itself. -/
theorem same_self (s : Scalar) (x : s.Value) (comparable : s.Comparable x) :
    s.same x x = true := by
  cases s with
  | number => exact Binary64.sameNumber_self comparable.2
  | json => exact Json.same_self x comparable.1
  | unit => rfl
  | _ => exact decide_eq_true rfl

/-- A well-formed scalar that is finite is not a NaN. -/
theorem comparable_of_finite (s : Scalar) (x : s.Value) (finite : s.WellFormed x ∧ s.Finite x) :
    s.Comparable x := by
  refine ⟨finite.1, ?_⟩
  cases s with
  | number => exact Binary64.isNaN_of_isFinite finite.2
  | _ => trivial

/-- A well-formed scalar that stores a zero is equal to one of another hash. -/
theorem exists_hash_ne (s : Scalar) (x : s.Value) (wellFormed : s.WellFormed x)
    (zero : ¬ s.StoresNoZero x) :
    ∃ y : s.Value, s.Comparable y ∧ s.same x y = true ∧ s.hash x ≠ s.hash y := by
  cases s with
  | json =>
      obtain ⟨y, y_wellFormed, same, apart⟩ := Json.exists_hash_ne x wellFormed zero
      exact ⟨y, ⟨y_wellFormed, trivial⟩, same, apart⟩
  | _ => exact absurd trivial zero

end Scalar

/-! ## Equal nodes with the same stored signs -/

/-- Equal nodes have equal hashes if their stored zeros have the same signs. -/
theorem Node.hash_eq_of_same_of_agree {k : Kind} (x y : Node k) (wellFormed : x.WellFormed)
    (same : x.same y = true) (agree : x.ZeroSignsAgree y) : x.hash = y.hash := by
  refine Node.hash_eq_of_related x y wellFormed ?_
  exact Node.Related.combine (fun s a b _ => Scalar.hash_eq_of_same s a b) x y wellFormed
    ((Node.same_iff_related x y).mp same) agree

/-! ## Nodes without NaNs are equal to themselves -/

/-- A node of well-formed scalars that are finite has no NaN. -/
theorem Node.comparable_of_finite {k : Kind} (n : Node k)
    (finite : n.Each (fun s x => s.WellFormed x ∧ s.Finite x) List.Nodup) :
    n.Each Scalar.Comparable List.Nodup :=
  Each.imp Scalar.comparable_of_finite (fun _ distinct => distinct) n finite

/-- A well-formed node without a NaN is equal to itself. -/
theorem Node.same_self {k : Kind} (n : Node k) (comparable : n.Each Scalar.Comparable List.Nodup) :
    n.same n = true :=
  (Node.same_iff_related n n).mpr (Node.Related.refl Scalar.same_self n comparable)

/-- A well-formed field without a NaN is equal to itself. -/
theorem FieldValue.same_self {t : FieldType} (v : FieldValue t)
    (comparable : v.Each Scalar.Comparable List.Nodup) : v.same v = true :=
  (FieldValue.same_iff_related v v).mpr (FieldValue.Related.refl Scalar.same_self v comparable)

/-- A well-formed record without a NaN is equal to itself. -/
theorem Record.same_self {fs : List Field} (r : Record fs)
    (comparable : r.Each Scalar.Comparable List.Nodup) : r.same r = true :=
  (Record.same_iff_related r r).mpr (Record.Related.refl Scalar.same_self r comparable)

/-- A well-formed list of nodes without a NaN is equal to itself. -/
theorem Slots.same_self {k : Kind} (s : Slots k)
    (comparable : s.Each Scalar.Comparable List.Nodup) :
    s.same s = true :=
  (Slots.same_iff_related s s).mpr (Slots.Related.refl Scalar.same_self s comparable)

/-- Every node of a well-formed map without a NaN is equal to itself. -/
theorem Entries.same_self_of_mem {k : Kind} : (e : Entries k) →
    e.Each Scalar.Comparable List.Nodup → ∀ entry ∈ e.toList, entry.2.same entry.2 = true
  | .nil, _, _, member => by simp [Entries.toList] at member
  | .cons key n rest, comparable, entry, member => by
      rcases List.mem_cons.mp member with rfl | inside
      · exact Node.same_self n comparable.1
      · exact Entries.same_self_of_mem rest comparable.2 entry inside

/-! ## Lists and maps with one item changed -/

section Change

variable {α : Type} {hash : α → HashCode} {x y : α}

/-- Slots fold in one after the other. -/
theorem Flat.foldSlots_append (before after : List (Option α)) (running : HashCode) :
    Flat.foldSlots hash running (before ++ after) =
      Flat.foldSlots hash (Flat.foldSlots hash running before) after := by
  induction before generalizing running with
  | nil => rfl
  | cons slot rest inductionHypothesis =>
      cases slot <;> exact inductionHypothesis _

/-- Entries are laid over a hash one after the other. -/
theorem Flat.foldEntries_append (before after : List (String × α)) (running : HashCode) :
    Flat.foldEntries hash running (before ++ after) =
      Flat.foldEntries hash (Flat.foldEntries hash running before) after := by
  induction before generalizing running with
  | nil => rfl
  | cons entry rest inductionHypothesis => exact inductionHypothesis _

/-- A list folds differently when one item changes its hash. -/
theorem Flat.foldSlots_ne (apart : hash x ≠ hash y) (before after : List (Option α))
    (running : HashCode) :
    Flat.foldSlots hash running (before ++ some x :: after) ≠
      Flat.foldSlots hash running (before ++ some y :: after) := by
  rw [Flat.foldSlots_append, Flat.foldSlots_append]
  intro equal
  exact apart (combine_right_injective (Flat.foldSlots_injective hash after equal))

/-- A map folds differently when one value changes its hash. -/
theorem Flat.foldEntries_ne (apart : hash x ≠ hash y) (key : String)
    (before after : List (String × α)) (running : HashCode) :
    Flat.foldEntries hash running (before ++ (key, x) :: after) ≠
      Flat.foldEntries hash running (before ++ (key, y) :: after) := by
  rw [Flat.foldEntries_append, Flat.foldEntries_append]
  intro equal
  exact apart (xor_left_injective (Flat.foldEntries_injective hash after equal))

/-- A list whose items are related to themselves is related to the list with one item changed
for a related one. -/
theorem forall₂_change {relate : α → α → Prop} {before after : List α}
    (reflexive : ∀ item ∈ before ++ x :: after, relate item item) (related : relate x y) :
    List.Forall₂ relate (before ++ x :: after) (before ++ y :: after) := by
  refine List.rel_append (List.forall₂_same.mpr fun item member => ?_)
    (.cons related (List.forall₂_same.mpr fun item member => ?_))
  · exact reflexive item (List.mem_append_left _ member)
  · exact reflexive item (List.mem_append_right _ (List.mem_cons_of_mem _ member))

/-- What holds of the items of a list holds of them when one is changed for another of which it
holds. -/
theorem forall_mem_change {holds : α → Prop} {before after : List α}
    (each : ∀ item ∈ before ++ x :: after, holds item) (changed : holds y) :
    ∀ item ∈ before ++ y :: after, holds item := by
  intro item member
  simp only [List.mem_append, List.mem_cons] at member each
  obtain earlier | rfl | later := member
  · exact each item (.inl earlier)
  · exact changed
  · exact each item (.inr (.inr later))

end Change

/-! ## A node that stores a zero has an equal node of another hash -/

/-- Maps are equal that differ in equal values under one key. -/
theorem Dict.same_change {α : Type} {same : α → α → Bool} {key : String} {value other : α}
    {before after : List (String × α)}
    (distinct : ((before ++ (key, other) :: after).map Prod.fst).Nodup)
    (reflexive : ∀ entry ∈ before ++ (key, value) :: after, same entry.2 entry.2 = true)
    (equal : same value other = true) :
    Dict.same same ⟨before ++ (key, value) :: after⟩ ⟨before ++ (key, other) :: after⟩ = true := by
  refine (Dict.same_iff_related _ _ _).mpr ⟨by simp [Dict.size], fun entry inside => ?_⟩
  obtain earlier | rfl | later : entry ∈ before ∨ entry = (key, value) ∨ entry ∈ after := by
    simpa using inside
  · exact ⟨entry.2, Dict.lookup_of_mem distinct (by simp [earlier]), reflexive entry inside⟩
  · exact ⟨other, Dict.lookup_of_mem distinct (by simp), equal⟩
  · exact ⟨entry.2, Dict.lookup_of_mem distinct (by simp [later]), reflexive entry inside⟩

/-- A flat value that stores a zero is equal to one that folds differently into every hash. -/
theorem Flat.exists_fold_ne (f : Flat) (x : f.Value)
    (comparable : Flat.Each Scalar.Comparable List.Nodup f x)
    (zero : ¬ Flat.Each Scalar.StoresNoZero (fun _ => True) f x) :
    ∃ y : f.Value, Flat.Each Scalar.Comparable List.Nodup f y ∧ f.same x y = true ∧
      ∀ running, Flat.fold running f x ≠ Flat.fold running f y := by
  cases f with
  | scalar s =>
      obtain ⟨y, comparable', same, apart⟩ := Scalar.exists_hash_ne s x comparable.1 zero
      exact ⟨y, comparable', same, fun _ equal => apart (combine_right_injective equal)⟩
  | array s =>
      obtain ⟨item, member, stored⟩ : ∃ item ∈ (x : List s.Value), ¬ s.StoresNoZero item := by
        simpa [Flat.Each] using zero
      obtain ⟨y, comparable', same, apart⟩ :=
        Scalar.exists_hash_ne s item (comparable item member).1 stored
      obtain ⟨before, after, rfl⟩ := List.append_of_mem member
      refine ⟨before ++ y :: after, forall_mem_change comparable comparable', ?_,
        fun running => ?_⟩
      · exact (Flat.sameItems_iff _ _ _).mpr
          (forall₂_change (fun item member => s.same_self item (comparable item member)) same)
      · simpa [Flat.fold] using Flat.foldSlots_ne apart (before.map some) (after.map some) running
  | slots s =>
      obtain ⟨item, member, stored⟩ :
          ∃ item, some item ∈ (x : List (Option s.Value)) ∧ ¬ s.StoresNoZero item := by
        simpa [Flat.Each] using zero
      obtain ⟨y, comparable', same, apart⟩ :=
        Scalar.exists_hash_ne s item (comparable _ member item rfl).1 stored
      obtain ⟨before, after, rfl⟩ := List.append_of_mem member
      refine ⟨before ++ some y :: after, forall_mem_change comparable ?_, ?_,
        Flat.foldSlots_ne apart before after⟩
      · rintro _ ⟨⟩
        exact comparable'
      · refine (Flat.sameItems_iff _ _ _).mpr (forall₂_change (fun slot member => ?_) same)
        cases slot with
        | none => rfl
        | some item => exact s.same_self item (comparable _ member item rfl)
  | map s =>
      obtain ⟨entries⟩ := x
      obtain ⟨distinct, comparable⟩ := comparable
      obtain ⟨⟨key, value⟩, member, stored⟩ :
          ∃ entry ∈ entries, ¬ s.StoresNoZero entry.2 := by
        simpa [Flat.Each] using zero
      obtain ⟨y, comparable', same, apart⟩ :=
        Scalar.exists_hash_ne s value (comparable _ member).1 stored
      obtain ⟨before, after, rfl⟩ := List.append_of_mem member
      have distinct' : ((before ++ (key, y) :: after).map Prod.fst).Nodup := by
        simpa [Dict.keys] using distinct
      refine ⟨⟨before ++ (key, y) :: after⟩, ⟨distinct', ?_⟩, ?_, fun running equal => ?_⟩
      · exact forall_mem_change comparable comparable'
      · exact Dict.same_change distinct'
          (fun entry inside => s.same_self _ (comparable entry inside))
          same
      · exact Flat.foldEntries_ne apart key before after 0 (combine_right_injective equal)

/-- Entries that are found in a map with equal nodes are subsumed by it. -/
theorem Entries.subsumedBy_of_found : {k : Kind} → (e d : Entries k) →
    (∀ entry ∈ e.toList, ∃ m, d.lookup entry.1 = some m ∧ entry.2.same m = true) →
    e.subsumedBy d = true
  | _, .nil, _, _ => rfl
  | _, .cons key n rest, d, found => by
      obtain ⟨m, lookup, same⟩ := found (key, n) (List.mem_cons_self ..)
      have tail := Entries.subsumedBy_of_found rest d fun entry member =>
        found entry (List.mem_cons_of_mem _ member)
      have same : n.same m = true := same
      simp [Entries.subsumedBy, lookup, same, tail]

mutual

/-- A node that stores a zero is equal to a node of another hash. -/
theorem Node.exists_hash_ne : {k : Kind} → (n : Node k) →
    n.Each Scalar.Comparable List.Nodup → ¬ n.Each Scalar.StoresNoZero (fun _ => True) →
    ∃ m : Node k, m.Each Scalar.Comparable List.Nodup ∧ n.same m = true ∧ n.hash ≠ m.hash
  | _, .mk fields => by
      intro comparable zero
      obtain ⟨others, comparable', same, apart⟩ :=
        Record.exists_fold_ne fields comparable zero
      exact ⟨.mk others, comparable', same, apart seed⟩

/-- A value that stores a zero is equal to one that folds differently into every hash. -/
theorem Value.exists_fold_ne : {t : Ty} → (v : Value t) →
    v.Each Scalar.Comparable List.Nodup → ¬ v.Each Scalar.StoresNoZero (fun _ => True) →
    ∃ w : Value t, w.Each Scalar.Comparable List.Nodup ∧ v.same w = true ∧
      ∀ running, v.fold running ≠ w.fold running
  | _, .flat x => by
      intro comparable zero
      obtain ⟨y, comparable', same, apart⟩ := Flat.exists_fold_ne _ x comparable zero
      exact ⟨.flat y, comparable', same, apart⟩
  | _, .node n => by
      intro comparable zero
      obtain ⟨m, comparable', same, apart⟩ := Node.exists_hash_ne n comparable zero
      exact ⟨.node m, comparable', same, fun _ equal => apart (combine_right_injective equal)⟩
  | _, .nodes s => by
      intro comparable zero
      obtain ⟨t, comparable', same, apart⟩ := Slots.exists_fold_ne s comparable zero
      exact ⟨.nodes t, comparable', same, apart⟩
  | _, .nodeMap e => by
      rintro ⟨distinct, comparable⟩ zero
      have stored : ¬ e.Each Scalar.StoresNoZero (fun _ => True) :=
        fun none => zero ⟨trivial, none⟩
      obtain ⟨d, keys, comparable', found, apart⟩ := Entries.exists_fold_ne e comparable stored
      have distinct' : d.keys.Nodup := by rwa [keys]
      refine ⟨.nodeMap d, ⟨distinct', comparable'⟩, ?_,
        fun _ equal => apart 0 (combine_right_injective equal)⟩
      have lengths : e.length = d.length := by
        have sizes := congrArg List.length keys
        simpa [Entries.keys_eq_toList, Entries.length_eq_toList] using sizes.symm
      have subsumed : e.subsumedBy d = true := by
        refine Entries.subsumedBy_of_found e d fun entry member => ?_
        obtain ⟨m, inside, same⟩ := found entry member
        refine ⟨m, ?_, same⟩
        rw [Entries.lookup_eq_toList]
        exact Dict.lookup_of_mem (by rwa [← Entries.keys_eq_toList]) inside
      simp [Value.same, lengths, subsumed]

/-- A field that stores a zero is equal to one that folds differently into every hash. -/
theorem FieldValue.exists_fold_ne : {t : FieldType} → (v : FieldValue t) →
    v.Each Scalar.Comparable List.Nodup → ¬ v.Each Scalar.StoresNoZero (fun _ => True) →
    ∃ w : FieldValue t, w.Each Scalar.Comparable List.Nodup ∧ v.same w = true ∧
      ∀ running, v.fold running ≠ w.fold running
  | _, .required v => by
      intro comparable zero
      obtain ⟨w, comparable', same, apart⟩ := Value.exists_fold_ne v comparable zero
      exact ⟨.required w, comparable', same, apart⟩
  | _, .absent => by
      intro _ zero
      exact absurd trivial zero
  | _, .present v => by
      intro comparable zero
      obtain ⟨w, comparable', same, apart⟩ := Value.exists_fold_ne v comparable zero
      exact ⟨.present w, comparable', same, apart⟩

/-- A record that stores a zero is equal to one that folds differently into every hash. -/
theorem Record.exists_fold_ne : {fs : List Field} → (r : Record fs) →
    r.Each Scalar.Comparable List.Nodup → ¬ r.Each Scalar.StoresNoZero (fun _ => True) →
    ∃ s : Record fs, s.Each Scalar.Comparable List.Nodup ∧ r.same s = true ∧
      ∀ running, r.fold running ≠ s.fold running
  | _, .nil => by
      intro _ zero
      exact absurd trivial zero
  | _, .cons v rest => by
      rintro ⟨comparable, comparables⟩ zero
      by_cases here : v.Each Scalar.StoresNoZero (fun _ => True)
      · have later : ¬ rest.Each Scalar.StoresNoZero (fun _ => True) :=
          fun none => zero ⟨here, none⟩
        obtain ⟨more, comparables', same, apart⟩ := Record.exists_fold_ne rest comparables later
        refine ⟨.cons v more, ⟨comparable, comparables'⟩, ?_, fun _ => apart _⟩
        simp [Record.same, FieldValue.same_self v comparable, same]
      · obtain ⟨w, comparable', same, apart⟩ := FieldValue.exists_fold_ne v comparable here
        refine ⟨.cons w rest, ⟨comparable', comparables⟩, ?_, fun running equal => ?_⟩
        · simp [Record.same, Record.same_self rest comparables, same]
        · exact apart running (Record.fold_injective rest equal)

/-- A list of nodes that store a zero is equal to one that folds differently into every hash. -/
theorem Slots.exists_fold_ne : {k : Kind} → (s : Slots k) →
    s.Each Scalar.Comparable List.Nodup → ¬ s.Each Scalar.StoresNoZero (fun _ => True) →
    ∃ t : Slots k, t.Each Scalar.Comparable List.Nodup ∧ s.same t = true ∧
      ∀ running, s.fold running ≠ t.fold running
  | _, .nil => by
      intro _ zero
      exact absurd trivial zero
  | _, .empty rest => by
      intro comparable zero
      obtain ⟨more, comparable', same, apart⟩ := Slots.exists_fold_ne rest comparable zero
      exact ⟨.empty more, comparable', same, fun _ => apart _⟩
  | _, .full n rest => by
      rintro ⟨comparable, comparables⟩ zero
      by_cases here : n.Each Scalar.StoresNoZero (fun _ => True)
      · have later : ¬ rest.Each Scalar.StoresNoZero (fun _ => True) :=
          fun none => zero ⟨here, none⟩
        obtain ⟨more, comparables', same, apart⟩ := Slots.exists_fold_ne rest comparables later
        refine ⟨.full n more, ⟨comparable, comparables'⟩, ?_, fun _ => apart _⟩
        simp [Slots.same, Node.same_self n comparable, same]
      · obtain ⟨m, comparable', same, apart⟩ := Node.exists_hash_ne n comparable here
        refine ⟨.full m rest, ⟨comparable', comparables⟩, ?_, fun running equal => ?_⟩
        · simp [Slots.same, Slots.same_self rest comparables, same]
        · exact apart (combine_right_injective (Slots.fold_injective rest equal))

/-- A map of nodes that store a zero has the keys of one that lies differently over every hash and
holds equal nodes. -/
theorem Entries.exists_fold_ne : {k : Kind} → (e : Entries k) →
    e.Each Scalar.Comparable List.Nodup → ¬ e.Each Scalar.StoresNoZero (fun _ => True) →
    ∃ d : Entries k, d.keys = e.keys ∧ d.Each Scalar.Comparable List.Nodup ∧
      (∀ entry ∈ e.toList, ∃ m, (entry.1, m) ∈ d.toList ∧ entry.2.same m = true) ∧
      ∀ running, e.fold running ≠ d.fold running
  | _, .nil => by
      intro _ zero
      exact absurd trivial zero
  | _, .cons key n rest => by
      rintro ⟨comparable, comparables⟩ zero
      by_cases here : n.Each Scalar.StoresNoZero (fun _ => True)
      · have later : ¬ rest.Each Scalar.StoresNoZero (fun _ => True) :=
          fun none => zero ⟨here, none⟩
        obtain ⟨more, keys, comparables', found, apart⟩ :=
          Entries.exists_fold_ne rest comparables later
        refine ⟨.cons key n more, congrArg (key :: ·) keys, ⟨comparable, comparables'⟩, ?_,
          fun _ => apart _⟩
        intro entry member
        rcases List.mem_cons.mp member with rfl | inside
        · exact ⟨n, List.mem_cons_self .., Node.same_self n comparable⟩
        · obtain ⟨m, inside', same⟩ := found entry inside
          exact ⟨m, List.mem_cons_of_mem _ inside', same⟩
      · obtain ⟨m, comparable', same, apart⟩ := Node.exists_hash_ne n comparable here
        refine ⟨.cons key m rest, rfl, ⟨comparable', comparables⟩, ?_, fun running equal => ?_⟩
        · intro entry member
          rcases List.mem_cons.mp member with rfl | inside
          · exact ⟨m, List.mem_cons_self .., same⟩
          · exact ⟨entry.2, List.mem_cons_of_mem _ inside,
              Entries.same_self_of_mem rest comparables entry inside⟩
        · exact apart (xor_left_injective (Entries.fold_injective rest equal))

end

/-- Equal nodes have equal hashes if their stored zeros have the same signs. A node without a NaN
has the hash of every node that is equal to it exactly when it stores no zero. -/
theorem Node.hash_respects_same {k : Kind} (x : Node k) (wellFormed : x.WellFormed) :
    (∀ y : Node k, y.WellFormed → x.same y = true → x.ZeroSignsAgree y → x.hash = y.hash) ∧
      (x.NoNaN →
        ((∀ y : Node k, y.WellFormed → x.same y = true → x.hash = y.hash) ↔ x.StoresNoZero)) := by
  refine ⟨fun y _ same agree => Node.hash_eq_of_same_of_agree x y wellFormed same agree,
    fun noNaN => ⟨fun respects => ?_, fun noZero y _ same => ?_⟩⟩
  · by_contra zero
    have comparable : x.Each Scalar.Comparable List.Nodup :=
      Node.Each.combine (fun _ _ => And.intro) (fun _ distinct _ => distinct) x wellFormed noNaN
    obtain ⟨y, comparable', same, apart⟩ := Node.exists_hash_ne x comparable zero
    have y_wellFormed : y.WellFormed :=
      Node.Each.imp (fun _ _ both => both.1) (fun _ distinct => distinct) y comparable'
    exact apart (respects y y_wellFormed same)
  · have related := (Node.same_iff_related x y).mp same
    have agree : x.ZeroSignsAgree y :=
      Node.Related.combine (fun s a b none _ => Scalar.zeroSignsAgree_of_storesNoZero s a b none)
        x y noZero related related
    exact Node.hash_eq_of_same_of_agree x y wellFormed same agree

/-- A message whose bag holds one floating-point number. -/
def Node.messageWithNumber (x : Binary64) : Node .message :=
  (Node.default .message).setBag (some ⟨[("x", .number (.float x))]⟩)

/-- A message that stores a zero does not have the hash of every message equal to it. -/
theorem Node.messageWithNumber_zero_respects_not :
    (Node.messageWithNumber .zero).WellFormed ∧
      ¬ ∀ y : Node .message, y.WellFormed → (Node.messageWithNumber .zero).same y = true →
        (Node.messageWithNumber .zero).hash = y.hash := by
  have wellFormed : (Node.messageWithNumber .zero).WellFormed := by
    refine ⟨trivial, trivial, trivial, trivial, ⟨List.nodup_singleton _, ?_⟩, trivial⟩
    intro entry member
    obtain rfl := List.mem_singleton.mp member
    exact rfl
  have noNaN : (Node.messageWithNumber .zero).NoNaN :=
    ⟨trivial, trivial, trivial, trivial, ⟨trivial, fun _ _ => trivial⟩, trivial⟩
  refine ⟨wellFormed, fun respects => ?_⟩
  have noZero := ((Node.hash_respects_same _ wellFormed).2 noNaN).mp respects
  have none := noZero.2.2.2.2.1.2 _ (List.mem_singleton_self _)
  exact List.cons_ne_nil _ _ none

/-- Messages that store zeros of different signs are equal and have different hashes. -/
example : (Node.messageWithNumber .zero).same (Node.messageWithNumber .negativeZero) = true ∧
    (Node.messageWithNumber .zero).hash ≠ (Node.messageWithNumber .negativeZero).hash :=
  ⟨rfl, by decide +kernel⟩

end Sarif
