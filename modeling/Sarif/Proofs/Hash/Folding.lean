import Mathlib.Data.List.Nodup
import Mathlib.Data.List.Perm.Subperm
import Sarif.Json.Basic
import Sarif.Node.Hash
import Sarif.Proofs.Node.Related
import Sarif.Proofs.Node.WellFormed

/-!
# What folding keeps apart and what it identifies

Every step that folds an element into a running hash can be undone: multiplication by 31 is
invertible modulo `2 ^ 32`, and so is an exclusive or. Two running hashes that differ therefore
still differ after the same elements are folded in. What an entry of a map adds, on the other
hand, does not depend on where the entry stands, so maps that hold the same under each key fold
alike.
-/

namespace Sarif

namespace HashCode

/-- Multiplication by 31 loses nothing. -/
theorem mul_31_injective {a b : HashCode} (equal : a * 31 = b * 31) : a = b := by
  have inverse : (31 : HashCode) * 3186588639 = 1 := by decide
  calc a = a * (31 * 3186588639) := by rw [inverse, UInt32.mul_one]
    _ = b * (31 * 3186588639) := by rw [← UInt32.mul_assoc, equal, UInt32.mul_assoc]
    _ = b := by rw [inverse, UInt32.mul_one]

/-- Folding in one element keeps running hashes apart. -/
theorem combine_left_injective {a b element : HashCode}
    (equal : combine a element = combine b element) : a = b :=
  mul_31_injective ((UInt32.add_left_inj element).mp equal)

/-- Into one running hash, different elements fold differently. -/
theorem combine_right_injective {running a b : HashCode}
    (equal : combine running a = combine running b) : a = b :=
  (UInt32.add_right_inj (running * 31)).mp equal

/-- Laying an element over running hashes keeps them apart. -/
theorem xor_right_injective {a b element : HashCode} (equal : a ^^^ element = b ^^^ element) :
    a = b := by
  have cancelled := congrArg (· ^^^ element) equal
  simpa [UInt32.xor_assoc] using cancelled

/-- Over one running hash, different elements lie differently. -/
theorem xor_left_injective {running a b : HashCode} (equal : running ^^^ a = running ^^^ b) :
    a = b := by
  rw [UInt32.xor_comm running a, UInt32.xor_comm running b] at equal
  exact xor_right_injective equal

end HashCode

open HashCode

/-! ## Running hashes stay apart -/

namespace Json

/-- Running hashes stay apart when a run of items is folded in. -/
theorem foldItems_injective (items : List Json) {a b : HashCode}
    (equal : foldItems a items = foldItems b items) : a = b := by
  induction items generalizing a b with
  | nil => simpa [foldItems] using equal
  | cons item rest inductionHypothesis =>
      have before := inductionHypothesis (by simpa [foldItems] using equal)
      exact mul_31_injective (combine_left_injective before)

/-- Running hashes stay apart when a run of members is laid over them. -/
theorem foldMembers_injective (members : List (String × Json)) {a b : HashCode}
    (equal : foldMembers a members = foldMembers b members) : a = b := by
  induction members generalizing a b with
  | nil => simpa [foldMembers] using equal
  | cons member rest inductionHypothesis =>
      have before := inductionHypothesis (by simpa [foldMembers] using equal)
      exact xor_right_injective (xor_right_injective before)

end Json

namespace Flat

variable {α : Type} (hash : α → HashCode)

/-- Running hashes stay apart when slots are folded in. -/
theorem foldSlots_injective (slots : List (Option α)) {a b : HashCode}
    (equal : foldSlots hash a slots = foldSlots hash b slots) : a = b := by
  induction slots generalizing a b with
  | nil => simpa [foldSlots] using equal
  | cons slot rest inductionHypothesis =>
      cases slot with
      | none => exact mul_31_injective (inductionHypothesis (by simpa [foldSlots] using equal))
      | some x =>
          have before := inductionHypothesis (by simpa [foldSlots] using equal)
          exact mul_31_injective (combine_left_injective before)

/-- Running hashes stay apart when the entries of a map are laid over them. -/
theorem foldEntries_injective (entries : List (String × α)) {a b : HashCode}
    (equal : foldEntries hash a entries = foldEntries hash b entries) : a = b := by
  induction entries generalizing a b with
  | nil => simpa [foldEntries] using equal
  | cons entry rest inductionHypothesis =>
      have before := inductionHypothesis (by simpa [foldEntries] using equal)
      exact xor_right_injective (xor_right_injective before)

/-- Running hashes stay apart when a flat value is folded in. -/
theorem fold_injective (f : Flat) (x : f.Value) {a b : HashCode}
    (equal : Flat.fold a f x = Flat.fold b f x) : a = b := by
  cases f with
  | scalar s => exact combine_left_injective equal
  | array s => exact foldSlots_injective _ _ equal
  | slots s => exact foldSlots_injective _ _ equal
  | map s => exact combine_left_injective equal

end Flat

/-- Running hashes stay apart when a list of nodes is folded in. -/
theorem Slots.fold_injective : {k : Kind} → (s : Slots k) → {a b : HashCode} →
    s.fold a = s.fold b → a = b
  | _, .nil, _, _, equal => by simpa [Slots.fold] using equal
  | _, .empty rest, _, _, equal =>
      mul_31_injective (Slots.fold_injective rest (by simpa [Slots.fold] using equal))
  | _, .full _ rest, _, _, equal => by
      have before := Slots.fold_injective rest (by simpa [Slots.fold] using equal)
      exact mul_31_injective (combine_left_injective before)

/-- Running hashes stay apart when the entries of a map of nodes are laid over them. -/
theorem Entries.fold_injective : {k : Kind} → (e : Entries k) → {a b : HashCode} →
    e.fold a = e.fold b → a = b
  | _, .nil, _, _, equal => by simpa [Entries.fold] using equal
  | _, .cons _ _ rest, _, _, equal => by
      have before := Entries.fold_injective rest (by simpa [Entries.fold] using equal)
      exact xor_right_injective (xor_right_injective before)

/-- Running hashes stay apart when a value is folded in. -/
theorem Value.fold_injective {t : Ty} (v : Value t) {a b : HashCode}
    (equal : v.fold a = v.fold b) : a = b := by
  cases v with
  | flat x => exact Flat.fold_injective _ x (by simpa [Value.fold] using equal)
  | node n => exact combine_left_injective (by simpa [Value.fold] using equal)
  | nodes s => exact Slots.fold_injective s (by simpa [Value.fold] using equal)
  | nodeMap e => exact combine_left_injective (by simpa [Value.fold] using equal)

/-- Running hashes stay apart when a field is folded in. -/
theorem FieldValue.fold_injective {t : FieldType} (v : FieldValue t) {a b : HashCode}
    (equal : v.fold a = v.fold b) : a = b := by
  cases v with
  | required v => exact Value.fold_injective v (by simpa [FieldValue.fold] using equal)
  | absent => simpa [FieldValue.fold] using equal
  | present v => exact Value.fold_injective v (by simpa [FieldValue.fold] using equal)

/-- Running hashes stay apart when a record is folded in. -/
theorem Record.fold_injective : {fs : List Field} → (r : Record fs) → {a b : HashCode} →
    r.fold a = r.fold b → a = b
  | _, .nil, _, _, equal => by simpa [Record.fold] using equal
  | _, .cons v rest, _, _, equal =>
      FieldValue.fold_injective v
        (Record.fold_injective rest (by simpa [Record.fold] using equal))

/-! ## Maps fold by what they hold -/

section Maps

variable {α β : Type}

/-- Entries with distinct keys, found one by one up to `view` among equally many others, are the
others up to `view` and order. -/
theorem perm_of_found (view : α → β) {entries others : List (String × α)}
    (distinct : (entries.map Prod.fst).Nodup) (lengths : entries.length = others.length)
    (found : ∀ entry ∈ entries, ∃ value,
      Dict.lookup entry.1 others = some value ∧ view entry.2 = view value) :
    (entries.map fun entry => (entry.1, view entry.2)).Perm
      (others.map fun entry => (entry.1, view entry.2)) := by
  apply List.Subperm.perm_of_length_le _ (by simp [lengths])
  apply List.subperm_of_subset
  · refine List.Nodup.of_map Prod.fst ?_
    simpa [List.map_map, Function.comp_def] using distinct
  · intro pair member
    obtain ⟨entry, inside, rfl⟩ := List.mem_map.mp member
    obtain ⟨value, lookup, equal⟩ := found entry inside
    exact List.mem_map.mpr ⟨(entry.1, value), Dict.mem_of_lookup lookup, by simp [equal]⟩

/-- A map folds as the exclusive or of what its entries add. -/
theorem Flat.foldEntries_eq_foldl (hash : α → HashCode) (running : HashCode)
    (entries : List (String × α)) :
    Flat.foldEntries hash running entries =
      (entries.map fun entry => (entry.1, hash entry.2)).foldl
        (fun total pair => total ^^^ ofString pair.1 ^^^ pair.2) running := by
  induction entries generalizing running with
  | nil => rfl
  | cons entry rest inductionHypothesis => exact inductionHypothesis _

/-- Maps that hold values of one hash under the same keys fold alike, whatever the order. -/
theorem Flat.foldEntries_eq_of_found (hash : α → HashCode) {entries others : List (String × α)}
    (distinct : (entries.map Prod.fst).Nodup) (lengths : entries.length = others.length)
    (found : ∀ entry ∈ entries, ∃ value,
      Dict.lookup entry.1 others = some value ∧ hash entry.2 = hash value)
    (running : HashCode) :
    Flat.foldEntries hash running entries = Flat.foldEntries hash running others := by
  have perm := perm_of_found hash distinct lengths found
  rw [Flat.foldEntries_eq_foldl, Flat.foldEntries_eq_foldl]
  refine perm.foldl_eq' (fun one _ other _ total => ?_) running
  simp only [UInt32.xor_assoc]
  rw [UInt32.xor_comm one.2, ← UInt32.xor_assoc (ofString one.1), UInt32.xor_comm (ofString one.1),
    UInt32.xor_assoc, UInt32.xor_assoc, UInt32.xor_comm (ofString one.1)]

end Maps

/-! ## Related nodes fold alike -/

namespace Flat

/-- Slots of equal hash fold alike. -/
theorem foldSlots_eq_of_forall₂ {α : Type} (hash : α → HashCode) {xs ys : List (Option α)}
    (related : List.Forall₂ (Option.Rel fun x y => hash x = hash y) xs ys) (running : HashCode) :
    foldSlots hash running xs = foldSlots hash running ys := by
  induction related generalizing running with
  | nil => rfl
  | cons head _ inductionHypothesis =>
      cases head with
      | none => exact inductionHypothesis _
      | some equal => simp only [foldSlots, equal, inductionHypothesis]

/-- Flat values of one type whose scalars have equal hashes fold alike. -/
theorem fold_eq_of_related {scalar : (s : Scalar) → s.Value → Prop} (f : Flat) (x y : f.Value)
    (distinct : Flat.Each scalar List.Nodup f x)
    (related : Flat.Related (fun s a b => s.hash a = s.hash b) f x y) (running : HashCode) :
    Flat.fold running f x = Flat.fold running f y := by
  cases f with
  | scalar s => exact congrArg (combine running) related
  | array s =>
      refine foldSlots_eq_of_forall₂ s.hash ?_ running
      exact List.forall₂_map_left_iff.mpr (List.forall₂_map_right_iff.mpr
        (related.imp fun _ _ equal => .some equal))
  | slots s => exact foldSlots_eq_of_forall₂ s.hash related running
  | map s =>
      refine congrArg (combine running) ?_
      exact foldEntries_eq_of_found s.hash distinct.1 related.1 related.2 0

end Flat

namespace Entries

variable {k : Kind}

/-- Nodes fold into the hash of a map as any other entries do. -/
theorem fold_eq_foldEntries : (e : Entries k) → (running : HashCode) →
    e.fold running = Flat.foldEntries Node.hash running e.toList
  | .nil, _ => rfl
  | .cons _ _ rest, _ => by
      simp only [fold, toList, Flat.foldEntries]
      exact fold_eq_foldEntries rest _

end Entries

section Related

variable {scalar : (s : Scalar) → s.Value → Prop}

mutual

/-- Nodes whose scalars have equal hashes have equal hashes. -/
theorem Node.hash_eq_of_related : {k : Kind} → (n m : Node k) →
    n.Each scalar List.Nodup → n.Related (fun s a b => s.hash a = s.hash b) m → n.hash = m.hash
  | _, .mk fields, .mk others => by
      intro distinct related
      exact Record.fold_eq_of_related fields others distinct related seed

/-- Values whose scalars have equal hashes fold alike. -/
theorem Value.fold_eq_of_related : {t : Ty} → (v w : Value t) →
    v.Each scalar List.Nodup → v.Related (fun s a b => s.hash a = s.hash b) w →
    ∀ running, v.fold running = w.fold running
  | _, .flat x, .flat y => by
      intro distinct related running
      exact Flat.fold_eq_of_related _ x y distinct related running
  | _, .node n, .node m => by
      intro distinct related running
      exact congrArg (combine running) (Node.hash_eq_of_related n m distinct related)
  | _, .nodes s, .nodes t => by
      intro distinct related running
      exact Slots.fold_eq_of_related s t distinct related running
  | _, .nodeMap e, .nodeMap d => by
      rintro ⟨keysDistinct, distinct⟩ ⟨lengths, related⟩ running
      refine congrArg (combine running) ?_
      rw [Entries.fold_eq_foldEntries, Entries.fold_eq_foldEntries]
      refine Flat.foldEntries_eq_of_found _ ?_ ?_ ?_ 0
      · rwa [← Entries.keys_eq_toList]
      · rwa [← Entries.length_eq_toList, ← Entries.length_eq_toList]
      · exact Entries.found_of_relatedIn e d distinct related

/-- Fields whose scalars have equal hashes fold alike. -/
theorem FieldValue.fold_eq_of_related : {t : FieldType} → (v w : FieldValue t) →
    v.Each scalar List.Nodup → v.Related (fun s a b => s.hash a = s.hash b) w →
    ∀ running, v.fold running = w.fold running
  | _, .required v, .required w => by
      intro distinct related running
      exact Value.fold_eq_of_related v w distinct related running
  | _, .absent, .absent => by
      intro _ _ _
      rfl
  | _, .absent, .present _ => by
      intro _ related
      exact related.elim
  | _, .present _, .absent => by
      intro _ related
      exact related.elim
  | _, .present v, .present w => by
      intro distinct related running
      exact Value.fold_eq_of_related v w distinct related running

/-- Records whose scalars have equal hashes fold alike. -/
theorem Record.fold_eq_of_related : {fs : List Field} → (r s : Record fs) →
    r.Each scalar List.Nodup → r.Related (fun s a b => s.hash a = s.hash b) s →
    ∀ running, r.fold running = s.fold running
  | _, .nil, .nil => by
      intro _ _ _
      rfl
  | _, .cons v rest, .cons w more => by
      rintro ⟨distinct, distincts⟩ ⟨related, relateds⟩ running
      have head := FieldValue.fold_eq_of_related v w distinct related running
      have tail := Record.fold_eq_of_related rest more distincts relateds (w.fold running)
      simpa [Record.fold, head] using tail

/-- Lists of nodes whose scalars have equal hashes fold alike. -/
theorem Slots.fold_eq_of_related : {k : Kind} → (s t : Slots k) →
    s.Each scalar List.Nodup → s.Related (fun s a b => s.hash a = s.hash b) t →
    ∀ running, s.fold running = t.fold running
  | _, .nil, t => by
      cases t with
      | nil => exact fun _ _ _ => rfl
      | _ => exact fun _ related => related.elim
  | _, .empty rest, t => by
      cases t with
      | empty more =>
          intro distinct related running
          exact Slots.fold_eq_of_related rest more distinct related (running * 31)
      | _ => exact fun _ related => related.elim
  | _, .full n rest, t => by
      cases t with
      | full m more =>
          rintro ⟨distinct, distincts⟩ ⟨related, relateds⟩ running
          have head := Node.hash_eq_of_related n m distinct related
          have tail := Slots.fold_eq_of_related rest more distincts relateds
            (combine (running * 31) m.hash)
          simpa [Slots.fold, head] using tail
      | _ => exact fun _ related => related.elim

/-- Every entry of a map finds a node of equal hash under its key in a related map. -/
theorem Entries.found_of_relatedIn : {k : Kind} → (e d : Entries k) →
    e.Each scalar List.Nodup → e.RelatedIn (fun s a b => s.hash a = s.hash b) d →
    ∀ entry ∈ e.toList, ∃ m, Dict.lookup entry.1 d.toList = some m ∧ entry.2.hash = m.hash
  | _, .nil, _ => by
      intro _ _ entry member
      simp [Entries.toList] at member
  | _, .cons key n rest, d => by
      rintro ⟨distinct, distincts⟩ ⟨⟨m, found, related⟩, relateds⟩ entry member
      rcases List.mem_cons.mp member with rfl | later
      · refine ⟨m, ?_, Node.hash_eq_of_related n m distinct related⟩
        rwa [← Entries.lookup_eq_toList]
      · exact Entries.found_of_relatedIn rest d distincts relateds entry later

end

end Related
end Sarif
