import Mathlib.Data.List.Forall2
import Mathlib.Data.List.Induction
import Mathlib.Data.List.Nodup
import Sarif.Dict

/-!
# Keys of dictionaries

Looking up finds an entry and, while the keys are distinct, every entry. Inserting keeps the keys
distinct, so the dictionary of a list of entries has no key twice and holds nothing that was not in
the list; a list whose keys are distinct is kept as it stands. What is inserted or erased under one
key leaves the entries under the others as they are.
-/

namespace Sarif

/-! ## First occurrences -/

section FirstOccurrences

variable {α : Type} [BEq α] [LawfulBEq α]

/-- An item that occurred before is no first occurrence. -/
theorem eraseDups_concat_of_mem {xs : List α} {x : α} (before : x ∈ xs) :
    (xs ++ [x]).eraseDups = xs.eraseDups := by
  simp [List.eraseDups_append, List.removeAll, before]

/-- An item that did not occur before is a first occurrence. -/
theorem eraseDups_concat_of_notMem {xs : List α} {x : α} (fresh : x ∉ xs) :
    (xs ++ [x]).eraseDups = xs.eraseDups ++ [x] := by
  simp [List.eraseDups_append, List.removeAll, fresh, List.eraseDups_cons]

/-- First occurrences are distinct. -/
theorem nodup_eraseDups (xs : List α) : xs.eraseDups.Nodup := by
  induction xs using List.reverseRecOn with
  | nil => exact List.nodup_nil
  | append_singleton xs x inductionHypothesis =>
      by_cases before : x ∈ xs
      · rw [eraseDups_concat_of_mem before]
        exact inductionHypothesis
      · rw [eraseDups_concat_of_notMem before, ← List.concat_eq_append]
        exact inductionHypothesis.concat (mt List.mem_eraseDups.mp before)

end FirstOccurrences

namespace Dict

variable {α : Type}

instance (d : Dict α) : Decidable d.WellFormed :=
  inferInstanceAs (Decidable d.keys.Nodup)

/-- Entries with the same keys and related values, one by one, after those of the second run are put
into another order. -/
def Aligned {β : Type} (relate : α → β → Prop) (entries : List (String × α))
    (others : List (String × β)) : Prop :=
  ∃ reordered, others.Perm reordered ∧
    List.Forall₂ (fun one other => one.1 = other.1 ∧ relate one.2 other.2) entries reordered

/-- Aligned entries have the same keys. -/
theorem Aligned.keys_perm {β : Type} {relate : α → β → Prop} {entries : List (String × α)}
    {others : List (String × β)} (aligned : Aligned relate entries others) :
    (entries.map Prod.fst).Perm (others.map Prod.fst) := by
  obtain ⟨reordered, perm, each⟩ := aligned
  have keys : entries.map Prod.fst = reordered.map Prod.fst := by
    rw [← List.forall₂_eq_eq_eq, List.forall₂_map_left_iff, List.forall₂_map_right_iff]
    exact each.imp fun _ _ pair => pair.1
  rw [keys]
  exact (perm.map Prod.fst).symm

/-! ## Looking up -/

/-- What is found under a key stands among the entries. -/
theorem mem_of_lookup {key : String} {value : α} {entries : List (String × α)}
    (found : lookup key entries = some value) : (key, value) ∈ entries := by
  induction entries with
  | nil => simp [lookup] at found
  | cons entry rest inductionHypothesis =>
      obtain ⟨other, held⟩ := entry
      by_cases here : other = key
      · obtain rfl : held = value := by simpa [lookup, here] using found
        simp [here]
      · have later : lookup key rest = some value := by simpa [lookup, here] using found
        exact List.mem_cons_of_mem _ (inductionHypothesis later)

/-- An entry of a list with distinct keys is what is found under its key. -/
theorem lookup_of_mem {key : String} {value : α} {entries : List (String × α)}
    (distinct : (entries.map Prod.fst).Nodup) (member : (key, value) ∈ entries) :
    lookup key entries = some value := by
  induction entries with
  | nil => simp at member
  | cons entry rest inductionHypothesis =>
      obtain ⟨other, held⟩ := entry
      simp only [List.map_cons, List.nodup_cons] at distinct
      rcases List.mem_cons.mp member with equal | later
      · obtain ⟨rfl, rfl⟩ := Prod.mk.inj equal
        simp [lookup]
      · have other_ne : other ≠ key := by
          rintro rfl
          exact distinct.1 (List.mem_map_of_mem later)
        simpa [lookup, other_ne] using inductionHypothesis distinct.2 later

/-- What is found under a key does not depend on the order of the entries while the keys are
distinct. -/
theorem lookup_eq_of_perm {entries others : List (String × α)}
    (distinct : (entries.map Prod.fst).Nodup) (perm : entries.Perm others) (key : String) :
    lookup key others = lookup key entries := by
  have stillDistinct : (others.map Prod.fst).Nodup := (perm.map Prod.fst).nodup_iff.mp distinct
  apply Option.ext
  intro value
  constructor
  · intro found
    exact lookup_of_mem distinct (perm.mem_iff.mpr (mem_of_lookup found))
  · intro found
    exact lookup_of_mem stillDistinct (perm.mem_iff.mp (mem_of_lookup found))

/-- A key is missing exactly if nothing is found under it. -/
theorem lookup_eq_none_iff {key : String} {entries : List (String × α)} :
    lookup key entries = none ↔ key ∉ entries.map Prod.fst := by
  induction entries with
  | nil => simp [lookup]
  | cons entry rest inductionHypothesis =>
      obtain ⟨other, held⟩ := entry
      by_cases here : other = key
      · simp [lookup, here]
      · simp [lookup, here, inductionHypothesis, Ne.symm here]

/-- Entries with distinct keys can be told from the keys and from what is found under them. -/
theorem entries_eq_of_lookup {entries others : List (String × α)}
    (distinct : (entries.map Prod.fst).Nodup) (keys : entries.map Prod.fst = others.map Prod.fst)
    (held : ∀ key, lookup key entries = lookup key others) : entries = others := by
  have found (entries : List (String × α)) (distinct : (entries.map Prod.fst).Nodup) :
      (entries.map Prod.fst).map (fun key => (key, lookup key entries)) =
        entries.map fun entry => (entry.1, some entry.2) := by
    rw [List.map_map]
    refine List.map_congr_left fun entry inside => ?_
    exact congrArg (Prod.mk entry.1) (lookup_of_mem distinct inside)
  have same : entries.map (fun entry => (entry.1, some entry.2)) =
      others.map fun entry => (entry.1, some entry.2) := by
    rw [← found entries distinct, ← found others (keys ▸ distinct), keys]
    exact List.map_congr_left fun key _ => congrArg (Prod.mk key) (held key)
  refine List.map_injective_iff.mpr ?_ same
  rintro ⟨one, value⟩ ⟨other, held⟩ equal
  simpa using equal

/-! ## Inserting -/

/-- An entry of a list into which a value is put is the new one or was there before. -/
theorem mem_put {key : String} {value : α} {entry : String × α} {entries : List (String × α)}
    (inside : entry ∈ put key value entries) : entry = (key, value) ∨ entry ∈ entries := by
  induction entries with
  | nil => exact .inl (List.mem_singleton.mp inside)
  | cons first rest inductionHypothesis =>
      obtain ⟨other, held⟩ := first
      rw [put] at inside
      split at inside
      · next same =>
          subst same
          exact (List.mem_cons.mp inside).imp id (List.mem_cons_of_mem _)
      · rcases List.mem_cons.mp inside with rfl | later
        · exact .inr (List.mem_cons_self ..)
        · exact (inductionHypothesis later).imp id (List.mem_cons_of_mem _)

/-- Keys stay distinct when a value is put under one. -/
theorem nodup_put (key : String) (value : α) {entries : List (String × α)}
    (distinct : (entries.map Prod.fst).Nodup) : ((put key value entries).map Prod.fst).Nodup := by
  induction entries with
  | nil => exact List.nodup_singleton _
  | cons first rest inductionHypothesis =>
      obtain ⟨other, held⟩ := first
      obtain ⟨fresh, tail⟩ := List.nodup_cons.mp distinct
      rw [put]
      split
      · exact distinct
      · next different =>
          refine List.nodup_cons.mpr ⟨fun inside => ?_, inductionHypothesis tail⟩
          obtain ⟨entry, held, same⟩ := List.mem_map.mp inside
          rcases mem_put held with rfl | earlier
          · exact different same.symm
          · exact fresh (List.mem_map.mpr ⟨entry, earlier, same⟩)

/-- Putting a value back under the key under which it is found changes nothing. -/
theorem put_of_lookup {key : String} {value : α} {entries : List (String × α)}
    (found : lookup key entries = some value) : put key value entries = entries := by
  induction entries with
  | nil => cases found
  | cons entry rest inductionHypothesis =>
      obtain ⟨other, held⟩ := entry
      rw [put]
      by_cases here : other = key
      · obtain rfl : held = value := by simpa [lookup, here] using found
        rw [if_pos here]
      · have later : lookup key rest = some value := by simpa [lookup, here] using found
        rw [if_neg here, inductionHypothesis later]

section Put

variable {key : String} {value : α}

/-- The keys are those that were there, with the new one at the end if it was missing. -/
theorem map_fst_put (entries : List (String × α)) :
    (put key value entries).map Prod.fst =
      if key ∈ entries.map Prod.fst then entries.map Prod.fst
      else entries.map Prod.fst ++ [key] := by
  induction entries with
  | nil => rfl
  | cons entry rest inductionHypothesis =>
      obtain ⟨other, held⟩ := entry
      by_cases here : other = key
      · simp [put, here]
      · by_cases later : key ∈ rest.map Prod.fst <;>
          simp_all [put, Ne.symm here]

/-- What was put under a key is found there. -/
theorem lookup_put (entries : List (String × α)) :
    lookup key (put key value entries) = some value := by
  induction entries with
  | nil => simp [put, lookup]
  | cons entry rest inductionHypothesis =>
      obtain ⟨other, held⟩ := entry
      by_cases here : other = key <;> simp [put, lookup, here, inductionHypothesis]

/-- What is put under one key does not touch the entries of the others, nor their order. -/
theorem filter_put (entries : List (String × α)) :
    (put key value entries).filter (fun entry => entry.1 ≠ key) =
      entries.filter (fun entry => entry.1 ≠ key) := by
  induction entries with
  | nil => simp [put]
  | cons entry rest inductionHypothesis =>
      obtain ⟨other, held⟩ := entry
      by_cases here : other = key <;> simp_all [put]

/-- What is put under one key does not touch what is found under another. -/
theorem lookup_put_of_ne {other : String} (apart : other ≠ key) (entries : List (String × α)) :
    lookup other (put key value entries) = lookup other entries := by
  induction entries with
  | nil => simp [put, lookup, Ne.symm apart]
  | cons entry rest inductionHypothesis =>
      obtain ⟨first, held⟩ := entry
      by_cases here : first = key
      · subst here
        simp [put, lookup, Ne.symm apart]
      · simp [put, lookup, here, inductionHypothesis]

end Put

/-- The dictionary of a list of entries has no key twice. -/
theorem wellFormed_ofList (entries : List (String × α)) : (ofList entries).WellFormed := by
  refine List.foldlRecOn entries _ List.nodup_nil ?_
  intro d distinct entry _
  exact nodup_put entry.1 entry.2 distinct

/-- An entry of the dictionary of a list was in the list. -/
theorem mem_of_mem_ofList {entry : String × α} {entries : List (String × α)}
    (inside : entry ∈ (ofList entries).entries) : entry ∈ entries := by
  have given : ∀ held ∈ (ofList entries).entries, held ∈ entries := by
    refine List.foldlRecOn (motive := fun d : Dict α => ∀ held ∈ d.entries, held ∈ entries)
      entries _ (fun _ none => absurd none List.not_mem_nil) ?_
    intro d before new member held placed
    rcases mem_put placed with rfl | earlier
    · exact member
    · exact before held earlier
  exact given entry inside

/-- A new key goes to the end. -/
theorem put_of_notMem {key : String} (value : α) {entries : List (String × α)}
    (fresh : key ∉ entries.map Prod.fst) : put key value entries = entries ++ [(key, value)] := by
  induction entries with
  | nil => rfl
  | cons entry rest inductionHypothesis =>
      obtain ⟨other, held⟩ := entry
      rw [List.map_cons, List.mem_cons, not_or] at fresh
      rw [put, if_neg (Ne.symm fresh.1), inductionHypothesis fresh.2, List.cons_append]

/-- Entries of distinct keys are inserted one behind the other. -/
theorem foldl_insert (before entries : List (String × α))
    (distinct : ((before ++ entries).map Prod.fst).Nodup) :
    entries.foldl (fun (d : Dict α) entry => d.insert entry.1 entry.2) ⟨before⟩ =
      ⟨before ++ entries⟩ := by
  induction entries generalizing before with
  | nil => simp
  | cons entry rest inductionHypothesis =>
      have fresh : entry.1 ∉ before.map Prod.fst := by
        intro member
        rw [List.map_append, List.nodup_append] at distinct
        exact distinct.2.2 _ member _ (List.mem_map_of_mem (List.mem_cons_self ..)) rfl
      have regrouped : before ++ entry :: rest = before ++ [entry] ++ rest := by simp
      rw [List.foldl_cons, Dict.insert, put_of_notMem entry.2 fresh, regrouped]
      exact inductionHypothesis (before ++ [entry]) (regrouped ▸ distinct)

/-- Entries of distinct keys make the dictionary that holds them in their order. -/
theorem ofList_of_nodup {entries : List (String × α)} (distinct : (entries.map Prod.fst).Nodup) :
    ofList entries = ⟨entries⟩ :=
  foldl_insert [] entries distinct

/-- The keys of a dictionary are those that were there, with the new one at the end if it was
missing. -/
theorem keys_insert (d : Dict α) (key : String) (value : α) :
    (d.insert key value).keys = if key ∈ d.keys then d.keys else d.keys ++ [key] :=
  map_fst_put d.entries

/-- The dictionary of a list with one entry more. -/
theorem ofList_concat (entries : List (String × α)) (entry : String × α) :
    ofList (entries ++ [entry]) = (ofList entries).insert entry.1 entry.2 :=
  List.foldl_concat ..

/-- The keys of the dictionary of a list are the first occurrences of the keys in the list. -/
theorem keys_ofList (entries : List (String × α)) :
    (ofList entries).keys = (entries.map Prod.fst).eraseDups := by
  induction entries using List.reverseRecOn with
  | nil => rfl
  | append_singleton entries entry inductionHypothesis =>
      rw [ofList_concat, keys_insert, inductionHypothesis, List.map_append, List.map_cons,
        List.map_nil]
      split
      · next before => exact (eraseDups_concat_of_mem (List.mem_eraseDups.mp before)).symm
      · next fresh => exact (eraseDups_concat_of_notMem (mt List.mem_eraseDups.mpr fresh)).symm

/-- What the dictionary of a list holds under a key is the last value under it in the list. -/
theorem get?_ofList (entries : List (String × α)) (key : String) :
    (ofList entries).get? key = lookup key entries.reverse := by
  induction entries using List.reverseRecOn with
  | nil => rfl
  | append_singleton entries entry inductionHypothesis =>
      obtain ⟨other, value⟩ := entry
      rw [ofList_concat, List.reverse_append, List.reverse_singleton, List.singleton_append, lookup]
      split
      · next here => exact here ▸ lookup_put _
      · next apart => exact (lookup_put_of_ne (Ne.symm apart) _).trans inductionHypothesis

/-! ## Erasing -/

variable {key : String}

/-- Entries without the first one under a key are entries of the list, in their order. -/
theorem drop_sublist (key : String) (entries : List (String × α)) :
    (drop key entries).Sublist entries := by
  induction entries with
  | nil => exact .slnil
  | cons entry rest inductionHypothesis =>
      rw [drop]
      split
      · exact .cons _ (.refl _)
      · exact inductionHypothesis.cons_cons _

/-- What is erased under one key does not touch the entries of the others, nor their order. -/
theorem filter_drop (entries : List (String × α)) :
    (drop key entries).filter (fun entry => entry.1 ≠ key) =
      entries.filter (fun entry => entry.1 ≠ key) := by
  induction entries with
  | nil => rfl
  | cons entry rest inductionHypothesis =>
      obtain ⟨other, held⟩ := entry
      by_cases here : other = key <;> simp_all [drop]

/-- The keys are the others, in their order. -/
theorem map_fst_drop (entries : List (String × α)) :
    (drop key entries).map Prod.fst = (entries.map Prod.fst).erase key := by
  induction entries with
  | nil => rfl
  | cons entry rest inductionHypothesis =>
      obtain ⟨other, held⟩ := entry
      by_cases here : other = key
      · simp [drop, here]
      · rw [drop, if_neg here, List.map_cons, List.map_cons, inductionHypothesis,
          List.erase_cons_tail (by simpa using here)]

/-- What is erased under one key does not touch what is found under another. -/
theorem lookup_drop_of_ne {other : String} (apart : other ≠ key) (entries : List (String × α)) :
    lookup other (drop key entries) = lookup other entries := by
  induction entries with
  | nil => rfl
  | cons entry rest inductionHypothesis =>
      obtain ⟨first, held⟩ := entry
      by_cases here : first = key
      · subst here
        simp [drop, lookup, Ne.symm apart]
      · simp [drop, lookup, here, inductionHypothesis]

/-- Nothing is found under a key that was erased, while the keys are distinct. -/
theorem lookup_drop {entries : List (String × α)} (distinct : (entries.map Prod.fst).Nodup) :
    lookup key (drop key entries) = none := by
  induction entries with
  | nil => rfl
  | cons entry rest inductionHypothesis =>
      obtain ⟨other, held⟩ := entry
      obtain ⟨fresh, tail⟩ := List.nodup_cons.mp distinct
      by_cases here : other = key
      · subst here
        rw [drop, if_pos rfl]
        refine Option.eq_none_iff_forall_not_mem.mpr fun value found => fresh ?_
        exact List.mem_map.mpr ⟨(other, value), mem_of_lookup found, rfl⟩
      · rw [drop, if_neg here, lookup, if_neg here, inductionHypothesis tail]

end Dict
end Sarif
