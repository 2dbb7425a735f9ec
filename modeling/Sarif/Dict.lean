/-!
# Ordered dictionaries

A `Dict` keeps its entries in the order in which their keys first came in. Inserting under a
key that is present replaces the value in place; erasing keeps the order of the rest. Two
dictionaries compare equal when they hold the same values under the same keys, whatever the
order.
-/

namespace Sarif

/-- A dictionary with string keys that remembers the order of its entries. -/
structure Dict (α : Type) where
  entries : List (String × α)

namespace Dict

variable {α : Type}

/-- The dictionary with no entries. -/
def empty : Dict α := ⟨[]⟩

/-- The number of entries. -/
def size (d : Dict α) : Nat :=
  d.entries.length

/-- The keys, in order. -/
def keys (d : Dict α) : List String :=
  d.entries.map Prod.fst

/-- The first value under `key` in a list of entries. -/
def lookup (key : String) : List (String × α) → Option α
  | [] => none
  | (k, v) :: rest => if k = key then some v else lookup key rest

/-- The value under a key. -/
def get? (d : Dict α) (key : String) : Option α :=
  lookup key d.entries

/-- A key under which a value is found is one of the keys. -/
theorem mem_keys_of_get? {d : Dict α} {key : String} {value : α}
    (found : d.get? key = some value) : key ∈ d.keys := by
  obtain ⟨entries⟩ := d
  induction entries with
  | nil => cases found
  | cons entry rest ih =>
    simp only [get?, lookup] at found
    split at found
    · next here => exact here ▸ List.mem_cons_self
    · exact List.mem_cons_of_mem _ (ih found)

/-- Whether a key is present. -/
def contains (d : Dict α) (key : String) : Bool :=
  (d.get? key).isSome

/-- A list of entries with `value` under `key`: in place if the key is present, else at the
end. -/
def put (key : String) (value : α) : List (String × α) → List (String × α)
  | [] => [(key, value)]
  | (k, v) :: rest => if k = key then (k, value) :: rest else (k, v) :: put key value rest

/-- The dictionary with `value` under `key`. -/
def insert (d : Dict α) (key : String) (value : α) : Dict α :=
  ⟨put key value d.entries⟩

/-- A list of entries without the first one under `key`. -/
def drop (key : String) : List (String × α) → List (String × α)
  | [] => []
  | (k, v) :: rest => if k = key then rest else (k, v) :: drop key rest

/-- The dictionary without a key. -/
def erase (d : Dict α) (key : String) : Dict α :=
  ⟨drop key d.entries⟩

/-- The dictionary of a list of entries: a repeated key keeps its first position and takes its
last value. -/
def ofList (entries : List (String × α)) : Dict α :=
  entries.foldl (fun d entry => d.insert entry.1 entry.2) empty

/-- Whether every entry of a list is found, with an equal value, in a dictionary. -/
def subsumedBy (same : α → α → Bool) (d : Dict α) : List (String × α) → Bool
  | [] => true
  | (key, value) :: rest =>
    (match d.get? key with
      | some other => same value other
      | none => false) && subsumedBy same d rest

/-- Whether two dictionaries hold equal values under the same keys. -/
def same (sameValue : α → α → Bool) (d e : Dict α) : Bool :=
  d.size == e.size && subsumedBy sameValue e d.entries

/-- The dictionary with its entries in the order of their keys. -/
def sorted (d : Dict α) : Dict α :=
  ⟨d.entries.mergeSort fun a b => decide (a.1 ≤ b.1)⟩

/-- A well-formed dictionary has no key twice. -/
def WellFormed (d : Dict α) : Prop :=
  d.keys.Nodup

end Dict
end Sarif
