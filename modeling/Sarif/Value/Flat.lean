import Sarif.Value.Scalar
import Sarif.Dict

/-!
# Flat values

Values that hold no node: scalars, arrays of scalars, lists with empty slots, and ordered maps.
A sequence folds into the hash of what it stands in item by item; everything else folds in as
one element.
-/

namespace Sarif
namespace Flat

/-- The values of a flat type. -/
abbrev Value : Flat → Type
  | scalar s => s.Value
  | array s => List s.Value
  | slots s => List (Option s.Value)
  | map s => Dict s.Value

/-- The value that a missing field of the type has. -/
def default : (f : Flat) → f.Value
  | scalar s => s.default
  | array _ => []
  | slots _ => []
  | map _ => Dict.empty

/-- Whether two lists are equal item by item. -/
def sameItems {α : Type} (same : α → α → Bool) : List α → List α → Bool
  | [], [] => true
  | x :: xs, y :: ys => same x y && sameItems same xs ys
  | _, _ => false

/-- Whether two slots are both empty, or hold equal values. -/
def sameSlot {α : Type} (same : α → α → Bool) : Option α → Option α → Bool
  | none, none => true
  | some x, some y => same x y
  | _, _ => false

/-- Equality of flat values. -/
def same : (f : Flat) → f.Value → f.Value → Bool
  | scalar s, x, y => s.same x y
  | array s, x, y => sameItems s.same x y
  | slots s, x, y => sameItems (sameSlot s.same) x y
  | map s, x, y => Dict.same s.same x y

/-- Folds slots into a running hash: every slot takes its place, a full one adds its hash. -/
def foldSlots {α : Type} (hash : α → HashCode) (running : HashCode) :
    List (Option α) → HashCode
  | [] => running
  | none :: rest => foldSlots hash (running * 31) rest
  | some x :: rest => foldSlots hash (HashCode.combine (running * 31) (hash x)) rest

/-- Lays the entries of a map over a running hash. -/
def foldEntries {α : Type} (hash : α → HashCode) (running : HashCode) :
    List (String × α) → HashCode
  | [] => running
  | (key, x) :: rest => foldEntries hash (running ^^^ HashCode.ofString key ^^^ hash x) rest

/-- Folds a flat value into a running hash. -/
def fold (running : HashCode) : (f : Flat) → f.Value → HashCode
  | scalar s, x => HashCode.combine running (s.hash x)
  | array s, x => foldSlots s.hash running (List.map some x)
  | slots s, x => foldSlots s.hash running x
  | map s, x => HashCode.combine running (foldEntries s.hash 0 (Dict.entries x))

/-- The structural hash of a flat value by itself. -/
def hash : (f : Flat) → f.Value → HashCode
  | scalar s, x => s.hash x
  | array s, x => foldSlots s.hash HashCode.seed (List.map some x)
  | slots s, x => foldSlots s.hash HashCode.seed x
  | map s, x => foldEntries s.hash 0 (Dict.entries x)

/-- The document of a slot. -/
def slotDocument (s : Scalar) : Option s.Value → Document
  | none => .null
  | some x => s.document x

/-- The members of a map in a document. -/
def memberDocuments (s : Scalar) (entries : List (String × s.Value)) :
    List (Literal × Document) :=
  entries.map fun entry => (Literal.ofString entry.1, s.document entry.2)

/-- The document that a flat value is written as. -/
def document : (f : Flat) → f.Value → Document
  | scalar s, x => s.document x
  | array s, x => .array (List.map s.document x) none
  | slots s, x => .array (List.map (slotDocument s) x) none
  | map s, x => .object (memberDocuments s (Dict.entries x)) .closed

/-- Reads a run of items. -/
def readItems {α : Type} (read : Document → Except Problem α) :
    List Document → Except Problem (List α)
  | [] => .ok []
  | item :: rest => do
    let x ← read item
    return x :: (← readItems read rest)

/-- Reads a run of members. -/
def readEntries {α : Type} (read : Document → Except Problem α) :
    List (Literal × Document) → Except Problem (List (String × α))
  | [] => .ok []
  | (name, value) :: rest => do
    let name ← name.read
    let x ← read value
    return (name, x) :: (← readEntries read rest)

/-- Reads an array with a reader for its items. -/
def readArray {α : Type} (source : Source) (read : Source → Document → Except Problem α) :
    Document → Except Problem (List α)
  | .array items defect => do
    let inner ← source.enter
    let values ← readItems (read inner) items
    Problem.guard defect
    return values
  | d => d.refuse source .sequence

/-- Reads an ordered map with a reader for its values. -/
def readMap {α : Type} (source : Source) (read : Source → Document → Except Problem α) :
    Document → Except Problem (Dict α)
  | .object members ending => do
    let inner ← source.enter
    let entries ← readEntries (read inner) members
    Problem.guard ending.defect?
    return Dict.ofList entries
  | d => d.refuse source .map

/-- Reads a flat value. -/
def read (source : Source) : (f : Flat) → Document → Except Problem f.Value
  | scalar s, d => s.read source d
  | array s, d => readArray source (fun inner => s.read inner) d
  | slots s, d => readArray source (fun inner => Document.readOptional (s.read inner)) d
  | map s, d => readMap source (fun inner => s.read inner) d

end Flat
end Sarif
