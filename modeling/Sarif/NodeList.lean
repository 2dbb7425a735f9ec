/-!
# Lists with empty slots

A list of nodes may have slots that hold nothing. They keep their position through everything
that is done to the list; `populated` is the list without them.
-/

namespace Sarif

/-- A list whose slots may be empty. -/
abbrev NodeList (α : Type) := List (Option α)

namespace NodeList

variable {α : Type}

/-- The list in which every slot holds something. -/
def ofFull (items : List α) : NodeList α :=
  items.map some

/-- What the slot at an index holds; nothing if it is empty or there is none. -/
def at? (list : NodeList α) (index : Nat) : Option α :=
  list[index]?.join

/-- Whether there is an empty slot at an index. -/
def isEmptyAt (list : NodeList α) (index : Nat) : Bool :=
  match list[index]? with
  | some none => true
  | _ => false

/-- What the slots hold, in order, without the empty ones. -/
def populated (list : NodeList α) : List α :=
  list.filterMap id

/-- The index of the first slot that holds something the test accepts. -/
def position? (list : NodeList α) (test : α → Bool) : Option Nat :=
  list.findIdx? fun slot => slot.any test

/-- The list with one more slot. -/
def push (list : NodeList α) (slot : Option α) : NodeList α :=
  list ++ [slot]

/-- The list with a change to whatever the slots hold. -/
def mapFull (list : NodeList α) (change : α → α) : NodeList α :=
  list.map (Option.map change)

end NodeList
end Sarif
