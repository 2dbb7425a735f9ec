import Sarif.Proofs.Dict
import Sarif.Proofs.Reading.Scalars
import Sarif.Value.Flat

/-!
# Flat values read back

Arrays, lists with empty slots and ordered maps of scalars are read from the documents that they
are written as. An empty slot is written as null, so a list can only be told from its document
when none of its items is written as null; no field of any kind holds a list of such items.
-/

namespace Sarif

/-! ## What is not null -/

/-- A document that is neither null nor broken. -/
def Document.Shown : Document → Prop
  | .null => False
  | .broken _ => False
  | _ => True

/-- What may be absent is there when its document is not null. -/
theorem Document.readOptional_of_shown {α : Type} (read : Document → Except Problem α)
    {d : Document} (shown : d.Shown) : readOptional read d = (read d).map some := by
  cases d <;> first | rfl | exact shown.elim

/-- Whether some values of a type are written as null. -/
def Scalar.showsNull : Scalar → Bool
  | json => true
  | unit => true
  | _ => false

/-- A finite scalar is not written as null, unless its type has such values. -/
theorem Scalar.document_shown {s : Scalar} (shows : s.showsNull = false) {x : s.Value}
    (finite : s.Finite x) : (s.document x).Shown := by
  cases s with
  | number =>
      have isFinite : Binary64.isFinite x = true := finite
      simp only [document, isFinite, if_true]
      trivial
  | json => cases shows
  | unit => cases shows
  | _ => trivial

/-! ## Runs of items and of members -/

namespace Flat

variable {α : Type} {source : Source} {read : Document → Except Problem α} {write : α → Document}

/-- Items that are read back one by one are read back in a run. -/
theorem readItems_map {items : List α}
    (each : ∀ x ∈ items, read (write x) = source.within (write x).nesting x) :
    readItems read (items.map write) =
      source.within (Document.itemsNesting (items.map write)) items := by
  induction items with
  | nil => exact (source.within_zero _).symm
  | cons item rest inductionHypothesis =>
      have head := each item (List.mem_cons_self ..)
      have tail := inductionHypothesis fun x member => each x (List.mem_cons_of_mem _ member)
      rw [List.map_cons, readItems, Document.itemsNesting, head, tail]
      exact Source.bind_within (Source.bind_within_ok rfl)

/-- Values that are read back one by one are read back under their keys. -/
theorem readEntries_map {entries : List (String × α)}
    (each : ∀ entry ∈ entries,
      read (write entry.2) = source.within (write entry.2).nesting entry.2) :
    readEntries read (entries.map fun entry => (Literal.ofString entry.1, write entry.2)) =
      source.within
        (Document.membersNesting
          (entries.map fun entry => (Literal.ofString entry.1, write entry.2))) entries := by
  induction entries with
  | nil => exact (source.within_zero _).symm
  | cons entry rest inductionHypothesis =>
      obtain ⟨key, value⟩ := entry
      have head := each (key, value) (List.mem_cons_self ..)
      have tail := inductionHypothesis fun other member =>
        each other (List.mem_cons_of_mem _ member)
      rw [List.map_cons, readEntries, Document.membersNesting, Literal.read_ofString, head, tail]
      exact Source.bind_within (Source.bind_within_ok rfl)

end Flat

/-! ## All flat values -/

namespace Flat

/-- Whether the values of a type can all be told from their documents. -/
def legible : Flat → Bool
  | slots s => !s.showsNull
  | _ => true

/-- A flat value of faithful scalars is read from the document that it is written as. -/
theorem read_document (f : Flat) (legible : f.legible = true) (x : f.Value) (source : Source)
    (faithful : Flat.Each (Scalar.Faithful source.float?) List.Nodup f x) :
    Flat.read source f (f.document x) = source.within (f.document x).nesting x := by
  cases f with
  | scalar s => exact s.read_document source faithful
  | array s =>
      exact Source.enter_bind_make
        (fun inner same => readItems_map fun item member =>
          s.read_document inner (same ▸ faithful item member))
        rfl
  | slots s =>
      have shows : s.showsNull = false := by simpa [Flat.legible] using legible
      have each (inner : Source) (same : inner.float? = source.float?) :
          ∀ slot ∈ (x : List (Option s.Value)),
            Document.readOptional (s.read inner) (slotDocument s slot) =
              inner.within (slotDocument s slot).nesting slot := by
        intro slot member
        cases slot with
        | none => exact (inner.within_zero _).symm
        | some item =>
            have whole := faithful _ member item rfl
            have shown := Scalar.document_shown shows whole.2.1
            rw [slotDocument, Document.readOptional_of_shown _ shown,
              s.read_document inner (same ▸ whole)]
            exact inner.map_within _ _ _
      exact Source.enter_bind_make (fun inner same => readItems_map (each inner same)) rfl
  | map s =>
      obtain ⟨distinct, whole⟩ := faithful
      have each (inner : Source) (same : inner.float? = source.float?) :
          ∀ entry ∈ Dict.entries x, s.read inner (s.document entry.2) =
            inner.within (s.document entry.2).nesting entry.2 :=
        fun entry member => s.read_document inner (same ▸ whole entry member)
      exact Source.enter_bind_make (fun inner same => readEntries_map (each inner same))
        (Dict.ofList_of_nodup distinct)

/-- A flat value of finite scalars is not written as null, unless it is a scalar of a type with
such values. -/
theorem document_shown {float? : Numeral → Option Binary64} {f : Flat} {x : f.Value}
    (shows : ∀ s, f = scalar s → s.showsNull = false)
    (faithful : Flat.Each (Scalar.Faithful float?) List.Nodup f x) : (f.document x).Shown := by
  cases f with
  | scalar s => exact Scalar.document_shown (shows s rfl) faithful.2.1
  | _ => trivial

end Flat
end Sarif
