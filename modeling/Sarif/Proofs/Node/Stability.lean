import Sarif.Proofs.Hash.Consistency
import Sarif.Proofs.Node.Fits
import Sarif.Proofs.Node.RoundTrip

/-!
# Texts that are loaded, saved and loaded again

Many texts are loaded as one node, and the text that is saved for it is one of them, so loading and
saving a second time changes nothing more. The one thing that can go wrong is nesting. A text may
leave out what a kind requires and the writer does not, so the saved text can nest up to two levels
deeper than the one that was loaded, and loading stops at 127. `Node.notification` is a node
that becomes just too deep when exceptions stand in one another often enough.
-/

namespace Sarif

/-! ## Nodes of which one field is known -/

namespace Draft

variable {source : Source}

/-- A finished draft of which nothing is known is faithful. -/
theorem finish_blank_faithful : (fs : List Field) →
    (blank fs).finish.Each (Scalar.Faithful source.float?) List.Nodup
  | [] => trivial
  | f :: fs => ⟨FieldValue.default_faithful source f.type, finish_blank_faithful fs⟩

/-- A finished draft of which one field is known is faithful if the field is. -/
theorem finish_set_blank_faithful : {fs : List Field} → {f : Field} → (place : Place fs f) →
    {v : FieldValue f.type} → v.Each (Scalar.Faithful source.float?) List.Nodup →
    ((blank fs).set place v).finish.Each (Scalar.Faithful source.float?) List.Nodup
  | _ :: fs, _, .here, _, faithful => ⟨faithful, finish_blank_faithful fs⟩
  | f :: _, _, .later place, _, faithful =>
      ⟨FieldValue.default_faithful source f.type, finish_set_blank_faithful place faithful⟩

end Draft

namespace Node

variable {k : Kind} {f : Field}

/-- The node that an object with no members is read as. -/
def blank (k : Kind) : Node k :=
  mk (Draft.blank k.fields).finish

/-- The node that an object with one member is read as. -/
def only (place : Place k.fields f) (v : FieldValue f.type) : Node k :=
  mk ((Draft.blank k.fields).set place v).finish

/-- An object with no members is read as a blank node. -/
theorem read_blank (source : Source) :
    Value.read source (.node k) (.object [] .closed) = source.within 1 (.node (blank k)) := by
  have nothing (inner : Source) : Draft.readMembers inner (Draft.blank k.fields) [] =
      inner.within 0 (Draft.blank k.fields) := by
    rw [Draft.readMembers, Source.within_zero]
  rw [Value.read]
  exact Source.enter_bind_make (fun inner _ => nothing inner) rfl

/-- An object with one member is read as the node with that field. -/
theorem read_only {name : String} {place : Place k.fields f}
    (found : Place.find? name k.fields = some ⟨f, place⟩) {d : Document} {nesting : Nat}
    {v : FieldValue f.type}
    (read : ∀ inner, FieldValue.readWith (fun t => Value.read inner t d) d f.type =
      Source.within inner nesting v) (source : Source) :
    Value.read source (.node k) (.object [(Literal.ofString name, d)] .closed) =
      source.within (nesting + 1) (.node (only place v)) := by
  have fresh : ((Draft.blank k.fields).get place).isSome = false := by
    rw [Draft.get_blank]
    rfl
  have known (inner : Source) :
      Draft.readMembers inner (Draft.blank k.fields) [(Literal.ofString name, d)] =
        inner.within nesting ((Draft.blank k.fields).set place v) := by
    rw [Draft.readMembers_known (Literal.read_ofString _) found fresh, read inner]
    refine Source.bind_within_ok ?_
    rw [Draft.readMembers]
  rw [Value.read]
  exact Source.enter_bind_make (fun inner _ => known inner) rfl

end Node

/-! ## A result with a rank -/

/-- A result of which the document says nothing but a rank, `58.50`. -/
def Document.rankedResult : Document :=
  .object [(Literal.ofString "rank", .numeral ⟨false, 58, ['5', '0'], none⟩)] .closed

/-- A result with a rank of 58.5 and an empty message. -/
def Node.rankedResult : Result :=
  only Result.rank (.present (.flat (f := .scalar .number) ⟨0x404D400000000000⟩))

namespace Node

/-- The result is read from its rank, whatever the source. -/
theorem read_rankedResult (source : Source) :
    Value.read source (.node .result) Document.rankedResult =
      source.within 1 (.node rankedResult) := by
  have nearest : Numeral.nearest? ⟨false, 58, ['5', '0'], none⟩ = some ⟨0x404D400000000000⟩ := by
    decide +kernel
  have found (inner : Source) :
      inner.float? ⟨false, 58, ['5', '0'], none⟩ = some ⟨0x404D400000000000⟩ := by
    cases inner with
    | text room =>
        have scaled : Numeral.float? ⟨false, 58, ['5', '0'], none⟩ =
            Numeral.nearest? ⟨false, 58, ['5', '0'], none⟩ :=
          Numeral.float?_eq_nearest? (by decide) (by decide)
        exact scaled.trans nearest
    | stored => exact nearest
  have number (inner : Source) :
      Numeral.read inner ⟨false, 58, ['5', '0'], none⟩ = .ok (.float ⟨0x404D400000000000⟩) := by
    rw [Numeral.read, found inner]
    rfl
  have field (inner : Source) :
      FieldValue.readWith (fun t => Value.read inner t (.numeral ⟨false, 58, ['5', '0'], none⟩))
          (.numeral ⟨false, 58, ['5', '0'], none⟩) (.optional .number) =
        inner.within 0 (.present (.flat (f := .scalar .number) ⟨0x404D400000000000⟩)) := by
    have shown : (Document.numeral ⟨false, 58, ['5', '0'], none⟩).Shown := trivial
    rw [FieldValue.readWith_of_shown shown, Value.read, Flat.read, Scalar.read, number,
      Source.within_zero]
    rfl
  exact read_only rfl field source

/-- The result is told from every other node by its document. -/
theorem rankedResult_faithful :
    rankedResult.Each (Scalar.Faithful Source.start.float?) List.Nodup := by
  have rank : Scalar.Faithful Source.start.float? .number ⟨0x404D400000000000⟩ :=
    Scalar.faithful_number (by decide) (by decide +kernel) (by decide +kernel)
  exact Draft.finish_set_blank_faithful _ rank

/-- The text that is saved for the result has the message that it requires, and a zero less. -/
theorem document_rankedResult :
    rankedResult.document =
      .object [(Literal.ofString "message", .object [] .closed),
        (Literal.ofString "rank", .numeral ⟨false, 58, ['5'], none⟩)] .closed := by
  have written : Numeral.ofFloat ⟨0x404D400000000000⟩ = ⟨false, 58, ['5'], none⟩ := by
    decide +kernel
  rw [← written]
  rfl

end Node

/-! ## Exceptions within one another -/

/-- An exception within `depth` others, of whose stack the document says nothing. -/
def Document.exceptions : Nat → Document
  | 0 => .object [(Literal.ofString "stack", .object [] .closed)] .closed
  | depth + 1 =>
    .object [(Literal.ofString "innerExceptions", .array [exceptions depth] none)] .closed

/-- A notification of an exception within `depth` others. -/
def Document.notification (depth : Nat) : Document :=
  .object [(Literal.ofString "exception", exceptions depth)] .closed

/-- The document of a notification is sound. -/
theorem Document.notification_sound (depth : Nat) : (notification depth).Sound := by
  have inner : (exceptions depth).Sound := by
    induction depth with
    | zero => exact ⟨rfl, Literal.ofString_sound _, ⟨rfl, trivial⟩, trivial⟩
    | succ depth inductionHypothesis =>
        exact ⟨rfl, Literal.ofString_sound _, ⟨rfl, inductionHypothesis, trivial⟩, trivial⟩
  exact ⟨rfl, Literal.ofString_sound _, inner, trivial⟩

namespace Node

/-- An exception within `depth` others, with a stack that has no frames. -/
def exceptions : Nat → Node .exception
  | 0 => only (.later (.later .here)) (.present (.node (blank .stack)))
  | depth + 1 =>
    only (.later (.later (.later .here))) (.present (.nodes (.full (exceptions depth) .nil)))

/-- A notification of an exception within `depth` others. -/
def notification (depth : Nat) : Node .notification :=
  only (.later (.later (.later (.later (.later .here))))) (.present (.node (exceptions depth)))

/-- A list of one node is read from an array of its document. -/
theorem read_singleton {k : Kind} {d : Document} {n : Node k} {nesting : Nat}
    (notNull : d.isNull = false)
    (read : ∀ source : Source, Value.read source (.node k) d = source.within nesting (.node n))
    (source : Source) :
    Value.read source (.nodes k) (.array [d] none) =
      source.within (nesting + 1) (.nodes (.full n .nil)) := by
  have slots (inner : Source) : Slots.read inner k [d] = inner.within nesting [some n] := by
    rw [Slots.read, Slots.read, notNull, read inner]
    simp only [Bool.false_eq_true, if_false, Source.map_within]
    exact Source.bind_within_ok rfl
  rw [Value.read]
  exact Source.enter_bind_make (fun inner _ => slots inner) rfl

/-- An exception within others is read from its document. -/
theorem read_exceptions (depth : Nat) (source : Source) :
    Value.read source (.node .exception) (Document.exceptions depth) =
      source.within (2 * depth + 2) (.node (exceptions depth)) := by
  induction depth generalizing source with
  | zero =>
      have field (inner : Source) :
          FieldValue.readWith (fun t => Value.read inner t (.object [] .closed))
            (.object [] .closed) (.optional (.node .stack)) =
          inner.within 1 (.present (.node (blank .stack))) := by
        have shown : (Document.object [] .closed).Shown := trivial
        rw [FieldValue.readWith_of_shown shown, read_blank]
        exact inner.map_within _ _ _
      exact read_only rfl field source
  | succ depth inductionHypothesis =>
      have notNull : (Document.exceptions depth).isNull = false := by
        cases depth <;> rfl
      have field (inner : Source) :
          FieldValue.readWith
            (fun t => Value.read inner t (.array [Document.exceptions depth] none))
            (.array [Document.exceptions depth] none) (.optional (.nodes .exception)) =
          inner.within (2 * depth + 3) (.present (.nodes (.full (exceptions depth) .nil))) := by
        have shown : (Document.array [Document.exceptions depth] none).Shown := trivial
        rw [FieldValue.readWith_of_shown shown, read_singleton notNull inductionHypothesis]
        exact inner.map_within _ _ _
      exact read_only rfl field source

/-- A notification of an exception within others is loaded from its text, if the text does not nest
too deep. -/
theorem load_notification {depth : Nat} (shallow : depth ≤ 62) :
    Node.load .notification (Document.notification depth).render = .ok (notification depth) := by
  have field (inner : Source) :
      FieldValue.readWith (fun t => Value.read inner t (Document.exceptions depth))
        (Document.exceptions depth) (.optional (.node .exception)) =
      inner.within (2 * depth + 2) (.present (.node (exceptions depth))) := by
    have shown : (Document.exceptions depth).Shown := by
      cases depth <;> trivial
    rw [FieldValue.readWith_of_shown shown, read_exceptions]
    exact inner.map_within _ _ _
  rw [load_render (Document.notification_sound depth) (read_only rfl field .start)]
  exact Source.within_of_le (by omega) _

/-- A notification of an exception within others is told from every other node by its document. -/
theorem notification_faithful (source : Source) (depth : Nat) :
    (notification depth).Each (Scalar.Faithful source.float?) List.Nodup := by
  have inner : (exceptions depth).Each (Scalar.Faithful source.float?) List.Nodup := by
    induction depth with
    | zero =>
        exact Draft.finish_set_blank_faithful _ (Draft.finish_blank_faithful Kind.stack.fields)
    | succ depth inductionHypothesis =>
        exact Draft.finish_set_blank_faithful _ ⟨inductionHypothesis, trivial⟩
  exact Draft.finish_set_blank_faithful _ inner

/-- The text that is saved for a notification of an exception within others nests one level deeper
than the text that it was loaded from. -/
theorem nesting_notification (depth : Nat) :
    (notification depth).document.nesting = 2 * depth + 4 := by
  have inner : (exceptions depth).document.nesting = 2 * depth + 3 := by
    induction depth with
    | zero => rfl
    | succ depth inductionHypothesis =>
        have written : (exceptions (depth + 1)).document =
            .object [(Literal.ofString "innerExceptions",
              .array [(exceptions depth).document] none)] .closed := rfl
        rw [written]
        simp only [Document.nesting, Document.membersNesting, Document.itemsNesting,
          inductionHypothesis]
        omega
  have written : (notification depth).document =
      .object [(Literal.ofString "message", .object [] .closed),
        (Literal.ofString "exception", (exceptions depth).document)] .closed := rfl
  rw [written]
  simp only [Document.nesting, Document.membersNesting, inner]
  omega

end Node

/-! ## Loading twice -/

namespace Node

variable {k : Kind}

/-- A node that is loaded is equal to itself. -/
theorem same_self_of_load {text : String} {n : Node k} (loaded : Node.load k text = .ok n) :
    n.same n = true :=
  n.same_self (n.comparable_of_finite (fits_of_load loaded).1)

/-- The text that is saved for a loaded node nests at most two levels deeper than the one that it
was loaded from. If that is within the limit, and the numbers of the node read back, it is loaded
again, as an equal node of the same hash for which the same text is saved; otherwise it is
refused. -/
theorem reload {text : String} {n : Node k} (loaded : Node.load k text = .ok n)
    (inEra : n.DatesInEra) (readBack : n.FloatsReadBack) :
    n.document.nesting ≤ (Document.ofText text.toList).1.nesting + 2 ∧
      (n.document.nesting ≤ 127 →
        ∃ m, Node.load k n.text = .ok m ∧ n.same m = true ∧ m.hash = n.hash ∧ m.text = n.text) ∧
      (127 < n.document.nesting → Node.load k n.text = .error (.broken .malformed)) := by
  have saved : Node.load k n.text = Source.start.within n.document.nesting n :=
    load_text_eq_within n (wellFormed_of_load loaded) (floatsFinite_of_load loaded) inEra readBack
  refine ⟨(fits_of_load loaded).2, fun shallow => ?_, fun deep => ?_⟩
  · have again : Node.load k n.text = .ok n := saved.trans (Source.within_of_le shallow n)
    exact ⟨n, again, same_self_of_load loaded, rfl, rfl⟩
  · exact saved.trans (Source.within_of_lt deep n)

/-- A result that was loaded from a rank alone is saved with the message that it requires, and
loaded again. -/
theorem reload_rankedResult :
    Node.load .result Document.rankedResult.render = .ok rankedResult ∧
      rankedResult.document.nesting = 2 ∧
        ∃ m, Node.load .result rankedResult.text = .ok m ∧ rankedResult.same m = true ∧
          m.hash = rankedResult.hash ∧ m.text = rankedResult.text := by
  have digits : ∀ c ∈ ['5', '0'], c.isDigit = true := by simp
  have sound : Document.rankedResult.Sound := ⟨rfl, Literal.ofString_sound _, digits, trivial⟩
  have loaded : Node.load .result Document.rankedResult.render = .ok rankedResult := by
    rw [load_render sound (read_rankedResult .start)]
    exact Source.within_of_le (by decide) _
  have nesting : rankedResult.document.nesting = 2 := by
    rw [document_rankedResult]
    rfl
  obtain ⟨_, _, readBack, inEra⟩ := of_faithful rankedResult_faithful
  exact ⟨loaded, nesting, (reload loaded inEra readBack).2.1 (nesting ▸ by decide)⟩

/-- A notification of an exception within 62 others is loaded from a text, and the text that is
saved for it is refused. -/
theorem reload_refused_notification :
    Node.load .notification (Document.notification 62).render = .ok (notification 62) ∧
      (notification 62).DatesInEra ∧ (notification 62).FloatsReadBack ∧
        Node.load .notification (notification 62).text = .error (.broken .malformed) := by
  have loaded := load_notification (Nat.le_refl 62)
  obtain ⟨wellFormed, finite, readBack, inEra⟩ := of_faithful (notification_faithful .start 62)
  have deep : 127 < (notification 62).document.nesting := by
    rw [nesting_notification]
    decide
  have saved := load_text_eq_within (notification 62) wellFormed finite inEra readBack
  exact ⟨loaded, inEra, readBack, saved.trans (Source.within_of_lt deep _)⟩

end Node
end Sarif
