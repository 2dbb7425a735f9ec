import Sarif.Proofs.Json.Alike
import Sarif.Proofs.Reading.Agreement
import Sarif.Proofs.Reading.Flat
import Sarif.Proofs.Text.Parsing

/-!
# A document and the value stored for it

A document can be read at once, or as a stored value that is read as its type later. `StoredAs`
says of two documents that the second may be what is written for the value stored for the first:
they are alike, where a number of the first is what its source makes of the numeral, no object of
the first has a name twice, and its source admits how deep it nests. Both are then read as one
stored value, and whatever is read as a stored value is written as such a document.
-/

namespace Sarif

/-! ## Documents that are alike -/

/-- Pieces that the text stops after denote nothing. -/
theorem Literal.decodePieces_ne_ok (d : Defect) (pieces : List Piece) (characters : List Char) :
    decodePieces (some d) pieces ≠ .ok characters := by
  have extended (f : List Char → List Char) {rest : List Piece} {characters : List Char}
      (fails : ∀ characters, decodePieces (some d) rest ≠ .ok characters) :
      (decodePieces (some d) rest).map f ≠ .ok characters := by
    intro success
    cases decoded : decodePieces (some d) rest with
    | error problem =>
        rw [decoded] at success
        cases success
    | ok found => exact fails found decoded
  fun_induction decodePieces (some d) pieces generalizing characters with
  | case2 closed => cases closed
  | case3 c rest inductionHypothesis => exact extended _ inductionHypothesis
  | case4 high low rest paired inductionHypothesis => exact extended _ inductionHypothesis
  | _ => exact fun success => nomatch success

/-- A literal that is read has its closing quote. -/
theorem Literal.defect_of_read {l : Literal} {s : String} (read : l.read = .ok s) :
    l.defect = none := by
  cases unclosed : l.defect with
  | none => rfl
  | some d =>
      rw [Literal.read, decode, unclosed] at read
      cases decoded : decodePieces (some d) l.pieces with
      | error problem =>
          rw [decoded] at read
          cases read
      | ok characters => exact (decodePieces_ne_ok d l.pieces characters decoded).elim

namespace Document

variable {relate : Numeral → Numeral → Prop}

/-- Documents that are alike are both null, or neither is null or broken. -/
theorem Alike.null_or_shown {d e : Document} (alike : d.Alike relate e) :
    (d = .null ∧ e = .null) ∨ (d.Shown ∧ e.Shown) := by
  match d, e, alike with
  | .null, .null, _ => exact .inl ⟨rfl, rfl⟩
  | .boolean _, .boolean _, _ => exact .inr ⟨trivial, trivial⟩
  | .numeral _, .numeral _, _ => exact .inr ⟨trivial, trivial⟩
  | .literal _, .literal _, _ => exact .inr ⟨trivial, trivial⟩
  | .array _ none, .array _ none, _ => exact .inr ⟨trivial, trivial⟩
  | .object _ .closed, .object _ .closed, _ => exact .inr ⟨trivial, trivial⟩

/-- A document that is like another one has no defect. -/
theorem Alike.skip_eq_none {d e : Document} (alike : d.Alike relate e) : d.skip = none := by
  induction d using Document.induction generalizing e with
  | literal l =>
      match e, alike with
      | .literal m, ⟨s, read, _⟩ => exact Literal.defect_of_read read
  | array items defect inductionHypothesis =>
      match defect, e, alike with
      | none, .array others none, alike =>
          have each : ∀ item ∈ items, item.skip = none := by
            intro item inside
            obtain ⟨other, _, alike⟩ := exists_of_forall₂ (alikeItems_iff.mp alike) inside
            exact inductionHypothesis item inside alike
          rw [skip, skipItems_eq_none each]
          rfl
  | object members ending inductionHypothesis =>
      match ending, e, alike with
      | .closed, .object others .closed, ⟨reordered, _, alike⟩ =>
          have each : ∀ member ∈ members, member.1.defect = none ∧ member.2.skip = none := by
            intro member inside
            obtain ⟨other, _, ⟨s, read, _⟩, alike⟩ :=
              exists_of_forall₂ (alikeMembers_iff.mp alike) inside
            exact ⟨Literal.defect_of_read read, inductionHypothesis member inside alike⟩
          rw [skip, skipMembers_eq_none each]
          rfl
  | broken what => exact alike.elim
  | _ => rfl

/-- A document that another one is like has no defect. -/
theorem Alike.skip_eq_none' {d e : Document} (alike : d.Alike relate e) : e.skip = none := by
  have turned : e.Alike (fun n m => relate m n) d := alike.turn fun _ _ related => related
  exact turned.skip_eq_none

end Document

/-- Numerals of one number: the first is read from its source, the second from a stored value. -/
def Numeral.StoredAs (source : Source) (n m : Numeral) : Prop :=
  ∃ a, n.read source = .ok a ∧ m.read .stored = .ok a

/-- Numerals are stored within an array or object as they are around it. -/
theorem Numeral.storedAs_of_enter {source inner : Source} (entered : source.enter = .ok inner) :
    StoredAs inner = StoredAs source := by
  funext n m
  have same : n.read inner = n.read source := by
    rw [read, read, Source.float?_of_enter entered]
  rw [StoredAs, StoredAs, same]

/-- A document that may be stored as another one: no object of it has a name twice, and it nests no
deeper than its source admits. -/
structure Document.StoredAs (source : Source) (d e : Document) : Prop where
  alike : d.Alike (Numeral.StoredAs source) e
  distinct : d.Distinct
  admitted : source.admits d.nesting = true

namespace Document.StoredAs

variable {source : Source}

/-- The items of an array are stored one by one. -/
theorem items {items others : List Document} {defect defect' : Option Defect}
    (stored : StoredAs source (.array items defect) (.array others defect')) {inner : Source}
    (entered : source.enter = .ok inner) : List.Forall₂ (StoredAs inner) items others := by
  have room : inner.admits (itemsNesting items) = true :=
    Source.admits_of_enter entered stored.admitted
  obtain ⟨alike, distinct, _⟩ := stored
  match defect, defect', alike with
  | none, none, alike =>
      refine ((List.forall₂_and_left _ _).mpr ⟨fun item inside => inside,
        alikeItems_iff.mp alike⟩).imp fun item other pair => ?_
      exact ⟨Numeral.storedAs_of_enter entered ▸ pair.2,
        distinctItems_iff.mp distinct item pair.1,
        inner.admits_of_le (nesting_le_itemsNesting pair.1) room⟩

/-- The members of an object are stored one by one, in some order. -/
theorem members {members others : List (Literal × Document)} {ending ending' : Ending}
    (stored : StoredAs source (.object members ending) (.object others ending')) :
    (names members).Nodup ∧ ∃ reordered, others.Perm reordered ∧ (names reordered).Nodup ∧
      ∀ inner : Source, source.enter = .ok inner →
        List.Forall₂ (fun member other => member.1.Alike other.1 ∧
          StoredAs inner member.2 other.2) members reordered := by
  have admitted := stored.admitted
  obtain ⟨alike, ⟨distinct, each⟩, _⟩ := stored
  match ending, ending', alike with
  | .closed, .closed, ⟨reordered, perm, alike⟩ =>
      refine ⟨distinct, reordered, perm, alike.names_eq ▸ distinct, fun inner entered => ?_⟩
      have room : inner.admits (membersNesting members) = true :=
        Source.admits_of_enter entered admitted
      refine ((List.forall₂_and_left _ _).mpr ⟨fun member inside => inside,
        alikeMembers_iff.mp alike⟩).imp fun member other pair => ?_
      exact ⟨pair.2.1, Numeral.storedAs_of_enter entered ▸ pair.2.2,
        distinctMembers_iff.mp each member pair.1,
        inner.admits_of_le (nesting_le_membersNesting pair.1) room⟩

/-- An array is stored item by item. -/
theorem array {items others : List Document} {inner : Source} (entered : source.enter = .ok inner)
    (each : List.Forall₂ (StoredAs inner) items others) :
    StoredAs source (.array items none) (.array others none) := by
  have held (item : Document) (inside : item ∈ items) : ∃ other, StoredAs inner item other := by
    obtain ⟨other, _, stored⟩ := exists_of_forall₂ each inside
    exact ⟨other, stored⟩
  refine ⟨?_, ?_, ?_⟩
  · rw [← Numeral.storedAs_of_enter entered]
    exact alikeItems_iff.mpr (each.imp fun _ _ stored => stored.alike)
  · exact distinctItems_iff.mpr fun item inside => (held item inside).elim fun _ => distinct
  · refine Source.admits_succ_of_enter entered (Source.admits_itemsNesting fun item inside => ?_)
    exact (held item inside).elim fun _ => admitted

/-- An object whose names are distinct is stored member by member, in any order. -/
theorem object {members others reordered : List (Literal × Document)} {inner : Source}
    (entered : source.enter = .ok inner) (unique : (names members).Nodup)
    (perm : others.Perm reordered)
    (each : List.Forall₂ (fun member other => member.1.Alike other.1 ∧
      StoredAs inner member.2 other.2) members reordered) :
    StoredAs source (.object members .closed) (.object others .closed) := by
  have held (member : Literal × Document) (inside : member ∈ members) :
      ∃ e, StoredAs inner member.2 e := by
    obtain ⟨other, _, stored⟩ := exists_of_forall₂ each inside
    exact ⟨other.2, stored.2⟩
  refine ⟨?_, ⟨unique, ?_⟩, ?_⟩
  · rw [← Numeral.storedAs_of_enter entered]
    refine ⟨reordered, perm, alikeMembers_iff.mpr ?_⟩
    exact each.imp fun _ _ stored => ⟨stored.1, stored.2.alike⟩
  · exact distinctMembers_iff.mpr fun member inside => (held member inside).elim fun _ => distinct
  · refine Source.admits_succ_of_enter entered
      (Source.admits_membersNesting fun member inside => ?_)
    exact (held member inside).elim fun _ => admitted

end Document.StoredAs

/-! ## Stored values -/

namespace Json

/-- The items of an array are read one by one. -/
theorem readItems_eq (source : Source) (items : List Document) :
    readItems source items = Flat.readItems (read source) items := by
  induction items with
  | nil => rfl
  | cons item rest inductionHypothesis => rw [readItems, Flat.readItems, inductionHypothesis]

/-- The members of an object are read one by one. -/
theorem readMembers_eq (source : Source) (members : List (Literal × Document)) :
    readMembers source members = Flat.readEntries (read source) members := by
  induction members with
  | nil => rfl
  | cons member rest inductionHypothesis => rw [readMembers, Flat.readEntries, inductionHypothesis]

/-- A document and the one it is stored as are read as one stored value. -/
theorem agree_read {source : Source} {d e : Document} (stored : d.StoredAs source e) :
    Agree Eq (read source d) (read .stored e) := by
  induction d using Document.induction generalizing source e with
  | null =>
      match e, stored.alike with
      | .null, _ => exact rfl
  | boolean b =>
      match e, stored.alike with
      | .boolean c, same => exact congrArg Json.boolean same
  | numeral n =>
      match e, stored.alike with
      | .numeral m, ⟨a, first, second⟩ =>
          rw [read, read, first, second]
          exact rfl
  | literal l =>
      match e, stored.alike with
      | .literal m, ⟨s, first, second⟩ =>
          rw [read, read, first, second]
          exact rfl
  | array items defect inductionHypothesis =>
      match defect, e, stored, stored.alike with
      | none, .array others none, stored, _ =>
          rw [read, read]
          refine Agree.enter stored.admitted (fun inner entered => ?_)
            (fun _ _ each => congrArg Json.array (List.forall₂_eq_eq_eq ▸ each))
          rw [readItems_eq, readItems_eq]
          have both := (List.forall₂_and_left _ _).mpr ⟨inductionHypothesis, stored.items entered⟩
          exact Flat.agree_readItems (both.imp fun _ _ pair => pair.1 pair.2)
  | object members ending inductionHypothesis =>
      match ending, e, stored, stored.alike with
      | .closed, .object others .closed, stored, _ =>
          obtain ⟨distinct, reordered, perm, _, each⟩ := stored.members
          have values (inner : Source) (entered : source.enter = .ok inner) :
              Agree (fun xs ys => (xs.map Prod.fst).Nodup ∧ Dict.Aligned Eq xs ys)
                (readMembers inner members) (readMembers .stored others) := by
            rw [readMembers_eq, readMembers_eq]
            have both := (List.forall₂_and_left _ _).mpr ⟨inductionHypothesis, each inner entered⟩
            exact Flat.agree_readEntries_of_reordered perm distinct
              (both.imp fun _ _ pair => ⟨pair.2.1, pair.1 pair.2.2⟩)
          rw [read, read]
          refine Agree.enter stored.admitted values fun xs ys result => ?_
          obtain ⟨distinct, reordered, perm, each⟩ := result
          have same : xs = reordered := by
            rw [← List.forall₂_eq_eq_eq]
            exact each.imp fun _ _ pair => Prod.ext pair.1 pair.2
          exact congrArg Json.object (sortMembers_eq_of_perm (same ▸ perm.symm) distinct)
  | broken what => exact stored.alike.elim

/-- What is read as a stored value is written as a document that the first one may be stored as. -/
theorem storedAs_of_read {source : Source} {d : Document} (distinct : d.Distinct) {x : Json}
    (success : read source d = .ok x) : d.StoredAs source x.document := by
  induction d using Document.induction generalizing source x with
  | null =>
      obtain rfl := Except.ok.inj success
      exact ⟨trivial, trivial, source.admits_zero⟩
  | boolean b =>
      obtain rfl := Except.ok.inj success
      exact ⟨rfl, trivial, source.admits_zero⟩
  | numeral n =>
      obtain ⟨value, number, rfl⟩ := Problem.map_eq_ok success
      have wellFormed := Numeral.wellFormed_of_read number
      have kept : value.numeral.read .stored = .ok value :=
        Numeral.read_numeral wellFormed (Number.readsBack_nearest wellFormed)
      exact ⟨⟨value, number, kept⟩, trivial, source.admits_zero⟩
  | literal l =>
      obtain ⟨s, string, rfl⟩ := Problem.map_eq_ok success
      exact ⟨⟨s, string, Literal.read_ofString s⟩, trivial, source.admits_zero⟩
  | array items defect inductionHypothesis =>
      obtain ⟨rfl, inner, values, entered, held, rfl⟩ := Source.of_enter_bind success
      rw [readItems_eq] at held
      rw [document, itemDocuments_eq_map]
      refine .array entered (List.forall₂_map_right_iff.mpr ?_)
      have each (item : Document) (inside : item ∈ items) (value : Json)
          (read : read inner item = .ok value) : item.StoredAs inner value.document :=
        inductionHypothesis item inside (Document.distinctItems_iff.mp distinct item inside) read
      exact ((List.forall₂_and_left _ _).mpr ⟨each, Flat.forall₂_of_readItems held⟩).imp
        fun _ _ pair => pair.1 _ pair.2
  | object members ending inductionHypothesis =>
      obtain ⟨closed, inner, values, entered, held, rfl⟩ := Source.of_enter_bind success
      obtain rfl : ending = .closed := by
        cases ending <;> first | rfl | cases closed
      rw [readMembers_eq] at held
      have unique : (values.map Prod.fst).Nodup := by
        have names := distinct.1
        rw [Flat.keys_of_readEntries held] at names
        exact names.of_map _
      rw [ofMembers, document, memberDocuments_eq_map]
      refine .object entered distinct.1 ((sortMembers_perm unique).map _)
        (List.forall₂_map_right_iff.mpr ?_)
      have each (member : Literal × Document) (inside : member ∈ members) (value : Json)
          (read : read inner member.2 = .ok value) : member.2.StoredAs inner value.document :=
        inductionHypothesis member inside
          (Document.distinctMembers_iff.mp distinct.2 member inside) read
      refine ((List.forall₂_and_left _ _).mpr ⟨each, Flat.forall₂_of_readEntries held⟩).imp
        fun member entry pair => ⟨?_, pair.1 _ pair.2.2⟩
      exact ⟨entry.1, pair.2.1, Literal.read_ofString entry.1⟩
  | broken what => cases success

end Json

end Sarif
