import Sarif.Proofs.Number.ReadsBack
import Sarif.Proofs.Reading.Admission
import Sarif.Proofs.Time.ReadsBack
import Sarif.Value.Scalar

/-!
# Scalars read back

Every scalar that is well-formed, finite and of the years 0000 to 9999 is what reading makes of the
document that it is written as, if its floating-point numbers read back. Those of a stored value do;
a reader of texts scales digits, which can lead to another number. Only stored values can nest, so
only they can be refused for it.
-/

namespace Sarif

/-- A scalar that a reader tells from every other one by its document. How the reader finds the
floating-point value of a numeral is a parameter. -/
def Scalar.Faithful (float? : Numeral → Option Binary64) (s : Scalar) (x : s.Value) : Prop :=
  s.WellFormed x ∧ s.Finite x ∧ s.InEra x ∧ s.ReadsBack float? x

/-! ## Strings and numbers -/

namespace Literal

/-- Plain characters denote themselves. -/
theorem decodePieces_map_char (characters : List Char) :
    decodePieces none (characters.map .char) = .ok characters := by
  induction characters with
  | nil => rfl
  | cons c rest inductionHypothesis =>
      rw [List.map_cons, decodePieces, inductionHypothesis]
      rfl

/-- The literal of a string is read as the string. -/
theorem read_ofString (s : String) : (ofString s).read = .ok s := by
  have decoded : (ofString s).decode = .ok s := by
    rw [decode, ofString, decodePieces_map_char]
    exact congrArg Except.ok String.ofList_toList
  rw [read, decoded]

end Literal

/-- A numeral of a stored value is read as the number that it denotes. -/
theorem Numeral.read_stored {n : Numeral} {value : Number} (denoted : n.number? = some value) :
    n.read .stored = .ok value := by
  have found : n.numberOr (Source.stored.float? n) = some value := denoted
  rw [read, found]

/-- The numeral of a well-formed number is read as the number, if it reads back. -/
theorem Numeral.read_numeral {source : Source} {n : Number} (wellFormed : n.WellFormed)
    (readsBack : n.ReadsBack source.float?) : n.numeral.read source = .ok n := by
  rw [read, Number.numberOr_numeral wellFormed readsBack]

namespace Width

/-- A word lies within its width. -/
theorem bounds_toInt (w : Width) (x : w.Word) : w.least ≤ w.toInt x ∧ w.toInt x ≤ w.largest := by
  cases w with
  | signed64 =>
      have low := Int64.le_toInt x
      have high := Int64.toInt_lt x
      exact ⟨low, Int.le_sub_one_of_lt high⟩
  | signed32 =>
      have low := Int32.le_toInt x
      have high := Int32.toInt_lt x
      exact ⟨low, Int.le_sub_one_of_lt high⟩
  | unsigned64 =>
      have high := UInt64.toNat_lt x
      simp only [least, largest, toInt]
      omega
  | unsigned8 =>
      have high := UInt8.toNat_lt x
      simp only [least, largest, toInt]
      omega

/-- A word is the word of its integer. -/
theorem ofInt_toInt (w : Width) (x : w.Word) : w.ofInt (w.toInt x) = x := by
  cases w with
  | signed64 => exact Int64.ofInt_toInt x
  | signed32 => exact Int32.ofInt_toInt x
  | unsigned64 =>
      have same : ((UInt64.toNat x : Int) % 2 ^ 64).toNat = UInt64.toNat x := by
        have := UInt64.toNat_lt x
        omega
      simp only [ofInt, toInt, UInt64.ofInt, same]
      exact UInt64.ofNat_toNat
  | unsigned8 =>
      have same : ((UInt8.toNat x : Int) % 2 ^ 8).toNat = UInt8.toNat x := by
        have := UInt8.toNat_lt x
        omega
      simp only [ofInt, toInt, UInt8.ofInt, same]
      exact UInt8.ofNat_toNat

/-- The integer of a word is kept as an integer. -/
theorem wellFormed_toInt (w : Width) (x : w.Word) : (Number.integer (w.toInt x)).WellFormed := by
  have bounds := bounds_toInt w x
  have range : Number.minInteger ≤ w.least ∧ w.largest ≤ Number.maxInteger := by
    cases w <;> decide
  exact ⟨Int.le_trans range.1 bounds.1, Int.le_trans bounds.2 range.2⟩

/-- The document of a word is read as the word. -/
theorem read_integerDocument (w : Width) (source : Source) (x : w.Word) :
    w.read source (Scalar.integerDocument (w.toInt x)) = .ok x := by
  have kept : (Number.integer (w.toInt x)).numeral.read source = .ok (.integer (w.toInt x)) :=
    Numeral.read_numeral (wellFormed_toInt w x) trivial
  have holds : w.holds (w.toInt x) = true := decide_eq_true (bounds_toInt w x)
  simp [Scalar.integerDocument, read, kept, holds, ofInt_toInt, bind, Except.bind, pure,
    Except.pure]

end Width

/-- The document of a well-formed sentinel is read as the sentinel. -/
theorem Sentinel.read_document {x : Sentinel} (source : Source) (wellFormed : x.WellFormed) :
    Sentinel.read source (Scalar.integerDocument (Int64.toInt x.raw)) = .ok x := by
  have admitted : admits x.raw = true := decide_eq_true wellFormed
  have raw : Width.read .signed64 source (Scalar.integerDocument (Int64.toInt x.raw)) = .ok x.raw :=
    Width.read_integerDocument .signed64 source x.raw
  simp [Sentinel.read, raw, ofRaw?, admitted, bind, Except.bind, pure, Except.pure]

/-! ## Choices and date-times -/

namespace Choice

/-- A value of a choice is known by its name. -/
theorem ofName?_name (c : Choice) (value : c.Value) : c.ofName? (c.name value) = some value := by
  cases c <;> cases value <;> rfl

/-- The name of a value of a choice is read as the value. -/
theorem read_name (c : Choice) (source : Source) (value : c.Value) :
    c.read source (Document.string (c.name value)) = .ok value := by
  have named : c.readName (Literal.ofString (c.name value)) = .ok value := by
    simp [readName, Literal.read_ofString, ofName?_name, bind, Except.bind, pure, Except.pure]
  cases source <;> exact named

end Choice

/-- The text of a date-time is read as the date-time. -/
theorem DateTime.read_text {t : DateTime} (source : Source) (wellFormed : t.WellFormed)
    (inEra : t.InEra) : DateTime.read source (Document.string (String.ofList t.text)) = .ok t := by
  simp [DateTime.read, Document.string, Literal.read_ofString, ofText?_text wellFormed inEra,
    bind, Except.bind, pure, Except.pure]

/-! ## Stored values -/

namespace Json

/-- A member whose name comes after all others goes to the end. -/
theorem insertMember_append {members : List (String × Json)} {name : String} (value : Json)
    (after : ∀ member ∈ members, member.1 < name) :
    insertMember name value members = members ++ [(name, value)] := by
  induction members with
  | nil => rfl
  | cons member rest inductionHypothesis =>
      obtain ⟨other, held⟩ := member
      have before : other < name := after (other, held) (List.mem_cons_self ..)
      have not_before : ¬ name < other := String.lt_asymm before
      have different : name ≠ other := by
        rintro rfl
        exact String.lt_irrefl name before
      have tail := inductionHypothesis fun member inside =>
        after member (List.mem_cons_of_mem _ inside)
      rw [insertMember, if_neg not_before, if_neg different, tail, List.cons_append]

/-- Sorted members are put into their places as they stand. -/
theorem foldl_insertMember (before members : List (String × Json))
    (sorted : SortedNames (before ++ members)) :
    members.foldl (fun sorted member => insertMember member.1 member.2 sorted) before =
      before ++ members := by
  induction members generalizing before with
  | nil => simp
  | cons member rest inductionHypothesis =>
      have after : ∀ other ∈ before, other.1 < member.1 := fun other inside =>
        (List.pairwise_append.mp sorted).2.2 other inside member (List.mem_cons_self ..)
      have regrouped : before ++ member :: rest = before ++ [member] ++ rest := by simp
      rw [List.foldl_cons, insertMember_append member.2 after, regrouped]
      exact inductionHypothesis (before ++ [member]) (regrouped ▸ sorted)

/-- Sorted members stay as they are. -/
theorem sortMembers_of_sorted {members : List (String × Json)} (sorted : SortedNames members) :
    sortMembers members = members :=
  foldl_insertMember [] members sorted

mutual

/-- The document of a well-formed stored value is read as the value, if its numbers read back. -/
theorem read_document : (x : Json) → x.WellFormed → (source : Source) →
    x.ReadsBack source.float? → Json.read source x.document = source.within x.document.nesting x
  | null, _, source, _ => (source.within_zero _).symm
  | boolean _, _, source, _ => (source.within_zero _).symm
  | number n, wellFormed, source, readsBack => by
      have number : n.numeral.read source = .ok n := Numeral.read_numeral wellFormed readsBack
      have flat : (document (.number n)).nesting = 0 := rfl
      rw [flat, Source.within_zero, document, Json.read, number]
      rfl
  | string s, _, source, _ => by
      have flat : (document (.string s)).nesting = 0 := rfl
      rw [flat, Source.within_zero, document, Document.string, Json.read, Literal.read_ofString]
      rfl
  | array items, wellFormed, source, readsBack => by
      rw [document, Json.read, Document.nesting]
      exact Source.enter_bind_make
        (fun inner same => readItems_documents items wellFormed inner (same ▸ readsBack)) rfl
  | object members, wellFormed, source, readsBack => by
      rw [document, Json.read, Document.nesting]
      have sorted := sortMembers_of_sorted wellFormed.1
      exact Source.enter_bind_make
        (fun inner same => readMembers_documents members wellFormed.2 inner (same ▸ readsBack))
        (congrArg Json.object sorted)

/-- The documents of well-formed items are read as the items. -/
theorem readItems_documents : (items : List Json) → WellFormedItems items →
    (source : Source) → ReadsBackItems source.float? items →
    Json.readItems source (itemDocuments items) =
      source.within (Document.itemsNesting (itemDocuments items)) items
  | [], _, source, _ => (source.within_zero _).symm
  | item :: rest, wellFormed, source, readsBack => by
      rw [itemDocuments, Json.readItems, Document.itemsNesting,
        read_document item wellFormed.1 source readsBack.1,
        readItems_documents rest wellFormed.2 source readsBack.2]
      exact Source.bind_within (Source.bind_within_ok rfl)

/-- The documents of well-formed members are read as the members. -/
theorem readMembers_documents : (members : List (String × Json)) →
    WellFormedMembers members → (source : Source) → ReadsBackMembers source.float? members →
    Json.readMembers source (memberDocuments members) =
      source.within (Document.membersNesting (memberDocuments members)) members
  | [], _, source, _ => (source.within_zero _).symm
  | (name, value) :: rest, wellFormed, source, readsBack => by
      rw [memberDocuments, Json.readMembers, Document.membersNesting, Literal.read_ofString,
        read_document value wellFormed.1 source readsBack.1,
        readMembers_documents rest wellFormed.2 source readsBack.2]
      exact Source.bind_within (Source.bind_within_ok rfl)

end

mutual

/-- The document of a stored value is read or refused as malformed, whatever becomes of its
numbers. -/
theorem settles_read : (x : Json) → (source : Source) →
    source.Settles x.document.nesting (Json.read source x.document)
  | null, source => source.admits_zero
  | boolean _, source => source.admits_zero
  | number n, source => by
      have numeral : source.Settles 0 (n.numeral.read source) := by
        rw [Numeral.read]
        split
        · exact source.admits_zero
        · rfl
      exact numeral.map Json.number
  | string s, source => by
      have literal : source.Settles 0 (Literal.ofString s).read := by
        rw [Literal.read_ofString]
        exact source.admits_zero
      exact literal.map Json.string
  | array items, source => by
      rw [document, Json.read, Document.nesting]
      exact Source.Settles.enter (settles_readItems items) Json.array
  | object members, source => by
      rw [document, Json.read, Document.nesting]
      exact Source.Settles.enter (settles_readMembers members) ofMembers

/-- The documents of items are read or refused as malformed. -/
theorem settles_readItems : (items : List Json) → (source : Source) →
    source.Settles (Document.itemsNesting (itemDocuments items))
      (Json.readItems source (itemDocuments items))
  | [], source => source.admits_zero
  | item :: rest, source => by
      rw [itemDocuments, Json.readItems, Document.itemsNesting]
      exact (settles_read item source).append (settles_readItems rest source) List.cons

/-- The documents of members are read or refused as malformed. -/
theorem settles_readMembers : (members : List (String × Json)) → (source : Source) →
    source.Settles (Document.membersNesting (memberDocuments members))
      (Json.readMembers source (memberDocuments members))
  | [], source => source.admits_zero
  | (name, value) :: rest, source => by
      rw [memberDocuments, Json.readMembers, Document.membersNesting, Literal.read_ofString,
        Problem.ok_bind]
      exact (settles_read value source).append (settles_readMembers rest source)
        fun x others => (name, x) :: others

end

mutual

/-- The numbers of a well-formed stored value are nearest to what is written for them. -/
theorem readsBack_nearest : (x : Json) → x.WellFormed → x.ReadsBack Numeral.nearest?
  | null, _ => trivial
  | boolean _, _ => trivial
  | number _, wellFormed => Number.readsBack_nearest wellFormed
  | string _, _ => trivial
  | array items, wellFormed => readsBackItems_nearest items wellFormed
  | object members, wellFormed => readsBackMembers_nearest members wellFormed.2

/-- The numbers of well-formed items are nearest to what is written for them. -/
theorem readsBackItems_nearest : (items : List Json) → WellFormedItems items →
    ReadsBackItems Numeral.nearest? items
  | [], _ => trivial
  | item :: rest, wellFormed =>
      ⟨readsBack_nearest item wellFormed.1, readsBackItems_nearest rest wellFormed.2⟩

/-- The numbers of well-formed members are nearest to what is written for them. -/
theorem readsBackMembers_nearest : (members : List (String × Json)) → WellFormedMembers members →
    ReadsBackMembers Numeral.nearest? members
  | [], _ => trivial
  | (_, value) :: rest, wellFormed =>
      ⟨readsBack_nearest value wellFormed.1, readsBackMembers_nearest rest wellFormed.2⟩

end

end Json

/-! ## All scalars -/

namespace Scalar

/-- The numbers of a scalar that is kept as a value are found again. -/
theorem readsBack_stored (s : Scalar) {x : s.Value} (wellFormed : s.WellFormed x)
    (finite : s.Finite x) : s.ReadsBack Source.stored.float? x := by
  cases s with
  | number => exact Number.readsBack_nearest (n := .float x) finite
  | json => exact Json.readsBack_nearest x wellFormed
  | _ => trivial

/-- A faithful scalar is read from the document that it is written as. -/
theorem read_document (s : Scalar) {x : s.Value} (source : Source)
    (faithful : s.Faithful source.float? x) :
    s.read source (s.document x) = source.within (s.document x).nesting x := by
  obtain ⟨wellFormed, finite, inEra, readsBack⟩ := faithful
  cases s with
  | text =>
      exact (Literal.read_ofString x).trans (source.within_zero x).symm
  | boolean => exact (source.within_zero x).symm
  | integer w =>
      exact (Width.read_integerDocument w source x).trans (source.within_zero x).symm
  | number =>
      have isFinite : Binary64.isFinite x = true := finite
      have number : (Number.float x).numeral.read source = .ok (Number.float x) :=
        Numeral.read_numeral isFinite readsBack
      simp only [document, isFinite, if_true, read, number, Document.nesting, Source.within_zero]
      rfl
  | sentinel =>
      exact (Sentinel.read_document source wellFormed).trans (source.within_zero x).symm
  | dateTime =>
      exact (DateTime.read_text source wellFormed inEra).trans (source.within_zero x).symm
  | choice c => exact (c.read_name source x).trans (source.within_zero x).symm
  | json => exact Json.read_document x wellFormed source readsBack
  | unit => exact (source.within_zero x).symm

end Scalar
end Sarif
