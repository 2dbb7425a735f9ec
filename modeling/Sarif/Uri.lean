import Sarif.Node.FieldNames

/-!
# Resolving URIs

An artifact location may be relative to a named base, whose own location may be relative to a
further base. Resolving follows the names and puts the URIs together, innermost first. It keeps the
names that it has passed, so a chain that comes back to one of them ends there; and as every name
that is passed is that of a base, there are never more of them than there are bases.
-/

namespace Sarif

/-- The locations that base names stand for. -/
abbrev UriBases := Dict ArtifactLocation

/-- What a base is to a chain: its URI and the name of the base that it is relative to, if there is
a base of the name and it has a URI. -/
def UriBases.link? (bases : UriBases) (name : String) : Option (String × Option String) := do
  let base ← bases.get? name
  let front ← base.get ArtifactLocation.uri
  return (front, base.get ArtifactLocation.uriBaseId)

namespace Uri

/-- Two parts of a URI put together with exactly one slash between them, if that takes adding
one or dropping one. -/
def joinText (base relative : List Char) : List Char :=
  match base.getLast? == some '/', relative with
  | true, '/' :: rest => base ++ rest
  | true, _ => base ++ relative
  | false, '/' :: _ => base ++ relative
  | false, _ => base ++ '/' :: relative

/-- A relative URI put behind its base. -/
def join (base relative : String) : String :=
  String.ofList (joinText base.toList relative.toList)

/-- Where a resolution stands: the URI put together so far, the name of the base that it is relative
to, and the names passed on the way. -/
structure Resolution where
  uri : String
  base : Option String
  passed : List String

namespace Resolution

/-- One step of a resolution: its outcome, or where it stands after the next base. -/
def step (bases : UriBases) (r : Resolution) : Option String ⊕ Resolution :=
  match r.base with
  | none => .inl (some r.uri)
  | some name =>
    if name ∈ r.passed then .inl none
    else
      match bases.link? name with
      | none => .inl none
      | some (front, further) => .inr ⟨join front r.uri, further, r.passed ++ [name]⟩

/-- How many bases have not been passed. -/
def remaining (bases : UriBases) (r : Resolution) : Nat :=
  (bases.keys.filter fun name => name ∉ r.passed).length

end Resolution
end Uri

/-- A link is that of a base. -/
theorem UriBases.link?_eq_some_iff {bases : UriBases} {name front : String}
    {further : Option String} :
    bases.link? name = some (front, further) ↔
      ∃ base, bases.get? name = some base ∧ base.get ArtifactLocation.uri = some front ∧
        base.get ArtifactLocation.uriBaseId = further := by
  constructor
  · intro link
    obtain ⟨base, found, link⟩ := Option.bind_eq_some_iff.mp link
    obtain ⟨_, uri, link⟩ := Option.bind_eq_some_iff.mp link
    obtain ⟨rfl, further⟩ := Prod.mk.inj (Option.some.inj link)
    exact ⟨base, found, uri, further⟩
  · rintro ⟨base, found, uri, rfl⟩
    simp [link?, found, uri]

namespace Uri
namespace Resolution

/-- A resolution goes on exactly past a base that it has not passed. -/
theorem step_eq_inr_iff {bases : UriBases} {r next : Resolution} :
    r.step bases = .inr next ↔
      ∃ name front further, r.base = some name ∧ name ∉ r.passed ∧
        bases.link? name = some (front, further) ∧
        next = ⟨join front r.uri, further, r.passed ++ [name]⟩ := by
  constructor
  · intro onward
    unfold step at onward
    split at onward
    · cases onward
    · next name base =>
      split at onward
      · cases onward
      · next fresh =>
        split at onward
        · cases onward
        · next front further link =>
          exact ⟨name, front, further, base, fresh, link, (Sum.inr.inj onward).symm⟩
  · rintro ⟨name, front, further, base, fresh, link, rfl⟩
    simp [step, base, fresh, link]

/-- A resolution that goes on has passed one base more. -/
theorem remaining_lt_of_step {bases : UriBases} {r next : Resolution}
    (onward : r.step bases = .inr next) : next.remaining bases < r.remaining bases := by
  obtain ⟨name, front, further, _, fresh, link, rfl⟩ := step_eq_inr_iff.mp onward
  obtain ⟨base, found, _, _⟩ := UriBases.link?_eq_some_iff.mp link
  have fewer : (bases.keys.filter fun other => other ∉ r.passed ++ [name]) =
      (bases.keys.filter fun other => other ∉ r.passed).filter fun other => other ≠ name := by
    rw [List.filter_filter]
    refine List.filter_congr fun other _ => ?_
    by_cases same : other = name <;> simp [same]
  have waiting : name ∈ bases.keys.filter fun other => other ∉ r.passed :=
    List.mem_filter.mpr ⟨Dict.mem_keys_of_get? found, decide_eq_true fresh⟩
  rw [remaining, remaining, fewer, List.length_filter_lt_length_iff_exists]
  exact ⟨name, waiting, by simp⟩

/-- Follows the bases to the outcome of a resolution. -/
def run (bases : UriBases) (r : Resolution) : Option String :=
  match _onward : r.step bases with
  | .inl outcome => outcome
  | .inr next => next.run bases
termination_by r.remaining bases
decreasing_by exact remaining_lt_of_step _onward

end Resolution
end Uri

namespace ArtifactLocation

/-- The absolute URI of a location: nothing if it has no URI, or if a base is missing, has no
URI, or comes twice. -/
def resolve (location : ArtifactLocation) (bases : UriBases) : Option String := do
  let uri ← location.get uri
  Uri.Resolution.run bases ⟨uri, location.get uriBaseId, []⟩

/-- Whether two locations are of the same artifact: their URIs and base names agree, whatever
else they say. -/
def sameArtifact (location other : ArtifactLocation) : Bool :=
  location.get uri == other.get uri && location.get uriBaseId == other.get uriBaseId

end ArtifactLocation
end Sarif
