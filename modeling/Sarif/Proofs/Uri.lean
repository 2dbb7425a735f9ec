import Sarif.Build
import Sarif.Proofs.Dict
import Sarif.Uri

/-!
# Chains of bases

The bases that a location is relative to form a chain. A resolution goes along the chain one base a
step and never passes a base twice, so it comes to its outcome after at most as many steps as there
are bases. It has a result exactly if the chain comes to an end (`Resolution.run_eq_some_iff`), and
sees nothing of the bases but the links of the chain (`Resolution.run_congr`).
`ArtifactLocation.resolve_spec` puts this together.
-/

namespace Sarif
namespace Uri

/-- The whole chain of bases from a base name on, each with its name and its URI: it ends at a
location that is relative to nothing, and every base on it is there and has a URI. -/
inductive Chain (bases : UriBases) : Option String → List (String × String) → Prop where
  | done : Chain bases none []
  | base {name front : String} {location : ArtifactLocation} {further : List (String × String)}
      (found : bases.get? name = some location)
      (uri : location.get ArtifactLocation.uri = some front)
      (rest : Chain bases (location.get ArtifactLocation.uriBaseId) further) :
      Chain bases (some name) ((name, front) :: further)

/-- The names that the chain of bases from a base name on comes to, whether or not it ends. -/
inductive Passes (bases : UriBases) : Option String → String → Prop where
  | here {name : String} : Passes bases (some name) name
  | later {name other front : String} {further : Option String}
      (link : bases.link? name = some (front, further)) (rest : Passes bases further other) :
      Passes bases (some name) other

/-- A chain comes to the name that it starts with. -/
theorem Passes.of_eq {bases : UriBases} {start : Option String} {name : String}
    (first : start = some name) : Passes bases start name :=
  first ▸ .here

/-- A URI put behind the URIs of a chain, the nearest base first. -/
def joinChain (uri : String) (chain : List (String × String)) : String :=
  chain.foldl (fun joined base => join base.2 joined) uri

section

variable {bases other : UriBases} {name front : String} {further : Option String}
  {chain : List (String × String)}

/-- Without a base the chain is empty. -/
theorem chain_none_iff : Chain bases none chain ↔ chain = [] := by
  constructor
  · rintro ⟨⟩
    rfl
  · rintro rfl
    exact .done

/-- The chain from a name on is the base of the name and the chain from its own base on. -/
theorem chain_some_iff : Chain bases (some name) chain ↔
    ∃ front further rest, bases.link? name = some (front, further) ∧ Chain bases further rest ∧
      chain = (name, front) :: rest := by
  constructor
  · rintro (_ | ⟨found, uri, rest⟩)
    exact ⟨_, _, _, UriBases.link?_eq_some_iff.mpr ⟨_, found, uri, rfl⟩, rest, rfl⟩
  · rintro ⟨front, further, rest, link, chain, rfl⟩
    obtain ⟨location, found, uri, rfl⟩ := UriBases.link?_eq_some_iff.mp link
    exact .base found uri chain

namespace Resolution

variable {r next : Resolution} {outcome : Option String}

/-- What a step that goes no further leaves as the outcome. -/
theorem run_of_ended (ended : r.step bases = .inl outcome) : r.run bases = outcome := by
  rw [run]
  split
  · next found => exact Sum.inl.inj (found.symm.trans ended)
  · next onward => cases onward.symm.trans ended

/-- A step that goes on leaves the outcome as it is. -/
theorem run_of_onward (onward : r.step bases = .inr next) : r.run bases = next.run bases := by
  rw [run]
  split
  · next ended => cases ended.symm.trans onward
  · next found => rw [Sum.inr.inj (found.symm.trans onward)]

/-- A resolution ends with a URI if it is relative to nothing, and without one if its base has been
passed or has no link. -/
theorem step_eq_inl_iff : r.step bases = .inl outcome ↔
    (r.base = none ∧ outcome = some r.uri) ∨
      ∃ name, r.base = some name ∧ (name ∈ r.passed ∨ bases.link? name = none) ∧
        outcome = none := by
  constructor
  · intro ended
    unfold step at ended
    split at ended
    · next base => exact .inl ⟨base, (Sum.inl.inj ended).symm⟩
    · next name base =>
        split at ended
        · next passed => exact .inr ⟨name, base, .inl passed, (Sum.inl.inj ended).symm⟩
        · split at ended
          · next missing => exact .inr ⟨name, base, .inr missing, (Sum.inl.inj ended).symm⟩
          · cases ended
  · rintro (⟨base, rfl⟩ | ⟨name, base, passed | missing, rfl⟩)
    · simp [step, base]
    · simp [step, base, passed]
    · simp [step, base, missing]

/-- A resolution comes to a URI exactly if the chain of its base ends and passes no name twice, nor
one that was passed before; the URI is the one so far behind those of the chain. -/
theorem run_eq_some_iff {result : String} (distinct : r.passed.Nodup) :
    r.run bases = some result ↔
      ∃ chain, Chain bases r.base chain ∧ (r.passed ++ chain.map Prod.fst).Nodup ∧
        result = joinChain r.uri chain := by
  induction r using run.induct bases with
  | case1 r outcome ended =>
      rw [run_of_ended ended]
      rcases step_eq_inl_iff.mp ended with ⟨base, rfl⟩ | ⟨name, base, stuck, rfl⟩
      · simp [base, chain_none_iff, distinct, joinChain, eq_comm]
      · refine ⟨nofun, ?_⟩
        rintro ⟨chain, whole, fresh, _⟩
        rw [base] at whole
        obtain ⟨front, further, rest, link, _, rfl⟩ := chain_some_iff.mp whole
        rcases stuck with passed | missing
        · exact absurd rfl ((List.nodup_append.mp fresh).2.2 name passed name (by simp))
        · cases missing.symm.trans link
  | case2 r next onward inductionHypothesis =>
      obtain ⟨name, front, further, base, fresh, link, rfl⟩ := step_eq_inr_iff.mp onward
      have stillDistinct : (r.passed ++ [name]).Nodup :=
        List.concat_eq_append ▸ distinct.concat fresh
      rw [run_of_onward onward, inductionHypothesis stillDistinct, base]
      constructor
      · rintro ⟨rest, chain, unpassed, rfl⟩
        refine ⟨(name, front) :: rest, ?_, ?_, rfl⟩
        · exact chain_some_iff.mpr ⟨front, further, rest, link, chain, rfl⟩
        · simpa using unpassed
      · rintro ⟨whole, chain, unpassed, rfl⟩
        obtain ⟨_, _, rest, found, chain, rfl⟩ := chain_some_iff.mp chain
        obtain ⟨rfl, rfl⟩ := Prod.mk.inj (Option.some.inj (link.symm.trans found))
        exact ⟨rest, chain, by simpa using unpassed, rfl⟩

/-- A resolution comes to its outcome after a number of bases. -/
inductive EndsAfter (bases : UriBases) : Nat → Resolution → Option String → Prop where
  | now {r : Resolution} {outcome : Option String} (ended : r.step bases = .inl outcome) :
      EndsAfter bases 0 r outcome
  | onward {r next : Resolution} {outcome : Option String} {count : Nat}
      (step : r.step bases = .inr next) (rest : EndsAfter bases count next outcome) :
      EndsAfter bases (count + 1) r outcome

/-- Step by step a resolution comes to its outcome, after no more bases than there are that it has
not passed. -/
theorem exists_endsAfter (bases : UriBases) (r : Resolution) :
    ∃ count ≤ r.remaining bases, EndsAfter bases count r (r.run bases) := by
  induction r using run.induct bases with
  | case1 r outcome ended =>
      rw [run_of_ended ended]
      exact ⟨0, Nat.zero_le _, .now ended⟩
  | case2 r next onward inductionHypothesis =>
      obtain ⟨count, few, ends⟩ := inductionHypothesis
      rw [run_of_onward onward]
      exact ⟨count + 1, Nat.lt_of_le_of_lt few (remaining_lt_of_step onward), .onward onward ends⟩

/-- No more bases are left to pass than there are. -/
theorem remaining_le_size (bases : UriBases) (r : Resolution) : r.remaining bases ≤ bases.size := by
  refine Nat.le_trans (List.length_filter_le _ _) ?_
  rw [Dict.keys, List.length_map]
  exact Nat.le_refl _

/-- A step sees of the bases the link of its own. -/
theorem step_congr (agree : ∀ name, r.base = some name → other.link? name = bases.link? name) :
    r.step other = r.step bases := by
  cases base : r.base with
  | none => rw [step, step, base]
  | some name => simp only [step, base, agree name base]

/-- A resolution sees of the bases the links of the chain of its base. -/
theorem run_congr
    (agree : ∀ name, Passes bases r.base name → other.link? name = bases.link? name) :
    r.run other = r.run bases := by
  have alike : r.step other = r.step bases :=
    step_congr fun name base => agree name (.of_eq base)
  induction r using run.induct bases with
  | case1 r outcome ended => rw [run_of_ended ended, run_of_ended (alike.trans ended)]
  | case2 r next onward inductionHypothesis =>
      obtain ⟨name, front, further, base, fresh, link, rfl⟩ := step_eq_inr_iff.mp onward
      rw [run_of_onward onward, run_of_onward (alike.trans onward)]
      have agreeOn : ∀ name, Passes bases further name → other.link? name = bases.link? name :=
        fun name passes => agree name (base ▸ .later link passes)
      exact inductionHypothesis agreeOn (step_congr fun name base => agreeOn name (.of_eq base))

end Resolution
end
end Uri

namespace ArtifactLocation

/-- Resolving a location ends after at most as many bases as there are. It gives a URI exactly if
the location has one and its chain of bases ends, with each base there and with a URI and none
twice, and then the URI of the location behind those of the chain. It depends on the links of the
chain alone, so neither on other bases nor on the order of the bases. -/
theorem resolve_spec (location : ArtifactLocation) (bases : UriBases) :
    (∀ relative, location.get uri = some relative →
      ∃ count ≤ bases.size, Uri.Resolution.EndsAfter bases count
        ⟨relative, location.get uriBaseId, []⟩ (location.resolve bases)) ∧
    (∀ result, location.resolve bases = some result ↔
      ∃ relative chain, location.get uri = some relative ∧
        Uri.Chain bases (location.get uriBaseId) chain ∧ (chain.map Prod.fst).Nodup ∧
        result = Uri.joinChain relative chain) ∧
    (∀ other : UriBases,
      (∀ name, Uri.Passes bases (location.get uriBaseId) name →
        other.link? name = bases.link? name) →
      location.resolve other = location.resolve bases) ∧
    ∀ other : UriBases, bases.WellFormed → bases.entries.Perm other.entries →
      location.resolve other = location.resolve bases := by
  have linksSuffice : ∀ other : UriBases,
      (∀ name, Uri.Passes bases (location.get uriBaseId) name →
        other.link? name = bases.link? name) →
      location.resolve other = location.resolve bases := by
    intro other agree
    rw [resolve, resolve]
    cases location.get uri with
    | none => rfl
    | some relative => exact Uri.Resolution.run_congr agree
  refine ⟨?_, ?_, linksSuffice, ?_⟩
  · intro relative found
    rw [resolve, found]
    obtain ⟨count, few, ends⟩ :=
      Uri.Resolution.exists_endsAfter bases ⟨relative, location.get uriBaseId, []⟩
    exact ⟨count, Nat.le_trans few (Uri.Resolution.remaining_le_size ..), ends⟩
  · intro result
    rw [resolve]
    cases location.get uri with
    | none => simp
    | some relative =>
        have outcome : Uri.Resolution.run bases ⟨relative, location.get uriBaseId, []⟩ =
            some result ↔ _ := Uri.Resolution.run_eq_some_iff List.nodup_nil
        rw [Option.bind_eq_bind, Option.bind_some, outcome]
        simp only [List.nil_append, Option.some.injEq, exists_and_left, exists_eq_left']
  · intro other distinct perm
    refine linksSuffice other fun name _ => ?_
    rw [UriBases.link?, UriBases.link?, Dict.get?, Dict.get?,
      Dict.lookup_eq_of_perm distinct perm name]

/-- A source tree in a repository, and two bases that are relative to each other. -/
def sourceBases : UriBases :=
  ⟨[("SRCROOT", ofUriAndBase "src" "REPOROOT"), ("LOOP", ofUriAndBase "a" "POOL"),
    ("REPOROOT", ofUri "file:///repo/"), ("POOL", ofUriAndBase "b" "LOOP")]⟩

/-- The source tree without the other bases and the other way round. -/
def treeBases : UriBases :=
  ⟨[("REPOROOT", ofUri "file:///repo/"), ("SRCROOT", ofUriAndBase "src" "REPOROOT")]⟩

/-- A file of the source tree has a URI, and the bases that it is not relative to do not matter. -/
theorem resolve_spec_sourceTree :
    (ofUriAndBase "lib.rs" "SRCROOT").resolve sourceBases = some "file:///repo/src/lib.rs" ∧
      (ofUriAndBase "lib.rs" "SRCROOT").resolve treeBases = some "file:///repo/src/lib.rs" := by
  obtain ⟨_, value, links, _⟩ := resolve_spec (ofUriAndBase "lib.rs" "SRCROOT") sourceBases
  have resolved := (value "file:///repo/src/lib.rs").mpr
    ⟨"lib.rs", [("SRCROOT", "src"), ("REPOROOT", "file:///repo/")], rfl,
      .base rfl rfl (.base rfl rfl .done), by decide, by decide⟩
  have source : sourceBases.link? "SRCROOT" = some ("src", some "REPOROOT") := rfl
  have repository : sourceBases.link? "REPOROOT" = some ("file:///repo/", none) := rfl
  refine ⟨resolved, (links treeBases ?_).trans resolved⟩
  rintro name (_ | ⟨link, passes⟩)
  · rfl
  · obtain ⟨_, rfl⟩ := Prod.mk.inj (Option.some.inj (source.symm.trans link))
    rcases passes with _ | ⟨link, passes⟩
    · rfl
    · obtain ⟨_, rfl⟩ := Prod.mk.inj (Option.some.inj (repository.symm.trans link))
      cases passes

end ArtifactLocation
end Sarif
