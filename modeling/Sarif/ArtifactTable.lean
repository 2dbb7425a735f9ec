import Sarif.Uri
import Sarif.NodeList
import Sarif.Node.Default

/-!
# The artifact table of a run

A run keeps a table of artifacts, and locations refer to artifacts by their index in it.
`Run.artifactIndex` finds the artifact that a location refers to, by its URI and base name, and
may add it. An index that the location already has is trusted only if it still leads to that
artifact; otherwise the first artifact that matches is taken.
-/

namespace Sarif

namespace Artifact

/-- An artifact of which only the location is known. -/
def ofLocation (location : ArtifactLocation) : Artifact :=
  (Node.default .artifact).set Artifact.location (some location)

/-- Whether an artifact is the one that a location refers to. -/
def isAt (artifact : Artifact) (location : ArtifactLocation) : Bool :=
  match artifact.get Artifact.location with
  | some known => ArtifactLocation.sameArtifact known location
  | none => false

end Artifact

namespace ArtifactLocation

/-- The location with an index. -/
def withIndex (location : ArtifactLocation) (index : Nat) : ArtifactLocation :=
  location.set ArtifactLocation.index (Sentinel.ofNat index)

/-- The index of a location if it leads to the artifact in a table. -/
def trustedIndex? (location : ArtifactLocation) (table : NodeList Artifact) : Option Nat :=
  (Sentinel.value? (location.get index)).filter fun i =>
    (NodeList.at? table i).any (Artifact.isAt · location)

/-- The index in a table of the artifact that a location refers to. -/
def indexIn? (location : ArtifactLocation) (table : NodeList Artifact) : Option Nat :=
  (location.trustedIndex? table).or (NodeList.position? table (Artifact.isAt · location))

end ArtifactLocation

/-- What a look-up in the artifact table gives: the run and the location afterwards, and the
index, unset if there is none. -/
structure ArtifactLookup where
  run : Run
  location : ArtifactLocation
  index : Sentinel

namespace Run

/-- Finds the artifact that a location refers to, and adds it to the table if it is missing and
`add` is set. The location then has its index; if nothing was found or added, neither the run
nor the location changes. -/
def artifactIndex (run : Run) (location : ArtifactLocation) (add : Bool) : ArtifactLookup :=
  let found (i : Nat) (run : Run) : ArtifactLookup :=
    ⟨run, location.withIndex i, Sentinel.ofNat i⟩
  match (run.get artifacts).bind location.indexIn? with
  | some i => found i run
  | none =>
    if add then
      let table := (run.get artifacts).getD []
      let artifact := Artifact.ofLocation (location.withIndex table.length)
      found table.length (run.set artifacts (some (NodeList.push table (some artifact))))
    else ⟨run, location, Sentinel.unset⟩

end Run
end Sarif
