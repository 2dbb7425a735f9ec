import Sarif.Problem

/-!
# Errors of the object model

Equality, hashing and copying never fail. What does fail is copying from nothing, reading or
storing a property of the wrong shape, and making a sentinel below `-1`.
-/

namespace Sarif

/-- Why a value cannot be stored as JSON. -/
inductive StoreProblem where
  /-- An integer beyond what a stored number holds. -/
  | numberOutOfRange
  /-- A map whose keys are not strings. -/
  | keyNotString
  /-- A failure that the value itself reports. -/
  | reported (message : String)
  deriving DecidableEq, Repr

/-- Why a property is incompatible with what is asked of it. -/
inductive Incompatible where
  | read (problem : Problem)
  | store (problem : StoreProblem)
  deriving DecidableEq, Repr

/-- An error of the object model. -/
inductive Error where
  | absentSource (kind : Kind)
  | property (name : String) (cause : Incompatible)
  | invalidSentinel (raw : Int64)
  deriving DecidableEq, Repr

/-- The wording of a store problem. -/
def StoreProblem.message : StoreProblem → String
  | numberOutOfRange => "number out of range"
  | keyNotString => "key must be a string"
  | reported message => message

/-- The wording of the cause of a property error. A stored value is well-formed, so reading it
fails with a mismatch. -/
def Incompatible.message : Incompatible → String
  | read (.mismatch what) => what.message
  | read (.broken _) => ""
  | store problem => problem.message

/-- The wording of an error. -/
def Error.message : Error → String
  | absentSource k => "cannot copy-construct a " ++ k.name ++ " from an absent source"
  | property name _ => "property " ++ backticked name ++ " has an incompatible value"
  | invalidSentinel raw => Mismatch.sentinelMessage raw

end Sarif
