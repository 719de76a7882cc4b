import Mathlib

/-!
# Graph errors

The error type of the graph engine.  Every fallible operation of the model
returns `Except GraphError`, so that an error's code, path and message are
part of what is modelled.
-/

namespace RelayerGraph

/-- One entry of a validation report. -/
structure ValidationIssue where
  code : String
  path : String
  message : String
deriving DecidableEq, Repr

/-- `GraphError` without the wrappers of the storage driver's own errors,
which carry no graph-level information. -/
inductive GraphError
  | validation (code path message : String)
  | validationIssues (message : String) (issues : List ValidationIssue)
  | notFound (what : String)
  | forbidden (message : String)
  | storage (message : String)
  | internal (message : String)
deriving DecidableEq, Repr

namespace GraphError

/-- The report of several issues, whose message joins theirs. -/
def ofIssues (issues : List ValidationIssue) : GraphError :=
  .validationIssues (" ".intercalate (issues.map (·.message))) issues

/-- How an error is displayed. -/
def text : GraphError → String
  | .validation _ _ message => message
  | .validationIssues message _ => message
  | .notFound what => s!"not found: {what}"
  | .forbidden message => s!"access denied: {message}"
  | .storage message => s!"graph storage failed: {message}"
  | .internal message => s!"graph engine failed: {message}"

end GraphError

/-- Results of the graph engine. -/
abbrev GraphResult (α : Type) := Except GraphError α

end RelayerGraph
