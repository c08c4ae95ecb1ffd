import TypeHints.Json.Document
import TypeHints.Scenario.Basic

namespace TypeHints
open Json

def Outcome.toDocument : Outcome → Document
  | .rendered text => .ofMembers [("rendered", .text text)]
  | .failed category => .ofMembers [("failed", .text category.name)]

structure CaseResult where
  scenario : String
  index : Nat
  subject : String
  expected : Outcome
  actual : Outcome
  deriving DecidableEq, Repr

namespace CaseResult

def passed (r : CaseResult) : Bool := r.expected = r.actual

def toDocument (r : CaseResult) : Document :=
  .ofMembers [("scenario", .text r.scenario), ("index", .integer r.index),
    ("subject", .text r.subject), ("expected", r.expected.toDocument),
    ("actual", r.actual.toDocument)]

end CaseResult

/-- Results in the order in which the cases ran. -/
structure Report where
  results : List CaseResult := []
  deriving DecidableEq, Repr, Inhabited

namespace Report

def failures (r : Report) : List CaseResult := r.results.filter (!·.passed)

def isSuccess (r : Report) : Bool := r.failures.isEmpty

def append (r other : Report) : Report := ⟨r.results ++ other.results⟩

def concat (rs : List Report) : Report := rs.foldl append {}

def toDocument (r : Report) : Document :=
  .ofMembers [("results", .ofList (r.results.map CaseResult.toDocument))]

theorem results_append (r other : Report) : (r.append other).results = r.results ++ other.results :=
  rfl

theorem isSuccess_iff (r : Report) : r.isSuccess = true ↔ ∀ c ∈ r.results, c.passed = true := by
  simp [isSuccess, failures, List.isEmpty_iff, List.filter_eq_nil_iff]

end Report

end TypeHints
