import TypeHints.Files.Glob
import TypeHints.Scenario.Decode
import TypeHints.Scenario.Report

/-!
The cases of a scenario share one session. A case that cannot be run, and a file that cannot be
read, end the whole run; a subject that cannot be resolved is an outcome like any other.
-/
namespace TypeHints

inductive RunFault where
  | unreadable (path : String) (cause : FileFault)
  | malformedScenario (path : String) (cause : Json.DecodeError)
  | malformedWorld (path : String) (cause : Json.DecodeError)
  | brokenCase (path : String) (index : Nat) (cause : CaseFault)
  /-- A pattern of paths is malformed at a character. -/
  | malformedPattern (position : Nat)
  | noMatch (pattern : String)
  deriving DecidableEq, Repr

namespace RunFault

def message : RunFault → String
  | .unreadable path _ => s!"failed to read {path}"
  | .malformedScenario path _ => s!"invalid scenario {path}"
  | .malformedWorld path _ => s!"invalid class manifest {path}"
  | .brokenCase path index _ => s!"{path} case #{index}"
  | .malformedPattern position =>
    s!"Pattern syntax error near position {position}: invalid range pattern"
  | .noMatch pattern => s!"glob pattern matched no files: {pattern}"

def cause? : RunFault → Option String
  | .unreadable _ cause => some cause.message
  | .malformedScenario _ cause => some cause.message
  | .malformedWorld _ cause => some cause.message
  | .brokenCase _ _ cause => some cause.message
  | .malformedPattern _ => none
  | .noMatch _ => none

end RunFault

/-! ### Cases -/

def Outcome.ofAnswer : Except Failure Ty → Outcome
  | .ok t => .rendered t.render
  | .error f => .failed f.category

namespace Scenario

/-- What is expected of a case, what comes of it, and the session after it. -/
def runCase (common : Option ScopeSpec) (s : Session) (c : Case) :
    Except CaseFault (Outcome × Outcome × Session) := do
  let expected ← c.expected
  let subject ← s.world.subjectOf c.subject
  match s.resolve subject (c.scopeIn common) with
  | (answer, s) => return (expected, .ofAnswer answer, s)

/-- Runs cases, the first of them with the given index. -/
def runCases (path : String) (common : Option ScopeSpec) : (index : Nat) → List Case → Session →
    Except RunFault (List CaseResult)
  | _, [], _ => .ok []
  | index, c :: rest, s =>
    match runCase common s c with
    | .error cause => .error (.brokenCase path index cause)
    | .ok (expected, actual, s) => do
      let others ← runCases path common (index + 1) rest s
      return { scenario := path, index, subject := c.subject.display, expected, actual } :: others

def run (sc : Scenario) (path : String) (table : ClassTable) : Except RunFault Report := do
  let session : Session := { world := { table }, pipeline := sc.choice.pipeline }
  return ⟨← runCases path sc.scope 0 sc.cases session⟩

/-! ### Files -/

variable {m : Type → Type} [Monad m]

def load {α : Type} (files : Files m) (decode : Json.Decoder α)
    (malformed : String → Json.DecodeError → RunFault) (path : String) : ExceptT RunFault m α := do
  match ← files.read path with
  | .error cause => throw (.unreadable path cause)
  | .ok text =>
    match Json.decodeString decode text with
    | .ok value => return value
    | .error cause => throw (malformed path cause)

def runFile (files : Files m) (path : String) : ExceptT RunFault m Report := do
  let scenario ← load files Scenario.decode .malformedScenario path
  let world := Files.join (Files.parent path) scenario.world
  let table ← load files ClassTable.decode .malformedWorld world
  ExceptT.mk (pure (scenario.run path table))

/-- The paths that patterns stand for; a path that is no pattern need not lead anywhere. -/
def discover (files : Files m) : (patterns : List String) → ExceptT RunFault m (List String)
  | [] => return []
  | pattern :: rest => do
    let found ←
      if Glob.isPattern pattern then
        match ← ExceptT.lift (Glob.find files pattern) with
        | .error position => throw (.malformedPattern position)
        | .ok [] => throw (.noMatch pattern)
        | .ok paths => pure paths
      else pure [pattern]
    return found ++ (← discover files rest)

def runAll (files : Files m) (patterns : List String) : ExceptT RunFault m Report := do
  let paths ← discover files patterns
  return Report.concat (← paths.mapM fun path => runFile files path)

end Scenario

end TypeHints
