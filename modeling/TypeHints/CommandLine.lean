import TypeHints.Json.Print
import TypeHints.Scenario.Run

/-!
Runs the scenarios of the given paths and patterns, or without any those that come with the program,
and prints the cases that fail, or all of them, or the whole report as JSON. The exit code is zero
if every case passes.
-/
namespace TypeHints.CommandLine

structure Options where
  patterns : List String := []
  /-- Cases that pass are printed too. -/
  verbose : Bool := false
  json : Bool := false
  deriving DecidableEq, Repr

/-- Arguments in any order; after two dashes all are paths. An unknown option is an error. -/
def Options.ofArgs (o : Options) : List String → Except String Options
  | [] => .ok o
  | "--" :: rest => .ok { o with patterns := o.patterns ++ rest }
  | "--json" :: rest => Options.ofArgs { o with json := true } rest
  | "--verbose" :: rest => Options.ofArgs { o with verbose := true } rest
  | "-v" :: rest => Options.ofArgs { o with verbose := true } rest
  | arg :: rest =>
    if arg.toList.head? = some '-' && arg ≠ "-" then .error arg
    else Options.ofArgs { o with patterns := o.patterns ++ [arg] } rest

structure Output where
  code : UInt8 := 0
  stdout : String := ""
  stderr : String := ""
  deriving DecidableEq, Repr

def resultLine (r : CaseResult) : String :=
  let status := if r.passed then "ok  " else "FAIL"
  s!"{status} {r.scenario}#{r.index} {r.subject} => {r.actual.display} " ++
    s!"(expected {r.expected.display})\n"

def summary (r : Report) : String :=
  let failed := r.failures.length
  s!"{r.results.length - failed} passed, {failed} failed\n"

def reportText (o : Options) (r : Report) : String :=
  if o.json then r.toDocument.pretty ++ "\n"
  else
    let shown := r.results.filter fun c => o.verbose || !c.passed
    String.join (shown.map resultLine) ++ summary r

def indented (text : String) : String :=
  String.ofList <| [' ', ' ', ' ', ' '] ++
    text.toList.flatMap fun c => if c = '\n' then ['\n', ' ', ' ', ' ', ' '] else [c]

def faultText (f : RunFault) : String :=
  s!"Error: {f.message}\n" ++
    match f.cause? with
    | some cause => "\nCaused by:\n" ++ indented cause ++ "\n"
    | none => ""

def usageError (arg : String) : Output :=
  { code := 2, stderr := s!"error: unexpected argument '{arg}' found\n" }

/-- The scenarios that come with the program, which is kept in `home`. -/
def bundledPattern (home : String) : String := home ++ "/fixtures/scenarios/*.json"

def Options.patternsAt (o : Options) (home : String) : List String :=
  if o.patterns.isEmpty then [bundledPattern home] else o.patterns

def run {m : Type → Type} [Monad m] (files : Files m) (home : String) (args : List String) :
    m Output := do
  match Options.ofArgs {} args with
  | .error arg => return usageError arg
  | .ok o =>
    match ← (Scenario.runAll files (o.patternsAt home)).run with
    | .ok report =>
      return { code := if report.isSuccess then 0 else 1, stdout := reportText o report }
    | .error fault => return { code := 1, stderr := faultText fault }

end TypeHints.CommandLine
