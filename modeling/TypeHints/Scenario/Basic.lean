import TypeHints.Session

/-!
A scenario names a file with classes, a pipeline and a list of cases. A case has a subject and
states what must come of it: a type, by its text, or a failure, by its category.
-/
namespace TypeHints

/-- A scope as it is written, without templates. -/
structure ScopeSpec where
  called : String
  /-- The called class, unless given. -/
  declaring : Option String := none
  space : Option String := none
  uses : Keyed String String := Keyed.empty
  deriving Inhabited

def ScopeSpec.scope (spec : ScopeSpec) : Scope :=
  let scope : Scope :=
    { called := spec.called, declaring := spec.declaring.getD spec.called, uses := spec.uses }
  match spec.space with
  | some space => scope.withSpace space
  | none => scope

inductive CaseSubject where
  | text (hint : String)
  | property (owner name : String)
  | result (owner method : String)
  | parameter (owner method name : String)
  deriving DecidableEq, Repr

def CaseSubject.display : CaseSubject → String
  | .text hint => "\"" ++ hint ++ "\""
  | .property owner name => (MemberPath.property owner name).text
  | .result owner method => (MemberPath.result (some owner) method).text
  | .parameter owner method name => (MemberPath.parameter (some owner) method name).text

inductive PipelineChoice where
  | declaredOnly
  | documented
  deriving DecidableEq, Repr

def PipelineChoice.pipeline : PipelineChoice → Pipeline
  | .declaredOnly => Pipeline.declaredOnly
  | .documented => Pipeline.documented

structure Case where
  subject : CaseSubject
  /-- Goes before the scope of the scenario. -/
  scope : Option ScopeSpec := none
  withoutScope : Bool := false
  rendered : Option String := none
  failed : Option Category := none

structure Scenario where
  /-- The file with the classes, from where the scenario is. -/
  world : String
  choice : PipelineChoice := .documented
  scope : Option ScopeSpec := none
  cases : List Case

inductive Outcome where
  | rendered (text : String)
  | failed (category : Category)
  deriving DecidableEq, Repr

def Outcome.display : Outcome → String
  | .rendered text => text
  | .failed category => s!"<{category.title} error>"

inductive CaseFault where
  /-- Neither outcome is stated, or both are. -/
  | expectation
  | unknownClass (name : String)
  | unknownProperty (owner name : String)
  | unknownMethod (owner name : String)
  | unknownParameter (owner method name : String)
  deriving DecidableEq, Repr

def CaseFault.message : CaseFault → String
  | .expectation => "exactly one of \"expect\" or \"error\" is required"
  | .unknownClass name => s!"unknown class {name}"
  | .unknownProperty owner name => s!"unknown property {owner}::${name}"
  | .unknownMethod owner name => s!"unknown method {owner}::{name}"
  | .unknownParameter owner method name => s!"unknown parameter ${name} of {owner}::{method}"

namespace Case

/-- The outcome that the case states. -/
def expected (c : Case) : Except CaseFault Outcome :=
  match c.rendered, c.failed with
  | some text, none => .ok (.rendered text)
  | none, some category => .ok (.failed category)
  | _, _ => .error .expectation

def scopeIn (c : Case) (common : Option ScopeSpec) : Option Scope :=
  if c.withoutScope then none else (c.scope.or common).map ScopeSpec.scope

end Case

namespace World

def classNamed (w : World) (name : String) : Except CaseFault ClassDecl :=
  match w.find? name with
  | some c => .ok c
  | none => .error (.unknownClass name)

def methodNamed (w : World) (owner name : String) : Except CaseFault FunctionDecl := do
  match (← w.classNamed owner).method? name with
  | some f => .ok f
  | none => .error (.unknownMethod owner name)

def subjectOf (w : World) : CaseSubject → Except CaseFault Subject
  | .text hint => .ok (.text hint)
  | .property owner name => do
    match (← w.classNamed owner).property? name with
    | some p => .ok (.property p)
    | none => .error (.unknownProperty owner name)
  | .result owner method => do return .function (← w.methodNamed owner method)
  | .parameter owner method name => do
    let f ← w.methodNamed owner method
    match f.parameter? name with
    | some p => .ok (.parameter f p)
    | none => .error (.unknownParameter owner method name)

end World

end TypeHints
