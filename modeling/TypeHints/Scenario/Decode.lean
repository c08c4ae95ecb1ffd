import TypeHints.Native.Decode
import TypeHints.Scenario.Basic

/-!
Scenarios, cases and scopes know no other fields than their own; the subjects of cases pass over
fields that they do not know.
-/
namespace TypeHints
open Json

def ScopeSpec.record : Record (Option String × ScopeSpec) ScopeSpec where
  title := "struct ContextSpec"
  fields :=
    [field "called" decodeText fun called draft => (some called, draft.2),
     field "declaring" (decodeOption decodeText) fun declaring draft =>
       (draft.1, { draft.2 with declaring }),
     field "namespace" (decodeOption decodeText) fun space draft =>
       (draft.1, { draft.2 with space }),
     field "uses" (decodeMap decodeText) fun uses draft => (draft.1, { draft.2 with uses })]
  draft := (none, { called := "" })
  build := fun draft => return { draft.2 with called := ← required "called" draft.1 }
  strict := true

def Category.decode : Decoder Category := enumeration (Category.all.map fun c => (c.name, unit c))

def PipelineChoice.decode : Decoder PipelineChoice :=
  enumeration [("reflection_only", unit .declaredOnly), ("doc_aware", unit .documented)]

/-! ### Subjects -/

structure SubjectDraft where
  owner : Option String := none
  method : Option String := none
  name : Option String := none

def ownerField : Json.Field SubjectDraft :=
  field "class" decodeText fun owner draft => { draft with owner }

def methodField : Json.Field SubjectDraft :=
  field "method" decodeText fun method draft => { draft with method }

def nameField : Json.Field SubjectDraft := field "name" decodeText fun name draft => { draft with name }

namespace CaseSubject

def propertyRecord : Record SubjectDraft CaseSubject where
  title := "struct variant CaseSubject::Property"
  fields := [ownerField, nameField]
  draft := {}
  build := fun draft => do
    return .property (← required "class" draft.owner) (← required "name" draft.name)

def resultRecord : Record SubjectDraft CaseSubject where
  title := "struct variant CaseSubject::Return"
  fields := [ownerField, methodField]
  draft := {}
  build := fun draft => do
    return .result (← required "class" draft.owner) (← required "method" draft.method)

def parameterRecord : Record SubjectDraft CaseSubject where
  title := "struct variant CaseSubject::Parameter"
  fields := [ownerField, methodField, nameField]
  draft := {}
  build := fun draft => do
    return .parameter (← required "class" draft.owner) (← required "method" draft.method)
      (← required "name" draft.name)

def decode : Decoder CaseSubject :=
  enumeration
    [("string", newtype fun d => (decodeText d).map CaseSubject.text),
     ("property", fields propertyRecord.decode),
     ("return", fields resultRecord.decode),
     ("parameter", fields parameterRecord.decode)]

end CaseSubject

/-! ### Cases and scenarios -/

def Case.record : Record (Option CaseSubject × Case) Case where
  title := "struct Case"
  fields :=
    [field "subject" CaseSubject.decode fun subject draft => (some subject, draft.2),
     field "context" (decodeOption ScopeSpec.record.decode) fun scope draft =>
       (draft.1, { draft.2 with scope }),
     field "without_context" decodeBool fun withoutScope draft =>
       (draft.1, { draft.2 with withoutScope }),
     field "expect" (decodeOption decodeText) fun rendered draft =>
       (draft.1, { draft.2 with rendered }),
     field "error" (decodeOption Category.decode) fun failed draft =>
       (draft.1, { draft.2 with failed })]
  draft := (none, { subject := .text "" })
  build := fun draft => return { draft.2 with subject := ← required "subject" draft.1 }
  strict := true

structure ScenarioDraft where
  world : Option String := none
  choice : PipelineChoice := .documented
  scope : Option ScopeSpec := none
  cases : Option (List Case) := none

def Scenario.record : Record ScenarioDraft Scenario where
  title := "struct Scenario"
  fields :=
    [field "world" (decodeTextAs "path string") fun world draft => { draft with world },
     field "pipeline" PipelineChoice.decode fun choice draft => { draft with choice },
     field "context" (decodeOption ScopeSpec.record.decode) fun scope draft =>
       { draft with scope },
     field "cases" (decodeList Case.record.decode) fun cases draft => { draft with cases }]
  draft := {}
  build := fun draft => do
    let world ← required "world" draft.world
    let cases ← required "cases" draft.cases
    return { world, choice := draft.choice, scope := draft.scope, cases }
  strict := true

def Scenario.decode : Decoder Scenario := Scenario.record.decode

end TypeHints
