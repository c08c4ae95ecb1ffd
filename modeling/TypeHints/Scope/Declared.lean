import TypeHints.DocBlock
import TypeHints.Resolve.Hint

/-!
# Scopes of declarations

The scope in which a class or a member is declared. Templates are read from doc comments only by a
`templated` builder; a bound that nothing supports counts as `mixed`, and a member's templates hide
those of its class.
-/
namespace TypeHints.Scope

def templateBound (scope : Scope) : Option String → Query Ty
  | none => pure .mixed
  | some text => do
    match ← (Resolve.resolveHint (some scope) text).attempt with
    | .ok t => return t
    | .error f => if f.isUnsupported then return .mixed else Query.fail f

def collectTemplates (scope : Scope) : List TemplateTag → Keyed String Ty → Query (Keyed String Ty)
  | [], found => pure found
  | tag :: rest, found => do
    let bound ← templateBound scope tag.bound
    collectTemplates scope rest (found.put tag.name bound)

def docTemplates (templated : Bool) (scope : Scope) : (docComment : Option String) →
    Query (Keyed String Ty)
  | none => pure Keyed.empty
  | some comment =>
    if templated then collectTemplates scope (DocBlock.ofComment comment).templates Keyed.empty
    else pure Keyed.empty

/-- The scope of a class under the given names, without templates. -/
def bareOf (c : ClassDecl) (called declaring : String) : Query Scope := do
  let uses ← Query.aliasesOf c
  return { (Scope.withSpace { called, declaring } (ClassName.space c.name)) with uses }

def ofClassName (templated : Bool) (called : String) (declaring : Option String) : Query Scope := do
  let declaring := declaring.getD called
  let c ← Query.theClass declaring
  let scope ← bareOf c (ClassName.short called) (ClassName.short declaring)
  let templates ← docTemplates templated scope c.docComment
  return { scope with templates }

def ofClass (templated : Bool) (c : ClassDecl) : Query Scope := do
  let scope ← bareOf c (ClassName.short c.name) (ClassName.short c.name)
  let templates ← docTemplates templated scope c.docComment
  return { scope with templates }

def ofProperty (templated : Bool) (p : PropertyDecl) : Query Scope := do
  ofClass templated (← Query.theClass p.declaringClass)

/-- A function outside of any class has no scope. -/
def ofFunction (templated : Bool) (f : FunctionDecl) : Query (Option Scope) :=
  match f.declaringClass with
  | none => pure none
  | some declaring => do
    let c ← Query.theClass declaring
    let scope ← bareOf c (ClassName.short c.name) (ClassName.short c.name)
    let own ← docTemplates templated scope f.docComment
    let inherited ← docTemplates templated scope c.docComment
    return some { scope with templates := own.putMissing inherited }

end TypeHints.Scope
