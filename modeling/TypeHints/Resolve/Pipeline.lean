import TypeHints.Resolve.Native

/-!
# Pipelines

A pipeline sends each subject to the resolver registered for its kind. Resolvers are data: the plain
ones, one that looks into doc comments before it asks another, and a whole pipeline as a resolver.
-/
namespace TypeHints

inductive Resolver where
  | hint
  | nativeType
  /-- The declared type of a parameter; scopes that it makes are templated or not. -/
  | parameter (templated : Bool)
  | property (templated : Bool)
  | result (templated : Bool)
  /-- A doc comment first, and `inner` if it says nothing. -/
  | documented (inner : Resolver)
  | dispatch (entries : List (SubjectKind × Resolver))
  deriving Inhabited

namespace Resolver
open Resolve

def foreign (wanted : SubjectKind) (subject : Subject) : Query Ty :=
  Query.fail (.foreignSubject s!"\"{wanted.name}\"" subject.kind)

def docCommentOf? : Subject → Option (Option String)
  | .property p => some p.docComment
  | .parameter f _ => some f.docComment
  | .function f => some f.docComment
  | _ => none

def documentedHint? (block : DocBlock) : Subject → Option String
  | .property _ => block.varType?
  | .parameter _ p => block.paramType? p.name
  | _ => block.returnType?

def memberScope : Subject → Query (Option Scope)
  | .property p => some <$> Scope.ofProperty true p
  | .parameter f _ => Scope.ofFunction true f
  | .function f => Scope.ofFunction true f
  | _ => pure none

mutual

def resolve : Resolver → Subject → Option Scope → Query Ty
  | .hint, .text written, scope => resolveHint scope written
  | .hint, subject, _ => foreign .text subject
  | .nativeType, .nativeType type, scope => resolveNative scope type
  | .nativeType, subject, _ => foreign .nativeType subject
  | .parameter templated, .parameter f p, scope => resolveParameter templated f p scope
  | .parameter _, subject, _ => foreign .parameter subject
  | .property templated, .property p, scope => resolveProperty templated p scope
  | .property _, subject, _ => foreign .property subject
  | .result templated, .function f, scope => resolveReturn templated f scope
  | .result _, subject, _ => foreign .function subject
  | .documented inner, subject, scope =>
    match docCommentOf? subject with
    | none => Query.fail (.foreignSubject "reflection member" subject.kind)
    | some none => inner.resolve subject scope
    | some (some comment) =>
      match documentedHint? (DocBlock.ofComment comment) subject with
      | none => inner.resolve subject scope
      | some text => do resolveHint (← scopeOr (memberScope subject) scope) text
  | .dispatch entries, subject, scope => dispatchTo entries subject scope

def dispatchTo : List (SubjectKind × Resolver) → Subject → Option Scope → Query Ty
  | [], subject, _ => Query.fail (.noResolver subject.kind)
  | (kind, resolver) :: rest, subject, scope =>
    if kind = subject.kind then resolver.resolve subject scope
    else dispatchTo rest subject scope

end

end Resolver

/-- Resolvers by kind, in the order in which the kinds were registered. -/
abbrev Pipeline := Keyed SubjectKind Resolver

namespace Pipeline

def asResolver (p : Pipeline) : Resolver := .dispatch p.entries

def resolve (p : Pipeline) (subject : Subject) (scope : Option Scope) : Query Ty :=
  p.asResolver.resolve subject scope

/-- Native types only: no texts, no doc comments, no templates. -/
def declaredOnly : Pipeline :=
  Keyed.ofList
    [(.nativeType, .nativeType), (.parameter, .parameter false), (.property, .property false),
     (.function, .result false)]

/-- Texts, and members whose doc comments go before their native types. -/
def documented : Pipeline :=
  Keyed.ofList
    [(.text, .hint), (.nativeType, .nativeType), (.parameter, .documented (.parameter true)),
     (.property, .documented (.property true)), (.function, .documented (.result true))]

end Pipeline

end TypeHints
