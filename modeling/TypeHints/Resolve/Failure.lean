import TypeHints.Hint.Read
import TypeHints.Resolve.Subject
import TypeHints.Ty.Build

/-!
Why a type cannot be resolved. A failure of the unsupported kind may have another one as its cause;
`Failure.causes` tells the whole chain, outermost first.
-/
namespace TypeHints

inductive Failure where
  | malformedHint (text : String) (cause : Hint.ReadError)
  /-- The text is a type expression that nothing here gives a type. -/
  | unresolvedHint (text : String) (cause : Failure)
  | unknownName (name : String)
  | untypedConstant (text : String)
  | unknownNativeType (kind : String)
  | unknownBuiltin (name : String)
  | undeclaredType
  | unresolvedMember (path : MemberPath) (cause : Failure)
  /-- A resolver was handed a subject of another kind than it takes. -/
  | foreignSubject (wanted : String) (given : SubjectKind)
  | noResolver (kind : SubjectKind)
  | construction (error : ConstructionError)
  | scopeRequired (word : String)
  | noParent (className : String)
  | unknownClass (name : String)
  | unreadableFile (shortName : String)

inductive Category where
  | unsupported | invalidConstruction | missingAncestor | environment
  deriving DecidableEq, Repr

def Category.all : List Category :=
  [.unsupported, .invalidConstruction, .missingAncestor, .environment]

def Category.name : Category → String
  | .unsupported => "unsupported"
  | .invalidConstruction => "invalid_construction"
  | .missingAncestor => "missing_ancestor"
  | .environment => "environment"

def Category.title : Category → String
  | .unsupported => "Unsupported"
  | .invalidConstruction => "InvalidConstruction"
  | .missingAncestor => "MissingAncestor"
  | .environment => "Environment"

namespace Failure

def category : Failure → Category
  | .construction _ | .scopeRequired _ => .invalidConstruction
  | .noParent _ => .missingAncestor
  | .unknownClass _ | .unreadableFile _ => .environment
  | _ => .unsupported

def isUnsupported (f : Failure) : Bool := f.category = .unsupported

def message : Failure → String
  | .malformedHint text _ => s!"Cannot resolve \"{text}\"."
  | .unresolvedHint text _ => s!"Cannot resolve \"{text}\"."
  | .unknownName name => s!"Unhandled \"{name}\" identifier."
  | .untypedConstant text => s!"Unhandled \"{text}\" constant expression."
  | .unknownNativeType kind =>
    s!"Expected a named, union or intersection type node, \"{kind}\" given."
  | .unknownBuiltin name => s!"Unknown builtin type \"{name}\"."
  | .undeclaredType => "Expected a native type node, none given."
  | .unresolvedMember path _ => s!"Cannot resolve type for \"{path.text}\"."
  | .foreignSubject wanted given =>
    s!"Expected subject to be a {wanted}, \"{given.name}\" given."
  | .noResolver kind => s!"Cannot find any resolver for \"{kind.name}\" type."
  | .construction error => error.message
  | .scopeRequired word => s!"A resolution context must be provided to resolve \"{word}\"."
  | .noParent className => s!"\"{className}\" does not extend any class"
  | .unknownClass name => s!"class \"{name}\" is not known to the reflector"
  | .unreadableFile shortName => s!"Unable to read file \"{shortName}.php\"."

def causes : Failure → List String
  | .malformedHint _ cause => [cause.message]
  | .unresolvedHint _ cause => cause.message :: cause.causes
  | .unresolvedMember _ cause => cause.message :: cause.causes
  | _ => []

end Failure

end TypeHints
