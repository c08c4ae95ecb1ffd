import TypeHints.Native.Decl

namespace TypeHints

inductive SubjectKind where
  | text | nativeType | parameter | property | function
  deriving DecidableEq, Repr

def SubjectKind.name : SubjectKind → String
  | .text => "string"
  | .nativeType => "reflection type"
  | .parameter => "reflection parameter"
  | .property => "reflection property"
  | .function => "reflection function"

inductive Subject where
  | text (hint : String)
  | nativeType (type : NativeType)
  | parameter (function : FunctionDecl) (parameter : ParameterDecl)
  | property (property : PropertyDecl)
  /-- A function, for its return type. -/
  | function (function : FunctionDecl)

def Subject.kind : Subject → SubjectKind
  | .text _ => .text
  | .nativeType _ => .nativeType
  | .parameter _ _ => .parameter
  | .property _ => .property
  | .function _ => .function

/-- A member as messages name it. -/
inductive MemberPath where
  | parameter (owner : Option String) (function parameter : String)
  | property (owner property : String)
  | result (owner : Option String) (function : String)
  deriving DecidableEq, Repr

def ownerText : Option String → String
  | some owner => s!"{owner}::"
  | none => ""

def MemberPath.text : MemberPath → String
  | .parameter owner function name => s!"{ownerText owner}{function}(${name})"
  | .property owner name => s!"{owner}::${name}"
  | .result owner function => s!"{ownerText owner}{function}()"

end TypeHints
