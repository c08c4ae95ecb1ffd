import TypeHints.ClassName
import TypeHints.Keyed
import TypeHints.Ty.Kind

namespace TypeHints

structure NamedType where
  name : String
  isBuiltin : Bool
  allowsNull : Bool
  deriving DecidableEq, Repr

inductive NativeType where
  | named (type : NamedType)
  | union (members : List NativeType)
  | intersection (members : List NativeType)
  /-- A shape of type that nothing here knows, by the name of its kind. -/
  | other (kind : String)
  deriving Repr, Inhabited

namespace NativeType

/-- A builtin by name; `null` and `mixed` allow null by nature. -/
def builtin (name : String) : NativeType :=
  .named ⟨name, true, name = "null" || name = "mixed"⟩

def ofClass (name : String) : NativeType := .named ⟨name, false, false⟩

/-- The same type, allowing null; only a named type can. -/
def orNull : NativeType → NativeType
  | .named type => .named { type with allowsNull := true }
  | type => type

def kindName : NativeType → String
  | .named _ => "named type"
  | .union _ => "union type"
  | .intersection _ => "intersection type"
  | .other kind => kind

end NativeType

inductive ClassKind where
  | regular | interface | trait | enum
  deriving DecidableEq, Repr

def ClassKind.name : ClassKind → String
  | .regular => "class"
  | .interface => "interface"
  | .trait => "trait"
  | .enum => "enum"

structure ParameterDecl where
  name : String
  type : Option NativeType := none
  deriving Repr, Inhabited

structure FunctionDecl where
  name : String
  declaringClass : Option String := none
  docComment : Option String := none
  returnType : Option NativeType := none
  parameters : List ParameterDecl := []
  deriving Repr, Inhabited

structure PropertyDecl where
  name : String
  declaringClass : String := ""
  docComment : Option String := none
  type : Option NativeType := none
  deriving Repr, Inhabited

structure ClassDecl where
  name : String
  kind : ClassKind := .regular
  parent : Option String := none
  interfaces : List String := []
  traits : List String := []
  /-- What the cases of a backed enum are. -/
  backing : Option Kind := none
  /-- Aliases in effect where the class is declared. -/
  uses : Keyed String String := Keyed.empty
  docComment : Option String := none
  properties : List PropertyDecl := []
  methods : List FunctionDecl := []
  deriving Inhabited

namespace FunctionDecl

def parameter? (f : FunctionDecl) (name : String) : Option ParameterDecl :=
  f.parameters.find? (·.name = name)

end FunctionDecl

namespace ClassDecl

def property? (c : ClassDecl) (name : String) : Option PropertyDecl :=
  c.properties.find? (·.name = name)

/-- Methods are found in any case. -/
def method? (c : ClassDecl) (name : String) : Option FunctionDecl :=
  c.methods.find? fun m => ClassName.agree m.name name

/-- What the class extends or implements, in the order of declaration. -/
def supertypes (c : ClassDecl) : List String := c.parent.toList ++ c.interfaces

end ClassDecl

end TypeHints
