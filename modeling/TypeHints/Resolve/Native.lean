import TypeHints.Scope.Declared

/-!
A native type is resolved without a look at doc comments. When a member has no type to give, the
failure names the member.
-/
namespace TypeHints.Resolve

def allowNull (type : NamedType) (t : Ty) : Query Ty :=
  if type.allowsNull then Query.ofBuilt t.orNull else pure t

/-- The name of the class that a named type means; words for classes of the scope go in any case. -/
def namedClass (scope : Option Scope) (name : String) : Query String :=
  match scopeClass? (ClassName.fold name) with
  | some classOf => do classOf (← requireScope (ClassName.fold name) scope)
  | none => pure name

def resolveNamed (scope : Option Scope) (type : NamedType) : Query Ty :=
  if type.name = "array" then allowNull type .array
  else if type.name = "iterable" then allowNull type .iterable
  else if type.name = "null" then pure .null
  else if type.name = "mixed" then pure .mixed
  else if type.isBuiltin then
    match Kind.ofName? type.name with
    | some kind => allowNull type (.ofKind kind)
    | none => Query.fail (.unknownBuiltin type.name)
  else do
    let className ← namedClass scope type.name
    let t ← Query.classify (ClassName.stripRoot className)
    allowNull type t

mutual

def resolveNative (scope : Option Scope) : NativeType → Query Ty
  | .named type => resolveNamed scope type
  | .union members => do Query.ofBuilt (Ty.unionOf (← resolveNatives scope members))
  | .intersection members => do Query.ofBuilt (Ty.intersectionOf (← resolveNatives scope members))
  | .other kind => Query.fail (.unknownNativeType kind)

def resolveNatives (scope : Option Scope) : List NativeType → Query (List Ty)
  | [] => pure []
  | type :: rest => do
    let t ← resolveNative scope type
    return t :: (← resolveNatives scope rest)

end

def resolveMember (scope : Option Scope) (type : Option NativeType) (path : MemberPath) : Query Ty :=
  let resolved := match type with
    | some type => resolveNative scope type
    | none => Query.fail .undeclaredType
  resolved.explain fun f => if f.isUnsupported then .unresolvedMember path f else f

def scopeOr (make : Query (Option Scope)) : Option Scope → Query (Option Scope)
  | some s => pure (some s)
  | none => make

def resolveParameter (templated : Bool) (f : FunctionDecl) (p : ParameterDecl)
    (scope : Option Scope) : Query Ty := do
  let scope ← scopeOr (Scope.ofFunction templated f) scope
  resolveMember scope p.type (.parameter (scope.map (·.called)) f.name p.name)

def resolveProperty (templated : Bool) (p : PropertyDecl) (scope : Option Scope) : Query Ty := do
  let scope ← scopeOr (some <$> Scope.ofProperty templated p) scope
  resolveMember scope p.type (.property p.declaringClass p.name)

def resolveReturn (templated : Bool) (f : FunctionDecl) (scope : Option Scope) : Query Ty := do
  let scope ← scopeOr (Scope.ofFunction templated f) scope
  resolveMember scope f.returnType (.result (scope.map (·.called)) f.name)

end TypeHints.Resolve
