import TypeHints.Scope.Basic

/-!
# Types of type expressions

A name is a keyword, a refinement, a class or a template, in this order. A class that is iterable or
indexable becomes a collection, and its arguments then are keys and values.
-/
namespace TypeHints.Resolve
open Hint

def keywordType? : String → Option Ty
  | "bool" | "boolean" => some (.ofKind .bool)
  | "true" => some (.ofKind .alwaysTrue)
  | "false" => some (.ofKind .alwaysFalse)
  | "int" | "integer" => some .int
  | "float" | "double" => some (.ofKind .float)
  | "string" => some .string
  | "resource" => some (.ofKind .resource)
  | "object" => some (.ofKind .object)
  | "callable" => some (.ofKind .callable)
  | "array" | "non-empty-array" => some .array
  | "list" | "non-empty-list" => some .list
  | "iterable" => some .iterable
  | "mixed" => some .mixed
  | "null" => some .null
  | "array-key" => some .arrayKey
  | "scalar" => some (.union [.int, .ofKind .float, .string, .ofKind .bool])
  | "number" => some (.union [.int, .ofKind .float])
  | "numeric" => some (.union [.int, .ofKind .float, .string])
  | "void" => some (.ofKind .void)
  | "never" => some (.ofKind .never)
  | _ => none

/-- The class that a word for a class of the scope means. -/
def scopeClass? : String → Option (Scope → Query String)
  | "self" => some fun s => pure s.declaringClass
  | "static" => some fun s => pure s.calledClass
  | "parent" => some Scope.parentClass
  | _ => none

def classOrTemplate (scope : Option Scope) (name : String) : Query Ty := do
  let className := match scope with
    | some s => s.qualify name
    | none => name
  if ← Query.classExists className then Query.classify className
  else
    match scope.bind (·.templates.find? name) with
    | some bound => return .template name bound
    | none => Query.fail (.unknownName name)

/-- The type of a name, before classes become collections. -/
def plainName (scope : Option Scope) (name : String) : Query Ty :=
  match keywordType? name with
  | some t => pure t
  | none =>
    match scopeClass? name with
    | some classOf => do
      let s ← requireScope name scope
      return .object (ClassName.stripRoot (← classOf s))
    | none =>
      match Refinement.ofKeyword? name with
      | some r => Query.ofBuilt (Ty.refined r.base r)
      | none => classOrTemplate scope name

/-- A class that is iterable or indexable becomes a collection. -/
def promote (t : Ty) : Query Ty := do
  if ← Query.ofWorld (·.isCollectionObject t) then Query.ofBuilt (t.collectionWith {}) else return t

def resolveName (scope : Option Scope) (name : String) : Query Ty := do
  promote (← plainName scope name)

/-- Constants have the type of their value, if they show one. -/
def constantType : Const → Query Ty
  | .int _ => pure .int
  | .float _ => pure (.ofKind .float)
  | .quoted _ => pure .string
  | .array _ => pure .array
  | .name text => Query.fail (.untypedConstant text)
  | .fetch owner name => Query.fail (.untypedConstant s!"{owner}::{name}")

def rangeBound? (openWord : String) : Node → Option (Option Int64)
  | .const (.int value) => some (some value)
  | .name text => if text = openWord then some none else none
  | _ => none

/-- Whether arguments may be the bounds of an integer range. -/
def isRangeBase : Node → Bool
  | .name text => text = "int" || text = "integer"
  | _ => false

def intRange? (base : Node) : List Node → Option Refinement
  | [low, high] =>
    if isRangeBase base then do
      return .range (← rangeBound? "min" low) (← rangeBound? "max" high)
    else none
  | _ => none

/-- Arguments of a type that is no collection yet. -/
def applyPlain (t : Ty) (vars : List Ty) : Query Ty := do
  if ← Query.ofWorld (·.isCollectionObject t) then
    Query.ofBuilt <| t.collectionWith <|
      match vars with
      | [value] => { value := some value }
      | [key, value] => { key := some key, value := some value }
      | _ => {}
  else
    match t with
    | .builtin b => if b.kind.isCollection then Query.ofBuilt (t.genericOf vars) else return t
    | t => Query.ofBuilt (t.genericOf vars)

/-- Arguments of any type: one is the value type of a collection, two are its key and value types. -/
def applyArgs (t : Ty) (vars : List Ty) : Query Ty :=
  match t, vars with
  | .collection wrapped isList, [value] => Query.ofBuilt do
    let generic ← wrapped.bare.genericOf [wrapped.keyType, value]
    generic.collectionOf isList
  | .collection wrapped isList, [key, value] =>
    Query.ofBuilt (wrapped.bare.collectionWith { value := some value, key := some key, isList })
  | .collection wrapped _, vars => applyPlain wrapped.bare vars
  | t, vars => applyPlain t vars

mutual

def resolveNode (scope : Option Scope) : Node → Query Ty
  | .callable _ _ _ => pure (.ofKind .callable)
  | .array item => do return .listOf (← resolveNode scope item)
  | .arrayShape _ _ _ _ => pure .array
  | .objectShape _ => pure (.ofKind .object)
  | .this => do
    let s ← requireScope "$this" scope
    return .object (ClassName.stripRoot s.calledClass)
  | .const value => constantType value
  | .name text => resolveName scope text
  | .nullable inner => do
    let t ← resolveNode scope inner
    Query.ofBuilt t.orNull
  | .generic base args =>
    match intRange? base args with
    | some r => Query.ofBuilt (Ty.refined .int r)
    | none => do
      let t ← resolveNode scope base
      if t.isIdentifiedBy [.int] then return t
      else applyArgs t (← resolveAll scope args)
  | .union members => do
    match ← resolveUntilMixed scope members with
    | some ts => Query.ofBuilt (Ty.unionOf ts)
    | none => return .mixed
  | .intersection members => do
    Query.ofBuilt (Ty.intersectionOf (← resolveAll scope members))

def resolveAll (scope : Option Scope) : List Node → Query (List Ty)
  | [] => pure []
  | node :: rest => do
    let t ← resolveNode scope node
    return t :: (← resolveAll scope rest)

/-- Nothing is resolved after a member that is `mixed`, and then there is no list. -/
def resolveUntilMixed (scope : Option Scope) : List Node → Query (Option (List Ty))
  | [] => pure (some [])
  | node :: rest => do
    let t ← resolveNode scope node
    if t.isKind .mixed then return none
    else return (← resolveUntilMixed scope rest).map (t :: ·)

end

/-- The type of a text. A failure to resolve it becomes the cause of the failure of the text. -/
def resolveHint (scope : Option Scope) (text : String) : Query Ty :=
  match read text with
  | .error cause => Query.fail (.malformedHint text cause)
  | .ok node =>
    (resolveNode scope node).explain fun f => if f.isUnsupported then .unresolvedHint text f else f

end TypeHints.Resolve
