import TypeHints.Ty.Render

/-!
# Building types

The factories normalise as they build. A union flattens its members, drops repeated ones and becomes
`mixed` as soon as one of them is; an intersection flattens and drops repeats; `orNull` neither
nests nor keeps a null member. What cannot be built is a `ConstructionError`.
-/
namespace TypeHints

inductive ConstructionError where
  | refinement (r : Refinement) (kind : Kind)
  | genericOver (t : Ty)
  | collectionOver (t : Ty)
  | listKey (key : Ty)
  | backing (t : Ty)
  | argumentsOver (t : Ty)
  | standalone (t : Ty)
  | emptyUnion
  | emptyIntersection
  deriving DecidableEq

def ConstructionError.message : ConstructionError → String
  | .refinement r kind => s!"\"{r.keyword}\" cannot refine \"{kind.name}\"."
  | .genericOver t => s!"Cannot create a generic type with \"{t.render}\" type."
  | .collectionOver t => s!"Cannot create a collection type with \"{t.render}\" type."
  | .listKey key => s!"\"{key.render}\" is not a valid list key type."
  | .backing t => s!"Cannot create a backed enum with \"{t.render}\" backing type."
  | .argumentsOver t =>
    s!"Cannot pass key or value types to the already generic \"{t.render}\"."
  | .standalone t => s!"Cannot create a union with \"{t.render}\" standalone type."
  | .emptyUnion => "Cannot create an empty union."
  | .emptyIntersection => "Cannot create an empty intersection."

abbrev Built := Except ConstructionError Ty

namespace Ty

/-! ### Builtins and classes -/

/-- A builtin narrowed by a refinement of its own kind. -/
def refined (kind : Kind) (r : Refinement) : Built :=
  if r.base = kind then .ok (.builtin ⟨kind, some r⟩) else .error (.refinement r kind)

def backedEnumOf (className : String) (backing : Builtin) : Built :=
  if backing.kind = .int ∨ backing.kind = .string then .ok (.backedEnum className backing)
  else .error (.backing (.builtin backing))

def enumeration (className : String) : (backing : Option Ty) → Built
  | none => .ok (.enum className)
  | some (.builtin b) => backedEnumOf className b
  | some other => .error (.backing other)

/-! ### Generics and collections -/

def isCollectionKind : Ty → Bool
  | .builtin b => b.kind.isCollection
  | _ => false

def isGeneric : Ty → Bool
  | .generic _ _ => true
  | _ => false

/-- Arguments go with `array`, `iterable` and classes. -/
def genericOf (wrapped : Ty) (args : List Ty) : Built :=
  if wrapped.isCollectionKind || wrapped.isClassLike then .ok (.generic wrapped args)
  else .error (.genericOver wrapped)

/-- A list has to have integers for keys. -/
def collectionOf (wrapped : Ty) (isList : Bool) : Built :=
  if !(wrapped.isCollectionKind || wrapped.isClassLike || wrapped.isGeneric) then
    .error (.collectionOver wrapped)
  else if isList && !wrapped.keyType.isKind .int then .error (.listKey wrapped.keyType)
  else .ok (.collection wrapped isList)

/-- What a collection is built with beside the type it wraps. -/
structure CollectionArgs where
  value : Option Ty := none
  key : Option Ty := none
  isList : Bool := false

/-- Key and value types become arguments of the wrapped type, which may have none yet. -/
def collectionWith (wrapped : Ty) (given : CollectionArgs) : Built :=
  if given.value.isNone && given.key.isNone then collectionOf wrapped given.isList
  else if wrapped.isGeneric then .error (.argumentsOver wrapped)
  else do
    let generic ← genericOf wrapped [given.key.getD arrayKey, given.value.getD mixed]
    collectionOf generic given.isList

/-- A collection over a builtin with both arguments; nothing is left to check. -/
def keyed (kind : Kind) (key value : Ty) (isList : Bool) : Ty :=
  .collection (.generic (ofKind kind) [key, value]) isList

def array : Ty := .collection (ofKind .array) false
def arrayOf (value : Ty) : Ty := keyed .array arrayKey value false
def listOf (value : Ty) : Ty := keyed .array int value true
def list : Ty := listOf mixed
def dictOf (value : Ty) : Ty := keyed .array string value false
def dict : Ty := dictOf mixed
def iterable : Ty := .collection (ofKind .iterable) false
def iterableOf (value : Ty) : Ty := keyed .iterable arrayKey value false

/-! ### Unions, intersections, nullable types -/

/-- The members that a type brings into a union. -/
def unionMembers : Ty → List Ty
  | .union members => members
  | t => [t]

def intersectionMembers : Ty → List Ty
  | .intersection members => members
  | t => [t]

def isStandalone : Ty → Bool
  | .builtin b => b.kind.isStandalone
  | _ => false

def unionOf (members : List Ty) : Built :=
  let flat := (members.flatMap unionMembers).eraseDups
  if flat.any (isKind .mixed) then .ok mixed
  else
    match flat with
    | [] => .error .emptyUnion
    | [t] => .ok t
    | flat =>
      match flat.find? isStandalone with
      | some t => .error (.standalone t)
      | none => .ok (.union flat)

def intersectionOf (members : List Ty) : Built :=
  match (members.flatMap intersectionMembers).eraseDups with
  | [] => .error .emptyIntersection
  | [t] => .ok t
  | flat => .ok (.intersection flat)

/-- A nullable type is itself again. -/
def wrapNullable : Ty → Ty
  | .nullable inner => .nullable inner
  | t => .nullable t

/-- The type with null added; what a union refuses beside null is refused here too. -/
def orNull : Ty → Built
  | .nullable inner => .ok (.nullable inner)
  | .builtin b =>
    if b.kind.acceptsNull then .ok (.builtin b)
    else if b.kind.isStandalone then .error (.standalone (.builtin b))
    else .ok (.nullable (.builtin b))
  | .union members =>
    match members.filter (!isKind .null ·) with
    | [t] => .ok (wrapNullable t)
    | rest => .ok (.nullable (.union rest))
  | t => .ok (.nullable t)

end Ty

end TypeHints
