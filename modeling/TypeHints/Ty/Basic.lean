import TypeHints.Ty.Kind

/-!
# Types

The closed set of resolved types, their equality, and what can be asked of one. Wrappers (nullable,
collection, generic, template) defer to what they wrap; unions ask any member and intersections all.
-/
namespace TypeHints

structure Builtin where
  kind : Kind
  refinement : Option Refinement := none
  deriving DecidableEq, Repr

inductive Ty where
  | builtin (b : Builtin)
  | nullable (inner : Ty)
  | union (members : List Ty)
  | intersection (members : List Ty)
  /-- An instance of a class. -/
  | object (className : String)
  | enum (className : String)
  | backedEnum (className : String) (backing : Builtin)
  /-- Keys and values, a list if its keys count up from zero. -/
  | collection (wrapped : Ty) (isList : Bool)
  | generic (wrapped : Ty) (args : List Ty)
  | template (name : String) (bound : Ty)
  deriving Repr, Inhabited

instance : Inhabited Builtin := ⟨⟨.mixed, none⟩⟩

namespace Ty

/-! ### Equality -/

mutual

def same : Ty → Ty → Bool
  | .builtin a, .builtin b => a = b
  | .nullable a, .nullable b => same a b
  | .union as, .union bs => sameAll as bs
  | .intersection as, .intersection bs => sameAll as bs
  | .object a, .object b => a = b
  | .enum a, .enum b => a = b
  | .backedEnum a x, .backedEnum b y => a = b && x = y
  | .collection a x, .collection b y => same a b && x = y
  | .generic a as, .generic b bs => same a b && sameAll as bs
  | .template a x, .template b y => a = b && same x y
  | _, _ => false

def sameAll : List Ty → List Ty → Bool
  | [], [] => true
  | a :: as, b :: bs => same a b && sameAll as bs
  | _, _ => false

end

mutual

theorem same_iff (a b : Ty) : same a b = true ↔ a = b := by
  cases a with
  | builtin x => cases b <;> simp [same]
  | nullable x => cases b <;> simp [same, same_iff x]
  | union xs => cases b <;> simp [same, sameAll_iff xs]
  | intersection xs => cases b <;> simp [same, sameAll_iff xs]
  | object x => cases b <;> simp [same]
  | enum x => cases b <;> simp [same]
  | backedEnum x y => cases b <;> simp [same]
  | collection x l => cases b <;> simp [same, same_iff x]
  | generic x xs => cases b <;> simp [same, same_iff x, sameAll_iff xs]
  | template n x => cases b <;> simp [same, same_iff x]

theorem sameAll_iff (as bs : List Ty) : sameAll as bs = true ↔ as = bs := by
  cases as with
  | nil => cases bs <;> simp [sameAll]
  | cons a as => cases bs <;> simp [sameAll, same_iff a, sameAll_iff as]

end

instance : DecidableEq Ty := fun a b => decidable_of_iff _ (same_iff a b)

/-! ### Plain types -/

def ofKind (k : Kind) : Ty := .builtin ⟨k, none⟩

def int : Ty := ofKind .int
def string : Ty := ofKind .string
def mixed : Ty := ofKind .mixed
def null : Ty := ofKind .null

/-- `int|string`, the keys of a collection that names none. -/
def arrayKey : Ty := .union [int, string]

/-! ### Questions -/

def isKind (k : Kind) : Ty → Bool
  | .builtin b => b.kind = k
  | _ => false

def className? : Ty → Option String
  | .object name => some name
  | .enum name => some name
  | .backedEnum name _ => some name
  | _ => none

def isClassLike (t : Ty) : Bool := t.className?.isSome

mutual

/-- Whether the type, or what it wraps, is of one of the kinds. -/
def isIdentifiedBy (kinds : List Kind) : Ty → Bool
  | .builtin b => kinds.contains b.kind
  | .object _ | .enum _ | .backedEnum _ _ => kinds.contains .object
  | .nullable inner => kinds.contains .null || isIdentifiedBy kinds inner
  | .union members => anyIdentifiedBy kinds members
  | .intersection members => anyIdentifiedBy kinds members
  | .collection wrapped _ => isIdentifiedBy kinds wrapped
  | .generic wrapped _ => isIdentifiedBy kinds wrapped
  | .template _ bound => isIdentifiedBy kinds bound

def anyIdentifiedBy (kinds : List Kind) : List Ty → Bool
  | [] => false
  | t :: rest => isIdentifiedBy kinds t || anyIdentifiedBy kinds rest

end

mutual

/-- Whether null is a value of the type; a nullable type inside a wrapper does not count. -/
def isNullable : Ty → Bool
  | .builtin b => b.kind.acceptsNull
  | .nullable _ => true
  | .union members => anyNullable members
  | _ => false

def anyNullable : List Ty → Bool
  | [] => false
  | t :: rest => isNullable t || anyNullable rest

end

mutual

/-- A union satisfies a specification through any member, an intersection through all. -/
def satisfies (spec : Ty → Bool) : Ty → Bool
  | .union members => anySatisfies spec members
  | .intersection members => allSatisfy spec members
  | t => spec t

def anySatisfies (spec : Ty → Bool) : List Ty → Bool
  | [] => false
  | t :: rest => satisfies spec t || anySatisfies spec rest

def allSatisfy (spec : Ty → Bool) : List Ty → Bool
  | [] => true
  | t :: rest => satisfies spec t && allSatisfy spec rest

end

def wrapped? : Ty → Option Ty
  | .nullable inner => some inner
  | .collection wrapped _ => some wrapped
  | .generic wrapped _ => some wrapped
  | .template _ bound => some bound
  | _ => none

def wrappedSatisfies (spec : Ty → Bool) (t : Ty) : Bool := t.wrapped?.any (satisfies spec)

theorem anyIdentifiedBy_eq_any (kinds : List Kind) (ts : List Ty) :
    anyIdentifiedBy kinds ts = ts.any (isIdentifiedBy kinds) := by
  induction ts with
  | nil => rfl
  | cons t rest ih => simp [anyIdentifiedBy, ih]

theorem isIdentifiedBy_of_className? {kinds : List Kind} {t : Ty} {className : String}
    (like : t.className? = some className) : t.isIdentifiedBy kinds = kinds.contains .object := by
  cases t with
  | object | enum | backedEnum => rw [isIdentifiedBy]
  | _ => cases like

theorem anyNullable_eq_any (ts : List Ty) : anyNullable ts = ts.any isNullable := by
  induction ts with
  | nil => rfl
  | cons t rest ih => simp [anyNullable, ih]

theorem anySatisfies_eq_any (spec : Ty → Bool) (ts : List Ty) :
    anySatisfies spec ts = ts.any (satisfies spec) := by
  induction ts with
  | nil => rfl
  | cons t rest ih => simp [anySatisfies, ih]

theorem allSatisfy_eq_all (spec : Ty → Bool) (ts : List Ty) :
    allSatisfy spec ts = ts.all (satisfies spec) := by
  induction ts with
  | nil => rfl
  | cons t rest ih => simp [allSatisfy, ih]

/-! ### Collections -/

/-- The arguments of a generic type; other types have none. -/
def args : Ty → List Ty
  | .generic _ args => args
  | _ => []

/-- A generic type without its arguments; other types are bare. -/
def bare : Ty → Ty
  | .generic wrapped _ => wrapped
  | t => t

/-- Keys of a collection over this type: the first of two arguments, `int` beside a single one. -/
def keyType (t : Ty) : Ty :=
  match t.args with
  | [key, _] => key
  | [_] => int
  | _ => arrayKey

/-- Values of a collection over this type: the last of one or two arguments. -/
def valueType (t : Ty) : Ty :=
  match t.args with
  | [_, value] => value
  | [value] => value
  | _ => mixed

end Ty

end TypeHints
