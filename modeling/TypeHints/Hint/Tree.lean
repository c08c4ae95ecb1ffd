import TypeHints.Decimal.Binary64

/-!
The tree of a type expression as it is written, before any name in it means anything.
-/
namespace TypeHints.Hint
open Decimal

inductive ShapeKind where
  | array | nonEmptyArray | list | nonEmptyList
  deriving DecidableEq, Repr

def ShapeKind.text : ShapeKind → String
  | .array => "array"
  | .nonEmptyArray => "non-empty-array"
  | .list => "list"
  | .nonEmptyList => "non-empty-list"

def ShapeKind.ofName? (name : String) : Option ShapeKind :=
  [ShapeKind.array, .nonEmptyArray, .list, .nonEmptyList].find? (·.text = name)

inductive ShapeKey where
  | name (text : String)
  | int (value : Int64)
  | quoted (text : String)
  deriving DecidableEq, Repr

/-- What stands before the value of a shape item. -/
structure Slot where
  key : Option ShapeKey := none
  optional : Bool := false
  deriving DecidableEq, Repr

/-- The names that a signature may follow. -/
def calleeNames : List String :=
  ["callable", "Closure", "\\Closure", "pure-callable", "pure-Closure"]

/-- What stands after the type of a callable's parameter. -/
structure ParamMarks where
  byRef : Bool := false
  variadic : Bool := false
  name : Option String := none
  optional : Bool := false
  deriving DecidableEq, Repr

inductive Const where
  | int (value : Int64)
  | float (value : Binary64)
  | quoted (text : String)
  | array (items : List (Option Const × Const))
  /-- A bare name such as `true`. -/
  | name (text : String)
  /-- A class constant; the name may end in a wildcard. -/
  | fetch (owner name : String)
  deriving Repr, Inhabited

inductive Node where
  | name (text : String)
  | this
  | const (value : Const)
  | nullable (inner : Node)
  | union (members : List Node)
  | intersection (members : List Node)
  | generic (base : Node) (args : List Node)
  /-- The suffix `[]`. -/
  | array (item : Node)
  /-- The tail gives the types of keys and values that the items leave out. -/
  | arrayShape (kind : ShapeKind) (items : List (Slot × Node)) (isSealed : Bool)
      (tail : Option (Option Node × Node))
  | objectShape (items : List (Slot × Node))
  | callable (callee : String) (params : List (Node × ParamMarks)) (result : Node)
  deriving Repr, Inhabited

/-- Levels of parentheses, generics, shapes, signatures and constant arrays that may nest. -/
def maxDepth : Nat := 128

end TypeHints.Hint
