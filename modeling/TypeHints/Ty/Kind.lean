/-!
The kinds of builtin types, and the narrower types that a keyword or an integer range picks out of
one kind.
-/
namespace TypeHints

inductive Kind where
  | array | bool | callable | alwaysFalse | float | int | iterable | mixed | null | object
  | resource | string | alwaysTrue | never | void
  deriving DecidableEq, Repr

namespace Kind

def all : List Kind :=
  [.array, .bool, .callable, .alwaysFalse, .float, .int, .iterable, .mixed, .null, .object,
   .resource, .string, .alwaysTrue, .never, .void]

def name : Kind → String
  | .array => "array"
  | .bool => "bool"
  | .callable => "callable"
  | .alwaysFalse => "false"
  | .float => "float"
  | .int => "int"
  | .iterable => "iterable"
  | .mixed => "mixed"
  | .null => "null"
  | .object => "object"
  | .resource => "resource"
  | .string => "string"
  | .alwaysTrue => "true"
  | .never => "never"
  | .void => "void"

def ofName? (text : String) : Option Kind := all.find? (·.name = text)

/-- Standalone kinds combine with no other type. -/
def isStandalone : Kind → Bool
  | .mixed | .never | .void => true
  | _ => false

def isScalar : Kind → Bool
  | .string | .float | .int | .bool | .alwaysFalse | .alwaysTrue => true
  | _ => false

def isBool : Kind → Bool
  | .bool | .alwaysFalse | .alwaysTrue => true
  | _ => false

def isCollection : Kind → Bool
  | .array | .iterable => true
  | _ => false

/-- Kinds that accept null by nature. -/
def acceptsNull : Kind → Bool
  | .null | .mixed => true
  | _ => false

end Kind

inductive Refinement where
  | positiveInt | negativeInt | nonPositiveInt | nonNegativeInt | nonZeroInt
  /-- An integer range; an absent bound is open. -/
  | range (min max : Option Int64)
  | classString | traitString | interfaceString | callableString | numericString
  | lowercaseString | nonEmptyLowercaseString | nonEmptyString | nonFalsyString | truthyString
  | literalString | htmlEscapedString
  | neverReturn | neverReturns | noReturn
  deriving DecidableEq, Repr

namespace Refinement

/-- The refinements that have a keyword of their own. -/
def named : List Refinement :=
  [.positiveInt, .negativeInt, .nonPositiveInt, .nonNegativeInt, .nonZeroInt, .classString,
   .traitString, .interfaceString, .callableString, .numericString, .lowercaseString,
   .nonEmptyLowercaseString, .nonEmptyString, .nonFalsyString, .truthyString, .literalString,
   .htmlEscapedString, .neverReturn, .neverReturns, .noReturn]

def keyword : Refinement → String
  | .positiveInt => "positive-int"
  | .negativeInt => "negative-int"
  | .nonPositiveInt => "non-positive-int"
  | .nonNegativeInt => "non-negative-int"
  | .nonZeroInt => "non-zero-int"
  | .range _ _ => "range-int"
  | .classString => "class-string"
  | .traitString => "trait-string"
  | .interfaceString => "interface-string"
  | .callableString => "callable-string"
  | .numericString => "numeric-string"
  | .lowercaseString => "lowercase-string"
  | .nonEmptyLowercaseString => "non-empty-lowercase-string"
  | .nonEmptyString => "non-empty-string"
  | .nonFalsyString => "non-falsy-string"
  | .truthyString => "truthy-string"
  | .literalString => "literal-string"
  | .htmlEscapedString => "html-escaped-string"
  | .neverReturn => "never-return"
  | .neverReturns => "never-returns"
  | .noReturn => "no-return"

/-- The refinement that a keyword stands for; ranges have none. -/
def ofKeyword? (text : String) : Option Refinement := named.find? (·.keyword = text)

/-- The kind that it refines. -/
def base : Refinement → Kind
  | .positiveInt | .negativeInt | .nonPositiveInt | .nonNegativeInt | .nonZeroInt
  | .range _ _ => .int
  | .neverReturn | .neverReturns | .noReturn => .never
  | _ => .string

def boundText (openWord : String) : Option Int64 → String
  | some value => toString value.toInt
  | none => openWord

def render : Refinement → String
  | .range min max => "int<" ++ boundText "min" min ++ "," ++ boundText "max" max ++ ">"
  | r => r.keyword

theorem ofKeyword?_keyword {r : Refinement} (h : r ∈ named) : ofKeyword? r.keyword = some r := by
  cases r <;> first | decide | simp [named] at h

end Refinement

end TypeHints
