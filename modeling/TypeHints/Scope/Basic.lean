import TypeHints.World.Query

/-!
# Scopes

What the names of a type expression are read against: the class that is called and the one that
declares, their namespace, the aliases in effect and the templates. Aliases win over the namespace,
and a root marker over both.
-/
namespace TypeHints

structure Scope where
  /-- As written, usually the last segment only. -/
  called : String
  declaring : String
  space : Option String := none
  uses : Keyed String String := Keyed.empty
  templates : Keyed String Ty := Keyed.empty
  deriving Inhabited

namespace Scope

/-- A name without backslashes at either end. -/
def trimBackslashes (name : String) : String :=
  let inner := name.toList.dropWhile (· = '\\')
  String.ofList (inner.reverse.dropWhile (· = '\\')).reverse

/-- Sets the namespace; an empty one is the global one. -/
def withSpace (s : Scope) (space : String) : Scope :=
  let trimmed := trimBackslashes space
  { s with space := if trimmed = "" then none else some trimmed }

def qualify (s : Scope) (name : String) : String :=
  if name.toList.head? = some '\\' then ClassName.stripRoot name
  else
    match ClassName.splitFirst name with
    | (first, rest) =>
      match s.uses.find? first, rest with
      | some target, some rest => target ++ "\\" ++ rest
      | some target, none => target
      | none, _ =>
        match s.space with
        | some space => space ++ "\\" ++ name
        | none => name

def declaringClass (s : Scope) : String := s.qualify s.declaring

def calledClass (s : Scope) : String := s.qualify s.called

/-- What the declaring class extends. A parent that does not exist is read again as a name of the
scope, without the scope's namespace. -/
def parentClass (s : Scope) : Query String := do
  match ← Query.ofWorld (·.parentOf? s.declaringClass) with
  | none => Query.fail (.noParent s.declaringClass)
  | some parent =>
    if ← Query.parentExists parent then return parent
    else
      return s.qualify <|
        match s.space with
        | some space => ClassName.withoutSpace space parent
        | none => parent

end Scope

/-- A scope that a word cannot do without. -/
def requireScope (word : String) : Option Scope → Query Scope
  | some s => pure s
  | none => Query.fail (.scopeRequired word)

end TypeHints
