import TypeHints.Ty.Basic

/-!
# The text of a type

Members of a union are joined by `|` and those of an intersection by `&`; the one inside the other,
and both under `?`, stand in parentheses. A list of an array is written by its values alone.
-/
namespace TypeHints

def Builtin.render (b : Builtin) : String :=
  match b.refinement with
  | some r => r.render
  | none => b.kind.name

namespace Ty

def isUnion : Ty → Bool
  | .union _ => true
  | _ => false

def isIntersection : Ty → Bool
  | .intersection _ => true
  | _ => false

def parenthesized (yes : Bool) (text : String) : String := if yes then "(" ++ text ++ ")" else text

def valueText : List String → String
  | [_, value] => value
  | [value] => value
  | _ => "mixed"

mutual

def render : Ty → String
  | .builtin b => b.render
  | .nullable inner => "?" ++ parenthesized (inner.isUnion || inner.isIntersection) (render inner)
  | .union members => "|".intercalate (renderMembers isIntersection members)
  | .intersection members => "&".intercalate (renderMembers isUnion members)
  | .object className => className
  | .enum className => className
  | .backedEnum className _ => className
  | .generic wrapped args => render wrapped ++ "<" ++ ",".intercalate (renderAll args) ++ ">"
  | .collection (.generic wrapped args) isList =>
    if isList && wrapped.isKind .array then "list<" ++ valueText (renderAll args) ++ ">"
    else render wrapped ++ "<" ++ ",".intercalate (renderAll args) ++ ">"
  | .collection wrapped isList =>
    if isList && wrapped.isKind .array then "list<mixed>" else render wrapped
  | .template name _ => name

def renderAll : List Ty → List String
  | [] => []
  | t :: rest => render t :: renderAll rest

/-- Members that `wraps` holds of stand in parentheses. -/
def renderMembers (wraps : Ty → Bool) : List Ty → List String
  | [] => []
  | t :: rest => parenthesized (wraps t) (render t) :: renderMembers wraps rest

end

theorem renderAll_eq_map (ts : List Ty) : renderAll ts = ts.map render := by
  induction ts with
  | nil => rfl
  | cons t rest ih => simp [renderAll, ih]

theorem renderMembers_eq_map (wraps : Ty → Bool) (ts : List Ty) :
    renderMembers wraps ts = ts.map fun t => parenthesized (wraps t) (render t) := by
  induction ts with
  | nil => rfl
  | cons t rest ih => simp [renderMembers, ih]

end Ty

end TypeHints
