import TypeHints.Ty.Build
import TypeHints.World.Ancestry

/-!
The classes that a resolution can see, and the classes whose files cannot be read for aliases. What
is asked here is answered from the table as it stands, without any memory.
-/
namespace TypeHints

structure World where
  table : ClassTable
  /-- Registered names of the classes whose aliases cannot be read. -/
  unreadable : List String := []
  deriving Inhabited

namespace World

def find? (w : World) (name : String) : Option ClassDecl := w.table.find? name

/-- The spelling under which a class is registered; an unknown name loses its root marker. -/
def canonicalName (w : World) (name : String) : String :=
  match w.find? name with
  | some c => c.name
  | none => ClassName.stripRoot name

def parentOf? (w : World) (name : String) : Option String :=
  ((w.find? name).bind (·.parent)).map w.canonicalName

def classify (w : World) (name : String) : Built :=
  let canonical := w.canonicalName name
  if w.table.isEnum canonical then
    Ty.enumeration canonical (((w.find? canonical).bind (·.backing)).map Ty.ofKind)
  else .ok (.object canonical)

def isCollectionObject (w : World) (t : Ty) : Bool := t.className?.any w.table.isCollectionLike

/-- Whether the class of an object-like type is, or descends from, a class; collections, generics and
nullable types ask what they wrap. -/
def typeIsA (w : World) (className : String) : Ty → Bool
  | .collection wrapped _ => typeIsA w className wrapped
  | .generic wrapped _ => typeIsA w className wrapped
  | .nullable inner => typeIsA w className inner
  | .builtin b => b.kind = .object && ClassName.agree className "object"
  | t => t.className?.any fun name => w.table.isA name className

end World

end TypeHints
