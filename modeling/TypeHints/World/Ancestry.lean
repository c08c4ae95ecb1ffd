import TypeHints.Native.Table

/-!
# Ancestry

A class is an ancestor of another if parents and interfaces lead there. The search takes each class
that it looks into out of the classes that are left, so it ends whatever the declarations say.
-/
namespace TypeHints.ClassTable

/-- Whether one of the names in `queue`, or a supertype of one among the classes that are `left`, has
the key `ancestor`. -/
def leadsTo (ancestor : String) (left : List (String × ClassDecl)) : (queue : List String) → Bool
  | [] => false
  | name :: queue =>
    let key := ClassName.key name
    if key = ancestor then true
    else
      match _h : Keyed.valueAt? key left with
      | some c => leadsTo ancestor (Keyed.dropEntry key left) (c.supertypes ++ queue)
      | none => leadsTo ancestor left queue
termination_by queue => (left.length, queue.length)
decreasing_by
  · exact Prod.Lex.left _ _ (Keyed.length_dropEntry_lt _h)
  · exact Prod.Lex.right _ (Nat.lt_succ_self _)

def isA (t : ClassTable) (name ancestor : String) : Bool :=
  leadsTo (ClassName.key ancestor) t.byKey.entries [name]

/-- A step goes from a class to its parent or to one of its interfaces. -/
inductive Reaches (t : ClassTable) : String → String → Prop
  | here {a b : String} : ClassName.key a = ClassName.key b → Reaches t a b
  | step {a b next : String} {c : ClassDecl} : t.find? a = some c → next ∈ c.supertypes →
      Reaches t next b → Reaches t a b

/-- Interfaces that make a class iterable or indexable. -/
def collectionInterfaces : List String := ["Traversable", "ArrayAccess"]

def isCollectionLike (t : ClassTable) (name : String) : Bool := collectionInterfaces.any (t.isA name)

def isEnum (t : ClassTable) (name : String) : Bool :=
  (t.find? name).any (·.kind = .enum) || t.isA name "UnitEnum"

end TypeHints.ClassTable
