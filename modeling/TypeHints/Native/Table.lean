import TypeHints.Native.Decl

/-!
# Class tables

Classes in the order in which their names first came, found under any spelling. A class loses its
root marker as it is inserted, and takes the place of the class of the same name.
-/
namespace TypeHints

structure ClassTable where
  byKey : Keyed String ClassDecl
  named : ∀ e ∈ byKey.entries, e.1 = ClassName.key e.2.name ∧ ClassName.stripRoot e.2.name = e.2.name

namespace ClassTable

def empty : ClassTable := ⟨Keyed.empty, by simp [Keyed.empty]⟩

instance : Inhabited ClassTable := ⟨empty⟩

def insert (t : ClassTable) (c : ClassDecl) : ClassTable :=
  let c := { c with name := ClassName.stripRoot c.name }
  ⟨t.byKey.put (ClassName.key c.name) c, by
    intro e member
    rcases Keyed.mem_putEntry member with rfl | old
    · exact ⟨rfl, ClassName.stripRoot_stripRoot _⟩
    · exact t.named e old⟩

def insertAll (t : ClassTable) (cs : List ClassDecl) : ClassTable := cs.foldl insert t

/-- The class of this name, whatever its case and root marker. -/
def find? (t : ClassTable) (name : String) : Option ClassDecl := t.byKey.find? (ClassName.key name)

def classes (t : ClassTable) : List ClassDecl := t.byKey.entries.map Prod.snd

def size (t : ClassTable) : Nat := t.byKey.size

def interfaceDecl (name : String) (interfaces : List String) : ClassDecl :=
  { name, kind := .interface, interfaces }

/-- The interfaces that every host has, and one class. -/
def builtins : ClassTable :=
  empty.insertAll
    [interfaceDecl "Traversable" [],
     interfaceDecl "Iterator" ["Traversable"],
     interfaceDecl "IteratorAggregate" ["Traversable"],
     interfaceDecl "ArrayAccess" [],
     interfaceDecl "Countable" [],
     interfaceDecl "Stringable" [],
     interfaceDecl "UnitEnum" [],
     interfaceDecl "BackedEnum" ["UnitEnum"],
     interfaceDecl "DateTimeInterface" [],
     { name := "DateTime", interfaces := ["DateTimeInterface"] }]

end ClassTable

end TypeHints
