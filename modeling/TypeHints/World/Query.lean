import TypeHints.Resolve.Failure
import TypeHints.World.Basic
import TypeHints.World.Aliases

/-!
# Queries

A query asks a world and may remember which classes exist. What it has learned stays remembered even
if the query fails, and nothing but `clear` forgets it, not even a change of the world.
-/
namespace TypeHints

/-- Answers given so far: by name without root marker, and for parents by name as it was spelled. -/
structure Memory where
  existing : Keyed String Bool := Keyed.empty
  parents : Keyed String Bool := Keyed.empty
  deriving Inhabited

def Memory.size (m : Memory) : Nat := m.existing.size + m.parents.size

def Query (α : Type) := World → Memory → Except Failure α × Memory

namespace Query

variable {α β : Type}

def succeed (a : α) : Query α := fun _ m => (.ok a, m)

def fail (f : Failure) : Query α := fun _ m => (.error f, m)

def andThen (q : Query α) (next : α → Query β) : Query β := fun w m =>
  match q w m with
  | (.ok a, m) => next a w m
  | (.error f, m) => (.error f, m)

instance : Monad Query where
  pure := succeed
  bind := andThen

/-- The answer or the failure, which is then an answer too. -/
def attempt (q : Query α) : Query (Except Failure α) := fun w m =>
  match q w m with
  | (answer, m) => (.ok answer, m)

def explain (change : Failure → Failure) (q : Query α) : Query α := fun w m =>
  match q w m with
  | (.ok a, m) => (.ok a, m)
  | (.error f, m) => (.error (change f), m)

def ofWorld (ask : World → α) : Query α := fun w m => (.ok (ask w), m)

def ofExcept : Except Failure α → Query α
  | .ok a => succeed a
  | .error f => fail f

def ofBuilt : Built → Query Ty
  | .ok t => succeed t
  | .error e => fail (.construction e)

/-- Whether a class exists, as remembered from the first time the name was asked for. -/
def classExists (name : String) : Query Bool := fun w m =>
  let name := ClassName.stripRoot name
  match m.existing.find? name with
  | some known => (.ok known, m)
  | none =>
    let found := (w.find? name).isSome
    (.ok found, { m with existing := m.existing.put name found })

/-- The same for a parent, remembered by exactly this spelling. -/
def parentExists (name : String) : Query Bool := fun w m =>
  match m.parents.find? name with
  | some known => (.ok known, m)
  | none =>
    let found := (w.find? name).isSome
    (.ok found, { m with parents := m.parents.put name found })

def theClass (name : String) : Query ClassDecl := fun w m =>
  match w.find? name with
  | some c => (.ok c, m)
  | none => (.error (.unknownClass name), m)

def classify (name : String) : Query Ty := fun w => ofBuilt (w.classify name) w

end Query

def World.fileAliases (w : World) (c : ClassDecl) : Except Failure (Keyed String String) :=
  if c.name ∈ w.unreadable then .error (.unreadableFile (ClassName.short c.name)) else .ok c.uses

def Query.aliasesOf (c : ClassDecl) : Query (Keyed String String) := fun w =>
  ofExcept (w.table.aliasesOf w.fileAliases c) w

end TypeHints
