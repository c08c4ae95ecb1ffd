import TypeHints.Resolve.Pipeline

/-!
A world that may change, the memory of the queries put to it, and a pipeline. A change of the world
leaves the memory as it is.
-/
namespace TypeHints

structure Session where
  world : World
  memory : Memory := {}
  pipeline : Pipeline := Pipeline.documented
  deriving Inhabited

namespace Session

def ask {α : Type} (s : Session) (q : Query α) : Except Failure α × Session :=
  match q s.world s.memory with
  | (answer, memory) => (answer, { s with memory })

def resolve (s : Session) (subject : Subject) (scope : Option Scope) : Except Failure Ty × Session :=
  s.ask (s.pipeline.resolve subject scope)

def clear (s : Session) : Session := { s with memory := {} }

def insert (s : Session) (c : ClassDecl) : Session :=
  { s with world := { s.world with table := s.world.table.insert c } }

def replaceTable (s : Session) (table : ClassTable) : Session :=
  { s with world := { s.world with table } }

def register (s : Session) (kind : SubjectKind) (resolver : Resolver) : Session :=
  { s with pipeline := s.pipeline.put kind resolver }

end Session

end TypeHints
