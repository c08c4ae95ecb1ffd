import TypeHints.Proofs.Scope.Templates
import TypeHints.Session

/-!
What a session remembers makes no difference to what it answers: as long as the world stays, a
question has the answer that a fresh session gives, whatever was asked before, and whether that
failed or was forgotten.
-/
namespace TypeHints

/-! ### Resolvers -/

namespace Resolver
open Resolve Query

variable {w : World}

theorem scopeOr_steady {make : Query (Option Scope)} (steady : make.Steady w) (scope : Option Scope) :
    (scopeOr make scope).Steady w := by
  cases scope with
  | some s => exact steady_pure _
  | none => exact steady

theorem propertyScope_steady (templated : Bool) (p : PropertyDecl) :
    (some <$> Scope.ofProperty templated p).Steady w :=
  (Scope.ofProperty_steady templated p).bind fun _ _ => steady_pure _

theorem memberScope_steady (subject : Subject) : (memberScope subject).Steady w := by
  cases subject with
  | property p => exact propertyScope_steady true p
  | parameter f _ => exact Scope.ofFunction_steady true f
  | function f => exact Scope.ofFunction_steady true f
  | text _ | nativeType _ => exact steady_pure none

theorem resolveParameter_steady (templated : Bool) (f : FunctionDecl) (p : ParameterDecl)
    (scope : Option Scope) : (resolveParameter templated f p scope).Steady w :=
  (scopeOr_steady (Scope.ofFunction_steady templated f) scope).bind fun scope _ =>
    resolveMember_steady scope _ _

theorem resolveProperty_steady (templated : Bool) (p : PropertyDecl) (scope : Option Scope) :
    (resolveProperty templated p scope).Steady w :=
  (scopeOr_steady (propertyScope_steady templated p) scope).bind fun scope _ =>
    resolveMember_steady scope _ _

theorem resolveReturn_steady (templated : Bool) (f : FunctionDecl) (scope : Option Scope) :
    (resolveReturn templated f scope).Steady w :=
  (scopeOr_steady (Scope.ofFunction_steady templated f) scope).bind fun scope _ =>
    resolveMember_steady scope _ _

mutual

theorem resolve_steady (resolver : Resolver) (subject : Subject) (scope : Option Scope) :
    (resolver.resolve subject scope).Steady w := by
  cases resolver with
  | hint =>
    cases subject with
    | text written => exact resolveHint_steady scope written
    | _ => exact steady_fail _
  | nativeType =>
    cases subject with
    | nativeType type => exact resolveNative_steady scope type
    | _ => exact steady_fail _
  | parameter templated =>
    cases subject with
    | parameter f p => exact resolveParameter_steady templated f p scope
    | _ => exact steady_fail _
  | property templated =>
    cases subject with
    | property p => exact resolveProperty_steady templated p scope
    | _ => exact steady_fail _
  | result templated =>
    cases subject with
    | function f => exact resolveReturn_steady templated f scope
    | _ => exact steady_fail _
  | documented inner =>
    simp only [resolve]
    split
    next => exact steady_fail _
    next => exact resolve_steady inner subject scope
    next =>
      split
      next => exact resolve_steady inner subject scope
      next text _ =>
        exact (scopeOr_steady (memberScope_steady subject) scope).bind fun scope _ =>
          resolveHint_steady scope text
  | dispatch entries => exact dispatchTo_steady entries subject scope

theorem dispatchTo_steady (entries : List (SubjectKind × Resolver)) (subject : Subject)
    (scope : Option Scope) : (dispatchTo entries subject scope).Steady w := by
  match entries with
  | [] => exact steady_fail _
  | (kind, resolver) :: rest =>
    simp only [dispatchTo]
    split
    · exact resolve_steady resolver subject scope
    · exact dispatchTo_steady rest subject scope

end

end Resolver

/-! ### Questions -/

/-- What a session can be asked. -/
inductive Question where
  /-- The type of a subject, from the pipeline of the session. -/
  | resolve (subject : Subject) (scope : Option Scope)
  /-- The type of a subject, from a resolver on its own. -/
  | resolveBy (resolver : Resolver) (subject : Subject) (scope : Option Scope)
  | resolveNode (node : Hint.Node) (scope : Option Scope)
  | scopeOfClassName (templated : Bool) (called : String) (declaring : Option String)
  | scopeOfClass (templated : Bool) (c : ClassDecl)
  | scopeOfProperty (templated : Bool) (p : PropertyDecl)
  | scopeOfFunction (templated : Bool) (f : FunctionDecl)
  | parentClass (scope : Scope)
  | classExists (name : String)
  | parentExists (name : String)
  | classify (name : String)
  | declaration (name : String)
  | canonicalName (name : String)
  | parentOf (name : String)
  | isA (name ancestor : String)
  | isEnum (name : String)
  | isCollectionLike (name : String)
  | typeIsA (t : Ty) (ancestor : String)

inductive Answer where
  | type (t : Ty)
  | scope (s : Option Scope)
  | name (name : Option String)
  | holds (b : Bool)
  | declaration (c : Option ClassDecl)

namespace Question
open Query

def query (pipeline : Pipeline) : Question → Query Answer
  | .resolve subject scope => .type <$> pipeline.resolve subject scope
  | .resolveBy resolver subject scope => .type <$> resolver.resolve subject scope
  | .resolveNode node scope => .type <$> Resolve.resolveNode scope node
  | .scopeOfClassName templated called declaring => do
    return .scope (some (← Scope.ofClassName templated called declaring))
  | .scopeOfClass templated c => do return .scope (some (← Scope.ofClass templated c))
  | .scopeOfProperty templated p => do return .scope (some (← Scope.ofProperty templated p))
  | .scopeOfFunction templated f => .scope <$> Scope.ofFunction templated f
  | .parentClass scope => do return .name (some (← scope.parentClass))
  | .classExists name => .holds <$> Query.classExists name
  | .parentExists name => .holds <$> Query.parentExists name
  | .classify name => .type <$> Query.classify name
  | .declaration name => .declaration <$> ofWorld (·.find? name)
  | .canonicalName name => do return .name (some (← ofWorld (·.canonicalName name)))
  | .parentOf name => .name <$> ofWorld (·.parentOf? name)
  | .isA name ancestor => .holds <$> ofWorld (·.table.isA name ancestor)
  | .isEnum name => .holds <$> ofWorld (·.table.isEnum name)
  | .isCollectionLike name => .holds <$> ofWorld (·.table.isCollectionLike name)
  | .typeIsA t ancestor => .holds <$> ofWorld (·.typeIsA ancestor t)

theorem query_steady (w : World) (pipeline : Pipeline) (q : Question) :
    (q.query pipeline).Steady w := by
  cases q with
  | resolve subject scope =>
    exact (Resolver.resolve_steady pipeline.asResolver subject scope).bind fun _ _ => steady_pure _
  | resolveBy resolver subject scope =>
    exact (Resolver.resolve_steady resolver subject scope).bind fun _ _ => steady_pure _
  | resolveNode node scope =>
    exact (Resolve.resolveNode_steady scope node).bind fun _ _ => steady_pure _
  | scopeOfClassName templated called declaring =>
    exact (Scope.ofClassName_steady templated called declaring).bind fun _ _ => steady_pure _
  | scopeOfClass templated c => exact (Scope.ofClass_steady templated c).bind fun _ _ => steady_pure _
  | scopeOfProperty templated p =>
    exact (Scope.ofProperty_steady templated p).bind fun _ _ => steady_pure _
  | scopeOfFunction templated f =>
    exact (Scope.ofFunction_steady templated f).bind fun _ _ => steady_pure _
  | parentClass scope => exact (Resolve.parentClass_steady scope).bind fun _ _ => steady_pure _
  | classExists name => exact Steady.bind ⟨_, settles_classExists name⟩ fun _ _ => steady_pure _
  | parentExists name => exact Steady.bind ⟨_, settles_parentExists name⟩ fun _ _ => steady_pure _
  | classify name => exact (steady_classify name).bind fun _ _ => steady_pure _
  | declaration _ | canonicalName _ | parentOf _ | isA _ _ | isEnum _ | isCollectionLike _
  | typeIsA _ _ =>
    exact (steady_ofWorld _).bind fun _ _ => steady_pure _

end Question

/-! ### Histories -/

/-- What may have happened in a session whose world stays as it is. -/
inductive Event where
  | asked (q : Question)
  | cleared

namespace Session

def answer (s : Session) (q : Question) : Except Failure Answer × Session :=
  s.ask (q.query s.pipeline)

def step (s : Session) : Event → Session
  | .asked q => (s.answer q).2
  | .cleared => s.clear

def run (s : Session) (history : List Event) : Session := history.foldl step s

def answers (s : Session) : List Question → List (Except Failure Answer)
  | [] => []
  | q :: rest => (s.answer q).1 :: (s.answer q).2.answers rest

/-- The second session differs from the first in no more than what it remembers, and remembers nothing
that is wrong. -/
structure Continues (s s' : Session) : Prop where
  world : s'.world = s.world
  pipeline : s'.pipeline = s.pipeline
  faithful : s'.memory.IsFaithful s.world

variable {s s' s'' : Session}

theorem clear_continues (h : Continues s s') : Continues s s'.clear :=
  ⟨h.world, h.pipeline, Memory.empty_isFaithful s.world⟩

theorem answer_continues (h : Continues s s') (q : Question) : Continues s (s'.answer q).2 := by
  obtain ⟨outcome, settles⟩ := q.query_steady s.world s'.pipeline
  refine ⟨h.world, h.pipeline, ?_⟩
  have still := (settles s'.memory h.faithful).2
  rwa [← h.world] at still ⊢

theorem answer_unique (h : Continues s s') (h' : Continues s s'') (q : Question) :
    (s'.answer q).1 = (s''.answer q).1 := by
  obtain ⟨outcome, settles⟩ := q.query_steady s.world s.pipeline
  have settled {t : Session} (h : Continues s t) : (t.answer q).1 = outcome := by
    rw [answer, ask, h.world, h.pipeline]
    exact (settles t.memory h.faithful).1
  rw [settled h, settled h']

theorem step_continues (h : Continues s s') (e : Event) : Continues s (s'.step e) := by
  cases e with
  | asked q => exact answer_continues h q
  | cleared => exact clear_continues h

theorem run_continues (h : Continues s s') (history : List Event) : Continues s (s'.run history) := by
  induction history generalizing s' with
  | nil => exact h
  | cons e rest ih => exact ih (step_continues h e)

theorem answers_eq_map (h : Continues s s') (h' : Continues s s'') (qs : List Question) :
    s'.answers qs = qs.map fun q => (s''.answer q).1 := by
  induction qs generalizing s' with
  | nil => rfl
  | cons q rest ih => rw [answers, List.map_cons, answer_unique h h', ih (answer_continues h q)]

/-- After any history each of any questions is answered as in a fresh session, so the answers do not
depend on the order in which questions are put. -/
theorem answers_as_fresh (world : World) (pipeline : Pipeline) (history : List Event) :
    (∀ q : Question, ((run { world, pipeline } history).answer q).1 =
      (answer { world, pipeline } q).1) ∧
    (∀ qs : List Question, (run { world, pipeline } history).answers qs =
      qs.map fun q => (answer { world, pipeline } q).1) ∧
    ∀ qs qs' : List Question, qs.Perm qs' →
      (qs.zip ((run { world, pipeline } history).answers qs)).Perm
        (qs'.zip ((run { world, pipeline } history).answers qs')) := by
  have fresh : Continues { world, pipeline } { world, pipeline } :=
    ⟨rfl, rfl, Memory.empty_isFaithful world⟩
  have later := run_continues fresh history
  refine ⟨fun q => answer_unique later fresh q, fun qs => answers_eq_map later fresh qs, ?_⟩
  intro qs qs' same
  rw [answers_eq_map later fresh, answers_eq_map later fresh, ← List.map_prod_left_eq_zip,
    ← List.map_prod_left_eq_zip]
  exact same.map _

/-- A question about a class, after a resolution that failed and a question about another class. -/
theorem answers_as_fresh_builtins :
    ((run { world := ⟨ClassTable.builtins, []⟩ }
      [.asked (.resolve (.text "Missing|Countable") none), .asked (.classExists "Missing")]).answer
        (.classExists "\\Countable")).1 = .ok (.holds true) ∧
      ([Question.isEnum "Countable", .classExists "Countable"].zip
        ((run { world := ⟨ClassTable.builtins, []⟩ } []).answers
          [.isEnum "Countable", .classExists "Countable"])).Perm
      ([Question.classExists "Countable", .isEnum "Countable"].zip
        ((run { world := ⟨ClassTable.builtins, []⟩ } []).answers
          [.classExists "Countable", .isEnum "Countable"])) := by
  obtain ⟨single, -, -⟩ := answers_as_fresh ⟨ClassTable.builtins, []⟩ Pipeline.documented
    [.asked (.resolve (.text "Missing|Countable") none), .asked (.classExists "Missing")]
  obtain ⟨-, -, order⟩ := answers_as_fresh ⟨ClassTable.builtins, []⟩ Pipeline.documented []
  exact ⟨(single _).trans rfl, order _ _ (List.Perm.swap _ _ _)⟩

end Session

end TypeHints
