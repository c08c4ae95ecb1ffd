import Mathlib.Data.Finset.Card
import Mathlib.Data.List.DropRight
import TypeHints.Proofs.Keyed
import TypeHints.Proofs.Session.History

/-!
# What a session remembers of worlds that are gone

Whether a class exists is remembered from the first time that it is asked, and no change of the
world corrects it; whatever else a lookup tells comes from the world as it is. The course of a
session, each act with the world in which it was done, says which worlds its memory speaks of.
-/
namespace TypeHints

/-! ### Memories of first probes -/

/-- What a memory holds of a name is what the world said in which the name was probed first. -/
def Remembers (m : Keyed String Bool) (probes : List (String × World)) : Prop :=
  ∀ name, m.find? name = (probes.lookup name).map fun w => (w.find? name).isSome

namespace Remembers

variable {m : Keyed String Bool} {probes : List (String × World)}

theorem nothing : Remembers Keyed.empty [] := fun _ => rfl

theorem putNew (h : Remembers m probes) (name : String) (w : World) :
    Remembers (m.putNew name (w.find? name).isSome) (probes ++ [(name, w)]) := by
  intro other
  rw [Keyed.find?_putNew, h other, List.lookup_append, Option.map_or]
  congr 1
  by_cases same : other = name
  · simp [same]
  · have differs : (other == name) = false := beq_eq_false_iff_ne.mpr same
    simp [List.lookup_cons, differs, same]

theorem size_eq (h : Remembers m probes) : m.size = (probes.map Prod.fst).toFinset.card := by
  have same : m.keys.toFinset = (probes.map Prod.fst).toFinset := by
    ext name
    have probed : (m.find? name).isSome = (probes.lookup name).isSome := by simp [h name]
    rw [List.mem_toFinset, List.mem_toFinset, ← Keyed.isSome_find?_iff, probed,
      List.lookup_isSome_iff, List.mem_map]
    exact exists_congr fun probe => and_congr_right' (by rw [beq_iff_eq, eq_comm])
  have entries : m.keys.toFinset.card = m.keys.length := List.toFinset_card_of_nodup m.distinct
  rw [← same, entries, Keyed.keys, List.length_map, Keyed.size]

end Remembers

namespace Query

variable {α β : Type}

theorem map_apply (f : α → β) (q : Query α) (w : World) (m : Memory) :
    (f <$> q) w m = (f <$> (q w m).1, (q w m).2) := by
  change andThen q (fun a => succeed (f a)) w m = _
  unfold andThen
  obtain ⟨answer, m'⟩ := q w m
  cases answer <;> rfl

theorem classExists_eq (name : String) (w : World) (m : Memory) :
    classExists name w m =
      (.ok ((m.existing.find? (ClassName.stripRoot name)).getD (w.find? name).isSome),
        { m with existing := m.existing.putNew (ClassName.stripRoot name) (w.find? name).isSome }) := by
  cases known : m.existing.find? (ClassName.stripRoot name) <;>
    simp [classExists, Keyed.putNew, Keyed.contains, World.find?_stripRoot, known]

theorem parentExists_eq (name : String) (w : World) (m : Memory) :
    parentExists name w m =
      (.ok ((m.parents.find? name).getD (w.find? name).isSome),
        { m with parents := m.parents.putNew name (w.find? name).isSome }) := by
  cases known : m.parents.find? name <;>
    simp [parentExists, Keyed.putNew, Keyed.contains, known]

end Query

/-! ### Lookups in the world as it is -/

/-- What a lookup of classes tells without a memory. -/
inductive Lookup where
  | declaration (name : String)
  | canonicalName (name : String)
  | parentOf (name : String)
  | isA (name ancestor : String)
  | isEnum (name : String)
  | isCollectionLike (name : String)
  | classify (name : String)
  | typeIsA (t : Ty) (ancestor : String)

namespace Lookup

def question : Lookup → Question
  | declaration name => .declaration name
  | canonicalName name => .canonicalName name
  | parentOf name => .parentOf name
  | isA name ancestor => .isA name ancestor
  | isEnum name => .isEnum name
  | isCollectionLike name => .isCollectionLike name
  | classify name => .classify name
  | typeIsA t ancestor => .typeIsA t ancestor

def answer (w : World) : Lookup → Except Failure Answer
  | declaration name => .ok (.declaration (w.find? name))
  | canonicalName name => .ok (.name (some (w.canonicalName name)))
  | parentOf name => .ok (.name (w.parentOf? name))
  | isA name ancestor => .ok (.holds (w.table.isA name ancestor))
  | isEnum name => .ok (.holds (w.table.isEnum name))
  | isCollectionLike name => .ok (.holds (w.table.isCollectionLike name))
  | classify name => .type <$> (w.classify name).mapError .construction
  | typeIsA t ancestor => .ok (.holds (w.typeIsA ancestor t))

theorem query_eq (l : Lookup) (pipeline : Pipeline) (w : World) (m : Memory) :
    l.question.query pipeline w m = (l.answer w, m) := by
  cases l with
  | classify name =>
    rw [question, Question.query, Query.map_apply, Query.classify, answer]
    cases w.classify name <;> rfl
  | _ => rfl

end Lookup

/-! ### The course of a session -/

/-- What may be done with a session: probes of names, lookups, changes of the world. -/
inductive Act where
  | classExists (name : String)
  | parentExists (name : String)
  | lookup (l : Lookup)
  | insert (c : ClassDecl)
  | replaceTable (table : ClassTable)
  | clear

namespace Act

def change (w : World) : Act → World
  | insert c => { w with table := w.table.insert c }
  | replaceTable table => { w with table }
  | classExists _ | parentExists _ | lookup _ | clear => w

def isClear : Act → Bool
  | clear => true
  | _ => false

end Act

/-- Each act with the world in which it is done. -/
def course (w : World) : List Act → List (World × Act)
  | [] => []
  | act :: rest => (w, act) :: course (act.change w) rest

def sinceClear (course : List (World × Act)) : List (World × Act) :=
  course.rtakeWhile fun step => !step.2.isClear

/-- The classes probed, without root markers. -/
def classProbes (course : List (World × Act)) : List (String × World) :=
  course.filterMap fun
    | (w, .classExists name) => some (ClassName.stripRoot name, w)
    | _ => none

/-- The parents probed, as they were spelled. -/
def parentProbes (course : List (World × Act)) : List (String × World) :=
  course.filterMap fun
    | (w, .parentExists name) => some (name, w)
    | _ => none

theorem course_append_singleton (w : World) (acts : List Act) (act : Act) :
    course w (acts ++ [act]) = course w acts ++ [(acts.foldl Act.change w, act)] := by
  induction acts generalizing w with
  | nil => rfl
  | cons first rest ih => simp [course, ih]

/-- The memory holds what the probes of the course have told. -/
structure Memory.Recalls (m : Memory) (course : List (World × Act)) : Prop where
  existing : Remembers m.existing (classProbes course)
  parents : Remembers m.parents (parentProbes course)

theorem Memory.recalls_nothing : ({} : Memory).Recalls [] := ⟨.nothing, .nothing⟩

namespace Session

def perform (s : Session) : Act → Session
  | .classExists name => (s.answer (.classExists name)).2
  | .parentExists name => (s.answer (.parentExists name)).2
  | .lookup l => (s.answer l.question).2
  | .insert c => s.insert c
  | .replaceTable table => s.replaceTable table
  | .clear => s.clear

def after (s : Session) (acts : List Act) : Session := acts.foldl perform s

variable {s : Session} {past : List (World × Act)}

theorem answer_classExists (s : Session) (name : String) :
    s.answer (.classExists name) =
      (.ok (.holds ((s.memory.existing.find? (ClassName.stripRoot name)).getD
          (s.world.find? name).isSome)),
        { s with memory.existing :=
          s.memory.existing.putNew (ClassName.stripRoot name) (s.world.find? name).isSome }) := by
  rw [answer, ask, Question.query, Query.map_apply, Query.classExists_eq]
  rfl

theorem answer_parentExists (s : Session) (name : String) :
    s.answer (.parentExists name) =
      (.ok (.holds ((s.memory.parents.find? name).getD (s.world.find? name).isSome)),
        { s with memory.parents :=
          s.memory.parents.putNew name (s.world.find? name).isSome }) := by
  rw [answer, ask, Question.query, Query.map_apply, Query.parentExists_eq]
  rfl

theorem answer_lookup (s : Session) (l : Lookup) : s.answer l.question = (l.answer s.world, s) := by
  rw [answer, ask, Lookup.query_eq]

theorem perform_world (s : Session) (act : Act) : (s.perform act).world = act.change s.world := by
  cases act with
  | lookup l => rw [perform, answer_lookup]; rfl
  | _ => rfl

theorem after_world (s : Session) (acts : List Act) :
    (s.after acts).world = acts.foldl Act.change s.world := by
  induction acts generalizing s with
  | nil => rfl
  | cons act rest ih => rw [after, List.foldl_cons, List.foldl_cons, ← perform_world, ← ih, after]

/-- An act adds to the memory what it probes, and only a clear takes anything away. -/
theorem perform_recalls (h : s.memory.Recalls (sinceClear past)) (act : Act) :
    (s.perform act).memory.Recalls (sinceClear (past ++ [(s.world, act)])) := by
  -- A clear forgets the acts before it; every other act joins them.
  by_cases clear : act = .clear
  · subst clear
    rw [sinceClear, List.rtakeWhile_concat_neg _ _ _ (by simp [Act.isClear])]
    exact Memory.recalls_nothing
  have goes : sinceClear (past ++ [(s.world, act)]) = sinceClear past ++ [(s.world, act)] := by
    refine List.rtakeWhile_concat_pos _ _ _ ?_
    cases act <;> first | rfl | exact absurd rfl clear
  rw [goes]
  obtain ⟨existing, parents⟩ := h
  cases act with
  | classExists name =>
    refine ⟨?_, ?_⟩
    · have added := existing.putNew (ClassName.stripRoot name) s.world
      rw [World.find?_stripRoot] at added
      rw [perform, answer_classExists]
      simpa [classProbes] using added
    · rw [perform, answer_classExists]
      simpa [parentProbes] using parents
  | parentExists name =>
    refine ⟨?_, ?_⟩
    · rw [perform, answer_parentExists]
      simpa [classProbes] using existing
    · rw [perform, answer_parentExists]
      simpa [parentProbes] using parents.putNew name s.world
  | lookup l =>
    rw [perform, answer_lookup]
    exact ⟨by simpa [classProbes] using existing, by simpa [parentProbes] using parents⟩
  | insert _ | replaceTable _ =>
    exact ⟨by simpa [classProbes, perform, insert, replaceTable] using existing,
      by simpa [parentProbes, perform, insert, replaceTable] using parents⟩
  | clear => exact absurd rfl clear

theorem after_recalls (world : World) (pipeline : Pipeline) (history : List Act) :
    (after { world, pipeline } history).memory.Recalls (sinceClear (course world history)) := by
  induction history using List.reverseRecOn with
  | nil => exact Memory.recalls_nothing
  | append_singleton acts act ih =>
    have now := after_world { world, pipeline } acts
    have step := perform_recalls ih act
    rw [now] at step
    rw [course_append_singleton, after, List.foldl_append]
    exact step

/-- After any acts the existence of a class is answered from the world in which the name, root markers
aside, was first probed since the memory was last cleared, that of a parent from the world in which
exactly this spelling was; a name not yet probed and every other lookup are answered from the world as
it is. The memory has an entry for each name so probed. -/
theorem answers_of_course (world : World) (pipeline : Pipeline) (history : List Act) :
    (∀ name, ((after { world, pipeline } history).answer (.classExists name)).1 =
      .ok (.holds ((((classProbes (sinceClear (course world history))).lookup
        (ClassName.stripRoot name)).getD (history.foldl Act.change world)).find? name).isSome)) ∧
    (∀ name, ((after { world, pipeline } history).answer (.parentExists name)).1 =
      .ok (.holds ((((parentProbes (sinceClear (course world history))).lookup name).getD
        (history.foldl Act.change world)).find? name).isSome)) ∧
    (∀ l : Lookup, ((after { world, pipeline } history).answer l.question).1 =
      l.answer (history.foldl Act.change world)) ∧
    (after { world, pipeline } history).memory.size =
      ((classProbes (sinceClear (course world history))).map Prod.fst).toFinset.card +
        ((parentProbes (sinceClear (course world history))).map Prod.fst).toFinset.card := by
  have now := after_world { world, pipeline } history
  obtain ⟨existing, parents⟩ := after_recalls world pipeline history
  refine ⟨fun name => ?_, fun name => ?_, fun l => ?_, ?_⟩
  · rw [answer_classExists, existing, now]
    cases (classProbes (sinceClear (course world history))).lookup (ClassName.stripRoot name) with
    | none => rfl
    | some first => simp [World.find?_stripRoot]
  · rw [answer_parentExists, parents, now]
    cases (parentProbes (sinceClear (course world history))).lookup name <;> rfl
  · rw [answer_lookup, now]
  · rw [Memory.size, existing.size_eq, parents.size_eq]

end Session

end TypeHints
