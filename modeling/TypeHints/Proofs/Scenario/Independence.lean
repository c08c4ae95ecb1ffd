import Mathlib.Data.List.Forall2
import TypeHints.Proofs.Json.Writing
import TypeHints.Proofs.Session.History
import TypeHints.Scenario.Run

/-!
The cases of a scenario share a session, yet each has the result that it has in a scenario of its
own, and files run one after another are reported like each by itself.
-/
namespace TypeHints

/-! ### Cases that can be run -/

/-- The members that the subject names are in the table. -/
def CaseSubject.IsIn (table : ClassTable) : CaseSubject → Prop
  | .text _ => True
  | .property owner name => ∃ c p, table.find? owner = some c ∧ c.property? name = some p
  | .result owner method => ∃ c f, table.find? owner = some c ∧ c.method? method = some f
  | .parameter owner method name => ∃ c f p,
    table.find? owner = some c ∧ c.method? method = some f ∧ f.parameter? name = some p

/-- The case states one outcome, of a subject that is in the table. -/
structure Case.IsRunnable (table : ClassTable) (c : Case) : Prop where
  single : c.rendered.isSome ≠ c.failed.isSome
  subject : c.subject.IsIn table

theorem Case.exists_expected {c : Case} (single : c.rendered.isSome ≠ c.failed.isSome) :
    ∃ expected, c.expected = .ok expected := by
  unfold Case.expected
  cases rendered : c.rendered with
  | some text =>
    cases failed : c.failed with
    | some category => simp [rendered, failed] at single
    | none => exact ⟨_, rfl⟩
  | none =>
    cases failed : c.failed with
    | some category => exact ⟨_, rfl⟩
    | none => simp [rendered, failed] at single

theorem World.classNamed_of_find? {w : World} {name : String} {c : ClassDecl}
    (found : w.table.find? name = some c) : w.classNamed name = .ok c := by
  unfold World.classNamed World.find?
  rw [found]

theorem World.methodNamed_of_method? {w : World} {owner name : String} {c : ClassDecl} {f : FunctionDecl}
    (found : w.table.find? owner = some c) (method : c.method? name = some f) :
    w.methodNamed owner name = .ok f := by
  unfold World.methodNamed
  rw [classNamed_of_find? found]
  simp only [bind, Except.bind, method]

theorem CaseSubject.IsIn.exists_subject {w : World} {subject : CaseSubject} (h : subject.IsIn w.table) :
    ∃ s, w.subjectOf subject = .ok s := by
  cases subject with
  | text hint => exact ⟨_, rfl⟩
  | property owner name =>
    obtain ⟨c, p, found, property⟩ := h
    refine ⟨.property p, ?_⟩
    simp only [World.subjectOf, World.classNamed_of_find? found, bind, Except.bind, property]
  | result owner method =>
    obtain ⟨c, f, found, method⟩ := h
    refine ⟨.function f, ?_⟩
    simp only [World.subjectOf, World.methodNamed_of_method? found method]
    rfl
  | parameter owner method name =>
    obtain ⟨c, f, p, found, method, parameter⟩ := h
    refine ⟨.parameter f p, ?_⟩
    simp only [World.subjectOf, World.methodNamed_of_method? found method, bind, Except.bind, parameter]

/-! ### One case -/

theorem Session.resolve_settled (s : Session) (subject : Subject) (scope : Option Scope) :
    ∃ outcome, ∀ s', s.Continues s' →
      (s'.resolve subject scope).1 = outcome ∧ s.Continues (s'.resolve subject scope).2 := by
  obtain ⟨outcome, settles⟩ :=
    Resolver.resolve_steady (w := s.world) s.pipeline.asResolver subject scope
  refine ⟨outcome, fun s' later => ?_⟩
  have ⟨answer, still⟩ := settles s'.memory later.faithful
  have resolved : s'.resolve subject scope = s'.ask (s.pipeline.asResolver.resolve subject scope) := by
    unfold Session.resolve Pipeline.resolve
    rw [later.pipeline]
  rw [resolved]
  unfold Session.ask
  rw [later.world]
  exact ⟨answer, rfl, later.pipeline, still⟩

namespace Scenario

theorem runCase_settled (s : Session) (common : Option ScopeSpec) {c : Case}
    (runnable : c.IsRunnable s.world.table) : ∃ expected actual, ∀ s', s.Continues s' →
      ∃ s'', runCase common s' c = .ok (expected, actual, s'') ∧ s.Continues s'' := by
  obtain ⟨expected, states⟩ := Case.exists_expected runnable.single
  obtain ⟨subject, means⟩ := runnable.subject.exists_subject
  obtain ⟨outcome, settled⟩ := s.resolve_settled subject (c.scopeIn common)
  refine ⟨expected, .ofAnswer outcome, fun s' later => ?_⟩
  obtain ⟨answer, still⟩ := settled s' later
  refine ⟨_, ?_, still⟩
  unfold runCase
  rw [states, later.world, means, ← answer]
  rfl

/-! ### All cases -/

def only (sc : Scenario) (c : Case) : Scenario := { sc with cases := [c] }

def start (sc : Scenario) (table : ClassTable) : Session :=
  { world := { table }, pipeline := sc.choice.pipeline }

/-- The result is that of the case at the index, and the case has it by itself too. -/
structure IsResult (sc : Scenario) (table : ClassTable) (path : String) (c : Case) (index : Nat)
    (r : CaseResult) : Prop where
  scenario : r.scenario = path
  index : r.index = index
  subject : r.subject = c.subject.display
  alone : ∀ path', (sc.only c).run path' table = .ok ⟨[{ r with scenario := path', index := 0 }]⟩

theorem start_continues (sc : Scenario) (table : ClassTable) :
    (sc.start table).Continues (sc.start table) :=
  ⟨rfl, rfl, Memory.empty_isFaithful _⟩

theorem runCases_cons (sc : Scenario) (table : ClassTable) (path : String) (index : Nat) {c : Case}
    (runnable : c.IsRunnable table) (rest : List Case) {s : Session}
    (later : (sc.start table).Continues s) :
    ∃ r s', sc.IsResult table path c index r ∧ (sc.start table).Continues s' ∧
      runCases path sc.scope index (c :: rest) s =
        (runCases path sc.scope (index + 1) rest s').map (r :: ·) := by
  obtain ⟨expected, actual, settled⟩ := runCase_settled (sc.start table) sc.scope runnable
  obtain ⟨s', ran, still⟩ := settled s later
  obtain ⟨s'', fresh, -⟩ := settled _ (start_continues sc table)
  refine ⟨⟨path, index, c.subject.display, expected, actual⟩, s', ⟨rfl, rfl, rfl, ?_⟩, still, ?_⟩
  · intro path'
    show (do return Report.mk (← runCases path' sc.scope 0 [c] (sc.start table))) = _
    rw [runCases, fresh]
    rfl
  · rw [runCases, ran]
    rfl

theorem runCases_results (sc : Scenario) (table : ClassTable) (path : String) (index : Nat)
    {cases : List Case} (runnable : ∀ c ∈ cases, c.IsRunnable table) {s : Session}
    (later : (sc.start table).Continues s) :
    ∃ results, runCases path sc.scope index cases s = .ok results ∧
      List.Forall₂ (fun (c, i) r => sc.IsResult table path c i r) (cases.zipIdx index) results := by
  induction cases generalizing index s with
  | nil => exact ⟨[], rfl, .nil⟩
  | cons c rest ih =>
    obtain ⟨first, others⟩ := List.forall_mem_cons.mp runnable
    obtain ⟨r, s', result, still, ran⟩ := runCases_cons sc table path index first rest later
    obtain ⟨results, ranOthers, matched⟩ := ih (index + 1) others still
    refine ⟨r :: results, ?_, .cons result matched⟩
    rw [ran, ranOthers]
    rfl

theorem passed_iff {sc : Scenario} {table : ClassTable} {path : String} {c : Case} {i : Nat}
    {r : CaseResult} (h : sc.IsResult table path c i r) : r.passed = true ↔
      ∃ single, (sc.only c).run path table = .ok single ∧ single.isSuccess = true := by
  rw [h.alone path]
  simp only [Except.ok.injEq, exists_eq_left', Report.isSuccess_iff, List.forall_mem_singleton]
  rfl

/-! ### Files -/

variable {m : Type → Type} [Monad m] [LawfulMonad m]

/-- The scenario at the path and the table that it names are there and can be decoded. -/
structure Loads (files : Files m) (path : String) (sc : Scenario) (table : ClassTable) : Prop where
  scenario : load files Scenario.decode .malformedScenario path = pure sc
  world : load files ClassTable.decode .malformedWorld (Files.join (Files.parent path) sc.world) =
    pure table

theorem load_of_decoded {α : Type} {files : Files m} {decode : Json.Decoder α}
    {malformed : String → Json.DecodeError → RunFault} {path text : String} {value : α}
    (read : files.read path = pure (.ok text)) (decoded : Json.decodeString decode text = .ok value) :
    load files decode malformed path = pure value := by
  unfold load
  rw [read, liftM_pure, pure_bind]
  dsimp only
  rw [decoded]

theorem runFile_of_loads {files : Files m} {path : String} {sc : Scenario} {table : ClassTable}
    (loads : Loads files path sc table) :
    runFile files path = ExceptT.mk (pure (sc.run path table)) := by
  unfold runFile
  rw [loads.scenario, pure_bind]
  dsimp only
  rw [loads.world, pure_bind]

theorem concat_eq (reports : List Report) : Report.concat reports = ⟨reports.flatMap Report.results⟩ := by
  have front (r : Report) : reports.foldl Report.append r = ⟨r.results ++ reports.flatMap Report.results⟩ := by
    induction reports generalizing r with
    | nil => simp
    | cons next rest ih => rw [List.foldl_cons, ih, Report.results_append, List.append_assoc]; rfl
  exact front {}

theorem mapM_runFile {files : Files m} {paths : List String} {reports : List Report}
    (ran : List.Forall₂ (fun path report => runFile files path = pure report) paths reports) :
    paths.mapM (fun path => runFile files path) = pure reports := by
  induction ran with
  | nil => rfl
  | cons first others ih => rw [List.mapM_cons, first, pure_bind, ih, pure_bind]

theorem forall_mem_congr {α β : Type} {R : α → β → Prop} {P : α → Prop} {Q : β → Prop} {as : List α}
    {bs : List β} (h : List.Forall₂ R as bs) (same : ∀ a b, R a b → (P a ↔ Q b)) :
    (∀ a ∈ as, P a) ↔ ∀ b ∈ bs, Q b := by
  induction h with
  | nil => simp
  | cons first others ih => rw [List.forall_mem_cons, List.forall_mem_cons, same _ _ first, ih]

/-- Where the cases can be run, a scenario has one result for each of them, in order and numbered from
zero, which is the result of the case by itself. It succeeds if all of these scenarios of one case do.
Files that run one after another are reported as by themselves. -/
theorem cases_independent (files : Files m) :
    (∀ path sc table, Loads files path sc table →
      runFile files path = ExceptT.mk (pure (sc.run path table))) ∧
    (∀ (sc : Scenario) (table : ClassTable) (path : String), (∀ c ∈ sc.cases, c.IsRunnable table) →
      ∃ report, sc.run path table = .ok report ∧
        List.Forall₂ (fun (c, i) r => sc.IsResult table path c i r) sc.cases.zipIdx report.results ∧
        (report.isSuccess = true ↔ ∀ c ∈ sc.cases, ∃ single,
          (sc.only c).run path table = .ok single ∧ single.isSuccess = true)) ∧
    ∀ patterns paths reports, discover files patterns = pure paths →
      List.Forall₂ (fun path report => runFile files path = pure report) paths reports →
      runAll files patterns = pure ⟨reports.flatMap Report.results⟩ := by
  refine ⟨fun _ _ _ => runFile_of_loads, fun sc table path runnable => ?_,
    fun patterns paths reports found ran => ?_⟩
  · obtain ⟨results, ran, matched⟩ :=
      runCases_results sc table path 0 runnable (start_continues sc table)
    refine ⟨⟨results⟩, ?_, matched, ?_⟩
    · show (do return Report.mk (← runCases path sc.scope 0 sc.cases (sc.start table))) = _
      rw [ran]
      rfl
    · have each := forall_mem_congr matched fun _ _ result => (passed_iff result).symm
      have listed := List.forall_mem_map (l := sc.cases.zipIdx) (f := Prod.fst) (P := fun c =>
        ∃ single, (sc.only c).run path table = .ok single ∧ single.isSuccess = true)
      rw [List.zipIdx_map_fst] at listed
      rw [Report.isSuccess_iff, listed]
      exact each.symm
  · unfold runAll
    rw [found, pure_bind, mapM_runFile ran, pure_bind, concat_eq]

/-! ### A shelf -/

section Shelf
open Json

def shelfSize : Document := .ofMembers [("name", .text "size")]

def shelfClass : Document :=
  .ofMembers [("name", .text "Shelf"), ("properties", .ofList [shelfSize])]

def shelfTable : Document := .ofMembers [("builtins", .bool false), ("classes", .ofList [shelfClass])]

/-- A text that cannot be resolved, and then a property. -/
def shelfScenario : Document :=
  .ofMembers [("world", .text "shelf.json"), ("cases", .ofList [
    .ofMembers [("subject", .ofMembers [("string", .text "Missing")]), ("error", .text "environment")],
    .ofMembers [("subject", .ofMembers [("property",
      .ofMembers [("class", .text "Shelf"), ("name", .text "size")])]), ("expect", .text "mixed")]])]

def shelfFiles : Files Id where
  read := fun path => .ok (if path = "cases.json" then shelfScenario.compact else shelfTable.compact)
  holds := fun _ => true
  names? := fun _ => none

def shelfCases : Scenario where
  world := "shelf.json"
  cases := [{ subject := .text "Missing", failed := some .environment },
    { subject := .property "Shelf" "size", rendered := some "mixed" }]

def shelves : ClassTable :=
  ClassTable.empty.insertAll [{ name := "Shelf", properties := [{ name := "size" }] }]

theorem shelfTable_plain : Plain shelfTable := by
  refine .object (List.forall_mem_cons.mpr ⟨.bool _, List.forall_mem_singleton.mpr (.list ?_)⟩)
  refine List.forall_mem_singleton.mpr (.object (List.forall_mem_cons.mpr ⟨.text _, ?_⟩))
  refine List.forall_mem_singleton.mpr (.list (List.forall_mem_singleton.mpr (.object ?_)))
  exact List.forall_mem_singleton.mpr (.text _)

theorem shelfScenario_plain : Plain shelfScenario := by
  refine .object (List.forall_mem_cons.mpr ⟨.text _, List.forall_mem_singleton.mpr (.list ?_)⟩)
  refine List.forall_mem_cons.mpr ⟨.object (List.forall_mem_cons.mpr ⟨.object ?_, ?_⟩),
    List.forall_mem_singleton.mpr (.object (List.forall_mem_cons.mpr ⟨.object ?_, ?_⟩))⟩
  · exact List.forall_mem_singleton.mpr (.text _)
  · exact List.forall_mem_singleton.mpr (.text _)
  · refine List.forall_mem_singleton.mpr (.object (List.forall_mem_cons.mpr ⟨.text _, ?_⟩))
    exact List.forall_mem_singleton.mpr (.text _)
  · exact List.forall_mem_singleton.mpr (.text _)

theorem shelf_loads : Loads shelfFiles "cases.json" shelfCases shelves := by
  have scenario : decodeString Scenario.decode shelfScenario.compact = .ok shelfCases := by
    rw [decodeString, shelfScenario_plain.ofString_compact]
    rfl
  have table : decodeString ClassTable.decode shelfTable.compact = .ok shelves := by
    rw [decodeString, shelfTable_plain.ofString_compact]
    rfl
  exact ⟨load_of_decoded rfl scenario, load_of_decoded rfl table⟩

theorem cases_independent_shelf : ∃ report, runFile shelfFiles "cases.json" = pure report ∧
    report.results.map CaseResult.index = [0, 1] ∧
    runAll shelfFiles ["cases.json", "cases.json"] = pure ⟨report.results ++ report.results⟩ := by
  have runnable : ∀ c ∈ shelfCases.cases, c.IsRunnable shelves :=
    List.forall_mem_cons.mpr ⟨⟨by decide, trivial⟩,
      List.forall_mem_singleton.mpr ⟨by decide, _, _, rfl, rfl⟩⟩
  obtain ⟨loaded, alone, all⟩ := cases_independent shelfFiles
  obtain ⟨report, ran, matched, -⟩ := alone shelfCases shelves "cases.json" runnable
  have here := loaded _ _ _ shelf_loads
  rw [ran] at here
  refine ⟨report, here, ?_, ?_⟩
  · obtain ⟨results⟩ := report
    cases matched with
    | cons first others =>
      cases others with
      | cons second others =>
        cases others
        rw [List.map_cons, List.map_singleton, first.index, second.index]
  · have twice := all ["cases.json", "cases.json"] ["cases.json", "cases.json"] [report, report] rfl
      (.cons here (.cons here .nil))
    rw [twice, List.flatMap_cons, List.flatMap_singleton]

end Shelf

end Scenario

end TypeHints
