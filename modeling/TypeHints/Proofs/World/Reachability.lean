import TypeHints.Proofs.World.Names

/-!
A walk that takes out of the table each class it looks into finds what it would find in the whole
table: from a class that was taken out, the way goes on by what the class leads to.
-/
namespace TypeHints.ClassTable

variable {next : ClassDecl → List String} {left : List (String × ClassDecl)} {target : String}

/-- Ways through the classes that are `left`, from a name to one with the key `target`; `next` tells
where a class leads. -/
inductive Leads (next : ClassDecl → List String) (left : List (String × ClassDecl)) (target : String) :
    String → Prop
  | here {name : String} : ClassName.key name = target → Leads next left target name
  | step {name other : String} {c : ClassDecl} :
      Keyed.valueAt? (ClassName.key name) left = some c → other ∈ next c →
      Leads next left target other → Leads next left target name

theorem leads_iff {name : String} : Leads next left target name ↔ ClassName.key name = target ∨
    ∃ c, Keyed.valueAt? (ClassName.key name) left = some c ∧ ∃ other ∈ next c,
      Leads next left target other := by
  constructor
  · rintro (same | ⟨found, member, rest⟩)
    · exact .inl same
    · exact .inr ⟨_, found, _, member, rest⟩
  · rintro (same | ⟨c, found, other, member, rest⟩)
    · exact .here same
    · exact .step found member rest

theorem Leads.of_dropEntry {key name : String} (h : Leads next (Keyed.dropEntry key left) target name) :
    Leads next left target name := by
  induction h with
  | here same => exact .here same
  | @step name other c found member _ ih =>
    have kept : ClassName.key name ≠ key := by
      intro same
      rw [same, Keyed.valueAt?_dropEntry_self] at found
      cases found
    rw [Keyed.valueAt?_dropEntry_of_ne kept] at found
    exact .step found member ih

/-- A way either avoids a class, or has a last part that starts behind it. -/
theorem Leads.dropEntry {key name : String} {c : ClassDecl}
    (known : Keyed.valueAt? key left = some c) (h : Leads next left target name) :
    Leads next (Keyed.dropEntry key left) target name ∨
      ∃ other ∈ next c, Leads next (Keyed.dropEntry key left) target other := by
  induction h with
  | here same => exact .inl (.here same)
  | @step name other d found member _ ih =>
    rcases ih with avoids | behind
    · by_cases same : ClassName.key name = key
      · rw [same, known] at found
        cases found
        exact .inr ⟨other, member, avoids⟩
      · rw [← Keyed.valueAt?_dropEntry_of_ne same] at found
        exact .inl (.step found member avoids)
    · exact .inr behind

theorem leads_behind {name : String} {c : ClassDecl} (other : ClassName.key name ≠ target)
    (known : Keyed.valueAt? (ClassName.key name) left = some c) :
    Leads next left target name ↔ ∃ other ∈ next c,
      Leads next (Keyed.dropEntry (ClassName.key name) left) target other := by
  constructor
  · intro h
    rcases h.dropEntry known with avoids | behind
    · rcases leads_iff.mp avoids with same | ⟨d, found, -⟩
      · exact absurd same other
      · rw [Keyed.valueAt?_dropEntry_self] at found
        cases found
    · exact behind
  · rintro ⟨other, member, rest⟩
    exact .step known member rest.of_dropEntry

/-- What a visited class leads to takes its place among the names that are still to be visited. -/
theorem exists_leads_visit {name : String} {queue : List String} {c : ClassDecl}
    (other : ClassName.key name ≠ target)
    (known : Keyed.valueAt? (ClassName.key name) left = some c) :
    (∃ q ∈ name :: queue, Leads next left target q) ↔
      ∃ q ∈ next c ++ queue, Leads next (Keyed.dropEntry (ClassName.key name) left) target q := by
  have here : Leads next left target name ↔ ∃ s ∈ next c,
      Leads next (Keyed.dropEntry (ClassName.key name) left) target s := leads_behind other known
  constructor
  · rintro ⟨q, member, h⟩
    rcases List.mem_cons.mp member with rfl | later
    · obtain ⟨s, member, rest⟩ := here.mp h
      exact ⟨s, List.mem_append_left _ member, rest⟩
    · rcases h.dropEntry known with avoids | ⟨s, member, rest⟩
      · exact ⟨q, List.mem_append_right _ later, avoids⟩
      · exact ⟨s, List.mem_append_left _ member, rest⟩
  · rintro ⟨q, member, h⟩
    rcases List.mem_append.mp member with child | later
    · exact ⟨name, List.mem_cons_self, here.mpr ⟨q, child, h⟩⟩
    · exact ⟨q, List.mem_cons_of_mem _ later, h.of_dropEntry⟩

theorem exists_leads_skip {name : String} {queue : List String} (other : ClassName.key name ≠ target)
    (absent : Keyed.valueAt? (ClassName.key name) left = none) :
    (∃ q ∈ name :: queue, Leads next left target q) ↔ ∃ q ∈ queue, Leads next left target q := by
  have nowhere : ¬ Leads next left target name := by
    rw [leads_iff, absent]
    rintro (same | ⟨c, found, -⟩)
    · exact other same
    · cases found
  simp only [List.mem_cons, exists_eq_or_imp, nowhere, false_or]

/-! ### Ancestors -/

theorem leadsTo_iff {queue : List String} : leadsTo target left queue = true ↔
    ∃ name ∈ queue, Leads ClassDecl.supertypes left target name := by
  -- Some name of the queue leads to the target by classes not yet visited: a path through a visited
  -- class can be cut short behind it.
  fun_induction leadsTo target left queue with
  | case1 left => simp
  | case2 left name queue key same =>
    exact ⟨fun _ => ⟨name, List.mem_cons_self, .here same⟩, fun _ => rfl⟩
  | case3 left name queue key other c known ih =>
    rw [ih, exists_leads_visit other known]
  | case4 left name queue key other absent ih =>
    rw [ih, exists_leads_skip other absent]

variable {t : ClassTable}

theorem reaches_iff_leads {a b : String} : t.Reaches a b ↔
    Leads ClassDecl.supertypes t.byKey.entries (ClassName.key b) a := by
  constructor
  · intro h
    induction h with
    | here same => exact .here same
    | step found member _ ih => exact .step found member ih
  · intro h
    induction h with
    | here same => exact .here same
    | step found member _ ih => exact .step found member ih

theorem Reaches.of_key_eq {a b c : String} (same : ClassName.key a = ClassName.key b)
    (h : t.Reaches b c) : t.Reaches a c := by
  cases h with
  | here rest => exact .here (same.trans rest)
  | step found member rest => exact .step ((find?_congr same).trans found) member rest

theorem Reaches.trans {a b c : String} (first : t.Reaches a b) (second : t.Reaches b c) :
    t.Reaches a c := by
  induction first with
  | here same => exact second.of_key_eq same
  | step found member _ ih => exact .step found member (ih second)

/-- In every table, also where classes extend themselves or each other or name classes that do not
exist, a class is another one if and only if parents and interfaces lead there; so it is itself, and
what its ancestors are. -/
theorem isA_iff_reaches (t : ClassTable) (a b c : String) :
    (t.isA a b = true ↔ t.Reaches a b) ∧ t.isA a a = true ∧
      (t.isA a b = true → t.isA b c = true → t.isA a c = true) := by
  have iff (x y : String) : t.isA x y = true ↔ t.Reaches x y := by
    rw [isA, leadsTo_iff, reaches_iff_leads]
    simp
  refine ⟨iff a b, (iff a a).mpr (.here rfl), fun first second => ?_⟩
  exact (iff a c).mpr (((iff a b).mp first).trans ((iff b c).mp second))

/-- Two classes that extend each other, one of which implements itself and an unknown interface. -/
def circle : ClassTable :=
  empty.insertAll
    [{ name := "Day", parent := some "\\night" },
     { name := "Night", parent := some "day", interfaces := ["NIGHT", "Cycle"] }]

theorem isA_iff_reaches_circle :
    circle.isA "Day" "\\cycle" = true ∧ circle.isA "Cycle" "Day" = false ∧
      circle.isA "Night" "Day" = true ∧ circle.isA "Night" "\\cycle" = true := by
  have day : circle.find? "Day" = some { name := "Day", parent := some "\\night" } := rfl
  have night : circle.find? "Night" =
      some { name := "Night", parent := some "day", interfaces := ["NIGHT", "Cycle"] } := rfl
  have back : circle.isA "Night" "Day" = true := by
    refine (isA_iff_reaches circle "Night" "Day" "Day").1.mpr ?_
    exact .step night (by decide : "day" ∈ _) (.here (by decide))
  have forth : circle.isA "Day" "\\cycle" = true := by
    refine (isA_iff_reaches circle "Day" "\\cycle" "Day").1.mpr (.step day (by decide : "\\night" ∈ _) ?_)
    exact .of_key_eq (by decide : _ = ClassName.key "Night")
      (.step night (by decide : "Cycle" ∈ _) (.here (by decide)))
  have unknown : circle.isA "Cycle" "Day" = false := by
    refine Bool.eq_false_iff.mpr fun isA => ?_
    cases (isA_iff_reaches circle "Cycle" "Day" "Day").1.mp isA with
    | here same => exact absurd same (by decide)
    | step found _ _ => cases found
  exact ⟨forth, unknown, back, (isA_iff_reaches circle "Night" "Day" "\\cycle").2.2 back forth⟩

end TypeHints.ClassTable
