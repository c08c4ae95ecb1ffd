import TypeHints.World.Query

/-!
# What a query answers

`Gives` says of every answer of a query in a world that it has a property, whatever is remembered;
failures are left open. `Settles` tells the one outcome of a query whose memory agrees with the
world, a query is `Steady` if it has one, and two queries are `Alike` if theirs differ at most in
the failure. One lemma for each way to make a query.
-/
namespace TypeHints

/-- What is remembered is what the world says. -/
structure Memory.IsFaithful (m : Memory) (w : World) : Prop where
  existing : ∀ name known, m.existing.find? name = some known → known = (w.find? name).isSome
  parents : ∀ name known, m.parents.find? name = some known → known = (w.find? name).isSome

theorem Memory.empty_isFaithful (w : World) : ({} : Memory).IsFaithful w := ⟨nofun, nofun⟩

theorem World.find?_stripRoot (w : World) (name : String) :
    w.find? (ClassName.stripRoot name) = w.find? name := by
  simp [World.find?, ClassTable.find?]

namespace Query

variable {α β : Type} {w : World}

theorem andThen_succeed (q : Query α) : andThen q succeed = q := by
  funext w m
  unfold andThen
  obtain ⟨answer, m'⟩ := q w m
  cases answer <;> rfl

theorem andThen_assoc {γ : Type} (q : Query α) (next : α → Query β) (last : β → Query γ) :
    andThen (andThen q next) last = andThen q fun a => andThen (next a) last := by
  funext w m
  unfold andThen
  obtain ⟨answer, m'⟩ := q w m
  cases answer <;> rfl

instance : LawfulMonad Query :=
  LawfulMonad.mk' Query andThen_succeed (fun _ _ => rfl) andThen_assoc

/-! ### Properties of answers -/

/-- Every answer in the world has the property. -/
def Gives (w : World) (q : Query α) (P : α → Prop) : Prop := ∀ m a, (q w m).1 = .ok a → P a

theorem gives_any (q : Query α) : q.Gives w fun _ => True := fun _ _ _ => trivial

theorem Gives.mono {q : Query α} {P Q : α → Prop} (h : q.Gives w P) (weaker : ∀ a, P a → Q a) :
    q.Gives w Q :=
  fun m a answer => weaker a (h m a answer)

theorem gives_pure {P : α → Prop} {a : α} (h : P a) : (pure a : Query α).Gives w P := by
  intro m b answer
  cases answer
  exact h

theorem gives_fail {P : α → Prop} (f : Failure) : (fail f : Query α).Gives w P := by
  intro m a answer
  cases answer

theorem bind_ok {q : Query α} {next : α → Query β} {m : Memory} {b : β}
    (answer : ((q >>= next) w m).1 = .ok b) :
    ∃ a m', (q w m).1 = .ok a ∧ (next a w m').1 = .ok b := by
  change (andThen q next w m).1 = .ok b at answer
  unfold andThen at answer
  split at answer
  next a m' asked => exact ⟨a, m', by rw [asked], answer⟩
  next => cases answer

theorem ofBuilt_ok {built : Built} {m : Memory} {t : Ty} (answer : (ofBuilt built w m).1 = .ok t) :
    built = .ok t := by
  cases built <;> cases answer
  rfl

theorem Gives.bind {q : Query α} {next : α → Query β} {P : α → Prop} {Q : β → Prop}
    (first : q.Gives w P) (second : ∀ a, P a → (next a).Gives w Q) : (q >>= next).Gives w Q := by
  intro m b answer
  obtain ⟨a, m', asked, answer⟩ := bind_ok answer
  exact second a (first m a asked) m' b answer

theorem Gives.map {q : Query α} {f : α → β} {P : β → Prop} (h : q.Gives w fun a => P (f a)) :
    (f <$> q).Gives w P :=
  h.bind fun _ => gives_pure

theorem gives_ofBuilt {P : Ty → Prop} {built : Built} (h : ∀ t, built = .ok t → P t) :
    (ofBuilt built).Gives w P :=
  fun _ t answer => h t (ofBuilt_ok answer)

theorem gives_classify {P : Ty → Prop} {name : String} (h : ∀ t, w.classify name = .ok t → P t) :
    (classify name).Gives w P := by
  intro m t answer
  exact gives_ofBuilt h m t answer

theorem gives_ofWorld (ask : World → α) : (ofWorld ask).Gives w fun a => a = ask w := by
  intro m a answer
  cases answer
  rfl

theorem gives_theClass (name : String) : (theClass name).Gives w fun c => w.find? name = some c := by
  intro m c answer
  unfold theClass at answer
  cases found : w.find? name <;> rw [found] at answer <;> cases answer
  rfl

theorem gives_aliasesOf (c : ClassDecl) :
    (aliasesOf c).Gives w fun uses => w.table.aliasesOf w.fileAliases c = .ok uses := by
  intro m uses answer
  unfold aliasesOf at answer
  cases read : w.table.aliasesOf w.fileAliases c <;> rw [read] at answer <;> cases answer
  rfl

theorem Gives.explain {q : Query α} {P : α → Prop} (h : q.Gives w P) (change : Failure → Failure) :
    (q.explain change).Gives w P := by
  intro m a answer
  unfold Query.explain at answer
  split at answer
  next b m' asked =>
    cases answer
    exact h m _ (by rw [asked])
  next => cases answer

theorem Gives.attempt {q : Query α} {P : α → Prop} (h : q.Gives w P) :
    q.attempt.Gives w fun answer => ∀ a, answer = .ok a → P a := by
  intro m answer tried a given
  cases tried
  exact h m a given

/-! ### Outcomes -/

/-- The outcome in any memory that agrees with the world, which then goes on to do so. -/
def Settles (w : World) (q : Query α) (outcome : Except Failure α) : Prop :=
  ∀ m : Memory, m.IsFaithful w → (q w m).1 = outcome ∧ (q w m).2.IsFaithful w

theorem settles_pure (a : α) : (pure a : Query α).Settles w (.ok a) := fun _ faithful => ⟨rfl, faithful⟩

theorem Settles.bind {q : Query α} {next : α → Query β} {a : α} {outcome : Except Failure β}
    (first : q.Settles w (.ok a)) (second : (next a).Settles w outcome) :
    (q >>= next).Settles w outcome := by
  intro m faithful
  obtain ⟨answer, still⟩ := first m faithful
  change (andThen q next w m).1 = outcome ∧ (andThen q next w m).2.IsFaithful w
  cases asked : q w m with
  | mk result m' =>
    rw [asked] at answer still
    obtain rfl : result = .ok a := answer
    simp only [andThen, asked]
    exact second m' still

theorem settles_ofWorld (ask : World → α) : (ofWorld ask).Settles w (.ok (ask w)) :=
  fun _ faithful => ⟨rfl, faithful⟩

theorem settles_ofBuilt {built : Built} {t : Ty} (h : built = .ok t) :
    (ofBuilt built).Settles w (.ok t) := by
  subst h
  exact settles_pure t

theorem settles_classify {name : String} {t : Ty} (h : w.classify name = .ok t) :
    (classify name).Settles w (.ok t) := by
  intro m faithful
  exact settles_ofBuilt h m faithful

theorem settles_built (built : Built) :
    (ofBuilt built).Settles w (built.mapError Failure.construction) := by
  cases built <;> exact fun _ faithful => ⟨rfl, faithful⟩

theorem settles_classified (name : String) :
    (classify name).Settles w ((w.classify name).mapError Failure.construction) :=
  fun m faithful => settles_built (w.classify name) m faithful

theorem settles_classExists (name : String) :
    (classExists name).Settles w (.ok (w.find? name).isSome) := by
  intro m faithful
  simp only [classExists]
  cases known : m.existing.find? (ClassName.stripRoot name) with
  | some answer =>
    have told := faithful.existing _ _ known
    rw [World.find?_stripRoot] at told
    exact ⟨congrArg Except.ok told, faithful⟩
  | none =>
    refine ⟨by rw [World.find?_stripRoot], ⟨?_, faithful.parents⟩⟩
    intro other answer found
    by_cases same : other = ClassName.stripRoot name
    · rw [same, Keyed.find?_put_self] at found
      cases found
      rw [same]
    · rw [Keyed.find?_put_of_ne _ _ same] at found
      exact faithful.existing other answer found

theorem settles_fail (f : Failure) : (fail f : Query α).Settles w (.error f) :=
  fun _ faithful => ⟨rfl, faithful⟩

theorem Settles.bind_error {q : Query α} {next : α → Query β} {f : Failure}
    (first : q.Settles w (.error f)) : (q >>= next).Settles w (.error f) := by
  intro m faithful
  obtain ⟨answer, still⟩ := first m faithful
  change (andThen q next w m).1 = .error f ∧ (andThen q next w m).2.IsFaithful w
  cases asked : q w m with
  | mk result m' =>
    rw [asked] at answer still
    obtain rfl : result = .error f := answer
    simp only [andThen, asked]
    exact ⟨trivial, still⟩

theorem settles_theClass (name : String) : (theClass name).Settles w
    (match w.find? name with
      | some c => .ok c
      | none => .error (.unknownClass name)) := by
  intro m faithful
  unfold theClass
  cases w.find? name <;> exact ⟨rfl, faithful⟩

theorem settles_aliasesOf (c : ClassDecl) :
    (aliasesOf c).Settles w (w.table.aliasesOf w.fileAliases c) := by
  intro m faithful
  unfold aliasesOf
  cases w.table.aliasesOf w.fileAliases c <;> exact ⟨rfl, faithful⟩

theorem settles_parentExists (name : String) :
    (parentExists name).Settles w (.ok (w.find? name).isSome) := by
  intro m faithful
  simp only [parentExists]
  cases known : m.parents.find? name with
  | some answer => exact ⟨congrArg Except.ok (faithful.parents _ _ known), faithful⟩
  | none =>
    refine ⟨rfl, ⟨faithful.existing, ?_⟩⟩
    intro other answer found
    by_cases same : other = name
    · rw [same, Keyed.find?_put_self] at found
      cases found
      rw [same]
    · rw [Keyed.find?_put_of_ne _ _ same] at found
      exact faithful.parents other answer found

theorem Settles.explain {q : Query α} {outcome : Except Failure α} (h : q.Settles w outcome)
    (change : Failure → Failure) : (q.explain change).Settles w (outcome.mapError change) := by
  intro m faithful
  obtain ⟨answer, still⟩ := h m faithful
  cases asked : q w m with
  | mk result m' =>
    rw [asked] at answer still
    obtain rfl : result = outcome := answer
    cases result <;> simp only [Query.explain, asked] <;> exact ⟨rfl, still⟩

theorem Settles.attempt {q : Query α} {outcome : Except Failure α} (h : q.Settles w outcome) :
    q.attempt.Settles w (.ok outcome) := by
  intro m faithful
  obtain ⟨answer, still⟩ := h m faithful
  exact ⟨congrArg Except.ok answer, still⟩

theorem Settles.unique {q : Query α} {a b : Except Failure α} (h : q.Settles w a)
    (again : q.Settles w b) : a = b :=
  (h {} (Memory.empty_isFaithful w)).1.symm.trans (again {} (Memory.empty_isFaithful w)).1

/-! ### Steady queries -/

/-- What is remembered makes no difference, as long as it agrees with the world. -/
def Steady (w : World) (q : Query α) : Prop := ∃ outcome, q.Settles w outcome

theorem steady_pure (a : α) : (pure a : Query α).Steady w := ⟨_, settles_pure a⟩

theorem steady_fail (f : Failure) : (fail f : Query α).Steady w := ⟨_, settles_fail f⟩

theorem Steady.bind {q : Query α} {next : α → Query β} (first : q.Steady w)
    (second : ∀ a, q.Settles w (.ok a) → (next a).Steady w) : (q >>= next).Steady w := by
  obtain ⟨outcome, settles⟩ := first
  cases outcome with
  | error f => exact ⟨_, settles.bind_error⟩
  | ok a =>
    obtain ⟨outcome, rest⟩ := second a settles
    exact ⟨outcome, settles.bind rest⟩

theorem Steady.bind_ok {q : Query α} {next : α → Query β} {b : β} (first : q.Steady w)
    (second : ∀ a, (next a).Steady w) (h : (q >>= next).Settles w (.ok b)) :
    ∃ a, q.Settles w (.ok a) ∧ (next a).Settles w (.ok b) := by
  obtain ⟨outcome, settles⟩ := first
  cases outcome with
  | error f => cases settles.bind_error.unique h
  | ok a =>
    obtain ⟨outcome, rest⟩ := second a
    obtain rfl := (settles.bind rest).unique h
    exact ⟨a, settles, rest⟩

theorem steady_ofWorld (ask : World → α) : (ofWorld ask).Steady w := ⟨_, settles_ofWorld ask⟩

theorem steady_ofBuilt (built : Built) : (ofBuilt built).Steady w := ⟨_, settles_built built⟩

theorem steady_classify (name : String) : (classify name).Steady w := ⟨_, settles_classified name⟩

theorem Steady.explain {q : Query α} (h : q.Steady w) (change : Failure → Failure) :
    (q.explain change).Steady w := by
  obtain ⟨outcome, settles⟩ := h
  exact ⟨_, settles.explain change⟩

/-! ### Queries that agree -/

/-- Two queries answer the same, or fail by failures of one category. -/
def Alike (w : World) (q q' : Query α) : Prop :=
  ∃ outcome outcome', q.Settles w outcome ∧ q'.Settles w outcome' ∧
    outcome.mapError Failure.category = outcome'.mapError Failure.category

theorem Steady.alike {q : Query α} (h : q.Steady w) : q.Alike w q := by
  obtain ⟨outcome, settles⟩ := h
  exact ⟨outcome, outcome, settles, settles, rfl⟩

theorem Alike.bind {q q' : Query α} {next next' : α → Query β} (first : q.Alike w q')
    (second : ∀ a, q.Settles w (.ok a) → (next a).Alike w (next' a)) :
    (q >>= next).Alike w (q' >>= next') := by
  obtain ⟨outcome, outcome', settles, settles', same⟩ := first
  cases outcome with
  | error f =>
    cases outcome' with
    | error g =>
      refine ⟨_, _, settles.bind_error, settles'.bind_error, ?_⟩
      have category : f.category = g.category := Except.error.inj same
      exact congrArg Except.error category
    | ok b => cases same
  | ok a =>
    cases outcome' with
    | error g => cases same
    | ok b =>
      cases same
      obtain ⟨answer, answer', rest, rest', agree⟩ := second a settles
      exact ⟨_, _, settles.bind rest, settles'.bind rest', agree⟩

end Query

end TypeHints
