import TypeHints.Proofs.Hint.Fitting
import TypeHints.Proofs.Resolve.Canonical
import TypeHints.Proofs.Resolve.Steady
import TypeHints.Proofs.World.Names

/-!
`self`, `static` and `parent` mean the same class in a type expression and in a native type. The
expression makes an object of it as it is named, the native type classifies it.
-/
namespace TypeHints.Resolve
open Query Hint

variable {w : World} {s : Scope} {word : String} {classOf : Scope → Query String}

/-! ### The class -/

theorem scopeWord_cases (means : scopeClass? word = some classOf) :
    word = "self" ∨ word = "static" ∨ word = "parent" := by
  unfold scopeClass? at means
  split at means
  · exact .inl rfl
  · exact .inr (.inl rfl)
  · exact .inr (.inr rfl)
  · cases means

theorem scopeClass?_fails {f : Failure} (means : scopeClass? word = some classOf)
    (fails : (classOf s).Settles w (.error f)) : f = .noParent s.declaringClass := by
  rcases scopeWord_cases means with rfl | rfl | rfl
  · cases means
    cases fails.unique (settles_pure s.declaringClass)
  · cases means
    cases fails.unique (settles_pure s.calledClass)
  · cases means
    cases found : w.parentOf? s.declaringClass with
    | none =>
      cases fails.unique (parentClass_orphan found)
      rfl
    | some parent =>
      obtain ⟨name, settles⟩ := parentClass_found found
      cases fails.unique settles

/-! ### In a type expression -/

theorem hint_settles {outcome : Except Failure Ty} (means : scopeClass? word = some classOf)
    (named : (resolveName (some s) word).Settles w outcome) :
    (resolveHint (some s) word).Settles w
      (outcome.mapError fun f => if f.isUnsupported then .unresolvedHint word f else f) := by
  have given : read word = .ok (.name word) := by
    rcases scopeWord_cases means with rfl | rfl | rfl <;> exact read_name (by decide)
  exact resolveHint_of_read given named

theorem plainName_word (means : scopeClass? word = some classOf) :
    plainName (some s) word = do return .object (ClassName.stripRoot (← classOf s)) := by
  rcases scopeWord_cases means with rfl | rfl | rfl <;> cases means <;> rfl

theorem word_settles {name : String} (means : scopeClass? word = some classOf)
    (named : (classOf s).Settles w (.ok name)) (plain : w.table.isCollectionLike name = false) :
    (resolveHint (some s) word).Settles w (.ok (.object (ClassName.stripRoot name))) := by
  have object : (plainName (some s) word).Settles w (.ok (.object (ClassName.stripRoot name))) := by
    rw [plainName_word means]
    exact named.bind (settles_pure _)
  have bare : w.isCollectionObject (.object (ClassName.stripRoot name)) = false :=
    (ClassTable.isCollectionLike_congr (ClassName.key_stripRoot name)).trans plain
  exact hint_settles means (object.bind (promote_settles bare))

/-- The failure is no unsupported one, so the text does not become its cause. -/
theorem word_fails {f : Failure} (means : scopeClass? word = some classOf)
    (fails : (classOf s).Settles w (.error f)) :
    (resolveHint (some s) word).Settles w (.error f) := by
  have named : (resolveName (some s) word).Settles w (.error f) := by
    refine Settles.bind_error ?_
    rw [plainName_word means]
    exact fails.bind_error
  have settles := hint_settles means named
  cases scopeClass?_fails means fails
  exact settles

/-! ### In a native type -/

theorem resolveNative_word (means : scopeClass? word = some classOf) :
    resolveNative (some s) (.ofClass word) =
      classOf s >>= fun name => Query.classify (ClassName.stripRoot name) >>= pure := by
  rcases scopeWord_cases means with rfl | rfl | rfl <;> cases means <;> rfl

theorem native_settles {name : String} (means : scopeClass? word = some classOf)
    (named : (classOf s).Settles w (.ok name)) :
    (resolveNative (some s) (.ofClass word)).Settles w
      ((w.classify name).mapError Failure.construction) := by
  rw [resolveNative_word means, ← World.classify_stripRoot]
  refine named.bind ?_
  have classified := settles_classified (w := w) (ClassName.stripRoot name)
  cases built : w.classify (ClassName.stripRoot name) with
  | error e =>
    rw [built] at classified
    exact classified.bind_error
  | ok t =>
    rw [built] at classified
    exact classified.bind (settles_pure t)

/-- Both sides agree exactly on a class that is no enum and that the scope names as it is
registered; the classes that become collections are left out. -/
theorem scopeWord_agrees_iff (means : scopeClass? word = some classOf) (s : Scope)
    (plain : ∀ name, (classOf s).Settles w (.ok name) → w.table.isCollectionLike name = false)
    {m m' : Memory} (faithful : m.IsFaithful w) (faithful' : m'.IsFaithful w) :
    (resolveHint (some s) word w m).1 = (resolveNative (some s) (.ofClass word) w m').1 ↔
      ∀ name, (classOf s).Settles w (.ok name) →
        w.table.isEnum name = false ∧ w.canonicalName name = ClassName.stripRoot name := by
  obtain ⟨outcome, named⟩ := scopeClass?_steady (w := w) means s
  cases outcome with
  | error f =>
    have native : (resolveNative (some s) (.ofClass word)).Settles w (.error f) := by
      rw [resolveNative_word means]
      exact named.bind_error
    rw [(word_fails means named m faithful).1, (native m' faithful').1]
    refine iff_of_true rfl ?_
    intro name other
    cases named.unique other
  | ok name =>
    rw [(word_settles means named (plain name named) m faithful).1,
      (native_settles means named m' faithful').1]
    have same : .ok (.object (ClassName.stripRoot name)) =
        (w.classify name).mapError Failure.construction ↔
          w.classify name = .ok (.object (ClassName.stripRoot name)) := by
      cases w.classify name <;> simp [Except.mapError, eq_comm]
    rw [same, World.classify_eq_object_iff]
    constructor
    · intro agrees other settles
      cases named.unique settles
      exact agrees
    · intro agrees
      exact agrees name named

theorem scopeWord_agrees_shelf :
    (resolveHint (some { called := "Book", declaring := "Shelf" }) "static" shelf {}).1 =
      (resolveNative (some { called := "Book", declaring := "Shelf" }) (.ofClass "static") shelf {}).1 := by
  obtain ⟨book, -, plain, -⟩ := shelf_names
  have means : scopeClass? "static" = some fun s => pure s.calledClass := rfl
  have only : ∀ name, (pure "Book" : Query String).Settles shelf (.ok name) → "Book" = name := by
    intro name settles
    cases (settles_pure "Book").unique settles
    rfl
  refine (scopeWord_agrees_iff means _ ?_ (Memory.empty_isFaithful _)
    (Memory.empty_isFaithful _)).mpr ?_
  · intro name settles
    obtain rfl := only name settles
    exact plain
  · intro name settles
    obtain rfl := only name settles
    exact World.classify_eq_object_iff.mp book.classified

def deck : World where
  table := ClassTable.empty.insertAll [{ name := "Suit", kind := .enum }]

def suitScope : Scope := { called := "Suit", declaring := "Suit" }

/-- A word for an enum is an object in a type expression and the enum in a native type. -/
theorem scopeWord_differs_enum :
    (deck.find? suitScope.declaringClass).isSome = true ∧
      deck.table.isCollectionLike suitScope.declaringClass = false ∧
      (resolveHint (some suitScope) "self" deck {}).1 ≠
        (resolveNative (some suitScope) (.ofClass "self") deck {}).1 := by
  have plain : deck.table.isCollectionLike suitScope.declaringClass = false :=
    ClassTable.isCollectionLike_of_alone (c := { name := "Suit", kind := .enum }) rfl rfl (by decide)
  have means : scopeClass? "self" = some fun s => pure s.declaringClass := rfl
  have object := word_settles means (settles_pure suitScope.declaringClass) plain
  refine ⟨rfl, plain, ?_⟩
  rw [(object {} (Memory.empty_isFaithful _)).1]
  intro same
  cases same

end TypeHints.Resolve
