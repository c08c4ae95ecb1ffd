import TypeHints.Proofs.Native.HintText
import TypeHints.Proofs.Resolve.Canonical
import TypeHints.Proofs.Resolve.WellFormed
import TypeHints.Proofs.World.Names

/-!
# Native types resolved from their text

A native type has the type that its text has as a type expression. The native side collects every
member before it builds a union, the other stops at `mixed`; a single member in parentheses is no
union for the reader, but builds the same type.
-/
namespace TypeHints.Resolve
open Hint Ty

variable {w : World} {m : Memory} {t : Ty}

/-! ### Names -/

theorem marked_settles {type : NamedType} {plain : Ty}
    (named : (resolveName none type.name).Settles w (.ok plain))
    (other : type.name ≠ "null" ∧ type.name ≠ "mixed")
    (answer : (allowNull type plain w m).1 = .ok t) :
    (resolveNode none type.node).Settles w (.ok t) := by
  unfold allowNull at answer
  cases allows : type.allowsNull with
  | false =>
    have node : type.node = .name type.name := by simp [NamedType.node, NamedType.isMarked, allows]
    rw [allows] at answer
    cases answer
    rw [node]
    exact named
  | true =>
    have node : type.node = .nullable (.name type.name) := by
      simp [NamedType.node, NamedType.isMarked, allows, other]
    rw [allows, if_pos rfl] at answer
    rw [node]
    exact named.bind (Query.settles_ofBuilt (Query.ofBuilt_ok answer))

theorem keywordType?_builtin (kind : Kind) :
    ∃ plain, keywordType? kind.name = some plain ∧ plain.className? = none := by
  cases kind <;> exact ⟨_, rfl, rfl⟩

theorem resolveNamed_builtin {kind : Kind} {plain : Ty} {allowsNull : Bool}
    (keyword : keywordType? kind.name = some plain) :
    resolveNamed none ⟨kind.name, true, allowsNull⟩ =
      if kind.acceptsNull then pure plain else allowNull ⟨kind.name, true, allowsNull⟩ plain := by
  cases kind <;> cases keyword <;> rfl

theorem builtin_settles {kind : Kind} {allowsNull : Bool}
    (answer : (resolveNamed none ⟨kind.name, true, allowsNull⟩ w m).1 = .ok t) :
    (resolveNode none (NamedType.node ⟨kind.name, true, allowsNull⟩)).Settles w (.ok t) := by
  obtain ⟨plain, keyword, noClass⟩ := keywordType?_builtin kind
  have named : (resolveName none kind.name).Settles w (.ok plain) := resolveName_keyword keyword noClass
  rw [resolveNamed_builtin keyword] at answer
  cases accepts : kind.acceptsNull with
  | true =>
    rw [accepts, if_pos rfl] at answer
    cases answer
    have bare : NamedType.node ⟨kind.name, true, allowsNull⟩ = .name kind.name := by
      cases kind with
      | null | mixed => cases allowsNull <;> rfl
      | _ => cases accepts
    rw [bare]
    exact named
  | false =>
    rw [accepts, if_neg Bool.false_ne_true] at answer
    have other : kind.name ≠ "null" ∧ kind.name ≠ "mixed" := by
      cases kind with
      | null | mixed => cases accepts
      | _ => decide
    exact marked_settles named other answer

theorem resolveName_nameable {name : String} {plain : Ty} (nameable : w.IsNameable name)
    (classified : w.classify name = .ok plain) : (resolveName none name).Settles w (.ok plain) := by
  have named := plainName_registered nameable.registered classified nameable.noKeyword
    nameable.noScopeWord nameable.noRefinement
  refine named.bind (promote_settles ?_)
  rw [isCollectionObject_of_className? (classify_className? classified),
    ClassTable.isCollectionLike_congr (World.key_canonicalName name), nameable.plain]

theorem class_settles {name : String} {allowsNull : Bool} (nameable : w.IsNameable name)
    (answer : (resolveNamed none ⟨name, false, allowsNull⟩ w m).1 = .ok t) :
    (resolveNode none (NamedType.node ⟨name, false, allowsNull⟩)).Settles w (.ok t) := by
  have other {word : String} (keyword : (keywordType? word).isSome = true) : name ≠ word := by
    rintro rfl
    rw [nameable.noKeyword] at keyword
    cases keyword
  have noArray : name ≠ "array" := other rfl
  have noIterable : name ≠ "iterable" := other rfl
  have noNull : name ≠ "null" := other rfl
  have noMixed : name ≠ "mixed" := other rfl
  simp only [resolveNamed, noArray, noIterable, noNull, noMixed, Bool.false_eq_true, if_false] at answer
  obtain ⟨className, m₁, named, answer⟩ := Query.bind_ok answer
  obtain ⟨plain, m₂, classified, answer⟩ := Query.bind_ok answer
  -- A word for a class of a scope means nothing without one.
  have same : className = name := by
    cases means : scopeClass? (ClassName.fold name) with
    | some classOf =>
      simp only [namedClass, means] at named
      obtain ⟨s, _, required, -⟩ := Query.bind_ok named
      cases required
    | none =>
      simp only [namedClass, means] at named
      cases named
      rfl
  have own : w.classify name = .ok plain := by
    rw [← same, ← World.classify_stripRoot]
    exact Query.ofBuilt_ok classified
  exact marked_settles (resolveName_nameable nameable own) ⟨noNull, noMixed⟩ answer

/-! ### Members -/

theorem members_settle {types : List NativeType} {ts : List Ty}
    (each : ∀ type ∈ types, ∀ m t, (resolveNative none type w m).1 = .ok t →
      (resolveNode none type.node).Settles w (.ok t))
    (answer : (resolveNatives none types w m).1 = .ok ts) :
    List.Forall₂ (fun n t => (resolveNode none n).Settles w (.ok t))
      (types.map NativeType.node) ts := by
  induction types generalizing ts m with
  | nil =>
    cases answer
    exact .nil
  | cons type rest ih =>
    rw [List.forall_mem_cons] at each
    obtain ⟨t, m₁, first, answer⟩ := Query.bind_ok answer
    obtain ⟨others, m₂, second, answer⟩ := Query.bind_ok answer
    cases answer
    exact .cons (each.1 m t first) (ih each.2 second)

theorem combined_settles {wrap : List Node → Node} {build : List Ty → Built} {nodes : List Node}
    {ts : List Ty} (h : List.Forall₂ (fun n t => (resolveNode none n).Settles w (.ok t)) nodes ts)
    (known : ∀ t ∈ ts, WellFormed t) (single : ∀ t, WellFormed t → build [t] = .ok t)
    (several : (resolveNode none (wrap nodes)).Settles w (.ok t)) (built : build ts = .ok t) :
    (resolveNode none (NativeType.combined wrap nodes)).Settles w (.ok t) := by
  cases h with
  | nil => exact several
  | cons first rest =>
    cases rest with
    | cons _ _ => exact several
    | nil =>
      rw [single _ (known _ (List.mem_singleton_self _))] at built
      cases built
      exact first

theorem union_settles {nodes : List Node} {ts : List Ty}
    (h : List.Forall₂ (fun n t => (resolveNode none n).Settles w (.ok t)) nodes ts)
    (built : unionOf ts = .ok t) : (resolveNode none (.union nodes)).Settles w (.ok t) := by
  refine (resolveUntilMixed_settles h).bind ?_
  -- The reader stops at a member that is `mixed`; the native side has built `mixed` of all of them.
  cases isMixed : ts.any (isKind .mixed) with
  | false => exact Query.settles_ofBuilt built
  | true =>
    rw [unionOf_mixed isMixed] at built
    cases built
    exact Query.settles_pure _

theorem built_of_bind {types : List NativeType} {build : List Ty → Built}
    (answer : ((resolveNatives none types >>= fun ts => Query.ofBuilt (build ts)) w m).1 = .ok t) :
    ∃ ts, (resolveNatives none types w m).1 = .ok ts ∧ (∀ t ∈ ts, WellFormed t) ∧ build ts = .ok t := by
  obtain ⟨ts, m₁, given, answer⟩ := Query.bind_ok answer
  exact ⟨ts, given, wellFormed_native.givesAll none types m ts given, Query.ofBuilt_ok answer⟩

/-! ### Types -/

theorem node_settles {type : NativeType} (known : type.Annotatable w) :
    ∀ m t, (resolveNative none type w m).1 = .ok t →
      (resolveNode none type.node).Settles w (.ok t) := by
  -- Induction on the type; `built_of_bind` brings in that the members' types are well-formed, which
  -- makes a single member its own union.
  induction known with
  | builtin kind allowsNull => exact fun m t => builtin_settles
  | ofClass nameable allowsNull => exact fun m t => class_settles nameable
  | union some known ih =>
    intro m t answer
    obtain ⟨ts, given, known, built⟩ := built_of_bind answer
    have settle := members_settle ih given
    rw [NativeType.node, NativeType.nodes_eq]
    exact combined_settles settle known (fun _ => unionOf_single) (union_settles settle built) built
  | intersection some known ih =>
    intro m t answer
    obtain ⟨ts, given, known, built⟩ := built_of_bind answer
    have settle := members_settle ih given
    rw [NativeType.node, NativeType.nodes_eq]
    refine combined_settles settle known (fun _ => intersectionOf_single) ?_ built
    exact (resolveAll_settles settle).bind (Query.settles_ofBuilt built)

theorem resolveNatives_settles {types : List NativeType} {ts : List Ty}
    (h : List.Forall₂ (fun type t => (resolveNative none type).Settles w (.ok t)) types ts) :
    (resolveNatives none types).Settles w (.ok ts) := by
  induction h with
  | nil => exact Query.settles_pure []
  | cons first _ ih => exact first.bind (ih.bind (Query.settles_pure _))

/-- The text of a native type has every type that the native type has. -/
theorem hintText_resolves {type : NativeType} (known : type.Annotatable w)
    (low : nesting type.hintText ≤ maxDepth) (answer : (resolveNative none type w m).1 = .ok t)
    {m' : Memory} (faithful : m'.IsFaithful w) :
    (resolveHint none type.hintText w m').1 = .ok t := by
  have settles : (resolveHint none type.hintText).Settles w (.ok t) := by
    simp only [resolveHint, known.read_hintText low]
    exact (node_settles known m t answer).explain _
  exact (settles m' faithful).1

/-- A union with a name in another case, and with an intersection that has a union for a member. -/
def nestedNative : NativeType :=
  .union [.named ⟨"book", false, true⟩,
    .intersection [.named ⟨"Book", false, false⟩,
      .union [.named ⟨"iterable", true, true⟩, .named ⟨"null", true, true⟩]]]

theorem shelf_nameable : shelf.IsNameable "Book" ∧ shelf.IsNameable "book" := by
  obtain ⟨book, -, plain, -⟩ := shelf_names
  refine ⟨⟨rfl, plain, book.lexed, book.noKeyword, book.noScopeWord, book.noRefinement⟩, ?_⟩
  have same : shelf.table.isCollectionLike "book" = false :=
    (ClassTable.isCollectionLike_congr (by decide)).trans plain
  exact ⟨rfl, same, lexed_of_isPlain (by decide), rfl, rfl, by decide⟩

theorem nestedNative_annotatable : nestedNative.Annotatable shelf := by
  have pair : NativeType.Annotatable shelf
      (.union [.named ⟨"iterable", true, true⟩, .named ⟨"null", true, true⟩]) :=
    .union (by simp) (List.forall_mem_cons.mpr
      ⟨.builtin .iterable true, List.forall_mem_singleton.mpr (.builtin .null true)⟩)
  refine .union (by simp) (List.forall_mem_cons.mpr ⟨.ofClass shelf_nameable.2 true, ?_⟩)
  refine List.forall_mem_singleton.mpr (.intersection (by simp) ?_)
  exact List.forall_mem_cons.mpr
    ⟨.ofClass shelf_nameable.1 false, List.forall_mem_singleton.mpr pair⟩

theorem nestedNative_settles : (resolveNative none nestedNative).Settles shelf
    (.ok (.union [.nullable (.object "Book"),
      .intersection [.object "Book", .union [.nullable .iterable, .null]]])) := by
  obtain ⟨noEnum, -⟩ := World.classify_eq_object_iff.mp shelf_names.1.classified
  have lower : shelf.classify "book" = .ok (.object "Book") :=
    World.classify_eq_object_iff.mpr ⟨(ClassTable.isEnum_congr (by decide)).trans noEnum, rfl⟩
  have marked : (resolveNative none (.named ⟨"book", false, true⟩)).Settles shelf
      (.ok (.nullable (.object "Book"))) :=
    (Query.settles_pure "book").bind ((Query.settles_classify lower).bind (Query.settles_ofBuilt rfl))
  have bare : (resolveNative none (.named ⟨"Book", false, false⟩)).Settles shelf
      (.ok (.object "Book")) :=
    (Query.settles_pure "Book").bind ((Query.settles_classify shelf_names.1.classified).bind
      (Query.settles_pure _))
  have pair : (resolveNative none (.union [.named ⟨"iterable", true, true⟩,
      .named ⟨"null", true, true⟩])).Settles shelf (.ok (.union [.nullable .iterable, .null])) :=
    fun m faithful => ⟨rfl, faithful⟩
  have both : (resolveNative none (.intersection [.named ⟨"Book", false, false⟩,
      .union [.named ⟨"iterable", true, true⟩, .named ⟨"null", true, true⟩]])).Settles shelf
        (.ok (.intersection [.object "Book", .union [.nullable .iterable, .null]])) :=
    (resolveNatives_settles (.cons bare (.cons pair .nil))).bind
      (Query.settles_ofBuilt (intersectionOf_self (by decide) (by decide) (by decide)))
  exact (resolveNatives_settles (.cons marked (.cons both .nil))).bind
    (Query.settles_ofBuilt (unionOf_self (by decide) (by decide) (by decide) (by decide)))

theorem hintText_resolves_shelf :
    (resolveHint none "?book|(Book&(?iterable|null))" shelf {}).1 =
      .ok (.union [.nullable (.object "Book"),
        .intersection [.object "Book", .union [.nullable .iterable, .null]]]) := by
  have known := nestedNative_annotatable
  have low : nesting nestedNative.hintText ≤ maxDepth := by
    rw [nesting, known.spells.lexemes_text (NativeType.hintText_toList _)]
    decide
  have answer := (nestedNative_settles {} (Memory.empty_isFaithful _)).1
  exact hintText_resolves known low answer (Memory.empty_isFaithful _)

end TypeHints.Resolve
