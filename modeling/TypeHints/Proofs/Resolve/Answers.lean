import Mathlib.Data.List.Forall2
import TypeHints.Proofs.Ty.WellFormed
import TypeHints.Proofs.World.Query
import TypeHints.Resolve.Pipeline

/-!
What the answers for the parts of a type expression have is shown for the whole of it by one case
for each constructor, and what native types and the texts of a subject have is shown for every
resolver.
-/
namespace TypeHints

namespace Resolve
open Hint

theorem forall_mem_of_forall₂ {α β : Type} {R : α → β → Prop} {Q : β → Prop} {as : List α}
    {bs : List β} (all : List.Forall₂ R as bs) (each : ∀ a ∈ as, ∀ b, R a b → Q b) :
    ∀ b ∈ bs, Q b := by
  induction all with
  | nil => exact nofun
  | cons first _ ih =>
    rw [List.forall_mem_cons] at each
    exact List.forall_mem_cons.mpr ⟨each.1 _ first, ih each.2⟩

/-- What the words for types mean: a builtin type, a collection of builtin kind without arguments, a list
or a union of builtin types. -/
inductive KeywordType (name : String) : Ty → Prop
  | builtin (kind : Kind) : KeywordType name (.ofKind kind)
  | plain {kind : Kind} (takes : kind.isCollection = true) :
    KeywordType name (.collection (.ofKind kind) false)
  | list (word : name = "list" ∨ name = "non-empty-list") : KeywordType name .list
  | union (kinds : List Kind) (several : 2 ≤ kinds.length) (distinct : kinds.Nodup)
    (joinable : ∀ k ∈ kinds, k.isStandalone = false) : KeywordType name (.union (kinds.map .ofKind))

theorem keywordType?_cases {name : String} {t : Ty} (h : keywordType? name = some t) :
    KeywordType name t := by
  unfold keywordType? at h
  split at h
  all_goals cases h
  all_goals first
    | exact .builtin _
    | exact .plain rfl
    | exact .list (.inl rfl)
    | exact .list (.inr rfl)
    | skip
  · exact .union [.int, .string] (by decide) (by decide) (by decide)
  · exact .union [.int, .float, .string, .bool] (by decide) (by decide) (by decide)
  · exact .union [.int, .float] (by decide) (by decide) (by decide)
  · exact .union [.int, .float, .string] (by decide) (by decide) (by decide)

/-- What a name means before a class becomes a collection. -/
inductive NameMeaning (w : World) (scope : Option Scope) (name : String) : Ty → Prop
  | word {t : Ty} (keyword : KeywordType name t) : NameMeaning w scope name t
  | scopeClass (className : String) : NameMeaning w scope name (.object className)
  | refined {kind : Kind} {r : Refinement} {t : Ty} (built : Ty.refined kind r = .ok t) :
    NameMeaning w scope name t
  | classified {className : String} {t : Ty} (classified : w.classify className = .ok t) :
    NameMeaning w scope name t
  | template {s : Scope} {bound : Ty} (given : s ∈ scope) (found : s.templates.find? name = some bound) :
    NameMeaning w scope name (.template name bound)

theorem plainName_means (w : World) (scope : Option Scope) (name : String) :
    (plainName scope name).Gives w (NameMeaning w scope name) := by
  unfold plainName
  split
  next t keyword => exact Query.gives_pure (.word (keywordType?_cases keyword))
  next =>
    split
    next =>
      refine (Query.gives_any _).bind fun s _ => ?_
      exact (Query.gives_any _).bind fun className _ => Query.gives_pure (.scopeClass _)
    next =>
      split
      next => exact Query.gives_ofBuilt fun t => .refined
      next =>
        refine (Query.gives_any _).bind fun registered _ => ?_
        split
        · exact Query.gives_classify fun t => .classified
        · split
          next bound found =>
            obtain ⟨s, given, found⟩ := Option.bind_eq_some_iff.mp found
            exact Query.gives_pure (.template given found)
          next => exact Query.gives_fail _

/-- What arguments make of a type that is no collection yet: a collection that carries some of them if
its class is one, and else a generic type or the type itself. -/
theorem applyPlain_gives_of {w : World} {t : Ty} {vars : List Ty} {P : Ty → Prop}
    (carrying : w.isCollectionObject t = true → ∀ given r, given.isList = false →
      (∀ a ∈ Factory.argsOf given, a ∈ vars) → t.collectionWith given = .ok r → P r)
    (alone : w.isCollectionObject t = false → P t)
    (generic : w.isCollectionObject t = false → ∀ r, t.genericOf vars = .ok r → P r) :
    (applyPlain t vars).Gives w P := by
  refine (Query.gives_ofWorld _).bind fun isCollection same => ?_
  subst same
  split
  next like =>
    refine Query.gives_ofBuilt fun r => carrying like _ r ?_ ?_
    · split <;> rfl
    · rcases vars with _ | ⟨value, _ | ⟨second, _ | ⟨third, others⟩⟩⟩ <;> simp [Factory.argsOf]
  next apart =>
    have apart := Bool.eq_false_iff.mpr apart
    have built : (Query.ofBuilt (t.genericOf vars)).Gives w P := Query.gives_ofBuilt (generic apart)
    split
    · split
      · exact built
      · exact Query.gives_pure (alone apart)
    · exact built

/-- The type is an answer for the expression, with something remembered. -/
def Answers (w : World) (scope : Option Scope) (n : Node) (t : Ty) : Prop :=
  ∃ m, (resolveNode scope n w m).1 = .ok t

/-- The relation of expressions and types holds of a whole if it holds of its parts. -/
structure IsInductive (w : World) (scope : Option Scope) (P : Node → Ty → Prop) : Prop where
  callable : ∀ callee params result, P (.callable callee params result) (.ofKind .callable)
  array : ∀ item t, P item t → P (.array item) (.listOf t)
  arrayShape : ∀ kind items isSealed tail, P (.arrayShape kind items isSealed tail) .array
  objectShape : ∀ items, P (.objectShape items) (.ofKind .object)
  this : ∀ s ∈ scope, P .this (.object (ClassName.stripRoot s.calledClass))
  const : ∀ value, (constantType value).Gives w (P (.const value))
  name : ∀ text, (resolveName scope text).Gives w (P (.name text))
  nullable : ∀ inner t r, P inner t → t.orNull = .ok r → P (.nullable inner) r
  range : ∀ base args r t, intRange? base args = some r → Ty.refined .int r = .ok t →
    P (.generic base args) t
  /-- Arguments of an `int` are passed over. -/
  bare : ∀ base args t, Answers w scope base t → P base t →
    t.isIdentifiedBy [.int] = true → P (.generic base args) t
  applied : ∀ base args t vars, Answers w scope base t → P base t →
    List.Forall₂ (fun n v => Answers w scope n v ∧ P n v) args vars →
    (applyArgs t vars).Gives w (P (.generic base args))
  union : ∀ members ts t, List.Forall₂ P members ts → Ty.unionOf ts = .ok t → P (.union members) t
  mixed : ∀ members, P (.union members) .mixed
  intersection : ∀ members ts t, List.Forall₂ P members ts → Ty.intersectionOf ts = .ok t →
    P (.intersection members) t

namespace IsInductive

variable {w : World} {scope : Option Scope} {P : Node → Ty → Prop}

mutual

theorem gives (known : IsInductive w scope P) (node : Node) :
    (resolveNode scope node).Gives w fun t => Answers w scope node t ∧ P node t := by
  -- Each part brings the answer next to its property: bases and arguments are told of both.
  have own : (resolveNode scope node).Gives w (P node) := by
    cases node with
    | callable callee params result => exact Query.gives_pure (known.callable callee params result)
    | array item =>
      exact (gives known item).bind fun t holds => Query.gives_pure (known.array item t holds.2)
    | arrayShape kind items isSealed tail =>
      exact Query.gives_pure (known.arrayShape kind items isSealed tail)
    | objectShape items => exact Query.gives_pure (known.objectShape items)
    | this =>
      cases scope with
      | none => exact Query.gives_fail _
      | some s => exact Query.gives_pure (known.this s rfl)
    | const value => exact known.const value
    | name text => exact known.name text
    | nullable inner =>
      exact (gives known inner).bind fun t holds =>
        Query.gives_ofBuilt fun r => known.nullable inner t r holds.2
    | generic base args =>
      simp only [resolveNode]
      split
      next r range => exact Query.gives_ofBuilt fun t => known.range base args r t range
      next =>
        refine (gives known base).bind fun t holds => ?_
        split
        next isInt => exact Query.gives_pure (known.bare base args t holds.1 holds.2 isInt)
        next =>
          exact (givesAll known args).bind fun vars all =>
            known.applied base args t vars holds.1 holds.2 all
    | union members =>
      refine (givesUntilMixed known members).bind fun found all => ?_
      cases found with
      | none => exact Query.gives_pure (known.mixed members)
      | some ts =>
        exact Query.gives_ofBuilt fun t => known.union members ts t (all ts rfl)
    | intersection members =>
      refine (givesAll known members).bind fun ts all => Query.gives_ofBuilt fun t => ?_
      exact known.intersection members ts t (all.imp fun _ _ holds => holds.2)
  exact fun m t answer => ⟨⟨m, answer⟩, own m t answer⟩

theorem givesAll (known : IsInductive w scope P) (nodes : List Node) :
    (resolveAll scope nodes).Gives w fun ts =>
      List.Forall₂ (fun n t => Answers w scope n t ∧ P n t) nodes ts := by
  cases nodes with
  | nil => exact Query.gives_pure .nil
  | cons node rest =>
    refine (gives known node).bind fun t holds => ?_
    exact (givesAll known rest).bind fun ts all => Query.gives_pure (.cons holds all)

theorem givesUntilMixed (known : IsInductive w scope P) (nodes : List Node) :
    (resolveUntilMixed scope nodes).Gives w fun found =>
      ∀ ts, found = some ts → List.Forall₂ P nodes ts := by
  cases nodes with
  | nil =>
    refine Query.gives_pure ?_
    rintro ts ⟨⟩
    exact .nil
  | cons node rest =>
    refine (gives known node).bind fun t holds => ?_
    split
    · exact Query.gives_pure nofun
    · refine (givesUntilMixed known rest).bind fun found all => Query.gives_pure ?_
      intro ts given
      obtain ⟨others, found, rfl⟩ := Option.map_eq_some_iff.mp given
      exact .cons holds.2 (all others found)

end

theorem gives_hint (known : IsInductive w scope P) (text : String) :
    (resolveHint scope text).Gives w fun t => ∃ n, read text = .ok n ∧ P n t := by
  unfold resolveHint
  split
  next => exact Query.gives_fail _
  next n ok => exact ((known.gives n).mono fun t holds => ⟨n, ok, holds.2⟩).explain _

end IsInductive

/-! ### Native types -/

/-- A property of all that native types mean, joined or not. -/
structure IsNative (w : World) (K : Ty → Prop) : Prop where
  builtin : ∀ kind, K (.ofKind kind)
  array : K .array
  iterable : K .iterable
  classes : ∀ name t, w.classify name = .ok t → K t
  union : ∀ ts t, (∀ s ∈ ts, K s) → Ty.unionOf ts = .ok t → K t
  intersection : ∀ ts t, (∀ s ∈ ts, K s) → Ty.intersectionOf ts = .ok t → K t
  orNull : ∀ t r, K t → t.orNull = .ok r → K r

namespace IsNative

variable {w : World} {K : Ty → Prop}

theorem gives_allowNull (known : IsNative w K) {type : NamedType} {t : Ty} (holds : K t) :
    (allowNull type t).Gives w K := by
  unfold allowNull
  split
  · exact Query.gives_ofBuilt fun r => known.orNull t r holds
  · exact Query.gives_pure holds

theorem gives_named (known : IsNative w K) (scope : Option Scope) (type : NamedType) :
    (resolveNamed scope type).Gives w K := by
  unfold resolveNamed
  split
  · exact known.gives_allowNull known.array
  split
  · exact known.gives_allowNull known.iterable
  split
  · exact Query.gives_pure (known.builtin .null)
  split
  · exact Query.gives_pure (known.builtin .mixed)
  split
  · split
    next kind found => exact known.gives_allowNull (known.builtin kind)
    next => exact Query.gives_fail _
  · refine (Query.gives_any _).bind fun className _ => ?_
    refine (Query.gives_classify fun t => known.classes _ t).bind fun t holds => ?_
    exact known.gives_allowNull holds

mutual

theorem gives (known : IsNative w K) (scope : Option Scope) (type : NativeType) :
    (resolveNative scope type).Gives w K := by
  cases type with
  | named type => exact known.gives_named scope type
  | union members =>
    exact (givesAll known scope members).bind fun ts all =>
      Query.gives_ofBuilt fun t => known.union ts t all
  | intersection members =>
    exact (givesAll known scope members).bind fun ts all =>
      Query.gives_ofBuilt fun t => known.intersection ts t all
  | other kind => exact Query.gives_fail _

theorem givesAll (known : IsNative w K) (scope : Option Scope) (types : List NativeType) :
    (resolveNatives scope types).Gives w fun ts => ∀ t ∈ ts, K t := by
  cases types with
  | nil => exact Query.gives_pure nofun
  | cons type rest =>
    refine (gives known scope type).bind fun t holds => ?_
    refine (givesAll known scope rest).bind fun ts all => Query.gives_pure ?_
    exact List.forall_mem_cons.mpr ⟨holds, all⟩

end

theorem gives_member (known : IsNative w K) (scope : Option Scope) (type : Option NativeType)
    (path : MemberPath) : (resolveMember scope type path).Gives w K := by
  refine Query.Gives.explain ?_ _
  cases type with
  | none => exact Query.gives_fail _
  | some type => exact known.gives scope type

end IsNative

end Resolve

/-! ### Subjects -/

/-- The type expressions that a resolver may find at a subject. -/
def Subject.hints (subject : Subject) : List String :=
  match subject, Resolver.docCommentOf? subject with
  | .text written, _ => [written]
  | _, some (some comment) =>
    (Resolver.documentedHint? (DocBlock.ofComment comment) subject).toList
  | _, _ => []

namespace Resolver
open Resolve

def hintAt (subject : Subject) (scope : Option Scope) (text : String) : Query Ty := do
  resolveHint (← scopeOr (memberScope subject) scope) text

variable {w : World} {K : Ty → Prop} {subject : Subject} {scope : Option Scope}

theorem hintAt_text (written text : String) :
    hintAt (.text written) scope text = resolveHint scope text := by
  cases scope <;> rfl

mutual

theorem gives_of_hints (known : IsNative w K)
    (hints : ∀ text ∈ subject.hints, (hintAt subject scope text).Gives w K) (resolver : Resolver) :
    (resolver.resolve subject scope).Gives w K := by
  cases resolver with
  | hint =>
    cases subject with
    | text written =>
      have own := hints written List.mem_cons_self
      rw [hintAt_text] at own
      exact own
    | _ => exact Query.gives_fail _
  | nativeType =>
    cases subject with
    | nativeType type => exact known.gives scope type
    | _ => exact Query.gives_fail _
  | parameter templated =>
    cases subject with
    | parameter f p =>
      exact (Query.gives_any _).bind fun scope _ => known.gives_member scope _ _
    | _ => exact Query.gives_fail _
  | property templated =>
    cases subject with
    | property p =>
      exact (Query.gives_any _).bind fun scope _ => known.gives_member scope _ _
    | _ => exact Query.gives_fail _
  | result templated =>
    cases subject with
    | function f =>
      exact (Query.gives_any _).bind fun scope _ => known.gives_member scope _ _
    | _ => exact Query.gives_fail _
  | documented inner =>
    simp only [resolve]
    split
    next => exact Query.gives_fail _
    next => exact gives_of_hints known hints inner
    next comment commented =>
      split
      next => exact gives_of_hints known hints inner
      next text said =>
        refine hints text ?_
        cases subject with
        | text | nativeType => cases commented
        | _ => simp [Subject.hints, commented, said]
  | dispatch entries => exact gives_of_hints_dispatch known hints entries

theorem gives_of_hints_dispatch (known : IsNative w K)
    (hints : ∀ text ∈ subject.hints, (hintAt subject scope text).Gives w K)
    (entries : List (SubjectKind × Resolver)) :
    (dispatchTo entries subject scope).Gives w K := by
  match entries with
  | [] => exact Query.gives_fail _
  | (kind, resolver) :: rest =>
    simp only [dispatchTo]
    split
    · exact gives_of_hints known hints resolver
    · exact gives_of_hints_dispatch known hints rest

end

end Resolver

end TypeHints
