import TypeHints.Proofs.Hint.Shape
import TypeHints.Proofs.Resolve.Arguments
import TypeHints.Proofs.Resolve.Depth
import TypeHints.Proofs.Resolve.WellFormed
import TypeHints.Proofs.Ty.ListKeys

/-!
The keys of a list are integers in whatever is built or resolved, but a refined integer passes for
one, and the text of a list does not show it. Keys are exactly `int` where no list is given a
refined one.
-/
namespace TypeHints

namespace Resolve
open Hint Ty

variable {w : World} {scope : Option Scope}

/-- A list with a key and a value is given no key that is a refined integer. -/
def KeyIsPlain (w : World) (scope : Option Scope) : Part → Prop
  | .node (.generic base [key, _]) => base = .name "list" ∨ base = .name "non-empty-list" →
    ∀ k, Answers w scope key k → k.isKind .int = true → k = int
  | _ => True

/-- No list in the text is given a key that is a refined integer. -/
def ListsPlainly (w : World) (scope : Option Scope) (text : String) : Prop :=
  ∀ n, read text = .ok n → Throughout Part.parts (KeyIsPlain w scope) (.node n)

def PlainScope (scope : Option Scope) : Prop := ∀ s ∈ scope, s.templates.Holds PlainKeys

/-! ### Names -/

theorem plainName_list (name : String) : (plainName scope name).Gives w fun t =>
    ∀ wrapped, t = .collection wrapped true → name = "list" ∨ name = "non-empty-list" := by
  refine (plainName_means w scope name).mono ?_
  rintro t meaning wrapped rfl
  cases meaning with
  | word keyword =>
    cases keyword with
    | list word => exact word
  | refined built => cases (refined_ok built).1
  | classified classified => cases classify_className? classified

theorem resolveName_list (name : String) : (resolveName scope name).Gives w fun t =>
    ∀ wrapped, t = .collection wrapped true → name = "list" ∨ name = "non-empty-list" := by
  refine (plainName_list name).bind fun t listed => ?_
  refine (Query.gives_any _).bind fun isCollection _ => ?_
  split
  · refine Query.gives_ofBuilt fun r built => ?_
    rw [(collectionWith_ok built).1]
    simp
  · exact Query.gives_pure listed

/-! ### Arguments -/

theorem collectionWith_plainKeys {t r : Ty} {given : CollectionArgs} (h : t.PlainKeys)
    (hargs : ∀ a ∈ Factory.argsOf given, PlainKeys a) (unlisted : given.isList = false)
    (built : t.collectionWith given = .ok r) : r.PlainKeys := by
  refine (collectionWith_plainKeys_iff h hargs built).mpr ?_
  simp [CollectionArgs.listKey?, unlisted]

theorem promote_plainKeys {t : Ty} (h : t.PlainKeys) : (promote t).Gives w PlainKeys := by
  refine (Query.gives_any _).bind fun isCollection _ => ?_
  split
  · exact Query.gives_ofBuilt fun r => collectionWith_plainKeys h nofun rfl
  · exact Query.gives_pure h

theorem applyPlain_plainKeys {t : Ty} {vars : List Ty} (h : t.PlainKeys)
    (hvars : ∀ v ∈ vars, PlainKeys v) : (applyPlain t vars).Gives w PlainKeys := by
  refine applyPlain_gives_of ?_ (fun _ => h) ?_
  · intro _ given r unlisted among
    exact collectionWith_plainKeys h (fun a member => hvars a (among a member)) unlisted
  · intro _ r built
    rw [genericOf_ok built]
    exact generic_plainKeys h hvars

/-- Arguments leave a list one, and it keeps its key or gets a new one. -/
theorem applyArgs_plainKeys {t : Ty} {vars : List Ty} (h : t.PlainKeys)
    (hvars : ∀ v ∈ vars, PlainKeys v)
    (plain : ∀ wrapped key value, t = .collection wrapped true → vars = [key, value] →
      key.isKind .int = true → key = int) :
    (applyArgs t vars).Gives w PlainKeys := by
  unfold applyArgs
  split
  next wrapped isList value =>
    have inner : wrapped.PlainKeys := h.part List.mem_cons_self
    refine Query.gives_ofBuilt fun r built => ?_
    rw [(applied_ok built).1, collection_plainKeys_iff]
    · exact (collection_plainKeys_iff inner).mp h
    · refine generic_plainKeys (bare_plainKeys inner) ?_
      exact List.forall_mem_cons.mpr ⟨keyType_plainKeys inner, hvars⟩
  next wrapped isList key value =>
    have inner : wrapped.PlainKeys := h.part List.mem_cons_self
    refine Query.gives_ofBuilt fun r built => ?_
    obtain ⟨rfl, isInt⟩ := collectionWith_ok built
    refine (collection_plainKeys_iff (generic_plainKeys (bare_plainKeys inner) hvars)).mpr ?_
    rintro rfl
    exact plain wrapped key value rfl rfl (isInt rfl)
  next =>
    have inner : Ty.PlainKeys _ := h.part List.mem_cons_self
    exact applyPlain_plainKeys (bare_plainKeys inner) hvars
  next => exact applyPlain_plainKeys h hvars

/-! ### Texts -/

/-- What is read has a name under arguments; of other nodes the key would say too little. -/
theorem plainKeys_inductive (bounded : PlainScope scope) : IsInductive w scope fun n t =>
    Throughout Part.parts (fun p => KeyIsPlain w scope p ∧ p.IsProper) (.node n) → t.PlainKeys := by
  refine plainKeys_transparent.isInductive ?_ ?_ ?_
  · exact fun _ _ _ => className_plainKeys rfl
  · refine plainKeys_transparent.gives_name (fun t named => ?_) bounded
    exact promote_plainKeys (className_plainKeys named)
  · intro base args t vars asked answered h all hvars
    refine applyArgs_plainKeys h hvars ?_
    rintro wrapped key value rfl rfl
    obtain ⟨plain, ⟨name, rfl, -⟩, -⟩ := asked
    obtain ⟨m, answer⟩ := answered
    have listed := resolveName_list name m _ answer wrapped rfl
    cases all with
    | cons first rest =>
      cases rest with
      | cons _ none =>
        cases none
        exact plain (listed.imp (congrArg Node.name) (congrArg Node.name)) key first

theorem resolveHint_plainKeys (bounded : PlainScope scope) {text : String}
    (plain : ListsPlainly w scope text) : (resolveHint scope text).Gives w PlainKeys :=
  ((plainKeys_inductive bounded).gives_hint text).mono fun _ ⟨n, ok, holds⟩ =>
    holds fun p within => ⟨plain n ok p within, proper_of_read ok p within⟩

theorem plainKeys_native : IsNative w PlainKeys where
  builtin _ := builtin_plainKeys _
  array := plainKeys_transparent.plain .array
  iterable := plainKeys_transparent.plain .iterable
  classes name t classified := className_plainKeys (by simp [Ty.isClassLike, classify_className? classified])
  union _ _ := plainKeys_transparent.unionOf
  intersection _ _ := plainKeys_transparent.intersectionOf
  orNull _ _ := plainKeys_transparent.orNull

end Resolve

open Ty Resolve

/-- The keys of lists are integers at every depth of what factories build and pipelines resolve. They
are exactly `int` unless a call or a text hands a list a refined integer. -/
theorem lists_keyed (call : Factory) (p : Pipeline) (subject : Subject) (scope : Option Scope)
    (w : World) (m : Memory) (t : Ty) :
    (Made t → Throughout parts HasIntKey t) ∧
    ((∀ s ∈ scope, s.IsBounded) → (p.resolve subject scope w m).1 = .ok t →
      Throughout parts HasIntKey t) ∧
    ((∀ a ∈ call.args, PlainKeys a) → call.build = .ok t →
      (t.PlainKeys ↔ ∀ key ∈ call.listKey?, key = int)) ∧
    ((∀ text ∈ subject.hints, (scopeOr (Resolver.memberScope subject) scope).Gives w fun made =>
        PlainScope made ∧ ListsPlainly w made text) →
      (p.resolve subject scope w m).1 = .ok t → t.PlainKeys) := by
  refine ⟨?_, ?_, ?_, ?_⟩
  · intro made
    exact made.wellFormed.hasIntKey
  · intro bounded answer
    exact (Resolver.resolve_gives bounded p.asResolver subject m t answer).hasIntKey
  · intro known built
    exact Factory.plainKeys_iff known built
  · intro plain answer
    refine Resolver.gives_of_hints plainKeys_native (fun text given => ?_) p.asResolver m t answer
    exact (plain text given).bind fun made known => resolveHint_plainKeys known.1 known.2

section
open Hint

def positivelyKeyed : Ty := keyed .array (.builtin ⟨.int, some .positiveInt⟩) (ofKind .bool) true

def positivelyKeyedCall : Factory := .arrayWith
  { value := some (ofKind .bool), key := some (.builtin ⟨.int, some .positiveInt⟩), isList := true }

theorem positivelyKeyed_made : Made positivelyKeyed := by
  have made (call : Factory) {t : Ty} (none : call.args = []) (built : call.build = .ok t) : Made t :=
    .of_build (by simp [none]) built
  have args : ∀ a ∈ positivelyKeyedCall.args, Made a :=
    List.forall_mem_cons.mpr ⟨made (.builtin .bool) rfl rfl,
      List.forall_mem_singleton.mpr (made (.refined .int .positiveInt) rfl rfl)⟩
  exact .of_build args rfl

/-- A factory and a text make lists by positive integers, with the text of one by any integers. -/
theorem list_key_refined :
    Made positivelyKeyed ∧
    (Pipeline.documented.resolve (.text "list<positive-int, bool>") none default {}).1 =
      .ok positivelyKeyed ∧
    ¬ positivelyKeyed.PlainKeys ∧ positivelyKeyed.render = (listOf (ofKind .bool)).render := by
  refine ⟨positivelyKeyed_made, ?_, ?_, rfl⟩
  · have ok := (read_names "list" "positive-int" "bool" (by decide) (by decide) (by decide)).2
    show (resolveHint none ("list" ++ "<" ++ "positive-int" ++ ", " ++ "bool" ++ ">") default {}).1 = _
    unfold resolveHint
    rw [ok]
    rfl
  · intro plain
    have key : Ty.builtin ⟨.int, some .positiveInt⟩ = int := plain.own
    exact absurd key (by decide)

/-- A list by positive integers, and one that a text gives plain keys. -/
theorem lists_keyed_pairs :
    Throughout parts HasIntKey positivelyKeyed ∧ ¬ positivelyKeyed.PlainKeys ∧
    ∃ t, (Pipeline.documented.resolve (.text "list<int, bool>") none default {}).1 = .ok t ∧
      Throughout parts HasIntKey t ∧ t.PlainKeys := by
  have ok : read "list<int, bool>" = .ok (.generic (.name "list") [.name "int", .name "bool"]) :=
    (read_names "list" "int" "bool" (by decide) (by decide) (by decide)).2
  have answer : (Pipeline.documented.resolve (.text "list<int, bool>") none default {}).1 =
      .ok (keyed .array int (ofKind .bool) true) := by
    show (resolveHint none "list<int, bool>" default {}).1 = _
    unfold resolveHint
    rw [ok]
    rfl
  have plain : ListsPlainly default none "list<int, bool>" := by
    intro n read
    cases ok.symm.trans read
    refine throughout_iff.mpr ⟨?_, ?_⟩
    · rintro - k ⟨m, answer⟩ -
      cases answer
      rfl
    · have partless (word : String) :
          Throughout Part.parts (KeyIsPlain default none) (.node (.name word)) :=
        .of_partless True.intro rfl
      exact List.forall_mem_cons.mpr ⟨partless _, List.forall_mem_cons.mpr
        ⟨partless _, List.forall_mem_singleton.mpr (partless _)⟩⟩
  have known : ∀ a ∈ positivelyKeyedCall.args, PlainKeys a :=
    List.forall_mem_cons.mpr ⟨builtin_plainKeys _, List.forall_mem_singleton.mpr (builtin_plainKeys _)⟩
  obtain ⟨made, -, built, -⟩ := lists_keyed positivelyKeyedCall .documented
    (.text "list<int, bool>") none default {} positivelyKeyed
  obtain ⟨-, resolved, -, exactly⟩ := lists_keyed positivelyKeyedCall .documented
    (.text "list<int, bool>") none default {} (keyed .array int (ofKind .bool) true)
  refine ⟨made positivelyKeyed_made, fun plain => ?_, _, answer, resolved nofun answer, exactly ?_ answer⟩
  · have key := (built known rfl).mp plain _ rfl
    exact absurd key (by decide)
  · rintro text (_ | ⟨_, ⟨⟩⟩)
    refine Query.gives_pure ⟨?_, plain⟩
    intro s absent
    cases absent

end

end TypeHints
