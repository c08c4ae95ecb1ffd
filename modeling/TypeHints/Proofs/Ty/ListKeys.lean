import TypeHints.Proofs.Ty.Parts

namespace TypeHints

namespace Ty

/-- The key of a list is an integer, perhaps a refined one. -/
def HasIntKey : Ty → Prop
  | .collection wrapped true => wrapped.keyType.isKind .int = true
  | _ => True

/-- The key of a list is exactly `int`. -/
def HasPlainKey : Ty → Prop
  | .collection wrapped true => wrapped.keyType = int
  | _ => True

/-- All lists at any depth have keys that are exactly `int`. -/
abbrev PlainKeys (t : Ty) : Prop := Throughout parts HasPlainKey t

theorem WellFormed.hasIntKey {t : Ty} (known : WellFormed t) : Throughout parts HasIntKey t := by
  induction known with
  | builtin | object | enum | backedEnum => exact .of_partless True.intro rfl
  | nullable _ _ ih | template _ ih =>
    exact throughout_iff.mpr ⟨True.intro, List.forall_mem_singleton.mpr ih⟩
  | union _ _ _ _ _ ih => exact throughout_iff.mpr ⟨True.intro, ih⟩
  | intersection _ _ _ _ ih => exact throughout_iff.mpr ⟨True.intro, ih⟩
  | @collection wrapped isList _ _ keys ih =>
    refine throughout_iff.mpr ⟨?_, List.forall_mem_singleton.mpr ih⟩
    cases isList with
    | true => exact keys rfl
    | false => exact True.intro
  | generic _ _ _ ih ihArgs =>
    exact throughout_iff.mpr ⟨True.intro, List.forall_mem_cons.mpr ⟨ih, ihArgs⟩⟩

/-! ### What carries lists -/

theorem generic_plainKeys {wrapped : Ty} {args : List Ty} (h : wrapped.PlainKeys)
    (hargs : ∀ a ∈ args, PlainKeys a) : (Ty.generic wrapped args).PlainKeys :=
  throughout_iff.mpr ⟨True.intro, List.forall_mem_cons.mpr ⟨h, hargs⟩⟩

theorem collection_plainKeys_iff {wrapped : Ty} {isList : Bool} (h : wrapped.PlainKeys) :
    (Ty.collection wrapped isList).PlainKeys ↔ (isList = true → wrapped.keyType = int) := by
  cases isList with
  | false =>
    refine ⟨fun _ => nofun, fun _ => throughout_iff.mpr ⟨True.intro, ?_⟩⟩
    exact List.forall_mem_singleton.mpr h
  | true =>
    refine ⟨fun all _ => all.own, fun key => throughout_iff.mpr ⟨key rfl, ?_⟩⟩
    exact List.forall_mem_singleton.mpr h

theorem className_plainKeys {t : Ty} (h : t.isClassLike = true) : t.PlainKeys := by
  cases t with
  | object | enum | backedEnum => exact .of_partless True.intro rfl
  | _ => cases h

theorem bare_plainKeys {t : Ty} (h : t.PlainKeys) : t.bare.PlainKeys := by
  cases t with
  | generic => exact h.part List.mem_cons_self
  | _ => exact h

theorem args_plainKeys {t : Ty} (h : t.PlainKeys) : ∀ a ∈ t.args, PlainKeys a := by
  cases t with
  | generic => exact fun a member => h.part (List.mem_cons_of_mem _ member)
  | _ => exact nofun

theorem builtin_plainKeys (b : Builtin) : (Ty.builtin b).PlainKeys := .of_partless True.intro rfl

theorem plainKeys_transparent : Transparent parts HasPlainKey where
  builtin _ := ⟨rfl, True.intro⟩
  nullable _ := ⟨rfl, True.intro⟩
  union _ := ⟨rfl, True.intro⟩
  intersection _ := ⟨rfl, True.intro⟩
  template _ _ := ⟨rfl, True.intro⟩
  plain kind := (collection_plainKeys_iff (builtin_plainKeys ⟨kind, none⟩)).mpr nofun
  keyed kind key value isList plain hkey hvalue := by
    refine (collection_plainKeys_iff (generic_plainKeys (builtin_plainKeys ⟨kind, none⟩) ?_)).mpr plain
    exact List.forall_mem_cons.mpr ⟨hkey, List.forall_mem_singleton.mpr hvalue⟩

theorem keyType_plainKeys {t : Ty} (h : t.PlainKeys) : t.keyType.PlainKeys := by
  have known := args_plainKeys h
  unfold keyType
  split
  next key value given => exact known key (by simp [given])
  next => exact builtin_plainKeys _
  next => exact plainKeys_transparent.arrayKey

def CollectionArgs.listKey? (given : CollectionArgs) (wrapped : Ty) : Option Ty :=
  if given.isList then some (given.over wrapped).keyType else none

theorem over_plainKeys {wrapped : Ty} {given : CollectionArgs} (h : wrapped.PlainKeys)
    (hargs : ∀ a ∈ Factory.argsOf given, PlainKeys a) : (given.over wrapped).PlainKeys := by
  unfold CollectionArgs.over
  split
  · exact h
  · refine generic_plainKeys h (List.forall_mem_cons.mpr ⟨?_, List.forall_mem_singleton.mpr ?_⟩)
    · cases chosen : given.key with
      | none => exact plainKeys_transparent.arrayKey
      | some k => exact hargs k (by simp [Factory.argsOf, chosen])
    · cases chosen : given.value with
      | none => exact builtin_plainKeys _
      | some v => exact hargs v (by simp [Factory.argsOf, chosen])

theorem collectionWith_plainKeys_iff {wrapped t : Ty} {given : CollectionArgs} (h : wrapped.PlainKeys)
    (hargs : ∀ a ∈ Factory.argsOf given, PlainKeys a) (built : wrapped.collectionWith given = .ok t) :
    t.PlainKeys ↔ ∀ key ∈ given.listKey? wrapped, key = int := by
  rw [(collectionWith_ok built).1, collection_plainKeys_iff (over_plainKeys h hargs)]
  unfold CollectionArgs.listKey?
  cases given.isList <;> simp

end Ty

/-! ### Factories -/

open Ty

/-- A type that is built by factories from types that are built so. -/
inductive Made : Ty → Prop
  | of_build {call : Factory} {t : Ty} (args : ∀ a ∈ call.args, Made a) (built : call.build = .ok t) :
      Made t

theorem Made.wellFormed {t : Ty} (h : Made t) : t.WellFormed := by
  induction h with
  | of_build _ built ih => exact Factory.build_wellFormed ih built

namespace Factory

def listKey? : Factory → Option Ty
  | .collection wrapped given => given.listKey? wrapped
  | .arrayWith given => given.listKey? (ofKind .array)
  | .iterableWith given => given.listKey? (ofKind .iterable)
  | _ => none

theorem enumeration_plainKeys {className : String} {backing : Option Ty} {t : Ty}
    (built : Ty.enumeration className backing = .ok t) : t.PlainKeys := by
  unfold Ty.enumeration at built
  split at built
  · cases built
    exact className_plainKeys rfl
  · unfold backedEnumOf at built
    split at built
    · cases built
      exact className_plainKeys rfl
    · cases built
  · cases built

/-- Of types whose lists have plain keys, a call builds another one if the key that it is handed for a
list is plain, and only then. -/
theorem plainKeys_iff {call : Factory} {t : Ty} (known : ∀ a ∈ call.args, PlainKeys a)
    (built : call.build = .ok t) : t.PlainKeys ↔ ∀ key ∈ call.listKey?, key = int := by
  have always (h : t.PlainKeys) (none : call.listKey? = none) :
      t.PlainKeys ↔ ∀ key ∈ call.listKey?, key = int := by
    rw [none]
    exact iff_of_true h (by simp)
  have T := plainKeys_transparent
  cases call with
  | collection wrapped given =>
    exact collectionWith_plainKeys_iff (known wrapped (by simp [args]))
      (fun a member => known a (by simp [args, member])) built
  | arrayWith given | iterableWith given =>
    exact collectionWith_plainKeys_iff (builtin_plainKeys _) known built
  | refined kind r => exact always (T.refined built) rfl
  | enumeration className backing => exact always (enumeration_plainKeys built) rfl
  | union members => exact always (T.unionOf known built) rfl
  | intersection members => exact always (T.intersectionOf known built) rfl
  | orNull t => exact always (T.orNull (known t (by simp [args])) built) rfl
  | generic wrapped vars =>
    obtain rfl := genericOf_ok built
    exact always (generic_plainKeys (known wrapped (by simp [args]))
      fun a member => known a (by simp [args, member])) rfl
  | builtin kind =>
    cases built
    exact always (builtin_plainKeys _) rfl
  | object | enum =>
    cases built
    exact always (className_plainKeys rfl) rfl
  | template name bound =>
    cases built
    exact always (T.of_template (known bound (by simp [args]))) rfl
  | array | iterable =>
    cases built
    exact always (T.plain _) rfl
  | arrayOf value | iterableOf value =>
    cases built
    exact always (T.keyed _ _ _ false (by simp) T.arrayKey (known value (by simp [args]))) rfl
  | dictOf value =>
    cases built
    exact always (T.keyed _ _ _ false (by simp) (builtin_plainKeys _) (known value (by simp [args]))) rfl
  | dict =>
    cases built
    exact always (T.keyed _ _ _ false (by simp) (builtin_plainKeys _) (builtin_plainKeys _)) rfl
  | listOf value =>
    cases built
    exact always (T.listOf (known value (by simp [args]))) rfl
  | list =>
    cases built
    exact always (T.listOf (builtin_plainKeys _)) rfl
  | arrayKey =>
    cases built
    exact always T.arrayKey rfl

end Factory

end TypeHints
