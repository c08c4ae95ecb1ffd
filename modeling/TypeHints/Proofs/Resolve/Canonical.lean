import Mathlib.Data.List.Forall2
import TypeHints.Proofs.Hint.Fitting
import TypeHints.Proofs.Ty.Spelling
import TypeHints.Proofs.Ty.WellFormed
import TypeHints.Proofs.World.Ancestry
import TypeHints.Proofs.World.Query
import TypeHints.Resolve.Hint

/-!
# Rendered types are resolved back

A canonical type is what its own text stands for, wherever the text does not nest deeper than the
reader goes.
-/
namespace TypeHints
open Hint Resolve

/-- A class that is registered by this spelling and that a type expression names by it. -/
structure World.Names (w : World) (className : String) (t : Ty) : Prop where
  registered : (w.find? className).map (·.name) = some className
  classified : w.classify className = .ok t
  lexed : lexemes (tokens className) = [.name className, .finish]
  noKeyword : keywordType? className = none
  noScopeWord : scopeClass? className = none
  noRefinement : Refinement.ofKeyword? className = none

inductive Canonical (w : World) : Ty → Prop where
  | builtin {kind : Kind} (plain : kind.isCollection = false) : Canonical w (.ofKind kind)
  | refined (r : Refinement) : Canonical w (.builtin ⟨r.base, some r⟩)
  | object {className : String} {t : Ty} (named : w.Names className t)
      (plain : w.table.isCollectionLike className = false) : Canonical w t
  | generic {className : String} {t : Ty} {args : List Ty} (named : w.Names className t)
      (plain : w.table.isCollectionLike className = false) (some : args ≠ [])
      (known : ∀ a ∈ args, Canonical w a) : Canonical w (.generic t args)
  | plain {kind : Kind} (takes : kind.isCollection = true) :
      Canonical w (.collection (.ofKind kind) false)
  | keyed {kind : Kind} {key value : Ty} (takes : kind.isCollection = true)
      (knownKey : Canonical w key) (knownValue : Canonical w value) :
      Canonical w (.keyed kind key value false)
  | list {value : Ty} (known : Canonical w value) : Canonical w (.listOf value)
  | collection {className : String} {t : Ty} (named : w.Names className t)
      (like : w.table.isCollectionLike className = true) : Canonical w (.collection t false)
  | keyedCollection {className : String} {t key value : Ty} (named : w.Names className t)
      (like : w.table.isCollectionLike className = true) (knownKey : Canonical w key)
      (knownValue : Canonical w value) : Canonical w (.collection (.generic t [key, value]) false)
  | nullable {inner : Ty} (known : Canonical w inner) (takes : inner.takesNull = true) :
      Canonical w (.nullable inner)
  | union {members : List Ty} (known : ∀ t ∈ members, Canonical w t) (several : 2 ≤ members.length)
      (distinct : members.Nodup) (flat : ∀ t ∈ members, t.isUnion = false)
      (joinable : ∀ t ∈ members, t.isStandalone = false) : Canonical w (.union members)
  | intersection {members : List Ty} (known : ∀ t ∈ members, Canonical w t)
      (several : 2 ≤ members.length) (distinct : members.Nodup)
      (flat : ∀ t ∈ members, t.isIntersection = false) : Canonical w (.intersection members)

variable {w : World}

/-! ### Names -/

theorem classify_className? {className : String} {t : Ty} (h : w.classify className = .ok t) :
    t.className? = some (w.canonicalName className) := by
  simp only [World.classify] at h
  split at h
  next =>
    unfold Ty.enumeration Ty.backedEnumOf at h
    split at h
    · cases h
      rfl
    · split at h
      · cases h
        rfl
      · cases h
    · cases h
  next =>
    cases h
    rfl

theorem World.Names.className? {className : String} {t : Ty} (named : w.Names className t) :
    t.className? = some className := by
  obtain ⟨c, found, same⟩ := Option.map_eq_some_iff.mp named.registered
  rw [classify_className? named.classified, World.canonicalName, found]
  exact congrArg some same

/-! ### Spelling -/

namespace Ty

def rank : Ty → Nat
  | .union _ => 0
  | .intersection _ => 1
  | .nullable _ => 2
  | _ => 4

theorem shown_of_className? {t : Ty} {className : String} (h : t.className? = some className) :
    t.spell = [.name className] ∧ t.node = .name className ∧ t.rank = 4 := by
  cases t with
  | object | enum | backedEnum =>
    cases h
    exact ⟨rfl, rfl, rfl⟩
  | _ => cases h

theorem one_le_rank {t : Ty} (flat : t.isUnion = false) : 1 ≤ t.rank := by
  cases t with
  | union members => cases flat
  | _ => simp [rank]

theorem isGeneric_of_className? {t : Ty} {className : String} (h : t.className? = some className) :
    t.isGeneric = false := by
  cases t with
  | generic => cases h
  | _ => rfl

end Ty

open Ty

theorem refinement_spells (r : Refinement) : Spells 4 r.node r.spell := by
  cases r with
  | range min max =>
    have bound {openWord : String} (plain : (Lexeme.name openWord).isPlain = true)
        (value : Option Int64) : Spells 0 (boundNode openWord value) [boundLexeme openWord value] := by
      cases value with
      | none => exact (spells_name plain).loosen (Nat.zero_le 4)
      | some value => exact (spells_int value).loosen (Nat.zero_le 4)
    have low : (Lexeme.name "min").isPlain = true := by decide
    have high : (Lexeme.name "max").isPlain = true := by decide
    have each : ∀ p ∈ [("min", min), ("max", max)], Spells 0 (boundNode p.1 p.2) [boundLexeme p.1 p.2] :=
      List.forall_mem_cons.mpr ⟨bound low min, List.forall_mem_singleton.mpr (bound high max)⟩
    exact spells_generic (by decide) (by simp) each
  | _ => exact spells_name (Refinement.keyword_isPlain _)

theorem Canonical.spells {t : Ty} (known : Canonical w t) : Spells t.rank t.node t.spell := by
  induction known with
  | @builtin kind plain => exact spells_name kind.name_isPlain
  | refined r => exact refinement_spells r
  | @object className t named plain =>
    obtain ⟨spell, node, rank⟩ := shown_of_className? named.className?
    rw [spell, node, rank]
    exact spells_name (isPlain_of_lexed named.lexed)
  | @generic className t args named plain some known ih =>
    obtain ⟨spell, node, -⟩ := shown_of_className? named.className?
    rw [Ty.spell, Ty.node, spell, node, spellAll_eq, nodes_eq]
    exact spells_generic (isPlain_of_lexed named.lexed) some fun a member =>
      (ih a member).loosen (Nat.zero_le _)
  | @plain kind takes => exact spells_name kind.name_isPlain
  | @keyed kind key value takes knownKey knownValue ihKey ihValue =>
    have each : ∀ a ∈ [key, value], Spells 0 a.node a.spell :=
      List.forall_mem_cons.mpr ⟨ihKey.loosen (Nat.zero_le _),
        List.forall_mem_singleton.mpr (ihValue.loosen (Nat.zero_le _))⟩
    exact spells_generic kind.name_isPlain (by simp) each
  | @list value known ih =>
    have each : ∀ a ∈ [value], Spells 0 a.node a.spell :=
      List.forall_mem_singleton.mpr (ih.loosen (Nat.zero_le _))
    exact spells_generic (by decide) (by simp) each
  | @collection className t named like =>
    obtain ⟨spell, node, -⟩ := shown_of_className? named.className?
    have shown := shown_plain (isGeneric_of_className? named.className?) false
    rw [shown.2.1, shown.2.2, Bool.false_and, if_neg Bool.false_ne_true, if_neg Bool.false_ne_true,
      spell, node]
    exact spells_name (isPlain_of_lexed named.lexed)
  | @keyedCollection className t key value named like knownKey knownValue ihKey ihValue =>
    obtain ⟨spell, node, -⟩ := shown_of_className? named.className?
    have each : ∀ a ∈ [key, value], Spells 0 a.node a.spell :=
      List.forall_mem_cons.mpr ⟨ihKey.loosen (Nat.zero_le _),
        List.forall_mem_singleton.mpr (ihValue.loosen (Nat.zero_le _))⟩
    have spells := spells_generic (isPlain_of_lexed named.lexed) (by simp) each
    rw [Ty.spell, Ty.node, spell, node, spellAll_eq, nodes_eq]
    exact spells
  | @nullable inner known takes ih =>
    have grouped := ih.grouped (inner.isUnion || inner.isIntersection)
    rw [Ty.spell, Ty.node]
    refine (grouped.loosen ?_).nullable
    cases inner with
    | nullable => cases takes
    | _ => simp [Ty.rank, isUnion, isIntersection]
  | @union members known several distinct flat joinable ih =>
    rw [Ty.spell, Ty.node, Ty.spellMembers_eq, nodes_eq]
    refine spells_union several fun t member => ?_
    refine ((ih t member).grouped t.isIntersection).loosen ?_
    have tight := one_le_rank (flat t member)
    split <;> omega
  | @intersection members known several distinct flat ih =>
    rw [Ty.spell, Ty.node, Ty.spellMembers_eq, nodes_eq]
    refine spells_intersection several fun t member => ?_
    refine ((ih t member).grouped t.isUnion).loosen ?_
    have tight := flat t member
    cases t with
    | intersection => cases tight
    | _ => simp [Ty.rank, isUnion]

theorem Canonical.lexemes_render {t : Ty} (known : Canonical w t) :
    lexemes (tokens t.render) = t.spell ++ [.finish] :=
  known.spells.lexemes_text (render_toList t)

theorem Canonical.read_render {t : Ty} (known : Canonical w t) (low : nesting t.render ≤ maxDepth) :
    Hint.read t.render = .ok t.node :=
  known.spells.read_text (render_toList t) low

/-! ### Names -/

theorem isCollectionObject_of_className? {t : Ty} {className : String}
    (h : t.className? = some className) :
    w.isCollectionObject t = w.table.isCollectionLike className := by
  simp [World.isCollectionObject, h]

theorem promote_settles {t : Ty} (plain : w.isCollectionObject t = false) :
    (promote t).Settles w (.ok t) := by
  refine (Query.settles_ofWorld _).bind ?_
  rw [plain]
  exact Query.settles_pure t

theorem promote_class_settles {t : Ty} {className : String} (h : t.className? = some className)
    (like : w.table.isCollectionLike className = true) :
    (promote t).Settles w (.ok (.collection t false)) := by
  refine (Query.settles_ofWorld _).bind ?_
  rw [isCollectionObject_of_className? h, like]
  refine Query.settles_ofBuilt ?_
  have class' : t.isClassLike = true := by simp [isClassLike, h]
  simp [collectionWith, collectionOf, class']

theorem resolveName_keyword {scope : Option Scope} {name : String} {t : Ty}
    (keyword : keywordType? name = some t) (plain : t.className? = none) :
    (resolveName scope name).Settles w (.ok t) := by
  have named : (plainName scope name).Settles w (.ok t) := by
    simp only [plainName, keyword]
    exact Query.settles_pure t
  refine named.bind (promote_settles ?_)
  simp [World.isCollectionObject, plain]

theorem keywordType?_keyword (r : Refinement) :
    keywordType? r.keyword = none ∧ scopeClass? r.keyword = none := by
  cases r <;> exact ⟨rfl, rfl⟩

theorem resolveName_refinement {r : Refinement} (named : r ∈ Refinement.named) :
    (resolveName none r.keyword).Settles w (.ok (.builtin ⟨r.base, some r⟩)) := by
  have plain : (plainName none r.keyword).Settles w (.ok (.builtin ⟨r.base, some r⟩)) := by
    simp only [plainName, keywordType?_keyword r, Refinement.ofKeyword?_keyword named]
    exact Query.settles_ofBuilt (if_pos rfl)
  exact plain.bind (promote_settles rfl)

theorem plainName_registered {name : String} {t : Ty} (registered : (w.find? name).isSome = true)
    (classified : w.classify name = .ok t) (noKeyword : keywordType? name = none)
    (noScopeWord : scopeClass? name = none) (noRefinement : Refinement.ofKeyword? name = none) :
    (plainName none name).Settles w (.ok t) := by
  simp only [plainName, noKeyword, noScopeWord, noRefinement, classOrTemplate]
  refine (Query.settles_classExists _).bind ?_
  rw [registered]
  exact Query.settles_classify classified

theorem plainName_class {className : String} {t : Ty} (named : w.Names className t) :
    (plainName none className).Settles w (.ok t) := by
  obtain ⟨c, found, -⟩ := Option.map_eq_some_iff.mp named.registered
  exact plainName_registered (by rw [found]; rfl) named.classified named.noKeyword named.noScopeWord
    named.noRefinement

theorem resolveName_class {className : String} {t : Ty} (named : w.Names className t)
    (plain : w.table.isCollectionLike className = false) :
    (resolveName none className).Settles w (.ok t) := by
  refine (plainName_class named).bind (promote_settles ?_)
  rw [isCollectionObject_of_className? named.className?, plain]

theorem resolveName_collection {className : String} {t : Ty} (named : w.Names className t)
    (like : w.table.isCollectionLike className = true) :
    (resolveName none className).Settles w (.ok (.collection t false)) :=
  (plainName_class named).bind (promote_class_settles named.className? like)

/-! ### Arguments -/

theorem intRange?_of_other {base : Node} (other : isRangeBase base = false) (args : List Node) :
    intRange? base args = none := by
  unfold intRange?
  split
  · simp [other]
  · rfl

theorem World.Names.noInt {className : String} {t : Ty} (named : w.Names className t) :
    className ≠ "int" ∧ className ≠ "integer" := by
  constructor <;> rintro rfl <;> cases named.noKeyword

theorem generic_settles {scope : Option Scope} {base : String} {args : List Node} {t : Ty}
    {vars : List Ty} {outcome : Except Failure Ty} (other : base ≠ "int" ∧ base ≠ "integer")
    (named : (resolveName scope base).Settles w (.ok t)) (noInt : t.isIdentifiedBy [.int] = false)
    (given : (resolveAll scope args).Settles w (.ok vars))
    (applied : (applyArgs t vars).Settles w outcome) :
    (resolveNode scope (.generic (.name base) args)).Settles w outcome := by
  have noRange : isRangeBase (.name base) = false := by simp [isRangeBase, other]
  simp only [resolveNode, intRange?_of_other noRange]
  refine named.bind ?_
  rw [noInt]
  exact given.bind applied

theorem applyArgs_class {t : Ty} {className : String} (h : t.className? = some className)
    (plain : w.table.isCollectionLike className = false) (vars : List Ty) :
    (applyArgs t vars).Settles w (.ok (.generic t vars)) := by
  have apart := isCollectionObject_of_className? (w := w) h
  have same : applyArgs t vars = applyPlain t vars := by
    cases t with
    | object | enum | backedEnum => rfl
    | _ => cases h
  rw [same]
  refine (Query.settles_ofWorld _).bind ?_
  rw [apart, plain]
  cases t with
  | object | enum | backedEnum => exact Query.settles_ofBuilt rfl
  | _ => cases h

theorem applyArgs_plain {kind : Kind} (takes : kind.isCollection = true) (key value : Ty) :
    (applyArgs (.collection (ofKind kind) false) [key, value]).Settles w
      (.ok (.keyed kind key value false)) := by
  refine Query.settles_ofBuilt ?_
  cases kind <;> first | rfl | cases takes

theorem applyArgs_list (value : Ty) :
    (applyArgs Ty.list [value]).Settles w (.ok (.listOf value)) :=
  Query.settles_ofBuilt rfl

theorem applyArgs_collection {t : Ty} {className : String} (h : t.className? = some className)
    (key value : Ty) :
    (applyArgs (.collection t false) [key, value]).Settles w
      (.ok (.collection (.generic t [key, value]) false)) := by
  refine Query.settles_ofBuilt ?_
  cases t with
  | object | enum | backedEnum => rfl
  | _ => cases h

theorem resolveAll_settles {scope : Option Scope} {nodes : List Node} {ts : List Ty}
    (h : List.Forall₂ (fun n t => (resolveNode scope n).Settles w (.ok t)) nodes ts) :
    (resolveAll scope nodes).Settles w (.ok ts) := by
  induction h with
  | nil => exact Query.settles_pure []
  | cons first _ ih => exact first.bind (ih.bind (Query.settles_pure _))

theorem resolveUntilMixed_settles {nodes : List Node} {ts : List Ty}
    (h : List.Forall₂ (fun n t => (resolveNode none n).Settles w (.ok t)) nodes ts) :
    (resolveUntilMixed none nodes).Settles w
      (.ok (if ts.any (isKind .mixed) then none else some ts)) := by
  induction h with
  | nil => exact Query.settles_pure _
  | @cons n t nodes ts first _ ih =>
    refine first.bind ?_
    rw [List.any_cons]
    cases t.isKind .mixed with
    | true => exact Query.settles_pure _
    | false =>
      rw [Bool.false_or]
      refine ih.bind ?_
      cases ts.any (isKind .mixed) <;> exact Query.settles_pure _

theorem nodes_settle {ts : List Ty} (h : ∀ t ∈ ts, (resolveNode none t.node).Settles w (.ok t)) :
    List.Forall₂ (fun n t => (resolveNode none n).Settles w (.ok t)) (ts.map node) ts := by
  rw [List.forall₂_map_left_iff, List.forall₂_same]
  exact h

/-! ### Types -/

theorem keywordType?_name {kind : Kind} (plain : kind.isCollection = false) :
    keywordType? kind.name = some (ofKind kind) := by
  cases kind <;> first | rfl | cases plain

theorem keywordType?_collection {kind : Kind} (takes : kind.isCollection = true) :
    keywordType? kind.name = some (.collection (ofKind kind) false) ∧
      (kind.name ≠ "int" ∧ kind.name ≠ "integer") ∧
      (Ty.collection (ofKind kind) false).isIdentifiedBy [.int] = false := by
  cases kind with
  | array | iterable => exact ⟨rfl, by decide, rfl⟩
  | _ => cases takes

theorem rangeBound?_boundNode (openWord : String) (value : Option Int64) :
    rangeBound? openWord (boundNode openWord value) = some value := by
  cases value with
  | none => exact if_pos rfl
  | some value => rfl

theorem refinement_settles (r : Refinement) :
    (resolveNode none r.node).Settles w (.ok (.builtin ⟨r.base, some r⟩)) := by
  cases r with
  | range min max =>
    have range : intRange? (.name "int") [boundNode "min" min, boundNode "max" max] = some (.range min max) := by
      simp [intRange?, isRangeBase, rangeBound?_boundNode]
    simp only [Refinement.node, resolveNode, range]
    exact Query.settles_ofBuilt rfl
  | _ => exact resolveName_refinement (by decide)

theorem Canonical.two_le_length {members : List Ty} (known : Canonical w (.union members)) :
    2 ≤ members.length := by
  cases known with
  | union _ several _ _ _ => exact several
  | object named _ => cases named.className?

/-- The node of a canonical type is resolved to the type. -/
theorem Canonical.node_settles {t : Ty} (known : Canonical w t) :
    (resolveNode none t.node).Settles w (.ok t) := by
  induction known with
  | builtin plain => exact resolveName_keyword (keywordType?_name plain) rfl
  | refined r => exact refinement_settles r
  | object named plain =>
    rw [(shown_of_className? named.className?).2.1]
    exact resolveName_class named plain
  | generic named plain some known ih =>
    rw [node, (shown_of_className? named.className?).2.1, nodes_eq]
    exact generic_settles named.noInt (resolveName_class named plain)
      (Ty.isIdentifiedBy_of_className? named.className?) (resolveAll_settles (nodes_settle ih))
      (applyArgs_class named.className? plain _)
  | plain takes => exact resolveName_keyword (keywordType?_collection takes).1 rfl
  | @keyed kind key value takes knownKey knownValue ihKey ihValue =>
    obtain ⟨keyword, other, noInt⟩ := keywordType?_collection takes
    have args : (resolveAll none ([key, value].map node)).Settles w (.ok [key, value]) :=
      resolveAll_settles (.cons ihKey (.cons ihValue .nil))
    exact generic_settles other (resolveName_keyword keyword rfl) noInt args
      (applyArgs_plain takes key value)
  | @list value known ih =>
    have args : (resolveAll none ([value].map node)).Settles w (.ok [value]) :=
      resolveAll_settles (.cons ih .nil)
    exact generic_settles (by decide) (resolveName_keyword (t := Ty.list) rfl rfl) rfl args
      (applyArgs_list value)
  | collection named like =>
    rw [(shown_plain (isGeneric_of_className? named.className?) false).2.2, Bool.false_and,
      if_neg Bool.false_ne_true, (shown_of_className? named.className?).2.1]
    exact resolveName_collection named like
  | @keyedCollection className t key value named like knownKey knownValue ihKey ihValue =>
    have args : (resolveAll none ([key, value].map node)).Settles w (.ok [key, value]) :=
      resolveAll_settles (.cons ihKey (.cons ihValue .nil))
    have noInt : (Ty.collection t false).isIdentifiedBy [.int] = false := by
      show t.isIdentifiedBy [.int] = false
      exact Ty.isIdentifiedBy_of_className? named.className?
    rw [node, (shown_of_className? named.className?).2.1, nodes_eq]
    exact generic_settles named.noInt (resolveName_collection named like) noInt args
      (applyArgs_collection named.className? key value)
  | nullable known takes ih =>
    refine ih.bind (Query.settles_ofBuilt (orNull_of_takesNull takes ?_))
    rintro members rfl
    exact known.two_le_length
  | union known several distinct flat joinable ih =>
    rw [node, nodes_eq]
    refine (resolveUntilMixed_settles (nodes_settle ih)).bind ?_
    rw [unmixed_of_joinable joinable]
    exact Query.settles_ofBuilt (unionOf_self several distinct flat joinable)
  | intersection known several distinct flat ih =>
    rw [node, nodes_eq]
    exact (resolveAll_settles (nodes_settle ih)).bind
      (Query.settles_ofBuilt (intersectionOf_self several distinct flat))

/-! ### Texts -/

theorem nesting_le_of_resolved {scope : Option Scope} {text : String} {t : Ty} {m : Memory}
    (resolved : (resolveHint scope text w m).1 = .ok t) : nesting text ≤ maxDepth := by
  cases given : Hint.read text with
  | ok n => exact nesting_le_of_read given
  | error e =>
    simp only [resolveHint, given] at resolved
    cases resolved

theorem resolveHint_of_read {scope : Option Scope} {text : String} {node : Node}
    {outcome : Except Failure Ty} (given : Hint.read text = .ok node)
    (settles : (resolveNode scope node).Settles w outcome) :
    (resolveHint scope text).Settles w
      (outcome.mapError fun f => if f.isUnsupported then .unresolvedHint text f else f) := by
  simp only [resolveHint, given]
  exact settles.explain _

/-- A canonical type is what its text is resolved to, if and only if the reader goes as deep as the
text nests. -/
theorem render_resolves {t : Ty} (known : Canonical w t) {m : Memory} (faithful : m.IsFaithful w) :
    (resolveHint none t.render w m).1 = .ok t ↔ nesting t.render ≤ maxDepth := by
  constructor
  · exact nesting_le_of_resolved
  · intro low
    have settles : (resolveHint none t.render).Settles w (.ok t) := by
      simp only [resolveHint, known.read_render low]
      exact known.node_settles.explain _
    exact (settles m faithful).1

def shelf : World where
  table := ClassTable.empty.insertAll
    [{ name := "Book" }, { name := "Shelf", interfaces := ["Traversable"] }]

theorem shelf_names : shelf.Names "Book" (.object "Book") ∧ shelf.Names "Shelf" (.object "Shelf") ∧
    shelf.table.isCollectionLike "Book" = false ∧ shelf.table.isCollectionLike "Shelf" = true := by
  have step {ancestor : String} (other : ClassName.key "Shelf" ≠ ClassName.key ancestor) :
      shelf.table.isA "Shelf" ancestor = ClassTable.leadsTo (ClassName.key ancestor)
        (Keyed.dropEntry (ClassName.key "Shelf") shelf.table.byKey.entries) ["Traversable"] :=
    ClassTable.leadsTo_step (c := { name := "Shelf", interfaces := ["Traversable"] }) other rfl
  have book : shelf.table.isEnum "Book" = false := by
    rw [ClassTable.isEnum, ClassTable.isA_of_alone (c := { name := "Book" }) rfl rfl (by decide)]
    rfl
  have other : shelf.table.isEnum "Shelf" = false := by
    rw [ClassTable.isEnum, step (by decide), ClassTable.leadsTo_skip (by decide) rfl,
      ClassTable.leadsTo_nil]
    rfl
  refine ⟨⟨rfl, ?_, lexed_of_isPlain (by decide), rfl, rfl, by decide⟩,
    ⟨rfl, ?_, lexed_of_isPlain (by decide), rfl, rfl, by decide⟩, ?_, ?_⟩
  · have own : shelf.canonicalName "Book" = "Book" := rfl
    simp only [World.classify, own, book, Bool.false_eq_true, if_false]
  · have own : shelf.canonicalName "Shelf" = "Shelf" := rfl
    simp only [World.classify, own, other, Bool.false_eq_true, if_false]
  · exact ClassTable.isCollectionLike_of_alone (c := { name := "Book" }) rfl rfl (by decide)
  · rw [ClassTable.isCollectionLike, ClassTable.collectionInterfaces, List.any_cons,
      step (by decide), ClassTable.leadsTo_here rfl, Bool.true_or]

theorem render_resolves_shelf :
    (resolveHint none "?(int<0,max>|Shelf<string,Book>)" shelf {}).1 =
      .ok (.nullable (.union [.builtin ⟨.int, some (.range (some 0) none)⟩,
        .collection (.generic (.object "Shelf") [.string, .object "Book"]) false])) := by
  obtain ⟨book, shelf, plain, like⟩ := shelf_names
  have members : Canonical TypeHints.shelf (.union [.builtin ⟨.int, some (.range (some 0) none)⟩,
      .collection (.generic (.object "Shelf") [.string, .object "Book"]) false]) := by
    refine .union ?_ (by decide) (by decide) (by decide) (by decide)
    exact List.forall_mem_cons.mpr ⟨.refined (.range (some 0) none),
      List.forall_mem_singleton.mpr (.keyedCollection shelf like (.builtin rfl) (.object book plain))⟩
  have known := Canonical.nullable members rfl
  refine (render_resolves known (Memory.empty_isFaithful _)).mpr ?_
  rw [nesting, known.lexemes_render]
  decide

def nest : Nat → Ty
  | 0 => .int
  | n + 1 => .listOf (nest n)

theorem nest_canonical (n : Nat) : Canonical w (nest n) := by
  induction n with
  | zero => exact .builtin rfl
  | succ n ih => exact .list ih

theorem nest_deep (n level : Nat) (more : List Lexeme) :
    level + n + 1 ≤ height level ((nest n).spell ++ more) := by
  induction n generalizing level more with
  | zero => exact Nat.le_max_left _ _
  | succ n ih =>
    have inner := ih (level + 1) ([.mark .closeAngle] ++ more)
    show _ ≤ height level (.name "list" :: .mark .openAngle :: ((nest n).spell ++ [.mark .closeAngle]) ++ more)
    rw [List.cons_append, height_name, List.cons_append, height_open rfl, List.append_assoc]
    exact Nat.le_trans (by omega) (Nat.le_max_right _ _)

/-- The text of a list that is nested too deep is no type expression. -/
theorem render_unresolved : Canonical default (nest maxDepth) ∧
    (resolveHint none (nest maxDepth).render default {}).1 ≠ .ok (nest maxDepth) := by
  have known : Canonical default (nest maxDepth) := nest_canonical maxDepth
  refine ⟨known, fun resolved => ?_⟩
  have low := nesting_le_of_resolved resolved
  have deep := nest_deep maxDepth 0 [.finish]
  rw [nesting, known.lexemes_render] at low
  omega

end TypeHints
