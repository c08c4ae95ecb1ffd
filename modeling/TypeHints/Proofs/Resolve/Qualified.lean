import TypeHints.Proofs.Resolve.Canonical
import TypeHints.Proofs.Resolve.Steady
import TypeHints.Proofs.World.Names

/-!
A scope without templates does nothing but qualify names: a node that asks for no class of the scope
is resolved in the scope as the node with qualified names is resolved without one.
-/
namespace TypeHints

namespace Resolve

/-- A name that is neither a keyword, nor a word for a class of the scope, nor a refinement. -/
def isClassLike (name : String) : Bool :=
  (keywordType? name).isNone && (scopeClass? name).isNone && (Refinement.ofKeyword? name).isNone

/-- A class-like name as a scope qualifies it, made absolute. -/
def qualifiedName (s : Scope) (name : String) : String :=
  if isClassLike name then "\\" ++ ClassName.stripRoot (s.qualify name) else name

end Resolve

namespace Hint
open Resolve

def Node.isName : Node → Bool
  | .name _ => true
  | _ => false

mutual

/-- The node with its class-like names qualified. A name that stands directly under an integer, where
the bound of a range may stand, is left as it is. -/
def Node.qualified (s : Scope) : Node → Node
  | .name text => .name (qualifiedName s text)
  | .this => .this
  | .const value => .const value
  | .nullable inner => .nullable (inner.qualified s)
  | .union members => .union (qualifiedAll s false members)
  | .intersection members => .intersection (qualifiedAll s false members)
  | .generic base args => .generic (base.qualified s) (qualifiedAll s (isRangeBase base) args)
  | .array item => .array (item.qualified s)
  | .arrayShape kind items isSealed tail =>
    .arrayShape kind (qualifiedItems s items) isSealed (qualifiedTail s tail)
  | .objectShape items => .objectShape (qualifiedItems s items)
  | .callable callee params result =>
    .callable callee (qualifiedParams s params) (result.qualified s)

/-- Names among the nodes are kept if they may be bounds. -/
def qualifiedAll (s : Scope) (bounds : Bool) : List Node → List Node
  | [] => []
  | n :: rest => (if bounds && n.isName then n else n.qualified s) :: qualifiedAll s bounds rest

def qualifiedItems (s : Scope) : List (Slot × Node) → List (Slot × Node)
  | [] => []
  | (slot, n) :: rest => (slot, n.qualified s) :: qualifiedItems s rest

def qualifiedTail (s : Scope) : Option (Option Node × Node) → Option (Option Node × Node)
  | none => none
  | some (none, value) => some (none, value.qualified s)
  | some (some key, value) => some (some (key.qualified s), value.qualified s)

def qualifiedParams (s : Scope) : List (Node × ParamMarks) → List (Node × ParamMarks)
  | [] => []
  | (n, marks) :: rest => (n.qualified s, marks) :: qualifiedParams s rest

end

mutual

/-- Whether `$this` or a word for a class of the scope stands anywhere in the node. -/
def Node.asksScope : Node → Bool
  | .name text => (scopeClass? text).isSome
  | .this => true
  | .const _ => false
  | .nullable inner => inner.asksScope
  | .union members | .intersection members => anyAsksScope members
  | .generic base args => base.asksScope || anyAsksScope args
  | .array item => item.asksScope
  | .arrayShape _ items _ tail => itemsAskScope items || tailAsksScope tail
  | .objectShape items => itemsAskScope items
  | .callable _ params result => paramsAskScope params || result.asksScope

def anyAsksScope : List Node → Bool
  | [] => false
  | n :: rest => n.asksScope || anyAsksScope rest

def itemsAskScope : List (Slot × Node) → Bool
  | [] => false
  | (_, n) :: rest => n.asksScope || itemsAskScope rest

def tailAsksScope : Option (Option Node × Node) → Bool
  | none => false
  | some (none, value) => value.asksScope
  | some (some key, value) => key.asksScope || value.asksScope

def paramsAskScope : List (Node × ParamMarks) → Bool
  | [] => false
  | (n, _) :: rest => n.asksScope || paramsAskScope rest

end

end Hint

namespace Resolve
open Query Hint

variable {w : World} {s : Scope} {name : String}

/-! ### Absolute names -/

theorem root_ne {word : String} (unrooted : word.toList.head? ≠ some '\\') (name : String) :
    "\\" ++ name ≠ word := by
  rintro rfl
  apply unrooted
  rw [String.toList_append]
  rfl

theorem keywordType?_root (name : String) : keywordType? ("\\" ++ name) = none := by
  unfold keywordType?
  split
  repeat next same => exact absurd same (root_ne (by decide) name)
  rfl

theorem scopeClass?_root (name : String) : scopeClass? ("\\" ++ name) = none := by
  unfold scopeClass?
  split
  repeat next same => exact absurd same (root_ne (by decide) name)
  rfl

theorem ofKeyword?_root (name : String) : Refinement.ofKeyword? ("\\" ++ name) = none := by
  have plain : ∀ r ∈ Refinement.named, r.keyword.toList.head? ≠ some '\\' := by decide
  refine List.find?_eq_none.mpr fun r member => ?_
  rw [decide_eq_true_eq]
  exact fun same => root_ne (plain r member) name same.symm

theorem isRangeBase_root (name : String) : isRangeBase (.name ("\\" ++ name)) = false := by
  have int : "\\" ++ name ≠ "int" := root_ne (by decide) name
  have integer : "\\" ++ name ≠ "integer" := root_ne (by decide) name
  simp [isRangeBase, int, integer]

theorem stripRoot_root (name : String) :
    ClassName.stripRoot ("\\" ++ name) = ClassName.stripRoot name := by
  simp [ClassName.stripRoot]

/-! ### Names -/

theorem plainName_scopeless (noScopeWord : scopeClass? name = none) (word : isClassLike name = false)
    (scope scope' : Option Scope) : plainName scope name = plainName scope' name := by
  unfold plainName
  cases keyword : keywordType? name with
  | some t => rfl
  | none =>
    cases refinement : Refinement.ofKeyword? name with
    | some r => simp only [noScopeWord]
    | none => simp [isClassLike, keyword, noScopeWord, refinement] at word

theorem plainName_classLike (classLike : isClassLike name = true) (scope : Option Scope) :
    plainName scope name = classOrTemplate scope name := by
  simp only [isClassLike, Bool.and_eq_true, Option.isNone_iff_eq_none] at classLike
  obtain ⟨⟨keyword, scopeWord⟩, refinement⟩ := classLike
  simp only [plainName, keyword, scopeWord, refinement]

theorem plainName_root (name : String) :
    plainName none ("\\" ++ name) = classOrTemplate none ("\\" ++ name) :=
  plainName_classLike (by simp [isClassLike, keywordType?_root, scopeClass?_root, ofKeyword?_root]) none

theorem classOrTemplate_qualified (plain : s.templates = Keyed.empty) (name : String) :
    (classOrTemplate (some s) name).Alike w
      (classOrTemplate none ("\\" ++ ClassName.stripRoot (s.qualify name))) := by
  have known := settles_classExists (w := w) (s.qualify name)
  have knownRoot := settles_classExists (w := w) ("\\" ++ ClassName.stripRoot (s.qualify name))
  have same : w.find? ("\\" ++ ClassName.stripRoot (s.qualify name)) = w.find? (s.qualify name) := by
    rw [← World.find?_stripRoot, stripRoot_root, World.find?_stripRoot, World.find?_stripRoot]
  rw [same] at knownRoot
  cases registered : (w.find? (s.qualify name)).isSome with
  | true =>
    have classified := settles_classified (w := w) (s.qualify name)
    have classifiedRoot :=
      settles_classified (w := w) ("\\" ++ ClassName.stripRoot (s.qualify name))
    rw [← World.classify_stripRoot, stripRoot_root, World.classify_stripRoot,
      World.classify_stripRoot] at classifiedRoot
    rw [registered] at known knownRoot
    exact ⟨_, _, known.bind classified, knownRoot.bind classifiedRoot, rfl⟩
  | false =>
    rw [registered] at known knownRoot
    refine ⟨.error (.unknownName name),
      .error (.unknownName ("\\" ++ ClassName.stripRoot (s.qualify name))),
      known.bind ?_, knownRoot.bind (settles_fail _), rfl⟩
    have absent : (some s).bind (·.templates.find? name) = none := by
      simp only [Option.bind_some, plain]
      rfl
    simp only [Bool.false_eq_true, if_false, absent]
    exact settles_fail _

theorem resolveName_qualified (plain : s.templates = Keyed.empty)
    (noScopeWord : scopeClass? name = none) :
    (resolveName (some s) name).Alike w (resolveName none (qualifiedName s name)) := by
  have named : (plainName (some s) name).Alike w (plainName none (qualifiedName s name)) := by
    unfold qualifiedName
    cases classLike : isClassLike name with
    | false =>
      rw [if_neg Bool.false_ne_true, plainName_scopeless noScopeWord classLike (some s) none]
      exact (plainName_steady none name).alike
    | true =>
      rw [if_pos rfl, plainName_classLike classLike, plainName_root]
      exact classOrTemplate_qualified plain name
  exact named.bind fun t _ => (promote_steady t).alike

/-! ### Ranges -/

theorem isRangeBase_cases {base : Node} (range : isRangeBase base = true) :
    base = .name "int" ∨ base = .name "integer" := by
  cases base with
  | name text => simpa [isRangeBase] using range
  | _ => cases range

theorem isRangeBase_qualified (s : Scope) (base : Node) :
    isRangeBase (base.qualified s) = isRangeBase base := by
  cases base with
  | name text =>
    rw [Node.qualified, qualifiedName]
    split
    next classLike =>
      rw [isRangeBase_root]
      cases range : isRangeBase (.name text) with
      | false => rfl
      | true =>
        rcases isRangeBase_cases range with same | same <;>
          · rw [Node.name.inj same] at classLike
            cases classLike
    next => rfl
  | _ => rfl

theorem rangeBound?_qualified (s : Scope) (openWord : String) (n : Node) :
    rangeBound? openWord (if true && n.isName then n else n.qualified s) = rangeBound? openWord n := by
  cases n <;> rfl

theorem intRange?_of_isRangeBase {base : Node} (range : isRangeBase base = true) (args : List Node) :
    intRange? base args = intRange? (.name "int") args := by
  have int : isRangeBase (.name "int") = true := rfl
  unfold intRange?
  rw [range, int]

theorem intRange?_qualified (s : Scope) (base : Node) (args : List Node) :
    intRange? (base.qualified s) (qualifiedAll s (isRangeBase base) args) = intRange? base args := by
  have same := isRangeBase_qualified s base
  cases range : isRangeBase base with
  | false => rw [intRange?_of_other (same.trans range), intRange?_of_other range]
  | true =>
    rw [intRange?_of_isRangeBase (same.trans range), intRange?_of_isRangeBase range]
    match args with
    | [] | [_] | _ :: _ :: _ :: _ => rfl
    | [low, high] => simp only [qualifiedAll, intRange?, rangeBound?_qualified]

/-- The arguments of an integer that is no range are not looked at. -/
theorem isIdentifiedBy_of_isRangeBase {scope : Option Scope} {base : Node} {t : Ty}
    (range : isRangeBase base = true) (meant : (resolveNode scope base).Settles w (.ok t)) :
    t.isIdentifiedBy [.int] = true := by
  have int : (resolveNode scope base).Settles w (.ok .int) := by
    rcases isRangeBase_cases range with rfl | rfl <;> exact resolveName_keyword rfl rfl
  cases meant.unique int
  rfl

/-! ### Nodes -/

mutual

theorem node_alike (plain : s.templates = Keyed.empty) {node : Node} (free : node.asksScope = false) :
    (resolveNode (some s) node).Alike w (resolveNode none (node.qualified s)) := by
  cases node with
  | callable _ _ _ | arrayShape _ _ _ _ | objectShape _ => exact (steady_pure _).alike
  | array item =>
    have inner : item.asksScope = false := free
    exact (node_alike plain inner).bind fun t _ => (steady_pure _).alike
  | this => cases free
  | const value => exact (constantType_steady value).alike
  | name text => exact resolveName_qualified plain (by simpa [Node.asksScope] using free)
  | nullable inner =>
    have inner : inner.asksScope = false := free
    exact (node_alike plain inner).bind fun t _ => (steady_ofBuilt _).alike
  | generic base args =>
    simp only [Node.asksScope, Bool.or_eq_false_iff] at free
    simp only [resolveNode, Node.qualified, intRange?_qualified]
    cases intRange? base args with
    | some r => exact (steady_ofBuilt _).alike
    | none =>
      refine (node_alike plain free.1).bind fun t meant => ?_
      split
      next => exact (steady_pure t).alike
      next other =>
        -- Names under an integer are left as they are, but an integer never comes here.
        have unbound : isRangeBase base = false := by
          cases range : isRangeBase base with
          | false => rfl
          | true => exact absurd (isIdentifiedBy_of_isRangeBase range meant) other
        rw [unbound]
        exact (all_alike plain free.2).bind fun vars _ => (applyArgs_steady t vars).alike
  | union members =>
    refine (untilMixed_alike plain free).bind fun found _ => ?_
    cases found with
    | none => exact (steady_pure _).alike
    | some ts => exact (steady_ofBuilt _).alike
  | intersection members =>
    exact (all_alike plain free).bind fun ts _ => (steady_ofBuilt _).alike

theorem all_alike (plain : s.templates = Keyed.empty) {nodes : List Node}
    (free : anyAsksScope nodes = false) :
    (resolveAll (some s) nodes).Alike w (resolveAll none (qualifiedAll s false nodes)) := by
  cases nodes with
  | nil => exact (steady_pure _).alike
  | cons node rest =>
    simp only [anyAsksScope, Bool.or_eq_false_iff] at free
    refine (node_alike plain free.1).bind fun t _ => ?_
    exact (all_alike plain free.2).bind fun ts _ => (steady_pure _).alike

theorem untilMixed_alike (plain : s.templates = Keyed.empty) {nodes : List Node}
    (free : anyAsksScope nodes = false) :
    (resolveUntilMixed (some s) nodes).Alike w
      (resolveUntilMixed none (qualifiedAll s false nodes)) := by
  cases nodes with
  | nil => exact (steady_pure _).alike
  | cons node rest =>
    simp only [anyAsksScope, Bool.or_eq_false_iff] at free
    refine (node_alike plain free.1).bind fun t _ => ?_
    split
    · exact (steady_pure _).alike
    · exact (untilMixed_alike plain free.2).bind fun found _ => (steady_pure _).alike

end

/-- A node that asks for no class of the scope has the type of the node with qualified names, or both
fail, in the same category. -/
theorem resolveNode_qualified (plain : s.templates = Keyed.empty) {node : Node}
    (free : node.asksScope = false) {m m' : Memory} (faithful : m.IsFaithful w)
    (faithful' : m'.IsFaithful w) :
    (∀ t, (resolveNode (some s) node w m).1 = .ok t ↔
      (resolveNode none (node.qualified s) w m').1 = .ok t) ∧
    ∀ f f', (resolveNode (some s) node w m).1 = .error f →
      (resolveNode none (node.qualified s) w m').1 = .error f' → f.category = f'.category := by
  obtain ⟨outcome, outcome', settles, settles', same⟩ := node_alike (w := w) plain free
  rw [(settles m faithful).1, (settles' m' faithful').1]
  cases outcome with
  | ok t =>
    cases outcome' with
    | ok t' =>
      cases same
      exact ⟨fun _ => Iff.rfl, nofun⟩
    | error f' => cases same
  | error f =>
    cases outcome' with
    | ok t' => cases same
    | error f' =>
      refine ⟨fun _ => iff_of_false nofun nofun, ?_⟩
      intro g g' failed failed'
      cases failed
      cases failed'
      exact Except.error.inj same

/-- The scope of a catalogue that calls a book a tome. -/
def catalogue : Scope where
  called := "Catalogue"
  declaring := "Catalogue"
  space := some "Library"
  uses := Keyed.empty.put "Tome" "\\Book"

/-- Under arguments stands a list here, which no text could put there. -/
theorem resolveNode_qualified_shelf :
    Node.qualified catalogue (.generic (.array (.name "Tome")) [.name "Tome"]) =
        .generic (.array (.name "\\Book")) [.name "\\Book"] ∧
      (resolveNode (some catalogue) (.generic (.array (.name "Tome")) [.name "Tome"]) shelf {}).1 =
        .ok (.listOf (.object "Book")) := by
  have fresh := Memory.empty_isFaithful shelf
  obtain ⟨book, -, single, -⟩ := shelf_names
  have object : shelf.classify "\\Book" = .ok (.object "Book") :=
    (World.classify_stripRoot "\\Book").symm.trans book.classified
  have named : (resolveName none "\\Book").Settles shelf (.ok (.object "Book")) :=
    (plainName_registered rfl object rfl rfl rfl).bind (promote_settles single)
  have list : (resolveNode none (.array (.name "\\Book"))).Settles shelf
      (.ok (.listOf (.object "Book"))) := named.bind (settles_pure _)
  have args : (resolveAll none [.name "\\Book"]).Settles shelf (.ok [.object "Book"]) :=
    named.bind ((settles_pure []).bind (settles_pure _))
  have absolute : (resolveNode none (.generic (.array (.name "\\Book")) [.name "\\Book"])).Settles shelf
      (.ok (.listOf (.object "Book"))) := list.bind (args.bind (settles_ofBuilt rfl))
  exact ⟨rfl, ((resolveNode_qualified rfl rfl fresh fresh).1 _).mpr (absolute {} fresh).1⟩

end Resolve

end TypeHints
