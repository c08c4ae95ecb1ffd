import TypeHints.Proofs.Hint.Spelling
import TypeHints.Ty.Build

/-!
`Ty.spell` tells the lexemes that the text of a type is made of, and `Ty.node` the type expression
that they spell.
-/
namespace TypeHints
open Hint

/-! ### Builtins -/

def boundLexeme (openWord : String) : Option Int64 → Lexeme
  | some value => .int value
  | none => .name openWord

def boundNode (openWord : String) : Option Int64 → Node
  | some value => .const (.int value)
  | none => .name openWord

def Refinement.spell : Refinement → List Lexeme
  | .range min max =>
    .name "int" :: .mark .openAngle :: listed .closeAngle [[boundLexeme "min" min], [boundLexeme "max" max]]
  | r => [.name r.keyword]

def Refinement.node : Refinement → Node
  | .range min max => .generic (.name "int") [boundNode "min" min, boundNode "max" max]
  | r => .name r.keyword

def Builtin.spell (b : Builtin) : List Lexeme :=
  match b.refinement with
  | some r => r.spell
  | none => [.name b.kind.name]

def Builtin.node (b : Builtin) : Node :=
  match b.refinement with
  | some r => r.node
  | none => .name b.kind.name

namespace Ty

/-! ### Types -/

def lastSpelled : List (List Lexeme) → List Lexeme
  | [_, value] => value
  | [value] => value
  | _ => [.name "mixed"]

def lastNode : List Node → Node
  | [_, value] => value
  | [value] => value
  | _ => .name "mixed"

mutual

def spell : Ty → List Lexeme
  | .builtin b => b.spell
  | .nullable inner => .mark .question :: grouped (inner.isUnion || inner.isIntersection) (spell inner)
  | .union members => joinedBy .pipe (spellMembers isIntersection members)
  | .intersection members => joinedBy .amp (spellMembers isUnion members)
  | .object className | .enum className | .backedEnum className _ => [.name className]
  | .generic wrapped args => spell wrapped ++ .mark .openAngle :: listed .closeAngle (spellAll args)
  | .collection (.generic wrapped args) isList =>
    if isList && wrapped.isKind .array then
      .name "list" :: .mark .openAngle :: listed .closeAngle [lastSpelled (spellAll args)]
    else spell wrapped ++ .mark .openAngle :: listed .closeAngle (spellAll args)
  | .collection wrapped isList =>
    if isList && wrapped.isKind .array then
      .name "list" :: .mark .openAngle :: listed .closeAngle [[.name "mixed"]]
    else spell wrapped
  | .template name _ => [.name name]

def spellAll : List Ty → List (List Lexeme)
  | [] => []
  | t :: rest => spell t :: spellAll rest

def spellMembers (wraps : Ty → Bool) : List Ty → List (List Lexeme)
  | [] => []
  | t :: rest => grouped (wraps t) (spell t) :: spellMembers wraps rest

end

theorem spellAll_eq (ts : List Ty) : spellAll ts = ts.map spell := by
  induction ts with
  | nil => rfl
  | cons t rest ih => rw [spellAll, ih]; rfl

theorem spellMembers_eq (wraps : Ty → Bool) (ts : List Ty) :
    spellMembers wraps ts = ts.map fun t => grouped (wraps t) t.spell := by
  induction ts with
  | nil => rfl
  | cons t rest ih => rw [spellMembers, ih]; rfl

mutual

def node : Ty → Node
  | .builtin b => b.node
  | .nullable inner => .nullable (node inner)
  | .union members => .union (nodes members)
  | .intersection members => .intersection (nodes members)
  | .object className | .enum className | .backedEnum className _ => .name className
  | .generic wrapped args => .generic (node wrapped) (nodes args)
  | .collection (.generic wrapped args) isList =>
    if isList && wrapped.isKind .array then .generic (.name "list") [lastNode (nodes args)]
    else .generic (node wrapped) (nodes args)
  | .collection wrapped isList =>
    if isList && wrapped.isKind .array then .generic (.name "list") [.name "mixed"] else node wrapped
  | .template name _ => .name name

def nodes : List Ty → List Node
  | [] => []
  | t :: rest => node t :: nodes rest

end

theorem nodes_eq (ts : List Ty) : nodes ts = ts.map node := by
  induction ts with
  | nil => rfl
  | cons t rest ih => rw [nodes, ih]; rfl

theorem shown_plain {t : Ty} (flat : t.isGeneric = false) (isList : Bool) :
    (collection t isList).render =
        (if isList && t.isKind .array then "list<mixed>" else t.render) ∧
      (collection t isList).spell =
        (if isList && t.isKind .array then
          .name "list" :: .mark .openAngle :: listed .closeAngle [[.name "mixed"]]
        else t.spell) ∧
      (collection t isList).node =
        if isList && t.isKind .array then .generic (.name "list") [.name "mixed"] else t.node := by
  cases t with
  | generic => cases flat
  | _ => exact ⟨rfl, rfl, rfl⟩

/-! ### The text -/

theorem intercalate_toList {α : Type} {m : Mark} {f : α → String} {g : α → List Lexeme} {xs : List α}
    (h : ∀ x ∈ xs, (f x).toList = textOf (g x)) :
    (m.text.intercalate (xs.map f)).toList = textOf (joinedBy m (xs.map g)) := by
  induction xs with
  | nil => rfl
  | cons x xs ih =>
    rw [List.forall_mem_cons] at h
    cases xs with
    | nil => simpa [joinedBy] using h.1
    | cons y ys =>
      have rest := ih h.2
      simp only [List.map_cons] at rest ⊢
      have split : joinedBy m (g x :: g y :: ys.map g) = g x ++ .mark m :: joinedBy m (g y :: ys.map g) := by
        simp [joinedBy]
      rw [String.intercalate_cons_cons, split, textOf_append, textOf_cons, String.toList_append,
        String.toList_append, h.1, rest, List.append_assoc]
      rfl

theorem commas_toList {α : Type} (close : Mark) {f : α → String} {g : α → List Lexeme} {xs : List α}
    (h : ∀ x ∈ xs, (f x).toList = textOf (g x)) :
    (",".intercalate (xs.map f)).toList ++ close.text.toList = textOf (listed close (xs.map g)) := by
  induction xs with
  | nil => simp [listed, textOf, Lexeme.text]
  | cons x xs ih =>
    rw [List.forall_mem_cons] at h
    cases xs with
    | nil => simp [listed, h.1, Lexeme.text, textOf]
    | cons y ys =>
      have rest := ih h.2
      simp only [List.map_cons] at rest ⊢
      have split : listed close (g x :: g y :: ys.map g) =
          g x ++ .mark .comma :: listed close (g y :: ys.map g) := rfl
      rw [String.intercalate_cons_cons, split, textOf_append, textOf_cons, String.toList_append,
        String.toList_append, h.1, ← rest, List.append_assoc, List.append_assoc]
      rfl

theorem bound_toList (openWord : String) (bound : Option Int64) :
    (Refinement.boundText openWord bound).toList = textOf [boundLexeme openWord bound] := by
  cases bound <;> simp [textOf, boundLexeme, Lexeme.text, Refinement.boundText]

theorem refinement_toList (r : Refinement) : r.render.toList = textOf r.spell := by
  cases r with
  | range min max =>
    simp only [Refinement.render, Refinement.spell, listed, String.toList_append, bound_toList]
    simp [textOf, Lexeme.text]
    rfl
  | _ => exact (textOf_name _).symm

theorem builtin_toList (b : Builtin) : b.render.toList = textOf b.spell := by
  obtain ⟨kind, refinement⟩ := b
  cases refinement with
  | none => exact (textOf_name _).symm
  | some r => exact refinement_toList r

theorem grouped_toList {text : String} {ls : List Lexeme} (h : text.toList = textOf ls)
    (needed : Bool) : (parenthesized needed text).toList = textOf (grouped needed ls) := by
  cases needed with
  | false => exact h
  | true =>
    simp only [parenthesized, grouped, if_true, String.toList_append, h, textOf_cons, textOf_append]
    rfl

theorem value_toList {args : List Ty} (h : ∀ t ∈ args, t.render.toList = textOf t.spell) :
    (valueText (renderAll args)).toList = textOf (lastSpelled (spellAll args)) := by
  match args with
  | [] => exact (textOf_name _).symm
  | [value] => exact h value (by simp)
  | [key, value] => exact h value (by simp)
  | _ :: _ :: _ :: _ => exact (textOf_name _).symm

theorem list_toList {text : String} {ls : List Lexeme} (h : text.toList = textOf ls) :
    ("list<" ++ text ++ ">").toList =
      textOf (.name "list" :: .mark .openAngle :: listed .closeAngle [ls]) := by
  simp only [String.toList_append, listed, textOf_cons, textOf_append, h]
  rfl

theorem args_toList {wrapped : Ty} {args : List Ty} (base : wrapped.render.toList = textOf wrapped.spell)
    (h : ∀ t ∈ args, t.render.toList = textOf t.spell) :
    (wrapped.render ++ "<" ++ ",".intercalate (renderAll args) ++ ">").toList =
      textOf (wrapped.spell ++ .mark .openAngle :: listed .closeAngle (spellAll args)) := by
  have commas := commas_toList .closeAngle h
  rw [renderAll_eq_map, spellAll_eq, textOf_append, textOf_cons, ← commas]
  simp only [String.toList_append, base, List.append_assoc]
  rfl

mutual

theorem render_toList (t : Ty) : t.render.toList = textOf t.spell := by
  cases t with
  | builtin b => exact builtin_toList b
  | nullable inner =>
    rw [render, spell, textOf_cons, String.toList_append, grouped_toList (render_toList inner)]
    rfl
  | union members =>
    rw [render, spell, renderMembers_eq_map, spellMembers_eq]
    refine intercalate_toList (m := .pipe) ?_
    intro t member
    exact grouped_toList (renderAll_toList members t member) _
  | intersection members =>
    rw [render, spell, renderMembers_eq_map, spellMembers_eq]
    refine intercalate_toList (m := .amp) ?_
    intro t member
    exact grouped_toList (renderAll_toList members t member) _
  | object _ | enum _ | backedEnum _ _ | template _ _ =>
    rw [render, spell]
    exact (textOf_name _).symm
  | generic wrapped args =>
    rw [render, spell]
    exact args_toList (render_toList wrapped) (renderAll_toList args)
  | collection wrapped isList =>
    cases flat : wrapped.isGeneric with
    | false =>
      rw [(shown_plain flat isList).1, (shown_plain flat isList).2.1]
      split
      · exact list_toList (textOf_name "mixed").symm
      · exact render_toList wrapped
    | true =>
      cases wrapped with
      | generic base args =>
        rw [render, spell]
        split
        · exact list_toList (value_toList (renderAll_toList args))
        · exact args_toList (render_toList base) (renderAll_toList args)
      | _ => cases flat

theorem renderAll_toList (ts : List Ty) : ∀ t ∈ ts, t.render.toList = textOf t.spell := by
  cases ts with
  | nil => exact nofun
  | cons t rest => exact List.forall_mem_cons.mpr ⟨render_toList t, renderAll_toList rest⟩

end

end Ty

/-! ### Plain names -/

theorem Kind.name_isPlain (k : Kind) : (Lexeme.name k.name).isPlain = true := by
  cases k <;> decide

theorem Refinement.keyword_isPlain (r : Refinement) : (Lexeme.name r.keyword).isPlain = true := by
  cases r with
  | range => exact (by decide : (Lexeme.name "range-int").isPlain = true)
  | _ => decide

end TypeHints
