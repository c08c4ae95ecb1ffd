import TypeHints.Native.Decl
import TypeHints.Proofs.Hint.Fitting
import TypeHints.Proofs.Ty.Spelling
import TypeHints.Resolve.Hint

/-!
`NativeType.hintText` writes a native type as a type expression: `?` before a name that allows null,
`|` and `&` between members, parentheses around a composite member.
-/
namespace TypeHints
open Hint Resolve Ty

namespace NamedType

def isMarked (type : NamedType) : Bool :=
  type.allowsNull && type.name ≠ "null" && type.name ≠ "mixed"

def hintText (type : NamedType) : String :=
  if type.isMarked then "?" ++ type.name else type.name

def spell (type : NamedType) : List Lexeme :=
  if type.isMarked then [.mark .question, .name type.name] else [.name type.name]

def node (type : NamedType) : Node :=
  if type.isMarked then .nullable (.name type.name) else .name type.name

theorem hintText_toList (type : NamedType) : type.hintText.toList = textOf type.spell := by
  unfold hintText spell
  split
  · rw [String.toList_append, textOf_cons, textOf_name]
    rfl
  · exact (textOf_name _).symm

theorem spells_node {type : NamedType} (plain : (Lexeme.name type.name).isPlain = true) :
    Spells 2 type.node type.spell := by
  unfold node spell
  split
  · exact ((spells_name plain).loosen (by decide)).nullable
  · exact (spells_name plain).loosen (by decide)

end NamedType

namespace NativeType

def isComposite : NativeType → Bool
  | .union _ | .intersection _ => true
  | _ => false

mutual

def hintText : NativeType → String
  | .named type => type.hintText
  | .union members => "|".intercalate (memberTexts members)
  | .intersection members => "&".intercalate (memberTexts members)
  | .other kind => kind

def memberTexts : List NativeType → List String
  | [] => []
  | type :: rest => parenthesized type.isComposite type.hintText :: memberTexts rest

end

mutual

def spell : NativeType → List Lexeme
  | .named type => type.spell
  | .union members => joinedBy .pipe (spellMembers members)
  | .intersection members => joinedBy .amp (spellMembers members)
  | .other kind => [.name kind]

def spellMembers : List NativeType → List (List Lexeme)
  | [] => []
  | type :: rest => grouped type.isComposite type.spell :: spellMembers rest

end

def combined (wrap : List Node → Node) : List Node → Node
  | [n] => n
  | ns => wrap ns

mutual

def node : NativeType → Node
  | .named type => type.node
  | .union members => combined .union (nodes members)
  | .intersection members => combined .intersection (nodes members)
  | .other kind => .name kind

def nodes : List NativeType → List Node
  | [] => []
  | type :: rest => type.node :: nodes rest

end

theorem memberTexts_eq (types : List NativeType) : memberTexts types =
    types.map fun type => parenthesized type.isComposite type.hintText := by
  induction types with
  | nil => rfl
  | cons type rest ih => rw [memberTexts, ih]; rfl

theorem spellMembers_eq (types : List NativeType) : spellMembers types =
    types.map fun type => grouped type.isComposite type.spell := by
  induction types with
  | nil => rfl
  | cons type rest ih => rw [spellMembers, ih]; rfl

theorem nodes_eq (types : List NativeType) : nodes types = types.map node := by
  induction types with
  | nil => rfl
  | cons type rest ih => rw [nodes, ih]; rfl

mutual

theorem hintText_toList (type : NativeType) : type.hintText.toList = textOf type.spell := by
  cases type with
  | named type => exact type.hintText_toList
  | union members =>
    rw [hintText, spell, memberTexts_eq, spellMembers_eq]
    refine intercalate_toList (m := .pipe) ?_
    intro type member
    exact grouped_toList (hintTexts_toList members type member) _
  | intersection members =>
    rw [hintText, spell, memberTexts_eq, spellMembers_eq]
    refine intercalate_toList (m := .amp) ?_
    intro type member
    exact grouped_toList (hintTexts_toList members type member) _
  | other kind => exact (textOf_name kind).symm

theorem hintTexts_toList (types : List NativeType) :
    ∀ type ∈ types, type.hintText.toList = textOf type.spell := by
  cases types with
  | nil => exact nofun
  | cons type rest => exact List.forall_mem_cons.mpr ⟨hintText_toList type, hintTexts_toList rest⟩

end

end NativeType

/-! ### What can be written -/

/-- A registered class, no collection, that a type expression can mean by this name. -/
structure World.IsNameable (w : World) (name : String) : Prop where
  registered : (w.find? name).isSome = true
  plain : w.table.isCollectionLike name = false
  lexed : lexemes (tokens name) = [.name name, .finish]
  noKeyword : keywordType? name = none
  noScopeWord : scopeClass? name = none
  noRefinement : Refinement.ofKeyword? name = none

/-- Builtins, nameable classes, and unions and intersections of at least one such type. -/
inductive NativeType.Annotatable (w : World) : NativeType → Prop where
  | builtin (kind : Kind) (allowsNull : Bool) : Annotatable w (.named ⟨kind.name, true, allowsNull⟩)
  | ofClass {name : String} (nameable : w.IsNameable name) (allowsNull : Bool) :
      Annotatable w (.named ⟨name, false, allowsNull⟩)
  | union {members : List NativeType} (some : members ≠ []) (known : ∀ m ∈ members, Annotatable w m) :
      Annotatable w (.union members)
  | intersection {members : List NativeType} (some : members ≠ [])
      (known : ∀ m ∈ members, Annotatable w m) : Annotatable w (.intersection members)

namespace NativeType

variable {w : World}

def rank (type : NativeType) : Nat := if type.isComposite then 0 else 2

theorem spells_member {type : NativeType} (h : Spells type.rank type.node type.spell) :
    Spells 2 type.node (grouped type.isComposite type.spell) := by
  refine (h.grouped type.isComposite).loosen ?_
  unfold rank
  split <;> omega

theorem Annotatable.spells {type : NativeType} (known : type.Annotatable w) :
    Spells type.rank type.node type.spell := by
  induction known with
  | builtin kind allowsNull => exact NamedType.spells_node kind.name_isPlain
  | ofClass nameable allowsNull => exact NamedType.spells_node (isPlain_of_lexed nameable.lexed)
  | @union members some known ih =>
    rw [node, spell, nodes_eq, NativeType.spellMembers_eq]
    match members, some with
    | [type], _ =>
      have only := spells_member (ih type (by simp))
      simpa [joinedBy, combined, rank, isComposite] using only.loosen (Nat.zero_le 2)
    | first :: second :: rest, _ =>
      exact spells_union (by simp) fun type member => (spells_member (ih type member)).loosen (by decide)
  | @intersection members some known ih =>
    rw [node, spell, nodes_eq, NativeType.spellMembers_eq]
    match members, some with
    | [type], _ =>
      have only := spells_member (ih type (by simp))
      simpa [joinedBy, combined, rank, isComposite] using only.loosen (Nat.zero_le 2)
    | first :: second :: rest, _ =>
      exact (spells_intersection (by simp) fun type member => spells_member (ih type member)).loosen
        (Nat.zero_le 1)

theorem Annotatable.read_hintText {type : NativeType} (known : type.Annotatable w)
    (low : nesting type.hintText ≤ maxDepth) : Hint.read type.hintText = .ok type.node :=
  known.spells.read_text type.hintText_toList low

end NativeType

end TypeHints
