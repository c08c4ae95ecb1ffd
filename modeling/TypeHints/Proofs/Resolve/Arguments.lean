import TypeHints.Proofs.Hint.Arguments
import TypeHints.Proofs.Resolve.Answers
import TypeHints.Proofs.Resolve.Canonical
import TypeHints.Proofs.Resolve.Steady

/-!
Where a name means a collection, arguments behind it become the types of its values, or of its keys
and values, in place of those that it had: what it is a collection of classes or arrays stays, and
so does whether it is a list.
-/
namespace TypeHints

namespace Ty

def isCollection : Ty → Bool
  | .collection _ _ => true
  | _ => false

variable {base : Ty}

/-! ### Types that take arguments -/

theorem bare_of_takesArgs (takes : base.takesArgs = true) : base.bare = base := by
  cases base with
  | generic => cases takes
  | _ => rfl

theorem isGeneric_of_takesArgs (takes : base.takesArgs = true) : base.isGeneric = false := by
  cases base with
  | generic => cases takes
  | _ => rfl

theorem not_int_of_takesArgs (takes : base.takesArgs = true) : base.isIdentifiedBy [.int] = false := by
  cases base with
  | builtin b =>
    obtain ⟨kind, refinement⟩ := b
    cases kind <;> first | rfl | cases takes
  | object | enum | backedEnum => rfl
  | _ => cases takes

theorem applied_built (takes : base.takesArgs = true) (key value : Ty) (isList : Bool) :
    (do
      let generic ← base.genericOf [key, value]
      generic.collectionOf isList) =
      if isList && !key.isKind .int then Except.error (.listKey key)
      else .ok (.collection (.generic base [key, value]) isList) := by
  have generic : base.genericOf [key, value] = .ok (.generic base [key, value]) := if_pos takes
  rw [generic]
  show (Ty.generic base [key, value]).collectionOf isList = _
  unfold collectionOf
  rw [if_neg (by simp [isGeneric])]
  rfl

theorem collectionWith_pair (takes : base.takesArgs = true) (key value : Ty) (isList : Bool) :
    base.collectionWith { value := some value, key := some key, isList } =
      if isList && !key.isKind .int then Except.error (.listKey key)
      else .ok (.collection (.generic base [key, value]) isList) := by
  rw [← applied_built takes]
  unfold collectionWith
  rw [isGeneric_of_takesArgs takes]
  rfl

end Ty

namespace Resolve
open Ty Hint Query

variable {w : World} {scope : Option Scope}

/-! ### What a name means -/

/-- Types that names have: a collection among them has no arguments yet, unless it is a list. -/
inductive NameType : Ty → Prop
  | other {t : Ty} (apart : t.isCollection = false) : NameType t
  | bare {wrapped : Ty} (takes : wrapped.takesArgs = true) : NameType (.collection wrapped false)
  | list : NameType Ty.list

theorem nameType_of_className? {t : Ty} {className : String} (h : t.className? = some className) :
    NameType t := by
  cases t with
  | collection => cases h
  | _ => exact .other rfl

theorem keywordType_nameType {name : String} {t : Ty} (keyword : KeywordType name t) :
    NameType t := by
  cases keyword with
  | builtin | union => exact .other rfl
  | plain takes => exact .bare (takesArgs_ofKind takes)
  | list => exact .list

theorem plainName_nameType (name : String) : (plainName scope name).Gives w NameType := by
  refine (plainName_means w scope name).mono fun t meaning => ?_
  cases meaning with
  | word keyword => exact keywordType_nameType keyword
  | scopeClass | template => exact .other rfl
  | refined built =>
    obtain ⟨rfl, -⟩ := refined_ok built
    exact .other rfl
  | classified classified => exact nameType_of_className? (classify_className? classified)

theorem nameType_of_settles {name : String} {t : Ty} (h : (resolveName scope name).Settles w (.ok t)) :
    NameType t := by
  obtain ⟨outcome, plain⟩ := plainName_steady (w := w) scope name
  cases outcome with
  | error f => cases h.unique plain.bind_error
  | ok u =>
    have known : NameType u := plainName_nameType name {} u (plain {} (Memory.empty_isFaithful w)).1
    cases found : u.className? with
    | none =>
      have apart : w.isCollectionObject u = false := by simp [World.isCollectionObject, found]
      cases h.unique (plain.bind (promote_settles apart))
      exact known
    | some className =>
      cases like : w.table.isCollectionLike className with
      | true =>
        cases h.unique (plain.bind (promote_class_settles found like))
        have takes : u.isClassLike = true := by simp [Ty.isClassLike, found]
        exact .bare (by simp [takesArgs, takes])
      | false =>
        have apart : w.isCollectionObject u = false := by
          rw [isCollectionObject_of_className? found, like]
        cases h.unique (plain.bind (promote_settles apart))
        exact known

/-! ### Arguments -/

section
variable {wrapped : Ty} {isList : Bool} (meant : NameType (.collection wrapped isList))
include meant

theorem NameType.takesArgs : wrapped.bare.takesArgs = true := by
  cases meant with
  | other apart => cases apart
  | bare takes =>
    rw [bare_of_takesArgs takes]
    exact takes
  | list => rfl

theorem NameType.not_int : (Ty.collection wrapped isList).isIdentifiedBy [.int] = false := by
  cases meant with
  | other apart => cases apart
  | bare takes =>
    show wrapped.isIdentifiedBy [.int] = false
    exact not_int_of_takesArgs takes
  | list => rfl

theorem NameType.listKey : (isList && !wrapped.keyType.isKind .int) = false := by
  cases meant with
  | other apart => cases apart
  | bare takes => rfl
  | list => rfl

theorem applyArgs_value (value : Ty) :
    (applyArgs (.collection wrapped isList) [value]).Settles w
      (.ok (.collection (.generic wrapped.bare [wrapped.keyType, value]) isList)) := by
  apply settles_ofBuilt
  rw [applied_built meant.takesArgs, meant.listKey]
  rfl

theorem applyArgs_entry (key value : Ty) :
    (applyArgs (.collection wrapped isList) [key, value]).Settles w
      (if isList && !key.isKind .int then .error (.construction (.listKey key))
        else .ok (.collection (.generic wrapped.bare [key, value]) isList)) := by
  have settles := settles_built (w := w)
    (wrapped.bare.collectionWith { value := some value, key := some key, isList })
  rw [collectionWith_pair meant.takesArgs] at settles
  show (ofBuilt _).Settles w _
  rw [collectionWith_pair meant.takesArgs]
  by_cases refused : (isList && !key.isKind .int) = true
  · rw [if_pos refused] at settles
    rw [if_pos refused, if_pos refused]
    exact settles
  · rw [if_neg refused] at settles
    rw [if_neg refused, if_neg refused]
    exact settles

end

/-! ### Texts -/

theorem exists_node {text : String} {t : Ty} (h : (resolveHint scope text).Settles w (.ok t)) :
    ∃ node, read text = .ok node ∧ (resolveNode scope node).Settles w (.ok t) := by
  cases given : read text with
  | error cause =>
    simp only [resolveHint, given] at h
    cases h.unique (settles_fail _)
  | ok node =>
    obtain ⟨outcome, settles⟩ := resolveNode_steady (w := w) scope node
    have same := h.unique (resolveHint_of_read given settles)
    cases outcome with
    | error f => cases same
    | ok u =>
      cases same
      exact ⟨node, rfl, settles⟩

theorem resolveHint_settles {text : String} {node : Node} {outcome : Except Failure Ty}
    (given : read text = .ok node) (settles : (resolveNode scope node).Settles w outcome)
    (supported : ∀ f, outcome = .error f → f.isUnsupported = false) :
    (resolveHint scope text).Settles w outcome := by
  have told := resolveHint_of_read given settles
  cases outcome with
  | ok t => exact told
  | error f =>
    have plain : ¬ f.isUnsupported = true := by simp [supported f rfl]
    rw [Except.mapError, if_neg plain] at told
    exact told

theorem read_of_limited {text : String} {n : Node} (limited : Limited (read text) (.ok n))
    (shallow : ∀ offset, read text ≠ .error ⟨.tooDeep, offset⟩) : read text = .ok n := by
  rcases limited with ok | ⟨offset, deep⟩
  · exact ok
  · exact absurd deep (shallow offset)

section
variable {x name key value : String} {wrapped k v : Ty} {isList : Bool}
  (named : lexemes (tokens x) = [.name name, .finish])
  (base : (resolveHint scope x).Settles w (.ok (.collection wrapped isList)))
include named base

theorem resolveName_of_hint : (resolveName scope name).Settles w (.ok (.collection wrapped isList)) := by
  obtain ⟨node, given, settles⟩ := exists_node base
  have spelled : IsType (atoms maxDepth) (.name name) [.name name] :=
    .single (.single (.operand (.closed (.base (.name name)))))
  cases given.symm.trans (read_of_spelled spelled named)
  exact settles

theorem node_applied {nodes : List Node} {ts : List Ty} {outcome : Except Failure Ty}
    (given : (resolveAll scope nodes).Settles w (.ok ts))
    (applied : (applyArgs (.collection wrapped isList) ts).Settles w outcome) :
    (resolveNode scope (.generic (.name name) nodes)).Settles w outcome := by
  have meant := resolveName_of_hint named base
  -- `int` takes bounds instead of arguments.
  have other : name ≠ "int" ∧ name ≠ "integer" := by
    constructor
    · rintro rfl
      cases meant.unique (resolveName_keyword (t := .int) rfl rfl)
    · rintro rfl
      cases meant.unique (resolveName_keyword (t := .int) rfl rfl)
  exact generic_settles other meant (nameType_of_settles meant).not_int given applied

theorem value_applied (given : (resolveHint scope value).Settles w (.ok v))
    (shallow : ∀ offset, read (x ++ "<" ++ value ++ ">") ≠ .error ⟨.tooDeep, offset⟩) :
    (resolveHint scope (x ++ "<" ++ value ++ ">")).Settles w
      (.ok (.collection (.generic wrapped.bare [wrapped.keyType, v]) isList)) := by
  obtain ⟨n, written, settles⟩ := exists_node given
  have meant := nameType_of_settles (resolveName_of_hint named base)
  have args : (resolveAll scope [n]).Settles w (.ok [v]) := resolveAll_settles (.cons settles .nil)
  have node := node_applied named base args (applyArgs_value meant v)
  exact resolveHint_settles (read_of_limited (read_argument named written) shallow) node nofun

theorem entry_applied (givenKey : (resolveHint scope key).Settles w (.ok k))
    (given : (resolveHint scope value).Settles w (.ok v))
    (shallow : ∀ offset, read (x ++ "<" ++ key ++ ", " ++ value ++ ">") ≠ .error ⟨.tooDeep, offset⟩) :
    (resolveHint scope (x ++ "<" ++ key ++ ", " ++ value ++ ">")).Settles w
      (if isList && !k.isKind .int then .error (.construction (.listKey k))
        else .ok (.collection (.generic wrapped.bare [k, v]) isList)) := by
  obtain ⟨l, writtenKey, settlesKey⟩ := exists_node givenKey
  obtain ⟨n, written, settles⟩ := exists_node given
  have meant := nameType_of_settles (resolveName_of_hint named base)
  have args : (resolveAll scope [l, n]).Settles w (.ok [k, v]) :=
    resolveAll_settles (.cons settlesKey (.cons settles .nil))
  have node := node_applied named base args (applyArgs_entry meant k v)
  apply resolveHint_settles (read_of_limited (read_arguments named writtenKey written) shallow) node
  intro f failed
  split at failed
  · cases failed
    rfl
  · cases failed

end

/-- A name that means a collection takes the type of its values as an argument, or the types of its keys
and its values, as long as the whole text does not nest too deep. What there is below the arguments and
whether it is a list stay, and so does the type of the keys if only a single argument is given. A list
refuses keys that are no integers. -/
theorem collection_takes_arguments {x name key value : String} {wrapped k v : Ty} {isList : Bool}
    (named : lexemes (tokens x) = [.name name, .finish])
    (base : (resolveHint scope x).Settles w (.ok (.collection wrapped isList)))
    (givenKey : (resolveHint scope key).Settles w (.ok k))
    (given : (resolveHint scope value).Settles w (.ok v)) :
    ((∀ offset, read (x ++ "<" ++ value ++ ">") ≠ .error ⟨.tooDeep, offset⟩) →
      ∃ r, (resolveHint scope (x ++ "<" ++ value ++ ">")).Settles w (.ok (.collection r isList)) ∧
        r.bare = wrapped.bare ∧ r.keyType = wrapped.keyType ∧ r.valueType = v) ∧
    ((∀ offset, read (x ++ "<" ++ key ++ ", " ++ value ++ ">") ≠ .error ⟨.tooDeep, offset⟩) →
      (¬ (isList = true ∧ k.isKind .int = false) →
        ∃ r, (resolveHint scope (x ++ "<" ++ key ++ ", " ++ value ++ ">")).Settles w
            (.ok (.collection r isList)) ∧
          r.bare = wrapped.bare ∧ r.keyType = k ∧ r.valueType = v) ∧
      (isList = true ∧ k.isKind .int = false →
        (resolveHint scope (x ++ "<" ++ key ++ ", " ++ value ++ ">")).Settles w
          (.error (.construction (.listKey k))))) := by
  constructor
  · intro shallow
    exact ⟨_, value_applied named base given shallow, rfl, rfl, rfl⟩
  · intro shallow
    have settles := entry_applied named base givenKey given shallow
    constructor
    · intro fits
      have fits : ¬ (isList && !k.isKind .int) = true := by simpa using fits
      rw [if_neg fits] at settles
      exact ⟨_, settles, rfl, rfl, rfl⟩
    · intro refused
      have refused : (isList && !k.isKind .int) = true := by simpa using refused
      rw [if_pos refused] at settles
      exact settles

theorem read_names (x key value : String) (named : (Lexeme.name x).isPlain = true)
    (plainKey : (Lexeme.name key).isPlain = true) (plain : (Lexeme.name value).isPlain = true) :
    read (x ++ "<" ++ value ++ ">") = .ok (.generic (.name x) [.name value]) ∧
      read (x ++ "<" ++ key ++ ", " ++ value ++ ">") = .ok (.generic (.name x) [.name key, .name value]) := by
  have spelled (word : String) : IsType (atoms 127) (.name word) [.name word] :=
    .single (.single (.operand (.closed (.base (.name word)))))
  have wrapped {nodes : List Node} {ls : List Lexeme}
      (listed : Listed .closeAngle (IsType (atoms 127)) nodes ls) (some : nodes ≠ []) :
      IsType (atoms maxDepth) (.generic (.name x) nodes) (.name x :: .mark .openAngle :: ls) := by
    cases nodes with
    | nil => exact absurd rfl some
    | cons node more => exact .single (.single (.operand (.closed (.base (.generic listed)))))
  have single := lexemes_value (spelled value) (lexed_of_isPlain plain)
  have pair := lexemes_entry (spelled key) (lexed_of_isPlain plainKey) single
  have lexed := lexed_of_isPlain named
  constructor
  · rw [String.append_assoc]
    exact read_of_spelled (wrapped (.last (spelled value)) (by simp)) (lexemes_applied lexed single)
  · have front : x ++ "<" ++ key ++ ", " ++ value ++ ">" =
        x ++ "<" ++ (key ++ ", " ++ (value ++ ">")) := by
      simp only [String.append_assoc]
    rw [front]
    refine read_of_spelled (wrapped (.cons (spelled key) (.last (spelled value))) (by simp)) ?_
    exact lexemes_applied lexed pair

theorem collection_takes_arguments_shelf :
    (∃ r, (resolveHint none "Shelf<Book>").Settles shelf (.ok (.collection r false)) ∧
      r.bare = .object "Shelf" ∧ r.keyType = arrayKey ∧ r.valueType = .object "Book") ∧
    (∃ r, (resolveHint none "Shelf<string, Book>").Settles shelf (.ok (.collection r false)) ∧
      r.bare = .object "Shelf" ∧ r.keyType = string ∧ r.valueType = .object "Book") ∧
    (resolveHint none "list<string, Book>").Settles shelf
      (.error (.construction (.listKey string))) := by
  obtain ⟨book, own, plain, like⟩ := shelf_names
  have key : (resolveHint none "string").Settles shelf (.ok string) :=
    resolveHint_settles (read_name (by decide)) (resolveName_keyword rfl rfl) nofun
  have value : (resolveHint none "Book").Settles shelf (.ok (.object "Book")) :=
    resolveHint_settles (read_name (by decide)) (resolveName_class book plain) nofun
  have base : (resolveHint none "Shelf").Settles shelf (.ok (.collection (.object "Shelf") false)) :=
    resolveHint_settles (read_name (by decide)) (resolveName_collection own like) nofun
  have list : (resolveHint none "list").Settles shelf (.ok Ty.list) :=
    resolveHint_settles (read_name (by decide)) (resolveName_keyword rfl rfl) nofun
  have shelfNames := read_names "Shelf" "string" "Book" (by decide) (by decide) (by decide)
  have listNames := read_names "list" "string" "Book" (by decide) (by decide) (by decide)
  obtain ⟨one, two⟩ := collection_takes_arguments own.lexed base key value
  obtain ⟨-, refused⟩ := collection_takes_arguments (lexed_of_isPlain (by decide)) list key value
  refine ⟨one ?_, (two ?_).1 nofun, (refused ?_).2 ⟨rfl, rfl⟩⟩
  · intro offset deep
    cases shelfNames.1.symm.trans deep
  · intro offset deep
    cases shelfNames.2.symm.trans deep
  · intro offset deep
    cases listNames.2.symm.trans deep

end Resolve

end TypeHints
