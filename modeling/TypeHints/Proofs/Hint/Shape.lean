import TypeHints.Proofs.Depth
import TypeHints.Proofs.Hint.Height
import TypeHints.Proofs.Hint.Respelling

/-!
Which trees a text can be read as: what the constructors of a tree would allow and the reader never
makes. It follows from the grammar, level by level, and from the names that texts can hold.
-/
namespace TypeHints.Hint

/-- Only an item with a key can be optional. -/
def Slot.IsProper (slot : Slot) : Prop := slot.optional = true → slot.key.isSome = true

/-- `&` stands before `...` or a name, and `$this` names no parameter. -/
structure ParamMarks.IsProper (marks : ParamMarks) : Prop where
  apart : marks.byRef = true → marks.variadic = true ∨ marks.name.isSome = true
  other : marks.name ≠ some "this"

/-- A wildcard stands last in the name of a class constant, and may be all of it. -/
def Const.IsProper : Const → Prop
  | .fetch _ text => text ≠ "" ∧ '*' ∉ text.toList.dropLast
  | .int _ | .float _ | .quoted _ | .array _ | .name _ => True

/-- No bare name stands as a type by being a constant. -/
def Node.IsProper : Node → Prop
  | .union members | .intersection members => 2 ≤ members.length
  | .generic base args =>
    (∃ name, base = .name name ∧ (Lexeme.name name).isPlain = true) ∧ args ≠ []
  | .arrayShape _ items isSealed tail =>
    (∀ item ∈ items, item.1.IsProper) ∧ (tail.isSome = true → isSealed = false)
  | .objectShape items => ∀ item ∈ items, item.1.key.isSome = true
  | .callable callee params _ =>
    callee ∈ ["callable", "Closure", "\\Closure", "pure-callable", "pure-Closure"] ∧
      ∀ param ∈ params, param.2.IsProper
  | .const value => ∀ text, value ≠ .name text
  | .name _ | .this | .nullable _ | .array _ => True

def Part.IsProper : Part → Prop
  | .node n => n.IsProper
  | .const v => v.IsProper

abbrev Part.Proper (p : Part) : Prop := Throughout Part.parts Part.IsProper p

theorem Part.proper_node {n : Node} (ns : List Node) (parts : n.parts = ns.map .node)
    (own : n.IsProper) (inside : ∀ m ∈ ns, (Part.node m).Proper) : (Part.node n).Proper := by
  refine throughout_iff.mpr ⟨own, ?_⟩
  have same : (Part.node n).parts = ns.map .node := parts
  rw [same]
  exact List.forall_mem_map.mpr inside

theorem Part.proper_const {v : Const} (shown : ∀ text, v ≠ .name text) (known : (Part.const v).Proper) :
    (Part.node (.const v)).Proper :=
  throughout_iff.mpr ⟨shown, List.forall_mem_singleton.mpr known⟩

/-! ### Kept lists -/

section
variable {α : Type} {P : Phrase α}

theorem Listed.kept {close : Mark} {xs : List α} {ls : List Lexeme}
    (h : Kept (Listed close P) xs ls) : Listed close (Kept P) xs ls := by
  obtain ⟨list, kept⟩ := h
  induction list with
  | nil => exact .nil
  | last item =>
    simp only [List.all_append, Bool.and_eq_true] at kept
    exact .last ⟨item, kept.1⟩
  | cons item _ ih =>
    simp only [List.all_append, List.all_cons, Bool.and_eq_true] at kept
    exact .cons ⟨item, kept.1⟩ (ih kept.2.2)

theorem Further.kept {m : Mark} {xs : List α} {ls : List Lexeme} (h : Kept (Further m P) xs ls) :
    Further m (Kept P) xs ls := by
  obtain ⟨list, kept⟩ := h
  induction list with
  | nil => exact .nil
  | cons item _ ih =>
    simp only [List.all_append, List.all_cons, Bool.and_eq_true] at kept
    exact .cons ⟨item, kept.2.1⟩ (ih kept.2.2)

end

/-! ### Types -/

def ProperAll (P : Phrase Node) : Prop := ∀ ⦃v ls⦄, Kept P v ls → (Part.node v).Proper

theorem Joined.proper {m : Mark} {wrap : List Node → Node} {P : Phrase Node}
    (parts : ∀ ns, (wrap ns).parts = ns.map .node)
    (own : ∀ v w ns, (wrap (v :: w :: ns)).IsProper) (known : ProperAll P) :
    ProperAll (Joined m wrap P) := by
  rintro v ls ⟨spelled, kept⟩
  cases spelled with
  | single item => exact known ⟨item, kept⟩
  | several item others =>
    simp only [List.all_append, Bool.and_eq_true] at kept
    have first := known ⟨item, kept.1⟩
    have rest := (Further.kept ⟨others, kept.2⟩).forall_mem known
    exact Part.proper_node _ (parts _) (own _ _ _) (List.forall_mem_cons.mpr ⟨first, rest⟩)

structure Atoms.Proper (A : Atoms) : Prop where
  closed : ProperAll A.closed
  signature : ProperAll A.signature

section
variable {A : Atoms} (known : A.Proper)
include known

theorem IsOperand.proper : ProperAll (IsOperand A) := by
  rintro v ls ⟨atom | atom, kept⟩
  · induction atom with
    | base plain => exact known.closed ⟨plain, kept⟩
    | array _ ih =>
      simp only [List.all_append, Bool.and_eq_true] at kept
      exact Part.proper_node [_] rfl trivial (List.forall_mem_singleton.mpr (ih kept.1))
  · exact known.signature ⟨atom, kept⟩

theorem IsMember.proper : ProperAll (IsMember A) := by
  rintro v ls ⟨plain | inner, kept⟩
  · exact IsOperand.proper known ⟨plain, kept⟩
  · simp only [List.all_cons, Bool.and_eq_true] at kept
    have inside := IsOperand.proper known ⟨inner, kept.2⟩
    exact Part.proper_node [_] rfl trivial (List.forall_mem_singleton.mpr inside)

theorem IsType.proper : ProperAll (IsType A) := by
  refine Joined.proper (fun _ => rfl) (fun _ _ _ => Nat.le_add_left 2 _) ?_
  exact Joined.proper (fun _ => rfl) (fun _ _ _ => Nat.le_add_left 2 _) (IsMember.proper known)

end

/-! ### Shapes and signatures -/

def ProperItem (x : Slot × Node) : Prop := x.1.IsProper ∧ (Part.node x.2).Proper

section
variable {type : Phrase Node} (known : ProperAll type)
include known

theorem IsItem.proper {x : Slot × Node} {ls : List Lexeme} (h : Kept (IsItem type) x ls) :
    ProperItem x := by
  obtain ⟨item, kept⟩ := h
  cases item with
  | bare value => exact ⟨nofun, known ⟨value, kept⟩⟩
  | keyed optional isKey value =>
    simp only [List.all_append, List.all_cons, Bool.and_eq_true] at kept
    exact ⟨fun _ => rfl, known ⟨value, kept.2.2.2⟩⟩

theorem IsTail.proper {tail : Option (Option Node × Node)} {ls : List Lexeme}
    (h : Kept (IsTail type) tail ls) : ∀ n ∈ tailTypes tail, (Part.node n).Proper := by
  obtain ⟨spelled, kept⟩ := h
  cases spelled with
  | none => exact nofun
  | value args | entry args =>
    simp only [List.all_cons, Bool.and_eq_true] at kept
    exact (Listed.kept ⟨args, kept.2⟩).forall_mem known

theorem IsShapeBody.proper {body : ShapeBody} {ls : List Lexeme}
    (h : Kept (IsShapeBody type) body ls) :
    (∀ x ∈ body.1, ProperItem x) ∧ (∀ n ∈ tailTypes body.2.2, (Part.node n).Proper) ∧
      (body.2.2.isSome = true → body.2.1 = false) := by
  obtain ⟨spelled, kept⟩ := h
  induction spelled with
  | close => exact ⟨nofun, nofun, nofun⟩
  | unsealed _ args =>
    simp only [List.all_append, List.all_cons, Bool.and_eq_true] at kept
    exact ⟨nofun, IsTail.proper known ⟨args, kept.2.1⟩, fun _ => rfl⟩
  | last item =>
    simp only [List.all_append, Bool.and_eq_true] at kept
    exact ⟨List.forall_mem_singleton.mpr (IsItem.proper known ⟨item, kept.1⟩), nofun, nofun⟩
  | cons item _ ih =>
    simp only [List.all_append, List.all_cons, Bool.and_eq_true] at kept
    obtain ⟨items, tail, isSealed⟩ := ih kept.2.2
    exact ⟨List.forall_mem_cons.mpr ⟨IsItem.proper known ⟨item, kept.1⟩, items⟩, tail, isSealed⟩

theorem IsObjectItem.proper {x : Slot × Node} {ls : List Lexeme}
    (h : Kept (IsObjectItem type) x ls) : x.1.key.isSome = true ∧ (Part.node x.2).Proper := by
  obtain ⟨⟨item, key⟩, kept⟩ := h
  exact ⟨key, (IsItem.proper known ⟨item, kept⟩).2⟩

/-- `$this` is a lexeme of its own, so no variable that is kept has its name. -/
theorem IsParam.proper {x : Node × ParamMarks} {ls : List Lexeme} (h : Kept (IsParam type) x ls) :
    x.2.IsProper ∧ (Part.node x.1).Proper := by
  obtain ⟨⟨plain, apart⟩, kept⟩ := h
  simp only [List.all_append, Bool.and_eq_true, ParamMarks.spell] at kept
  refine ⟨⟨apart, ?_⟩, known ⟨plain, kept.1⟩⟩
  intro same
  have named := kept.2.2.2.1
  rw [same] at named
  exact absurd named (by decide)

end

theorem IsSignature.proper {A : Atoms} (known : A.Proper) : ProperAll (IsSignature A) := by
  rintro v ls ⟨⟨callee, listed, returned⟩, kept⟩
  simp only [List.all_append, List.all_cons, Bool.and_eq_true] at kept
  have type := IsType.proper known
  have params := (Listed.kept ⟨listed, kept.2.2.1⟩).forall_mem
    (Q := fun x => x.2.IsProper ∧ (Part.node x.1).Proper) fun _ _ => IsParam.proper type
  have result := IsMember.proper known ⟨returned, kept.2.2.2.2⟩
  refine Part.proper_node (_ ++ [_]) rfl ⟨callee, fun x member => (params x member).1⟩ ?_
  · refine List.forall_mem_append.mpr ⟨?_, List.forall_mem_singleton.mpr result⟩
    exact List.forall_mem_map.mpr fun x member => (params x member).2

/-! ### Constants and atoms -/

theorem IsFetch.isProper {owner : String} {v : Const} {ls : List Lexeme}
    (h : Kept (IsFetch owner) v ls) : v.IsProper ∧ v.parts = [] ∧ ∀ text, v ≠ .name text := by
  obtain ⟨fetched, kept⟩ := h
  cases fetched with
  | star =>
    have text : "*" ≠ "" ∧ '*' ∉ "*".toList.dropLast := by decide
    exact ⟨text, rfl, nofun⟩
  | name word =>
    simp only [List.all_cons, Bool.and_eq_true] at kept
    obtain ⟨some, starless⟩ := star_not_mem (isPlain_name_of_isKept kept.1)
    exact ⟨⟨some, fun star => starless ((List.dropLast_sublist _).subset star)⟩, rfl, nofun⟩
  | wild word =>
    simp only [List.all_cons, Bool.and_eq_true] at kept
    obtain ⟨-, starless⟩ := star_not_mem (isPlain_name_of_isKept kept.1)
    have text : (word ++ "*").toList = word.toList ++ ['*'] := String.toList_append
    refine ⟨⟨?_, ?_⟩, rfl, nofun⟩
    · intro none
      exact List.append_ne_nil_of_right_ne_nil _ (List.cons_ne_nil _ _) (text.symm.trans (by rw [none]; rfl))
    · rw [text, List.dropLast_concat]
      exact starless

theorem IsFetch.proper {owner : String} {v : Const} {ls : List Lexeme} (h : Kept (IsFetch owner) v ls) :
    (Part.const v).Proper :=
  .of_partless (IsFetch.isProper h).1 (IsFetch.isProper h).2.1

theorem IsConst.proper {budget : Nat} {v : Const} {ls : List Lexeme}
    (h : Kept (IsConst budget) v ls) : (Part.const v).Proper := by
  induction budget generalizing v ls with
  | zero => exact h.1.elim
  | succ budget ih =>
    obtain ⟨value, kept⟩ := h
    cases value with
    | int | float | quoted | name =>
      refine .of_partless ?_ rfl
      exact True.intro
    | fetch fetched =>
      simp only [List.all_cons, Bool.and_eq_true] at kept
      exact IsFetch.proper ⟨fetched, kept.2.2⟩
    | array listed =>
      simp only [List.all_cons, Bool.and_eq_true] at kept
      have items := (Listed.kept ⟨listed, kept.2⟩).forall_mem
        (Q := fun item => ∀ v ∈ item.1.toList ++ [item.2], (Part.const v).Proper) <| by
          rintro _ _ ⟨value | ⟨key, value⟩, kept⟩
          · exact List.forall_mem_singleton.mpr (ih ⟨value, kept⟩)
          · simp only [List.all_append, List.all_cons, Bool.and_eq_true] at kept
            exact List.forall_mem_cons.mpr
              ⟨ih ⟨key, kept.1⟩, List.forall_mem_singleton.mpr (ih ⟨value, kept.2.2⟩)⟩
      refine throughout_iff.mpr ⟨True.intro, fun inner part => ?_⟩
      obtain ⟨item, member, part⟩ := List.mem_flatMap.mp part
      obtain ⟨v, among, rfl⟩ := List.mem_map.mp part
      exact items item member v among

theorem IsConst.ne_name {budget : Nat} {v : Const} {l : Lexeme} {ls : List Lexeme}
    (h : IsConst budget v (l :: ls)) (opens : l.opensConst = true) : ∀ text, v ≠ .name text := by
  rintro text rfl
  cases budget with
  | zero => exact h
  | succ budget =>
    cases h with
    | name => cases opens
    | fetch => cases opens

theorem atoms_proper (budget : Nat) : (atoms budget).Proper := by
  induction budget with
  | zero => exact ⟨fun _ _ none => none.1.elim, fun _ _ none => none.1.elim⟩
  | succ budget ih =>
    refine ⟨?_, IsSignature.proper ih⟩
    have type := IsType.proper ih
    rintro v ls ⟨spelled, kept⟩
    cases spelled with
    | group inner =>
      simp only [List.all_append, List.all_cons, Bool.and_eq_true] at kept
      exact type ⟨inner, kept.2.1⟩
    | this | name => exact .of_partless trivial rfl
    | const value opens => exact Part.proper_const (value.ne_name opens) (IsConst.proper ⟨value, kept⟩)
    | fetch fetched =>
      simp only [List.all_cons, Bool.and_eq_true] at kept
      have fetched := And.intro fetched kept.2.2
      exact Part.proper_const (IsFetch.isProper fetched).2.2 (IsFetch.proper fetched)
    | @generic name _ _ _ listed =>
      simp only [List.all_cons, Bool.and_eq_true] at kept
      refine Part.proper_node _ rfl ⟨⟨name, rfl, isPlain_name_of_isKept kept.1⟩, List.cons_ne_nil _ _⟩ ?_
      have base : (Part.node (.name name)).Proper := .of_partless trivial rfl
      exact List.forall_mem_cons.mpr ⟨base, (Listed.kept ⟨listed, kept.2.2⟩).forall_mem type⟩
    | arrayShape kind items =>
      simp only [List.all_cons, Bool.and_eq_true] at kept
      obtain ⟨items, tail, isSealed⟩ := IsShapeBody.proper type ⟨items, kept.2.2⟩
      refine Part.proper_node _ rfl ⟨fun x member => (items x member).1, isSealed⟩ ?_
      refine List.forall_mem_append.mpr ⟨?_, tail⟩
      exact List.forall_mem_map.mpr fun x member => (items x member).2
    | objectShape listed =>
      simp only [List.all_cons, Bool.and_eq_true] at kept
      have items := (Listed.kept ⟨listed, kept.2.2⟩).forall_mem
        (Q := fun x => x.1.key.isSome = true ∧ (Part.node x.2).Proper)
        fun _ _ => IsObjectItem.proper type
      refine Part.proper_node _ rfl (fun x member => (items x member).1) ?_
      exact List.forall_mem_map.mpr fun x member => (items x member).2

/-! ### Texts -/

theorem proper_of_readPrefix {text : String} {n : Node} {stop : Nat}
    (h : readPrefix text = .ok (n, stop)) : (Part.node n).Proper := by
  obtain ⟨ls, kept⟩ := exists_kept_of_readPrefix h
  exact IsType.proper (atoms_proper maxDepth) kept

theorem proper_of_read {text : String} {n : Node} (h : read text = .ok n) : (Part.node n).Proper := by
  obtain ⟨stop, front, -⟩ := read_iff_readPrefix.mp h
  exact proper_of_readPrefix front

/-- Whatever is read, from a whole text or from the front of one, is proper at every depth. -/
theorem read_proper {text : String} {n : Node}
    (h : read text = .ok n ∨ ∃ stop, readPrefix text = .ok (n, stop)) :
    Throughout Part.parts Part.IsProper (.node n) := by
  rcases h with whole | ⟨stop, front⟩
  · exact proper_of_read whole
  · exact proper_of_readPrefix front

/-- A parameter by reference, a union in a generic and a wildcard. -/
theorem read_proper_signature :
    ∃ n, read "list<A|B>|callable(int&$x):K::*" = .ok n ∧
      Throughout Part.parts Part.IsProper (.node n) := by
  let param : List Lexeme := [.name "int"] ++ ParamMarks.spell { byRef := true, name := some "x" }
  let signature : List Lexeme :=
    .name "callable" :: .mark .openParen ::
      ((param ++ [.mark .closeParen]) ++ .mark .colon :: [.name "K", .mark .doubleColon, .mark .star])
  let union : List Lexeme := [.name "A"] ++ .mark .pipe :: ([.name "B"] ++ [])
  let lists : List Lexeme := .name "list" :: .mark .openAngle :: (union ++ [.mark .closeAngle])
  let ls : List Lexeme := lists ++ .mark .pipe :: (signature ++ [])
  have word (budget : Nat) (text : String) : IsMeet (atoms (budget + 1)) (.name text) [.name text] :=
    .single (.operand (.closed (.base (.name text))))
  have lists : IsMeet (atoms maxDepth) _ lists :=
    .single (.operand (.closed (.base
      (.generic (.last (.several (word 126 "A") (.cons (word 126 "B") .nil)))))))
  have signature : IsMeet (atoms maxDepth) _ signature :=
    .single (.operand (.signature (.callable (by decide)
      (.last (.marked (.single (word 126 "int")) (fun _ => .inr rfl)))
      (.operand (.closed (.base (.fetch .star)))))))
  have spelled : IsType (atoms maxDepth) _ ls := .several lists (.cons signature .nil)
  have text : String.ofList (write ls) = "list<A|B>|callable(int&$x):K::*" := by decide
  have plain : ∀ l ∈ ls, l.isPlain = true := by decide
  have ok := read_of_spelled spelled (by
    rw [tokens, String.toList_ofList]
    exact lexemes_write plain 0)
  rw [text] at ok
  exact ⟨_, ok, read_proper (.inl ok)⟩

end TypeHints.Hint
