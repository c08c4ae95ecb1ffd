import TypeHints.Proofs.Hint.Delimitation
import TypeHints.Proofs.Hint.Writing

/-!
A level of the reader's budget pays for no more than four levels of the tree, but nothing pays for a
suffix `[]`: a way down the tree is bounded by the budget and by the suffixes on it, and by no
constant.
-/
namespace TypeHints.Hint

inductive Part where
  | node (n : Node)
  | const (v : Const)

def Const.parts : Const → List Part
  | .array items => items.flatMap fun item => (item.1.toList ++ [item.2]).map .const
  | .int _ | .float _ | .quoted _ | .name _ | .fetch _ _ => []

def tailTypes : Option (Option Node × Node) → List Node
  | some (key, value) => key.toList ++ [value]
  | none => []

def Node.parts : Node → List Part
  | .nullable inner | .array inner => [.node inner]
  | .union members | .intersection members => members.map .node
  | .generic base args => (base :: args).map .node
  | .const value => [.const value]
  | .arrayShape _ items _ tail => (items.map Prod.snd ++ tailTypes tail).map .node
  | .objectShape items => (items.map Prod.snd).map .node
  | .callable _ params result => (params.map Prod.fst ++ [result]).map .node
  | .name _ | .this => []

def Part.parts : Part → List Part
  | .node n => n.parts
  | .const v => v.parts

/-- The suffix `[]`. -/
def Part.isSuffix : Part → Bool
  | .node (.array _) => true
  | _ => false

/-- A way down the tree, from a part into one of its own parts and so on. -/
inductive Descent : Part → List Part → Prop
  | here (p : Part) : Descent p [p]
  | into {p inner : Part} {path : List Part} (part : inner ∈ p.parts) (further : Descent inner path) :
      Descent p (p :: path)

/-- No way down is longer than `levels`, suffixes aside. -/
def Part.Low (levels : Nat) (p : Part) : Prop :=
  ∀ path, Descent p path → path.length ≤ levels + path.countP Part.isSuffix

theorem Part.Low.mono {levels more : Nat} {p : Part} (h : p.Low levels) (le : levels ≤ more) :
    p.Low more := by
  intro path down
  have := h path down
  omega

theorem Part.low_of_parts {levels : Nat} {p : Part} (h : ∀ inner ∈ p.parts, inner.Low levels) :
    p.Low (levels + 1) := by
  rintro _ (_ | @⟨_, inner, path, part, further⟩)
  · exact (Nat.le_add_left 1 levels).trans (Nat.le_add_right _ _)
  · have below := h inner part path further
    rw [List.length_cons, List.countP_cons]
    omega

theorem Part.low_of_partless {p : Part} (none : p.parts = []) (levels : Nat) : p.Low (levels + 1) := by
  refine Part.low_of_parts ?_
  rw [none]
  exact nofun

theorem Part.low_const {levels : Nat} {v : Const} (h : (Part.const v).Low levels) :
    (Part.node (.const v)).Low (levels + 1) :=
  Part.low_of_parts (List.forall_mem_singleton.mpr h)

theorem Part.Low.suffixed {levels : Nat} {n : Node} (h : (Part.node n).Low levels) :
    (Part.node (.array n)).Low levels := by
  rintro _ (_ | @⟨_, inner, path, part, further⟩)
  · exact Nat.le_add_left 1 levels
  · obtain rfl : inner = .node n := List.mem_singleton.mp part
    have below := h path further
    rw [List.length_cons, List.countP_cons_of_pos rfl]
    omega

/-! ### Phrases -/

section
variable {α : Type} {P : Phrase α} {Q : α → Prop}

theorem Listed.forall_mem {close : Mark} (known : ∀ ⦃x ls⦄, P x ls → Q x) {xs : List α}
    {ls : List Lexeme} (h : Listed close P xs ls) : ∀ x ∈ xs, Q x := by
  induction h with
  | nil => exact nofun
  | last item => exact List.forall_mem_singleton.mpr (known item)
  | cons item _ ih => exact List.forall_mem_cons.mpr ⟨known item, ih⟩

theorem Further.forall_mem {m : Mark} (known : ∀ ⦃x ls⦄, P x ls → Q x) {xs : List α}
    {ls : List Lexeme} (h : Further m P xs ls) : ∀ x ∈ xs, Q x := by
  induction h with
  | nil => exact nofun
  | cons item _ ih => exact List.forall_mem_cons.mpr ⟨known item, ih⟩

end

def LowAll (levels : Nat) (P : Phrase Node) : Prop := ∀ ⦃v ls⦄, P v ls → (Part.node v).Low levels

theorem low_of_nodes {levels : Nat} {p : Part} (ns : List Node) (parts : p.parts = ns.map .node)
    (h : ∀ n ∈ ns, (Part.node n).Low levels) : p.Low (levels + 1) := by
  refine Part.low_of_parts ?_
  rw [parts]
  exact List.forall_mem_map.mpr h

theorem Joined.low {m : Mark} {wrap : List Node → Node} {levels : Nat} {P : Phrase Node}
    (parts : ∀ ns, (wrap ns).parts = ns.map .node) (known : LowAll levels P) :
    LowAll (levels + 1) (Joined m wrap P) := by
  rintro v ls (item | ⟨item, others⟩)
  · exact (known item).mono (Nat.le_succ levels)
  · exact low_of_nodes _ (parts _) (List.forall_mem_cons.mpr ⟨known item, others.forall_mem known⟩)

structure Atoms.Low (A : Atoms) (levels : Nat) : Prop where
  closed : LowAll levels A.closed
  signature : LowAll levels A.signature

section
variable {A : Atoms} {levels : Nat} (known : A.Low levels)
include known

theorem IsOperand.low : LowAll levels (IsOperand A) := by
  rintro v ls (atom | atom)
  · induction atom with
    | base plain => exact known.closed plain
    | array _ ih => exact ih.suffixed
  · exact known.signature atom

theorem IsMember.low : LowAll (levels + 1) (IsMember A) := by
  rintro v ls (plain | inner)
  · exact (IsOperand.low known plain).mono (Nat.le_succ levels)
  · exact low_of_nodes [_] rfl (List.forall_mem_singleton.mpr (IsOperand.low known inner))

theorem IsType.low : LowAll (levels + 3) (IsType A) :=
  Joined.low (fun _ => rfl) (Joined.low (fun _ => rfl) (IsMember.low known))

end

/-! ### Shapes and signatures -/

section
variable {type : Phrase Node} {levels : Nat} (known : LowAll levels type)
include known

theorem IsItem.low {x : Slot × Node} {ls : List Lexeme} (h : IsItem type x ls) :
    (Part.node x.2).Low levels := by
  cases h with
  | bare value => exact known value
  | keyed _ _ value => exact known value

theorem IsTail.low {tail : Option (Option Node × Node)} {ls : List Lexeme}
    (h : IsTail type tail ls) : ∀ n ∈ tailTypes tail, (Part.node n).Low levels := by
  cases h with
  | none => exact nofun
  | value args => exact args.forall_mem known
  | entry args => exact args.forall_mem known

theorem IsShapeBody.low {body : ShapeBody} {ls : List Lexeme} (h : IsShapeBody type body ls) :
    ∀ n ∈ body.1.map Prod.snd ++ tailTypes body.2.2, (Part.node n).Low levels := by
  induction h with
  | close => exact nofun
  | unsealed _ args => exact IsTail.low known args
  | last item => exact List.forall_mem_singleton.mpr (IsItem.low known item)
  | cons item _ ih => exact List.forall_mem_cons.mpr ⟨IsItem.low known item, ih⟩

theorem IsParam.low {x : Node × ParamMarks} {ls : List Lexeme} (h : IsParam type x ls) :
    (Part.node x.1).Low levels := by
  cases h with
  | marked plain _ => exact known plain

end

theorem IsSignature.low {A : Atoms} {levels : Nat} (known : A.Low levels) :
    LowAll (levels + 4) (IsSignature A) := by
  rintro v ls ⟨callee, listed, returned⟩
  have params := listed.forall_mem fun _ _ param => IsParam.low (IsType.low known) param
  have result : (Part.node _).Low (levels + 3) := (IsMember.low known returned).mono (by omega)
  refine low_of_nodes (_ ++ [_]) rfl ?_
  exact List.forall_mem_append.mpr ⟨List.forall_mem_map.mpr params, List.forall_mem_singleton.mpr result⟩

/-! ### Constants and atoms -/

theorem IsFetch.low {owner : String} {v : Const} {ls : List Lexeme} (h : IsFetch owner v ls) :
    (Part.const v).Low 1 := by
  cases h <;> exact Part.low_of_partless rfl 0

theorem IsConst.low {budget : Nat} {v : Const} {ls : List Lexeme} (h : IsConst budget v ls) :
    (Part.const v).Low budget := by
  induction budget generalizing v ls with
  | zero => exact h.elim
  | succ budget ih =>
    cases h with
    | int | float | quoted | name => exact Part.low_of_partless rfl budget
    | fetch fetched => exact fetched.low.mono (Nat.le_add_left 1 budget)
    | array listed =>
      have items := listed.forall_mem
        (Q := fun item => ∀ v ∈ item.1.toList ++ [item.2], (Part.const v).Low budget) <| by
          rintro _ _ (value | ⟨key, value⟩)
          · exact List.forall_mem_singleton.mpr (ih value)
          · exact List.forall_mem_cons.mpr ⟨ih key, List.forall_mem_singleton.mpr (ih value)⟩
      refine Part.low_of_parts fun inner part => ?_
      obtain ⟨item, member, part⟩ := List.mem_flatMap.mp part
      obtain ⟨v, among, rfl⟩ := List.mem_map.mp part
      exact items item member v among

theorem atoms_low (budget : Nat) : (atoms budget).Low (4 * budget) := by
  induction budget with
  | zero => exact ⟨fun _ _ none => none.elim, fun _ _ none => none.elim⟩
  | succ budget ih =>
    refine ⟨?_, IsSignature.low ih⟩
    have type := IsType.low ih
    intro v ls h
    cases h with
    | group inner => exact (type inner).mono (by omega)
    | this | name => exact Part.low_of_partless rfl _
    | const value _ => exact (Part.low_const value.low).mono (by omega)
    | fetch fetched => exact (Part.low_const fetched.low).mono (by omega)
    | @generic name _ _ _ listed =>
      have base : (Part.node (.name name)).Low (4 * budget + 3) := Part.low_of_partless rfl _
      exact low_of_nodes _ rfl (List.forall_mem_cons.mpr ⟨base, listed.forall_mem type⟩)
    | arrayShape kind items => exact low_of_nodes _ rfl (IsShapeBody.low type items)
    | objectShape listed =>
      have items := listed.forall_mem (Q := fun x => (Part.node x.2).Low (4 * budget + 3)) <| by
        rintro _ _ ⟨item, -⟩
        exact IsItem.low type item
      exact low_of_nodes _ rfl (List.forall_mem_map.mpr items)

/-! ### Texts -/

def suffixed : (count : Nat) → Node
  | 0 => .name "int"
  | count + 1 => .array (suffixed count)

def spellSuffixed : (count : Nat) → List Lexeme
  | 0 => [.name "int"]
  | count + 1 => spellSuffixed count ++ [.mark .openSquare, .mark .closeSquare]

theorem suffixed_spelled (count : Nat) :
    IsType (atoms maxDepth) (suffixed count) (spellSuffixed count) := by
  refine .single (.single (.operand (.closed ?_)))
  induction count with
  | zero => exact .base (.name "int")
  | succ count ih => exact ih.array

theorem read_suffixed (count : Nat) :
    read (String.ofList (write (spellSuffixed count))) = .ok (suffixed count) := by
  have plain : ∀ l ∈ spellSuffixed count, l.isPlain = true := by
    induction count with
    | zero => exact List.forall_mem_singleton.mpr (by decide)
    | succ count ih => exact List.forall_mem_append.mpr ⟨ih, by simp [isPlain_mark]⟩
  refine read_of_spelled (suffixed_spelled count) ?_
  rw [tokens, String.toList_ofList]
  exact lexemes_write plain 0

theorem exists_descent_suffixed (count : Nat) :
    ∃ path, Descent (.node (suffixed count)) path ∧ path.length = count + 1 := by
  induction count with
  | zero => exact ⟨_, .here _, rfl⟩
  | succ count ih =>
    obtain ⟨path, down, length⟩ := ih
    exact ⟨_, .into List.mem_cons_self down, congrArg (· + 1) length⟩

/-- A way down a tree that was read is bounded by the reader's budget and the suffixes on the way. -/
theorem length_le_of_descent {text : String} {n : Node}
    (h : read text = .ok n ∨ ∃ stop, readPrefix text = .ok (n, stop)) {path : List Part}
    (down : Descent (.node n) path) :
    path.length ≤ 4 * maxDepth + 3 + path.countP Part.isSuffix := by
  have spelled : ∃ ls, IsType (atoms maxDepth) n ls := by
    rcases h with h | ⟨stop, h⟩
    · obtain ⟨ls, spelled, -⟩ := exists_spelled_of_read h
      exact ⟨ls, spelled⟩
    · obtain ⟨used, _, _, _, cut, -⟩ := exists_cut_of_readPrefix h
      exact ⟨lexemes used, cut.spelled⟩
  obtain ⟨ls, spelled⟩ := spelled
  exact IsType.low (atoms_low maxDepth) spelled path down

/-- A list of lists goes down by two suffixes to its name. -/
theorem length_le_of_descent_lists :
    read "int[][]" = .ok (suffixed 2) ∧
      Descent (.node (suffixed 2)) [.node (suffixed 2), .node (suffixed 1), .node (.name "int")] ∧
      [Part.node (suffixed 2), .node (suffixed 1), .node (.name "int")].length ≤
        4 * maxDepth + 3 + 2 := by
  have text : String.ofList (write (spellSuffixed 2)) = "int[][]" := by decide
  have ok := read_suffixed 2
  rw [text] at ok
  have down : Descent (.node (suffixed 2))
      [.node (suffixed 2), .node (suffixed 1), .node (.name "int")] :=
    .into List.mem_cons_self (.into List.mem_cons_self (.here _))
  exact ⟨ok, down, length_le_of_descent (.inl ok) down⟩

/-- No constant bounds the ways down the trees that are read. -/
theorem descent_unbounded : ¬ ∃ levels, ∀ (text : String) (n : Node) (path : List Part),
    read text = .ok n → Descent (.node n) path → path.length ≤ levels := by
  rintro ⟨levels, bounded⟩
  obtain ⟨path, down, length⟩ := exists_descent_suffixed levels
  have := bounded _ _ path (read_suffixed levels) down
  omega

end TypeHints.Hint
