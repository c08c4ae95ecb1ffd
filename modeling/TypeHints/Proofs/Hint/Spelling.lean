import TypeHints.Proofs.Hint.Grammar
import TypeHints.Proofs.Hint.Writing

/-!
# Spelling a type expression

`Node.spell` writes a node with no more parentheses than the grammar asks for. What a text is read
as can be respelled within the nesting that the text had, so `print` gives a text that is read the
same.
-/
namespace TypeHints.Hint

/-! ### Spelling -/

def grouped (needed : Bool) (ls : List Lexeme) : List Lexeme :=
  if needed then .mark .openParen :: (ls ++ [.mark .closeParen]) else ls

def joinedBy (m : Mark) : List (List Lexeme) → List Lexeme
  | [] => []
  | ls :: rest => ls ++ rest.flatMap (.mark m :: ·)

def listed (close : Mark) : List (List Lexeme) → List Lexeme
  | [] => [.mark close]
  | [ls] => ls ++ [.mark close]
  | ls :: rest => ls ++ .mark .comma :: listed close rest

theorem listed_eq (close : Mark) (items : List (List Lexeme)) :
    listed close items = joinedBy .comma items ++ [.mark close] := by
  fun_induction listed close items with
  | case1 => rfl
  | case2 ls => simp [joinedBy]
  | case3 ls rest more ih =>
    rw [ih]
    cases rest with
    | nil => exact absurd rfl more
    | cons next rest => simp [joinedBy]

def spellFetched (name : String) : List Lexeme :=
  if name = "*" then [.mark .star]
  else if name.toList.getLast? = some '*' then
    [.name (String.ofList name.toList.dropLast), .mark .star]
  else [.name name]

mutual

def Const.spell : Const → List Lexeme
  | .int value => [.int value]
  | .float value => [.float value]
  | .quoted text => [.quoted text]
  | .name text => [.name text]
  | .fetch owner name => .name owner :: .mark .doubleColon :: spellFetched name
  | .array items => .mark .openSquare :: listed .closeSquare (spellEntries items)

def spellEntries : List (Option Const × Const) → List (List Lexeme)
  | [] => []
  | (none, value) :: rest => value.spell :: spellEntries rest
  | (some key, value) :: rest => (key.spell ++ .mark .arrow :: value.spell) :: spellEntries rest

end

def ShapeKey.lexeme : ShapeKey → Lexeme
  | .name text => .name text
  | .int value => .int value
  | .quoted text => .quoted text

def Slot.spell (slot : Slot) : List Lexeme :=
  match slot.key with
  | some key => key.lexeme :: (Mark.question.times slot.optional ++ [.mark .colon])
  | none => []

def spellBody (items : List (List Lexeme)) (isSealed : Bool) (tail : List Lexeme) : List Lexeme :=
  if isSealed then listed .closeCurly items
  else items.flatMap (· ++ [.mark .comma]) ++ .mark .ellipsis :: (tail ++ [.mark .closeCurly])

/-- How tightly a node binds, from 0 for a union up to 4 for what no operator takes apart. -/
def Node.rank : Node → Nat
  | .union _ => 0
  | .intersection _ => 1
  | .nullable _ => 2
  | .callable .. => 3
  | _ => 4

mutual

def Node.spell : Node → List Lexeme
  | .name text => [.name text]
  | .this => [.this]
  | .const value => value.spell
  | .nullable inner => .mark .question :: grouped (inner.rank < 3) inner.spell
  | .union members => joinedBy .pipe (spellMembers 1 members)
  | .intersection members => joinedBy .amp (spellMembers 2 members)
  | .generic base args =>
    base.spell ++ .mark .openAngle :: listed .closeAngle (spellMembers 0 args)
  | .array item => grouped (item.rank < 4) item.spell ++ [.mark .openSquare, .mark .closeSquare]
  | .arrayShape kind items isSealed tail =>
    .name kind.text :: .mark .openCurly :: spellBody (spellItems items) isSealed (spellTail tail)
  | .objectShape items => .name "object" :: .mark .openCurly :: listed .closeCurly (spellItems items)
  | .callable callee params result =>
    .name callee :: .mark .openParen ::
      (listed .closeParen (spellParams params) ++ .mark .colon ::
        grouped (result.rank < 2) result.spell)

/-- Nodes where only what binds at least as tightly as `rank` stands without parentheses. -/
def spellMembers (rank : Nat) : List Node → List (List Lexeme)
  | [] => []
  | n :: rest => grouped (n.rank < rank) n.spell :: spellMembers rank rest

def spellItems : List (Slot × Node) → List (List Lexeme)
  | [] => []
  | (slot, n) :: rest => (slot.spell ++ n.spell) :: spellItems rest

def spellTail : Option (Option Node × Node) → List Lexeme
  | none => []
  | some (none, value) => .mark .openAngle :: listed .closeAngle [value.spell]
  | some (some key, value) => .mark .openAngle :: listed .closeAngle [key.spell, value.spell]

def spellParams : List (Node × ParamMarks) → List (List Lexeme)
  | [] => []
  | (n, marks) :: rest => (n.spell ++ marks.spell) :: spellParams rest

end

def Node.spellAt (rank : Nat) (n : Node) : List Lexeme := grouped (n.rank < rank) n.spell

def print (n : Node) : String := String.ofList (write n.spell)

@[simp] theorem spellAt_zero (n : Node) : n.spellAt 0 = n.spell := by simp [Node.spellAt, grouped]

theorem spellAt_of_le {n : Node} {rank : Nat} (h : rank ≤ n.rank) : n.spellAt rank = n.spell := by
  simp [Node.spellAt, grouped, Nat.not_lt.mpr h]

theorem spellMembers_eq (rank : Nat) (ns : List Node) :
    spellMembers rank ns = ns.map (·.spellAt rank) := by
  induction ns with
  | nil => rfl
  | cons n ns ih => rw [spellMembers, ih]; rfl

def spellItem (item : Slot × Node) : List Lexeme := item.1.spell ++ item.2.spell

def spellParam (param : Node × ParamMarks) : List Lexeme := param.1.spell ++ param.2.spell

def spellEntry : Option Const × Const → List Lexeme
  | (none, value) => value.spell
  | (some key, value) => key.spell ++ .mark .arrow :: value.spell

theorem spellItems_eq (items : List (Slot × Node)) : spellItems items = items.map spellItem := by
  induction items with
  | nil => rfl
  | cons item items ih => rw [spellItems, ih]; rfl

theorem spellParams_eq (params : List (Node × ParamMarks)) :
    spellParams params = params.map spellParam := by
  induction params with
  | nil => rfl
  | cons param params ih => rw [spellParams, ih]; rfl

theorem spellEntries_eq (items : List (Option Const × Const)) :
    spellEntries items = items.map spellEntry := by
  induction items with
  | nil => rfl
  | cons item items ih =>
    obtain ⟨key, value⟩ := item
    cases key <;> rw [spellEntries, ih] <;> rfl

/-! ### Floats -/

mutual

def Const.hasFloat : Const → Bool
  | .float _ => true
  | .array items => entriesHaveFloat items
  | _ => false

def entriesHaveFloat : List (Option Const × Const) → Bool
  | [] => false
  | (none, value) :: rest => value.hasFloat || entriesHaveFloat rest
  | (some key, value) :: rest => key.hasFloat || value.hasFloat || entriesHaveFloat rest

end

mutual

def Node.hasFloat : Node → Bool
  | .name _ | .this => false
  | .const value => value.hasFloat
  | .nullable inner => inner.hasFloat
  | .union members | .intersection members => membersHaveFloat members
  | .generic base args => base.hasFloat || membersHaveFloat args
  | .array item => item.hasFloat
  | .arrayShape _ items _ tail => itemsHaveFloat items || tailHasFloat tail
  | .objectShape items => itemsHaveFloat items
  | .callable _ params result => paramsHaveFloat params || result.hasFloat

def membersHaveFloat : List Node → Bool
  | [] => false
  | n :: rest => n.hasFloat || membersHaveFloat rest

def itemsHaveFloat : List (Slot × Node) → Bool
  | [] => false
  | (_, n) :: rest => n.hasFloat || itemsHaveFloat rest

def tailHasFloat : Option (Option Node × Node) → Bool
  | none => false
  | some (none, value) => value.hasFloat
  | some (some key, value) => key.hasFloat || value.hasFloat

def paramsHaveFloat : List (Node × ParamMarks) → Bool
  | [] => false
  | (n, _) :: rest => n.hasFloat || paramsHaveFloat rest

end

def FloatFree (ls : List Lexeme) : Prop := ls.any Lexeme.isFloat = false

@[simp] theorem floatFree_nil : FloatFree [] := rfl

@[simp] theorem floatFree_cons {l : Lexeme} {ls : List Lexeme} :
    FloatFree (l :: ls) ↔ l.isFloat = false ∧ FloatFree ls := by simp [FloatFree]

@[simp] theorem floatFree_append {ls more : List Lexeme} :
    FloatFree (ls ++ more) ↔ FloatFree ls ∧ FloatFree more := by simp [FloatFree]

@[simp] theorem isFloat_mark (m : Mark) : (Lexeme.mark m).isFloat = false := rfl

@[simp] theorem isFloat_name (word : String) : (Lexeme.name word).isFloat = false := rfl

@[simp] theorem floatFree_grouped {needed : Bool} {ls : List Lexeme} :
    FloatFree (grouped needed ls) ↔ FloatFree ls := by
  cases needed <;> simp [grouped]

@[simp] theorem floatFree_times (m : Mark) (present : Bool) : FloatFree (m.times present) := by
  cases present <;> rfl

theorem floatFree_listed {close : Mark} {items : List (List Lexeme)} (h : ∀ ls ∈ items, FloatFree ls) :
    FloatFree (listed close items) := by
  fun_induction listed close items with
  | case1 => simp
  | case2 ls => simpa using h
  | case3 ls rest more ih =>
    rw [List.forall_mem_cons] at h
    simpa using ⟨h.1, ih h.2⟩

@[simp] theorem floatFree_flatMap {α : Type} {f : α → List Lexeme} {xs : List α} :
    FloatFree (xs.flatMap f) ↔ ∀ x ∈ xs, FloatFree (f x) := by
  simp [FloatFree, List.any_flatMap]

theorem floatFree_joinedBy {m : Mark} {items : List (List Lexeme)} (h : ∀ ls ∈ items, FloatFree ls) :
    FloatFree (joinedBy m items) := by
  cases items with
  | nil => rfl
  | cons ls rest =>
    rw [List.forall_mem_cons] at h
    simpa [joinedBy] using h

theorem floatFree_spellBody {items : List (List Lexeme)} {isSealed : Bool} {tail : List Lexeme}
    (h : ∀ ls ∈ items, FloatFree ls) (last : FloatFree tail) :
    FloatFree (spellBody items isSealed tail) := by
  cases isSealed with
  | true => exact floatFree_listed h
  | false => simpa [spellBody] using ⟨h, last⟩

theorem floatFree_spellFetched (name : String) : FloatFree (spellFetched name) := by
  unfold spellFetched
  split
  · rfl
  · split <;> rfl

theorem Slot.floatFree (slot : Slot) : FloatFree slot.spell := by
  obtain ⟨key, optional⟩ := slot
  match key with
  | none => rfl
  | some (.name _) | some (.int _) | some (.quoted _) =>
    simp [Slot.spell, ShapeKey.lexeme, Lexeme.isFloat]

theorem ParamMarks.floatFree (marks : ParamMarks) : FloatFree marks.spell := by
  obtain ⟨byRef, variadic, name, optional⟩ := marks
  cases name <;> simp [ParamMarks.spell, sigiled, Lexeme.isFloat]

mutual

theorem Const.floatFree {v : Const} (h : v.hasFloat = false) : FloatFree v.spell := by
  match v with
  | .int _ | .quoted _ | .name _ => rw [Const.spell]; rfl
  | .float _ => cases h
  | .fetch owner name =>
    rw [Const.spell]
    simpa using floatFree_spellFetched name
  | .array items =>
    rw [Const.spell]
    simpa using floatFree_listed (entries_floatFree (by simpa [Const.hasFloat] using h))

theorem entries_floatFree {items : List (Option Const × Const)} (h : entriesHaveFloat items = false) :
    ∀ ls ∈ spellEntries items, FloatFree ls := by
  match items with
  | [] => simp [spellEntries]
  | (none, value) :: rest =>
    simp only [entriesHaveFloat, Bool.or_eq_false_iff] at h
    rw [spellEntries]
    exact List.forall_mem_cons.mpr ⟨Const.floatFree h.1, entries_floatFree h.2⟩
  | (some key, value) :: rest =>
    simp only [entriesHaveFloat, Bool.or_eq_false_iff] at h
    rw [spellEntries]
    exact List.forall_mem_cons.mpr
      ⟨by simpa using ⟨Const.floatFree h.1.1, Const.floatFree h.1.2⟩, entries_floatFree h.2⟩

end

mutual

theorem Node.floatFree {n : Node} (h : n.hasFloat = false) : FloatFree n.spell := by
  match n with
  | .name _ | .this => rw [Node.spell]; rfl
  | .const value =>
    rw [Node.spell]
    exact Const.floatFree (by simpa [Node.hasFloat] using h)
  | .nullable inner =>
    rw [Node.spell]
    simpa using Node.floatFree (n := inner) (by simpa [Node.hasFloat] using h)
  | .union members =>
    rw [Node.spell]
    exact floatFree_joinedBy (members_floatFree (by simpa [Node.hasFloat] using h) 1)
  | .intersection members =>
    rw [Node.spell]
    exact floatFree_joinedBy (members_floatFree (by simpa [Node.hasFloat] using h) 2)
  | .generic base args =>
    simp only [Node.hasFloat, Bool.or_eq_false_iff] at h
    rw [Node.spell]
    simpa using ⟨Node.floatFree h.1, floatFree_listed (members_floatFree h.2 0)⟩
  | .array item =>
    rw [Node.spell]
    simpa using Node.floatFree (n := item) (by simpa [Node.hasFloat] using h)
  | .arrayShape kind items isSealed tail =>
    simp only [Node.hasFloat, Bool.or_eq_false_iff] at h
    rw [Node.spell]
    simpa using floatFree_spellBody (items_floatFree h.1) (tail_floatFree h.2)
  | .objectShape items =>
    rw [Node.spell]
    simpa using floatFree_listed (items_floatFree (by simpa [Node.hasFloat] using h))
  | .callable _ params result =>
    simp only [Node.hasFloat, Bool.or_eq_false_iff] at h
    rw [Node.spell]
    simpa using ⟨floatFree_listed (params_floatFree h.1), Node.floatFree h.2⟩

theorem members_floatFree {ns : List Node} (h : membersHaveFloat ns = false) (rank : Nat) :
    ∀ ls ∈ spellMembers rank ns, FloatFree ls := by
  match ns with
  | [] => simp [spellMembers]
  | n :: rest =>
    simp only [membersHaveFloat, Bool.or_eq_false_iff] at h
    rw [spellMembers]
    exact List.forall_mem_cons.mpr ⟨by simpa using Node.floatFree h.1, members_floatFree h.2 rank⟩

theorem items_floatFree {items : List (Slot × Node)} (h : itemsHaveFloat items = false) :
    ∀ ls ∈ spellItems items, FloatFree ls := by
  match items with
  | [] => simp [spellItems]
  | (slot, n) :: rest =>
    simp only [itemsHaveFloat, Bool.or_eq_false_iff] at h
    rw [spellItems]
    exact List.forall_mem_cons.mpr
      ⟨by simpa using ⟨slot.floatFree, Node.floatFree h.1⟩, items_floatFree h.2⟩

theorem tail_floatFree {tail : Option (Option Node × Node)} (h : tailHasFloat tail = false) :
    FloatFree (spellTail tail) := by
  match tail with
  | none => rfl
  | some (none, value) =>
    rw [spellTail]
    simpa [listed] using Node.floatFree (n := value) (by simpa [tailHasFloat] using h)
  | some (some key, value) =>
    simp only [tailHasFloat, Bool.or_eq_false_iff] at h
    rw [spellTail]
    simpa [listed] using ⟨Node.floatFree h.1, Node.floatFree h.2⟩

theorem params_floatFree {params : List (Node × ParamMarks)} (h : paramsHaveFloat params = false) :
    ∀ ls ∈ spellParams params, FloatFree ls := by
  match params with
  | [] => simp [spellParams]
  | (n, marks) :: rest =>
    simp only [paramsHaveFloat, Bool.or_eq_false_iff] at h
    rw [spellParams]
    exact List.forall_mem_cons.mpr
      ⟨by simpa using ⟨Node.floatFree h.1, marks.floatFree⟩, params_floatFree h.2⟩

end

end TypeHints.Hint
