import TypeHints.Hint.Read

/-!
# The grammar of type expressions

Which lexemes spell a node, level by level and free of tokens and offsets. A level is given over the
levels below it, and `atoms` ties the knot within a budget of nesting. `IsType.shaped` collects what
a reader can tell from the first lexemes of a type.
-/
namespace TypeHints.Hint

/-- Which lexemes spell a value. -/
abbrev Phrase (α : Type) := α → List Lexeme → Prop

/-! ### Lists -/

/-- Items between commas up to `close`; a comma may stand before `close`. -/
inductive Listed {α : Type} (close : Mark) (P : Phrase α) : Phrase (List α)
  | nil : Listed close P [] [.mark close]
  | last {x : α} {ls : List Lexeme} (item : P x ls) : Listed close P [x] (ls ++ [.mark close])
  | cons {x : α} {ls : List Lexeme} {xs : List α} {more : List Lexeme} (item : P x ls)
      (others : Listed close P xs more) : Listed close P (x :: xs) (ls ++ .mark .comma :: more)

inductive Further {α : Type} (m : Mark) (P : Phrase α) : Phrase (List α)
  | nil : Further m P [] []
  | cons {x : α} {ls : List Lexeme} {xs : List α} {more : List Lexeme} (item : P x ls)
      (others : Further m P xs more) : Further m P (x :: xs) (.mark m :: (ls ++ more))

/-- Items joined by a mark; a single one stays itself. -/
inductive Joined (m : Mark) (wrap : List Node → Node) (P : Phrase Node) : Phrase Node
  | single {v : Node} {ls : List Lexeme} (item : P v ls) : Joined m wrap P v ls
  | several {v w : Node} {vs : List Node} {ls more : List Lexeme} (item : P v ls)
      (others : Further m P (w :: vs) more) : Joined m wrap P (wrap (v :: w :: vs)) (ls ++ more)

def Mark.times (m : Mark) (present : Bool) : List Lexeme := if present then [.mark m] else []

/-! ### Types over given atoms -/

inductive Suffixed (base : Phrase Node) : Phrase Node
  | base {v : Node} {ls : List Lexeme} (plain : base v ls) : Suffixed base v ls
  | array {v : Node} {ls : List Lexeme} (item : Suffixed base v ls) :
      Suffixed base (.array v) (ls ++ [.mark .openSquare, .mark .closeSquare])

/-- What no operator takes apart. A signature ends in a type, which takes the suffixes behind it. -/
structure Atoms where
  closed : Phrase Node
  signature : Phrase Node

inductive IsOperand (A : Atoms) : Phrase Node
  | closed {v : Node} {ls : List Lexeme} (atom : Suffixed A.closed v ls) : IsOperand A v ls
  | signature {v : Node} {ls : List Lexeme} (atom : A.signature v ls) : IsOperand A v ls

inductive IsMember (A : Atoms) : Phrase Node
  | operand {v : Node} {ls : List Lexeme} (plain : IsOperand A v ls) : IsMember A v ls
  | nullable {v : Node} {ls : List Lexeme} (inner : IsOperand A v ls) :
      IsMember A (.nullable v) (.mark .question :: ls)

def IsMeet (A : Atoms) : Phrase Node := Joined .amp .intersection (IsMember A)

def IsType (A : Atoms) : Phrase Node := Joined .pipe .union (IsMeet A)

/-! ### Shapes -/

inductive IsItem (type : Phrase Node) : Phrase (Slot × Node)
  | bare {v : Node} {ls : List Lexeme} (value : type v ls) : IsItem type ({}, v) ls
  | keyed {l : Lexeme} {key : ShapeKey} {v : Node} {ls : List Lexeme} (optional : Bool)
      (isKey : shapeKey? l = some key) (value : type v ls) :
      IsItem type (⟨some key, optional⟩, v)
        (l :: (Mark.question.times optional ++ .mark .colon :: ls))

inductive IsTail (type : Phrase Node) : Phrase (Option (Option Node × Node))
  | none : IsTail type none []
  | value {v : Node} {ls : List Lexeme} (args : Listed .closeAngle type [v] ls) :
      IsTail type (some (Option.none, v)) (.mark .openAngle :: ls)
  | entry {k v : Node} {ls : List Lexeme} (args : Listed .closeAngle type [k, v] ls) :
      IsTail type (some (some k, v)) (.mark .openAngle :: ls)

inductive IsShapeBody (type : Phrase Node) : Phrase ShapeBody
  | close : IsShapeBody type ([], true, none) [.mark .closeCurly]
  | unsealed {tail : Option (Option Node × Node)} {ls : List Lexeme} (comma : Bool)
      (args : IsTail type tail ls) :
      IsShapeBody type ([], false, tail)
        (.mark .ellipsis :: (ls ++ (Mark.comma.times comma ++ [.mark .closeCurly])))
  | last {x : Slot × Node} {ls : List Lexeme} (item : IsItem type x ls) :
      IsShapeBody type ([x], true, none) (ls ++ [.mark .closeCurly])
  | cons {x : Slot × Node} {ls : List Lexeme} {body : ShapeBody} {more : List Lexeme}
      (item : IsItem type x ls) (others : IsShapeBody type body more) :
      IsShapeBody type (x :: body.1, body.2) (ls ++ .mark .comma :: more)

inductive IsObjectItem (type : Phrase Node) : Phrase (Slot × Node)
  | keyed {x : Slot × Node} {ls : List Lexeme} (item : IsItem type x ls)
      (key : x.1.key.isSome = true) : IsObjectItem type x ls

/-! ### Signatures -/

def sigiled : Option String → List Lexeme
  | some name => [.var name]
  | none => []

def ParamMarks.spell (marks : ParamMarks) : List Lexeme :=
  Mark.amp.times marks.byRef ++ (Mark.ellipsis.times marks.variadic ++
    (sigiled marks.name ++ Mark.equal.times marks.optional))

/-- Without `...` or a variable behind it, `&` would ask for another member of an intersection. -/
def ParamMarks.IsApart (marks : ParamMarks) : Prop :=
  marks.byRef = true → marks.variadic = true ∨ marks.name.isSome = true

inductive IsParam (type : Phrase Node) : Phrase (Node × ParamMarks)
  | marked {v : Node} {ls : List Lexeme} {marks : ParamMarks} (plain : type v ls)
      (apart : marks.IsApart) : IsParam type (v, marks) (ls ++ marks.spell)

inductive IsSignature (A : Atoms) : Phrase Node
  | callable {name : String} {params : List (Node × ParamMarks)} {ls : List Lexeme} {result : Node}
      {more : List Lexeme} (callee : name ∈ calleeNames)
      (listed : Listed .closeParen (IsParam (IsType A)) params ls)
      (returned : IsMember A result more) :
      IsSignature A (.callable name params result)
        (.name name :: .mark .openParen :: (ls ++ .mark .colon :: more))

/-! ### Constants -/

inductive IsFetch (owner : String) : Phrase Const
  | name (text : String) : IsFetch owner (.fetch owner text) [.name text]
  | wild (text : String) : IsFetch owner (.fetch owner (text ++ "*")) [.name text, .mark .star]
  | star : IsFetch owner (.fetch owner "*") [.mark .star]

inductive IsConstItem (const : Phrase Const) : Phrase (Option Const × Const)
  | plain {v : Const} {ls : List Lexeme} (value : const v ls) : IsConstItem const (none, v) ls
  | entry {k v : Const} {ls more : List Lexeme} (key : const k ls) (value : const v more) :
      IsConstItem const (some k, v) (ls ++ .mark .arrow :: more)

inductive ConstOver (inner : Phrase Const) : Phrase Const
  | int (value : Int64) : ConstOver inner (.int value) [.int value]
  | float (value : Decimal.Binary64) : ConstOver inner (.float value) [.float value]
  | quoted (text : String) : ConstOver inner (.quoted text) [.quoted text]
  | name (text : String) : ConstOver inner (.name text) [.name text]
  | fetch {owner : String} {v : Const} {ls : List Lexeme} (fetched : IsFetch owner v ls) :
      ConstOver inner v (.name owner :: .mark .doubleColon :: ls)
  | array {items : List (Option Const × Const)} {ls : List Lexeme}
      (listed : Listed .closeSquare (IsConstItem inner) items ls) :
      ConstOver inner (.array items) (.mark .openSquare :: ls)

def IsConst : (budget : Nat) → Phrase Const
  | 0 => fun _ _ => False
  | budget + 1 => ConstOver (IsConst budget)

/-! ### Atoms -/

def Lexeme.opensConst : Lexeme → Bool
  | .int _ | .float _ | .quoted _ => true
  | .mark m => m = .openSquare
  | _ => false

inductive ClosedOver (const : Phrase Const) (A : Atoms) : Phrase Node
  | group {v : Node} {ls : List Lexeme} (inner : IsType A v ls) :
      ClosedOver const A v (.mark .openParen :: (ls ++ [.mark .closeParen]))
  | this : ClosedOver const A .this [.this]
  | const {v : Const} {l : Lexeme} {ls : List Lexeme} (value : const v (l :: ls))
      (opens : l.opensConst = true) : ClosedOver const A (.const v) (l :: ls)
  | name (text : String) : ClosedOver const A (.name text) [.name text]
  | fetch {owner : String} {v : Const} {ls : List Lexeme} (fetched : IsFetch owner v ls) :
      ClosedOver const A (.const v) (.name owner :: .mark .doubleColon :: ls)
  | generic {base : String} {arg : Node} {args : List Node} {ls : List Lexeme}
      (listed : Listed .closeAngle (IsType A) (arg :: args) ls) :
      ClosedOver const A (.generic (.name base) (arg :: args)) (.name base :: .mark .openAngle :: ls)
  | arrayShape {body : ShapeBody} {ls : List Lexeme} (kind : ShapeKind)
      (items : IsShapeBody (IsType A) body ls) :
      ClosedOver const A (.arrayShape kind body.1 body.2.1 body.2.2)
        (.name kind.text :: .mark .openCurly :: ls)
  | objectShape {items : List (Slot × Node)} {ls : List Lexeme}
      (listed : Listed .closeCurly (IsObjectItem (IsType A)) items ls) :
      ClosedOver const A (.objectShape items) (.name "object" :: .mark .openCurly :: ls)

def atoms : (budget : Nat) → Atoms
  | 0 => ⟨fun _ _ => False, fun _ _ => False⟩
  | budget + 1 => ⟨ClosedOver (IsConst budget) (atoms budget), IsSignature (atoms budget)⟩

/-! ### What the first lexemes tell -/

def Lexeme.opensType : Lexeme → Bool
  | .name _ | .this | .int _ | .float _ | .quoted _ => true
  | .mark m => m = .question || m = .openParen || m = .openSquare
  | _ => false

theorem Lexeme.opensType_of_opensConst {l : Lexeme} (h : l.opensConst = true) :
    l.opensType = true := by
  cases l with
  | mark m => cases m <;> simp_all [opensConst, opensType]
  | _ => simp_all [opensConst, opensType]

/-- The lexemes do not begin like a shape item with a key. -/
def isUnkeyed : List Lexeme → Bool
  | k :: t :: _ => (shapeKey? k).isNone || (t ≠ .mark .colon && t ≠ .mark .question)
  | _ => true

def Lexeme.isTidyBefore : Lexeme → Option Lexeme → Bool
  | .malformed _, _ | .finish, _ => false
  | .var _, next => match next with
    | some (.mark _) => true
    | _ => false
  | _, _ => true

/-- Legible lexemes, where each variable stands before a mark. -/
def isTidy : List Lexeme → Bool
  | [] => true
  | l :: ls => l.isTidyBefore ls.head? && isTidy ls

theorem Lexeme.isTidyBefore_mono {l next : Lexeme} (h : l.isTidyBefore none = true) :
    l.isTidyBefore (some next) = true := by
  cases l <;> simp_all [isTidyBefore]

theorem isTidy_append {ls more : List Lexeme} (h : isTidy ls = true) (tail : isTidy more = true) :
    isTidy (ls ++ more) = true := by
  induction ls with
  | nil => exact tail
  | cons l ls ih =>
    simp only [isTidy, Bool.and_eq_true] at h
    refine Bool.and_eq_true_iff.mpr ⟨?_, ih h.2⟩
    cases ls with
    | cons next ls => exact h.1
    | nil =>
      cases more with
      | nil => exact h.1
      | cons next more => exact Lexeme.isTidyBefore_mono h.1

@[simp] theorem isTidy_nil : isTidy [] = true := rfl

@[simp] theorem isTidy_mark (m : Mark) (ls : List Lexeme) :
    isTidy (.mark m :: ls) = isTidy ls := by simp [isTidy, Lexeme.isTidyBefore]

@[simp] theorem isTidy_times (m : Mark) (present : Bool) : isTidy (m.times present) = true := by
  cases present <;> rfl

def IsTidyPhrase {α : Type} (P : Phrase α) : Prop :=
  ∀ ⦃x ls⦄, P x ls → ∀ m : Mark, isTidy (ls ++ [.mark m]) = true

theorem Listed.isTidy {α : Type} {close : Mark} {P : Phrase α} (tidy : IsTidyPhrase P) {xs : List α}
    {ls : List Lexeme} (h : Listed close P xs ls) : isTidy ls = true := by
  induction h with
  | nil => simp
  | last item => exact tidy item close
  | @cons x ls xs more item others ih =>
    rw [List.append_cons]
    exact isTidy_append (tidy item .comma) ih

structure Shaped (ls : List Lexeme) : Prop where
  opens : ∃ l more, ls = l :: more ∧ l.opensType = true
  unkeyed : isUnkeyed ls = true
  tidy : isTidy ls = true

theorem Shaped.append {ls more : List Lexeme} {m : Mark} (h : Shaped ls)
    (plain : m ≠ .colon ∧ m ≠ .question) (tidy : isTidy more = true) :
    Shaped (ls ++ .mark m :: more) := by
  obtain ⟨l, tail, rfl, opens⟩ := h.opens
  refine ⟨⟨l, tail ++ .mark m :: more, rfl, opens⟩, ?_, ?_⟩
  · cases tail with
    | nil => simp [isUnkeyed, plain]
    | cons t tail => exact h.unkeyed
  · exact isTidy_append h.tidy (by simpa using tidy)

theorem Shaped.keyless {l : Lexeme} {ls : List Lexeme} (opens : l.opensType = true)
    (keyless : shapeKey? l = none) (tidy : isTidy (l :: ls) = true) : Shaped (l :: ls) := by
  refine ⟨⟨l, ls, rfl, opens⟩, ?_, tidy⟩
  cases ls <;> simp [isUnkeyed, keyless]

theorem Shaped.single {l : Lexeme} (opens : l.opensType = true) : Shaped [l] := by
  refine ⟨⟨l, [], rfl, opens⟩, rfl, ?_⟩
  cases l <;> first | rfl | simp [Lexeme.opensType] at opens

theorem Shaped.name {m : Mark} {ls : List Lexeme} (text : String)
    (plain : m ≠ .colon ∧ m ≠ .question) (tidy : isTidy ls = true) :
    Shaped (.name text :: .mark m :: ls) :=
  (Shaped.single (l := .name text) rfl).append plain tidy

def IsShapedPhrase (P : Phrase Node) : Prop := ∀ ⦃v ls⦄, P v ls → Shaped ls

theorem IsShapedPhrase.isTidyPhrase {P : Phrase Node} (h : IsShapedPhrase P) : IsTidyPhrase P :=
  fun _ _ spelled m => isTidy_append (h spelled).tidy (by simp)

theorem Further.isTidy {m : Mark} {P : Phrase Node} (shaped : IsShapedPhrase P) {vs : List Node}
    {ls : List Lexeme} (h : Further m P vs ls) : isTidy ls = true := by
  induction h with
  | nil => rfl
  | cons item others ih => simpa using isTidy_append (shaped item).tidy ih

theorem Joined.shaped {m : Mark} {wrap : List Node → Node} {P : Phrase Node}
    (plain : m ≠ .colon ∧ m ≠ .question) (known : IsShapedPhrase P) :
    IsShapedPhrase (Joined m wrap P) := by
  rintro v ls (item | ⟨item, others⟩)
  · exact known item
  · cases others with
    | cons other others =>
      exact (known item).append plain (isTidy_append (known other).tidy (others.isTidy known))

/-! ### Types show it when their atoms do -/

structure Atoms.Shaped (A : Atoms) : Prop where
  closed : IsShapedPhrase A.closed
  signature : IsShapedPhrase A.signature
  unquestioned : ∀ ⦃v ls⦄, A.closed v ls ∨ A.signature v ls → ls.head? ≠ some (.mark .question)

section
variable {A : Atoms} (known : A.Shaped)
include known

theorem IsOperand.shaped : IsShapedPhrase (IsOperand A) := by
  rintro v ls (atom | atom)
  · induction atom with
    | base plain => exact known.closed plain
    | array item ih => exact ih.append (by decide) (by decide)
  · exact known.signature atom

theorem IsOperand.unquestioned {v : Node} {ls : List Lexeme} (h : IsOperand A v ls) :
    ls.head? ≠ some (.mark .question) := by
  cases h with
  | closed atom =>
    induction atom with
    | base plain => exact known.unquestioned (.inl plain)
    | array item ih =>
      obtain ⟨l, more, rfl, -⟩ := (IsOperand.shaped known (.closed item)).opens
      exact ih
  | signature atom => exact known.unquestioned (.inr atom)

theorem IsMember.shaped : IsShapedPhrase (IsMember A) := by
  rintro v ls (plain | inner)
  · exact IsOperand.shaped known plain
  · exact Shaped.keyless rfl rfl (by simpa using (IsOperand.shaped known inner).tidy)

theorem IsType.shaped : IsShapedPhrase (IsType A) :=
  Joined.shaped (by decide) (Joined.shaped (by decide) (IsMember.shaped known))

end

section
variable {type : Phrase Node} (known : IsShapedPhrase type)
include known

theorem IsItem.opens {x : Slot × Node} {ls : List Lexeme} (h : IsItem type x ls) :
    ∃ l more, ls = l :: more ∧ l.opensType = true := by
  cases h with
  | bare value => exact (known value).opens
  | @keyed l _ _ _ _ isKey value =>
    exact ⟨_, _, rfl, by cases l <;> first | rfl | simp [shapeKey?] at isKey⟩

theorem IsItem.isTidyPhrase : IsTidyPhrase (IsItem type) := by
  rintro x ls (value | @⟨l, key, v, ls, optional, isKey, value⟩) m
  · exact known.isTidyPhrase value m
  · have key : isTidy [l] = true := by cases l <;> first | rfl | simp [shapeKey?] at isKey
    rw [← List.singleton_append, List.append_assoc, List.append_assoc]
    refine isTidy_append key (isTidy_append (isTidy_times _ _) ?_)
    simpa using known.isTidyPhrase value m

theorem IsObjectItem.isTidyPhrase : IsTidyPhrase (IsObjectItem type) := by
  rintro x ls ⟨item, -⟩ m
  exact IsItem.isTidyPhrase known item m

theorem IsTail.isTidy {tail : Option (Option Node × Node)} {ls : List Lexeme}
    (h : IsTail type tail ls) : isTidy ls = true := by
  cases h with
  | none => rfl
  | value args => simpa using args.isTidy known.isTidyPhrase
  | entry args => simpa using args.isTidy known.isTidyPhrase

theorem IsShapeBody.isTidy {body : ShapeBody} {ls : List Lexeme} (h : IsShapeBody type body ls) :
    isTidy ls = true := by
  induction h with
  | close => simp
  | unsealed comma args =>
    rw [isTidy_mark]
    refine isTidy_append (IsTail.isTidy known args) (isTidy_append (isTidy_times _ _) ?_)
    simp
  | last item => exact IsItem.isTidyPhrase known item _
  | cons item others ih =>
    rw [List.append_cons]
    exact isTidy_append (IsItem.isTidyPhrase known item .comma) ih

theorem IsParam.isTidyPhrase : IsTidyPhrase (IsParam type) := by
  rintro x ls @⟨v, ls, ⟨byRef, variadic, name, optional⟩, plain, apart⟩ m
  have named : isTidy (sigiled name ++ (Mark.equal.times optional ++ [.mark m])) = true := by
    cases name <;> cases optional <;> rfl
  simp only [ParamMarks.spell, List.append_assoc]
  exact isTidy_append (known plain).tidy
    (isTidy_append (isTidy_times _ _) (isTidy_append (isTidy_times _ _) named))

end

theorem IsSignature.shaped {A : Atoms} (known : A.Shaped) : IsShapedPhrase (IsSignature A) := by
  rintro v ls ⟨callee, listed, returned⟩
  refine Shaped.name _ (by decide) (isTidy_append ?_ ?_)
  · exact listed.isTidy (IsParam.isTidyPhrase (IsType.shaped known))
  · simpa using (IsMember.shaped known returned).tidy

/-! ### Constants -/

theorem IsFetch.isTidy {owner : String} {v : Const} {ls : List Lexeme} (h : IsFetch owner v ls) :
    isTidy ls = true := by
  cases h <;> rfl

def Lexeme.startsConst : Lexeme → Bool
  | .name _ => true
  | l => l.opensConst

structure ConstShaped (ls : List Lexeme) : Prop where
  starts : ∃ l more, ls = l :: more ∧ l.startsConst = true
  /-- No shape takes it for the key of an item. -/
  unkeyed : isUnkeyed ls = true
  tidy : isTidy ls = true

theorem IsConstItem.isTidyPhrase {const : Phrase Const}
    (known : ∀ ⦃v ls⦄, const v ls → ConstShaped ls) : IsTidyPhrase (IsConstItem const) := by
  rintro x ls (value | ⟨key, value⟩) m
  · exact isTidy_append (known value).tidy (by simp)
  · rw [List.append_assoc]
    refine isTidy_append (known key).tidy ?_
    simpa using isTidy_append (known value).tidy (by simp)

theorem IsConst.shaped {budget : Nat} {v : Const} {ls : List Lexeme} (h : IsConst budget v ls) :
    ConstShaped ls := by
  induction budget generalizing v ls with
  | zero => exact h.elim
  | succ budget ih =>
    cases h with
    | int | float | quoted | name => exact ⟨⟨_, _, rfl, rfl⟩, rfl, rfl⟩
    | fetch fetched =>
      exact ⟨⟨_, _, rfl, rfl⟩, rfl, by simpa [isTidy, Lexeme.isTidyBefore] using fetched.isTidy⟩
    | @array items ls listed =>
      refine ⟨⟨_, _, rfl, rfl⟩, by cases ls <;> rfl, ?_⟩
      simpa using listed.isTidy (IsConstItem.isTidyPhrase fun _ _ value => ih value)

/-! ### Atoms -/

theorem ClosedOver.unquestioned {const : Phrase Const} {A : Atoms} {v : Node} {ls : List Lexeme}
    (h : ClosedOver const A v ls) : ls.head? ≠ some (.mark .question) := by
  cases h with
  | const value opens =>
    intro same
    rw [Option.some.inj same] at opens
    exact absurd opens (by decide)
  | _ => simp

theorem atoms_shaped (budget : Nat) : (atoms budget).Shaped := by
  induction budget with
  | zero => exact ⟨fun _ _ h => h.elim, fun _ _ h => h.elim, fun _ _ h => h.elim False.elim False.elim⟩
  | succ budget known =>
    have type := IsType.shaped known
    refine ⟨?_, IsSignature.shaped known, ?_⟩
    case refine_2 =>
      rintro v ls (closed | ⟨callee, listed, returned⟩)
      · exact closed.unquestioned
      · simp
    intro v ls h
    cases h with
    | group inner =>
      exact Shaped.keyless rfl rfl (by simpa using isTidy_append (type inner).tidy (by simp))
    | this => exact Shaped.single rfl
    | const value opens =>
      exact ⟨⟨_, _, rfl, Lexeme.opensType_of_opensConst opens⟩, value.shaped.unkeyed,
        value.shaped.tidy⟩
    | name text => exact Shaped.single rfl
    | fetch fetched => exact Shaped.name _ (by decide) fetched.isTidy
    | generic listed => exact Shaped.name _ (by decide) (listed.isTidy type.isTidyPhrase)
    | arrayShape kind items => exact Shaped.name _ (by decide) (IsShapeBody.isTidy type items)
    | objectShape listed =>
      exact Shaped.name _ (by decide) (listed.isTidy (IsObjectItem.isTidyPhrase type))

theorem IsType.shapedWithin {budget : Nat} {v : Node} {ls : List Lexeme}
    (h : IsType (atoms budget) v ls) : Shaped ls :=
  IsType.shaped (atoms_shaped budget) h

end TypeHints.Hint
