import TypeHints.Proofs.Hint.Delimitation
import TypeHints.Proofs.Hint.Spelling

/-!
A node that a text is read as can be respelled within the nesting that the text had, level by level.
-/
namespace TypeHints.Hint

/-! ### Respelling lists -/

/-- Lexemes that are read back from their own text; floats are left aside. -/
def Lexeme.isKept (l : Lexeme) : Bool := l.isPlain || l.isFloat

@[simp] theorem isKept_mark (m : Mark) : (Lexeme.mark m).isKept = true := by
  simp [Lexeme.isKept, isPlain_mark]

@[simp] theorem isKept_times (m : Mark) (present : Bool) :
    (m.times present).all Lexeme.isKept = true := by
  cases present <;> simp [Mark.times]

theorem isPlain_name_of_isKept {word : String} (kept : (Lexeme.name word).isKept = true) :
    (Lexeme.name word).isPlain = true := by
  simpa [Lexeme.isKept, Lexeme.isFloat] using kept

def Kept {α : Type} (P : Phrase α) : Phrase α := fun x ls => P x ls ∧ ls.all Lexeme.isKept = true

theorem Kept.imp {α : Type} {P Q : Phrase α} {x : α} {ls : List Lexeme} (h : Kept P x ls)
    (weaker : P x ls → Q x ls) : Kept Q x ls := ⟨weaker h.1, h.2⟩

/-- What is spelled as a `P` can be spelled by `f` as a `Q`. -/
def Respells {α : Type} (P Q : Phrase α) (f : α → List Lexeme) : Prop :=
  ∀ ⦃x ls⦄, Kept P x ls → Kept Q x (f x)

section
variable {α : Type} {P Q : Phrase α} {f : α → List Lexeme} (respells : Respells P Q f)
include respells

theorem listed_respells (close : Mark) :
    Respells (Listed close P) (Listed close Q) fun xs => listed close (xs.map f) := by
  rintro xs ls ⟨list, kept⟩
  induction list with
  | nil => exact ⟨.nil, by simp [listed]⟩
  | last item =>
    simp only [List.all_append, Bool.and_eq_true] at kept
    have first := respells ⟨item, kept.1⟩
    exact ⟨.last first.1, by simp [listed, first.2]⟩
  | @cons x ls xs more item others ih =>
    simp only [List.all_append, List.all_cons, Bool.and_eq_true] at kept
    have first := respells ⟨item, kept.1⟩
    have rest := ih kept.2.2
    cases xs with
    | nil => exact ⟨.last first.1, by simp [listed, first.2]⟩
    | cons y ys => exact ⟨.cons first.1 rest.1, by
      simp only [List.map_cons, listed, List.all_append, List.all_cons, first.2, isKept_mark] at rest ⊢
      exact rest.2⟩

theorem further_respells (m : Mark) :
    Respells (Further m P) (Further m Q) fun xs => (xs.map f).flatMap (.mark m :: ·) := by
  rintro xs ls ⟨list, kept⟩
  induction list with
  | nil => exact ⟨.nil, rfl⟩
  | cons item others ih =>
    simp only [List.all_cons, List.all_append, Bool.and_eq_true] at kept
    have first := respells ⟨item, kept.2.1⟩
    have rest := ih kept.2.2
    exact ⟨.cons first.1 rest.1, by
      simp only [List.map_cons, List.flatMap_cons, List.all_append, List.all_cons, first.2, rest.2,
        isKept_mark, Bool.and_self]⟩

end

/-! ### Respelling constants -/

theorem lexeme_of_shapeKey? {l : Lexeme} {key : ShapeKey} (h : shapeKey? l = some key) :
    key.lexeme = l := by
  cases l <;> cases h <;> rfl

theorem star_not_mem {word : String} (plain : (Lexeme.name word).isPlain = true) :
    word ≠ "" ∧ '*' ∉ word.toList := by
  obtain ⟨some, inside⟩ := name_isPlain plain
  exact ⟨some, fun star => absurd (inside '*' star) (by decide)⟩

theorem fetch_spelled {owner : String} {v : Const} {ls : List Lexeme} (h : IsFetch owner v ls)
    (kept : ls.all Lexeme.isKept = true) : ∃ name, v = .fetch owner name ∧ spellFetched name = ls := by
  cases h with
  | star => exact ⟨"*", rfl, rfl⟩
  | name word =>
    simp only [List.all_cons, Bool.and_eq_true] at kept
    have none := (star_not_mem (isPlain_name_of_isKept kept.1)).2
    refine ⟨word, rfl, ?_⟩
    rw [spellFetched, if_neg, if_neg]
    · exact fun last => none (List.mem_of_getLast? last)
    · rintro rfl
      exact none (by decide)
  | wild word =>
    simp only [List.all_cons, Bool.and_eq_true] at kept
    have some := (star_not_mem (isPlain_name_of_isKept kept.1)).1
    refine ⟨word ++ "*", rfl, ?_⟩
    have text : (word ++ "*").toList = word.toList ++ ['*'] := String.toList_append
    rw [spellFetched, if_neg, if_pos, text, List.dropLast_concat, String.ofList_toList]
    · rw [text]; simp
    · intro same
      have text' : word.toList ++ ['*'] = [] ++ ['*'] := text.symm.trans (congrArg String.toList same)
      exact some (String.toList_inj.mp (List.append_cancel_right text'))

theorem const_respells {budget more : Nat} (within : budget ≤ more) :
    Respells (IsConst budget) (IsConst more) Const.spell := by
  induction budget generalizing more with
  | zero => rintro v ls ⟨none, -⟩; exact none.elim
  | succ budget ih =>
    obtain ⟨more, rfl⟩ : ∃ less, more = less + 1 := ⟨more - 1, by omega⟩
    have value := ih (Nat.le_of_succ_le_succ within)
    have inner : Respells (IsConstItem (IsConst budget)) (IsConstItem (IsConst more)) spellEntry := by
      rintro x ls ⟨item, kept⟩
      cases item with
      | plain plain =>
        have again := value ⟨plain, kept⟩
        exact ⟨.plain again.1, again.2⟩
      | entry key plain =>
        simp only [List.all_append, List.all_cons, Bool.and_eq_true] at kept
        have first := value ⟨key, kept.1⟩
        have second := value ⟨plain, kept.2.2⟩
        exact ⟨.entry first.1 second.1, by
          simp only [spellEntry, List.all_append, List.all_cons, first.2, second.2, isKept_mark,
            Bool.and_self]⟩
    rintro v ls ⟨constant, kept⟩
    cases constant with
    | int value => exact ⟨.int value, kept⟩
    | float value => exact ⟨.float value, kept⟩
    | quoted text => exact ⟨.quoted text, kept⟩
    | name text => exact ⟨.name text, kept⟩
    | fetch fetched =>
      obtain ⟨name, rfl, same⟩ := fetch_spelled fetched (by simp_all)
      rw [Const.spell, same]
      exact ⟨.fetch fetched, kept⟩
    | array list =>
      have again := listed_respells inner .closeSquare ⟨list, by simpa using kept⟩
      rw [Const.spell, spellEntries_eq]
      exact ⟨.array again.1, by simpa using again.2⟩

theorem opensConst_spell {budget : Nat} {v : Const} {l : Lexeme} {ls : List Lexeme}
    (h : IsConst budget v (l :: ls)) (opens : l.opensConst = true) :
    ∃ l' ls', v.spell = l' :: ls' ∧ l'.opensConst = true := by
  cases budget with
  | zero => exact h.elim
  | succ budget =>
    cases h with
    | int | float | quoted => exact ⟨_, _, by rw [Const.spell], rfl⟩
    | array => exact ⟨_, _, by rw [Const.spell], rfl⟩
    | name | fetch => cases opens

/-! ### Respelling shapes and signatures -/

theorem IsShapeBody.tail_eq_none {type : Phrase Node} {body : ShapeBody} {ls : List Lexeme}
    (h : IsShapeBody type body ls) (isSealed : body.2.1 = true) : body.2.2 = none := by
  induction h with
  | close | last => rfl
  | unsealed => cases isSealed
  | cons item others ih => exact ih isSealed

theorem spellBody_cons (ls : List Lexeme) (items : List (List Lexeme)) (tail : List Lexeme) :
    spellBody (ls :: items) false tail = ls ++ .mark .comma :: spellBody items false tail := by
  simp [spellBody]

section
variable {P Q : Phrase Node} (type : Respells P Q Node.spell)
include type

theorem item_respells : Respells (IsItem P) (IsItem Q) spellItem := by
  rintro x ls ⟨item, kept⟩
  cases item with
  | bare value =>
    have again := type ⟨value, kept⟩
    exact ⟨.bare again.1, again.2⟩
  | keyed optional isKey value =>
    obtain rfl := lexeme_of_shapeKey? isKey
    simp only [List.all_cons, List.all_append, Bool.and_eq_true] at kept
    have again := type ⟨value, kept.2.2.2⟩
    refine ⟨?_, ?_⟩
    · simpa [spellItem, Slot.spell] using IsItem.keyed optional isKey again.1
    · simp only [spellItem, Slot.spell, List.all_append, List.all_cons, kept.1, again.2, isKept_times,
        isKept_mark, List.all_nil, Bool.and_self]

theorem objectItem_respells : Respells (IsObjectItem P) (IsObjectItem Q) spellItem := by
  rintro x ls ⟨⟨item, key⟩, kept⟩
  have again := item_respells type ⟨item, kept⟩
  exact ⟨.keyed again.1 key, again.2⟩

theorem args_respells : Respells (Listed .closeAngle P) (Listed .closeAngle Q) fun args =>
    listed .closeAngle (spellMembers 0 args) := by
  have same : (fun n : Node => n.spellAt 0) = Node.spell := funext spellAt_zero
  simpa [spellMembers_eq, same] using listed_respells type .closeAngle

theorem tail_respells : Respells (IsTail P) (IsTail Q) spellTail := by
  rintro tail ls ⟨spelled, kept⟩
  cases spelled with
  | none => exact ⟨.none, rfl⟩
  | value args =>
    have again := listed_respells type .closeAngle ⟨args, by simpa using kept⟩
    exact ⟨.value again.1, by simpa [spellTail] using again.2⟩
  | entry args =>
    have again := listed_respells type .closeAngle ⟨args, by simpa using kept⟩
    exact ⟨.entry again.1, by simpa [spellTail] using again.2⟩

theorem body_respells : Respells (IsShapeBody P) (IsShapeBody Q) fun body =>
    spellBody (spellItems body.1) body.2.1 (spellTail body.2.2) := by
  rintro body ls ⟨spelled, kept⟩
  simp only [spellItems_eq]
  induction spelled with
  | close => exact ⟨.close, by simp [spellBody, listed]⟩
  | unsealed comma args =>
    simp only [List.all_cons, List.all_append, Bool.and_eq_true] at kept
    have again := tail_respells type ⟨args, kept.2.1⟩
    exact ⟨.unsealed false again.1, by simp [spellBody, again.2]⟩
  | last item =>
    simp only [List.all_append, Bool.and_eq_true] at kept
    have again := item_respells type ⟨item, kept.1⟩
    exact ⟨.last again.1, by simp [spellBody, listed, again.2]⟩
  | @cons x ls body more item others ih =>
    simp only [List.all_append, List.all_cons, Bool.and_eq_true] at kept
    have first := item_respells type ⟨item, kept.1⟩
    have rest := ih kept.2.2
    obtain ⟨items, isSealed, tail⟩ := body
    cases isSealed with
    | false =>
      rw [List.map_cons, spellBody_cons]
      exact ⟨.cons first.1 rest.1, by
        simp only [List.all_append, List.all_cons, first.2, rest.2, isKept_mark, Bool.and_self]⟩
    | true =>
      cases items with
      | nil =>
        obtain rfl : tail = none := others.tail_eq_none rfl
        exact ⟨.last first.1, by simp [spellBody, listed, first.2]⟩
      | cons y ys =>
        exact ⟨.cons first.1 rest.1, by
          simp only [List.map_cons, spellBody, if_true, listed, List.all_append, List.all_cons,
            first.2, isKept_mark] at rest ⊢
          exact rest.2⟩

theorem param_respells : Respells (IsParam P) (IsParam Q) spellParam := by
  rintro x ls ⟨⟨value, apart⟩, kept⟩
  simp only [List.all_append, Bool.and_eq_true] at kept
  have again := type ⟨value, kept.1⟩
  exact ⟨.marked again.1 apart, by simp [spellParam, again.2, kept.2]⟩

end

/-! ### Levels -/

/-- What may stand where `rank` or more is asked for. -/
def IsAt (A : Atoms) : (rank : Nat) → Phrase Node
  | 0 => IsType A
  | 1 => IsMeet A
  | 2 => IsMember A
  | 3 => IsOperand A
  | _ => Suffixed A.closed

theorem IsAt.loosen {A : Atoms} {rank : Nat} {v : Node} {ls : List Lexeme} (h : IsAt A (rank + 1) v ls) :
    IsAt A rank v ls := by
  match rank with
  | 0 | 1 => exact .single h
  | 2 => exact .operand h
  | 3 => exact .closed h
  | _ + 4 => exact h

theorem IsAt.loosen_le {A : Atoms} {rank rank' : Nat} {v : Node} {ls : List Lexeme}
    (h : IsAt A rank v ls) (le : rank' ≤ rank) : IsAt A rank' v ls := by
  induction le with
  | refl => exact h
  | step _ ih => exact ih h.loosen

def Atoms.Signs (A : Atoms) : Prop := ∀ ⦃v ls⦄, A.signature v ls → v.rank = 3

theorem IsAt.tighten {A : Atoms} (signs : A.Signs) {rank : Nat} {v : Node} {ls : List Lexeme}
    (h : IsAt A rank v ls) (lt : rank < v.rank) : IsAt A (rank + 1) v ls := by
  match rank with
  | 0 =>
    cases h with
    | single item => exact item
    | several => cases lt
  | 1 =>
    cases h with
    | single item => exact item
    | several => exact absurd lt (Nat.lt_irrefl 1)
  | 2 =>
    cases h with
    | operand plain => exact plain
    | nullable => exact absurd lt (Nat.lt_irrefl 2)
  | 3 =>
    cases h with
    | closed atom => exact atom
    | signature atom => rw [signs atom] at lt; exact absurd lt (by decide)
  | _ + 4 => exact h

theorem IsAt.tighten_le {A : Atoms} (signs : A.Signs) {rank : Nat} {v : Node} {ls : List Lexeme}
    (h : IsType A v ls) (le : rank ≤ v.rank) : IsAt A rank v ls := by
  induction rank with
  | zero => exact h
  | succ rank ih => exact (ih (Nat.le_of_succ_le le)).tighten signs le

theorem joined_respells {m : Mark} (wrap : List Node → Node) {P Q : Phrase Node}
    {f : Node → List Lexeme} (respells : Respells P Q f) {v w : Node} {vs : List Node}
    {ls more : List Lexeme} (item : Kept P v ls) (others : Kept (Further m P) (w :: vs) more) :
    Kept (Joined m wrap Q) (wrap (v :: w :: vs)) (joinedBy m ((v :: w :: vs).map f)) := by
  have first := respells item
  have rest := further_respells respells m others
  exact ⟨.several first.1 rest.1, by
    simp only [List.map_cons, joinedBy, List.all_append, first.2] at rest ⊢
    exact rest.2⟩

/-- What is spelled with atoms of `A` can be spelled with atoms of `B`. -/
structure Atoms.Respells (A B : Atoms) : Prop where
  closed : ∀ ⦃v ls⦄, Kept A.closed v ls → ∀ rank ≤ 4, Kept (IsAt B rank) v (v.spellAt rank)
  signature : ∀ ⦃v ls⦄, Kept A.signature v ls → v.rank = 3 ∧ Kept B.signature v v.spell

section
variable {A B : Atoms} (known : A.Respells B) {v : Node} {ls : List Lexeme}
include known

theorem suffixed_respells (h : Kept (Suffixed A.closed) v ls) :
    ∀ rank ≤ 4, Kept (IsAt B rank) v (v.spellAt rank) := by
  obtain ⟨spelled, kept⟩ := h
  induction spelled with
  | base plain => exact known.closed ⟨plain, kept⟩
  | @array w ls item ih =>
    intro rank le
    simp only [List.all_append, Bool.and_eq_true] at kept
    have inner := ih kept.1 4 (Nat.le_refl 4)
    have whole : Kept (IsAt B 4) (.array w) (Node.array w).spell := by
      rw [Node.spell]
      exact ⟨.array inner.1, by
        rw [List.all_append]
        exact Bool.and_eq_true_iff.mpr ⟨inner.2, by simp⟩⟩
    rw [spellAt_of_le (n := .array w) le]
    exact whole.imp fun here => here.loosen_le le

theorem operand_respells (h : Kept (IsOperand A) v ls) :
    ∀ rank ≤ 3, Kept (IsAt B rank) v (v.spellAt rank) := by
  intro rank le
  obtain ⟨atom | atom, kept⟩ := h
  · exact suffixed_respells known ⟨atom, kept⟩ rank (Nat.le_succ_of_le le)
  · obtain ⟨same, again⟩ := known.signature ⟨atom, kept⟩
    have whole : Kept (IsAt B 3) v v.spell := again.imp .signature
    rw [spellAt_of_le (same ▸ le)]
    exact whole.imp fun here => here.loosen_le le

theorem member_respells (h : Kept (IsMember A) v ls) :
    ∀ rank ≤ 2, Kept (IsAt B rank) v (v.spellAt rank) := by
  intro rank le
  obtain ⟨plain | @⟨w, ls, inner⟩, kept⟩ := h
  · exact operand_respells known ⟨plain, kept⟩ rank (Nat.le_succ_of_le le)
  · have again := operand_respells known ⟨inner, by simpa using kept⟩ 3 (Nat.le_refl 3)
    have whole : Kept (IsAt B 2) (.nullable w) (Node.nullable w).spell := by
      rw [Node.spell]
      exact ⟨.nullable again.1, by
        rw [List.all_cons, isKept_mark, Bool.true_and]
        exact again.2⟩
    rw [spellAt_of_le (n := .nullable w) le]
    exact whole.imp fun here => here.loosen_le le

theorem meet_respells (h : Kept (IsMeet A) v ls) :
    ∀ rank ≤ 1, Kept (IsAt B rank) v (v.spellAt rank) := by
  have member : Respells (IsMember A) (IsMember B) (·.spellAt 2) := fun _ _ inner =>
    member_respells known inner 2 (Nat.le_refl 2)
  intro rank le
  obtain ⟨item | @⟨w, x, ws, ls, more, item, others⟩, kept⟩ := h
  · exact member_respells known ⟨item, kept⟩ rank (Nat.le_succ_of_le le)
  · simp only [List.all_append, Bool.and_eq_true] at kept
    have whole : Kept (IsAt B 1) (.intersection (w :: x :: ws)) _ :=
      joined_respells .intersection member ⟨item, kept.1⟩ ⟨others, kept.2⟩
    rw [spellAt_of_le (n := .intersection (w :: x :: ws)) le, Node.spell, spellMembers_eq]
    exact whole.imp fun here => here.loosen_le le

theorem type_respells : Respells (IsType A) (IsType B) Node.spell := by
  have meet : Respells (IsMeet A) (IsMeet B) (·.spellAt 1) := fun _ _ inner =>
    meet_respells known inner 1 (Nat.le_refl 1)
  rintro v ls ⟨item | @⟨w, x, ws, ls, more, item, others⟩, kept⟩
  · rw [← spellAt_zero]
    exact meet_respells known ⟨item, kept⟩ 0 (Nat.zero_le 1)
  · simp only [List.all_append, Bool.and_eq_true] at kept
    rw [Node.spell, spellMembers_eq]
    exact joined_respells .union meet ⟨item, kept.1⟩ ⟨others, kept.2⟩

theorem signature_respells (h : Kept (IsSignature A) v ls) :
    v.rank = 3 ∧ Kept (IsSignature B) v v.spell := by
  obtain ⟨@⟨name, params, ls, result, more, callee, list, returned⟩, kept⟩ := h
  simp only [List.all_cons, List.all_append, Bool.and_eq_true] at kept
  have given := listed_respells (param_respells (type_respells known)) .closeParen ⟨list, kept.2.2.1⟩
  have back := member_respells known ⟨returned, kept.2.2.2.2⟩ 2 (Nat.le_refl 2)
  refine ⟨rfl, ?_⟩
  rw [Node.spell, spellParams_eq]
  exact ⟨.callable callee given.1 back.1, by
    simp only [List.all_cons, List.all_append, kept.1, given.2, isKept_mark, Bool.true_and]
    exact back.2⟩

end

theorem atoms_signs (budget : Nat) : (atoms budget).Signs := by
  cases budget with
  | zero => exact fun _ _ none => none.elim
  | succ budget => rintro v ls ⟨⟩; rfl

theorem closed_respells {budget more : Nat} (le : budget ≤ more)
    (type : Respells (IsType (atoms budget)) (IsType (atoms more)) Node.spell) {v : Node}
    {ls : List Lexeme} (h : Kept (ClosedOver (IsConst budget) (atoms budget)) v ls) :
    (∃ ls, Kept (IsType (atoms budget)) v ls) ∨
      v.rank = 4 ∧ Kept (ClosedOver (IsConst more) (atoms more)) v v.spell := by
  obtain ⟨closed, kept⟩ := h
  cases closed with
  | @group _ ls inner => exact .inl ⟨ls, inner, by simpa using kept⟩
  | this => exact .inr ⟨rfl, .this, kept⟩
  | const value opens =>
    have again := const_respells le ⟨value, kept⟩
    obtain ⟨l, ls, text, opens⟩ := opensConst_spell value opens
    refine .inr ⟨rfl, ?_⟩
    rw [Node.spell]
    rw [text] at again ⊢
    exact ⟨.const again.1 opens, again.2⟩
  | name text => exact .inr ⟨rfl, .name text, kept⟩
  | fetch fetched =>
    simp only [List.all_cons, Bool.and_eq_true] at kept
    obtain ⟨name, rfl, same⟩ := fetch_spelled fetched kept.2.2
    refine .inr ⟨rfl, ?_⟩
    rw [Node.spell, Const.spell, same]
    exact ⟨.fetch fetched, by simp [kept.1, kept.2.2]⟩
  | generic list =>
    simp only [List.all_cons, Bool.and_eq_true] at kept
    have again := args_respells type ⟨list, kept.2.2⟩
    refine .inr ⟨rfl, ?_⟩
    rw [Node.spell]
    refine ⟨.generic again.1, ?_⟩
    show (List.all (.name _ :: .mark .openAngle :: _) Lexeme.isKept) = true
    simp only [List.all_cons, kept.1, again.2, isKept_mark, Bool.and_self]
  | @arrayShape body ls kind items =>
    simp only [List.all_cons, Bool.and_eq_true] at kept
    have again := body_respells type ⟨items, kept.2.2⟩
    refine .inr ⟨rfl, ?_⟩
    rw [Node.spell]
    exact ⟨@ClosedOver.arrayShape _ _ body _ kind again.1, by
      simp only [List.all_cons, kept.1, again.2, isKept_mark, Bool.and_self]⟩
  | objectShape list =>
    simp only [List.all_cons, Bool.and_eq_true] at kept
    have again := listed_respells (objectItem_respells type) .closeCurly ⟨list, kept.2.2⟩
    refine .inr ⟨rfl, ?_⟩
    rw [Node.spell, spellItems_eq]
    exact ⟨.objectShape again.1, by
      simp only [List.all_cons, kept.1, again.2, isKept_mark, Bool.and_self]⟩

theorem atoms_respells {budget more : Nat} (within : budget ≤ more) :
    (atoms budget).Respells (atoms more) := by
  -- What stands in brackets is read with one level less than the atom they make.
  induction budget generalizing more with
  | zero => exact ⟨fun _ _ none => none.1.elim, fun _ _ none => none.1.elim⟩
  | succ budget ih =>
    obtain ⟨more, rfl⟩ : ∃ less, more = less + 1 := ⟨more - 1, by omega⟩
    have le := Nat.le_of_succ_le_succ within
    have type := type_respells (ih le)
    refine ⟨?_, fun v ls h => signature_respells (ih le) h⟩
    intro v ls h rank low
    obtain ⟨ls, inner⟩ | ⟨same, whole⟩ := closed_respells le type h
    case inr =>
      have whole : Kept (IsAt (atoms (more + 1)) 4) v v.spell := whole.imp .base
      rw [spellAt_of_le (same ▸ low)]
      exact whole.imp fun here => here.loosen_le low
    rcases Nat.lt_or_ge v.rank rank with loose | tight
    · -- The parentheses stay, and pay for what they enclose.
      have again := type inner
      have text : v.spellAt rank = .mark .openParen :: (v.spell ++ [.mark .closeParen]) := by
        simp [Node.spellAt, grouped, loose]
      have whole : Kept (IsAt (atoms (more + 1)) 4) v (v.spellAt rank) := by
        rw [text]
        exact ⟨.base (.group again.1), by simpa using again.2⟩
      exact whole.imp fun here => here.loosen_le low
    · have again := type_respells (ih (Nat.le_succ_of_le le)) inner
      rw [spellAt_of_le tight]
      exact again.imp fun here => IsAt.tighten_le (atoms_signs _) here tight

/-! ### Texts -/

theorem exists_kept_of_readPrefix {s : String} {n : Node} {stop : Nat}
    (h : readPrefix s = .ok (n, stop)) : ∃ ls, Kept (IsType (atoms maxDepth)) n ls := by
  obtain ⟨r, ok, pair⟩ := map_eq_ok.mp h
  obtain ⟨rfl, -⟩ := Prod.mk.inj pair
  obtain ⟨used, split, -, spelled⟩ := typeRead_sound ok 0
  have legible := legible_of_isTidy split (IsType.shapedWithin spelled).tidy
  refine ⟨lexemes used, spelled, List.all_eq_true.mpr fun l member => ?_⟩
  cases float : l.isFloat with
  | true => simp [Lexeme.isKept, float]
  | false => simp [Lexeme.isKept, isPlain_of_tokens split legible member float]

theorem spelled_of_read {s : String} {n : Node} (h : read s = .ok n) :
    Kept (IsType (atoms maxDepth)) n n.spell := by
  obtain ⟨stop, front, -⟩ := read_iff_readPrefix.mp h
  obtain ⟨ls, kept⟩ := exists_kept_of_readPrefix front
  exact type_respells (atoms_respells (Nat.le_refl maxDepth)) kept

/-- What is printed is read as what was read, however it was written then. -/
theorem read_print (s : String) (n : Node) (h : read s = .ok n) (exact : n.hasFloat = false) :
    read (print n) = .ok n := by
  obtain ⟨spelled, kept⟩ := spelled_of_read h
  have plain : ∀ l ∈ n.spell, l.isPlain = true := by
    intro l member
    have free := List.any_eq_false.mp (Node.floatFree exact) l member
    have kept := List.all_eq_true.mp kept l member
    simpa [Lexeme.isKept, free] using kept
  refine read_of_spelled spelled ?_
  rw [tokens, print, String.toList_ofList]
  exact lexemes_write plain 0

theorem lexemes_group : lexemes (tokens "( a|(b) )[]") = [.mark .openParen, .name "a", .mark .pipe,
    .mark .openParen, .name "b", .mark .closeParen, .mark .closeParen, .mark .openSquare,
    .mark .closeSquare] ++ [.finish] := by
  have text : "( a|(b) )[]".toList = ['(', ' ', 'a', '|', '(', 'b', ')', ' ', ')', '[', ']'] := rfl
  rw [tokens, text, tokensFrom_scan (c := '(') (l := .mark .openParen) (n := 0) (by rfl) (by rfl),
    tokensFrom_scan (c := 'a') (l := .name "a") (n := 0) (by rfl) (by rfl),
    tokensFrom_scan (c := '|') (l := .mark .pipe) (n := 0) (by rfl) (by rfl),
    tokensFrom_scan (c := '(') (l := .mark .openParen) (n := 0) (by rfl) (by rfl),
    tokensFrom_scan (c := 'b') (l := .name "b") (n := 0) (by rfl) (by rfl),
    tokensFrom_scan (c := ')') (l := .mark .closeParen) (n := 0) (by rfl) (by rfl),
    tokensFrom_scan (c := ')') (l := .mark .closeParen) (n := 0) (by rfl) (by rfl),
    tokensFrom_scan (c := '[') (l := .mark .openSquare) (n := 0) (by rfl) (by rfl),
    tokensFrom_scan (c := ']') (l := .mark .closeSquare) (n := 0) (by rfl) (by rfl),
    tokensFrom_blank (by rfl)]
  rfl

/-- Parentheses stay where a suffix needs them, and only there. -/
theorem read_print_group : read "( a|(b) )[]" = .ok (.array (.union [.name "a", .name "b"])) ∧
    print (.array (.union [.name "a", .name "b"])) = "(a|b)[]" ∧
    read (print (.array (.union [.name "a", .name "b"]))) =
      .ok (.array (.union [.name "a", .name "b"])) := by
  have word (budget : Nat) (text : String) : IsType (atoms (budget + 1)) (.name text) [.name text] :=
    .single (.single (.operand (.closed (.base (.name text)))))
  have first : IsMeet (atoms 127) (.name "a") [.name "a"] :=
    .single (.operand (.closed (.base (.name "a"))))
  have second : IsMeet (atoms 127) (.name "b")
      (.mark .openParen :: ([.name "b"] ++ [.mark .closeParen])) :=
    .single (.operand (.closed (.base (.group (word 125 "b")))))
  have union : IsType (atoms 127) (.union [.name "a", .name "b"]) _ :=
    .several first (.cons second .nil)
  have read : read "( a|(b) )[]" = .ok (.array (.union [.name "a", .name "b"])) :=
    read_of_spelled (.single (.single (.operand (.closed (.array (.base (.group union)))))))
      lexemes_group
  exact ⟨read, by decide, read_print _ _ read rfl⟩

end TypeHints.Hint
