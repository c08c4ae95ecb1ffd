import TypeHints.Proofs.Json.Scalars

namespace TypeHints.Json
open Text

/-! ### Steps of the reader -/

/-- The value was read, with this much of the text left behind it. -/
def Reading.Gives {cs : List Char} {α : Type} (r : Reading cs α) (value : α) (left : List Char) :
    Prop :=
  r.1 = value ∧ r.2.map Subtype.val = some left

theorem Reading.Gives.eq {cs : List Char} {α : Type} {r : Reading cs α} {value : α}
    {left : List Char} (h : r.Gives value left) : ∃ fewer, r = (value, some ⟨left, fewer⟩) := by
  obtain ⟨v, l⟩ := r
  obtain ⟨rfl, isSome⟩ := h
  obtain ⟨⟨l, fewer⟩, rfl, rfl⟩ := Option.map_eq_some_iff.mp isSome
  exact ⟨fewer, rfl⟩

section Steps

variable {cs start rest left left' : List Char}

theorem length_shown {c : Char} (shown : skipBlanks cs = c :: rest) : rest.length < cs.length := by
  have := shown ▸ length_skipBlanks cs
  simp only [List.length_cons] at this
  omega

theorem readValue_string {label : Label} {n : Nat} (shown : skipBlanks cs = '"' :: rest)
    (read : readLabel rest = (label, .ok n)) :
    (readValue cs).Gives label.document (rest.drop n) := by
  rw [readValue]
  split
  next h => rw [shown] at h; cases h
  next h =>
    cases shown.symm.trans h
    simp only [if_true]
    split
    next h => cases read.symm.trans h
    next h =>
      cases read.symm.trans h
      cases label <;> exact ⟨rfl, rfl⟩

theorem readValue_list {items : List Document} (shown : skipBlanks cs = '[' :: rest)
    (read : (readItems true rest).Gives (items, none) left) :
    (readValue cs).Gives (.list items none) left := by
  obtain ⟨_, read⟩ := read.eq
  rw [readValue]
  split
  next h => rw [shown] at h; cases h
  next h =>
    cases shown.symm.trans h
    simp only [Char.reduceEq, if_false, if_true, read]
    exact ⟨rfl, rfl⟩

theorem readValue_object {members : List (Label × Document)} (shown : skipBlanks cs = '\x7b' :: rest)
    (read : (readMembers true rest).Gives (members, none) left) :
    (readValue cs).Gives (.object members none) left := by
  obtain ⟨_, read⟩ := read.eq
  rw [readValue]
  split
  next h => rw [shown] at h; cases h
  next h =>
    cases shown.symm.trans h
    simp only [Char.reduceEq, if_false, if_true, read]
    exact ⟨rfl, rfl⟩

theorem readValue_scalar {c : Char} {s : Scalar} (shown : skipBlanks cs = c :: rest)
    (plain : c ∉ ['"', '[', '\x7b']) (read : readScalar c (c :: rest) = s) {d : Document} {n : Nat}
    (taken : s = .whole d (n + 1) ∨
      ∃ fault, s = .undecodable fault (n + 1) ∧ d = .broken (some c) fault none) :
    (readValue cs).Gives d (rest.drop n) := by
  simp only [List.mem_cons, List.not_mem_nil, or_false, not_or] at plain
  rw [readValue]
  split
  next h => rw [shown] at h; cases h
  next h =>
    cases shown.symm.trans h
    simp only [plain, if_false, read]
    rcases taken with rfl | ⟨fault, rfl, rfl⟩ <;> exact ⟨rfl, rfl⟩

theorem listTurn_closed (shown : skipBlanks cs = ']' :: rest) (first : Bool) :
    ∃ shorter, listTurn first cs = .closed rest shorter := by
  rw [listTurn]
  split
  next h => rw [shown] at h; cases h
  next h =>
    cases shown.symm.trans h
    exact ⟨length_shown shown, if_pos rfl⟩

theorem listTurn_first {c : Char} (shown : skipBlanks cs = c :: rest) (open' : c ≠ ']') :
    ∃ bound, listTurn true cs = .item (c :: rest) bound := by
  rw [listTurn]
  split
  next h => rw [shown] at h; cases h
  next h =>
    cases shown.symm.trans h
    exact ⟨length_shown shown, (if_neg open').trans (if_pos rfl)⟩

theorem listTurn_next {c : Char} (shown : skipBlanks cs = ',' :: rest)
    (behind : skipBlanks rest = c :: left) (open' : c ≠ ']') :
    ∃ bound, listTurn false cs = .item (c :: left) bound := by
  rw [listTurn]
  split
  next h => rw [shown] at h; cases h
  next h =>
    cases shown.symm.trans h
    simp only [Char.reduceEq, if_false, if_true, Bool.false_eq_true]
    split
    next h => rw [behind] at h; cases h
    next h =>
      cases behind.symm.trans h
      exact ⟨Nat.lt_trans (length_shown behind) (length_shown shown), if_neg open'⟩

theorem readItems_closed (shown : skipBlanks cs = ']' :: rest) (first : Bool) :
    (readItems first cs).Gives ([], none) rest := by
  obtain ⟨_, turn⟩ := listTurn_closed shown first
  rw [readItems, turn]
  exact ⟨rfl, rfl⟩

theorem readItems_item {first : Bool} {d : Document} {items : List Document}
    (turn : ∃ bound, listTurn first cs = .item start bound) (read : (readValue start).Gives d left)
    (others : (readItems false left).Gives (items, none) left') :
    (readItems first cs).Gives (d :: items, none) left' := by
  obtain ⟨_, turn⟩ := turn
  obtain ⟨_, read⟩ := read.eq
  obtain ⟨_, others⟩ := others.eq
  rw [readItems, turn]
  simp only [read, others]
  exact ⟨rfl, rfl⟩

theorem objectTurn_closed (shown : skipBlanks cs = '\x7d' :: rest) (first : Bool) :
    ∃ shorter, objectTurn first cs = .closed rest shorter := by
  rw [objectTurn]
  split
  next h => rw [shown] at h; cases h
  next h =>
    cases shown.symm.trans h
    exact ⟨length_shown shown, if_pos rfl⟩

theorem objectTurn_first (shown : skipBlanks cs = '"' :: rest) :
    ∃ bound, objectTurn true cs = .item rest bound := by
  rw [objectTurn]
  split
  next h => rw [shown] at h; cases h
  next h =>
    cases shown.symm.trans h
    exact ⟨Nat.le_of_lt (length_shown shown), rfl⟩

theorem objectTurn_next (shown : skipBlanks cs = ',' :: rest)
    (behind : skipBlanks rest = '"' :: left) :
    ∃ bound, objectTurn false cs = .item left bound := by
  rw [objectTurn]
  split
  next h => rw [shown] at h; cases h
  next h =>
    cases shown.symm.trans h
    simp only [Char.reduceEq, if_false, if_true, Bool.false_eq_true]
    split
    next h => rw [behind] at h; cases h
    next h =>
      cases behind.symm.trans h
      exact ⟨Nat.le_of_lt (Nat.lt_trans (length_shown behind) (length_shown shown)), rfl⟩

theorem readMembers_closed (shown : skipBlanks cs = '\x7d' :: rest) (first : Bool) :
    (readMembers first cs).Gives ([], none) rest := by
  obtain ⟨_, turn⟩ := objectTurn_closed shown first
  rw [readMembers, turn]
  exact ⟨rfl, rfl⟩

theorem readMembers_member {first : Bool} {label : Label} {n : Nat} {d : Document}
    {members : List (Label × Document)} (turn : ∃ bound, objectTurn first cs = .item start bound)
    (name : readLabel start = (label, .ok n)) (colon : skipBlanks (start.drop n) = ':' :: rest)
    (read : (readValue rest).Gives d left)
    (others : (readMembers false left).Gives (members, none) left') :
    (readMembers first cs).Gives ((label, d) :: members, none) left' := by
  obtain ⟨_, turn⟩ := turn
  obtain ⟨_, read⟩ := read.eq
  obtain ⟨_, others⟩ := others.eq
  rw [readMembers, turn]
  simp only [name]
  split
  next h => rw [colon] at h; cases h
  next h =>
    cases colon.symm.trans h
    simp only [if_true, read, others]
    exact ⟨rfl, rfl⟩

end Steps

/-! ### The grammar is read as it derives -/

theorem skipBlanks_skipBlanks (cs : List Char) : skipBlanks (skipBlanks cs) = skipBlanks cs :=
  dropWhile_barred (barred_dropWhile _ cs)

theorem isDigit_visible {c : Char} (h : c.isDigit = true) : isJsonBlank c = false := by
  simp only [isJsonBlank, Bool.or_eq_false_iff, beq_eq_false_iff_ne]
  refine ⟨⟨⟨?_, ?_⟩, ?_⟩, ?_⟩ <;> rintro rfl <;> exact absurd h (by decide)

namespace Numeral

theorem IsValid.head {n : Numeral} (valid : n.IsValid) :
    ∃ c cs, n.text = c :: cs ∧ (c = '-' ∨ c.isDigit = true) := by
  obtain ⟨c, cs, whole⟩ : ∃ c cs, n.whole = c :: cs := List.exists_cons_of_ne_nil valid.digits.1
  cases negative : n.negative with
  | true => exact ⟨'-', _, by simp [text, negative]; rfl, .inl rfl⟩
  | false =>
    refine ⟨c, cs ++ (fractionText n.fraction ++ exponentText n.exponent), ?_, .inr ?_⟩
    · simp [text, negative, whole]
    · exact valid.digits.2 c (by simp [whole])

end Numeral

theorem readValue_number {n : Numeral} (valid : n.IsValid) {cs rest : List Char}
    (ends : Barred lengthens rest) (shown : skipBlanks cs = n.text ++ rest) :
    (readValue cs).Gives n.document rest := by
  obtain ⟨c, behind, text, start⟩ := valid.head
  have read : readScalar c (n.text ++ rest) = n.scalar := by
    have number : (decide (c = '-') || c.isDigit) = true := by simpa using start
    have noWord : c ≠ 'n' ∧ c ≠ 't' ∧ c ≠ 'f' := by
      refine ⟨?_, ?_, ?_⟩ <;> rintro rfl <;> simp at start
    simp only [readScalar, noWord, if_false, number, if_true]
    exact readNumber_text valid ends
  have plain : c ∉ ['"', '[', '\x7b'] := by
    intro member
    simp only [List.mem_cons, List.not_mem_nil, or_false] at member
    rcases member with rfl | rfl | rfl <;> simp at start
  have taken : n.text.length = behind.length + 1 := by rw [text]; rfl
  rw [text, List.cons_append] at shown read
  have result := readValue_scalar shown plain read (d := n.document) (n := behind.length) (by
    rw [← taken, Numeral.document]
    obtain ⟨i, scalar⟩ | ⟨x, scalar⟩ | scalar := n.scalar_cases <;> rw [scalar]
    · exact .inl rfl
    · exact .inl rfl
    · exact .inr ⟨_, rfl, by rw [text]; rfl⟩)
  rwa [List.drop_left] at result

theorem TextOf.head {d : Document} {cs : List Char} (h : TextOf d cs) :
    ∃ c rest, cs = c :: rest ∧ isJsonBlank c = false ∧ c ≠ ']' := by
  cases h with
  | number valid =>
    obtain ⟨c, rest, text, start⟩ := valid.head
    refine ⟨c, rest, text, ?_⟩
    rcases start with rfl | isDigit
    · decide
    · refine ⟨isDigit_visible isDigit, ?_⟩
      rintro rfl
      simp at isDigit
  | bool value => cases value <;> exact ⟨_, _, rfl, by decide, by decide⟩
  | _ => exact ⟨_, _, rfl, by decide, by decide⟩

theorem TextOf.shown {d : Document} {cs : List Char} (h : TextOf d cs) (rest : List Char) :
    skipBlanks (cs ++ rest) = cs ++ rest := by
  obtain ⟨c, more, rfl, visible, -⟩ := h.head
  exact skipBlanks_visible visible _

theorem PaddedOf.head {d : Document} {cs : List Char} (h : PaddedOf d cs) (rest : List Char) :
    ∃ c more, skipBlanks (cs ++ rest) = c :: more ∧ c ≠ ']' := by
  obtain ⟨blank, text, _⟩ := h
  rw [List.append_assoc, skipBlanks_append blank, List.append_assoc, text.shown]
  obtain ⟨c, more, rfl, -, noBracket⟩ := text.head
  exact ⟨c, _, rfl, noBracket⟩

theorem ItemsOf.head {items : List Document} {cs : List Char} (h : ItemsOf items cs)
    (rest : List Char) : ∃ c more, skipBlanks (cs ++ rest) = c :: more ∧ c ≠ ']' := by
  cases h with
  | last item => exact item.head rest
  | cons item _ =>
    rw [List.append_assoc]
    exact item.head _

theorem barred_blanks {blanks rest : List Char} (blank : IsBlanks blanks) (h : Barred lengthens rest) :
    Barred lengthens (blanks ++ rest) := by
  cases blanks with
  | nil => exact h
  | cons c blanks =>
    have isBlank := blank c List.mem_cons_self
    simp only [isJsonBlank, Bool.or_eq_true, beq_iff_eq] at isBlank
    rcases isBlank with ((rfl | rfl) | rfl) | rfl <;> simp [lengthens]

theorem MemberOf.head {m : Label × Document} {cs : List Char} (h : MemberOf m cs) (rest : List Char) :
    ∃ start, skipBlanks (cs ++ rest) = '"' :: start := by
  obtain ⟨blank, _, _, _⟩ := h
  rw [List.append_assoc, skipBlanks_append blank]
  exact ⟨_, skipBlanks_visible (by decide) _⟩

theorem MembersOf.head {members : List (Label × Document)} {cs : List Char}
    (h : MembersOf members cs) (rest : List Char) :
    ∃ start, skipBlanks (cs ++ rest) = '"' :: start := by
  cases h with
  | last member => exact member.head rest
  | cons member _ =>
    rw [List.append_assoc]
    exact member.head _

theorem skipBlanks_named {content named : List Char} (blank : IsBlanks named) (behind : List Char) :
    skipBlanks ((content ++ '"' :: (named ++ ':' :: behind)).drop (content.length + 1)) =
      ':' :: behind := by
  have rest : (content ++ '"' :: (named ++ ':' :: behind)).drop (content.length + 1) =
      named ++ ':' :: behind := by
    rw [List.drop_append, List.drop_eq_nil_of_le (Nat.le_succ _)]
    simp
  rw [rest, skipBlanks_append blank]
  exact skipBlanks_visible (by decide) _

-- The induction is on the derivation: a text is read up to the bracket or the comma behind it, which
-- no number goes on with, and blanks there are skipped by whatever reads on.
mutual

theorem TextOf.read {d : Document} {cs : List Char} (h : TextOf d cs) {inp rest : List Char}
    (ends : Barred lengthens rest) (shown : skipBlanks inp = cs ++ rest) :
    (readValue inp).Gives d rest := by
  match h with
  | .null => exact readValue_scalar (n := 3) shown (by decide) rfl (.inl rfl)
  | .bool true => exact readValue_scalar (n := 3) shown (by decide) rfl (.inl rfl)
  | .bool false => exact readValue_scalar (n := 4) shown (by decide) rfl (.inl rfl)
  | .number valid => exact readValue_number valid ends shown
  | @TextOf.text content valid =>
    simp only [List.cons_append, List.append_assoc, List.nil_append] at shown
    have result := readValue_string shown (readLabel_content valid rest)
    rwa [List.drop_append, List.drop_eq_nil_of_le (Nat.le_succ _), Nat.add_sub_cancel_left] at result
  | .noItems blank =>
    simp only [List.cons_append, List.append_assoc, List.nil_append] at shown
    refine readValue_list shown (readItems_closed ?_ true)
    rw [skipBlanks_append blank]
    exact skipBlanks_visible (by decide) _
  | .list given =>
    simp only [List.cons_append, List.append_assoc, List.nil_append] at shown
    obtain ⟨c, more, head, noBracket⟩ := given.head (']' :: rest)
    refine readValue_list shown (given.read (listTurn_first head noBracket) ?_)
    rw [← head, skipBlanks_skipBlanks]
  | .noMembers blank =>
    simp only [List.cons_append, List.append_assoc, List.nil_append] at shown
    refine readValue_object shown (readMembers_closed ?_ true)
    rw [skipBlanks_append blank]
    exact skipBlanks_visible (by decide) _
  | .object given =>
    simp only [List.cons_append, List.append_assoc, List.nil_append] at shown
    obtain ⟨start, head⟩ := given.head ('\x7d' :: rest)
    exact readValue_object shown (given.read (objectTurn_first head) head)

theorem PaddedOf.read {d : Document} {cs : List Char} (h : PaddedOf d cs) {inp rest : List Char}
    (ends : Barred lengthens rest) (shown : skipBlanks inp = skipBlanks (cs ++ rest)) :
    ∃ left, (readValue inp).Gives d left ∧ skipBlanks left = skipBlanks rest := by
  match h with
  | @PaddedOf.padded _ _ _ after blank text blank' =>
    refine ⟨after ++ rest, text.read (barred_blanks blank' ends) ?_, skipBlanks_append blank' _⟩
    rw [shown, List.append_assoc, skipBlanks_append blank, List.append_assoc, text.shown]

theorem ItemsOf.read {items : List Document} {cs : List Char} (h : ItemsOf items cs) {first : Bool}
    {inp start rest : List Char} (turn : ∃ bound, listTurn first inp = .item start bound)
    (shown : skipBlanks start = skipBlanks (cs ++ ']' :: rest)) :
    (readItems first inp).Gives (items, none) rest := by
  match h with
  | .last item =>
    obtain ⟨left, read, behind⟩ := item.read (by simp [lengthens]) shown
    exact readItems_item turn read (readItems_closed behind false)
  | .cons item others =>
    rw [List.append_assoc] at shown
    obtain ⟨left, read, behind⟩ := item.read (by simp [lengthens]) shown
    obtain ⟨c, more, head, noBracket⟩ := others.head (']' :: rest)
    refine readItems_item turn read (others.read (listTurn_next behind head noBracket) ?_)
    rw [← head, skipBlanks_skipBlanks]

theorem MemberOf.read {m : Label × Document} {cs : List Char} (h : MemberOf m cs)
    {start rest : List Char} (ends : Barred lengthens rest)
    (shown : skipBlanks (cs ++ rest) = '"' :: start) :
    ∃ n behind left, readLabel start = (m.1, .ok n) ∧ skipBlanks (start.drop n) = ':' :: behind ∧
      (readValue behind).Gives m.2 left ∧ skipBlanks left = skipBlanks rest := by
  match h with
  | @MemberOf.member content _ _ named cs blank name blank' value =>
    rw [List.append_assoc, skipBlanks_append blank, List.cons_append,
      skipBlanks_visible (by decide)] at shown
    simp only [List.append_assoc, List.cons_append, List.cons.injEq, true_and] at shown
    subst shown
    obtain ⟨left, read, behind⟩ := value.read ends (Eq.refl (skipBlanks (cs ++ rest)))
    exact ⟨_, _, left, readLabel_content name _, skipBlanks_named blank' _, read, behind⟩

theorem MembersOf.read {members : List (Label × Document)} {cs : List Char} (h : MembersOf members cs)
    {first : Bool} {inp start rest : List Char}
    (turn : ∃ bound, objectTurn first inp = .item start bound)
    (shown : skipBlanks (cs ++ '\x7d' :: rest) = '"' :: start) :
    (readMembers first inp).Gives (members, none) rest := by
  match h with
  | .last member =>
    obtain ⟨_, _, left, name, colon, read, behind⟩ := member.read (by simp [lengthens]) shown
    exact readMembers_member turn name colon read (readMembers_closed behind false)
  | .cons member others =>
    rw [List.append_assoc] at shown
    obtain ⟨_, _, left, name, colon, read, behind⟩ := member.read (by simp [lengthens]) shown
    obtain ⟨next, head⟩ := others.head ('\x7d' :: rest)
    exact readMembers_member turn name colon read (others.read (objectTurn_next behind head) head)

end

theorem ofString_of_isJson {text : String} {d : Document} (h : IsJson text d) :
    Document.ofString text = d := by
  have shown : skipBlanks text.toList = skipBlanks (text.toList ++ []) := by rw [List.append_nil]
  obtain ⟨left, ⟨read, -⟩, -⟩ := PaddedOf.read h (barred_nil _) shown
  exact read

end TypeHints.Json
