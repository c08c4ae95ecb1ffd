import Mathlib.Data.List.TakeWhile
import TypeHints.Proofs.Hint.Completeness
import TypeHints.Resolve.Hint
import TypeHints.DocBlock

/-!
# Where a type expression ends

`readPrefix` looks beyond the type that it reads, at tokens and at characters. Still the end that it
reports can be cut at: the cut text is read as the same type. So the types that doc comments hand
out are type expressions.
-/
namespace TypeHints.Hint
open Text Decimal

/-! ### Tokens end in something visible -/

theorem visible_takeName {inside : Bool} {cs : List Char} :
    ∀ d ∈ takeName inside cs, isBlank d = false := by
  intro d member
  rcases of_mem_takeName member with go | rfl
  · exact visible_of_isNameChar go
  · decide

theorem visible_of_isDigitOrGap {c : Char} (h : isDigitOrGap c = true) : isBlank c = false :=
  visible_of_isNameChar (isNameChar_of_isDigitOrGap h)

theorem visible_takeFraction (cs : List Char) : ∀ d ∈ takeFraction cs, isBlank d = false := by
  rcases takeFraction_cases cs with none | ⟨digits, back, -, same, -, inside, -⟩
  · simp [none]
  · rw [same]
    exact List.forall_mem_cons.mpr ⟨by decide, fun d member => visible_of_isDigitOrGap (inside d member)⟩

theorem visible_takeExponent (cs : List Char) : ∀ d ∈ takeExponent cs, isBlank d = false := by
  rcases takeExponent_cases cs with none | ⟨e, sign, digits, back, -, same, letter, signed, -, inside, -⟩
  · simp [none]
  · rw [same]
    refine List.forall_mem_cons.mpr ⟨by rcases letter with rfl | rfl <;> decide, ?_⟩
    refine List.forall_mem_append.mpr ⟨fun d member => ?_, ?_⟩
    · have sign : d = '+' ∨ d = '-' := by rcases signed with rfl | rfl | rfl <;> simp_all
      rcases sign with rfl | rfl <;> decide
    exact fun d member => visible_of_isDigitOrGap (by simp [isDigitOrGap, inside d member])

theorem visible_numberLexeme {cs : List Char} {l : Lexeme} {k : Nat} (read : numberLexeme cs = (l, k)) :
    ∀ d ∈ cs.take k, isBlank d = false := by
  obtain ⟨sign, body, rfl, signed⟩ := exists_sign cs
  have visibleSign : ∀ d ∈ sign, isBlank d = false := by
    rcases signed with rfl | ⟨rfl, -⟩
    · exact List.forall_mem_singleton.mpr (by decide)
    · simp
  cases hex : isHexMarked body with
  | true =>
    obtain ⟨x, digits, back, rfl, mark, inside, stop⟩ := exists_hex hex
    rw [numberLexeme_hex (signed.imp_right And.left) mark inside stop] at read
    obtain ⟨-, rfl⟩ := Prod.mk.inj read
    have text : sign ++ '0' :: x :: (digits ++ back) = (sign ++ '0' :: x :: digits) ++ back := by simp
    rw [text, List.take_left]
    refine List.forall_mem_append.mpr ⟨visibleSign, List.forall_mem_cons.mpr ⟨by decide, ?_⟩⟩
    refine List.forall_mem_cons.mpr ⟨by rcases mark with rfl | rfl <;> decide, fun d member => ?_⟩
    rcases Bool.or_eq_true_iff.mp (inside d member) with digit | gap
    · exact visible_of_isNameChar (isNameChar_of_isHexDigit digit)
    · exact visible_of_isDigitOrGap (by simp [isDigitOrGap, gap])
  | false =>
    obtain ⟨whole, fraction, exponent, back, rfl, parts⟩ := exists_isDecimal body
    rw [numberLexeme_decimal signed hex parts] at read
    obtain ⟨-, rfl⟩ := Prod.mk.inj read
    have text : sign ++ (whole ++ (fraction ++ (exponent ++ back))) =
        (sign ++ whole ++ fraction ++ exponent) ++ back := by simp
    have inside : ∀ d ∈ whole, isDigitOrGap d = true := parts.takeWhole ▸ takeWhile_inside _ _
    have visibleFraction := visible_takeFraction (fraction ++ (exponent ++ back))
    have visibleExponent := visible_takeExponent (exponent ++ back)
    rw [parts.readFraction] at visibleFraction
    rw [parts.readExponent] at visibleExponent
    rw [text, List.take_left]
    simp only [List.forall_mem_append]
    exact ⟨⟨⟨visibleSign, fun d member => visible_of_isDigitOrGap (inside d member)⟩, visibleFraction⟩,
      visibleExponent⟩

theorem takeQuoted_ends {q : Char} {rest out : List Char} {n : Nat}
    (h : takeQuoted q rest = some (out, n)) : (rest.take n).getLast? = some q := by
  fun_induction takeQuoted q rest generalizing out n with
  | case1 => simp at h
  | case2 rest =>
    obtain ⟨rfl, rfl⟩ := by simpa using h
    simp
  | case3 => simp at h
  | case4 e rest different ih =>
    obtain ⟨out', n', read, rfl, rfl⟩ := by simpa using h
    simp [List.getLast?_cons, ih read]
  | case5 c rest other plain ih =>
    obtain ⟨out', n', read, rfl, rfl⟩ := by simpa using h
    simp [List.getLast?_cons, ih read]

theorem variableLexeme_this {rest : List Char} {n : Nat} (read : variableLexeme rest = (.this, n)) :
    rest.take n = "this".toList := by
  unfold variableLexeme at read
  split at read
  next c rest =>
    split at read
    next =>
      obtain ⟨same, rfl⟩ := Prod.mk.inj read
      split at same
      next this =>
        rw [← List.prefix_iff_eq_take.mp (List.takeWhile_prefix _)]
        exact this
      next => cases same
    next => cases (Prod.mk.inj read).1
  next => cases (Prod.mk.inj read).1

theorem Mark.endsVisibly (m : Mark) : EndsVisibly m.text.toList := by
  cases m <;> rintro _ ⟨⟩ <;> decide

theorem scan_visible {c : Char} {rest : List Char} {l : Lexeme} {n : Nat} (read : scan c rest = (l, n))
    (tidy : l.isTidyBefore none = true) : EndsVisibly (c :: rest.take n) := by
  cases scanned read with
  | mark text => rw [text]; exact Mark.endsVisibly _
  | sigil dollar read =>
    obtain rfl : l = .this := by
      unfold variableLexeme at read
      split at read
      · split at read
        · have same := (Prod.mk.inj read).1
          split at same <;> subst same <;> first | rfl | cases tidy
        · cases read; cases tidy
      · cases read; cases tidy
    rw [variableLexeme_this read, dollar]
    rintro _ ⟨⟩
    decide
  | quoted quote read =>
    unfold quotedLexeme at read
    split at read
    next out m closed =>
      cases read
      have ends := takeQuoted_ends closed
      intro d last
      rw [List.getLast?_cons, ends] at last
      cases last
      rcases quote with rfl | rfl <;> decide
    next => cases read; cases tidy
  | @number _ _ k begins read count =>
    have inside := visible_numberLexeme read
    have legible : l.isLegible = true := by
      cases l <;> first | rfl | cases tidy
    obtain ⟨m, rfl, -⟩ := numberLexeme_begins begins read legible
    rw [Nat.add_sub_cancel] at count
    subst count
    exact endsVisibly_of_forall inside
  | name inside start read count =>
    rw [count, take_length_takeName]
    refine endsVisibly_of_forall (List.forall_mem_cons.mpr ⟨?_, visible_takeName⟩)
    rcases start with ⟨-, start⟩ | ⟨-, rfl⟩
    · exact (not_of_isNameStart start).1
    · decide
  | stray => cases tidy

/-! ### Tokens of a type are legible -/

theorem isTidy_suffix {ls more : List Lexeme} (h : isTidy (ls ++ more) = true) : isTidy more = true := by
  induction ls with
  | nil => exact h
  | cons l ls ih => exact ih (Bool.and_eq_true_iff.mp h).2

/-- Tokens whose lexemes are tidy are legible: a variable without a name stands before no mark. -/
theorem legible_of_isTidy {start : Nat} {cs : List Char} {used rest : List Token}
    (h : tokensFrom start cs = used ++ rest) (tidy : isTidy (lexemes used) = true) :
    ∀ t ∈ used, t.lexeme.isLegible = true := by
  intro t member
  obtain ⟨front, back, rfl⟩ := List.append_of_mem member
  rw [lexemes_append] at tidy
  have here := (Bool.and_eq_true_iff.mp (isTidy_suffix tidy)).1
  cases same : t.lexeme with
  | malformed => rw [same] at here; cases here
  | finish => rw [same] at here; cases here
  | var name =>
    rw [same] at here
    have named : name ≠ "" := by
      rintro rfl
      cases back with
      | nil => cases here
      | cons u back =>
        rw [List.append_assoc, List.cons_append, List.cons_append] at h
        have mark := nameless_append h same
        cases next : u.lexeme with
        | mark m => exact mark m next
        | _ => simp [Lexeme.isTidyBefore, next] at here
    simpa [Lexeme.isLegible] using named
  | _ => rfl

/-! ### Whole texts and their fronts -/

theorem exists_used {ts : List Token} {ls : List Lexeme} (h : lexemes ts = ls ++ [.finish]) :
    ∃ used t, ts = used ++ [t] ∧ lexemes used = ls ∧ t.lexeme = .finish := by
  obtain ⟨used, rest, text, same, left⟩ := lexemes_eq_append.mp h
  obtain ⟨t, rest, rfl, finish, none⟩ := lexemes_eq_cons.mp left
  obtain rfl := lexemes_eq_nil.mp none
  exact ⟨used, t, text, same, finish⟩

theorem read_of_spelled {s : String} {n : Node} {ls : List Lexeme} (spelled : IsType (atoms maxDepth) n ls)
    (h : lexemes (tokens s) = ls ++ [.finish]) : read s = .ok n := by
  obtain ⟨used, t, text, same, finish⟩ := exists_used h
  have stop : continuesType [t] = false := continuesType_of_endsType (by rw [finish]; rfl) []
  obtain ⟨last, shorter, ok⟩ := (typeRead_complete spelled same stop).ok
  rw [read, text, ok]
  simp only [bind, Except.bind, finish, if_true]
  rfl

/-- A text that starts with the spelling of a type starts with the type. -/
theorem readPrefix_of_spelled {s : String} {n : Node} {used rest : List Token}
    (spelled : IsType (atoms maxDepth) n (lexemes used)) (h : tokens s = used ++ rest)
    (stop : continuesType rest = false) : readPrefix s = .ok (n, endOf 0 used) := by
  have reads := typeRead_complete spelled rfl stop
  rw [← h] at reads
  obtain ⟨last, shorter, ok⟩ := reads.ok
  obtain ⟨used', split, ends, -⟩ := typeRead_sound ok 0
  obtain rfl : used = used' := List.append_cancel_right (h.symm.trans split)
  rw [readPrefix, ok]
  exact congrArg (fun stop => Except.ok (n, stop)) ends

/-- Where a text is cut by the type that it starts with. -/
structure Cut (s : String) (n : Node) (used rest : List Token) (front back : List Char) : Prop where
  text : s.toList = front ++ back
  spelled : IsType (atoms maxDepth) n (lexemes used)
  stop : endOf 0 used = byteSize front
  tokens : tokensFrom 0 front = used ++ [⟨.finish, byteSize front, []⟩]
  left : rest = tokensFrom (byteSize front) back
  visible : EndsVisibly front
  some : front ≠ []

theorem exists_cut {s : String} {r : Read (tokens s) Node} (h : typeRead (tokens s) = .ok r) :
    ∃ used front back, Cut s r.value used r.rest front back ∧ r.last = byteSize front := by
  obtain ⟨used, split, last, spelled⟩ := typeRead_sound h 0
  have shaped := IsType.shapedWithin spelled
  obtain ⟨front, back, text, stop, again, left, ends⟩ :=
    tokensFrom_cut split (legible_of_isTidy split shaped.tidy)
  rw [Nat.zero_add] at stop again left
  have nonempty : used ≠ [] := by
    rintro rfl
    obtain ⟨l, more, none, -⟩ := shaped.opens
    cases none
  obtain ⟨init, t, rfl⟩ := (List.eq_nil_or_concat used).resolve_left nonempty
  rw [List.concat_eq_append] at *
  have tidy : t.lexeme.isTidyBefore none = true := by
    have all := shaped.tidy
    rw [lexemes_append] at all
    exact (Bool.and_eq_true_iff.mp (isTidy_suffix all)).1
  have inner : t.lexeme ≠ .finish := by
    intro finish
    rw [finish] at tidy
    cases tidy
  rw [List.append_assoc] at split
  obtain ⟨c, tail, n, read, same⟩ := token_scanned split inner
  obtain ⟨gap, rfl⟩ : t.text <:+ front := ends t (by simp)
  refine ⟨_, _, back, ⟨text, spelled, stop, again, left, ?_, ?_⟩, last.trans stop⟩
  · rw [same]
    exact (scan_visible read tidy).append (by simp) gap
  · simp [same]

theorem takeBytes_byteSize (front back : List Char) : takeBytes (byteSize front) (front ++ back) = front ∧
    dropBytes (byteSize front) (front ++ back) = back :=
  ⟨takeBytes_byteSize_append front back, dropBytes_byteSize_append front back⟩

section
variable {s : String} {n : Node} {used rest : List Token} {front back : List Char}
  (cut : Cut s n used rest front back)
include cut

theorem Cut.lexemes_front : lexemes (tokensFrom 0 front) = lexemes used ++ [.finish] := by
  rw [cut.tokens, lexemes_append]
  rfl

theorem Cut.read_front : read (String.ofList front) = .ok n := by
  refine read_of_spelled cut.spelled ?_
  rw [Hint.tokens, String.toList_ofList, cut.lexemes_front]

theorem Cut.read_trimmed : read (String.ofList (trim front)) = .ok n := by
  refine read_of_spelled cut.spelled ?_
  have moved : tokensFrom 0 (front.takeWhile isBlank ++ front.dropWhile isBlank) = _ :=
    tokensFrom_append_blank (takeWhile_inside isBlank front) 0
  rw [Hint.tokens, String.toList_ofList, trim_of_endsVisibly cut.visible cut.some,
    lexemes_tokensFrom _ _ (0 + byteSize (front.takeWhile isBlank)), ← moved,
    List.takeWhile_append_dropWhile, cut.lexemes_front]

theorem Cut.readPrefix_front : readPrefix (String.ofList front) = .ok (n, byteSize front) := by
  have text : Hint.tokens (String.ofList front) = used ++ [⟨.finish, byteSize front, []⟩] := by
    rw [Hint.tokens, String.toList_ofList, cut.tokens]
  rw [← cut.stop]
  exact readPrefix_of_spelled cut.spelled text (continuesType_of_endsType rfl [])

end

theorem exists_spelled_of_read {s : String} {n : Node} (h : read s = .ok n) :
    ∃ ls, IsType (atoms maxDepth) n ls ∧ lexemes (tokens s) = ls ++ [.finish] := by
  obtain ⟨r, ok, whole⟩ := bind_eq_ok.mp h
  obtain ⟨used, split, -, spelled⟩ := typeRead_sound ok 0
  obtain ⟨_, front, back, cut, _⟩ := exists_cut ok
  have left := cut.left
  cases same : r.rest with
  | nil => exact absurd (left.symm.trans same) (tokensFrom_ne_nil _ _)
  | cons t ts =>
    rw [same] at whole left split
    simp only at whole
    split at whole
    next finish =>
      cases whole
      have blank := (finish_of_tokensFrom left.symm).mp finish
      rw [tokensFrom_blank blank] at left
      refine ⟨lexemes used, spelled, ?_⟩
      rw [split, left, lexemes_append]
      rfl
    next => cases whole

theorem exists_cut_of_readPrefix {s : String} {n : Node} {stop : Nat}
    (h : readPrefix s = .ok (n, stop)) :
    ∃ used rest front back, Cut s n used rest front back ∧ stop = byteSize front := by
  obtain ⟨r, ok, pair⟩ := map_eq_ok.mp h
  obtain ⟨rfl, rfl⟩ := Prod.mk.inj pair
  obtain ⟨used, front, back, cut, last⟩ := exists_cut ok
  exact ⟨used, r.rest, front, back, cut, last⟩

theorem read_iff_readPrefix {s : String} {n : Node} : read s = .ok n ↔
    ∃ stop, readPrefix s = .ok (n, stop) ∧ ∀ c ∈ dropBytes stop s.toList, isBlank c = true := by
  have blank {cs : List Char} : cs.dropWhile isBlank = [] ↔ ∀ c ∈ cs, isBlank c = true :=
    List.dropWhile_eq_nil_iff
  constructor
  · intro h
    obtain ⟨r, ok, h⟩ := bind_eq_ok.mp h
    obtain ⟨used, front, back, cut, last⟩ := exists_cut ok
    have behind : dropBytes r.last s.toList = back := by
      rw [last, cut.text, (takeBytes_byteSize front back).2]
    split at h
    next t ts left =>
      split at h
      next finish =>
        cases h
        refine ⟨r.last, by rw [readPrefix, ok]; rfl, ?_⟩
        rw [behind, ← blank]
        exact (finish_of_tokensFrom (cut.left.symm.trans left)).mp finish
      next => cases h
    next none => exact absurd (cut.left.symm.trans none) (tokensFrom_ne_nil _ _)
  · rintro ⟨stop, h, blanks⟩
    obtain ⟨r, ok, pair⟩ := map_eq_ok.mp h
    obtain ⟨rfl, rfl⟩ := Prod.mk.inj pair
    obtain ⟨used, front, back, cut, last⟩ := exists_cut ok
    have behind : dropBytes r.last s.toList = back := by
      rw [last, cut.text, (takeBytes_byteSize front back).2]
    rw [behind, ← blank] at blanks
    rw [read, ok]
    simp only [bind, Except.bind]
    split
    next t ts left =>
      rw [if_pos ((finish_of_tokensFrom (cut.left.symm.trans left)).mpr blanks)]
      rfl
    next => rfl

end TypeHints.Hint

/-! ### Doc comments -/

namespace TypeHints
open Text Hint

/-- The texts of types that a doc block hands out. -/
def DocBlock.Offers (b : DocBlock) (text : String) : Prop :=
  (∃ parameter, b.paramType? parameter = some text) ∨ b.varType? = some text ∨
    b.returnType? = some text ∨ ∃ t ∈ b.templates, t.bound = some text

theorem DocBlock.read_of_splitType {body rest : List Char} {text : String}
    (h : splitType body = some (text, rest)) : ∃ n, read text = .ok n := by
  unfold splitType at h
  split at h
  next n stop ok =>
    obtain ⟨rfl, -⟩ := Prod.mk.inj (Option.some.inj h)
    obtain ⟨used, rest, front, back, cut, rfl⟩ := exists_cut_of_readPrefix ok
    have text := cut.text
    rw [String.toList_ofList] at text
    rw [text, (takeBytes_byteSize front back).1]
    exact ⟨n, cut.read_trimmed⟩
  next => cases h

theorem DocBlock.read_of_firstType? {tags : List DocTag} {text : String}
    (h : firstType? tags = some text) : ∃ n, read text = .ok n := by
  obtain ⟨tag, -, some⟩ := List.exists_of_findSome?_eq_some h
  obtain ⟨⟨type, rest⟩, split, rfl⟩ := Option.map_eq_some_iff.mp some
  exact read_of_splitType split

theorem DocBlock.read_of_offers {b : DocBlock} {text : String} (h : b.Offers text) :
    ∃ n, read text = .ok n := by
  rcases h with ⟨parameter, h⟩ | h | h | ⟨t, member, h⟩
  · obtain ⟨tag, -, some⟩ := List.exists_of_findSome?_eq_some h
    split at some
    next type name split =>
      split at some
      next =>
        cases some
        obtain ⟨⟨type, rest⟩, first, named⟩ := Option.bind_eq_some_iff.mp split
        simp only at named
        split at named
        next => cases named; exact read_of_splitType first
        next => cases named
      next => cases some
    next => cases some
  · exact read_of_firstType? h
  · exact read_of_firstType? h
  · obtain ⟨tag, -, some⟩ := List.mem_filterMap.mp member
    simp only [templateOf?] at some
    split at some
    next => cases some
    next =>
      cases some
      obtain ⟨⟨type, rest⟩, found, rfl⟩ := Option.map_eq_some_iff.mp h
      obtain ⟨_, -, split⟩ := Option.bind_eq_some_iff.mp found
      exact read_of_splitType split

theorem resolveHint_ne_malformed {text : String} {n : Node} (h : read text = .ok n) (scope : Option Scope)
    (w : World) (m : Memory) (other : String) (cause : ReadError) :
    (Resolve.resolveHint scope text w m).1 ≠ .error (.malformedHint other cause) := by
  simp only [Resolve.resolveHint, h, Query.explain]
  split
  next => simp
  next f _ _ =>
    split
    next => simp
    next supported =>
      rintro ⟨⟩
      exact supported rfl

namespace Hint

/-- The type at the start of a text ends where the text can be cut: at a character, with the same type
before the cut, and all of the text is a type just when only blanks are left. What doc comments hand
out is therefore read in full. -/
theorem readPrefix_delimits :
    (∀ (s : String) (n : Node) (stop : Nat), readPrefix s = .ok (n, stop) →
      byteSize (takeBytes stop s.toList) = stop ∧ 0 < stop ∧ stop ≤ byteSize s.toList ∧
        read (String.ofList (takeBytes stop s.toList)) = .ok n ∧
        read (String.ofList (trim (takeBytes stop s.toList))) = .ok n ∧
        readPrefix (String.ofList (takeBytes stop s.toList)) = .ok (n, stop)) ∧
    (∀ (s : String) (n : Node), read s = .ok n ↔
      ∃ stop, readPrefix s = .ok (n, stop) ∧ ∀ c ∈ dropBytes stop s.toList, isBlank c = true) ∧
    (∀ comment text : String, (DocBlock.ofComment comment).Offers text →
      (∃ n, read text = .ok n) ∧ ∀ scope w m other cause,
        (Resolve.resolveHint scope text w m).1 ≠ .error (.malformedHint other cause)) := by
  refine ⟨fun s n stop h => ?_, fun s n => read_iff_readPrefix, fun comment text offers => ?_⟩
  · obtain ⟨used, rest, front, back, cut, rfl⟩ := exists_cut_of_readPrefix h
    obtain ⟨take, -⟩ := takeBytes_byteSize front back
    rw [cut.text, take]
    refine ⟨rfl, ?_, ?_, cut.read_front, cut.read_trimmed, cut.readPrefix_front⟩
    · exact Nat.pos_of_ne_zero fun none => cut.some (byteSize_eq_zero none)
    · rw [byteSize_append]
      exact Nat.le_add_right _ _
  · obtain ⟨n, ok⟩ := DocBlock.read_of_offers offers
    exact ⟨⟨n, ok⟩, resolveHint_ne_malformed ok⟩

theorem tokens_reference : tokens "int &$id" = [⟨.name "int", 0, "int".toList⟩] ++
    [⟨.mark .amp, 4, ['&']⟩, ⟨.var "id", 5, "$id".toList⟩, ⟨.finish, 8, []⟩] := by
  have text : "int &$id".toList = ['i', 'n', 't', ' ', '&', '$', 'i', 'd'] := rfl
  rw [tokens, text, tokensFrom_scan (c := 'i') (l := .name "int") (n := 2) (by rfl) (by rfl),
    tokensFrom_scan (c := '&') (l := .mark .amp) (n := 0) (by rfl) (by rfl),
    tokensFrom_scan (c := '$') (l := .var "id") (n := 2) (by rfl) (by decide),
    tokensFrom_blank (by rfl)]
  rfl

/-- A mark of reference is no part of the type before it. -/
theorem readPrefix_delimits_reference :
    readPrefix "int &$id" = .ok (.name "int", 3) ∧
      read (String.ofList (takeBytes 3 "int &$id".toList)) = .ok (.name "int") ∧
      (DocBlock.ofComment "/** @param int &$id */").Offers "int" ∧ ∃ n, read "int" = .ok n := by
  have int : IsType (atoms maxDepth) (.name "int") [.name "int"] :=
    .single (.single (.operand (.closed (.base (.name "int")))))
  have front : readPrefix "int &$id" = .ok (.name "int", 3) :=
    readPrefix_of_spelled int tokens_reference rfl
  have comment : DocBlock.ofComment "/** @param int &$id */" = ⟨[⟨"@param", "int &$id"⟩]⟩ := by decide
  have offers : (DocBlock.ofComment "/** @param int &$id */").Offers "int" := by
    have split : DocBlock.splitType "int &$id".toList = some ("int", " &$id".toList) := by
      simp only [DocBlock.splitType, String.ofList_toList, front]
      decide
    have param : DocBlock.splitParam "int &$id".toList = some ("int", "id") := by
      simp only [DocBlock.splitParam, split]
      decide
    have tags : (DocBlock.ofComment "/** @param int &$id */").named "@param" =
        [⟨"@param", "int &$id"⟩] := by rw [comment]; decide
    refine .inl ⟨"id", ?_⟩
    rw [DocBlock.paramType?, tags, List.findSome?_cons, param]
    rfl
  exact ⟨front, (readPrefix_delimits.1 _ _ _ front).2.2.2.1, offers, (readPrefix_delimits.2.2 _ _ offers).1⟩

end Hint
end TypeHints
