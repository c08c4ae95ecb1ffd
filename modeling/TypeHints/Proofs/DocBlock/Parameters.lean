import TypeHints.Proofs.DocBlock.Lines
import TypeHints.Proofs.Hint.Delimitation
import TypeHints.Proofs.Hint.Fitting

/-!
Behind a type and a blank, the marks of a parameter and its name go on with no type, so a line that
documents a parameter gives back its type, whatever the description says.
-/
namespace TypeHints
open Text Hint

/-! ### Types before a blank -/

namespace Hint

/-- The text is a type with no blanks around it. -/
structure IsCore (core : List Char) (n : Node) : Prop where
  begins : Barred isBlank core
  ends : EndsVisibly core
  nonempty : core ≠ []
  lexed : ∃ used, IsType (atoms maxDepth) n (lexemes used) ∧ endOf 0 used = byteSize core ∧
    tokensFrom 0 core = used ++ [⟨.finish, byteSize core, []⟩]

theorem exists_cut_of_read {s : String} {n : Node} (h : read s = .ok n) :
    ∃ used rest front back, Cut s n used rest front back ∧ ∀ c ∈ back, isBlank c = true := by
  obtain ⟨stop, ok, blank⟩ := read_iff_readPrefix.mp h
  obtain ⟨used, rest, front, back, cut, rfl⟩ := exists_cut_of_readPrefix ok
  rw [cut.text, (takeBytes_byteSize front back).2] at blank
  exact ⟨used, rest, front, back, cut, blank⟩

theorem exists_core_of_read {s : String} {n : Node} (h : read s = .ok n) :
    ∃ gap core back, s.toList = gap ++ (core ++ back) ∧ IsCore core n ∧
      (∀ c ∈ gap, isBlank c = true) ∧ ∀ c ∈ back, isBlank c = true := by
  obtain ⟨_, _, front, back, first, blank⟩ := exists_cut_of_read h
  obtain ⟨used, _, core, rest, second, blanks⟩ := exists_cut_of_read first.read_trimmed
  have split := List.takeWhile_append_dropWhile (p := isBlank) (l := front)
  have text := second.text
  rw [String.toList_ofList, trim_of_endsVisibly first.visible first.some] at text
  rw [text] at split
  have begins : Barred isBlank (core ++ rest) := text ▸ barred_dropWhile isBlank front
  -- The text ends visibly, so the core has no blanks behind it.
  obtain rfl : rest = [] := by
    by_contra some
    have last := List.getLast?_eq_some_getLast some
    have seen := first.visible (rest.getLast some) <| by
      rw [← split, List.getLast?_append, List.getLast?_append, last]
      rfl
    rw [blanks _ (List.getLast_mem some)] at seen
    cases seen
  rw [List.append_nil] at split begins
  refine ⟨front.takeWhile isBlank, core, back, ?_, ?_, takeWhile_inside isBlank front, blank⟩
  · rw [first.text, ← List.append_assoc, split]
  · exact ⟨begins, second.visible, second.some, used, second.spelled, second.stop, second.tokens⟩

theorem IsCore.splitType {core : List Char} {n : Node} (h : IsCore core n) {b : Char}
    (blank : isBlank b = true) {more : List Char}
    (stop : continuesType (tokensFrom (byteSize core) (b :: more)) = false) :
    DocBlock.splitType (core ++ b :: more) = some (String.ofList core, b :: more) := by
  obtain ⟨used, spelled, size, lexed⟩ := h.lexed
  have legible := legible_of_isTidy lexed (IsType.shapedWithin spelled).tidy
  have text : tokens (String.ofList (core ++ b :: more)) =
      used ++ tokensFrom (byteSize core) (b :: more) := by
    rw [tokens, String.toList_ofList, tokensFrom_longer lexed legible (endsNumber_of_isBlank blank)
      (fun t _ => Lexeme.closedBy_of_isBlank blank t.lexeme), Nat.zero_add]
  have front := readPrefix_of_spelled spelled text stop
  have trimmed : trim core = core := by
    rw [trim_of_endsVisibly h.ends h.nonempty, dropWhile_barred h.begins]
  simp only [DocBlock.splitType, front, size, takeBytes_byteSize, trimmed]

/-! ### What follows the type of a parameter -/

/-- A name that a parameter can have. -/
structure IsParameterName (name : List Char) : Prop where
  inside : ∀ c ∈ name, isVariableChar c = true
  nonempty : name ≠ []
  begins : ∀ c ∈ name.head?, c.isDigit = false
  other : name ≠ "this".toList

theorem isNameStart_of_isVariableChar {c : Char} (h : isVariableChar c = true)
    (letter : c.isDigit = false) : isNameStart c = true := by
  have visible := visible_of_isVariableChar h
  unfold isVariableChar isLetterOrNumber at h
  unfold isNameStart
  split at h
  next ascii =>
    have letters : c.isAlpha = true ∨ c = '_' := by
      simpa [Char.isAlphanum, letter] using h
    rcases letters with alpha | rfl
    · simp [alpha]
    · rfl
  next wide => simp [wide, visible]

theorem variableLexeme_name {name after : List Char} (h : IsParameterName name)
    (stop : Barred isVariableChar after) :
    variableLexeme (name ++ after) = (.var (String.ofList name), name.length) := by
  obtain ⟨c, tail, rfl⟩ := List.exists_cons_of_ne_nil h.nonempty
  have start := isNameStart_of_isVariableChar (h.inside c List.mem_cons_self) (h.begins c rfl)
  have run := takeWhile_append_barred h.inside stop
  simp only [List.cons_append] at run ⊢
  simp only [variableLexeme, start, if_true, run, h.other, if_false]

def dots (variadic : Bool) : List Char := if variadic then ['.', '.', '.'] else []

/-- The marks of a parameter, which may be passed by reference. -/
def marks (byRef variadic : Bool) : List Char := (if byRef then ['&'] else []) ++ dots variadic

section
variable {name after : List Char} (named : IsParameterName name) (stop : Barred isVariableChar after)
include named stop

theorem tokensFrom_dots (variadic : Bool) (start : Nat) : ∃ t ts,
    tokensFrom start (dots variadic ++ '$' :: (name ++ after)) = t :: ts ∧
      (t.lexeme = .var (String.ofList name) ∨ t.lexeme = .mark .ellipsis) := by
  cases variadic with
  | false =>
    have read : scan '$' (name ++ after) = (.var (String.ofList name), name.length) :=
      variableLexeme_name named stop
    exact ⟨_, _, tokensFrom_head rfl read start, .inl rfl⟩
  | true =>
    have read : scan '.' ('.' :: '.' :: '$' :: (name ++ after)) = (.mark .ellipsis, 2) := rfl
    exact ⟨_, _, tokensFrom_head rfl read start, .inr rfl⟩

theorem continuesType_parameter {gap : List Char} (blank : ∀ c ∈ gap, isBlank c = true)
    (byRef variadic : Bool) (start : Nat) :
    continuesType (tokensFrom start (gap ++ (marks byRef variadic ++ '$' :: (name ++ after)))) = false := by
  rw [tokensFrom_append_blank blank, marks, List.append_assoc]
  cases byRef with
  | false =>
    obtain ⟨t, ts, same, apart⟩ := tokensFrom_dots named stop variadic (start + byteSize gap)
    have ends : t.lexeme.endsType = true := by
      rcases apart with lexeme | lexeme <;> rw [lexeme] <;> rfl
    exact same ▸ continuesType_of_endsType ends ts
  | true =>
    have read (cs : List Char) : scan '&' cs = (.mark .amp, 0) := rfl
    obtain ⟨u, ts, same, apart⟩ :=
      tokensFrom_dots named stop variadic (start + byteSize gap + byteSize ['&'])
    have first := tokensFrom_head rfl (read (dots variadic ++ '$' :: (name ++ after)))
      (start + byteSize gap)
    rw [List.take_zero, List.drop_zero, same] at first
    -- Before a variable or dots, `&` is no operator.
    have meet (t : Token) (amp : t.lexeme = .mark .amp) : atIntersection (t :: u :: ts) = false := by
      rcases apart with lexeme | lexeme <;> simp [atIntersection, lexeme]
    show continuesType (tokensFrom _ ('&' :: (dots variadic ++ '$' :: (name ++ after)))) = false
    rw [first, continuesType, continuesMeet, continuesOperand, continuesAtom_mark (by decide) rfl,
      atSuffix_mark (by decide) rfl, meet _ rfl]
    rfl

end

end Hint

namespace DocBlock

section
variable {core gap name after : List Char} {n : Node} (isCore : IsCore core n)
  (blank : ∀ c ∈ gap, isBlank c = true) (some : gap ≠ []) (named : IsParameterName name)
  (stop : Barred isVariableChar after)
include isCore blank some named stop

theorem splitParam_core (byRef variadic : Bool) :
    splitParam (core ++ (gap ++ (marks byRef variadic ++ '$' :: (name ++ after)))) =
      .some (String.ofList core, String.ofList name) := by
  have stops := continuesType_parameter named stop blank byRef variadic (byteSize core)
  have split : splitType (core ++ (gap ++ (marks byRef variadic ++ '$' :: (name ++ after)))) =
      .some (String.ofList core, gap ++ (marks byRef variadic ++ '$' :: (name ++ after))) := by
    obtain ⟨b, gap, rfl⟩ := List.exists_cons_of_ne_nil some
    exact isCore.splitType (blank b List.mem_cons_self) stops
  have unmarked : dropPrefix "...".toList (trimStart (dropPrefix ['&'] (trimStart
      (gap ++ (marks byRef variadic ++ '$' :: (name ++ after)))))) = '$' :: (name ++ after) := by
    rw [trimStart_append blank]
    cases byRef <;> cases variadic <;> rfl
  have run : (name ++ after).takeWhile isVariableChar = name :=
    takeWhile_append_barred named.inside stop
  simp only [splitParam, split, bind, Option.bind, unmarked, run]

end

theorem paramType?_of_tags {b : DocBlock} {before later : List DocTag} {tag : DocTag}
    {type parameter : String} (tags : b.tags = before ++ tag :: later) (name : tag.name = "@param")
    (split : splitParam tag.body.toList = some (type, parameter))
    (unnamed : ∀ t ∈ before, t.name = "@param" →
      ∀ other, splitParam t.body.toList ≠ some (other, parameter)) :
    b.paramType? parameter = some type := by
  refine List.findSome?_eq_some_iff.mpr ⟨before.filter (·.name = "@param"), tag,
    later.filter (·.name = "@param"), ?_, ?_, fun t member => ?_⟩
  · rw [named, tags, List.filter_append, List.filter_cons_of_pos (by simp [name])]
  · simp [split]
  · obtain ⟨member, isParam⟩ := List.mem_filter.mp member
    have other := unnamed t member (of_decide_eq_true isParam)
    split
    next type' name' same => exact if_neg fun again => other type' (by rw [same, again])
    next => rfl

/-! ### Lines that document a parameter -/

/-- A line with the tag of a parameter, from the tag on. -/
structure ParamLine where
  type : String
  byRef : Bool
  variadic : Bool
  name : String
  description : String
  isType : ∃ n, read type = .ok n
  isName : IsParameterName name.toList
  typeLine : '\n' ∉ type.toList
  descriptionLine : '\n' ∉ description.toList
  apart : Barred isVariableChar description.toList

namespace ParamLine

def text (l : ParamLine) : String :=
  "@param " ++ l.type ++ " " ++ String.ofList (marks l.byRef l.variadic) ++ "$" ++ l.name ++ l.description

/-- What follows the tag, up to the name of the parameter. -/
def body (l : ParamLine) : List Char :=
  ' ' :: (l.type.toList ++ ' ' :: (marks l.byRef l.variadic ++ '$' :: l.name.toList))

theorem text_toList (l : ParamLine) :
    l.text.toList = '@' :: 'p' :: ("aram".toList ++ l.body) ++ l.description.toList := by
  simp [text, body]

theorem splitParam_body (l : ParamLine) {after : List Char} (stop : Barred isVariableChar after) :
    splitParam (trim (l.body ++ after)) = some (String.ofList (trim l.type.toList), l.name) := by
  obtain ⟨n, ok⟩ := l.isType
  obtain ⟨gap, core, back, text, isCore, front, behind⟩ := exists_core_of_read ok
  have type : trim l.type.toList = core := by
    rw [text, trim_between front isCore.begins isCore.ends isCore.nonempty, trimEnd_blank behind,
      List.append_nil]
  have whole : l.body ++ after = (' ' :: gap) ++ ((core ++ (back ++
      ' ' :: (marks l.byRef l.variadic ++ '$' :: l.name.toList))) ++ after) := by
    simp [body, text]
  have front : ∀ c ∈ ' ' :: gap, isBlank c = true := List.forall_mem_cons.mpr ⟨rfl, front⟩
  have begins : Barred isBlank (core ++ (back ++
      ' ' :: (marks l.byRef l.variadic ++ '$' :: l.name.toList))) := by
    obtain ⟨c, rest, rfl⟩ := List.exists_cons_of_ne_nil isCore.nonempty
    simpa using isCore.begins
  have ends : EndsVisibly (core ++ (back ++
      ' ' :: (marks l.byRef l.variadic ++ '$' :: l.name.toList))) := by
    have name : EndsVisibly l.name.toList :=
      endsVisibly_of_forall fun c member => visible_of_isVariableChar (l.isName.inside c member)
    have last := name.append l.isName.nonempty
      (core ++ (back ++ ' ' :: (marks l.byRef l.variadic ++ ['$'])))
    simpa using last
  have stops : Barred isVariableChar (trimEnd after) := barred_of_isPrefix (trimEnd_isPrefix after) stop
  have blank : ∀ c ∈ back ++ [' '], isBlank c = true :=
    List.forall_mem_append.mpr ⟨behind, List.forall_mem_singleton.mpr rfl⟩
  have regroup : core ++ (back ++ ' ' :: (marks l.byRef l.variadic ++ '$' :: l.name.toList)) ++
      trimEnd after = core ++ ((back ++ [' ']) ++ (marks l.byRef l.variadic ++
        '$' :: (l.name.toList ++ trimEnd after))) := by
    simp
  rw [whole, trim_between front begins ends (by simp), regroup, splitParam_core isCore blank (by simp) l.isName stops, type,
    String.ofList_toList]

theorem exists_tags (l : ParamLine) (m : Margin) {before after : List Char}
    (ends : ∀ c ∈ before.getLast?, c = '\n') (begins : ∀ c ∈ after.head?, c = '\n') :
    ∃ tag later, tag.name = "@param" ∧
      splitParam tag.body.toList = some (String.ofList (trim l.type.toList), l.name) ∧
      (ofComment (String.ofList ("/**".toList ++ (before ++ (m.text ++ (l.text.toList ++ after)) ++
        "*/".toList)))).tags =
        (ofComment (String.ofList ("/**".toList ++ (before ++ "*/".toList)))).tags ++ tag :: later := by
  have nameLine : '\n' ∉ l.name.toList := fun member => absurd (l.isName.inside _ member) (by decide)
  have marksLine : '\n' ∉ marks l.byRef l.variadic := by
    cases l.byRef <;> cases l.variadic <;> decide
  have bodyLine : '\n' ∉ l.body := by
    simp [body, l.typeLine, marksLine, nameLine]
  have fixed : ∀ c ∈ l.body.getLast?, c ≠ '\r' := by
    have last : l.body = (' ' :: (l.type.toList ++ ' ' :: (marks l.byRef l.variadic ++ ['$']))) ++
        l.name.toList := by simp [body]
    rw [last, List.getLast?_append, List.getLast?_eq_some_getLast l.isName.nonempty, Option.some_or]
    rintro c ⟨⟩ same
    exact absurd (l.isName.inside _ (same ▸ List.getLast_mem l.isName.nonempty)) (by decide)
  have apart : Barred isTagChar l.body := barred_cons.mpr (by decide)
  have some : l.body ≠ [] := List.cons_ne_nil _ _
  obtain ⟨kept, more, later, isKept, feed, tags⟩ := exists_tags_of_line m ends begins
    (by decide : 'p'.isAlpha = true) (List.all_eq_true.mp (by decide : "aram".toList.all isTagChar = true))
    apart some fixed bodyLine l.descriptionLine
  have stop : Barred isVariableChar (kept ++ more) := by
    cases kept with
    | cons c kept => simpa using barred_of_isPrefix isKept l.apart
    | nil =>
      intro c first
      rw [feed c first]
      decide
  refine ⟨⟨"@param", String.ofList (trim (l.body ++ (kept ++ more)))⟩, later, rfl, ?_, ?_⟩
  · rw [String.toList_ofList, l.splitParam_body stop]
  · have line : m.text ++ (l.text.toList ++ after) = m.text ++ '@' :: 'p' :: ("aram".toList ++ l.body) ++
        (l.description.toList ++ after) := by
      rw [l.text_toList]
      simp
    have name : String.ofList ('@' :: 'p' :: "aram".toList) = "@param" := by decide
    rw [line, tags, name]

def spaced (l : ParamLine) : ParamLine :=
  { l with
    description := l.description ++ " "
    descriptionLine := by simp [l.descriptionLine]
    apart := by
      have apart := l.apart
      rw [String.toList_append]
      revert apart
      cases l.description.toList with
      | nil => exact fun _ => barred_cons.mpr (by decide)
      | cons c rest => simp }

theorem spaced_toList (l : ParamLine) : l.spaced.text.toList = l.text.toList ++ [' '] := by
  simp [text_toList, spaced, body]

end ParamLine

def Margin.space : Margin := ⟨[' '], false, [], List.forall_mem_singleton.mpr ⟨rfl, by decide⟩, nofun⟩

/-- The type of a parameter is that of the line which documents it, in a comment of this line and in
one of many lines, unless a tag before the line gives one to the same parameter. -/
theorem paramType?_of_line (l : ParamLine) :
    (ofComment ("/** " ++ l.text ++ " */")).paramType? l.name =
      some (String.ofList (trim l.type.toList)) ∧
    ∀ (m : Margin) (before after : String), (∀ c ∈ before.toList.getLast?, c = '\n') →
      (∀ c ∈ after.toList.head?, c = '\n') →
      (∀ tag ∈ (ofComment ("/**" ++ before ++ "*/")).named "@param",
        ∀ type, splitParam tag.body.toList ≠ some (type, l.name)) →
      (ofComment ("/**" ++ before ++ String.ofList m.text ++ l.text ++ after ++ "*/")).paramType?
        l.name = some (String.ofList (trim l.type.toList)) := by
  have found (l : ParamLine) (m : Margin) {before after : List Char}
      (ends : ∀ c ∈ before.getLast?, c = '\n') (begins : ∀ c ∈ after.head?, c = '\n')
      (unnamed : ∀ tag ∈ (ofComment (String.ofList ("/**".toList ++
        (before ++ "*/".toList)))).named "@param",
          ∀ type, splitParam tag.body.toList ≠ some (type, l.name)) :
      (ofComment (String.ofList ("/**".toList ++ (before ++ (m.text ++ (l.text.toList ++ after)) ++
        "*/".toList)))).paramType? l.name = some (String.ofList (trim l.type.toList)) := by
    obtain ⟨tag, later, name, split, tags⟩ := l.exists_tags m ends begins
    exact paramType?_of_tags tags name split fun t member isParam =>
      unnamed t (List.mem_filter.mpr ⟨member, decide_eq_true isParam⟩)
  refine ⟨?_, fun m before after ends begins unnamed => ?_⟩
  · have text : "/** " ++ l.text ++ " */" = String.ofList ("/**".toList ++ ([] ++
        (Margin.space.text ++ (l.spaced.text.toList ++ [])) ++ "*/".toList)) :=
      String.toList_inj.mp (by simp [Margin.text, Margin.space, ParamLine.spaced_toList])
    rw [text]
    exact found l.spaced Margin.space nofun nofun nofun
  · have text : "/**" ++ before ++ String.ofList m.text ++ l.text ++ after ++ "*/" =
        String.ofList ("/**".toList ++ (before.toList ++ (m.text ++ (l.text.toList ++ after.toList)) ++
          "*/".toList)) := String.toList_inj.mp (by simp)
    have front : "/**" ++ before ++ "*/" =
        String.ofList ("/**".toList ++ (before.toList ++ "*/".toList)) := String.toList_inj.mp (by simp)
    rw [front] at unnamed
    rw [text]
    exact found l m ends begins unnamed

def flagsLine : ParamLine where
  type := "int"
  byRef := true
  variadic := true
  name := "flags"
  description := " The flags."
  isType := ⟨_, read_name (by decide)⟩
  isName := ⟨List.all_eq_true.mp (by decide), by decide, by rintro c ⟨⟩; rfl, by decide⟩
  typeLine := by decide
  descriptionLine := by decide
  apart := fun c first => by
    obtain rfl : ' ' = c := Option.some.inj first
    decide

def starMargin : Margin where
  indent := List.replicate 5 ' '
  star := true
  gap := [' ']
  indented := List.forall_mem_replicate.mpr (.inr ⟨rfl, by decide⟩)
  narrow := List.forall_mem_singleton.mpr (.inl rfl)

theorem tokens_untyped : tokens "$untyped" =
    [⟨.var "untyped", 0, "$untyped".toList⟩, ⟨.finish, 8, []⟩] := by
  have text : "$untyped".toList = ['$', 'u', 'n', 't', 'y', 'p', 'e', 'd'] := rfl
  rw [tokens, text, tokensFrom_scan (c := '$') (l := .var "untyped") (n := 7) (by rfl) (by decide),
    tokensFrom_blank (by rfl)]
  rfl

/-- A variadic parameter after one without a type. -/
theorem paramType?_of_line_flags :
    (ofComment "/** @param int &...$flags The flags. */").paramType? "flags" = some "int" ∧
      (∀ tag ∈ (ofComment "/**\n     * @param $untyped\n*/").named "@param",
        ∀ type, splitParam tag.body.toList ≠ some (type, "flags")) ∧
      (ofComment
        "/**\n     * @param $untyped\n     * @param int &...$flags The flags.\n     */").paramType?
          "flags" = some "int" := by
  obtain ⟨single, many⟩ := paramType?_of_line flagsLine
  have untyped : splitParam "$untyped".toList = none := by
    have fails : readPrefix (String.ofList "$untyped".toList) =
        .error ⟨.unexpected .type (.var "untyped"), 0⟩ := by
      rw [String.ofList_toList, readPrefix, tokens_untyped]
      rfl
    simp only [splitParam, splitType, fails]
    rfl
  have tags : (ofComment "/**\n     * @param $untyped\n*/").named "@param" =
      [⟨"@param", "$untyped"⟩] := by decide
  have unnamed : ∀ tag ∈ (ofComment "/**\n     * @param $untyped\n*/").named "@param",
      ∀ type, splitParam tag.body.toList ≠ some (type, "flags") := by
    rw [tags]
    refine List.forall_mem_singleton.mpr fun type => ?_
    rw [untyped]
    simp
  have again := many starMargin "\n     * @param $untyped\n" "\n     "
    (fun c last => (Option.some.inj last).symm) (fun c first => (Option.some.inj first).symm) unnamed
  have type : String.ofList (trim flagsLine.type.toList) = "int" := by decide
  have line : "/** " ++ flagsLine.text ++ " */" = "/** @param int &...$flags The flags. */" := by decide
  have lines : "/**" ++ "\n     * @param $untyped\n" ++ String.ofList starMargin.text ++ flagsLine.text ++
      "\n     " ++ "*/" =
      "/**\n     * @param $untyped\n     * @param int &...$flags The flags.\n     */" := by decide
  rw [line, type] at single
  rw [lines, type] at again
  exact ⟨single, unnamed, again⟩

end DocBlock

end TypeHints
