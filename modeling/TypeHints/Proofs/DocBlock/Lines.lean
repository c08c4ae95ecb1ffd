import TypeHints.Proofs.DocBlock.Tags

namespace TypeHints.DocBlock
open Text

/-! ### Lines of a text -/

theorem linesOf_cons {c : Char} {rest : List Char} (feed : c ≠ '\n')
    (pair : c = '\r' → rest.head? ≠ some '\n') :
    linesOf (c :: rest) = (c :: (linesOf rest).headD []) :: (linesOf rest).tail := by
  rw [linesOf]
  · cases linesOf rest <;> rfl
  · exact feed
  · rintro more same rfl
    exact pair same rfl

theorem linesOf_eq_nil {cs : List Char} : linesOf cs = [] ↔ cs = [] := by
  refine ⟨fun none => ?_, fun none => by rw [none]; rfl⟩
  unfold linesOf at none
  split at none
  · rfl
  · cases none
  · cases none
  · split at none <;> cases none

theorem linesOf_append {cs : List Char} (ends : ∀ c ∈ cs.getLast?, c = '\n') (more : List Char) :
    linesOf (cs ++ more) = linesOf cs ++ linesOf more := by
  have later {c : Char} {rest : List Char} (ends : ∀ d ∈ (c :: rest).getLast?, d = '\n') :
      ∀ d ∈ rest.getLast?, d = '\n' := by
    intro d last
    exact ends d (by rw [List.getLast?_cons, Option.mem_def.mp last]; rfl)
  fun_induction linesOf cs with
  | case1 => rfl
  | case2 rest ih => simpa [linesOf] using ih (later ends)
  | case3 rest ih => simpa [linesOf] using ih (later (later ends))
  | case4 c rest feed pair line others same ih =>
    have some : rest ≠ [] := by
      rintro rfl
      cases same
    have unpaired : c = '\r' → (rest ++ more).head? ≠ .some '\n' := by
      intro return' head
      obtain ⟨d, rest, rfl⟩ := List.exists_cons_of_ne_nil some
      obtain rfl : d = '\n' := by simpa using head
      exact pair rest return' rfl
    rw [List.cons_append, linesOf_cons feed unpaired, ih (later ends), same]
    rfl
  | case5 c rest feed pair none =>
    obtain rfl := linesOf_eq_nil.mp none
    exact absurd (ends c rfl) feed

theorem linesOf_piece {piece : List Char} (oneLine : '\n' ∉ piece) (some : piece ≠ [])
    (ends : ∀ c ∈ piece.getLast?, c ≠ '\r') (more : List Char) :
    linesOf (piece ++ more) = (piece ++ (linesOf more).headD []) :: (linesOf more).tail := by
  induction piece with
  | nil => exact absurd rfl some
  | cons c piece ih =>
    simp only [List.mem_cons, not_or] at oneLine
    cases piece with
    | nil => exact linesOf_cons (Ne.symm oneLine.1) fun same => absurd same (ends c rfl)
    | cons d piece =>
      have later := ih oneLine.2 (by simp) (by simpa using ends)
      rw [List.cons_append, linesOf_cons (Ne.symm oneLine.1), later]
      · rfl
      · rintro - ⟨⟩
        exact oneLine.2 List.mem_cons_self

theorem headD_linesOf_isPrefix {piece more : List Char} (oneLine : '\n' ∉ piece)
    (ends : ∀ c ∈ more.head?, c = '\n') : (linesOf (piece ++ more)).headD [] <+: piece := by
  induction piece with
  | nil =>
    cases more with
    | nil => exact List.prefix_rfl
    | cons c more =>
      obtain rfl := ends c rfl
      simp [linesOf]
  | cons c piece ih =>
    simp only [List.mem_cons, not_or] at oneLine
    by_cases pair : c = '\r' ∧ (piece ++ more).head? = some '\n'
    · obtain ⟨rfl, feed⟩ := pair
      obtain ⟨rest, same⟩ := List.head?_eq_some_iff.mp feed
      rw [List.cons_append, same]
      exact List.nil_prefix
    · rw [List.cons_append, linesOf_cons (Ne.symm oneLine.1) fun same feed => pair ⟨same, feed⟩]
      exact (List.prefix_cons_inj c).mpr (ih oneLine.2)

/-! ### Lines of a comment -/

/-- What may stand in a line before a tag: indentation, perhaps a star, and behind it only spaces and
tabs. -/
structure Margin where
  indent : List Char
  star : Bool
  gap : List Char
  indented : ∀ c ∈ indent, isBlank c = true ∧ c ≠ '\n'
  narrow : ∀ c ∈ gap, c = ' ' ∨ c = '\t'

def Margin.text (m : Margin) : List Char := m.indent ++ ((if m.star then ['*'] else []) ++ m.gap)

theorem Margin.oneLine (m : Margin) : '\n' ∉ m.text := by
  have indent : '\n' ∉ m.indent := fun member => (m.indented _ member).2 rfl
  have gap : '\n' ∉ m.gap := fun member => by simpa using m.narrow _ member
  unfold text
  split <;> simp [indent, gap]

theorem Margin.opens (m : Margin) {c : Char} {word first : List Char} (letter : c.isAlpha = true)
    (inside : ∀ d ∈ word, isTagChar d = true) (stop : Barred isTagChar first) :
    Opens (undecorated (m.text ++ '@' :: c :: (word ++ first))) ('@' :: c :: word) first := by
  have shown : ∃ gap : List Char, undecorated (m.text ++ '@' :: c :: (word ++ first)) =
      gap ++ '@' :: c :: (word ++ first) ∧ ∀ d ∈ gap, d = ' ' ∨ d = '\t' := by
    unfold undecorated text
    rw [List.append_assoc, trimStart_append fun d member => (m.indented d member).1]
    cases m.star with
    | true => exact ⟨m.gap, rfl, m.narrow⟩
    | false =>
      have blank : ∀ d ∈ m.gap, isBlank d = true := by
        intro d member
        rcases m.narrow d member with rfl | rfl <;> rfl
      refine ⟨[], ?_, nofun⟩
      rw [if_neg Bool.false_ne_true, List.nil_append, trimStart_append blank]
      rfl
  obtain ⟨gap, shown, narrow⟩ := shown
  rw [shown]
  exact .intro narrow letter inside stop

theorem contentLines_delimited (inner : List Char) :
    contentLines (String.ofList ("/**".toList ++ (inner ++ "*/".toList))) =
      (linesOf inner).map undecorated := by
  have ends : EndsVisibly ("/**".toList ++ (inner ++ "*/".toList)) := by
    rw [← List.append_assoc]
    refine EndsVisibly.append (endsVisibly_of_forall ?_) (by decide) _
    exact List.forall_mem_cons.mpr ⟨rfl, List.forall_mem_singleton.mpr rfl⟩
  have trimmed : trim ("/**".toList ++ (inner ++ "*/".toList)) =
      "/**".toList ++ (inner ++ "*/".toList) := by
    rw [trim_of_endsVisibly ends (by simp)]
    rfl
  have opened : dropPrefix "/**".toList ("/**".toList ++ (inner ++ "*/".toList)) =
      inner ++ "*/".toList := by
    simp [dropPrefix]
  have closed : dropSuffix "*/".toList (inner ++ "*/".toList) = inner := by
    simp [dropSuffix]
  simp only [contentLines, String.toList_ofList, trimmed, opened, closed]

/-! ### Tags -/

theorem group_append {line name first : List Char} (opens : Opens line name first)
    (before after : List (List Char)) :
    group (before ++ line :: after) =
      ((group before).1, (group before).2 ++
        ⟨String.ofList name, String.ofList (trim (joinLines (first :: (group after).1)))⟩ ::
          (group after).2) := by
  induction before with
  | nil => exact group_of_opens opens after
  | cons other before ih =>
    rw [List.cons_append]
    rcases opens_or_isFree other with ⟨_, _, other⟩ | free
    · rw [group_of_opens other, group_of_opens other, ih]
      rfl
    · rw [group_of_isFree free, group_of_isFree free, ih]

/-- A line that begins with a tag gives the comment this tag, behind those of the text before the line.
Its body goes on to the next tag; the line may lose a carriage return. -/
theorem exists_tags_of_line {before word core tail after : List Char} {c : Char} (m : Margin)
    (ends : ∀ d ∈ before.getLast?, d = '\n') (begins : ∀ d ∈ after.head?, d = '\n')
    (letter : c.isAlpha = true) (inside : ∀ d ∈ word, isTagChar d = true)
    (stop : Barred isTagChar core) (some : core ≠ []) (fixed : ∀ d ∈ core.getLast?, d ≠ '\r')
    (coreLine : '\n' ∉ core) (tailLine : '\n' ∉ tail) :
    ∃ kept more later, kept <+: tail ∧ (∀ d ∈ more.head?, d = '\n') ∧
      (ofComment (String.ofList ("/**".toList ++ (before ++ (m.text ++ '@' :: c :: (word ++ core) ++
        (tail ++ after)) ++ "*/".toList)))).tags =
      (ofComment (String.ofList ("/**".toList ++ (before ++ "*/".toList)))).tags ++
        ⟨String.ofList ('@' :: c :: word), String.ofList (trim (core ++ (kept ++ more)))⟩ :: later := by
  have line : '\n' ∉ m.text ++ '@' :: c :: (word ++ core) := by
    have letterLine : '\n' ≠ c := by
      rintro rfl
      cases letter
    have wordLine : '\n' ∉ word := fun member => absurd (inside _ member) (by decide)
    simp [m.oneLine, letterLine, wordLine, coreLine]
  have lineEnds : ∀ d ∈ (m.text ++ '@' :: c :: (word ++ core)).getLast?, d ≠ '\r' := by
    have last : (m.text ++ '@' :: c :: (word ++ core)).getLast? = core.getLast? := by
      rw [← List.cons_append, ← List.cons_append, ← List.append_assoc, List.getLast?_append,
        List.getLast?_eq_some_getLast some, Option.some_or]
    rwa [last]
  have split := linesOf_piece line (by simp) lineEnds (tail ++ after)
  have kept := headD_linesOf_isPrefix tailLine begins
  revert split kept
  generalize (linesOf (tail ++ after)).headD [] = kept
  generalize (linesOf (tail ++ after)).tail = rest
  intro split isKept
  have stops : Barred isTagChar (core ++ kept) := by
    obtain ⟨d, core, rfl⟩ := List.exists_cons_of_ne_nil some
    simpa using stop
  have opens := m.opens letter inside stops
  refine ⟨kept, linesBehind (group (rest.map undecorated)).1, (group (rest.map undecorated)).2, isKept,
    linesBehind_feeds, ?_⟩
  have lines : contentLines (String.ofList ("/**".toList ++ (before ++ (m.text ++
      '@' :: c :: (word ++ core) ++ (tail ++ after)) ++ "*/".toList))) =
      (linesOf before).map undecorated ++
        undecorated (m.text ++ '@' :: c :: (word ++ (core ++ kept))) :: rest.map undecorated := by
    rw [contentLines_delimited, linesOf_append ends, split]
    simp
  rw [(tags_ofComment _).2, (tags_ofComment _).2, lines, contentLines_delimited, group_append opens,
    joinLines_cons, List.append_assoc]

end TypeHints.DocBlock
