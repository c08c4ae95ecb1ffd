import Mathlib.Data.List.Forall2
import TypeHints.DocBlock
import TypeHints.Proofs.Text.Letter

/-!
Tags are looked for in the text of a comment, and what they say is cut out of it. `group` has them
from the lines instead, where each tag takes the line that it begins and those behind it.
-/
namespace TypeHints.DocBlock
open Text

/-! ### Lines that begin with a tag -/

/-- A line begins with the word of a tag, which is as long as it can be, and goes on with `first`. Only
spaces and tabs stand before the word. -/
inductive Opens : (line name first : List Char) → Prop
  | intro {gap word first : List Char} {c : Char} (narrow : ∀ d ∈ gap, d = ' ' ∨ d = '\t')
      (letter : c.isAlpha = true) (inside : ∀ d ∈ word, isTagChar d = true)
      (stop : Barred isTagChar first) :
      Opens (gap ++ '@' :: c :: (word ++ first)) ('@' :: c :: word) first

def IsFree (line : List Char) : Prop := ∀ name first, ¬ Opens line name first

theorem isGap_iff {c : Char} : isGap c = true ↔ c = ' ' ∨ c = '\t' := by
  simp [isGap]

theorem tagOf?_eq_some {line name first : List Char} :
    tagOf? line = some (name, first) ↔ Opens line name first := by
  constructor
  · intro found
    unfold tagOf? at found
    split at found
    · next c rest begins =>
      split at found
      · next letter =>
        cases found
        have line := List.takeWhile_append_dropWhile (p := isGap) (l := line)
        rw [begins, ← List.takeWhile_append_dropWhile (p := isTagChar) (l := rest)] at line
        rw [← line]
        exact .intro (fun d member => isGap_iff.mp (takeWhile_inside _ _ d member)) letter
          (takeWhile_inside _ _) (barred_dropWhile _ _)
      · cases found
    · cases found
  · intro opens
    cases opens with
    | @intro gap word _ c narrow letter inside stop =>
      have begins : (gap ++ '@' :: c :: (word ++ first)).dropWhile isGap = '@' :: c :: (word ++ first) :=
        dropWhile_append_barred (fun d member => isGap_iff.mpr (narrow d member)) (barred_cons.mpr rfl)
      rw [tagOf?, begins]
      simp only [letter, if_true, takeWhile_append_barred inside stop,
        dropWhile_append_barred inside stop]

theorem tagOf?_eq_none {line : List Char} : tagOf? line = none ↔ IsFree line := by
  constructor
  · intro none name first opens
    rw [tagOf?_eq_some.mpr opens] at none
    cases none
  · intro free
    by_contra some
    obtain ⟨⟨name, first⟩, found⟩ := Option.ne_none_iff_exists'.mp some
    exact free name first (tagOf?_eq_some.mp found)

theorem opens_or_isFree (line : List Char) : (∃ name first, Opens line name first) ∨ IsFree line := by
  cases found : tagOf? line with
  | none => exact .inr (tagOf?_eq_none.mp found)
  | some opened => exact .inl ⟨opened.1, opened.2, tagOf?_eq_some.mp found⟩

theorem barred_feed {p : Char → Bool} (out : p '\n' = false) {more : List Char}
    (feeds : ∀ c ∈ more.head?, c = '\n') : Barred p more := by
  intro c member
  rw [feeds c member, out]

theorem tagOf?_append (line : List Char) {more : List Char} (feeds : ∀ c ∈ more.head?, c = '\n') :
    tagOf? (line ++ more) = (tagOf? line).map fun (name, first) => (name, first ++ more) := by
  have barred : Barred isTagChar more := barred_feed rfl feeds
  rw [tagOf?, tagOf?, dropWhile_before (barred_feed rfl feeds)]
  rcases line.dropWhile isGap with _ | ⟨c, rest⟩
  · cases more with
    | nil => rfl
    | cons d more =>
      obtain rfl := feeds d rfl
      rfl
  by_cases marked : c = '@'
  · subst marked
    cases rest with
    | nil =>
      cases more with
      | nil => rfl
      | cons d more =>
        obtain rfl := feeds d rfl
        rfl
    | cons d rest =>
      simp only [List.cons_append, takeWhile_before barred, dropWhile_before barred]
      split <;> rfl
  · simp [marked]

/-! ### Places -/

theorem spans_fresh (place : Nat) (cs : List Char) :
    spans true place cs = (spanOf? place cs).toList ++ spans false place cs := by
  cases cs with
  | nil => rfl
  | cons c rest => simp only [spans, if_true, Bool.false_eq_true, if_false]

theorem spanOf?_of_opens {line name first more : List Char} (opens : Opens line name first)
    (feeds : ∀ c ∈ more.head?, c = '\n') (front : List Char) :
    ∃ gap, line = gap ++ (name ++ first) ∧ '\n' ∉ gap ∧ spanOf? (byteSize front) (line ++ more) =
      some ⟨byteSize (front ++ gap), byteSize (front ++ gap ++ name)⟩ := by
  have found := tagOf?_append line feeds
  rw [tagOf?_eq_some.mpr opens] at found
  cases opens with
  | @intro gap word _ c narrow letter inside stop =>
    have run : (gap ++ '@' :: c :: (word ++ first) ++ more).takeWhile isGap = gap := by
      rw [List.append_assoc]
      exact takeWhile_append_barred (fun d member => isGap_iff.mpr (narrow d member)) (barred_cons.mpr rfl)
    refine ⟨gap, rfl, fun member => by simpa using narrow _ member, ?_⟩
    simp only [spanOf?, found, run, Option.map_some, byteSize_append]

theorem spanOf?_of_isFree {line more : List Char} (free : IsFree line)
    (feeds : ∀ c ∈ more.head?, c = '\n') (place : Nat) : spanOf? place (line ++ more) = none := by
  rw [spanOf?, tagOf?_append line feeds, tagOf?_eq_none.mpr free]
  rfl

theorem spans_line {line : List Char} (oneLine : '\n' ∉ line) (place : Nat) (more : List Char) :
    spans false place (line ++ more) = spans false (place + byteSize line) more := by
  induction line generalizing place with
  | nil => rfl
  | cons c line ih =>
    simp only [List.mem_cons, not_or] at oneLine
    have inside : (c == '\n') = false := beq_eq_false_iff_ne.mpr (Ne.symm oneLine.1)
    simp only [List.cons_append, spans, inside, ih oneLine.2, byteSize, Nat.add_assoc,
      Bool.false_eq_true, if_false]

theorem lineStart_append {front gap : List Char} (starts : ∀ c ∈ front.getLast?, c = '\n')
    (oneLine : '\n' ∉ gap) (more : List Char) :
    lineStart (front ++ (gap ++ more)) (byteSize (front ++ gap)) = byteSize front := by
  have inside : ∀ c ∈ gap.reverse, (c != '\n') = true := by
    intro c member
    refine bne_iff_ne.mpr ?_
    rintro rfl
    exact oneLine (List.mem_reverse.mp member)
  have barred : Barred (· != '\n') front.reverse := by
    intro c first
    rw [List.head?_reverse] at first
    rw [starts c first]
    rfl
  rw [lineStart, ← List.append_assoc, takeBytes_byteSize_append, List.reverse_append,
    dropWhile_append_barred inside barred, List.reverse_reverse]

/-! ### Tags of lines -/

/-- Lines up to the next tag, and the tags from there on; lines before the first tag are those that no
tag takes. -/
def group : List (List Char) → List (List Char) × List DocTag
  | [] => ([], [])
  | line :: rest =>
    let (free, tags) := group rest
    match tagOf? line with
    | some (name, first) =>
      ([], ⟨String.ofList name, String.ofList (trim (joinLines (first :: free)))⟩ :: tags)
    | none => (line :: free, tags)

theorem group_of_opens {line name first : List Char} (opens : Opens line name first)
    (rest : List (List Char)) : group (line :: rest) =
      ([], ⟨String.ofList name, String.ofList (trim (joinLines (first :: (group rest).1)))⟩ ::
        (group rest).2) := by
  rw [group, tagOf?_eq_some.mpr opens]

theorem group_of_isFree {line : List Char} (free : IsFree line) (rest : List (List Char)) :
    group (line :: rest) = (line :: (group rest).1, (group rest).2) := by
  rw [group, tagOf?_eq_none.mpr free]

def linesBehind (lines : List (List Char)) : List Char := lines.flatMap ('\n' :: ·)

@[simp] theorem linesBehind_nil : linesBehind [] = [] := rfl

@[simp] theorem linesBehind_cons (line : List Char) (lines : List (List Char)) :
    linesBehind (line :: lines) = '\n' :: (line ++ linesBehind lines) := by
  simp [linesBehind]

theorem linesBehind_feeds {lines : List (List Char)} : ∀ c ∈ (linesBehind lines).head?, c = '\n' := by
  cases lines with
  | nil => exact nofun
  | cons line lines =>
    rintro _ ⟨⟩
    rfl

theorem joinLines_cons (line : List Char) (lines : List (List Char)) :
    joinLines (line :: lines) = line ++ linesBehind lines := by
  induction lines generalizing line with
  | nil => simp [joinLines]
  | cons next lines ih =>
    rw [joinLines, List.intercalate_cons_cons, ← joinLines, ih, linesBehind_cons]
    simp

/-! ### What is cut out -/

/-- Both places are between characters, and the first is not behind the second. -/
def Sliceable (start stop : Nat) (text : List Char) : Prop :=
  ∃ a b c, text = a ++ (b ++ c) ∧ start = byteSize a ∧ stop = byteSize (a ++ b)

/-- All that tags at these places of a text say can be cut out of it. -/
def Sliced (text : List Char) (places : List Span) : Prop :=
  ∀ span later, span :: later <:+ places →
    Sliceable span.start span.stop text ∧ Sliceable span.stop (bodyStop text later) text

/-- What is cut out of a text behind `front` is what the lines there group to. `body` is what a body that
is open at the end of `front` goes on with. -/
structure Agrees (text front : List Char) (places : List Span) (lines : List (List Char)) : Prop where
  tags : tagsAt text places = (group lines).2
  slices : Sliced text places
  body : ∃ kept back, text = front ++ (kept ++ back) ∧ bodyStop text places = byteSize (front ++ kept) ∧
    ∀ first, trim (first ++ kept) = trim (joinLines (first :: (group lines).1))

theorem Agrees.nil (text : List Char) : Agrees text text [] [] where
  tags := rfl
  slices span later isSuffix := by cases List.eq_nil_of_suffix_nil isSuffix
  body := ⟨[], [], by simp, by simp [bodyStop], fun first => by simp [group, joinLines]⟩

section
variable {text front line more : List Char} {later : List Span} {rest : List (List Char)}

theorem Agrees.cut (behind : Agrees text (front ++ line) later rest) {gap name first : List Char}
    (same : line = gap ++ (name ++ first)) :
    slice (byteSize (front ++ gap)) (byteSize (front ++ gap ++ name)) text = name ∧
      trim (slice (byteSize (front ++ gap ++ name)) (bodyStop text later) text) =
        trim (joinLines (first :: (group rest).1)) ∧
      Sliceable (byteSize (front ++ gap)) (byteSize (front ++ gap ++ name)) text ∧
      Sliceable (byteSize (front ++ gap ++ name)) (bodyStop text later) text := by
  obtain ⟨kept, back, whole, stop, body⟩ := behind.body
  have word : text = front ++ gap ++ (name ++ (first ++ (kept ++ back))) := by
    simp [whole, same]
  have behindWord : text = front ++ gap ++ name ++ (first ++ kept ++ back) := by
    simp [word]
  have stop : bodyStop text later = byteSize (front ++ gap ++ name ++ (first ++ kept)) := by
    simp [stop, same]
  refine ⟨?_, ?_, ⟨_, _, _, word, rfl, rfl⟩, ⟨_, _, _, behindWord, rfl, stop⟩⟩
  · rw [word, slice_append]
  · rw [stop, behindWord, slice_append, body]

theorem Agrees.opening (behind : Agrees text (front ++ line) later rest)
    (feeds : ∀ c ∈ more.head?, c = '\n') :
    tagsAt text ((spanOf? (byteSize front) (line ++ more)).toList ++ later) = (group (line :: rest)).2 ∧
      Sliced text ((spanOf? (byteSize front) (line ++ more)).toList ++ later) := by
  rcases opens_or_isFree line with ⟨name, first, opens⟩ | free
  · obtain ⟨gap, same, -, place⟩ := spanOf?_of_opens opens feeds front
    obtain ⟨word, body, slices⟩ := behind.cut same
    rw [place, group_of_opens opens]
    refine ⟨?_, fun span others isSuffix => ?_⟩
    · simp only [Option.toList_some, List.singleton_append, tagsAt, word, body, behind.tags]
    · rcases List.suffix_cons_iff.mp isSuffix with same | isSuffix
      · cases same
        exact slices
      · exact behind.slices span others isSuffix
  · rw [spanOf?_of_isFree free feeds, group_of_isFree free]
    exact ⟨behind.tags, behind.slices⟩

theorem Agrees.cons (behind : Agrees text (front ++ '\n' :: line) later rest)
    (feeds : ∀ c ∈ more.head?, c = '\n') :
    Agrees text front ((spanOf? (byteSize (front ++ ['\n'])) (line ++ more)).toList ++ later)
      (line :: rest) := by
  rw [List.append_cons] at behind
  obtain ⟨tags, slices⟩ := behind.opening feeds
  refine ⟨tags, slices, ?_⟩
  obtain ⟨kept, back, whole, stop, body⟩ := behind.body
  rcases opens_or_isFree line with ⟨name, first, opens⟩ | free
  · obtain ⟨gap, same, oneLine, place⟩ := spanOf?_of_opens opens feeds (front ++ ['\n'])
    rw [place, group_of_opens opens]
    -- The body stops behind the line feed, which is trimmed away.
    refine ⟨['\n'], line ++ (kept ++ back), by simp [whole], ?_, fun begun => ?_⟩
    · have starts : ∀ c ∈ (front ++ ['\n']).getLast?, c = '\n' := by simp
      have start := lineStart_append starts oneLine (name ++ first ++ (kept ++ back))
      simpa [bodyStop, whole, same] using start
    · rw [trim_append_blank (List.forall_mem_singleton.mpr rfl), joinLines_cons, linesBehind_nil,
        List.append_nil]
  · rw [spanOf?_of_isFree free feeds, group_of_isFree free]
    -- The line is part of the body, which goes on behind it as one that had begun with the line.
    refine ⟨'\n' :: (line ++ kept), back, by simp [whole], by simp [stop], fun begun => ?_⟩
    have longer := body (begun ++ '\n' :: line)
    simpa [joinLines_cons] using longer

end

theorem agrees (front : List Char) {lines : List (List Char)} (oneLine : ∀ line ∈ lines, '\n' ∉ line) :
    Agrees (front ++ linesBehind lines) front (spans false (byteSize front) (linesBehind lines)) lines := by
  -- Induction on the lines that are left, while the text before them grows: places count from its start.
  induction lines generalizing front with
  | nil =>
    rw [linesBehind_nil, List.append_nil]
    exact Agrees.nil front
  | cons line lines ih =>
    obtain ⟨here, later⟩ := List.forall_mem_cons.mp oneLine
    have behind := ih (front ++ '\n' :: line) later
    have places : spans false (byteSize front) (linesBehind (line :: lines)) =
        (spanOf? (byteSize (front ++ ['\n'])) (line ++ linesBehind lines)).toList ++
          spans false (byteSize (front ++ '\n' :: line)) (linesBehind lines) := by
      have feed : spans false (byteSize front) ('\n' :: (line ++ linesBehind lines)) =
          spans true (byteSize (front ++ ['\n'])) (line ++ linesBehind lines) := by
        rw [byteSize_append]
        rfl
      rw [linesBehind_cons, feed, spans_fresh, spans_line here, ← byteSize_append, ← List.append_cons]
    rw [places]
    rw [List.append_assoc] at behind
    exact linesBehind_cons line lines ▸ behind.cons linesBehind_feeds

/-! ### Tags of comments -/

theorem oneLine_of_mem_linesOf {cs line : List Char} (member : line ∈ linesOf cs) : '\n' ∉ line := by
  fun_induction linesOf cs generalizing line with
  | case1 => cases member
  | case2 rest ih =>
    rcases List.mem_cons.mp member with rfl | member
    · exact List.not_mem_nil
    · exact ih member
  | case3 rest ih =>
    rcases List.mem_cons.mp member with rfl | member
    · exact List.not_mem_nil
    · exact ih member
  | case4 c rest feed pair first others same ih =>
    rw [same] at ih
    rcases List.mem_cons.mp member with rfl | member
    · have others := ih List.mem_cons_self
      simp [others, Ne.symm feed]
    · exact ih (List.mem_cons_of_mem _ member)
  | case5 c rest feed pair none =>
    obtain rfl := List.mem_singleton.mp member
    simpa using Ne.symm feed

theorem oneLine_of_mem_contentLines {comment : String} {line : List Char}
    (member : line ∈ contentLines comment) : '\n' ∉ line := by
  obtain ⟨whole, inText, rfl⟩ := List.mem_map.mp member
  have undressed : undecorated whole <:+ whole := by
    unfold undecorated dropPrefix
    split
    · exact (List.drop_suffix _ _).trans (List.dropWhile_suffix _)
    · exact List.dropWhile_suffix _
  exact fun feed => oneLine_of_mem_linesOf inText (undressed.subset feed)

/-- Everything can be cut out of a comment, and its tags are those of its lines. -/
theorem tags_ofComment (comment : String) :
    Sliced (joinLines (contentLines comment)) (spans true 0 (joinLines (contentLines comment))) ∧
      (ofComment comment).tags = (group (contentLines comment)).2 := by
  have oneLine : ∀ line ∈ contentLines comment, '\n' ∉ line := fun _ => oneLine_of_mem_contentLines
  rw [ofComment]
  cases all : contentLines comment with
  | nil => exact ⟨fun _ _ isSuffix => (by cases List.eq_nil_of_suffix_nil isSuffix), rfl⟩
  | cons line lines =>
    rw [all] at oneLine
    obtain ⟨here, later⟩ := List.forall_mem_cons.mp oneLine
    have behind : Agrees (line ++ linesBehind lines) ([] ++ line) _ lines := agrees line later
    obtain ⟨tags, slices⟩ := behind.opening linesBehind_feeds
    rw [joinLines_cons, spans_fresh, spans_line here, Nat.zero_add]
    exact ⟨slices, tags⟩

/-! ### Tags and the lines that they take -/

/-- A tag takes the line that it begins and lines behind it: what is left of the first with the others,
trimmed, is its body. -/
inductive Takes : DocTag → List (List Char) → Prop
  | intro {line name first : List Char} {others : List (List Char)} (opens : Opens line name first)
      (free : ∀ other ∈ others, IsFree other) :
      Takes ⟨String.ofList name, String.ofList (trim (joinLines (first :: others)))⟩ (line :: others)

theorem exists_takes (lines : List (List Char)) : ∃ blocks,
    lines = (group lines).1 ++ blocks.flatten ∧ (∀ line ∈ (group lines).1, IsFree line) ∧
      List.Forall₂ Takes (group lines).2 blocks := by
  induction lines with
  | nil => exact ⟨[], rfl, nofun, .nil⟩
  | cons line lines ih =>
    obtain ⟨blocks, split, free, takes⟩ := ih
    rcases opens_or_isFree line with ⟨name, first, opens⟩ | isFree
    · rw [group_of_opens opens]
      refine ⟨(line :: (group lines).1) :: blocks, ?_, nofun, .cons (.intro opens free) takes⟩
      simpa using split
    · rw [group_of_isFree isFree]
      exact ⟨blocks, congrArg (line :: ·) split, List.forall_mem_cons.mpr ⟨isFree, free⟩, takes⟩

theorem group_free_append {free : List (List Char)} (isFree : ∀ line ∈ free, IsFree line)
    (rest : List (List Char)) : group (free ++ rest) = (free ++ (group rest).1, (group rest).2) := by
  induction free with
  | nil => rfl
  | cons line free ih =>
    obtain ⟨here, later⟩ := List.forall_mem_cons.mp isFree
    rw [List.cons_append, group_of_isFree here, ih later]
    rfl

theorem group_flatten {tags : List DocTag} {blocks : List (List (List Char))}
    (takes : List.Forall₂ Takes tags blocks) : group blocks.flatten = ([], tags) := by
  induction takes with
  | nil => rfl
  | cons take _ ih =>
    obtain ⟨opens, free⟩ := take
    rw [List.flatten_cons, List.cons_append, group_of_opens opens, group_free_append free, ih,
      List.append_nil]

/-- Lines group to tags as they can be parted into what no tag takes and what each one takes. -/
theorem snd_group_eq_iff {lines : List (List Char)} {tags : List DocTag} :
    (group lines).2 = tags ↔ ∃ free blocks, lines = free ++ blocks.flatten ∧
      (∀ line ∈ free, IsFree line) ∧ List.Forall₂ Takes tags blocks := by
  constructor
  · rintro rfl
    exact ⟨(group lines).1, exists_takes lines⟩
  · rintro ⟨free, blocks, rfl, isFree, takes⟩
    rw [group_free_append isFree, group_flatten takes]

/-- The lines of a comment are those before any tag and, tag by tag, those that the tag takes;
no other tags part them so. All that the tags say can be cut out of the text. -/
theorem ofComment_tags_iff (comment : String) :
    Sliced (joinLines (contentLines comment)) (spans true 0 (joinLines (contentLines comment))) ∧
      ∀ tags, (ofComment comment).tags = tags ↔ ∃ free blocks,
        contentLines comment = free ++ blocks.flatten ∧ (∀ line ∈ free, IsFree line) ∧
          List.Forall₂ Takes tags blocks := by
  obtain ⟨slices, same⟩ := tags_ofComment comment
  refine ⟨slices, fun tags => ?_⟩
  rw [same, snd_group_eq_iff]

/-- A tag in the first line, none within a line, and one behind an empty line. -/
example : (ofComment "/**@a\n * see @b\n\n *\t@c:d x\n */").tags =
    [⟨"@a", "see @b"⟩, ⟨"@c:d", "x"⟩] := by decide

end TypeHints.DocBlock
