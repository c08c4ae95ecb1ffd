import TypeHints.Files.Basic

/-!
# Patterns of paths

A star stands for any text, a question mark for any character, and brackets for one of the
characters in them or, after an exclamation mark, for any other. Patterns match segment by segment,
and paths come in the order of their segments.
-/
namespace TypeHints

inductive GlobPiece where
  | char (c : Char)
  | anyChar
  | anyText
  /-- A character in one of the ranges. -/
  | inside (ranges : List (Char × Char))
  | outside (ranges : List (Char × Char))
  deriving DecidableEq, Repr

namespace Glob

/-! ### Reading -/

/-- Single characters, and ranges written with a dash. -/
def ranges : List Char → List (Char × Char)
  | a :: '-' :: b :: rest => (a, b) :: ranges rest
  | a :: rest => (a, a) :: ranges rest
  | [] => []

/-- What stands before a closing bracket and after it. -/
def closing? : List Char → Option (List Char × List Char)
  | [] => none
  | ']' :: rest => some ([], rest)
  | c :: rest => (closing? rest).map fun (inner, after) => (c :: inner, after)

/-- The piece that an opening bracket begins; a bracket that is its first character is part of it. -/
def bracket? : List Char → Option (GlobPiece × List Char)
  | '!' :: c :: rest => (closing? rest).map fun (inner, after) => (.outside (ranges (c :: inner)), after)
  | '!' :: [] => none
  | c :: rest => (closing? rest).map fun (inner, after) => (.inside (ranges (c :: inner)), after)
  | [] => none

theorem length_closing? {cs inner after : List Char} (h : closing? cs = some (inner, after)) :
    after.length < cs.length := by
  fun_induction closing? cs generalizing inner after with
  | case1 => simp at h
  | case2 rest =>
    simp only [Option.some.injEq, Prod.mk.injEq] at h
    simp [← h.2]
  | case3 c rest _ ih =>
    obtain ⟨⟨i, a⟩, found, same⟩ := Option.map_eq_some_iff.mp h
    simp only [Prod.mk.injEq] at same
    have := ih found
    simp [← same.2] at this ⊢
    omega

theorem length_bracket? {cs after : List Char} {piece : GlobPiece}
    (h : bracket? cs = some (piece, after)) : after.length < cs.length := by
  fun_cases bracket? cs with
  | case1 c rest =>
    obtain ⟨⟨i, a⟩, found, same⟩ := Option.map_eq_some_iff.mp h
    simp only [Prod.mk.injEq] at same
    have := length_closing? found
    simp [← same.2] at this ⊢
    omega
  | case2 => simp [bracket?] at h
  | case3 c rest _ _ =>
    rw [bracket?] at h
    · obtain ⟨⟨i, a⟩, found, same⟩ := Option.map_eq_some_iff.mp h
      simp only [Prod.mk.injEq] at same
      have := length_closing? found
      simp [← same.2] at this ⊢
      omega
    all_goals assumption
  | case4 => simp [bracket?] at h

/-- The pieces of a pattern, or how many characters are left at a bracket that does not close. -/
def pieces : List Char → Except Nat (List GlobPiece)
  | [] => .ok []
  | c :: rest =>
    if c = '?' then (pieces rest).map (.anyChar :: ·)
    else if c = '*' then (pieces rest).map (.anyText :: ·)
    else if c = '[' then
      match _h : bracket? rest with
      | some (piece, after) => (pieces after).map (piece :: ·)
      | none => .error (rest.length + 1)
    else (pieces rest).map (.char c :: ·)
termination_by cs => cs.length
decreasing_by
  all_goals simp only [List.length_cons]
  all_goals first | exact Nat.lt_succ_self _ | exact Nat.lt_succ_of_lt (length_bracket? _h)

def read (pattern : List Char) : Except Nat (List GlobPiece) :=
  (pieces pattern).mapError (pattern.length - ·)

/-- Whether a path has to be looked for rather than taken as it is. -/
def isPattern (path : String) : Bool := path.toList.any fun c => c = '*' || c = '?' || c = '['

/-! ### Matching -/

def inRange (c : Char) (range : Char × Char) : Bool := range.1 ≤ c && c ≤ range.2

def admits : GlobPiece → Char → Bool
  | .char d, c => c = d
  | .anyChar, _ => true
  | .anyText, _ => false
  | .inside ranges, c => ranges.any (inRange c)
  | .outside ranges, c => !ranges.any (inRange c)

/-- Whether an answer or a later one is yes, at each place. -/
def anyLater : List Bool → List Bool
  | [] => []
  | b :: rest =>
    let later := anyLater rest
    (b || later.headD false) :: later

/-- Whether the pieces match what is left of a text, at each place from its start to its end. -/
def verdicts : List GlobPiece → List Char → List Bool
  | [], cs => List.replicate cs.length false ++ [true]
  | .anyText :: rest, cs => anyLater (verdicts rest cs)
  | piece :: rest, cs =>
    List.zipWith (fun c matched => admits piece c && matched) cs (verdicts rest cs).tail ++ [false]

def accepts (pieces : List GlobPiece) (cs : List Char) : Bool := (verdicts pieces cs).headD false

/-- The text that is all that the pieces match. -/
def literal? : List GlobPiece → Option (List Char)
  | [] => some []
  | .char c :: rest => (literal? rest).map (c :: ·)
  | _ :: _ => none

/-! ### Finding -/

/-- Whether a path names the current folder by nothing but dots. -/
def isHere (folder : String) : Bool :=
  (Files.segmentsOf folder).head? = some "." && (Files.segmentsOf folder).all Files.isIdle

def below (folder name : String) : String := if isHere folder then name else Files.join folder name

/-- A pattern that begins with a dot finds the folder itself and the one above, too. -/
def dots : List GlobPiece → List String
  | .char '.' :: rest => ["..", "."].filter fun name => accepts (.char '.' :: rest) name.toList
  | _ => []

variable {m : Type → Type} [Monad m]

/-- The paths below a folder that match the segments. -/
def expand (files : Files m) : (segments : List (List GlobPiece)) → (folder : String) → m (List String)
  | [], path => pure [path]
  | segment :: rest, folder => do
    match literal? segment with
    | some name =>
      let path := below folder (String.ofList name)
      if ← files.holds path then expand files rest path else pure []
    | none =>
      match ← files.names? folder with
      | none => pure []
      | some names =>
        let found := (names.filter fun name => accepts segment name.toList).mergeSort fun a b => !(b < a)
        let paths := (dots segment).map (Files.join folder) ++ found.map (below folder)
        return (← paths.mapM fun path => expand files rest path).flatten

/-- The segments of a pattern; one that is empty at the end only asks for folders. -/
def segmentsOf (pattern : List Char) : List (List Char) :=
  let all := Files.segments pattern
  if all.getLast? = some [] then all.dropLast else all

def find (files : Files m) (pattern : String) : m (Except Nat (List String)) := do
  let cs := pattern.toList
  let checked : Except Nat (List (List GlobPiece)) := do
    discard (read cs)
    (segmentsOf (cs.dropWhile (· = '/'))).mapM read
  match checked with
  | .error position => return .error position
  | .ok segments =>
    let root := if cs.head? = some '/' then "/" else "."
    let paths ← expand files segments root
    if cs.getLast? = some '/' then
      return .ok (← paths.filterM fun path => Option.isSome <$> files.names? path)
    else return .ok paths

end Glob

end TypeHints
