/-!
What the library asks of a file system, in any monad that can answer, and how paths are put
together. A path is text whose segments stand between slashes.
-/
namespace TypeHints

inductive FileFault where
  | missing
  | notFolder
  | isFolder
  | denied
  | longName
  | nulInName
  | notText
  /-- Anything else, in the words of the system. -/
  | other (details : String)
  deriving DecidableEq, Repr

def FileFault.message : FileFault → String
  | .missing => "No such file or directory (os error 2)"
  | .notFolder => "Not a directory (os error 20)"
  | .isFolder => "Is a directory (os error 21)"
  | .denied => "Permission denied (os error 13)"
  | .longName => "File name too long (os error 36)"
  | .nulInName => "file name contained an unexpected NUL byte"
  | .notText => "stream did not contain valid UTF-8"
  | .other details => details

structure Files (m : Type → Type) where
  read : (path : String) → m (Except FileFault String)
  holds : (path : String) → m Bool
  /-- The names in a folder, in any order; a file has none. -/
  names? : (path : String) → m (Option (List String))

namespace Files

/-- The pieces between slashes; the first is empty in a path from the root. -/
def segments : List Char → List (List Char)
  | [] => [[]]
  | c :: cs =>
    if c = '/' then [] :: segments cs
    else
      match segments cs with
      | [] => [[c]]
      | first :: rest => (c :: first) :: rest

def segmentsOf (path : String) : List String := (segments path.toList).map String.ofList

def isIdle (segment : String) : Bool := segment = "" || segment = "."

/-- The path without its last segment and the idle ones before it; the first segment stays. -/
def parent (path : String) : String :=
  match (segmentsOf path).dropLast with
  | [] => ""
  | first :: rest =>
    let kept := first :: (rest.reverse.dropWhile isIdle).reverse
    if kept = [""] then "/" else "/".intercalate kept

/-- One path read from another; a path from the root stands for itself. -/
def join (base path : String) : String :=
  if path.toList.head? = some '/' || base = "" then path
  else if base.toList.getLast? = some '/' then base ++ path
  else base ++ "/" ++ path

end Files

end TypeHints
