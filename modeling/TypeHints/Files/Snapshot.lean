import TypeHints.Files.Basic
import TypeHints.Keyed

/-!
# Snapshots

Files held in memory, by the names on the way to them. The root is a folder, and so is every name on
the way to a file. What lies above the root is a folder in which nothing is known.
-/
namespace TypeHints

structure Snapshot where
  folders : List (List String) := []
  texts : Keyed (List String) String := Keyed.empty
  deriving Inhabited

namespace Snapshot

/-- The names that a path leads to from `names`, one segment on. -/
def walk (names : List String) (segment : String) : List String :=
  if Files.isIdle segment then names
  else if segment = ".." then names.dropLast
  else names ++ [segment]

def put (s : Snapshot) (path text : String) : Snapshot :=
  let segments := Files.segmentsOf path
  let way := segments.dropLast.foldl
    (fun (names, found) segment =>
      let names := walk names segment
      (names, names :: found)) (([] : List String), s.folders)
  ⟨way.2, s.texts.put (segments.foldl walk []) text⟩

def ofList (files : List (String × String)) : Snapshot :=
  files.foldl (fun s (path, text) => s.put path text) {}

inductive Place where
  | folder (names : List String)
  | above
  | file (text : String)
  deriving DecidableEq, Repr

/-- What has this name in a known folder. -/
def entry (s : Snapshot) (names : List String) : Except FileFault Place :=
  if names ∈ s.folders then .ok (.folder names)
  else
    match s.texts.find? names with
    | some text => .ok (.file text)
    | none => .error .missing

/-- Bytes that a name, and a path with the byte after it, may take. -/
def maxNameBytes : Nat := 255
def maxPathBytes : Nat := 4096

def step (s : Snapshot) (segment : String) (place : Place) : Except FileFault Place :=
  match place with
  | .file _ => .error .notFolder
  | place =>
    if Files.isIdle segment then .ok place
    else if maxNameBytes < segment.utf8ByteSize then .error .longName
    else
      match place with
      | .folder names =>
        if segment ≠ ".." then s.entry (names ++ [segment])
        else .ok (if names.isEmpty then .above else .folder names.dropLast)
      | place => if segment = ".." then .ok place else .error .missing

/-- The place at a path; a path from the root leaves the snapshot. -/
def place (s : Snapshot) (path : String) : Except FileFault Place :=
  if path.contains '\x00' then .error .nulInName
  else if path = "" then .error .missing
  else if maxPathBytes ≤ path.utf8ByteSize then .error .longName
  else
    let start := if path.toList.head? = some '/' then .above else .folder []
    (Files.segmentsOf path).foldlM (fun place segment => s.step segment place) start

def read (s : Snapshot) (path : String) : Except FileFault String :=
  match s.place path with
  | .ok (.file text) => .ok text
  | .ok _ => .error .isFolder
  | .error fault => .error fault

def namesIn (s : Snapshot) (names : List String) : List String :=
  ((s.folders ++ s.texts.keys).filterMap fun path =>
    if path.dropLast = names then path.getLast? else none).eraseDups

def names? (s : Snapshot) (path : String) : Option (List String) :=
  match s.place path with
  | .ok (.folder names) => some (s.namesIn names)
  | .ok .above => some []
  | _ => none

def files (s : Snapshot) : Files Id where
  read := s.read
  holds path := (s.place path).isOk
  names? := s.names?

end Snapshot

end TypeHints
