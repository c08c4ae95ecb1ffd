import TypeHints.CommandLine

/-!
# The program

Answers the library's questions about files from the file system, and prints. The program's own
scenarios are looked for where it is started.
-/
namespace TypeHints.CommandLine

def faultOf : IO.Error → FileFault
  | .noFileOrDirectory _ _ _ => .missing
  | .inappropriateType _ code _ => if code = 21 then .isFolder else .notFolder
  | .permissionDenied _ _ _ => .denied
  | .invalidArgument _ 36 _ => .longName
  | e => .other (toString e)

def readText (path : String) : IO (Except FileFault String) := do
  try
    let bytes ← IO.FS.readBinFile path
    match String.fromUTF8? bytes with
    | some text => return .ok text
    | none => return .error .notText
  catch e => return .error (faultOf e)

def isThere (path : String) : IO Bool := do
  try
    discard (IO.FS.realPath path)
    return true
  catch _ => return false

def namesIn? (path : String) : IO (Option (List String)) := do
  try
    let folder ← IO.FS.realPath path
    return some ((← folder.readDir).toList.map (·.fileName))
  catch _ => return none

def diskFiles : Files IO := ⟨readText, isThere, namesIn?⟩

end TypeHints.CommandLine

open TypeHints.CommandLine in
def main (args : List String) : IO UInt32 := do
  let out ← run diskFiles "." args
  IO.print out.stdout
  IO.eprint out.stderr
  return out.code.toUInt32
