import TypeHints.Json.Read
import TypeHints.Keyed
import TypeHints.Text.Letter

/-!
# Decoding JSON

Decoders take a document apart from left to right, and the first thing that does not fit is the
error, with the path to the value where it happened. `record` and `enumeration` describe the two
shapes that the library's data has: fields in any order, and one of several named cases.
-/
namespace TypeHints.Json

inductive Segment where
  | key (name : String)
  | index (n : Nat)
  /-- A member whose name could not be read. -/
  | unknown
  deriving DecidableEq, Repr

abbrev Path := List Segment

namespace Path

def textFrom (separator : String) : List Segment → String
  | [] => ""
  | .index n :: rest => s!"[{n}]" ++ textFrom "." rest
  | .key name :: rest => separator ++ name ++ textFrom "." rest
  | .unknown :: rest => separator ++ "?" ++ textFrom "." rest

def text (path : List Segment) : String := if path.isEmpty then "." else textFrom "" path

end Path

inductive Complaint where
  | malformed (fault : Fault)
  | missingField (name : String)
  | duplicateField (name : String)
  | unknownField (name : String) (known : List String)
  | unknownVariant (name : String) (known : List String)
  | invalidType (found expected : String)
  | invalidLength (length : Nat) (expected : String)
  deriving DecidableEq, Repr

def oneOf : List String → String
  | [a] => s!"`{a}`"
  | [a, b] => s!"`{a}` or `{b}`"
  | names => "one of " ++ ", ".intercalate (names.map fun name => s!"`{name}`")

def Complaint.message : Complaint → String
  | .malformed fault => fault.message
  | .missingField name => s!"missing field `{name}`"
  | .duplicateField name => s!"duplicate field `{name}`"
  | .unknownField name known => s!"unknown field `{name}`, expected {oneOf known}"
  | .unknownVariant name known => s!"unknown variant `{name}`, expected {oneOf known}"
  | .invalidType found expected => s!"invalid type: {found}, expected {expected}"
  | .invalidLength length expected => s!"invalid length {length}, expected {expected}"

structure DecodeError where
  path : Path
  complaint : Complaint
  deriving DecidableEq, Repr

/-- Where in the document and what; the line and the column of the text are not told. -/
def DecodeError.message (e : DecodeError) : String :=
  s!"at JSON path {Path.text e.path}: {e.complaint.message}"

abbrev Decoder (α : Type) := Document → Except DecodeError α

def fail {α : Type} (complaint : Complaint) : Except DecodeError α := .error ⟨[], complaint⟩

def failAt {α : Type} (segment : Segment) (complaint : Complaint) : Except DecodeError α :=
  .error ⟨[segment], complaint⟩

def under {α : Type} (segment : Segment) : Except DecodeError α → Except DecodeError α
  | .ok value => .ok value
  | .error e => .error ⟨segment :: e.path, e.complaint⟩

/-! ### Values of the wrong kind -/

/-- Characters that show nothing are written by their number. -/
def shownChar (c : Char) : List Char :=
  if c = '"' then ['\\', '"']
  else if c = '\\' then ['\\', '\\']
  else if c = '\n' then ['\\', 'n']
  else if c = '\r' then ['\\', 'r']
  else if c = '\t' then ['\\', 't']
  else if c.toNat = 0 then ['\\', '0']
  else if Text.isHidden c then
    ['\\', 'u', '\x7b'] ++ Nat.toDigits 16 c.toNat ++ ['\x7d']
  else [c]

def shown (s : String) : String :=
  String.ofList ('"' :: s.toList.flatMap shownChar ++ ['"'])

def Document.kind : Document → String
  | .null => "null"
  | .bool value => if value then "boolean `true`" else "boolean `false`"
  | .integer value => s!"integer `{value}`"
  | .float value => s!"floating point `{value.scientific}`"
  | .text value => s!"string {shown value}"
  | .list _ _ => "sequence"
  | .object _ _ => "map"
  | .broken _ fault _ => fault.message
  | .deep d => d.kind

def mismatch {α : Type} (expected : String) : Document → Except DecodeError α
  | .broken _ fault _ => fail (.malformed fault)
  | d => fail (.invalidType d.kind expected)

/-! ### Plain values -/

def decodeTextAs (expected : String) : Decoder String
  | .text value => .ok value
  | d => mismatch expected d

def decodeText : Decoder String := decodeTextAs "a string"

def decodeBool : Decoder Bool
  | .bool value => .ok value
  | d => mismatch "a boolean" d

/-- What begins like `null` is read as such, whatever else could stand there. -/
def decodeOption {α : Type} (decode : Decoder α) : Decoder (Option α)
  | .null => .ok none
  | .broken (some 'n') fault _ => fail (.malformed fault)
  | d => (decode d).map some

def decodeItems {α : Type} (decode : Decoder α) : Nat → List Document → Except DecodeError (List α)
  | _, [] => .ok []
  | n, d :: rest => do
    let value ← under (.index n) (decode d)
    let others ← decodeItems decode (n + 1) rest
    return value :: others

def closed (stop : Option Fault) : Except DecodeError Unit :=
  match stop with
  | some fault => fail (.malformed fault)
  | none => .ok ()

def decodeList {α : Type} (decode : Decoder α) : Decoder (List α)
  | .list items stop => do
    let values ← decodeItems decode 0 items
    closed stop
    return values
  | .deep (.list _ _) => fail (.malformed .tooDeep)
  | d => mismatch "a sequence" d

/-! ### Members of objects -/

/-- A member that breaks off before its value is a fault of the object. -/
def memberFault? : Document → Option Fault
  | .broken _ .colon _ => some .colon
  | .broken _ .endOfObject _ => some .endOfObject
  | _ => none

def decodeMember {α : Type} (name : String) (decode : Decoder α) (d : Document) :
    Except DecodeError α :=
  match memberFault? d with
  | some fault => fail (.malformed fault)
  | none => under (.key name) (decode d)

mutual

/-- The first fault in a value that is only passed over. Depth does not matter then, and the ends of
lists and objects are told in fewer words. -/
def skipFault? : Document → Option Fault
  | .broken _ _ passed => passed
  | .deep d => skipFault? d
  | .list items stop =>
    (skipItems? items).orElse fun _ =>
      stop.map fun fault => if fault = .trailingComma then .value else fault
  | .object members stop =>
    (skipMembers? members).orElse fun _ =>
      stop.map fun fault =>
        if fault = .trailingComma then .key
        else if fault = .endOfValue then .endOfObject
        else fault
  | _ => none

def skipItems? : List Document → Option Fault
  | [] => none
  | d :: rest => (skipFault? d).orElse fun _ => skipItems? rest

def skipMembers? : List (Label × Document) → Option Fault
  | [] => none
  | (_, d) :: rest => (skipFault? d).orElse fun _ => skipMembers? rest

end

def skipMember (name : String) (d : Document) : Except DecodeError Unit :=
  match memberFault? d with
  | some fault => fail (.malformed fault)
  | none =>
    match skipFault? d with
    | some fault => failAt (.key name) (.malformed fault)
    | none => .ok ()

def nameFault {α : Type} (fault : Fault) : Except DecodeError α := failAt .unknown (.malformed fault)

/-- The end of an object, where the name of a further member could stand. -/
def closedObject (stop : Option Fault) : Except DecodeError Unit :=
  match stop with
  | some fault => nameFault fault
  | none => .ok ()

/-- A map; a name that comes again keeps its place and takes the last value. -/
def decodeMap {α : Type} (decode : Decoder α) : Decoder (Keyed String α)
  | .object members stop => do
    let map ← members.foldlM (fun (map : Keyed String α) (label, d) =>
      match label with
      | .error fault => nameFault fault
      | .ok name => do
        let value ← decodeMember name decode d
        return map.put name value) Keyed.empty
    closedObject stop
    return map
  | .deep (.object _ _) => fail (.malformed .tooDeep)
  | d => mismatch "a map" d

/-! ### Records -/

structure Field (σ : Type) where
  name : String
  set : Document → σ → Except DecodeError σ

/-- A field whose decoded value is put into the draft by `store`. -/
def field {σ α : Type} (name : String) (decode : Decoder α) (store : α → σ → σ) : Field σ :=
  ⟨name, fun d draft => (decode d).map (store · draft)⟩

/-- A record type: its fields in order, the empty draft, and how a draft becomes a value or lacks a
field. A strict record refuses fields that it does not know. -/
structure Record (σ α : Type) where
  title : String
  fields : List (Field σ)
  draft : σ
  build : σ → Except String α
  strict : Bool := false

namespace Record

variable {σ α : Type}

def names (r : Record σ α) : List String := r.fields.map (·.name)

/-- Fills in the members in their order; `seen` holds the names that came before. -/
def fill (r : Record σ α) : (seen : List String) → List (Label × Document) → σ →
    Except DecodeError σ
  | _, [], draft => .ok draft
  | _, (.error fault, _) :: _, _ => nameFault fault
  | seen, (.ok name, d) :: rest, draft =>
    match r.fields.find? (·.name = name) with
    | some f =>
      if name ∈ seen then fail (.duplicateField name)
      else do
        let draft ← decodeMember name (f.set · draft) d
        r.fill (name :: seen) rest draft
    | none =>
      if r.strict then failAt (.key name) (.unknownField name r.names)
      else do
        skipMember name d
        r.fill seen rest draft

/-- Fills in the fields by position. -/
def fillItems : (n : Nat) → List (Field σ) → List Document → σ → Except DecodeError σ
  | n, f :: fields, d :: rest, draft => do
    let draft ← under (.index n) (f.set d draft)
    fillItems (n + 1) fields rest draft
  | _, _, _, draft => .ok draft

def sizeText (r : Record σ α) : String :=
  let count := r.fields.length
  s!"{r.title} with {count} element" ++ (if count = 1 then "" else "s")

/-- The end of a list that may hold no more than the record's fields. -/
def closedItems (r : Record σ α) (items : List Document) (stop : Option Fault) :
    Except DecodeError Unit :=
  if r.fields.length < items.length then fail (.malformed .trailing)
  else
    match stop with
    | none => .ok ()
    | some fault =>
      if items.length < r.fields.length || fault = .endOfList || fault = .trailingComma then
        fail (.malformed fault)
      else fail (.malformed .trailing)

def decode (r : Record σ α) : Decoder α
  | .object members stop => do
    let draft ← r.fill [] members r.draft
    closedObject stop
    match r.build draft with
    | .ok value => return value
    | .error lacking => fail (.missingField lacking)
  | .list items stop => do
    let draft ← fillItems 0 r.fields items r.draft
    if items.length < r.fields.length then closed stop
    match r.build draft with
    | .ok value =>
      r.closedItems items stop
      return value
    | .error lacking =>
      fail (.invalidLength (r.names.findIdx (· = lacking)) r.sizeText)
  | .deep _ => fail (.malformed .tooDeep)
  | d => mismatch r.title d

end Record

def required {α : Type} (name : String) : Option α → Except String α
  | some value => .ok value
  | none => .error name

/-! ### Named cases -/

/-- What stands with the name of a case: nothing if only the name was written. -/
abbrev Payload (α : Type) := Option Document → Except DecodeError α

def unit {α : Type} (value : α) : Payload α
  | none => .ok value
  | some .null => .ok value
  | some d => mismatch "unit" d

def newtype {α : Type} (decode : Decoder α) : Payload α
  | none => fail (.invalidType "unit variant" "newtype variant")
  | some d => decode d

def fields {α : Type} (decode : Decoder α) : Payload α
  | none => fail (.invalidType "unit variant" "struct variant")
  | some d => decode d

/-- One of several cases: the name as a string, or an object whose only member is the case. Nothing
else is looked into. -/
def enumeration {α : Type} (cases : List (String × Payload α)) : Decoder α
  | .text name =>
    match cases.find? (·.1 = name) with
    | some (_, payload) => under (.key name) (payload none)
    | none => fail (.unknownVariant name (cases.map Prod.fst))
  | .object [] stop => fail (.malformed (stop.getD .value))
  | .object ((.error fault, _) :: _) _ => fail (.malformed fault)
  | .object ((.ok name, d) :: rest) stop =>
    match cases.find? (·.1 = name) with
    | some (_, payload) => do
      let value ← decodeMember name (fun d => payload (some d)) d
      if !rest.isEmpty then fail (.malformed .value)
      else
        match stop with
        | none => return value
        | some .endOfObject => fail (.malformed .endOfObject)
        | some _ => fail (.malformed .value)
    | none => fail (.unknownVariant name (cases.map Prod.fst))
  | .broken (some '"') fault _ => fail (.malformed fault)
  | .broken none fault _ => fail (.malformed fault)
  | .deep (.object _ _) => fail (.malformed .tooDeep)
  | _ => fail (.malformed .value)

def decodeString {α : Type} (decode : Decoder α) (text : String) : Except DecodeError α :=
  decode ((Document.ofString text).within maxNesting)

end TypeHints.Json
