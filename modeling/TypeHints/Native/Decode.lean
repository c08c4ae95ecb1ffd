import TypeHints.Json.Decode
import TypeHints.Native.Table

/-!
Fields come in any order and most may be left out. A native type names its case; a named type is a
builtin, unless it says otherwise, if its name is that of a kind.
-/
namespace TypeHints
open Json

def Kind.decode : Decoder Kind := enumeration (Kind.all.map fun k => (k.name, unit k))

def ClassKind.all : List ClassKind := [.regular, .interface, .trait, .enum]

def ClassKind.decode : Decoder ClassKind :=
  enumeration (ClassKind.all.map fun k => (k.name, unit k))

/-! ### Native types -/

structure NamedDraft where
  name : Option String := none
  isBuiltin : Option Bool := none
  allowsNull : Bool := false

def NamedType.record : Record NamedDraft NamedType where
  title := "struct ManifestNamedType"
  fields :=
    [field "name" decodeText fun name draft => { draft with name },
     field "builtin" (decodeOption decodeBool) fun isBuiltin draft => { draft with isBuiltin },
     field "allows_null" decodeBool fun allowsNull draft => { draft with allowsNull }]
  draft := {}
  build := fun draft => do
    let name ← required "name" draft.name
    return ⟨name, draft.isBuiltin.getD (Kind.ofName? name).isSome, draft.allowsNull⟩

def NativeType.decodeWithin : (room : Nat) → Decoder NativeType
  | 0 => fun _ => fail (.malformed .tooDeep)
  | room + 1 =>
    let members := decodeList (decodeWithin room)
    enumeration
      [("named", newtype fun d => (NamedType.record.decode d).map NativeType.named),
       ("union", newtype fun d => (members d).map NativeType.union),
       ("intersection", newtype fun d => (members d).map NativeType.intersection),
       ("other", newtype fun d => (decodeText d).map NativeType.other)]

/-- Every level takes a level of the document, so `maxNesting` of them are enough. -/
def NativeType.decode : Decoder NativeType := decodeWithin (maxNesting + 1)

/-! ### Members -/

def ParameterDecl.record : Record (Option String × Option NativeType) ParameterDecl where
  title := "struct ParameterInfo"
  fields :=
    [field "name" decodeText fun name draft => (some name, draft.2),
     field "type" (decodeOption NativeType.decode) fun type draft => (draft.1, type)]
  draft := (none, none)
  build := fun draft => return ⟨← required "name" draft.1, draft.2⟩

def ParameterDecl.decode : Decoder ParameterDecl := ParameterDecl.record.decode

def PropertyDecl.record : Record (Option String × PropertyDecl) PropertyDecl where
  title := "struct PropertyInfo"
  fields :=
    [field "name" decodeText fun name draft => (some name, draft.2),
     field "declaring_class" decodeText fun declaringClass draft =>
       (draft.1, { draft.2 with declaringClass }),
     field "doc_comment" (decodeOption decodeText) fun docComment draft =>
       (draft.1, { draft.2 with docComment }),
     field "type" (decodeOption NativeType.decode) fun type draft =>
       (draft.1, { draft.2 with type })]
  draft := (none, { name := "" })
  build := fun draft => return { draft.2 with name := ← required "name" draft.1 }

def PropertyDecl.decode : Decoder PropertyDecl := PropertyDecl.record.decode

def FunctionDecl.record : Record (Option String × FunctionDecl) FunctionDecl where
  title := "struct FunctionInfo"
  fields :=
    [field "name" decodeText fun name draft => (some name, draft.2),
     field "declaring_class" (decodeOption decodeText) fun declaringClass draft =>
       (draft.1, { draft.2 with declaringClass }),
     field "doc_comment" (decodeOption decodeText) fun docComment draft =>
       (draft.1, { draft.2 with docComment }),
     field "return_type" (decodeOption NativeType.decode) fun returnType draft =>
       (draft.1, { draft.2 with returnType }),
     field "parameters" (decodeList ParameterDecl.decode) fun parameters draft =>
       (draft.1, { draft.2 with parameters })]
  draft := (none, { name := "" })
  build := fun draft => return { draft.2 with name := ← required "name" draft.1 }

def FunctionDecl.decode : Decoder FunctionDecl := FunctionDecl.record.decode

/-! ### Classes -/

def ClassDecl.record : Record (Option String × ClassDecl) ClassDecl where
  title := "struct ClassInfo"
  fields :=
    [field "name" decodeText fun name draft => (some name, draft.2),
     field "kind" ClassKind.decode fun kind draft => (draft.1, { draft.2 with kind }),
     field "parent" (decodeOption decodeText) fun parent draft =>
       (draft.1, { draft.2 with parent }),
     field "interfaces" (decodeList decodeText) fun interfaces draft =>
       (draft.1, { draft.2 with interfaces }),
     field "traits" (decodeList decodeText) fun traits draft => (draft.1, { draft.2 with traits }),
     field "backing" (decodeOption Kind.decode) fun backing draft =>
       (draft.1, { draft.2 with backing }),
     field "uses" (decodeMap decodeText) fun uses draft => (draft.1, { draft.2 with uses }),
     field "doc_comment" (decodeOption decodeText) fun docComment draft =>
       (draft.1, { draft.2 with docComment }),
     field "properties" (decodeList PropertyDecl.decode) fun properties draft =>
       (draft.1, { draft.2 with properties }),
     field "methods" (decodeList FunctionDecl.decode) fun methods draft =>
       (draft.1, { draft.2 with methods })]
  draft := (none, { name := "" })
  build := fun draft => return { draft.2 with name := ← required "name" draft.1 }

def ClassDecl.decode : Decoder ClassDecl := ClassDecl.record.decode

/-- A manifest starts from the builtins unless it says otherwise, and knows no other field. -/
def ClassTable.record : Record (Bool × List ClassDecl) ClassTable where
  title := "struct Manifest"
  fields :=
    [field "builtins" decodeBool fun builtins draft => (builtins, draft.2),
     field "classes" (decodeList ClassDecl.decode) fun classes draft => (draft.1, classes)]
  draft := (true, [])
  build := fun (builtins, classes) =>
    return (if builtins then ClassTable.builtins else ClassTable.empty).insertAll classes
  strict := true

def ClassTable.decode : Decoder ClassTable := ClassTable.record.decode

end TypeHints
