import TypeHints.Json.Document
import TypeHints.Native.Decl

namespace TypeHints
open Json

def NamedType.toDocument (type : NamedType) : Document :=
  .ofMembers [("name", .text type.name), ("builtin", .bool type.isBuiltin),
    ("allows_null", .bool type.allowsNull)]

namespace NativeType

mutual

def toDocument : NativeType → Document
  | .named type => .ofMembers [("named", type.toDocument)]
  | .union members => .ofMembers [("union", .ofList (toDocuments members))]
  | .intersection members => .ofMembers [("intersection", .ofList (toDocuments members))]
  | .other kind => .ofMembers [("other", .text kind)]

def toDocuments : List NativeType → List Document
  | [] => []
  | type :: rest => toDocument type :: toDocuments rest

end

def optional : Option NativeType → Document
  | some type => type.toDocument
  | none => .null

end NativeType

def ParameterDecl.toDocument (p : ParameterDecl) : Document :=
  .ofMembers [("name", .text p.name), ("type", NativeType.optional p.type)]

def PropertyDecl.toDocument (p : PropertyDecl) : Document :=
  .ofMembers [("name", .text p.name), ("declaring_class", .text p.declaringClass),
    ("doc_comment", .ofText? p.docComment), ("type", NativeType.optional p.type)]

def FunctionDecl.toDocument (f : FunctionDecl) : Document :=
  .ofMembers [("name", .text f.name), ("declaring_class", .ofText? f.declaringClass),
    ("doc_comment", .ofText? f.docComment), ("return_type", NativeType.optional f.returnType),
    ("parameters", .ofList (f.parameters.map ParameterDecl.toDocument))]

def ClassDecl.toDocument (c : ClassDecl) : Document :=
  .ofMembers [("name", .text c.name), ("kind", .text c.kind.name), ("parent", .ofText? c.parent),
    ("interfaces", .ofList (c.interfaces.map Document.text)),
    ("traits", .ofList (c.traits.map Document.text)),
    ("backing", .ofText? (c.backing.map Kind.name)),
    ("uses", .ofMembers (c.uses.entries.map fun (short, target) => (short, .text target))),
    ("doc_comment", .ofText? c.docComment),
    ("properties", .ofList (c.properties.map PropertyDecl.toDocument)),
    ("methods", .ofList (c.methods.map FunctionDecl.toDocument))]

end TypeHints
