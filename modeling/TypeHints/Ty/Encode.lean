import TypeHints.Json.Document
import TypeHints.Ty.Basic

namespace TypeHints
open Json

def boundDocument : Option Int64 → Document
  | some value => .integer value.toInt
  | none => .null

def Refinement.toDocument : Refinement → Document
  | .range min max =>
    .ofMembers [("range-int", .ofMembers [("min", boundDocument min), ("max", boundDocument max)])]
  | r => .text r.keyword

def Builtin.toDocument (b : Builtin) : Document :=
  .ofMembers <| ("kind", .text b.kind.name) ::
    match b.refinement with
    | some r => [("sub_kind", r.toDocument)]
    | none => []

def tagged (name : String) (d : Document) : Document := .ofMembers [(name, d)]

namespace Ty

mutual

def toDocument : Ty → Document
  | .builtin b => tagged "builtin" b.toDocument
  | .nullable inner => tagged "nullable" (toDocument inner)
  | .union members => tagged "union" (.ofList (toDocuments members))
  | .intersection members => tagged "intersection" (.ofList (toDocuments members))
  | .object className => tagged "object" (tagged "class_name" (.text className))
  | .enum className => tagged "enum" (tagged "class_name" (.text className))
  | .backedEnum className backing =>
    tagged "backed_enum"
      (.ofMembers [("class_name", .text className), ("backing_type", backing.toDocument)])
  | .collection wrapped isList =>
    tagged "collection" (.ofMembers [("wrapped", toDocument wrapped), ("is_list", .bool isList)])
  | .generic wrapped args =>
    tagged "generic" (.ofMembers [("wrapped", toDocument wrapped),
      ("variable_types", .ofList (toDocuments args))])
  | .template name bound =>
    tagged "template" (.ofMembers [("name", .text name), ("bound", toDocument bound)])

def toDocuments : List Ty → List Document
  | [] => []
  | t :: rest => toDocument t :: toDocuments rest

end

end Ty

end TypeHints
