import TypeScribe.Json.Document
import TypeScribe.Json.Fields
import TypeScribe.Value

/-!
# Identities and values in JSON

A value is a variant. Its components lie inside at least one bracket of its own, so values nest at most as deep as
brackets may.
-/

namespace TypeScribe
open Json

/-! ## Identities -/

namespace Identity

def toDocument (identity : Identity) : Document :=
  .map [("package", .text identity.package), ("module", .text identity.module), ("name", .text identity.name)]

def reader : Reader Identity := do
  let (package, module, name, ()) ← Fields.record "struct TypeIdentity" false <|
    .cons "package" Reader.text none <|
    .cons "module" Reader.text none <|
    .cons "name" Reader.text none .nil
  return { package, module, name }

end Identity

/-! ## Writing values -/

def Scalar.wireName : Scalar → String
  | .bool => "bool"
  | .char => "char"
  | .date => "date"
  | .float => "float"
  | .int => "int"
  | .int32 => "int32"
  | .string => "string"
  | .unit => "unit"

mutual

def Value.toDocument : Value → Document
  | .typeRef identity name => .tagged "type_ref" (.map [("identity", identity.toDocument), ("name", .text name)])
  | .application identity arguments =>
    .tagged "ref_application" (.map [("identity", identity.toDocument), ("args", arguments.toDocument)])
  | .primitive p => .tagged "primitive" p.toDocument
  | .parameter name => .tagged "type_parameter" (.text name)
  | .field name value => .tagged "field" (.map [("name", .text name), ("value", value.toDocument)])
  | .product left right => .tagged "product" (.sequence [left.toDocument, right.toDocument])
  | .argumentPair left right => .tagged "ref_application_values" (.sequence [left.toDocument, right.toDocument])
  | .empty => .text "empty"

def Primitive.toDocument : Primitive → Document
  | .scalar s => .text s.wireName
  | .list item => .tagged "list" item.toDocument
  | .option item => .tagged "option" item.toDocument
  | .either left right => .tagged "either" (.sequence [left.toDocument, right.toDocument])
  | .tuple items => .tagged "tuple" (.sequence (Value.toDocuments items))

def Value.toDocuments : List Value → List Document
  | [] => []
  | item :: rest => item.toDocument :: Value.toDocuments rest

end

/-! ## Reading values -/

def Primitive.variants (value : Reader Value) : Variants Primitive := [
  ("bool", .unit (.scalar .bool)),
  ("char", .unit (.scalar .char)),
  ("date", .unit (.scalar .date)),
  ("float", .unit (.scalar .float)),
  ("int", .unit (.scalar .int)),
  ("int32", .unit (.scalar .int32)),
  ("string", .unit (.scalar .string)),
  ("unit", .unit (.scalar .unit)),
  ("list", .single do return .list (← value)),
  ("option", .single do return .option (← value)),
  ("either", .tuple "tuple variant Primitive::Either" (.cons "0" value none <| .cons "1" value none .nil)
    fun (left, right, ()) => .either left right),
  ("tuple", .single do return .tuple (← Reader.list value))]

def Value.variants (value : Reader Value) : Variants Value := [
  ("type_ref", .record "struct variant ValueExpr::TypeRef"
    (.cons "identity" Identity.reader none <| .cons "name" Reader.text none .nil)
    fun (identity, name, ()) => .typeRef identity name),
  ("ref_application", .record "struct variant ValueExpr::RefApplication"
    (.cons "identity" Identity.reader none <| .cons "args" value none .nil)
    fun (identity, arguments, ()) => .application identity arguments),
  ("primitive", .single do return .primitive (← Reader.variant (Primitive.variants value))),
  ("type_parameter", .single do return .parameter (← Reader.text)),
  ("field", .record "struct variant ValueExpr::Field"
    (.cons "name" Reader.text none <| .cons "value" value none .nil)
    fun (name, value, ()) => .field name value),
  ("product", .tuple "tuple variant ValueExpr::Product" (.cons "0" value none <| .cons "1" value none .nil)
    fun (left, right, ()) => .product left right),
  ("ref_application_values", .tuple "tuple variant ValueExpr::RefApplicationValues"
    (.cons "0" value none <| .cons "1" value none .nil)
    fun (left, right, ()) => .argumentPair left right),
  ("empty", .unit .empty)]

/-- A value that nests at most so deep. -/
def Value.readerWithin : Nat → Reader Value
  | 0 => throw .recursionLimit
  | levels + 1 => Reader.variant (Value.variants (Value.readerWithin levels))

def Value.reader : Reader Value := Value.readerWithin (depthLimit + 1)

def Primitive.reader : Reader Primitive := Reader.variant (Primitive.variants Value.reader)

end TypeScribe
