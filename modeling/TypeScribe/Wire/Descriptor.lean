import TypeScribe.Descriptor
import TypeScribe.Wire.Value

/-!
# Descriptors in JSON
-/

namespace TypeScribe
open Json

/-! ## Writing -/

mutual

def Alternatives.toDocument : Alternatives → Document
  | .named name value => .tagged "named" (.map [("name", .text name), ("value", value.toDocument)])
  | .record name value => .tagged "record" (.map [("name", .text name), ("value", value.toDocument)])
  | .multiple items => .tagged "multiple" (.sequence (Alternatives.toDocuments items))

def Alternatives.toDocuments : List Alternatives → List Document
  | [] => []
  | item :: rest => item.toDocument :: Alternatives.toDocuments rest

end

def Constructor.toDocument : Constructor → Document
  | .alias p => .tagged "primitive_wrapper" p.toDocument
  | .value alternatives => .tagged "value" alternatives.toDocument
  | .enumeration tags => .tagged "enumerator" (.ofTexts tags)
  | .sumOfRecords typeName alternatives =>
    .tagged "sum_of_records" (.map [("type_name", .text typeName), ("branches", alternatives.toDocument)])

def Descriptor.toDocument (descriptor : Descriptor) : Document :=
  .map [("identity", descriptor.identity.toDocument), ("display_name", .text descriptor.displayName),
    ("constructor", descriptor.constructor.toDocument)]

def Descriptor.print (descriptors : List Descriptor) : String :=
  (Document.sequence (descriptors.map toDocument)).toText

/-! ## Reading -/

def Alternatives.variants (group : Reader Alternatives) : Variants Alternatives := [
  ("named", .record "struct variant ValueConstructor::Named"
    (.cons "name" Reader.text none <| .cons "value" Value.reader none .nil)
    fun (name, value, ()) => .named name value),
  ("record", .record "struct variant ValueConstructor::Record"
    (.cons "name" Reader.text none <| .cons "value" Value.reader none .nil)
    fun (name, value, ()) => .record name value),
  ("multiple", .single do return .multiple (← Reader.list group))]

/-- Constructors that nest at most so deep. -/
def Alternatives.readerWithin : Nat → Reader Alternatives
  | 0 => throw .recursionLimit
  | levels + 1 => Reader.variant (Alternatives.variants (Alternatives.readerWithin levels))

def Alternatives.reader : Reader Alternatives := Alternatives.readerWithin (depthLimit + 1)

def Constructor.variants : Variants Constructor := [
  ("primitive_wrapper", .single do return .alias (← Primitive.reader)),
  ("value", .single do return .value (← Alternatives.reader)),
  ("enumerator", .single do return .enumeration (← Reader.list Reader.text)),
  ("sum_of_records", .record "struct variant Constructor::SumOfRecords"
    (.cons "type_name" Reader.text none <| .cons "branches" Alternatives.reader none .nil)
    fun (typeName, alternatives, ()) => .sumOfRecords typeName alternatives)]

def Descriptor.reader : Reader Descriptor := do
  let (identity, displayName, constructor, ()) ← Fields.record "struct TypeDescriptor" false <|
    .cons "identity" Identity.reader none <|
    .cons "display_name" Reader.text none <|
    .cons "constructor" (Reader.variant Constructor.variants) none .nil
  return { identity, displayName, constructor }

def Descriptor.parse (text : String) : Except ReadError (List Descriptor) :=
  Reader.run (Reader.list reader) text

end TypeScribe
