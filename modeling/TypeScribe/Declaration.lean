import TypeScribe.Ocaml.TypeExpr
import TypeScribe.Options

/-!
# Type declarations

A descriptor becomes a group of type definitions: the record types for the branches of a sum of records, if it is one,
and then the type itself. In a group that mentions itself all definitions are joined.
-/

namespace TypeScribe
open Ocaml (Path TypeExpr TypeBody TypeDefinition DefinitionGroup)

def Scalar.typePath : Scalar → Path
  | .bool => ⟨[], "bool"⟩
  | .char => ⟨[], "string"⟩
  | .date => ⟨["Js_date"], "t"⟩
  | .float => ⟨[], "float"⟩
  | .int => ⟨[], "int"⟩
  | .int32 => ⟨[], "int32"⟩
  | .string => ⟨[], "string"⟩
  | .unit => ⟨[], "unit"⟩

/-- The type of a value on one of two sides. -/
def eitherPath : Path := ⟨["Aeson", "Compatibility", "Either"], "t"⟩

def declaredType (displayName : String) (parameters : List String) : TypeExpr :=
  .applied (Ocaml.typeName displayName) (parameters.map Ocaml.variableName)

def declareType (displayName : String) (parameters : List String) (body : TypeBody) : TypeDefinition :=
  { name := Ocaml.typeName displayName, parameters := parameters.map Ocaml.variableName, body }

/-- The constructor for a branch of a sum of records, which carries the branch's type. -/
def HoistedRecord.constructorType (record : HoistedRecord) : String × List TypeExpr :=
  (Ocaml.constructorName record.branch, [declaredType record.displayName record.parameters])

namespace Context

mutual

/-- The type expression of a field type. The arguments of a type come before its own path. -/
def typeExpr (context : Context) : FieldType → Except RenderError TypeExpr
  | .reference identity name => do
    return .constructor (← context.pathTo identity (Ocaml.typeName name)) []
  | .application identity arguments => do
    let arguments ← context.typeExprs arguments
    return .constructor (← context.pathTo identity (Ocaml.typeName identity.name)) arguments
  | .scalar s => return .constructor s.typePath []
  | .list item => return .constructor ⟨[], "list"⟩ [← context.typeExpr item]
  | .option item => return .constructor ⟨[], "option"⟩ [← context.typeExpr item]
  | .either left right => do
    let left ← context.typeExpr left
    return .constructor eitherPath [left, ← context.typeExpr right]
  | .tuple items => do
    checkArity items.length
    return .tuple (← context.typeExprs items)
  | .parameter name => return .var (Ocaml.variableName name)
  | .misplaced kind => throw (context.misplaced kind .typePosition)

def typeExprs (context : Context) : List FieldType → Except RenderError (List TypeExpr)
  | [] => return []
  | item :: rest => do
    let first ← context.typeExpr item
    return first :: (← context.typeExprs rest)

end

def fieldType (context : Context) (field : RecordField) : Except RenderError (String × TypeExpr) := do
  return (Ocaml.label field.name, ← context.typeExpr field.value.fieldType)

def recordBody (context : Context) (fields : List RecordField) : Except RenderError TypeBody := do
  return .record (← fields.mapM context.fieldType)

def constructorType (context : Context) (constructor : Positional) :
    Except RenderError (String × List TypeExpr) := do
  let arguments ← constructor.arguments.mapM fun argument => context.typeExpr argument.fieldType
  return (Ocaml.constructorName constructor.name, arguments)

def hoistedDefinition (context : Context) (record : HoistedRecord) : Except RenderError TypeDefinition := do
  return declareType record.displayName record.parameters (← context.recordBody record.fields)

/-- The types for a shape, of which the last one is the type itself. -/
def typeDefinitions (context : Context) (parameters : List String) :
    Shape → Except RenderError (List TypeDefinition)
  | .alias p => do
    return [declareType context.displayName parameters (.alias (← context.typeExpr p.fieldType))]
  | .record fields => do
    return [declareType context.displayName parameters (← context.recordBody fields)]
  | .single constructor => do
    return [declareType context.displayName parameters (.variant [← context.constructorType constructor])]
  | .sum constructors => do
    return [declareType context.displayName parameters (.variant (← constructors.mapM context.constructorType))]
  | .enumeration tags =>
    return [declareType context.displayName parameters (.variant (tags.map fun tag => (Ocaml.constructorName tag, [])))]
  | .sumOfRecords records => do
    let hoisted ← records.mapM context.hoistedDefinition
    return hoisted ++ [declareType context.displayName parameters (.variant (records.map (·.constructorType)))]

end Context

namespace Descriptor

def declaration (descriptor : Descriptor) (options : Options) :
    Except RenderError (DefinitionGroup TypeDefinition) := do
  let shape ← descriptor.classify
  let context := Context.ofDescriptor options descriptor
  let definitions ← context.typeDefinitions descriptor.parameters shape
  return { recursive := descriptor.references descriptor.identity, items := definitions }

end Descriptor

end TypeScribe
