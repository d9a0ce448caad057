import TypeScribe.Declaration
import TypeScribe.Decoder.Body

/-!
# Decoders

A descriptor becomes a group of functions: the decoders of the record types for the branches of a sum of records, if it
is one, and then the decoder of the type itself. A decoder takes one decoder for each type parameter and then the JSON
value.
-/

namespace TypeScribe
open Ocaml (TypeExpr Function DefinitionGroup ValueSpec)

def decoderFunction (displayName : String) (parameters : List String) (body : Ocaml.Body) : Function :=
  { name := Ocaml.decoderName displayName
    parameters := parameters.map Ocaml.decoderParameter ++ ["json"]
    body }

namespace Context

def recordFunction (context : Context) (displayName : String) (parameters : List String)
    (fields : List RecordField) : Except RenderError Function := do
  let type := declaredType displayName parameters
  let body ← context.recordDecoder (Ocaml.decoderName displayName) type fields
  return decoderFunction displayName parameters body

def hoistedFunction (context : Context) (record : HoistedRecord) : Except RenderError Function :=
  context.recordFunction record.displayName record.parameters record.fields

/-- The decoders for a shape, of which the last one is the decoder of the type itself. -/
def functions (context : Context) (parameters : List String) (shape : Shape) :
    Except RenderError (List Function) := do
  let name := context.displayName
  let decoder := Ocaml.decoderName name
  match shape with
  | .alias p => return [decoderFunction name parameters (← context.aliasDecoder decoder p)]
  | .record fields => return [← context.recordFunction name parameters fields]
  | .single constructor =>
    return [decoderFunction name parameters (← context.singleDecoder decoder constructor)]
  | .sum constructors =>
    let arms ← constructors.mapM (context.constructorArm decoder)
    return [decoderFunction name parameters (Decoder.dispatch decoder arms)]
  | .enumeration tags => return [decoderFunction name parameters (context.enumerationDecoder decoder tags)]
  | .sumOfRecords records =>
    let hoisted ← records.mapM context.hoistedFunction
    let arms := records.map (context.hoistedArm decoder)
    return hoisted ++ [decoderFunction name parameters (Decoder.dispatch decoder arms)]

end Context

/-! ## Interfaces -/

def resultType (value : TypeExpr) : TypeExpr :=
  .constructor ⟨["Belt", "Result"], "t"⟩ [value, .constructor ⟨[], "string"⟩ []]

def jsonType : TypeExpr := .constructor ⟨["Js", "Json"], "t"⟩ []

/-- The type of the decoder of a type: the decoders of its parameters come first. -/
def decoderType (displayName : String) (parameters : List String) : TypeExpr :=
  (parameters.map fun parameter => TypeExpr.arrow jsonType (resultType (.var (Ocaml.variableName parameter)))).foldr
    .arrow (.arrow jsonType (resultType (declaredType displayName parameters)))

def decoderSpec (displayName : String) (parameters : List String) : ValueSpec :=
  { name := Ocaml.decoderName displayName, type := decoderType displayName parameters }

namespace Descriptor

def decoder (descriptor : Descriptor) (options : Options) : Except RenderError (DefinitionGroup Function) := do
  let shape ← descriptor.classify
  let context := Context.ofDescriptor options descriptor
  let functions ← context.functions descriptor.parameters shape
  return { recursive := descriptor.references descriptor.identity, items := functions }

def decoderSpecs (descriptor : Descriptor) : Except RenderError (List ValueSpec) := do
  let own := decoderSpec descriptor.displayName descriptor.parameters
  match ← descriptor.classify with
  | .sumOfRecords records =>
    return records.map (fun record => decoderSpec record.displayName record.parameters) ++ [own]
  | _ => return [own]

end Descriptor

end TypeScribe
