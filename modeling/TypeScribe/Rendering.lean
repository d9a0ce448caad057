import TypeScribe.Decoder

/-!
# Rendering

The implementation of a type is its declaration and its decoders. The interface, which is rendered on request, repeats
the declaration and gives the types of the decoders. Several types are rendered one after the other.
-/

namespace TypeScribe

structure Rendering where
  implementation : String
  signature : Option String
deriving DecidableEq, Repr, Inhabited

namespace Descriptor

def renderDeclaration (descriptor : Descriptor) (options : Options) : Except RenderError String := do
  return Ocaml.source (← descriptor.declaration options).typeLines

/-- The text of the declaration in an interface, which shows the whole type. -/
def renderDeclarationSignature (descriptor : Descriptor) (options : Options) : Except RenderError String :=
  descriptor.renderDeclaration options

def renderDecoder (descriptor : Descriptor) (options : Options) : Except RenderError String := do
  return Ocaml.source (← descriptor.decoder options).functionLines

def renderDecoderSignature (descriptor : Descriptor) : Except RenderError String := do
  return Ocaml.source ((← descriptor.decoderSpecs).map Ocaml.ValueSpec.line)

def renderSignature (descriptor : Descriptor) (options : Options) : Except RenderError String := do
  let declaration ← descriptor.renderDeclarationSignature options
  return Ocaml.assemble [declaration, ← descriptor.renderDecoderSignature]

/-- The implementation of a type, with its interface if the options ask for it. -/
def render (descriptor : Descriptor) (options : Options) : Except RenderError Rendering := do
  let declaration ← descriptor.renderDeclaration options
  let decoder ← descriptor.renderDecoder options
  let signature ← if options.signatures then some <$> descriptor.renderSignature options else pure none
  return { implementation := Ocaml.assemble [declaration, decoder], signature }

end Descriptor

/-- Several types in one module, in the given order. -/
def renderAll (descriptors : List Descriptor) (options : Options) : Except RenderError Rendering := do
  let renderings ← descriptors.mapM (·.render options)
  let signature := Ocaml.assemble (renderings.filterMap (·.signature))
  return {
    implementation := Ocaml.assemble (renderings.map (·.implementation))
    signature := if options.signatures then some signature else none }

end TypeScribe
