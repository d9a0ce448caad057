import TypeScribe.Name.Transform
import TypeScribe.Ocaml.Token
import TypeScribe.Qualification
import TypeScribe.Shape

/-!
# Options of a rendering and the context they make

What is common to all types of a rendering is in its options. A context is the options together with the type that is
rendered.
-/

namespace TypeScribe

structure Options where
  /-- Makes the key of a record field in JSON from the field's name. -/
  fieldLabel : NameTransform := {}
  /-- Makes the tag of a constructor in JSON from the constructor's name. -/
  constructorTag : NameTransform := {}
  dependencies : DependencyMap := .empty
  signatures : Bool := false
deriving Inhabited

namespace Options

def withDependency (options : Options) (identity : Identity) (location : Location) : Options :=
  { options with dependencies := options.dependencies.insert identity location }

/-- A change of one part of the options. -/
inductive Change where
  | fieldLabel (transform : NameTransform)
  | constructorTag (transform : NameTransform)
  | dependency (identity : Identity) (location : Location)
  | dependencies (map : DependencyMap)
  | signatures (value : Bool)

def change (options : Options) : Change → Options
  | .fieldLabel transform => { options with fieldLabel := transform }
  | .constructorTag transform => { options with constructorTag := transform }
  | .dependency identity location => options.withDependency identity location
  | .dependencies map => { options with dependencies := map }
  | .signatures value => { options with signatures := value }

def changeAll (options : Options) (changes : List Change) : Options :=
  changes.foldl change options

def jsonKey (options : Options) (field : String) : String :=
  options.fieldLabel.apply field

def jsonTag (options : Options) (constructor : String) : String :=
  options.constructorTag.apply constructor

end Options

/-! ## Contexts -/

/-- What the rendering of one type needs to know. -/
structure Context where
  options : Options
  identity : Identity
  displayName : String
deriving Inhabited

namespace Context

def ofDescriptor (options : Options) (descriptor : Descriptor) : Context :=
  { options, identity := descriptor.identity, displayName := descriptor.displayName }

/-- The path to something of the type `identity` that is called `name`. -/
def pathTo (context : Context) (identity : Identity) (name : String) : Except RenderError Ocaml.Path := do
  let modules ← context.options.dependencies.qualify context.identity identity
  return ⟨modules, name⟩

def misplaced (context : Context) (kind : ValueKind) (place : Place) : RenderError :=
  .unexpectedValue context.displayName kind place

end Context

/-- Tuples have two to six items. -/
def checkArity (arity : Nat) : Except RenderError Unit :=
  if 2 ≤ arity ∧ arity ≤ 6 then .ok () else .error (.tupleArity arity)

end TypeScribe
