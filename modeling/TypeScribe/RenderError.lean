import TypeScribe.FieldType

/-!
# Why a type cannot be rendered

Each cause is a fault of the descriptor or of the dependency map it is rendered against.
-/

namespace TypeScribe

inductive Place where
  | record
  | typePosition
  | decoderPosition
deriving DecidableEq, Repr, Inhabited

def Place.text : Place → String
  | .record => "record"
  | .typePosition => "type position"
  | .decoderPosition => "decoder position"

/-- The first fault that a rendering meets. -/
inductive RenderError where
  | unknownIdentity (identity referencedFrom : Identity)
  | invalidLocation (identity : Identity)
  | malformedSumOfRecords (typeName branch : String)
  | mixedRecordBranch (typeName branch : String)
  | noConstructors (typeName : String)
  | emptyRecord (typeName : String)
  | tupleArity (arity : Nat)
  | unexpectedValue (typeName : String) (found : ValueKind) (place : Place)
deriving DecidableEq, Repr, Inhabited

def RenderError.message : RenderError → String
  | .unknownIdentity identity referencedFrom =>
    "unknown type identity `" ++ identity.text ++ "` referenced from `" ++ referencedFrom.text ++ "`"
  | .invalidLocation identity =>
    "dependency map has an invalid module location for `" ++ identity.text ++ "`"
  | .malformedSumOfRecords typeName branch =>
    "sum of records `" ++ typeName ++ "` has non-record branch `" ++ branch ++ "`"
  | .mixedRecordBranch typeName branch =>
    "record branch `" ++ branch ++ "` of `" ++ typeName ++ "` must be declared as a sum of records"
  | .noConstructors typeName => "type `" ++ typeName ++ "` has no constructors"
  | .emptyRecord typeName => "record `" ++ typeName ++ "` has no fields"
  | .tupleArity arity =>
    "tuple of " ++ toString arity ++ " elements is not supported (expected 2 to 6)"
  | .unexpectedValue typeName found place =>
    "unexpected " ++ found.text ++ " in " ++ place.text ++ " of `" ++ typeName ++ "`"

end TypeScribe
