import TypeScribe.Ocaml.Term
import TypeScribe.Options

/-!
# Decoders of field types

The decoders of the run-time library raise an exception on failure. Generated decoders return a result instead. A
converter is an expression for a decoder, with the convention by which it reports failure. Where the other convention is
due it is wrapped.
-/

namespace TypeScribe
open Ocaml (Term)

namespace Runtime
open Ocaml

def decode (name : String) : Term := .path ⟨["Aeson", "Decode"], name⟩

/-- The exception of a decoder that fails, and the variable for its message. -/
def decodeError (message : String) : Pattern := .raised ⟨["Aeson", "Decode"], "DecodeError"⟩ message

def okPath : Path := ⟨["Belt", "Result"], "Ok"⟩

def errorPath : Path := ⟨["Belt", "Result"], "Error"⟩

def ok (value : Term) : Term := .construct okPath [value]

def error (message : Term) : Term := .construct errorPath [message]

def errorText (message : String) : Term := error (.text message)

/-- A failure with a text before the value of a variable. -/
def errorBefore (front name : String) : Term := error (.concat (.text front) (.var name))

/-- A failure that quotes the value of a variable. -/
def errorQuoting (front name : String) : Term :=
  error (.concat (.text (front ++ "'")) (.concat (.var name) (.text "'.")))

def onJson (function : Term) : Term := .apply function [.var "json"]

def somePath : Path := ⟨[], "Some"⟩

def nonePath : Path := ⟨[], "None"⟩

def arrayLength (array : String) : Term := .apply (.path ⟨["Array"], "length"⟩) [.var array]

end Runtime

/-! ## Converters -/

/-- How a decoder reports failure. -/
inductive Convention where
  | raising
  | returning
deriving DecidableEq, Repr, Inhabited

structure Converter where
  term : Term
  convention : Convention
deriving Inhabited

/-- The decoder by the convention `wanted`. -/
def Converter.adapt (converter : Converter) (wanted : Convention) : Term :=
  match converter.convention, wanted with
  | .raising, .raising => converter.term
  | .returning, .returning => converter.term
  | .returning, .raising =>
    .lambda "json" (.apply (Runtime.decode "unwrapResult") [Runtime.onJson converter.term])
  | .raising, .returning => .apply (Runtime.decode "wrapResult") [converter.term]

def Scalar.decoderName : Scalar → String
  | .bool => "bool"
  | .char => "string"
  | .date => "date"
  | .float => "float"
  | .int => "int"
  | .int32 => "int32"
  | .string => "string"
  | .unit => "unit"

namespace Context

mutual

/-- The decoder of a field type. The path of a type comes before its arguments. -/
def converter (context : Context) : FieldType → Except RenderError Converter
  | .reference identity name => do
    return ⟨.path (← context.pathTo identity (Ocaml.decoderName name)), .returning⟩
  | .application identity arguments => do
    let path ← context.pathTo identity (Ocaml.decoderName identity.name)
    return ⟨.apply (.path path) (← context.converters .returning arguments), .returning⟩
  | .scalar s => return ⟨Runtime.decode s.decoderName, .raising⟩
  | .list item => do
    let item ← context.converter item
    return ⟨.apply (Runtime.decode "list") [item.adapt .raising], .raising⟩
  | .option item => do
    let item ← context.converter item
    return ⟨.apply (Runtime.decode "optional") [item.adapt .raising], .raising⟩
  | .either left right => do
    let left ← context.converter left
    let right ← context.converter right
    return ⟨.apply (Runtime.decode "either") [left.adapt .raising, right.adapt .raising], .raising⟩
  | .tuple items => do
    checkArity items.length
    let name := "tuple" ++ toString items.length
    return ⟨.apply (Runtime.decode name) (← context.converters .raising items), .raising⟩
  | .parameter name => return ⟨.var (Ocaml.decoderParameter name), .returning⟩
  | .misplaced kind => throw (context.misplaced kind .decoderPosition)

def converters (context : Context) (wanted : Convention) : List FieldType → Except RenderError (List Term)
  | [] => return []
  | item :: rest => do
    let first ← context.converter item
    return first.adapt wanted :: (← context.converters wanted rest)

end

def raising (context : Context) (value : Value) : Except RenderError Term := do
  return (← context.converter value.fieldType).adapt .raising

end Context

end TypeScribe
