import TypeScribe.Decoder.Converter

/-!
# The bodies of decoders

Records are read from an object, each field under its key. Sums are read from an object with a tag and contents,
enumerations from a text, and a constructor alone from its arguments. Fields and arguments are read in declared order,
and the first failure ends the decoder with its place in front of its message.
-/

namespace TypeScribe
open Ocaml (Term TypeExpr Pattern Clause Body)

def tagKey : String := "tag"

def contentsKey : String := "contents"

namespace Decoder

/-- The variable for the `i`-th value read. -/
def slot (i : Nat) : String := "v" ++ toString i

/-- The arm for a decoder that raises, with `place` in front of the message. -/
def caught (place : String) : Clause × Term :=
  (⟨Runtime.decodeError "message", none⟩, Runtime.errorBefore place "message")

/-- Runs a raising decoder and goes on with what it decodes. -/
def attempt (read : Term) (place name : String) (next : Body) : Body :=
  .proceed read [caught place] name next

def fieldOf (key : String) (decoder : Term) : Term :=
  .apply (Runtime.decode "field") [.text key, decoder, .var "json"]

/-- The raising decoder of an array that leaves its elements as they are. -/
def elements : Term := .apply (Runtime.decode "array") [.lambda "item" (.var "item")]

/-- A constructor applied to the first values read. -/
def constructed (name : String) (arity : Nat) : Term :=
  .construct ⟨[], Ocaml.constructorName name⟩ ((List.range arity).map fun i => .var (slot i))

/-- A constructor without arguments, written as an array without elements. -/
def emptyArray (decoder name : String) : Body :=
  .choose (Runtime.onJson (.path ⟨["Js", "Json"], "decodeArray"⟩)) [
    (⟨.construct Runtime.somePath .emptyArray, none⟩, .value (Runtime.ok (constructed name 0))),
    (⟨.either (.construct Runtime.somePath .any) (.constant Runtime.nonePath), none⟩,
      .value (Runtime.errorText (decoder ++ ": expected an empty JSON array.")))]

/-- Reads the tag and selects an arm. -/
def dispatch (decoder : String) (arms : List (Clause × Body)) : Body :=
  let (failed, message) := caught (decoder ++ ": ")
  let unknown := Runtime.errorQuoting (decoder ++ ": unknown tag value found ") "tag"
  .choose (fieldOf tagKey (Runtime.decode "string"))
    ((failed, .value message) :: arms ++ [(⟨.bind "tag", none⟩, .value unknown)])

end Decoder

/-- The decoder of a record type applied to the decoders of its parameters and to the value at hand. -/
def HoistedRecord.decoderCall (record : HoistedRecord) : Term :=
  .apply (.var (Ocaml.decoderName record.displayName))
    (record.parameters.map (fun parameter => .var (Ocaml.decoderParameter parameter)) ++ [.var "json"])

namespace Context
open Decoder

/-! ## Records -/

/-- The value of a field, which may be absent if its type is optional. -/
def fieldRead (context : Context) (key : String) (value : Value) : Except RenderError Term := do
  match value.fieldType with
  | .option item =>
    let decoder := (← context.converter item).adapt .raising
    return .apply (Runtime.decode "optional") [.apply (Runtime.decode "field") [.text key, decoder], .var "json"]
  | type => return fieldOf key ((← context.converter type).adapt .raising)

/-- Reads the fields from the `i`-th on and then goes on with `last`. -/
def readFields (context : Context) (decoder : String) (last : Body) :
    Nat → List RecordField → Except RenderError Body
  | _, [] => return last
  | i, field :: rest => do
    let key := context.options.jsonKey field.name
    let read ← context.fieldRead key field.value
    let next ← context.readFields decoder last (i + 1) rest
    return attempt read (decoder ++ ": field '" ++ key ++ "': ") (slot i) next

def recordDecoder (context : Context) (decoder : String) (type : TypeExpr) (fields : List RecordField) :
    Except RenderError Body :=
  let labels := fields.mapIdx fun i field => (Ocaml.label field.name, slot i)
  context.readFields decoder (.value (Runtime.ok (.record labels type))) 0 fields

/-! ## Constructors -/

/-- Reads the arguments from the `i`-th on from an array and then goes on with `last`. -/
def readElements (context : Context) (place : String) (last : Body) :
    Nat → List Value → Except RenderError Body
  | _, [] => return last
  | i, argument :: rest => do
    let decoder ← context.raising argument
    let next ← context.readElements place last (i + 1) rest
    return attempt (.apply decoder [.element "items" i]) (place ++ "position " ++ toString i ++ ": ") (slot i) next

/-- Decodes arguments from the array that `source` reads, which must have as many elements. -/
def positionalDecoder (context : Context) (source : Term) (place : String) (constructor : Positional) :
    Except RenderError Body := do
  let arity := constructor.arguments.length
  let shortest := Term.apply (.var "min") [Runtime.arrayLength "items", .number arity]
  let wrongLength := Runtime.error <|
    .concat (.text (place ++ "position ")) <| .concat (.apply (.var "string_of_int") [shortest]) <|
      .text (": expected " ++ toString arity ++ " elements.")
  let differs := Term.differs (Runtime.arrayLength "items") (.number arity)
  let last := Body.value (Runtime.ok (constructed constructor.name arity))
  let next ← context.readElements place last 0 constructor.arguments
  return .proceed source [caught place, (⟨.bind "items", some differs⟩, wrongLength)] "items" next

/-- Decodes the only argument that `read` makes of a decoder. -/
def argumentDecoder (context : Context) (read : Term → Term) (place : String) (name : String) (argument : Value) :
    Except RenderError Body := do
  let decoder ← context.raising argument
  return attempt (read decoder) place (slot 0) (.value (Runtime.ok (constructed name 1)))

/-- Decodes a constructor that has no tag. -/
def singleDecoder (context : Context) (decoder : String) (constructor : Positional) : Except RenderError Body :=
  let place := decoder ++ ": "
  match constructor.arguments with
  | [] => return emptyArray decoder constructor.name
  | [argument] => context.argumentDecoder Runtime.onJson place constructor.name argument
  | _ => context.positionalDecoder (Runtime.onJson elements) place constructor

def contentsDecoder (context : Context) (decoder : String) (constructor : Positional) : Except RenderError Body :=
  let place := decoder ++ ": " ++ Ocaml.constructorName constructor.name ++ ": "
  match constructor.arguments with
  | [] => return .value (Runtime.ok (constructed constructor.name 0))
  | [argument] => context.argumentDecoder (fieldOf contentsKey) place constructor.name argument
  | _ => context.positionalDecoder (fieldOf contentsKey elements) place constructor

/-! ## Sums -/

def tagClause (context : Context) (name : String) : Clause :=
  ⟨.text (context.options.jsonTag name), none⟩

def constructorArm (context : Context) (decoder : String) (constructor : Positional) :
    Except RenderError (Clause × Body) := do
  return (context.tagClause constructor.name, ← context.contentsDecoder decoder constructor)

/-- The arm for a branch that is a record type of its own. -/
def hoistedArm (context : Context) (decoder : String) (record : HoistedRecord) : Clause × Body :=
  let value := Term.construct ⟨[], Ocaml.constructorName record.branch⟩ [.var "v"]
  (context.tagClause record.branch, .choose record.decoderCall [
    (⟨.construct Runtime.okPath (.bind "v"), none⟩, .value (Runtime.ok value)),
    (⟨.construct Runtime.errorPath (.bind "message"), none⟩,
      .value (Runtime.errorBefore (decoder ++ ": ") "message"))])

/-- Decodes an enumeration. Only one tag is written as an array without elements. -/
def enumerationDecoder (context : Context) (decoder : String) (tags : List String) : Body :=
  match tags with
  | [tag] => emptyArray decoder tag
  | _ =>
    let arms := tags.map fun tag =>
      (⟨.construct Runtime.somePath (.text (context.options.jsonTag tag)), none⟩,
        Body.value (Runtime.ok (constructed tag 0)))
    .choose (Runtime.onJson (.path ⟨["Js", "Json"], "decodeString"⟩)) (arms ++ [
      (⟨.construct Runtime.somePath (.bind "value"), none⟩,
        .value (Runtime.errorQuoting (decoder ++ ": unknown enumeration ") "value")),
      (⟨.constant Runtime.nonePath, none⟩,
        .value (Runtime.errorText (decoder ++ ": expected a top-level JSON string.")))])

def aliasDecoder (context : Context) (decoder : String) (p : Primitive) : Except RenderError Body := do
  let read := (← context.converter p.fieldType).adapt .raising
  return attempt (Runtime.onJson read) (decoder ++ ": ") "v" (.value (Runtime.ok (.var "v")))

end Context

end TypeScribe
