import TypeScribe.Decoder
import TypeScribe.Json.Document

/-!
# What generated functions do

Generated functions run over a world that says what the names they call stand for. An evaluation ends with a value,
with the exception of decoders, or with a fault. A fault is everything else that can happen: an access outside an array,
a match without an arm, an operation on values that it is not made for.
-/

namespace TypeScribe
open Ocaml (Path Term Pattern Clause Body Function)
open Json (Document)

/-- How an evaluation ends. -/
inductive Ending (α : Type) where
  | value (a : α)
  | raised (message : String)
  | fault

namespace Ending

def andThen {α β : Type} (ending : Ending α) (next : α → Ending β) : Ending β :=
  match ending with
  | .value a => next a
  | .raised message => .raised message
  | .fault => .fault

instance : Monad Ending where
  pure := .value
  bind := andThen

instance : LawfulMonad Ending :=
  LawfulMonad.mk' Ending (fun ending => by cases ending <;> rfl) (fun _ _ => rfl) fun ending _ _ => by cases ending <;> rfl

theorem value_bind {α β : Type} (a : α) (next : α → Ending β) : (Ending.value a >>= next) = next a :=
  rfl

end Ending

inductive Val where
  | json (document : Document)
  | text (s : String)
  | number (n : Int)
  | flag (b : Bool)
  /-- An array of JSON values. -/
  | items (documents : List Document)
  | construct (constructor : Path) (arguments : List Val)
  | record (fields : List (String × Val))
  /-- A function of a JSON value. -/
  | decoder (run : Document → Ending Val)

/-- What a path stands for when it is applied to the given values. The JSON value that a decoder takes is not among
them. The parameters of a function are names of its world too. -/
abbrev World := Path → List Val → Ending Val

abbrev Locals := List (String × Val)

namespace Val

def isJson : Val → Bool
  | .json _ => true
  | _ => false

/-- A value applied to further arguments. -/
def feed : Val → List Val → Ending Val
  | v, [] => .value v
  | .decoder run, .json document :: rest => (run document).andThen (·.feed rest)
  | _, _ => .fault

end Val

/-- A path applied to arguments: to those before the first JSON value, and then what it gives to the others. -/
def World.call (world : World) (path : Path) (arguments : List Val) : Ending Val := do
  let function ← world path (arguments.takeWhile fun v => !v.isJson)
  function.feed (arguments.dropWhile fun v => !v.isJson)

namespace Locals

def get (locals : Locals) (name : String) : Ending Val :=
  match locals.lookup name with
  | some v => .value v
  | none => .fault

def get? (locals : Locals) (path : Path) : Option Val :=
  if path.modules = [] then locals.lookup path.name else none

theorem get?_variable (locals : Locals) (name : String) : locals.get? ⟨[], name⟩ = locals.lookup name :=
  rfl

end Locals

/-! ## Expressions -/

namespace Ocaml.Term

variable (world : World)

mutual

def eval (locals : Locals) : Term → Ending Val
  | .path p =>
    match locals.get? p with
    | some v => .value v
    | none => world.call p []
  | .text s => .value (.text s)
  | .number n => .value (.number n)
  | .apply (.path p) arguments => do
    let arguments ← evalAll locals arguments
    match locals.get? p with
    | some v => v.feed arguments
    | none => world.call p arguments
  | .apply function arguments => do
    let arguments ← evalAll locals arguments
    (← function.eval locals).feed arguments
  | .lambda parameter body => .value (.decoder fun document => body.eval ((parameter, .json document) :: locals))
  | .construct constructor arguments => return .construct constructor (← evalAll locals arguments)
  | .record fields _ => return .record (← fields.mapM fun field => return (field.1, ← locals.get field.2))
  | .concat left right => do
    match ← left.eval locals, ← right.eval locals with
    | .text s, .text t => return .text (s ++ t)
    | _, _ => .fault
  | .element array index => do
    match ← locals.get array with
    | .items documents =>
      match documents[index]? with
      | some document => return .json document
      | none => .fault
    | _ => .fault
  | .differs left right => do
    match ← left.eval locals, ← right.eval locals with
    | .number m, .number n => return .flag (m != n)
    | _, _ => .fault

def evalAll (locals : Locals) : List Term → Ending (List Val)
  | [] => .value []
  | first :: rest => do
    let v ← first.eval locals
    return v :: (← evalAll locals rest)

end

end Ocaml.Term

/-! ## Matches -/

def decodeErrorPath : Path := ⟨["Aeson", "Decode"], "DecodeError"⟩

/-- The variables that a pattern binds if it matches an ending. -/
def Ocaml.Pattern.bind? : Pattern → Ending Val → Option Locals
  | .raised exception name, .raised message =>
    if exception = decodeErrorPath then some [(name, .text message)] else none
  | .bind name, .value v => some [(name, v)]
  | .text s, .value (.text t) => if s = t then some [] else none
  | .any, .value _ => some []
  | .constant constructor, .value (.construct constructor' []) => if constructor = constructor' then some [] else none
  | .construct constructor argument, .value (.construct constructor' [v]) =>
    if constructor = constructor' then argument.bind? (.value v) else none
  | .emptyArray, .value (.items []) => some []
  | .either left right, ending => (left.bind? ending).orElse fun _ => right.bind? ending
  | _, _ => none

def Ocaml.Clause.select? (world : World) (locals : Locals) (clause : Clause) (ending : Ending Val) :
    Ending (Option Locals) :=
  match clause.pattern.bind? ending, clause.guard with
  | none, _ => .value none
  | some bound, none => .value (some bound)
  | some bound, some guard => do
    match ← guard.eval world (bound ++ locals) with
    | .flag holds => return if holds then some bound else none
    | _ => .fault

namespace Ocaml.Body

variable (world : World)

/-- The value of the first failure that matches an ending, if one does. -/
def failed? (locals : Locals) (ending : Ending Val) : List (Clause × Term) → Ending (Option Val)
  | [] => .value none
  | (clause, t) :: rest => do
    match ← clause.select? world locals ending with
    | some bound => return some (← t.eval world (bound ++ locals))
    | none => failed? locals ending rest

mutual

def eval (locals : Locals) : Body → Ending Val
  | .value t => t.eval world locals
  | .choose scrutinee arms => evalArms locals (scrutinee.eval world locals) arms
  | .proceed scrutinee failures name next => do
    let ending := scrutinee.eval world locals
    match ← failed? world locals ending failures with
    | some v => return v
    | none => do
      let v ← ending
      next.eval ((name, v) :: locals)

/-- The evaluation of the first arm that matches an ending. What no arm matches goes on. -/
def evalArms (locals : Locals) (ending : Ending Val) : List (Clause × Body) → Ending Val
  | [] => ending.andThen fun _ => .fault
  | (clause, body) :: rest => do
    match ← clause.select? world locals ending with
    | some bound => body.eval (bound ++ locals)
    | none => evalArms locals ending rest

end

end Ocaml.Body

/-! ## Functions -/

/-- The world in which parameters stand for the given values. A parameter is not applied to anything but JSON values. -/
def World.withParameters (world : World) (parameters : List (String × Val)) : World := fun path arguments =>
  match arguments, Locals.get? parameters path with
  | [], some v => .value v
  | arguments, _ => world path arguments

/-- A function applied to the values of its parameters and to a JSON value. -/
def Ocaml.Function.run (world : World) (function : Function) (arguments : List Val) (document : Document) :
    Ending Val :=
  function.body.eval (world.withParameters (function.parameters.zip arguments)) [("json", .json document)]

end TypeScribe
