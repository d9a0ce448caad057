import TypeScribe.Decoder
import Mathlib.Data.List.Forall2

/-!
# Types and effects of decoder expressions

`Signature` lists what generated code calls: the run-time library, the decoders of other types and the decoders of type
parameters. `Typed` types an expression over it. A type says what an expression stands for, an effect whether its
evaluation may raise an exception. The only functions among the types are decoders, which take a JSON value.
-/

namespace TypeScribe
open Ocaml (Path Term TypeExpr)

/-- Whether an evaluation may raise the exception of decoders. -/
inductive Effect where
  | silent
  | raising
deriving DecidableEq, Repr

/-- What an expression stands for. -/
inductive Ty where
  | json
  | text
  | number
  /-- An array of JSON values, with its length where that has been checked. -/
  | items (length : Option Nat)
  | option (value : Ty)
  | result (value : Ty)
  /-- A result that a decoder of the module at hand gives. -/
  | report (value : Ty)
  | data (type : TypeExpr)
  | decoder (effect : Effect) (value : Ty)

def Convention.decoderOf : Convention → TypeExpr → Ty
  | .raising, type => .decoder .raising (.data type)
  | .returning, type => .decoder .silent (.result (.data type))

/-! ## What is called -/

def aesonDecode : List String := ["Aeson", "Decode"]

def basicType (modules : List String) (name : String) : TypeExpr := .constructor ⟨modules, name⟩ []

def basicDecoders : List (String × TypeExpr) := [
  ("bool", basicType [] "bool"), ("string", basicType [] "string"), ("float", basicType [] "float"),
  ("int", basicType [] "int"), ("int32", basicType [] "int32"), ("date", basicType ["Js_date"] "t"),
  ("unit", basicType [] "unit")]

/-- A function under a path takes arguments of some types, then has an effect and gives a value of a type. The JSON
value that a decoder takes is not among the arguments. -/
inductive Signature : Path → List Ty → Effect → Ty → Prop where
  | basic {name : String} {type : TypeExpr} : (name, type) ∈ basicDecoders →
    Signature ⟨aesonDecode, name⟩ [] .silent (Convention.raising.decoderOf type)
  | text : Signature ⟨aesonDecode, "string"⟩ [] .silent (.decoder .raising .text)
  | list {type : TypeExpr} :
    Signature ⟨aesonDecode, "list"⟩ [Convention.raising.decoderOf type] .silent
      (Convention.raising.decoderOf (.constructor ⟨[], "list"⟩ [type]))
  | optional {type : TypeExpr} :
    Signature ⟨aesonDecode, "optional"⟩ [Convention.raising.decoderOf type] .silent
      (Convention.raising.decoderOf (.constructor ⟨[], "option"⟩ [type]))
  | either {left right : TypeExpr} :
    Signature ⟨aesonDecode, "either"⟩ [Convention.raising.decoderOf left, Convention.raising.decoderOf right] .silent
      (Convention.raising.decoderOf (.constructor ⟨["Aeson", "Compatibility", "Either"], "t"⟩ [left, right]))
  | tuple {types : List TypeExpr} : 2 ≤ types.length → types.length ≤ 6 →
    Signature ⟨aesonDecode, "tuple" ++ toString types.length⟩ (types.map Convention.raising.decoderOf) .silent
      (Convention.raising.decoderOf (.tuple types))
  | field {value : Ty} :
    Signature ⟨aesonDecode, "field"⟩ [.text, .decoder .raising value] .silent (.decoder .raising value)
  | array : Signature ⟨aesonDecode, "array"⟩ [.decoder .silent .json] .silent (.decoder .raising (.items none))
  | wrapResult {type : TypeExpr} :
    Signature ⟨aesonDecode, "wrapResult"⟩ [Convention.raising.decoderOf type] .silent
      (Convention.returning.decoderOf type)
  | unwrapResult {type : TypeExpr} :
    Signature ⟨aesonDecode, "unwrapResult"⟩ [.result (.data type)] .raising (.data type)
  | decodeArray : Signature ⟨["Js", "Json"], "decodeArray"⟩ [] .silent (.decoder .silent (.option (.items none)))
  | decodeString : Signature ⟨["Js", "Json"], "decodeString"⟩ [] .silent (.decoder .silent (.option .text))
  | arrayLength {length : Option Nat} : Signature ⟨["Array"], "length"⟩ [.items length] .silent .number
  | min : Signature ⟨[], "min"⟩ [.number, .number] .silent .number
  | stringOfInt : Signature ⟨[], "string_of_int"⟩ [.number] .silent .text
  /-- A generated decoder takes the decoders of the arguments of its type. -/
  | generated {modules : List String} {name : String} {types : List TypeExpr} :
    Signature ⟨modules, Ocaml.decoderName name⟩ (types.map Convention.returning.decoderOf) .silent
      (Convention.returning.decoderOf (.constructor ⟨modules, Ocaml.typeName name⟩ types))
  | sibling {name : String} {types : List TypeExpr} :
    Signature ⟨[], Ocaml.decoderName name⟩ (types.map Convention.returning.decoderOf) .silent
      (.decoder .silent (.report (.data (.constructor ⟨[], Ocaml.typeName name⟩ types))))
  | parameter {name : String} :
    Signature ⟨[], Ocaml.decoderParameter name⟩ [] .silent
      (Convention.returning.decoderOf (.var (Ocaml.variableName name)))

/-! ## Typing -/

abbrev Scope := List (String × Ty)

/-- No variable at hand hides the path. -/
def Scope.Shows (scope : Scope) (path : Path) : Prop :=
  path.modules = [] → scope.lookup path.name = none

/-- The expression has a type and an effect. Arguments come without effects. -/
inductive Typed : Scope → Term → Effect → Ty → Prop where
  | var {scope : Scope} {name : String} {type : Ty} :
    scope.lookup name = some type → Typed scope (.var name) .silent type
  | path {scope : Scope} {path : Path} {effect : Effect} {type : Ty} :
    scope.Shows path → Signature path [] effect type → Typed scope (.path path) effect type
  | call {scope : Scope} {path : Path} {types : List Ty} {effect : Effect} {type : Ty} {arguments : List Term} :
    scope.Shows path → Signature path types effect type → arguments.length = types.length →
      (∀ pair ∈ arguments.zip types, Typed scope pair.1 .silent pair.2) →
      Typed scope (.apply (.path path) arguments) effect type
  /-- A call that goes on to the JSON value. -/
  | read {scope : Scope} {path : Path} {types : List Ty} {effect : Effect} {type : Ty} {arguments : List Term}
      {document : Term} :
    scope.Shows path → Signature path types .silent (.decoder effect type) → arguments.length = types.length →
      (∀ pair ∈ arguments.zip types, Typed scope pair.1 .silent pair.2) → Typed scope document .silent .json →
      Typed scope (.apply (.path path) (arguments ++ [document])) effect type
  | run {scope : Scope} {decoder document : Term} {effect : Effect} {type : Ty} :
    Typed scope decoder .silent (.decoder effect type) → Typed scope document .silent .json →
      Typed scope (.apply decoder [document]) effect type
  | lambda {scope : Scope} {name : String} {body : Term} {effect : Effect} {type : Ty} :
    Typed ((name, .json) :: scope) body effect type →
      Typed scope (.lambda name body) .silent (.decoder effect type)
  | text {scope : Scope} (s : String) : Typed scope (.text s) .silent .text
  | number {scope : Scope} (n : Nat) : Typed scope (.number n) .silent .number
  | concat {scope : Scope} {left right : Term} :
    Typed scope left .silent .text → Typed scope right .silent .text → Typed scope (.concat left right) .silent .text
  /-- Only an array of known length is accessed, below its length. -/
  | element {scope : Scope} {array : String} {length index : Nat} :
    scope.lookup array = some (.items (some length)) → index < length →
      Typed scope (.element array index) .silent .json

/-! ## Names -/

def IsDecoderName (name : String) : Prop := "decode".toList <+: name.toList

instance (name : String) : Decidable (IsDecoderName name) :=
  inferInstanceAs (Decidable ("decode".toList <+: name.toList))

theorem isDecoderName_decoderName (name : String) : IsDecoderName (Ocaml.decoderName name) := by
  rw [IsDecoderName, Ocaml.decoderName, String.toList_append]
  exact List.prefix_append _ _

theorem isDecoderName_decoderParameter (name : String) : IsDecoderName (Ocaml.decoderParameter name) := by
  rw [IsDecoderName, Ocaml.decoderParameter, String.toList_append]
  exact ⟨'_' :: name.toList, by simp⟩

theorem not_isDecoderName_tuple (size : String) : ¬ IsDecoderName ("tuple" ++ size) := by
  rw [IsDecoderName, String.toList_append]
  intro h
  obtain ⟨rest, h⟩ := h
  simp at h

def IsFunctionName (name : String) : Prop := IsDecoderName name ∨ name = "min" ∨ name = "string_of_int"

instance (name : String) : Decidable (IsFunctionName name) :=
  inferInstanceAs (Decidable (_ ∨ _ ∨ _))

namespace Signature

variable {path : Path} {types types' : List Ty} {effect effect' : Effect} {type : Ty}

theorem of_raising {type : TypeExpr} (h : Signature path types effect (Convention.raising.decoderOf type)) :
    ¬ IsDecoderName path.name ∧ path.name ≠ "wrapResult" := by
  generalize hdecoder : Convention.raising.decoderOf type = decoder at h
  cases h with
  | basic hmem =>
    simp only [basicDecoders, List.mem_cons, Prod.mk.injEq, List.not_mem_nil, or_false] at hmem
    rcases hmem with ⟨rfl, -⟩ | ⟨rfl, -⟩ | ⟨rfl, -⟩ | ⟨rfl, -⟩ | ⟨rfl, -⟩ | ⟨rfl, -⟩ | ⟨rfl, -⟩ <;> decide
  | tuple =>
    refine ⟨not_isDecoderName_tuple _, fun h => ?_⟩
    have := congrArg (fun s : String => s.toList.head?) h
    simp at this
  | list | optional | either | field => decide
  | _ => simp [Convention.decoderOf] at hdecoder

theorem of_returning {type : TypeExpr} (h : Signature path types effect (Convention.returning.decoderOf type)) :
    IsDecoderName path.name ∨ path.name = "wrapResult" ∧ types ≠ [] := by
  generalize hdecoder : Convention.returning.decoderOf type = decoder at h
  cases h with
  | wrapResult => exact .inr ⟨rfl, List.cons_ne_nil _ _⟩
  | generated => exact .inl (isDecoderName_decoderName _)
  | parameter => exact .inl (isDecoderName_decoderParameter _)
  | _ => simp [Convention.decoderOf] at hdecoder

/-- The convention of a decoder shows in the name of the function that gives it. -/
theorem convention_unique {convention convention' : Convention} {type type' : TypeExpr}
    (h : Signature path types effect (convention.decoderOf type))
    (h' : Signature path types' effect' (convention'.decoderOf type')) : convention = convention' := by
  cases convention <;> cases convention'
  · rfl
  · exact absurd ((of_returning h').imp id And.left) (not_or.mpr (of_raising h))
  · exact absurd ((of_returning h).imp id And.left) (not_or.mpr (of_raising h'))
  · rfl

/-- No function gives a decoder of decoders that never raises. -/
theorem not_nested {convention : Convention} {type : TypeExpr} :
    ¬ Signature path types effect (.decoder .silent (convention.decoderOf type)) := by
  intro h
  generalize hdecoder : Ty.decoder .silent (convention.decoderOf type) = decoder at h
  cases h <;> cases convention <;> simp [Convention.decoderOf] at hdecoder

theorem of_unwrapResult {type : Ty} (h : Signature ⟨aesonDecode, "unwrapResult"⟩ types effect type) :
    effect = .raising ∧ ∃ data, type = .data data := by
  generalize hpath : (⟨aesonDecode, "unwrapResult"⟩ : Path) = path at h
  cases h with
  | unwrapResult => exact ⟨rfl, _, rfl⟩
  | basic hmem =>
    cases hpath
    simp [basicDecoders] at hmem
  | tuple =>
    have := congrArg (fun path : Path => path.name.toList.head?) hpath
    simp at this
  | @generated _ name | @sibling name =>
    have hname : "unwrapResult" = Ocaml.decoderName name := congrArg Path.name hpath
    have := isDecoderName_decoderName name
    rw [← hname] at this
    exact absurd this (by decide)
  | parameter => cases congrArg Path.modules hpath
  | _ => simp [aesonDecode] at hpath

theorem isFunctionName (h : Signature path types effect type) (hmodules : path.modules = []) :
    IsFunctionName path.name := by
  cases h with
  | min => exact .inr (.inl rfl)
  | stringOfInt => exact .inr (.inr rfl)
  | generated | sibling => exact .inl (isDecoderName_decoderName _)
  | parameter => exact .inl (isDecoderName_decoderParameter _)
  | _ => cases hmodules

end Signature

namespace Scope

/-- All variables of one scope are in another, which hides no function that the one shows. -/
structure Within (scope scope' : Scope) : Prop where
  locals : ∀ name type, scope.lookup name = some type → scope'.lookup name = some type
  functions : ∀ {path types effect type}, Signature path types effect type → scope.Shows path → scope'.Shows path

theorem Within.cons {scope scope' : Scope} (h : scope.Within scope') (name : String) (type : Ty) :
    Within ((name, type) :: scope) ((name, type) :: scope') where
  locals name' type' hlookup := by
    rw [List.lookup_cons] at hlookup ⊢
    split
    · rwa [‹(name' == name) = true›] at hlookup
    · rw [‹(name' == name) = false›] at hlookup
      exact h.locals _ _ hlookup
  functions {path} _ _ _ hsignature hshows hmodules := by
    have hbound := hshows hmodules
    rw [List.lookup_cons] at hbound ⊢
    split
    · rw [‹(path.name == name) = true›] at hbound
      cases hbound
    · rw [‹(path.name == name) = false›] at hbound
      exact h.functions hsignature (fun _ => hbound) hmodules

/-- No variable has the name of a function. -/
def Clear (scope : Scope) : Prop := ∀ name, IsFunctionName name → scope.lookup name = none

theorem Clear.nil : Clear [] := fun _ _ => rfl

theorem Clear.cons {scope : Scope} {name : String} (h : scope.Clear) (hname : ¬ IsFunctionName name) (type : Ty) :
    Clear ((name, type) :: scope) := by
  intro name' hfunction
  rw [List.lookup_cons]
  split
  · rw [eq_of_beq ‹(name' == name) = true›] at hfunction
    exact absurd hfunction hname
  · exact h name' hfunction

theorem Clear.within {scope : Scope} (h : scope.Clear) : Within [] scope where
  locals name type hlookup := by cases hlookup
  functions hsignature _ hmodules := h _ (hsignature.isFunctionName hmodules)

end Scope

namespace Typed

variable {scope : Scope} {path : Path} {arguments : List Term} {effect : Effect} {type : Ty}

theorem of_path (hshows : scope.Shows path) (h : Typed scope (.path path) effect type) :
    Signature path [] effect type := by
  generalize hterm : Term.path path = term at h
  cases h with
  | var hlookup =>
    cases hterm
    rw [hshows rfl] at hlookup
    cases hlookup
  | path _ hsignature =>
    cases hterm
    exact hsignature
  | _ => cases hterm

/-- A function at the head of an application gives what is applied, or a decoder that is run. -/
theorem of_apply (hshows : scope.Shows path) (h : Typed scope (.apply (.path path) arguments) effect type) :
    ∃ types, Signature path types effect type ∨ Signature path types .silent (.decoder effect type) := by
  generalize hterm : Term.apply (.path path) arguments = term at h
  cases h with
  | call _ hsignature =>
    cases hterm
    exact ⟨_, .inl hsignature⟩
  | read _ hsignature =>
    cases hterm
    exact ⟨_, .inr hsignature⟩
  | run hdecoder =>
    cases hterm
    exact ⟨_, .inr (of_path hshows hdecoder)⟩
  | _ => cases hterm

theorem call_of_forall₂ {types : List Ty} (hshows : scope.Shows path) (h : Signature path types effect type)
    (harguments : List.Forall₂ (fun argument type => Typed scope argument .silent type) arguments types) :
    Typed scope (.apply (.path path) arguments) effect type := by
  rw [List.forall₂_iff_zip] at harguments
  exact .call hshows h harguments.1 fun _ => harguments.2

theorem read_of_forall₂ {types : List Ty} {document : Term} (arguments : List Term) (hshows : scope.Shows path)
    (h : Signature path types .silent (.decoder effect type))
    (harguments : List.Forall₂ (fun argument type => Typed scope argument .silent type) arguments types)
    (hdocument : Typed scope document .silent .json) :
    Typed scope (.apply (.path path) (arguments ++ [document])) effect type := by
  rw [List.forall₂_iff_zip] at harguments
  exact .read hshows h harguments.1 (fun _ => harguments.2) hdocument

theorem weaken {scope' : Scope} {term : Term} (h : Typed scope term effect type) (hwithin : scope.Within scope') :
    Typed scope' term effect type := by
  induction h generalizing scope' with
  | var hlookup => exact .var (hwithin.locals _ _ hlookup)
  | path hshows hsignature => exact .path (hwithin.functions hsignature hshows) hsignature
  | call hshows hsignature hlength _ ih =>
    exact .call (hwithin.functions hsignature hshows) hsignature hlength fun pair hpair => ih pair hpair hwithin
  | read hshows hsignature hlength _ _ ih ihDocument =>
    exact .read (hwithin.functions hsignature hshows) hsignature hlength (fun pair hpair => ih pair hpair hwithin)
      (ihDocument hwithin)
  | run _ _ ihDecoder ihDocument => exact .run (ihDecoder hwithin) (ihDocument hwithin)
  | lambda _ ih => exact .lambda (ih (hwithin.cons _ _))
  | text s => exact .text s
  | number n => exact .number n
  | concat _ _ ihLeft ihRight => exact .concat (ihLeft hwithin) (ihRight hwithin)
  | element hlookup hindex => exact .element (hwithin.locals _ _ hlookup) hindex

end Typed

end TypeScribe
