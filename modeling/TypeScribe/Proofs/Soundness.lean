import TypeScribe.Proofs.Evaluation
import TypeScribe.Proofs.Outcome
import TypeScribe.Proofs.Typing

/-!
# Typed expressions do what their types say

A type is read as the values it has, and a world is lawful if its functions give such values. In a lawful world a typed
expression ends with a value of its type, or with an exception where its effect allows one, and never with a fault.
-/

namespace TypeScribe
open Ocaml (Path Term)
open Json (Document)

/-! ## Values of types -/

namespace Ending

variable {α β : Type} {P : α → Prop} {Q : β → Prop} {effect : Effect}

/-- An evaluation ends with a value that `P` holds of, or raises an exception where the effect allows it. -/
def Fits (effect : Effect) (P : α → Prop) : Ending α → Prop
  | .value a => P a
  | .raised _ => effect = .raising
  | .fault => False

theorem Fits.exists_value {ending : Ending α} (h : ending.Fits .silent P) : ∃ a, ending = .value a ∧ P a := by
  cases ending with
  | value a => exact ⟨a, rfl, h⟩
  | raised message => cases h
  | fault => cases h

theorem Fits.bind {ending : Ending α} {next : α → Ending β} (h : ending.Fits effect P)
    (hnext : ∀ a, P a → (next a).Fits effect Q) : (ending >>= next).Fits effect Q := by
  cases ending with
  | value a => exact hnext a h
  | raised message => exact h
  | fault => exact h

end Ending

/-- The values of a type. Of a result from another module no more is known than that it is built by a constructor. -/
def Ty.Holds : Ty → Val → Prop
  | .json, v => ∃ document, v = .json document
  | .text, v => ∃ s, v = .text s
  | .number, v => ∃ n, v = .number n
  | .items length, v => ∃ documents, v = .items documents ∧ ∀ n, length = some n → documents.length = n
  | .option type, v => v = .construct Runtime.nonePath [] ∨ ∃ w, v = .construct Runtime.somePath [w] ∧ type.Holds w
  | .result _, v => ∃ constructor arguments, v = .construct constructor arguments
  | .report type, v =>
    (∃ w, v = .construct Runtime.okPath [w] ∧ type.Holds w) ∨
      ∃ message, v = .construct Runtime.errorPath [.text message]
  | .data _, _ => True
  | .decoder effect type, v => ∃ run, v = .decoder run ∧ ∀ document, (run document).Fits effect type.Holds

/-- The functions that a world knows keep to their types. -/
structure World.Lawful (world : World) : Prop where
  signature : ∀ {path types effect type values}, Signature path types effect type →
    List.Forall₂ Ty.Holds types values → (world path values).Fits effect type.Holds
  arrayLength : ∀ documents, world ⟨["Array"], "length"⟩ [.items documents] = .value (.number documents.length)

def Scope.Holds (scope : Scope) (locals : Locals) : Prop :=
  List.Forall₂ (fun typed valued => typed.1 = valued.1 ∧ typed.2.Holds valued.2) scope locals

namespace Scope

variable {scope : Scope} {locals : Locals}

theorem Holds.lookup (h : scope.Holds locals) {name : String} {type : Ty} (hlookup : scope.lookup name = some type) :
    ∃ v, locals.lookup name = some v ∧ type.Holds v := by
  induction h with
  | nil => cases hlookup
  | @cons first second _ _ hfirst _ ih =>
    obtain ⟨x, firstType⟩ := first
    obtain ⟨y, v⟩ := second
    obtain ⟨rfl, hholds⟩ := hfirst
    rw [List.lookup_cons] at hlookup ⊢
    split
    · rw [‹(name == x) = true›] at hlookup
      cases hlookup
      exact ⟨v, rfl, hholds⟩
    · rw [‹(name == x) = false›] at hlookup
      exact ih hlookup

theorem Holds.lookup_eq_none (h : scope.Holds locals) {name : String} (hlookup : scope.lookup name = none) :
    locals.lookup name = none := by
  induction h with
  | nil => rfl
  | @cons first second _ _ hfirst _ ih =>
    obtain ⟨x, firstType⟩ := first
    obtain ⟨y, v⟩ := second
    obtain ⟨rfl, -⟩ := hfirst
    rw [List.lookup_cons] at hlookup ⊢
    split
    · rw [‹(name == x) = true›] at hlookup
      cases hlookup
    · rw [‹(name == x) = false›] at hlookup
      exact ih hlookup

theorem Holds.get?_eq_none (h : scope.Holds locals) {path : Path} (hshows : scope.Shows path) :
    locals.get? path = none := by
  unfold Locals.get?
  split
  · exact h.lookup_eq_none (hshows ‹_›)
  · rfl

end Scope

/-! ## Calls -/

/-- Whether functions may take values of the type before the JSON value. -/
def Ty.isArgument : Ty → Bool
  | .json | .data _ => false
  | _ => true

theorem Ty.Holds.isJson_eq_false {type : Ty} {v : Val} (h : type.Holds v) (hargument : type.isArgument = true) :
    v.isJson = false := by
  cases type with
  | json | data => cases hargument
  | text | number | items | decoder =>
    obtain ⟨_, rfl | ⟨rfl, -⟩⟩ := h
    rfl
  | option => rcases h with rfl | ⟨w, rfl, -⟩ <;> rfl
  | result =>
    obtain ⟨constructor, arguments, rfl⟩ := h
    rfl
  | report => rcases h with ⟨w, rfl, -⟩ | ⟨message, rfl⟩ <;> rfl

theorem Convention.isArgument_decoderOf (convention : Convention) (type : Ocaml.TypeExpr) :
    (convention.decoderOf type).isArgument = true := by
  cases convention <;> rfl

theorem Signature.isArgument {path : Path} {types : List Ty} {effect : Effect} {type argument : Ty}
    (h : Signature path types effect type) (hmem : argument ∈ types) : argument.isArgument = true := by
  cases h with
  | basic | text | decodeArray | decodeString | parameter => cases hmem
  | tuple | generated | sibling =>
    obtain ⟨data, -, rfl⟩ := List.mem_map.mp hmem
    exact Convention.isArgument_decoderOf _ _
  | either | field | min =>
    rcases List.mem_cons.mp hmem with rfl | hmem
    · rfl
    · cases List.mem_singleton.mp hmem
      rfl
  | list | optional | array | wrapResult | unwrapResult | arrayLength | stringOfInt =>
    cases List.mem_singleton.mp hmem
    rfl

theorem Signature.isJson_eq_false {path : Path} {types : List Ty} {effect : Effect} {type : Ty} {values : List Val}
    (h : Signature path types effect type) (hvalues : List.Forall₂ Ty.Holds types values) :
    ∀ v ∈ values, v.isJson = false := by
  intro v hmem
  obtain ⟨argument, hargument, hholds⟩ := exists_of_forall₂_left hvalues.flip hmem
  exact hholds.isJson_eq_false (h.isArgument hargument)

namespace World

variable {world : World} {path : Path} {values : List Val}

/-- A path is applied to its arguments first, and what it gives is then applied to the JSON value. -/
theorem call_append (h : ∀ v ∈ values, v.isJson = false) {rest : List Val} (hrest : ∀ v ∈ rest.head?, v.isJson = true) :
    world.call path (values ++ rest) = world path values >>= (·.feed rest) := by
  have hkept : ∀ v ∈ values, (!v.isJson) = true := by
    intro v hmem
    rw [h v hmem]
    rfl
  have hends : rest.takeWhile (fun v => !v.isJson) = [] ∧ rest.dropWhile (fun v => !v.isJson) = rest := by
    cases rest with
    | nil => exact ⟨rfl, rfl⟩
    | cons v rest =>
      have hjson : v.isJson = true := hrest v rfl
      simp [hjson]
  rw [call, List.takeWhile_append_of_pos hkept, List.dropWhile_append_of_pos hkept, hends.1, hends.2, List.append_nil]

theorem call_eq (h : ∀ v ∈ values, v.isJson = false) : world.call path values = world path values := by
  have hcall : world.call path (values ++ []) = world path values >>= (·.feed []) :=
    call_append h fun _ hv => by cases hv
  rw [List.append_nil] at hcall
  rw [hcall]
  cases world path values <;> rfl

end World

/-! ## Evaluation of typed expressions -/

namespace Ocaml.Term

variable {world : World} {locals : Locals}

theorem evalAll_append (front back : List Term) :
    evalAll world locals (front ++ back) =
      evalAll world locals front >>= fun vs => evalAll world locals back >>= fun ws => .value (vs ++ ws) := by
  induction front with
  | nil =>
    rw [List.nil_append, evalAll]
    cases evalAll world locals back <;> rfl
  | cons first rest ih =>
    rw [List.cons_append, evalAll, evalAll, ih]
    cases first.eval world locals with
    | value v =>
      cases evalAll world locals rest with
      | value vs => cases evalAll world locals back <;> rfl
      | _ => rfl
    | _ => rfl

theorem eval_apply_path {path : Path} {arguments : List Term} {values : List Val} (hpath : locals.get? path = none)
    (harguments : evalAll world locals arguments = .value values) :
    eval world locals (.apply (.path path) arguments) = world.call path values := by
  rw [eval, harguments, Ending.value_bind, hpath]

theorem eval_apply {function : Term} (arguments : List Term) (hfunction : ∀ p, function ≠ .path p) :
    eval world locals (.apply function arguments) =
      evalAll world locals arguments >>= fun vs => function.eval world locals >>= (·.feed vs) := by
  cases function with
  | path p => exact absurd rfl (hfunction p)
  | _ => rfl

theorem eval_run {function argument : Term} {document : Document}
    (hargument : argument.eval world locals = .value (.json document)) :
    eval world locals (.apply function [argument]) = function.eval world locals >>= (·.feed [.json document]) := by
  have harguments : evalAll world locals [argument] = .value [.json document] := by
    rw [evalAll, hargument]
    rfl
  cases function with
  | path p =>
    rw [eval, eval, harguments, Ending.value_bind]
    cases locals.get? p with
    | some v => rfl
    | none =>
      have hrun : world.call p ([] ++ [.json document]) = world p [] >>= (·.feed [.json document]) :=
        World.call_append (fun _ hmem => by cases hmem) fun _ hv => by cases hv; rfl
      have hread : world.call p [] = world p [] := World.call_eq fun _ hmem => by cases hmem
      exact hrun.trans (hread.symm ▸ rfl)
  | _ =>
    rw [eval_apply _ (by rintro p ⟨⟩), harguments]
    rfl

end Ocaml.Term

theorem fits_feed {run : Document → Ending Val} {document : Document} {effect : Effect} {P : Val → Prop}
    (h : (run document).Fits effect P) : ((Val.decoder run).feed [.json document]).Fits effect P := by
  unfold Val.feed
  refine Ending.Fits.bind h fun v hv => ?_
  exact hv

theorem evalAll_holds {world : World} {locals : Locals} {arguments : List Term} {types : List Ty}
    (hlength : arguments.length = types.length)
    (h : ∀ pair ∈ arguments.zip types, (pair.1.eval world locals).Fits .silent pair.2.Holds) :
    ∃ values, Term.evalAll world locals arguments = .value values ∧ List.Forall₂ Ty.Holds types values := by
  induction arguments generalizing types with
  | nil =>
    cases types with
    | nil => exact ⟨[], rfl, .nil⟩
    | cons type types => cases hlength
  | cons first rest ih =>
    cases types with
    | nil => cases hlength
    | cons type types =>
      rw [List.zip_cons_cons, List.forall_mem_cons] at h
      obtain ⟨v, hv, hholds⟩ := h.1.exists_value
      obtain ⟨vs, hvs, hall⟩ := ih (Nat.succ.inj hlength) h.2
      refine ⟨v :: vs, ?_, .cons hholds hall⟩
      rw [Term.evalAll, hv, hvs]
      rfl

/-- In a lawful world, a typed expression ends with a value of its type or as its effect allows. -/
theorem Typed.sound {world : World} {scope : Scope} {t : Term} {effect : Effect} {type : Ty}
    (h : Typed scope t effect type) (hworld : world.Lawful) {locals : Locals} (hlocals : scope.Holds locals) :
    (t.eval world locals).Fits effect type.Holds := by
  induction h generalizing locals with
  | @var scope name type hlookup =>
    obtain ⟨v, hv, hholds⟩ := hlocals.lookup hlookup
    rw [Term.var, Term.eval, Locals.get?_variable, hv]
    exact hholds
  | path hshows hsignature =>
    rw [Term.eval, hlocals.get?_eq_none hshows]
    show (world.call _ []).Fits _ _
    rw [World.call_eq fun v hmem => by cases hmem]
    exact hworld.signature hsignature .nil
  | call hshows hsignature hlength _ ih =>
    obtain ⟨values, hvalues, hall⟩ := evalAll_holds hlength fun pair hmem => ih pair hmem hlocals
    rw [Term.eval_apply_path (hlocals.get?_eq_none hshows) hvalues, World.call_eq (hsignature.isJson_eq_false hall)]
    exact hworld.signature hsignature hall
  | @read scope path types effect type arguments argument hshows hsignature hlength _ _ ih ihDocument =>
    obtain ⟨values, hvalues, hall⟩ := evalAll_holds hlength fun pair hmem => ih pair hmem hlocals
    obtain ⟨_, hdocument, document, rfl⟩ := (ihDocument hlocals).exists_value
    have harguments : Term.evalAll world locals (arguments ++ [argument]) = .value (values ++ [.json document]) := by
      rw [Term.evalAll_append, hvalues, Term.evalAll, hdocument]
      rfl
    rw [Term.eval_apply_path (hlocals.get?_eq_none hshows) harguments,
      World.call_append (hsignature.isJson_eq_false hall) fun _ hv => by cases hv; rfl]
    obtain ⟨_, hdecoder, run, rfl, hrun⟩ := (hworld.signature hsignature hall).exists_value
    rw [hdecoder]
    exact fits_feed (hrun document)
  | run _ _ ihDecoder ihDocument =>
    obtain ⟨v, hv, document, rfl⟩ := (ihDocument hlocals).exists_value
    obtain ⟨decoder, hdecoder, run, rfl, hrun⟩ := (ihDecoder hlocals).exists_value
    rw [Term.eval_run hv, hdecoder]
    exact fits_feed (hrun document)
  | lambda _ ih =>
    refine ⟨_, rfl, fun document => ih (.cons ⟨rfl, document, rfl⟩ hlocals)⟩
  | text s => exact ⟨s, rfl⟩
  | number n => exact ⟨n, rfl⟩
  | concat _ _ ihLeft ihRight =>
    obtain ⟨_, hleft, s, rfl⟩ := (ihLeft hlocals).exists_value
    obtain ⟨_, hright, t, rfl⟩ := (ihRight hlocals).exists_value
    rw [Term.eval, hleft, hright]
    exact ⟨s ++ t, rfl⟩
  | @element scope array length index hlookup hindex =>
    obtain ⟨_, hv, documents, rfl, hlength⟩ := hlocals.lookup hlookup
    have hbound : index < documents.length := hlength _ rfl ▸ hindex
    have hget : documents[index]? = some documents[index] := List.getElem?_eq_getElem hbound
    simp only [Term.eval, Locals.get, hv, Ending.value_bind, hget]
    exact ⟨_, rfl⟩

end TypeScribe
