import TypeScribe.Proofs.Safety
import TypeScribe.Proofs.Walk

/-!
# Decoders that do not change while values are read

The decoder of a type is an expression of functions alone. It stands for the same function wherever no variable has the
name of a function, so what has been read so far changes neither a decoder nor what a decoder makes of the JSON value at
hand.
-/

namespace TypeScribe
open Ocaml (Path Term)
open Json (Document)

/-! ## Variables -/

namespace Locals

/-- No variable has the name of a function. -/
def Clear (locals : Locals) : Prop := ∀ name, IsFunctionName name → locals.lookup name = none

theorem Clear.cons {locals : Locals} (h : locals.Clear) {name : String} (hname : ¬ IsFunctionName name) (v : Val) :
    Clear ((name, v) :: locals) := by
  intro name' hfunction
  have hne : name' ≠ name := by
    rintro rfl
    exact hname hfunction
  rw [List.lookup_cons, beq_false_of_ne hne]
  exact h name' hfunction

theorem clear_nil : Clear [] := fun _ _ => rfl

theorem Clear.get?_eq_none {locals : Locals} (h : locals.Clear) {path : Path}
    (hpath : path.modules = [] → IsFunctionName path.name) : locals.get? path = none := by
  unfold get?
  split
  · exact h _ (hpath ‹_›)
  · rfl

/-- The JSON value at hand is the document, and no variable has the name of a function. -/
structure AtDocument (locals : Locals) (document : Document) : Prop where
  json : locals.lookup "json" = some (.json document)
  clear : locals.Clear

theorem atDocument_json (document : Document) : AtDocument [("json", .json document)] document where
  json := rfl
  clear := clear_nil.cons (by decide) _

theorem lookup_cons_of_ne {locals : Locals} {name name' : String} (h : name' ≠ name) (v : Val) :
    List.lookup name' ((name, v) :: locals) = locals.lookup name' := by
  rw [List.lookup_cons, beq_false_of_ne h]

theorem AtDocument.cons {locals : Locals} {document : Document} (h : locals.AtDocument document) {name : String}
    (hjson : "json" ≠ name) (hname : ¬ IsFunctionName name) (v : Val) : AtDocument ((name, v) :: locals) document where
  json := by
    rw [lookup_cons_of_ne hjson]
    exact h.json
  clear := h.clear.cons hname v

end Locals

/-! ## Expressions -/

namespace Ocaml.Term

variable {world : World} {locals : Locals}

/-- The expression stands for the same value wherever no variable has the name of a function. -/
def IsSteady (term : Term) : Prop :=
  ∀ (world : World) (locals : Locals), locals.Clear → term.eval world locals = term.eval world []

theorem eval_var {name : String} {v : Val} (h : locals.lookup name = some v) :
    (Term.var name).eval world locals = .value v := by
  rw [var, eval, Locals.get?_variable, h]

theorem evalAll_eq_of_isSteady {terms : List Term} (h : ∀ term ∈ terms, term.IsSteady) (hlocals : locals.Clear) :
    evalAll world locals terms = evalAll world [] terms := by
  induction terms with
  | nil => rfl
  | cons term rest ih =>
    rw [List.forall_mem_cons] at h
    rw [evalAll, evalAll, h.1 world locals hlocals, ih h.2]

theorem isSteady_path {path : Path} (hpath : path.modules = [] → IsFunctionName path.name) :
    (Term.path path).IsSteady := by
  intro world locals hlocals
  rw [eval, eval, hlocals.get?_eq_none hpath, Locals.clear_nil.get?_eq_none hpath]

theorem isSteady_apply {path : Path} (hpath : path.modules = [] → IsFunctionName path.name) {arguments : List Term}
    (h : ∀ argument ∈ arguments, argument.IsSteady) : (Term.apply (.path path) arguments).IsSteady := by
  intro world locals hlocals
  rw [eval, eval, evalAll_eq_of_isSteady h hlocals, hlocals.get?_eq_none hpath, Locals.clear_nil.get?_eq_none hpath]

theorem IsSteady.eval_onJson {decoder : Term} (h : decoder.IsSteady) {document : Document}
    (hlocals : locals.AtDocument document) :
    (Runtime.onJson decoder).eval world locals = decoder.eval world [] >>= (·.feed [.json document]) := by
  rw [Runtime.onJson, eval_run (eval_var hlocals.json), h world locals hlocals.clear]

end Ocaml.Term

open Ocaml.Term (IsSteady isSteady_path isSteady_apply)

theorem Runtime.isSteady_apply_decode (name : String) {arguments : List Term}
    (h : ∀ argument ∈ arguments, argument.IsSteady) : (Term.apply (Runtime.decode name) arguments).IsSteady :=
  isSteady_apply (fun hmodules => by cases hmodules) h

theorem Converter.isSteady_adapt {converter : Converter} (h : converter.term.IsSteady) (wanted : Convention) :
    (converter.adapt wanted).IsSteady := by
  unfold adapt
  split
  · exact h
  · exact h
  -- the wrapped decoder is run on the JSON value that the function is applied to
  · intro world locals hlocals
    rw [Term.eval, Term.eval]
    refine congrArg (fun run => Ending.value (Val.decoder run)) (funext fun document => ?_)
    have harguments : ∀ locals : Locals, locals.AtDocument document →
        Term.evalAll world locals [Runtime.onJson converter.term] =
          (do return [← converter.term.eval world [] >>= (·.feed [.json document])]) := fun locals hlocals => by
      rw [Term.evalAll, h.eval_onJson hlocals]
      rfl
    have hpath : ∀ locals : Locals, locals.get? ⟨["Aeson", "Decode"], "unwrapResult"⟩ = none := fun _ => rfl
    have hinside : Locals.AtDocument (("json", .json document) :: locals) document :=
      ⟨List.lookup_cons_self, hlocals.cons (by decide) _⟩
    rw [Runtime.decode, Term.eval, Term.eval, harguments _ hinside, harguments _ (Locals.atDocument_json document), hpath,
      hpath]
  · exact Runtime.isSteady_apply_decode _ (List.forall_mem_singleton.mpr h)

namespace Context

variable {context : Context}

theorem isSteady_pathTo {identity : Identity} {name : String} {path : Path}
    (h : context.pathTo identity (Ocaml.decoderName name) = .ok path) : path.modules = [] → IsFunctionName path.name := by
  obtain ⟨modules, -, h⟩ := bind_eq_ok.mp h
  obtain rfl := pure_eq_ok.mp h
  exact fun _ => .inl (isDecoderName_decoderName name)

theorem isSteady_converter {value : Value} {converter : Converter}
    (h : context.converter value.fieldType = .ok converter) : converter.term.IsSteady := by
  induction value using Value.typeInduction generalizing converter with
  | typeRef identity name =>
    obtain ⟨path, hpath, h⟩ := bind_eq_ok.mp h
    obtain rfl := pure_eq_ok.mp h
    exact isSteady_path (isSteady_pathTo hpath)
  | application identity arguments ih =>
    rw [converter_application] at h
    obtain ⟨path, hpath, h⟩ := bind_eq_ok.mp h
    obtain ⟨terms, hterms, h⟩ := bind_eq_ok.mp h
    obtain rfl := pure_eq_ok.mp h
    refine isSteady_apply (isSteady_pathTo hpath) fun term hterm => ?_
    obtain ⟨argument, hargument, hterm⟩ := exists_of_mapM_eq_ok hterms hterm
    obtain ⟨converter, hconverter, hterm⟩ := bind_eq_ok.mp hterm
    obtain rfl := pure_eq_ok.mp hterm
    exact Converter.isSteady_adapt (ih argument hargument hconverter) _
  | primitive p ih =>
    obtain ⟨terms, hterms, hmade⟩ := exists_converters_of_primitive h
    have hsteady : ∀ term ∈ terms, term.IsSteady := fun term hterm => by
      obtain ⟨component, hcomponent, hterm⟩ := exists_of_mapM_eq_ok hterms hterm
      obtain ⟨converter, hconverter, hterm⟩ := bind_eq_ok.mp hterm
      obtain rfl := pure_eq_ok.mp hterm
      exact Converter.isSteady_adapt (ih component hcomponent hconverter) _
    generalize converter.term = term at hmade ⊢
    cases hmade with
    | decode => exact isSteady_path nofun
    | call => exact Runtime.isSteady_apply_decode _ hsteady
    | only term => exact hsteady term (List.mem_singleton_self term)
  | parameter name =>
    obtain rfl := pure_eq_ok.mp h
    exact isSteady_path fun _ => .inl (isDecoderName_decoderParameter name)
  | misplaced value hmisplaced =>
    rw [hmisplaced] at h
    cases h

theorem isSteady_raising {value : Value} {term : Term} (h : context.raising value = .ok term) : term.IsSteady := by
  obtain ⟨converter, hconverter, h⟩ := bind_eq_ok.mp h
  obtain rfl := pure_eq_ok.mp h
  exact Converter.isSteady_adapt (isSteady_converter hconverter) _

/-! ## Fields -/

/-- The expression reads the field under its key by the decoder of its type, where an optional field may be absent. -/
inductive ReadsField (context : Context) (field : RecordField) : Term → Prop where
  | required {decoder : Term} : (∀ item, field.value ≠ .primitive (.option item)) →
    context.raising field.value = .ok decoder →
    ReadsField context field (Decoder.fieldOf (context.options.jsonKey field.name) decoder)
  | optional {item : Value} {decoder : Term} : field.value = .primitive (.option item) →
    context.raising item = .ok decoder →
    ReadsField context field (.apply (Runtime.decode "optional")
      [.apply (Runtime.decode "field") [.text (context.options.jsonKey field.name), decoder], .var "json"])

theorem readsField_of_fieldRead {field : RecordField} {read : Term}
    (h : context.fieldRead (context.options.jsonKey field.name) field.value = .ok read) : context.ReadsField field read := by
  unfold fieldRead at h
  split at h
  · next item hitem =>
    obtain ⟨inner, hvalue, rfl⟩ := Value.eq_of_fieldType_option hitem
    obtain ⟨converter, hconverter, h⟩ := bind_eq_ok.mp h
    obtain rfl := pure_eq_ok.mp h
    exact .optional hvalue (bind_eq_ok.mpr ⟨converter, hconverter, rfl⟩)
  · next hrequired =>
    obtain ⟨converter, hconverter, h⟩ := bind_eq_ok.mp h
    obtain rfl := pure_eq_ok.mp h
    refine .required (fun item hvalue => ?_) (bind_eq_ok.mpr ⟨converter, hconverter, rfl⟩)
    rw [hvalue] at hrequired
    exact hrequired _ rfl

end Context

/-- What is read of the JSON value at hand does not depend on other variables. -/
def Ocaml.Term.IsSteadyAtDocument (term : Term) : Prop :=
  ∀ (world : World) (locals : Locals) (document : Document), locals.AtDocument document →
    term.eval world locals = term.eval world [("json", .json document)]

theorem Ocaml.Term.IsSteady.evalAll_onDocument {world : World} {locals : Locals} {document : Document}
    {arguments : List Term} (h : ∀ argument ∈ arguments, argument.IsSteady) (hlocals : locals.AtDocument document) :
    evalAll world locals (arguments ++ [.var "json"]) =
      evalAll world [] arguments >>= fun vs => .value (vs ++ [.json document]) := by
  rw [evalAll_append, evalAll_eq_of_isSteady h hlocals.clear, evalAll, eval_var hlocals.json]
  rfl

theorem Runtime.isSteadyAtDocument_apply (name : String) {arguments : List Term}
    (h : ∀ argument ∈ arguments, argument.IsSteady) :
    (Term.apply (Runtime.decode name) (arguments ++ [.var "json"])).IsSteadyAtDocument := by
  intro world locals document hlocals
  have hpath : ∀ locals : Locals, locals.get? ⟨["Aeson", "Decode"], name⟩ = none := fun _ => rfl
  rw [Runtime.decode, Term.eval, Term.eval, IsSteady.evalAll_onDocument h hlocals,
    IsSteady.evalAll_onDocument h (Locals.atDocument_json document), hpath, hpath]

theorem Ocaml.Term.isSteady_text (s : String) : (Term.text s).IsSteady := fun _ _ _ => by rw [eval, eval]

theorem Decoder.isSteadyAtDocument_fieldOf (key : String) {decoder : Term} (h : decoder.IsSteady) :
    (Decoder.fieldOf key decoder).IsSteadyAtDocument := by
  have harguments := List.forall_mem_cons.mpr ⟨Term.isSteady_text key, List.forall_mem_singleton.mpr h⟩
  have hread := Runtime.isSteadyAtDocument_apply "field" harguments
  exact hread

theorem Context.ReadsField.isSteadyAtDocument {context : Context} {field : RecordField} {read : Term}
    (h : context.ReadsField field read) : read.IsSteadyAtDocument := by
  cases h with
  | required _ hdecoder => exact Decoder.isSteadyAtDocument_fieldOf _ (isSteady_raising hdecoder)
  | optional _ hdecoder =>
    have harguments := List.forall_mem_cons.mpr
      ⟨Term.isSteady_text (context.options.jsonKey field.name), List.forall_mem_singleton.mpr (isSteady_raising hdecoder)⟩
    have hread := Runtime.isSteadyAtDocument_apply "optional"
      (List.forall_mem_singleton.mpr (Runtime.isSteady_apply_decode "field" harguments))
    exact hread

end TypeScribe
