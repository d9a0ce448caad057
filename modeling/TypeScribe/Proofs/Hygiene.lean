import TypeScribe.Proofs.Functions
import TypeScribe.Proofs.Interfaces
import TypeScribe.Proofs.Mentions
import TypeScribe.Proofs.Unquoted

/-!
# What hides the decoders of types

A name that is bound inside a function hides the function of that name. The names that the bodies of decoders bind are
no names of decoders. The decoders of type parameters are told apart from each other, but not from the decoders of all
types: the one for the type parameter `x` has the name of the decoder of a type that is called `_x`.
-/

namespace TypeScribe
open Ocaml (Term Pattern Clause Body Function)

/-! ## Bound names -/

namespace Ocaml

mutual

/-- The names that an expression binds, the parameters of the functions in it. -/
def Term.binders : Term → List String
  | .path _ => []
  | .text _ => []
  | .number _ => []
  | .apply function arguments => function.binders ++ bindersOfAll arguments
  | .lambda parameter body => parameter :: body.binders
  | .construct _ arguments => bindersOfAll arguments
  | .record _ _ => []
  | .concat left right => left.binders ++ right.binders
  | .element _ _ => []
  | .differs left right => left.binders ++ right.binders

def Term.bindersOfAll : List Term → List String
  | [] => []
  | term :: rest => term.binders ++ bindersOfAll rest

end

def Pattern.binders : Pattern → List String
  | .raised _ name => [name]
  | .bind name => [name]
  | .construct _ argument => argument.binders
  | .either left right => left.binders ++ right.binders
  | _ => []

def Clause.binders (clause : Clause) : List String :=
  clause.pattern.binders ++
    match clause.guard with
    | some guard => guard.binders
    | none => []

mutual

def Body.binders : Body → List String
  | .value term => term.binders
  | .choose scrutinee arms => scrutinee.binders ++ bindersOfArms arms
  | .proceed scrutinee failures name next =>
    scrutinee.binders ++ failures.flatMap (fun arm => arm.1.binders ++ arm.2.binders) ++ name :: next.binders

def Body.bindersOfArms : List (Clause × Body) → List String
  | [] => []
  | (clause, body) :: rest => clause.binders ++ body.binders ++ bindersOfArms rest

end

theorem Term.mem_bindersOfAll {name : String} {terms : List Term} :
    name ∈ bindersOfAll terms ↔ ∃ term ∈ terms, name ∈ term.binders := by
  induction terms with
  | nil => simp [bindersOfAll]
  | cons term rest ih => rw [bindersOfAll, List.mem_append, ih, List.exists_mem_cons_iff]

theorem Body.mem_bindersOfArms {name : String} {arms : List (Clause × Body)} :
    name ∈ bindersOfArms arms ↔ ∃ arm ∈ arms, name ∈ arm.1.binders ∨ name ∈ arm.2.binders := by
  induction arms with
  | nil => simp [bindersOfArms]
  | cons arm rest ih => rw [bindersOfArms, List.mem_append, List.mem_append, ih, List.exists_mem_cons_iff]

end Ocaml

/-- The name is one of those that decoders give to what they read. -/
def IsLocal (name : String) : Prop :=
  name ∈ ["json", "v", "items", "item", "message", "tag", "value"] ∨ ∃ i, name = Decoder.slot i

theorem IsLocal.not_isDecoderName {name : String} (h : IsLocal name) : ¬ IsDecoderName name := by
  rcases h with hmem | ⟨i, rfl⟩
  · exact (by decide : ∀ name ∈ ["json", "v", "items", "item", "message", "tag", "value"], ¬ IsDecoderName name) name hmem
  · exact fun h => Decoder.not_isFunctionName_slot i (.inl h)

theorem isLocal_slot (i : Nat) : IsLocal (Decoder.slot i) := .inr ⟨i, rfl⟩

/-! ## Expressions for decoders -/

attribute [local simp] Term.binders Term.bindersOfAll Pattern.binders Clause.binders Body.binders Body.bindersOfArms
  Term.var Runtime.decode Runtime.onJson Runtime.ok Runtime.error Runtime.errorText Runtime.errorBefore
  Runtime.errorQuoting Runtime.decodeError

/-- The expression binds names of its own only. -/
def Ocaml.Term.BindsLocals (term : Term) : Prop := ∀ name ∈ term.binders, IsLocal name

def Ocaml.Body.BindsLocals (body : Body) : Prop := ∀ name ∈ body.binders, IsLocal name

theorem Converter.bindsLocals_adapt {converter : Converter} (h : converter.term.BindsLocals) (wanted : Convention) :
    (converter.adapt wanted).BindsLocals := by
  have hjson : IsLocal "json" := .inl (by decide)
  unfold adapt
  split <;> simp_all [Term.BindsLocals]

namespace Context

variable {context : Context}

theorem bindsLocals_converter {value : Value} {converter : Converter}
    (h : context.converter value.fieldType = .ok converter) : converter.term.BindsLocals := by
  induction value using Value.typeInduction generalizing converter with
  | typeRef identity name =>
    obtain ⟨path, -, h⟩ := bind_eq_ok.mp h
    obtain rfl := pure_eq_ok.mp h
    exact nofun
  | application identity arguments ih =>
    rw [converter_application] at h
    obtain ⟨path, -, h⟩ := bind_eq_ok.mp h
    obtain ⟨terms, hterms, h⟩ := bind_eq_ok.mp h
    obtain rfl := pure_eq_ok.mp h
    intro name hname
    obtain ⟨term, hterm, hname⟩ := Term.mem_bindersOfAll.mp hname
    obtain ⟨argument, hargument, hterm⟩ := exists_of_mapM_eq_ok hterms hterm
    obtain ⟨converter, hconverter, hterm⟩ := bind_eq_ok.mp hterm
    obtain rfl := pure_eq_ok.mp hterm
    exact Converter.bindsLocals_adapt (ih argument hargument hconverter) _ name hname
  | primitive p ih =>
    obtain ⟨terms, hterms, hmade⟩ := exists_converters_of_primitive h
    have hlocals : ∀ term ∈ terms, term.BindsLocals := fun term hterm => by
      obtain ⟨component, hcomponent, hterm⟩ := exists_of_mapM_eq_ok hterms hterm
      obtain ⟨converter, hconverter, hterm⟩ := bind_eq_ok.mp hterm
      obtain rfl := pure_eq_ok.mp hterm
      exact Converter.bindsLocals_adapt (ih component hcomponent hconverter) _
    generalize converter.term = term at hmade ⊢
    cases hmade with
    | decode => exact nofun
    | call =>
      intro name hname
      obtain ⟨term, hterm, hname⟩ := Term.mem_bindersOfAll.mp hname
      exact hlocals term hterm name hname
    | only term => exact hlocals term (List.mem_singleton_self term)
  | parameter name =>
    obtain rfl := pure_eq_ok.mp h
    exact nofun
  | misplaced value hmisplaced =>
    rw [hmisplaced] at h
    cases h

theorem bindsLocals_raising {value : Value} {term : Term} (h : context.raising value = .ok term) : term.BindsLocals := by
  obtain ⟨converter, hconverter, h⟩ := bind_eq_ok.mp h
  obtain rfl := pure_eq_ok.mp h
  exact Converter.bindsLocals_adapt (bindsLocals_converter hconverter) _

end Context

/-! ## Bodies of decoders -/

namespace Decoder

@[simp] theorem binders_constructed (name : String) (arity : Nat) : (constructed name arity).binders = [] := by
  rw [List.eq_nil_iff_forall_not_mem]
  intro bound hbound
  obtain ⟨term, hterm, hbound⟩ := Term.mem_bindersOfAll.mp hbound
  obtain ⟨i, -, rfl⟩ := List.mem_map.mp hterm
  cases hbound

theorem binders_fieldOf (key : String) (decoder : Term) : (fieldOf key decoder).binders = decoder.binders := by
  simp [fieldOf]

theorem bindsLocals_fieldOf (key : String) {decoder : Term} (h : decoder.BindsLocals) :
    (fieldOf key decoder).BindsLocals := by
  rwa [Term.BindsLocals, binders_fieldOf]

theorem bindsLocals_elements : elements.BindsLocals := by
  simp [Term.BindsLocals, elements, IsLocal]

theorem bindsLocals_attempt {read : Term} (hread : read.BindsLocals) (place : String) {name : String}
    (hname : IsLocal name) {next : Body} (hnext : next.BindsLocals) : (attempt read place name next).BindsLocals := by
  have hmessage : IsLocal "message" := .inl (by decide)
  simp_all [Term.BindsLocals, Body.BindsLocals, attempt, caught, or_imp]

theorem bindsLocals_emptyArray (decoder name : String) : (emptyArray decoder name).BindsLocals := by
  simp [Body.BindsLocals, emptyArray]

theorem bindsLocals_dispatch (decoder : String) {arms : List (Clause × Body)}
    (h : ∀ arm ∈ arms, arm.1.binders = [] ∧ arm.2.BindsLocals) : (dispatch decoder arms).BindsLocals := by
  intro name hname
  have hread : (fieldOf tagKey (Runtime.decode "string")).binders = [] := rfl
  rw [dispatch, Body.binders, hread, List.nil_append, Body.mem_bindersOfArms] at hname
  obtain ⟨arm, harm, hname⟩ := hname
  rcases List.mem_cons.mp harm with rfl | harm
  · exact .inl (by simp_all [caught])
  · rcases List.mem_append.mp harm with harm | harm
    · obtain ⟨hclause, hbody⟩ := h arm harm
      rw [hclause] at hname
      exact hbody name (hname.resolve_left List.not_mem_nil)
    · obtain rfl := List.mem_singleton.mp harm
      exact .inl (by simp_all)

end Decoder

open Decoder

namespace Context

variable {context : Context} {body : Body}

theorem bindsLocals_fieldRead {key : String} {value : Value} {read : Term}
    (h : context.fieldRead key value = .ok read) : read.BindsLocals := by
  unfold fieldRead at h
  split at h
  · next item hitem =>
    obtain ⟨inner, rfl, rfl⟩ := Value.eq_of_fieldType_option hitem
    obtain ⟨converter, hconverter, h⟩ := bind_eq_ok.mp h
    obtain rfl := pure_eq_ok.mp h
    have hdecoder := Converter.bindsLocals_adapt (bindsLocals_converter hconverter) .raising
    simpa [Term.BindsLocals] using hdecoder
  · obtain ⟨converter, hconverter, h⟩ := bind_eq_ok.mp h
    obtain rfl := pure_eq_ok.mp h
    exact bindsLocals_fieldOf key (Converter.bindsLocals_adapt (bindsLocals_converter hconverter) .raising)

theorem bindsLocals_readFields {decoder : String} {last : Body} (hlast : last.BindsLocals) {fields : List RecordField}
    {i : Nat} (h : context.readFields decoder last i fields = .ok body) : body.BindsLocals := by
  induction fields generalizing i body with
  | nil =>
    obtain rfl := pure_eq_ok.mp h
    exact hlast
  | cons field rest ih =>
    obtain ⟨read, hread, h⟩ := bind_eq_ok.mp h
    obtain ⟨next, hnext, h⟩ := bind_eq_ok.mp h
    obtain rfl := pure_eq_ok.mp h
    exact bindsLocals_attempt (bindsLocals_fieldRead hread) _ (isLocal_slot i) (ih hnext)

theorem bindsLocals_readElements {place : String} {last : Body} (hlast : last.BindsLocals) {arguments : List Value}
    {i : Nat} (h : context.readElements place last i arguments = .ok body) : body.BindsLocals := by
  induction arguments generalizing i body with
  | nil =>
    obtain rfl := pure_eq_ok.mp h
    exact hlast
  | cons argument rest ih =>
    obtain ⟨decoder, hdecoder, h⟩ := bind_eq_ok.mp h
    obtain ⟨next, hnext, h⟩ := bind_eq_ok.mp h
    obtain rfl := pure_eq_ok.mp h
    have hread : (Term.apply decoder [.element "items" i]).BindsLocals := by
      simpa [Term.BindsLocals] using bindsLocals_raising hdecoder
    exact bindsLocals_attempt hread _ (isLocal_slot i) (ih hnext)

theorem bindsLocals_value_constructed (name : String) (arity : Nat) :
    (Body.value (Runtime.ok (constructed name arity))).BindsLocals := by
  simp [Body.BindsLocals]

theorem bindsLocals_positionalDecoder {source : Term} (hsource : source.BindsLocals) {place : String}
    {constructor : Positional} (h : context.positionalDecoder source place constructor = .ok body) :
    body.BindsLocals := by
  obtain ⟨next, hnext, h⟩ := bind_eq_ok.mp h
  obtain rfl := pure_eq_ok.mp h
  have hlast := bindsLocals_readElements (bindsLocals_value_constructed _ _) hnext
  have hmessage : IsLocal "message" := .inl (by decide)
  have hitems : IsLocal "items" := .inl (by decide)
  simp_all [Term.BindsLocals, Body.BindsLocals, caught, Runtime.arrayLength, or_imp]

theorem bindsLocals_argumentDecoder {read : Term → Term}
    (hread : ∀ {decoder : Term}, decoder.BindsLocals → (read decoder).BindsLocals) {place name : String}
    {argument : Value} (h : context.argumentDecoder read place name argument = .ok body) : body.BindsLocals := by
  obtain ⟨decoder, hdecoder, h⟩ := bind_eq_ok.mp h
  obtain rfl := pure_eq_ok.mp h
  exact bindsLocals_attempt (hread (bindsLocals_raising hdecoder)) place (isLocal_slot 0) (bindsLocals_value_constructed _ _)

theorem bindsLocals_onJson {decoder : Term} (h : decoder.BindsLocals) : (Runtime.onJson decoder).BindsLocals := by
  simpa [Term.BindsLocals] using h

theorem bindsLocals_singleDecoder {decoder : String} {constructor : Positional}
    (h : context.singleDecoder decoder constructor = .ok body) : body.BindsLocals := by
  unfold singleDecoder at h
  split at h
  · obtain rfl := pure_eq_ok.mp h
    exact bindsLocals_emptyArray decoder constructor.name
  · exact bindsLocals_argumentDecoder bindsLocals_onJson h
  · exact bindsLocals_positionalDecoder (bindsLocals_onJson bindsLocals_elements) h

theorem bindsLocals_contentsDecoder {decoder : String} {constructor : Positional}
    (h : context.contentsDecoder decoder constructor = .ok body) : body.BindsLocals := by
  unfold contentsDecoder at h
  split at h
  · obtain rfl := pure_eq_ok.mp h
    exact bindsLocals_value_constructed _ _
  · exact bindsLocals_argumentDecoder (bindsLocals_fieldOf contentsKey) h
  · exact bindsLocals_positionalDecoder (bindsLocals_fieldOf contentsKey bindsLocals_elements) h

theorem bindsLocals_hoistedArm (context : Context) (decoder : String) (record : HoistedRecord) :
    (context.hoistedArm decoder record).2.BindsLocals := by
  have hcall : record.decoderCall.binders = [] := by
    rw [List.eq_nil_iff_forall_not_mem]
    intro name hname
    obtain ⟨term, hterm, hname⟩ := Term.mem_bindersOfAll.mp hname
    rcases List.mem_append.mp hterm with hterm | hterm
    · obtain ⟨parameter, -, rfl⟩ := List.mem_map.mp hterm
      cases hname
    · obtain rfl := List.mem_singleton.mp hterm
      cases hname
  have hv : IsLocal "v" := .inl (by decide)
  have hmessage : IsLocal "message" := .inl (by decide)
  simp_all [hoistedArm, Body.BindsLocals]

theorem bindsLocals_enumerationDecoder (context : Context) (decoder : String) (tags : List String) :
    (context.enumerationDecoder decoder tags).BindsLocals := by
  unfold enumerationDecoder
  split
  · exact bindsLocals_emptyArray decoder _
  · intro name hname
    obtain ⟨arm, harm, hname⟩ := Body.mem_bindersOfArms.mp hname
    rcases List.mem_append.mp harm with harm | harm
    · obtain ⟨tag, -, rfl⟩ := List.mem_map.mp harm
      simp at hname
    · simp only [List.mem_cons, List.not_mem_nil, or_false] at harm
      rcases harm with rfl | rfl
      · exact .inl (by simp_all)
      · simp at hname

theorem Makes.bindsLocals (h : context.Makes body) : body.BindsLocals := by
  cases h with
  | «alias» hbody =>
    obtain ⟨converter, hconverter, hbody⟩ := bind_eq_ok.mp hbody
    obtain rfl := pure_eq_ok.mp hbody
    change context.converter (Value.primitive _).fieldType = _ at hconverter
    have hread := Converter.bindsLocals_adapt (bindsLocals_converter hconverter) .raising
    exact bindsLocals_attempt (bindsLocals_onJson hread) _ (.inl (by decide)) (by simp [Body.BindsLocals])
  | record hbody => exact bindsLocals_readFields (by simp [Body.BindsLocals]) hbody
  | single hbody => exact bindsLocals_singleDecoder hbody
  | sum harms =>
    refine bindsLocals_dispatch _ fun arm hmem => ?_
    obtain ⟨constructor, -, harm⟩ := exists_of_mapM_eq_ok harms hmem
    obtain ⟨body, hbody, harm⟩ := bind_eq_ok.mp harm
    obtain rfl := pure_eq_ok.mp harm
    exact ⟨rfl, bindsLocals_contentsDecoder hbody⟩
  | enumeration decoder tags => exact bindsLocals_enumerationDecoder context decoder tags
  | sumOfRecords decoder records =>
    refine bindsLocals_dispatch _ fun arm hmem => ?_
    obtain ⟨record, -, rfl⟩ := List.mem_map.mp hmem
    exact ⟨rfl, bindsLocals_hoistedArm context decoder record⟩

end Context

/-! ## Names of decoders -/

set_option maxRecDepth 4000 in
theorem underscore_notMem_upper {c : Char} (hc : c ≠ '_') : '_' ∉ Text.upper c :=
  notMem_upper (by decide) (by decide) (by decide) (by decide) hc

theorem upper_ne_nil (c : Char) : Text.upper c ≠ [] := by
  unfold Text.upper Text.mapped
  split
  · exact List.cons_ne_nil _ _
  · split
    · next hfound =>
      have hcodes := (by decide : ∀ entry ∈ Text.upperExpansions, entry.2 ≠ []) _ (List.mem_of_find?_eq_some hfound)
      simpa using hcodes
    · split <;> exact List.cons_ne_nil _ _

/-- A name starts with an underscore where it did before its first letter was raised, and it is the same name then. -/
theorem upperFirst_eq_underscore_iff {name rest : String} : Name.upperFirst name = "_" ++ rest ↔ name = "_" ++ rest := by
  rw [← String.toList_inj, ← String.toList_inj, Name.upperFirst, String.toList_ofList, String.toList_append]
  change _ = '_' :: rest.toList ↔ _ = '_' :: rest.toList
  cases name.toList with
  | nil => simp [Name.upperFirstChars]
  | cons c chars =>
    rw [Name.upperFirstChars]
    by_cases hc : c = '_'
    · subst hc
      rfl
    · obtain ⟨d, others, hupper⟩ := List.exists_cons_of_ne_nil (upper_ne_nil c)
      have hd : d ≠ '_' := by
        rintro rfl
        exact underscore_notMem_upper hc (hupper ▸ List.mem_cons_self)
      simp [hupper, hc, hd]

theorem decoderParameter_injective : Function.Injective Ocaml.decoderParameter := fun _ _ h =>
  (String.append_right_inj _).mp h

/-- The decoder of a type parameter has the name of the decoder of a type only if the type is called like the parameter
after an underscore. -/
theorem decoderParameter_eq_decoderName_iff {parameter displayName : String} :
    Ocaml.decoderParameter parameter = Ocaml.decoderName displayName ↔ displayName = "_" ++ parameter := by
  have hsplit : Ocaml.decoderParameter parameter = "decode" ++ ("_" ++ parameter) := by
    rw [Ocaml.decoderParameter, ← String.append_assoc]
    rfl
  rw [hsplit, Ocaml.decoderName, String.append_right_inj, eq_comm, upperFirst_eq_underscore_iff]

/-! ## Functions -/

/-- The function of a type keeps the decoders that it takes apart from each other and from what it binds itself. It hides
the decoders of those types that are called like one of its type parameters after an underscore, and no others. -/
structure TypeHead.KeepsApart (head : TypeHead) (function : Function) : Prop where
  name : function.name = Ocaml.decoderName head.displayName
  parameters : function.parameters = head.parameters.map Ocaml.decoderParameter ++ ["json"]
  nodup : function.parameters.Nodup
  locals : ∀ bound ∈ "json" :: function.body.binders, IsLocal bound ∧ ∀ displayName, bound ≠ Ocaml.decoderName displayName
  hides : ∀ displayName, Ocaml.decoderName displayName ∈ function.parameters ↔
    ∃ parameter ∈ head.parameters, displayName = "_" ++ parameter

theorem TypeHead.keepsApart {head : TypeHead} {function : Function} (hhead : head.parameters.Pairwise (· < ·))
    (hdecoded : head.IsDecodedBy function) (hbody : function.body.BindsLocals) : head.KeepsApart function where
  name := hdecoded.name
  parameters := hdecoded.parameters
  nodup := by
    rw [hdecoded.parameters]
    have hparameters := List.Nodup.map decoderParameter_injective (hhead.imp fun h => ne_of_lt h)
    refine List.nodup_append.mpr ⟨hparameters, List.nodup_singleton _, fun name hname other hother => ?_⟩
    obtain ⟨parameter, -, rfl⟩ := List.mem_map.mp hname
    rw [List.mem_singleton.mp hother]
    exact fun h => (by decide : ¬ IsDecoderName "json") (h ▸ isDecoderName_decoderParameter parameter)
  locals bound hbound := by
    have hlocal : IsLocal bound := by
      rcases List.mem_cons.mp hbound with rfl | hbound
      · exact .inl (by decide)
      · exact hbody bound hbound
    refine ⟨hlocal, ?_⟩
    rintro displayName rfl
    exact hlocal.not_isDecoderName (isDecoderName_decoderName displayName)
  hides displayName := by
    have hjson : Ocaml.decoderName displayName ∉ ["json"] := fun h =>
      (by decide : ¬ IsDecoderName "json") (List.mem_singleton.mp h ▸ isDecoderName_decoderName displayName)
    rw [hdecoded.parameters, List.mem_append, or_iff_left hjson, List.mem_map]
    simp only [decoderParameter_eq_decoderName_iff]

namespace Descriptor

theorem pairwise_parameters_of_mem_heads {descriptor : Descriptor} {head : TypeHead} (h : head ∈ descriptor.heads) :
    head.parameters.Pairwise (· < ·) := by
  rcases List.mem_append.mp h with h | h
  · unfold Constructor.hoistedHeads at h
    split at h
    · obtain ⟨branch, -, rfl⟩ := List.mem_map.mp h
      exact pairwise_sortedNames _
    · cases h
  · rw [List.mem_singleton.mp h]
    exact pairwise_sortedNames _

/-- In every decoder that is rendered the decoders of the type parameters are told apart, and no name that is bound in it
is that of the decoder of any type. A decoder that it takes for a type parameter has the name of the decoder of the types
that are called like the type parameter after an underscore, and of no others. -/
theorem decoder_isHygienic {descriptor : Descriptor} {options : Options} {text : String}
    (h : descriptor.renderDecoder options = .ok text) :
    (∀ v w, Ocaml.decoderParameter v = Ocaml.decoderParameter w → v = w) ∧
    (∀ v displayName, Ocaml.decoderParameter v = Ocaml.decoderName displayName ↔ displayName = "_" ++ v) ∧
    ∃ group, descriptor.decoder options = .ok group ∧ text = Ocaml.source group.functionLines ∧
      ∀ function ∈ group.items, ∃ head ∈ descriptor.heads, head.KeepsApart function := by
  refine ⟨fun _ _ h => decoderParameter_injective h, fun _ _ => decoderParameter_eq_decoderName_iff, ?_⟩
  obtain ⟨group, hgroup, rfl⟩ := renderDecoder_eq_ok.mp h
  obtain ⟨shape, hshape, -, hfunctions⟩ := decoder_eq_ok.mp hgroup
  refine ⟨group, hgroup, rfl, fun function hmem => ?_⟩
  have hheads := Context.forall₂_functions hfunctions
  rw [hoistedHeads_of_classify hshape] at hheads
  obtain ⟨head, hhead, hdecoded⟩ := exists_of_forall₂_left hheads.flip hmem
  obtain ⟨_, _, body, rfl, hbody⟩ := Context.makesFunction_of_mem hfunctions function hmem
  exact ⟨head, hhead, TypeHead.keepsApart (pairwise_parameters_of_mem_heads hhead) hdecoded hbody.bindsLocals⟩

def pair : Descriptor :=
  .ofConstructor ⟨"main", "Types", "Pair"⟩ <| .value <| .ofFields "Pair" [
    ("first", .parameter "x"),
    ("second", .reference ⟨"main", "Types", "_x"⟩)]

theorem pair_isHygienic :
    ∃ function, pair.decoder {} = .ok ⟨false, [function]⟩ ∧ TypeHead.KeepsApart ⟨"Pair", ["x"]⟩ function := by
  obtain ⟨-, -, group, hgroup, -, hfunctions⟩ := decoder_isHygienic (rfl : pair.renderDecoder {} = .ok _)
  cases hgroup
  obtain ⟨head, hhead, hkeeps⟩ := hfunctions _ (List.mem_singleton_self _)
  obtain rfl := List.mem_singleton.mp hhead
  exact ⟨_, rfl, hkeeps⟩

/-- The type parameter `x` hides the decoder of the type `_x`. -/
theorem pair_hidesDecoder :
    ∃ function, pair.decoder {} = .ok ⟨false, [function]⟩ ∧ Ocaml.decoderName "_x" ∈ function.parameters ∧
      (Context.ofDescriptor {} pair).converter (Value.reference ⟨"main", "Types", "_x"⟩).fieldType =
        .ok ⟨.var (Ocaml.decoderName "_x"), .returning⟩ :=
  ⟨_, rfl, by decide, rfl⟩

end Descriptor

end TypeScribe
