import TypeScribe.Proofs.Mentions

/-!
# Where mentions come from

The type expression of a value mentions the variables of the type parameters that the value names, and its decoder
mentions the decoders of what the value names: of each type parameter, and of each type that is in sight without modules.
The same holds of the definitions and functions that are put together from them.
-/

namespace TypeScribe
open Ocaml (Term TypeExpr TypeBody TypeDefinition Body Function)

def Value.StandsForVariable (v : String) : Value → Prop
  | .parameter name => v = Ocaml.variableName name
  | _ => False

theorem Value.names_standsForVariable {v : String} {value : Value} :
    value.Names (StandsForVariable v) ↔
      ∃ name, (parameter name).Occurs value ∧ v = Ocaml.variableName name := by
  constructor
  · rintro ⟨part, hoccurs, -, h⟩
    cases part with
    | parameter parameter => exact ⟨parameter, hoccurs, h⟩
    | _ => exact h.elim
  · rintro ⟨parameter, hoccurs, h⟩
    exact ⟨.parameter parameter, hoccurs, trivial, h⟩

namespace Context

variable (context : Context)

/-- A named type whose decoder is called `name`, without modules, in the code that is rendered. -/
def RefersTo (name : String) : Value → Prop
  | .typeRef identity typeName =>
    context.options.dependencies.qualify context.identity identity = .ok [] ∧ name = Ocaml.decoderName typeName
  | .application identity _ =>
    context.options.dependencies.qualify context.identity identity = .ok [] ∧ name = Ocaml.decoderName identity.name
  | _ => False

/-- A named part of a value whose decoder is what is mentioned. -/
def StandsFor : Mention → Value → Prop
  | .decoder name, .parameter parameter => name = Ocaml.decoderParameter parameter
  | .decoder name, part => context.RefersTo name part
  | .type _, _ => False

variable {context}

/-! ## Named parts -/

theorem names_standsFor_decoder {name : String} {value : Value} :
    value.Names (context.StandsFor (.decoder name)) ↔
      (∃ parameter, (Value.parameter parameter).Occurs value ∧ name = Ocaml.decoderParameter parameter) ∨
        value.Names (context.RefersTo name) := by
  constructor
  · rintro ⟨part, hoccurs, hpart, h⟩
    cases part with
    | parameter parameter => exact .inl ⟨parameter, hoccurs, h⟩
    | _ => exact .inr ⟨_, hoccurs, hpart, h⟩
  · rintro (⟨parameter, hoccurs, h⟩ | ⟨part, hoccurs, hpart, h⟩)
    · exact ⟨.parameter parameter, hoccurs, trivial, h⟩
    · refine ⟨part, hoccurs, hpart, ?_⟩
      cases part with
      | typeRef | application => exact h
      | _ => exact h.elim

theorem not_names_standsFor_type {type : TypeExpr} {value : Value} : ¬ value.Names (context.StandsFor (.type type)) := by
  rintro ⟨part, -, -, h⟩
  cases part <;> exact h

/-! ## Types -/

/-- The variables of a type expression are those of the type parameters in the value. -/
theorem mem_variables_typeExpr {value : Value} {type : TypeExpr} (h : context.typeExpr value.fieldType = .ok type)
    {v : String} : v ∈ type.variables ↔ value.Names (Value.StandsForVariable v) := by
  induction value using Value.typeInduction generalizing type with
  | typeRef identity name =>
    obtain ⟨path, -, h⟩ := bind_eq_ok.mp h
    obtain rfl := pure_eq_ok.mp h
    simp [Value.names_typeRef, Value.StandsForVariable, TypeExpr.variables, TypeExpr.variablesOfAll]
  | application identity arguments ih =>
    rw [typeExpr_application] at h
    obtain ⟨types, htypes, h⟩ := bind_eq_ok.mp h
    obtain ⟨path, -, h⟩ := bind_eq_ok.mp h
    obtain rfl := pure_eq_ok.mp h
    rw [TypeExpr.variables, TypeExpr.mem_variablesOfAll, Value.names_application, or_iff_right (by exact id)]
    exact exists_mem_iff_of_forall₂ (mapM_eq_ok.mp htypes) fun argument hargument type htype => ih argument hargument htype
  | primitive p ih =>
    obtain ⟨types, htypes, hmade⟩ := exists_types_of_primitive h
    rw [hmade.variables_eq, TypeExpr.mem_variablesOfAll, Value.names_primitive]
    exact exists_mem_iff_of_forall₂ (mapM_eq_ok.mp htypes) fun component hcomponent type htype => ih component hcomponent htype
  | parameter name =>
    obtain rfl := pure_eq_ok.mp h
    rw [TypeExpr.variables, List.mem_singleton, Value.names_parameter, Value.StandsForVariable]
  | misplaced value hmisplaced =>
    rw [hmisplaced] at h
    cases h

/-! ## Decoders of types -/

theorem mem_mentions_pathTo {identity : Identity} {name : String} {path : Ocaml.Path}
    (h : context.pathTo identity (Ocaml.decoderName name) = .ok path) {mention : Mention} :
    mention ∈ (Term.path path).mentions ↔
      context.options.dependencies.qualify context.identity identity = .ok [] ∧
        mention = .decoder (Ocaml.decoderName name) := by
  obtain ⟨modules, hmodules, h⟩ := bind_eq_ok.mp h
  obtain rfl := pure_eq_ok.mp h
  rw [Term.mentions_path, mentionsOfName_decoderName, List.mem_singleton, hmodules, Except.ok.injEq]

/-- A decoder mentions the decoders of what the value names, and no type of a record. -/
theorem mem_mentions_converter {value : Value} {converter : Converter}
    (h : context.converter value.fieldType = .ok converter) {mention : Mention} :
    mention ∈ converter.term.mentions ↔ value.Names (context.StandsFor mention) := by
  induction value using Value.typeInduction generalizing converter with
  | typeRef identity name =>
    obtain ⟨path, hpath, h⟩ := bind_eq_ok.mp h
    obtain rfl := pure_eq_ok.mp h
    rw [mem_mentions_pathTo hpath, Value.names_typeRef]
    cases mention <;> simp [StandsFor, RefersTo]
  | application identity arguments ih =>
    rw [converter_application] at h
    obtain ⟨path, hpath, h⟩ := bind_eq_ok.mp h
    obtain ⟨terms, hterms, h⟩ := bind_eq_ok.mp h
    obtain rfl := pure_eq_ok.mp h
    rw [Term.mentions, List.mem_append, mem_mentions_pathTo hpath, Term.mem_mentionsOfAll, Value.names_application]
    refine or_congr ?_ (exists_mem_iff_of_forall₂ (mapM_eq_ok.mp hterms) fun argument hargument term hterm => ?_)
    · cases mention <;> simp [StandsFor, RefersTo]
    · obtain ⟨decoder, hdecoder, hterm⟩ := bind_eq_ok.mp hterm
      obtain rfl := pure_eq_ok.mp hterm
      rw [Converter.mentions_adapt]
      exact ih argument hargument hdecoder
  | primitive p ih =>
    obtain ⟨terms, hterms, hmade⟩ := exists_converters_of_primitive h
    rw [hmade.mentions_eq, Term.mem_mentionsOfAll, Value.names_primitive]
    refine exists_mem_iff_of_forall₂ (mapM_eq_ok.mp hterms) fun component hcomponent term hterm => ?_
    obtain ⟨decoder, hdecoder, hterm⟩ := bind_eq_ok.mp hterm
    obtain rfl := pure_eq_ok.mp hterm
    rw [Converter.mentions_adapt]
    exact ih component hcomponent hdecoder
  | parameter name =>
    obtain rfl := pure_eq_ok.mp h
    rw [Term.mentions_var, mentionsOfName_decoderParameter, List.mem_singleton, Value.names_parameter]
    cases mention <;> simp [StandsFor]
  | misplaced value hmisplaced =>
    rw [hmisplaced] at h
    cases h

theorem mem_mentions_raising {value : Value} {term : Term} (h : context.raising value = .ok term) {mention : Mention} :
    mention ∈ term.mentions ↔ value.Names (context.StandsFor mention) := by
  obtain ⟨converter, hconverter, h⟩ := bind_eq_ok.mp h
  obtain rfl := pure_eq_ok.mp h
  rw [Converter.mentions_adapt]
  exact mem_mentions_converter hconverter

/-! ## Records -/

theorem mem_mentions_fieldRead {key : String} {value : Value} {read : Term}
    (h : context.fieldRead key value = .ok read) {mention : Mention} :
    mention ∈ read.mentions ↔ value.Names (context.StandsFor mention) := by
  unfold fieldRead at h
  split at h
  -- an optional field is read by the decoder of what it may hold
  · next item hitem =>
    obtain ⟨inner, rfl, rfl⟩ := Value.eq_of_fieldType_option hitem
    obtain ⟨converter, hconverter, h⟩ := bind_eq_ok.mp h
    obtain rfl := pure_eq_ok.mp h
    rw [Value.names_primitive]
    simp [Primitive.components, Term.mentions, Term.mentionsOfAll, mem_mentions_converter hconverter]
  · obtain ⟨converter, hconverter, h⟩ := bind_eq_ok.mp h
    obtain rfl := pure_eq_ok.mp h
    rw [Decoder.mentions_fieldOf, Converter.mentions_adapt]
    exact mem_mentions_converter hconverter

theorem mem_mentions_readFields {decoder : String} {last : Body} {i : Nat} {fields : List RecordField} {body : Body}
    (h : context.readFields decoder last i fields = .ok body) {mention : Mention} :
    mention ∈ body.mentions ↔
      (∃ field ∈ fields, field.value.Names (context.StandsFor mention)) ∨ mention ∈ last.mentions := by
  induction fields generalizing i body with
  | nil =>
    obtain rfl := pure_eq_ok.mp h
    simp
  | cons field rest ih =>
    obtain ⟨read, hread, h⟩ := bind_eq_ok.mp h
    obtain ⟨next, hnext, h⟩ := bind_eq_ok.mp h
    obtain rfl := pure_eq_ok.mp h
    rw [Decoder.mentions_attempt, List.mem_append, mem_mentions_fieldRead hread, ih hnext, List.exists_mem_cons_iff,
      or_assoc]

theorem mem_variables_recordBody {fields : List RecordField} {body : TypeBody} (h : context.recordBody fields = .ok body)
    {v : String} : v ∈ body.variables ↔ ∃ field ∈ fields, field.value.Names (Value.StandsForVariable v) := by
  obtain ⟨types, htypes, h⟩ := bind_eq_ok.mp h
  obtain rfl := pure_eq_ok.mp h
  rw [TypeBody.variables, List.mem_flatMap]
  refine exists_mem_iff_of_forall₂ (mapM_eq_ok.mp htypes) fun field _ type htype => ?_
  obtain ⟨type, hfield, htype⟩ := bind_eq_ok.mp htype
  obtain rfl := pure_eq_ok.mp htype
  exact mem_variables_typeExpr hfield

/-! ## Constructors -/

theorem mem_mentions_readElements {place : String} {last : Body} {i : Nat} {arguments : List Value} {body : Body}
    (h : context.readElements place last i arguments = .ok body) {mention : Mention} :
    mention ∈ body.mentions ↔
      (∃ argument ∈ arguments, argument.Names (context.StandsFor mention)) ∨ mention ∈ last.mentions := by
  induction arguments generalizing i body with
  | nil =>
    obtain rfl := pure_eq_ok.mp h
    simp
  | cons argument rest ih =>
    obtain ⟨decoder, hdecoder, h⟩ := bind_eq_ok.mp h
    obtain ⟨next, hnext, h⟩ := bind_eq_ok.mp h
    obtain rfl := pure_eq_ok.mp h
    rw [Decoder.mentions_attempt, List.mem_append, ih hnext, List.exists_mem_cons_iff, or_assoc,
      ← mem_mentions_raising hdecoder]
    simp [Term.mentions, Term.mentionsOfAll]

theorem mem_mentions_positionalDecoder {source : Term} (hsource : source.mentions = []) {place : String}
    {constructor : Positional} {body : Body} (h : context.positionalDecoder source place constructor = .ok body)
    {mention : Mention} :
    mention ∈ body.mentions ↔ ∃ argument ∈ constructor.arguments, argument.Names (context.StandsFor mention) := by
  obtain ⟨next, hnext, h⟩ := bind_eq_ok.mp h
  obtain rfl := pure_eq_ok.mp h
  refine Iff.trans ?_ ((mem_mentions_readElements hnext).trans (or_iff_left (by simp [Body.mentions])))
  simp [Body.mentions, hsource, Decoder.caught, Ocaml.Clause.mentions, Term.mentions, Term.mentionsOfAll, Runtime.error,
    Runtime.arrayLength]

theorem mem_mentions_argumentDecoder {read : Term → Term} (hread : ∀ term, (read term).mentions = term.mentions)
    {place name : String} {argument : Value} {body : Body}
    (h : context.argumentDecoder read place name argument = .ok body) {mention : Mention} :
    mention ∈ body.mentions ↔ argument.Names (context.StandsFor mention) := by
  obtain ⟨decoder, hdecoder, h⟩ := bind_eq_ok.mp h
  obtain rfl := pure_eq_ok.mp h
  rw [Decoder.mentions_attempt, hread, ← mem_mentions_raising hdecoder]
  simp [Body.mentions]

theorem mem_mentions_singleDecoder {decoder : String} {constructor : Positional} {body : Body}
    (h : context.singleDecoder decoder constructor = .ok body) {mention : Mention} :
    mention ∈ body.mentions ↔ ∃ argument ∈ constructor.arguments, argument.Names (context.StandsFor mention) := by
  unfold singleDecoder at h
  split at h
  · next hnil =>
    obtain rfl := pure_eq_ok.mp h
    simp [hnil]
  · next argument hsingle =>
    rw [mem_mentions_argumentDecoder Runtime.mentions_onJson h, hsingle]
    simp
  · exact mem_mentions_positionalDecoder (by simp) h

theorem mem_mentions_contentsDecoder {decoder : String} {constructor : Positional} {body : Body}
    (h : context.contentsDecoder decoder constructor = .ok body) {mention : Mention} :
    mention ∈ body.mentions ↔ ∃ argument ∈ constructor.arguments, argument.Names (context.StandsFor mention) := by
  unfold contentsDecoder at h
  split at h
  · next hnil =>
    obtain rfl := pure_eq_ok.mp h
    simp [hnil, Body.mentions]
  · next argument hsingle =>
    rw [mem_mentions_argumentDecoder (Decoder.mentions_fieldOf _) h, hsingle]
    simp
  · exact mem_mentions_positionalDecoder (by simp) h

theorem mem_mentions_constructorArm {decoder : String} {constructor : Positional} {arm : Ocaml.Clause × Body}
    (h : context.constructorArm decoder constructor = .ok arm) {mention : Mention} :
    mention ∈ arm.1.mentions ∨ mention ∈ arm.2.mentions ↔
      ∃ argument ∈ constructor.arguments, argument.Names (context.StandsFor mention) := by
  obtain ⟨body, hbody, h⟩ := bind_eq_ok.mp h
  obtain rfl := pure_eq_ok.mp h
  rw [← mem_mentions_contentsDecoder hbody]
  exact or_iff_right List.not_mem_nil

theorem mem_variables_constructorType {constructor : Positional} {type : String × List TypeExpr}
    (h : context.constructorType constructor = .ok type) {v : String} :
    v ∈ TypeExpr.variablesOfAll type.2 ↔
      ∃ argument ∈ constructor.arguments, argument.Names (Value.StandsForVariable v) := by
  obtain ⟨types, htypes, h⟩ := bind_eq_ok.mp h
  obtain rfl := pure_eq_ok.mp h
  rw [TypeExpr.mem_variablesOfAll]
  exact exists_mem_iff_of_forall₂ (mapM_eq_ok.mp htypes) fun argument _ type htype => mem_variables_typeExpr htype

end Context

/-! ## Bodies of definitions and decoders -/

theorem Shape.exists_mem_types_sum {constructors : List Positional} {P : Value → Prop} :
    (∃ type ∈ (sum constructors).types, P type) ↔
      ∃ constructor ∈ constructors, ∃ argument ∈ constructor.arguments, P argument := by
  simp only [types, List.mem_flatMap]
  constructor
  · rintro ⟨argument, ⟨constructor, hconstructor, hargument⟩, h⟩
    exact ⟨constructor, hconstructor, argument, hargument, h⟩
  · rintro ⟨constructor, hconstructor, argument, hargument, h⟩
    exact ⟨argument, ⟨constructor, hconstructor, hargument⟩, h⟩

namespace Context

variable {context : Context}

/-- The decoder mentions the decoders of what is named in the types, and makes records of the type `record` only. -/
structure Traces (context : Context) (types : List Value) (record : TypeExpr) (decoder : Body) : Prop where
  decoders : ∀ name, .decoder name ∈ decoder.mentions ↔ ∃ type ∈ types, type.Names (context.StandsFor (.decoder name))
  records : ∀ type, .type type ∈ decoder.mentions → type = record

theorem traces_of_forall {types : List Value} {record : TypeExpr} {decoder : Body}
    (h : ∀ mention, mention ∈ decoder.mentions ↔ ∃ type ∈ types, type.Names (context.StandsFor mention)) :
    context.Traces types record decoder where
  decoders name := h _
  records type hmem := by
    obtain ⟨value, -, hvalue⟩ := (h _).mp hmem
    exact absurd hvalue not_names_standsFor_type

theorem traces_recordDecoder {decoder : String} {type : TypeExpr} {fields : List RecordField} {body : Body}
    (h : context.recordDecoder decoder type fields = .ok body) :
    context.Traces (fields.map (·.value)) type body := by
  have hbody : ∀ mention, mention ∈ body.mentions ↔
      (∃ field ∈ fields, field.value.Names (context.StandsFor mention)) ∨ mention = .type type := fun mention => by
    rw [mem_mentions_readFields h]
    simp [Body.mentions, Term.mentions]
  constructor
  · intro name
    rw [hbody]
    simp
  · intro type' hmem
    rcases (hbody _).mp hmem with ⟨field, -, hfield⟩ | htype
    · exact absurd hfield not_names_standsFor_type
    · exact Mention.type.inj htype

theorem exists_bodies_of_shape {parameters : List String} {shape : Shape}
    (hshape : ∀ records, shape ≠ .sumOfRecords records) {definitions : List TypeDefinition} {functions : List Function}
    (hdefinitions : context.typeDefinitions parameters shape = .ok definitions)
    (hfunctions : context.functions parameters shape = .ok functions) :
    ∃ body decoder, definitions = [declareType context.displayName parameters body] ∧
      functions = [decoderFunction context.displayName parameters decoder] ∧
      (∀ v, v ∈ body.variables ↔ ∃ type ∈ shape.types, type.Names (Value.StandsForVariable v)) ∧
      context.Traces shape.types (declaredType context.displayName parameters) decoder := by
  cases shape with
  | «alias» p =>
    obtain ⟨type, htype, hdefinitions⟩ := bind_eq_ok.mp hdefinitions
    obtain ⟨decoder, hdecoder, hfunctions⟩ := bind_eq_ok.mp hfunctions
    obtain ⟨converter, hconverter, hdecoder⟩ := bind_eq_ok.mp hdecoder
    change context.typeExpr (Value.primitive p).fieldType = _ at htype
    change context.converter (Value.primitive p).fieldType = _ at hconverter
    obtain rfl := pure_eq_ok.mp hdecoder
    refine ⟨_, _, (pure_eq_ok.mp hdefinitions).symm, (pure_eq_ok.mp hfunctions).symm, fun v => ?_,
      traces_of_forall fun mention => ?_⟩
    · rw [TypeBody.variables, mem_variables_typeExpr htype]
      simp [Shape.types]
    · rw [Decoder.mentions_attempt, Runtime.mentions_onJson, Converter.mentions_adapt, List.mem_append,
        mem_mentions_converter hconverter]
      simp [Shape.types, Body.mentions]
  | record fields =>
    obtain ⟨body, hbody, hdefinitions⟩ := bind_eq_ok.mp hdefinitions
    obtain ⟨function, hfunction, hfunctions⟩ := bind_eq_ok.mp hfunctions
    obtain ⟨decoder, hdecoder, hfunction⟩ := bind_eq_ok.mp hfunction
    obtain rfl := pure_eq_ok.mp hfunction
    refine ⟨body, decoder, (pure_eq_ok.mp hdefinitions).symm, (pure_eq_ok.mp hfunctions).symm, fun v => ?_,
      traces_recordDecoder hdecoder⟩
    rw [mem_variables_recordBody hbody]
    simp [Shape.types]
  | single constructor =>
    obtain ⟨type, htype, hdefinitions⟩ := bind_eq_ok.mp hdefinitions
    obtain ⟨decoder, hdecoder, hfunctions⟩ := bind_eq_ok.mp hfunctions
    refine ⟨_, decoder, (pure_eq_ok.mp hdefinitions).symm, (pure_eq_ok.mp hfunctions).symm, fun v => ?_,
      traces_of_forall fun mention => mem_mentions_singleDecoder hdecoder⟩
    rw [TypeBody.variables, List.flatMap_singleton, mem_variables_constructorType htype]
    rfl
  | sum constructors =>
    obtain ⟨types, htypes, hdefinitions⟩ := bind_eq_ok.mp hdefinitions
    obtain ⟨arms, harms, hfunctions⟩ := bind_eq_ok.mp hfunctions
    refine ⟨_, _, (pure_eq_ok.mp hdefinitions).symm, (pure_eq_ok.mp hfunctions).symm, fun v => ?_,
      traces_of_forall fun mention => ?_⟩
    · rw [TypeBody.variables, List.mem_flatMap, Shape.exists_mem_types_sum]
      exact exists_mem_iff_of_forall₂ (mapM_eq_ok.mp htypes) fun _ _ _ htype => mem_variables_constructorType htype
    · rw [Decoder.mem_mentions_dispatch, Body.mem_mentionsOfArms, Shape.exists_mem_types_sum]
      exact exists_mem_iff_of_forall₂ (mapM_eq_ok.mp harms) fun _ _ _ harm => mem_mentions_constructorArm harm
  | enumeration tags =>
    refine ⟨_, _, (pure_eq_ok.mp hdefinitions).symm, (pure_eq_ok.mp hfunctions).symm, fun v => ?_,
      traces_of_forall fun mention => ?_⟩
    · simp [TypeBody.variables, TypeExpr.variablesOfAll, Shape.types]
    · simp [mentions_enumerationDecoder, Shape.types]
  | sumOfRecords records => exact absurd rfl (hshape records)

theorem exists_bodies_of_hoisted {record : HoistedRecord} {definition : TypeDefinition} {function : Function}
    (hdefinition : context.hoistedDefinition record = .ok definition)
    (hfunction : context.hoistedFunction record = .ok function) :
    ∃ body decoder, definition = declareType record.displayName record.parameters body ∧
      function = decoderFunction record.displayName record.parameters decoder ∧
      (∀ v, v ∈ body.variables ↔ ∃ type ∈ record.fields.map (·.value), type.Names (Value.StandsForVariable v)) ∧
      context.Traces (record.fields.map (·.value)) (declaredType record.displayName record.parameters) decoder := by
  obtain ⟨body, hbody, hdefinition⟩ := bind_eq_ok.mp hdefinition
  obtain ⟨decoder, hdecoder, hfunction⟩ := bind_eq_ok.mp hfunction
  refine ⟨body, decoder, (pure_eq_ok.mp hdefinition).symm, (pure_eq_ok.mp hfunction).symm, fun v => ?_,
    traces_recordDecoder hdecoder⟩
  rw [mem_variables_recordBody hbody]
  simp

end Context

/-! ## Sums of records -/

theorem variables_declaredType (displayName : String) (parameters : List String) :
    (declaredType displayName parameters).variables = parameters.map Ocaml.variableName := by
  rw [declaredType, TypeExpr.applied, TypeExpr.variables]
  induction parameters with
  | nil => rfl
  | cons parameter rest ih => exact congrArg (Ocaml.variableName parameter :: ·) ih

theorem mem_variables_constructorTypes {records : List HoistedRecord} {v : String} :
    v ∈ (TypeBody.variant (records.map (·.constructorType))).variables ↔
      ∃ record ∈ records, ∃ parameter ∈ record.parameters, v = Ocaml.variableName parameter := by
  have hvariables : ∀ record : HoistedRecord,
      TypeExpr.variablesOfAll record.constructorType.2 = record.parameters.map Ocaml.variableName := fun record => by
    rw [HoistedRecord.constructorType, TypeExpr.variablesOfAll, variables_declaredType]
    exact List.append_nil _
  rw [TypeBody.variables, List.flatMap_map, List.mem_flatMap]
  simp only [hvariables, List.mem_map, eq_comm]

theorem HoistedRecord.mentions_decoderCall (record : HoistedRecord) :
    record.decoderCall.mentions = .decoder (Ocaml.decoderName record.displayName) ::
      record.parameters.map fun parameter => .decoder (Ocaml.decoderParameter parameter) := by
  have harguments : ∀ parameters : List String,
      Term.mentionsOfAll (parameters.map (fun parameter => .var (Ocaml.decoderParameter parameter)) ++ [.var "json"]) =
        parameters.map fun parameter => .decoder (Ocaml.decoderParameter parameter) := fun parameters => by
    induction parameters with
    | nil => simp [Term.mentionsOfAll]
    | cons parameter rest ih => simp [Term.mentionsOfAll, ih]
  rw [decoderCall, Term.mentions, harguments, Term.mentions_var, mentionsOfName_decoderName]
  rfl

namespace Context

/-- The arm for a record type calls its decoder with the decoders of its type parameters and mentions nothing else. -/
theorem hoistedArm_eq (context : Context) (decoder : String) (record : HoistedRecord) :
    ∃ answers, Body.mentionsOfArms answers = [] ∧
      context.hoistedArm decoder record = (context.tagClause record.branch, .choose record.decoderCall answers) := by
  refine ⟨_, Body.mentionsOfArms_eq_nil ?_, rfl⟩
  simp [Ocaml.Clause.mentions, Body.mentions, Term.mentions, Term.mentionsOfAll]

/-- The decoder of a sum of records mentions the decoder of each record type and the decoders that it passes to it. -/
theorem mem_mentions_dispatch_hoistedArm {context : Context} {decoder : String} {records : List HoistedRecord}
    {mention : Mention} :
    mention ∈ (Decoder.dispatch decoder (records.map (context.hoistedArm decoder))).mentions ↔
      ∃ record ∈ records, mention = .decoder (Ocaml.decoderName record.displayName) ∨
        ∃ parameter ∈ record.parameters, mention = .decoder (Ocaml.decoderParameter parameter) := by
  have harm : ∀ record, (mention ∈ (context.hoistedArm decoder record).1.mentions ∨
      mention ∈ (context.hoistedArm decoder record).2.mentions) ↔ mention ∈ record.decoderCall.mentions := fun record => by
    obtain ⟨answers, hanswers, harm⟩ := hoistedArm_eq context decoder record
    rw [harm, Body.mentions, hanswers, List.append_nil]
    exact or_iff_right List.not_mem_nil
  rw [Decoder.mem_mentions_dispatch, Body.mem_mentionsOfArms]
  simp only [List.mem_map, exists_exists_and_eq_and, harm, HoistedRecord.mentions_decoderCall, List.mem_cons,
    @eq_comm _ mention]

end Context

end TypeScribe
