import TypeScribe.Proofs.Phrases
import TypeScribe.Proofs.ReadBack
import TypeScribe.Proofs.TypeParameters

/-!
# When the definitions of a type form a recursive group

A group is recursive if the descriptor of its type refers to the type. That is looked up in the values of the
descriptor. What is defined refers to the type where the code of such a value is printed. Here both are proved to be the
same: the code of every type that the descriptor refers to stands in the body of a definition and in that of a decoder.
-/

namespace TypeScribe
open Ocaml (Path Term Token TypeExpr TypeBody TypeDefinition Clause Body Function joined afterKeyword)

theorem Value.isNamed_of_identity? {part : Value} {identity : Identity} (h : part.identity? = some identity) :
    part.IsNamed := by
  cases part with
  | typeRef | application => trivial
  | _ => cases h

/-! ## Code inside code -/

namespace Ocaml

/-- The type expression is the other one or a part of it. -/
inductive TypeExpr.StandsIn (part : TypeExpr) : TypeExpr → Prop where
  | self : StandsIn part part
  | argument {path : Path} {type : TypeExpr} {arguments : List TypeExpr} :
    type ∈ arguments → StandsIn part type → StandsIn part (.constructor path arguments)
  | item {type : TypeExpr} {items : List TypeExpr} : type ∈ items → StandsIn part type → StandsIn part (.tuple items)
  | domain {domain codomain : TypeExpr} : StandsIn part domain → StandsIn part (.arrow domain codomain)
  | codomain {domain codomain : TypeExpr} : StandsIn part codomain → StandsIn part (.arrow domain codomain)

inductive TypeBody.Holds (part : TypeExpr) : TypeBody → Prop where
  | «alias» {type : TypeExpr} : part.StandsIn type → Holds part (.alias type)
  | field {field : String × TypeExpr} {fields : List (String × TypeExpr)} :
    field ∈ fields → part.StandsIn field.2 → Holds part (.record fields)
  | argument {type : TypeExpr} {constructor : String × List TypeExpr} {constructors : List (String × List TypeExpr)} :
    constructor ∈ constructors → type ∈ constructor.2 → part.StandsIn type → Holds part (.variant constructors)

theorem TypeExpr.StandsIn.trans {part middle whole : TypeExpr} (h : part.StandsIn middle) (h' : middle.StandsIn whole) :
    part.StandsIn whole := by
  induction h' with
  | self => exact h
  | argument hmem _ ih => exact .argument hmem ih
  | item hmem _ ih => exact .item hmem ih
  | domain _ ih => exact .domain ih
  | codomain _ ih => exact .codomain ih

theorem TypeExpr.IsMadeOf.standsIn {whole part : TypeExpr} {types : List TypeExpr} (h : whole.IsMadeOf types)
    (hmem : part ∈ types) : part.StandsIn whole := by
  cases h with
  | constructor => exact .argument hmem .self
  | tuple => exact .item hmem .self
  | only => exact List.mem_singleton.mp hmem ▸ .self

theorem Term.StandsIn.trans {part middle whole : Term} (h : part.StandsIn middle) (h' : middle.StandsIn whole) :
    part.StandsIn whole := by
  induction h' with
  | self => exact h
  | function _ ih => exact .function ih
  | argument hmem _ ih => exact .argument hmem ih
  | lambda _ ih => exact .lambda ih
  | component hmem _ ih => exact .component hmem ih
  | concatLeft _ ih => exact .concatLeft ih
  | concatRight _ ih => exact .concatRight ih
  | differsLeft _ ih => exact .differsLeft ih
  | differsRight _ ih => exact .differsRight ih

theorem Term.IsMadeOf.standsIn {whole part : Term} {terms : List Term} (h : whole.IsMadeOf terms) (hmem : part ∈ terms) :
    part.StandsIn whole := by
  cases h with
  | decode => cases hmem
  | call => exact .argument hmem .self
  | only => exact List.mem_singleton.mp hmem ▸ .self

end Ocaml

theorem Runtime.standsIn_onJson (function : Term) : function.StandsIn (Runtime.onJson function) := .function .self

theorem Converter.standsIn_adapt (converter : Converter) (wanted : Convention) :
    converter.term.StandsIn (converter.adapt wanted) := by
  unfold adapt
  split
  · exact .self
  · exact .self
  · exact .lambda (.argument (List.mem_singleton_self _) (Runtime.standsIn_onJson _))
  · exact .argument (List.mem_singleton_self _) .self

theorem Decoder.standsIn_fieldOf (key : String) (decoder : Term) : decoder.StandsIn (Decoder.fieldOf key decoder) :=
  .argument (List.mem_cons_of_mem _ List.mem_cons_self) .self

namespace Context

variable {context : Context} {part : Value}

/-! ## Types -/

/-- The type expression of the value is a part of the other one. -/
def ShowsType (context : Context) (part : Value) (type : TypeExpr) : Prop :=
  ∃ own, context.typeExpr part.fieldType = .ok own ∧ own.StandsIn type

theorem ShowsType.within {type whole : TypeExpr} (h : context.ShowsType part type) (hwhole : type.StandsIn whole) :
    context.ShowsType part whole := by
  obtain ⟨own, hown, hstands⟩ := h
  exact ⟨own, hown, hstands.trans hwhole⟩

theorem showsType_typeExpr (hpart : part.IsNamed) {value : Value} {type : TypeExpr}
    (h : context.typeExpr value.fieldType = .ok type) (hoccurs : part.Occurs value) : context.ShowsType part type := by
  induction value using Value.typeInduction generalizing type with
  | typeRef identity name =>
    obtain rfl := Value.occurs_typeRef.mp hoccurs
    exact ⟨type, h, .self⟩
  | application identity arguments ih =>
    rcases (Value.occurs_application hpart).mp hoccurs with rfl | ⟨argument, hmem, hoccurs⟩
    · exact ⟨type, h, .self⟩
    · rw [typeExpr_application] at h
      obtain ⟨types, htypes, h⟩ := bind_eq_ok.mp h
      obtain ⟨path, -, h⟩ := bind_eq_ok.mp h
      obtain rfl := pure_eq_ok.mp h
      obtain ⟨type, htype, hargument⟩ := exists_of_forall₂_left (mapM_eq_ok.mp htypes) hmem
      exact (ih argument hmem hargument hoccurs).within (.argument htype .self)
  | primitive p ih =>
    obtain ⟨component, hmem, hoccurs⟩ := (Value.occurs_primitive hpart).mp hoccurs
    obtain ⟨types, htypes, hmade⟩ := exists_types_of_primitive h
    obtain ⟨type, htype, hcomponent⟩ := exists_of_forall₂_left (mapM_eq_ok.mp htypes) hmem
    exact (ih component hmem hcomponent hoccurs).within (hmade.standsIn htype)
  | parameter name =>
    obtain rfl := Value.occurs_parameter.mp hoccurs
    exact ⟨type, h, .self⟩
  | misplaced value hmisplaced =>
    rw [hmisplaced] at h
    cases h

/-- The type expression of the value stands in the body of one of the definitions. -/
def Declares (context : Context) (definitions : List TypeDefinition) (part : Value) : Prop :=
  ∃ definition ∈ definitions, ∃ own, context.typeExpr part.fieldType = .ok own ∧ definition.body.Holds own

theorem holds_recordBody (hpart : part.IsNamed) {fields : List RecordField} {body : TypeBody}
    (h : context.recordBody fields = .ok body) {field : RecordField} (hfield : field ∈ fields)
    (hoccurs : part.Occurs field.value) : ∃ own, context.typeExpr part.fieldType = .ok own ∧ body.Holds own := by
  obtain ⟨types, htypes, h⟩ := bind_eq_ok.mp h
  obtain rfl := pure_eq_ok.mp h
  obtain ⟨labelled, hlabelled, hfieldType⟩ := exists_of_forall₂_left (mapM_eq_ok.mp htypes) hfield
  obtain ⟨type, htype, hfieldType⟩ := bind_eq_ok.mp hfieldType
  obtain rfl := pure_eq_ok.mp hfieldType
  obtain ⟨own, hown, hstands⟩ := showsType_typeExpr hpart htype hoccurs
  exact ⟨own, hown, .field hlabelled hstands⟩

theorem holds_constructorTypes (hpart : part.IsNamed) {constructors : List Positional}
    {types : List (String × List TypeExpr)}
    (h : List.Forall₂ (fun constructor type => context.constructorType constructor = .ok type) constructors types)
    {constructor : Positional} (hconstructor : constructor ∈ constructors) {argument : Value}
    (hargument : argument ∈ constructor.arguments) (hoccurs : part.Occurs argument) :
    ∃ own, context.typeExpr part.fieldType = .ok own ∧ (TypeBody.variant types).Holds own := by
  obtain ⟨named, hnamed, hconstructorType⟩ := exists_of_forall₂_left h hconstructor
  obtain ⟨arguments, harguments, hconstructorType⟩ := bind_eq_ok.mp hconstructorType
  obtain rfl := pure_eq_ok.mp hconstructorType
  obtain ⟨type, hmem, htype⟩ := exists_of_forall₂_left (mapM_eq_ok.mp harguments) hargument
  obtain ⟨own, hown, hstands⟩ := showsType_typeExpr hpart htype hoccurs
  exact ⟨own, hown, .argument hnamed hmem hstands⟩

/-- The definitions for a shape print the types that its values name. -/
theorem declares_typeDefinitions (hpart : part.IsNamed) {parameters : List String} {shape : Shape}
    {definitions : List TypeDefinition} (h : context.typeDefinitions parameters shape = .ok definitions) {value : Value}
    (hvalue : value ∈ shape.types) (hoccurs : part.Occurs value) : context.Declares definitions part := by
  cases shape with
  | «alias» p =>
    obtain ⟨type, htype, h⟩ := bind_eq_ok.mp h
    obtain rfl := pure_eq_ok.mp h
    obtain rfl := List.mem_singleton.mp hvalue
    obtain ⟨own, hown, hstands⟩ := showsType_typeExpr hpart htype hoccurs
    exact ⟨_, List.mem_singleton_self _, own, hown, .alias hstands⟩
  | record fields =>
    obtain ⟨body, hbody, h⟩ := bind_eq_ok.mp h
    obtain rfl := pure_eq_ok.mp h
    obtain ⟨field, hfield, rfl⟩ := List.mem_map.mp hvalue
    exact ⟨_, List.mem_singleton_self _, holds_recordBody hpart hbody hfield hoccurs⟩
  | single constructor =>
    obtain ⟨type, htype, h⟩ := bind_eq_ok.mp h
    obtain rfl := pure_eq_ok.mp h
    exact ⟨_, List.mem_singleton_self _,
      holds_constructorTypes hpart (.cons htype .nil) (List.mem_singleton_self _) hvalue hoccurs⟩
  | sum constructors =>
    obtain ⟨types, htypes, h⟩ := bind_eq_ok.mp h
    obtain rfl := pure_eq_ok.mp h
    obtain ⟨constructor, hconstructor, hargument⟩ := List.mem_flatMap.mp hvalue
    exact ⟨_, List.mem_singleton_self _,
      holds_constructorTypes hpart (mapM_eq_ok.mp htypes) hconstructor hargument hoccurs⟩
  | enumeration tags => cases hvalue
  | sumOfRecords records =>
    obtain ⟨hoisted, hhoisted, h⟩ := bind_eq_ok.mp h
    obtain rfl := pure_eq_ok.mp h
    obtain ⟨record, hrecord, hvalue⟩ := List.mem_flatMap.mp hvalue
    obtain ⟨field, hfield, rfl⟩ := List.mem_map.mp hvalue
    obtain ⟨definition, hmem, hdefinition⟩ := exists_of_forall₂_left (mapM_eq_ok.mp hhoisted) hrecord
    obtain ⟨body, hbody, hdefinition⟩ := bind_eq_ok.mp hdefinition
    obtain rfl := pure_eq_ok.mp hdefinition
    exact ⟨_, List.mem_append_left _ hmem, holds_recordBody hpart hbody hfield hoccurs⟩

/-! ## Decoders -/

def ShowsDecoder (context : Context) (part : Value) (term : Term) : Prop :=
  ∃ own, context.converter part.fieldType = .ok own ∧ own.term.StandsIn term

def RunsDecoder (context : Context) (part : Value) (body : Body) : Prop :=
  ∃ own, context.converter part.fieldType = .ok own ∧ body.Holds own.term

theorem ShowsDecoder.within {term whole : Term} (h : context.ShowsDecoder part term) (hwhole : term.StandsIn whole) :
    context.ShowsDecoder part whole := by
  obtain ⟨own, hown, hstands⟩ := h
  exact ⟨own, hown, hstands.trans hwhole⟩

/-- The decoder of a value shows those of what is named in the value. -/
theorem showsDecoder_converter (hpart : part.IsNamed) {value : Value} {converter : Converter}
    (h : context.converter value.fieldType = .ok converter) (hoccurs : part.Occurs value) :
    context.ShowsDecoder part converter.term := by
  induction value using Value.typeInduction generalizing converter with
  | typeRef identity name =>
    obtain rfl := Value.occurs_typeRef.mp hoccurs
    exact ⟨converter, h, .self⟩
  | application identity arguments ih =>
    rcases (Value.occurs_application hpart).mp hoccurs with rfl | ⟨argument, hmem, hoccurs⟩
    · exact ⟨converter, h, .self⟩
    · rw [converter_application] at h
      obtain ⟨path, -, h⟩ := bind_eq_ok.mp h
      obtain ⟨terms, hterms, h⟩ := bind_eq_ok.mp h
      obtain rfl := pure_eq_ok.mp h
      obtain ⟨term, hterm, hargument⟩ := exists_of_forall₂_left (mapM_eq_ok.mp hterms) hmem
      obtain ⟨inner, hinner, hargument⟩ := bind_eq_ok.mp hargument
      obtain rfl := pure_eq_ok.mp hargument
      exact (ih argument hmem hinner hoccurs).within (.argument hterm (inner.standsIn_adapt _))
  | primitive p ih =>
    obtain ⟨component, hmem, hoccurs⟩ := (Value.occurs_primitive hpart).mp hoccurs
    obtain ⟨terms, hterms, hmade⟩ := exists_converters_of_primitive h
    obtain ⟨term, hterm, hcomponent⟩ := exists_of_forall₂_left (mapM_eq_ok.mp hterms) hmem
    obtain ⟨inner, hinner, hcomponent⟩ := bind_eq_ok.mp hcomponent
    obtain rfl := pure_eq_ok.mp hcomponent
    exact (ih component hmem hinner hoccurs).within ((inner.standsIn_adapt _).trans (hmade.standsIn hterm))
  | parameter name =>
    obtain rfl := Value.occurs_parameter.mp hoccurs
    exact ⟨converter, h, .self⟩
  | misplaced value hmisplaced =>
    rw [hmisplaced] at h
    cases h

theorem showsDecoder_raising (hpart : part.IsNamed) {value : Value} {term : Term} (h : context.raising value = .ok term)
    (hoccurs : part.Occurs value) : context.ShowsDecoder part term := by
  obtain ⟨converter, hconverter, h⟩ := bind_eq_ok.mp h
  obtain rfl := pure_eq_ok.mp h
  exact (showsDecoder_converter hpart hconverter hoccurs).within (converter.standsIn_adapt _)

theorem ShowsDecoder.attempt {read : Term} (h : context.ShowsDecoder part read) (place name : String) (next : Body) :
    context.RunsDecoder part (Decoder.attempt read place name next) := by
  obtain ⟨own, hown, hstands⟩ := h
  exact ⟨own, hown, .attempted hstands⟩

theorem RunsDecoder.proceed {next : Body} (h : context.RunsDecoder part next) (scrutinee : Term)
    (failures : List (Clause × Term)) (name : String) :
    context.RunsDecoder part (.proceed scrutinee failures name next) := by
  obtain ⟨own, hown, hholds⟩ := h
  exact ⟨own, hown, .next hholds⟩

theorem showsDecoder_fieldRead (hpart : part.IsNamed) {key : String} {value : Value} {read : Term}
    (h : context.fieldRead key value = .ok read) (hoccurs : part.Occurs value) : context.ShowsDecoder part read := by
  unfold fieldRead at h
  split at h
  · next item hitem =>
    obtain ⟨inner, rfl, rfl⟩ := Value.eq_of_fieldType_option hitem
    obtain ⟨component, hmem, hcomponent⟩ := (Value.occurs_primitive hpart).mp hoccurs
    obtain rfl := List.mem_singleton.mp hmem
    obtain ⟨converter, hconverter, h⟩ := bind_eq_ok.mp h
    obtain rfl := pure_eq_ok.mp h
    refine (showsDecoder_converter hpart hconverter hcomponent).within ((converter.standsIn_adapt .raising).trans ?_)
    exact .argument List.mem_cons_self (.argument (List.mem_cons_of_mem _ List.mem_cons_self) .self)
  · obtain ⟨converter, hconverter, h⟩ := bind_eq_ok.mp h
    obtain rfl := pure_eq_ok.mp h
    exact (showsDecoder_converter hpart hconverter hoccurs).within
      ((converter.standsIn_adapt _).trans (Decoder.standsIn_fieldOf _ _))

theorem runsDecoder_readFields (hpart : part.IsNamed) {decoder : String} {last : Body} {i : Nat}
    {fields : List RecordField} {body : Body} (h : context.readFields decoder last i fields = .ok body)
    {field : RecordField} (hfield : field ∈ fields) (hoccurs : part.Occurs field.value) :
    context.RunsDecoder part body := by
  induction fields generalizing i body with
  | nil => cases hfield
  | cons first rest ih =>
    obtain ⟨read, hread, h⟩ := bind_eq_ok.mp h
    obtain ⟨next, hnext, h⟩ := bind_eq_ok.mp h
    obtain rfl := pure_eq_ok.mp h
    rcases List.mem_cons.mp hfield with rfl | hfield
    · exact (showsDecoder_fieldRead hpart hread hoccurs).attempt _ _ _
    · exact (ih hnext hfield).proceed _ _ _

theorem runsDecoder_recordFunction (hpart : part.IsNamed) {displayName : String} {parameters : List String}
    {fields : List RecordField} {function : Function}
    (h : context.recordFunction displayName parameters fields = .ok function) {field : RecordField}
    (hfield : field ∈ fields) (hoccurs : part.Occurs field.value) : context.RunsDecoder part function.body := by
  obtain ⟨body, hbody, h⟩ := bind_eq_ok.mp h
  obtain rfl := pure_eq_ok.mp h
  exact runsDecoder_readFields hpart hbody hfield hoccurs

theorem runsDecoder_readElements (hpart : part.IsNamed) {place : String} {last : Body} {i : Nat} {arguments : List Value}
    {body : Body} (h : context.readElements place last i arguments = .ok body) {argument : Value}
    (hargument : argument ∈ arguments) (hoccurs : part.Occurs argument) : context.RunsDecoder part body := by
  induction arguments generalizing i body with
  | nil => cases hargument
  | cons first rest ih =>
    obtain ⟨decoder, hdecoder, h⟩ := bind_eq_ok.mp h
    obtain ⟨next, hnext, h⟩ := bind_eq_ok.mp h
    obtain rfl := pure_eq_ok.mp h
    rcases List.mem_cons.mp hargument with rfl | hargument
    · exact ((showsDecoder_raising hpart hdecoder hoccurs).within (.function .self)).attempt _ _ _
    · exact (ih hnext hargument).proceed _ _ _

theorem runsDecoder_positionalDecoder (hpart : part.IsNamed) {source : Term} {place : String} {constructor : Positional}
    {body : Body} (h : context.positionalDecoder source place constructor = .ok body) {argument : Value}
    (hargument : argument ∈ constructor.arguments) (hoccurs : part.Occurs argument) : context.RunsDecoder part body := by
  obtain ⟨next, hnext, h⟩ := bind_eq_ok.mp h
  obtain rfl := pure_eq_ok.mp h
  exact (runsDecoder_readElements hpart hnext hargument hoccurs).proceed _ _ _

theorem runsDecoder_argumentDecoder (hpart : part.IsNamed) {read : Term → Term}
    (hread : ∀ decoder : Term, decoder.StandsIn (read decoder)) {place name : String} {argument : Value} {body : Body}
    (h : context.argumentDecoder read place name argument = .ok body) (hoccurs : part.Occurs argument) :
    context.RunsDecoder part body := by
  obtain ⟨decoder, hdecoder, h⟩ := bind_eq_ok.mp h
  obtain rfl := pure_eq_ok.mp h
  exact ((showsDecoder_raising hpart hdecoder hoccurs).within (hread decoder)).attempt _ _ _

theorem runsDecoder_singleDecoder (hpart : part.IsNamed) {decoder : String} {constructor : Positional} {body : Body}
    (h : context.singleDecoder decoder constructor = .ok body) {argument : Value}
    (hargument : argument ∈ constructor.arguments) (hoccurs : part.Occurs argument) : context.RunsDecoder part body := by
  unfold singleDecoder at h
  split at h
  · next hnil =>
    rw [hnil] at hargument
    cases hargument
  · next only hsingle =>
    rw [hsingle, List.mem_singleton] at hargument
    subst hargument
    exact runsDecoder_argumentDecoder hpart Runtime.standsIn_onJson h hoccurs
  · exact runsDecoder_positionalDecoder hpart h hargument hoccurs

theorem runsDecoder_contentsDecoder (hpart : part.IsNamed) {decoder : String} {constructor : Positional} {body : Body}
    (h : context.contentsDecoder decoder constructor = .ok body) {argument : Value}
    (hargument : argument ∈ constructor.arguments) (hoccurs : part.Occurs argument) : context.RunsDecoder part body := by
  unfold contentsDecoder at h
  split at h
  · next hnil =>
    rw [hnil] at hargument
    cases hargument
  · next only hsingle =>
    rw [hsingle, List.mem_singleton] at hargument
    subst hargument
    exact runsDecoder_argumentDecoder hpart (Decoder.standsIn_fieldOf _) h hoccurs
  · exact runsDecoder_positionalDecoder hpart h hargument hoccurs

/-- The decoder of the value stands in the body of one of the functions. -/
def Decodes (context : Context) (functions : List Function) (part : Value) : Prop :=
  ∃ function ∈ functions, context.RunsDecoder part function.body

/-- The functions for a shape run the decoders of the types that its values name. -/
theorem decodes_functions (hpart : part.IsNamed) {parameters : List String} {shape : Shape} {functions : List Function}
    (h : context.functions parameters shape = .ok functions) {value : Value} (hvalue : value ∈ shape.types)
    (hoccurs : part.Occurs value) : context.Decodes functions part := by
  cases shape with
  | «alias» p =>
    obtain ⟨body, hbody, h⟩ := bind_eq_ok.mp h
    obtain rfl := pure_eq_ok.mp h
    obtain rfl := List.mem_singleton.mp hvalue
    obtain ⟨converter, hconverter, hbody⟩ := bind_eq_ok.mp hbody
    obtain rfl := pure_eq_ok.mp hbody
    refine ⟨_, List.mem_singleton_self _, ShowsDecoder.attempt ?_ _ _ _⟩
    exact (showsDecoder_converter hpart hconverter hoccurs).within
      ((converter.standsIn_adapt _).trans (Runtime.standsIn_onJson _))
  | record fields =>
    obtain ⟨function, hfunction, h⟩ := bind_eq_ok.mp h
    obtain rfl := pure_eq_ok.mp h
    obtain ⟨field, hfield, rfl⟩ := List.mem_map.mp hvalue
    exact ⟨_, List.mem_singleton_self _, runsDecoder_recordFunction hpart hfunction hfield hoccurs⟩
  | single constructor =>
    obtain ⟨body, hbody, h⟩ := bind_eq_ok.mp h
    obtain rfl := pure_eq_ok.mp h
    exact ⟨_, List.mem_singleton_self _, runsDecoder_singleDecoder hpart hbody hvalue hoccurs⟩
  | sum constructors =>
    obtain ⟨arms, harms, h⟩ := bind_eq_ok.mp h
    obtain rfl := pure_eq_ok.mp h
    obtain ⟨constructor, hconstructor, hargument⟩ := List.mem_flatMap.mp hvalue
    obtain ⟨arm, hmem, harm⟩ := exists_of_forall₂_left (mapM_eq_ok.mp harms) hconstructor
    obtain ⟨body, hbody, harm⟩ := bind_eq_ok.mp harm
    obtain rfl := pure_eq_ok.mp harm
    obtain ⟨own, hown, hholds⟩ := runsDecoder_contentsDecoder hpart hbody hargument hoccurs
    -- the arm stands between one for a failure and one for any other tag
    exact ⟨_, List.mem_singleton_self _, own, hown,
      .arm (List.mem_append_left _ (List.mem_cons_of_mem _ hmem)) hholds⟩
  | enumeration tags => cases hvalue
  | sumOfRecords records =>
    obtain ⟨hoisted, hhoisted, h⟩ := bind_eq_ok.mp h
    obtain rfl := pure_eq_ok.mp h
    obtain ⟨record, hrecord, hvalue⟩ := List.mem_flatMap.mp hvalue
    obtain ⟨field, hfield, rfl⟩ := List.mem_map.mp hvalue
    obtain ⟨function, hmem, hfunction⟩ := exists_of_forall₂_left (mapM_eq_ok.mp hhoisted) hrecord
    exact ⟨function, List.mem_append_left _ hmem, runsDecoder_recordFunction hpart hfunction hfield hoccurs⟩

end Context

/-! ## Keywords -/

theorem Context.exists_decoderName_of_mem_functions {context : Context} {parameters : List String} {shape : Shape}
    {functions : List Function} (h : context.functions parameters shape = .ok functions) {function : Function}
    (hfunction : function ∈ functions) : ∃ displayName, function.name = Ocaml.decoderName displayName := by
  obtain ⟨head, -, hdecoded⟩ := exists_of_forall₂_left (Context.forall₂_functions h).flip hfunction
  exact ⟨head.displayName, hdecoded.name⟩

theorem Ocaml.exists_afterKeyword_functionLines (function : Function) :
    ∃ rest, (afterKeyword (Function.lines · function)).toList = ' ' :: function.name.toList ++ rest := by
  obtain ⟨rest, hrest⟩ := introduces_functionLines function
  rw [hrest]
  cases function.parameters with
  | nil => simp
  | cons first others => simp [String.intercalate_cons_cons]

theorem isPrefix_joined_functionLines {functions : List Function} (hne : functions ≠ [])
    (hnames : ∀ function ∈ functions, ∃ displayName, function.name = Ocaml.decoderName displayName)
    (recursive : Bool) (following : String) :
    "let rec ".toList <+: (joined (if recursive then "let rec" else "let") following
      (functions.map fun function => afterKeyword (Function.lines · function))).toList ↔ recursive = true := by
  obtain ⟨first, rest, rfl⟩ := List.exists_cons_of_ne_nil hne
  obtain ⟨displayName, hname⟩ := hnames first List.mem_cons_self
  obtain ⟨more, hmore⟩ := Ocaml.exists_afterKeyword_functionLines first
  obtain ⟨others, hothers⟩ := Ocaml.exists_joined_cons (if recursive then "let rec" else "let") following
    (afterKeyword (Function.lines · first)) (rest.map fun function => afterKeyword (Function.lines · function))
  rw [List.map_cons, hothers, String.toList_append, String.toList_append, hmore, hname, Ocaml.decoderName]
  cases recursive with
  | true => simp
  -- without `rec` a decoder's name follows the first blank
  | false => simp

/-! ## Groups -/

namespace Descriptor

variable {descriptor : Descriptor} {options : Options}

/-- A value of the descriptor that refers to the type `identity` by itself is printed. -/
def Prints (descriptor : Descriptor) (identity : Identity) (printed : Value → Prop) : Prop :=
  ∃ part, descriptor.Holds part ∧ part.identity? = some identity ∧ printed part

/-- If all that a shape names is printed, its descriptor refers to the types that are printed. -/
theorem references_iff_prints {shape : Shape} (hshape : descriptor.classify = .ok shape) {printed : Value → Prop}
    (h : ∀ {part : Value}, part.IsNamed → ∀ {value : Value}, value ∈ shape.types → part.Occurs value → printed part)
    (identity : Identity) : descriptor.references identity = true ↔ descriptor.Prints identity printed := by
  rw [references_iff]
  constructor
  · rintro ⟨part, hpart, hidentity⟩
    have hnamed := Value.isNamed_of_identity? hidentity
    obtain ⟨value, hvalue, hoccurs⟩ := (holds_iff_of_classify hshape hnamed).mp hpart
    exact ⟨part, hpart, hidentity, h hnamed hvalue hoccurs⟩
  · rintro ⟨part, hpart, hidentity, -⟩
    exact ⟨part, hpart, hidentity⟩

/-- What is emitted for a type: for a sum of records its record types in front of it, one for each branch. -/
theorem exists_emitted {shape : Shape} {definitions : List TypeDefinition} {functions : List Function}
    (hshape : descriptor.classify = .ok shape)
    (hdefinitions : (Context.ofDescriptor options descriptor).typeDefinitions descriptor.parameters shape =
      .ok definitions)
    (hfunctions : (Context.ofDescriptor options descriptor).functions descriptor.parameters shape = .ok functions) :
    ∃ (hoisted : List Emitted) (own : Emitted), definitions = (hoisted ++ [own]).map (·.definition) ∧
      functions = (hoisted ++ [own]).map (·.function) ∧
      ((∀ typeName alternatives, descriptor.constructor ≠ .sumOfRecords typeName alternatives) → hoisted = []) ∧
      ∀ typeName alternatives, descriptor.constructor = .sumOfRecords typeName alternatives →
        hoisted.length = alternatives.branches.length ∧ own.IsSumOf hoisted ∧
        ∀ name, .decoder name ∈ own.function.body.mentions →
          (∃ parameter ∈ own.parameters, name = Ocaml.decoderParameter parameter) ∨
            ∃ record ∈ hoisted, name = record.function.name := by
  by_cases hsum : ∃ typeName alternatives, descriptor.constructor = .sumOfRecords typeName alternatives
  · obtain ⟨typeName, alternatives, hconstructor⟩ := hsum
    obtain ⟨hoisted, own, hitems, hitems', -, -, hscoped, hbranches, hisSum⟩ :=
      exists_sumOf hconstructor hshape hdefinitions hfunctions
    refine ⟨hoisted, own, hitems, hitems', fun hplain => absurd hconstructor (hplain _ _), fun _ _ h => ?_⟩
    obtain ⟨rfl, rfl⟩ := Constructor.sumOfRecords.inj (hconstructor.symm.trans h)
    exact ⟨hbranches.length_eq.symm, hisSum, fun name => (hscoped.takes name).mp⟩
  · simp only [not_exists] at hsum
    obtain ⟨own, hitems, hitems', -⟩ := exists_own hsum hshape hdefinitions hfunctions
    exact ⟨[], own, hitems, hitems', fun _ => rfl, fun _ _ h => absurd h (hsum _ _)⟩

/-- The descriptor of a type refers to the types of which the definitions print a value, and to the same types as the
decoders. If it refers to its own type, which is where the decoders start with `let rec`, all definitions after the first
one are joined to it by `and`, and otherwise each of them stands alone. The record types of a sum of records and their
decoders come before the sum, which uses and calls no others. -/
theorem group_isRecursive_iff {declaration decoder : String}
    (hdeclaration : descriptor.renderDeclaration options = .ok declaration)
    (hdecoder : descriptor.renderDecoder options = .ok decoder) :
    ∃ (hoisted : List Emitted) (own : Emitted),
      descriptor.declaration options =
        .ok ⟨descriptor.references descriptor.identity, (hoisted ++ [own]).map (·.definition)⟩ ∧
      descriptor.decoder options =
        .ok ⟨descriptor.references descriptor.identity, (hoisted ++ [own]).map (·.function)⟩ ∧
      (∀ identity, descriptor.references identity = true ↔ descriptor.Prints identity
        ((Context.ofDescriptor options descriptor).Declares ((hoisted ++ [own]).map (·.definition)))) ∧
      (∀ identity, descriptor.references identity = true ↔ descriptor.Prints identity
        ((Context.ofDescriptor options descriptor).Decodes ((hoisted ++ [own]).map (·.function)))) ∧
      ("let rec ".toList <+: decoder.toList ↔ descriptor.Prints descriptor.identity
        ((Context.ofDescriptor options descriptor).Decodes ((hoisted ++ [own]).map (·.function)))) ∧
      declaration = joined "type" (if descriptor.references descriptor.identity then "and" else "type")
        ((hoisted ++ [own]).map fun emitted => afterKeyword (TypeDefinition.lines · emitted.definition)) ∧
      decoder = joined (if descriptor.references descriptor.identity then "let rec" else "let")
        (if descriptor.references descriptor.identity then "and" else "let")
        ((hoisted ++ [own]).map fun emitted => afterKeyword (Function.lines · emitted.function)) ∧
      ((∀ typeName alternatives, descriptor.constructor ≠ .sumOfRecords typeName alternatives) → hoisted = []) ∧
      ∀ typeName alternatives, descriptor.constructor = .sumOfRecords typeName alternatives →
        hoisted.length = alternatives.branches.length ∧ own.IsSumOf hoisted ∧
        ∀ name, .decoder name ∈ own.function.body.mentions →
          (∃ parameter ∈ own.parameters, name = Ocaml.decoderParameter parameter) ∨
            ∃ record ∈ hoisted, name = record.function.name := by
  obtain ⟨⟨_, definitions⟩, hgroup, rfl⟩ := renderDeclaration_eq_ok.mp hdeclaration
  obtain ⟨shape, hshape, rfl, hdefinitions⟩ := declaration_eq_ok.mp hgroup
  obtain ⟨⟨_, functions⟩, hgroup', rfl⟩ := renderDecoder_eq_ok.mp hdecoder
  obtain ⟨shape', hshape', rfl, hfunctions⟩ := decoder_eq_ok.mp hgroup'
  obtain rfl := Except.ok.inj (hshape.symm.trans hshape')
  obtain ⟨hoisted, own, rfl, rfl, hplain, hsum⟩ := exists_emitted hshape hdefinitions hfunctions
  have hdecodes := references_iff_prints hshape fun hpart _ hvalue hoccurs =>
    Context.decodes_functions hpart hfunctions hvalue hoccurs
  obtain ⟨hne, hrecords⟩ := Context.isRecord_typeDefinitions hdefinitions
  obtain ⟨hne', hclosed⟩ := Context.isClosed_functions hfunctions
  refine ⟨hoisted, own, hgroup, hgroup', references_iff_prints hshape fun hpart _ hvalue hoccurs =>
    Context.declares_typeDefinitions hpart hdefinitions hvalue hoccurs, hdecodes, ?_, ?_, ?_, hplain, hsum⟩
  · rw [← hdecodes, Ocaml.source_functionLines hne' hclosed]
    exact isPrefix_joined_functionLines hne' (fun _ => Context.exists_decoderName_of_mem_functions hfunctions) _ _
  · rw [Ocaml.source_typeLines hne hrecords, List.map_map]
    rfl
  · rw [Ocaml.source_functionLines hne' hclosed, List.map_map]
    rfl

def plan : Descriptor :=
  let box : Identity := ⟨"main", "Types", "Box"⟩
  let type : Identity := ⟨"main", "Types", "Plan"⟩
  .ofConstructor type <| .sumOfRecords "Plan" <| .multiple [
    .ofFields "Step" [("label", .primitive (.scalar .string))],
    .ofFields "Group" [
      ("size", .primitive (.scalar .int)),
      ("parts", .primitive (.list (.primitive (.tuple [.parameter "a", .apply box [.apply type [.parameter "a"]]]))))]]

theorem plan_isRecursive :
    ∃ (step group own : Emitted) (decoder : String),
      plan.declaration {} = .ok ⟨true, [step.definition, group.definition, own.definition]⟩ ∧
      plan.decoder {} = .ok ⟨true, [step.function, group.function, own.function]⟩ ∧ own.IsSumOf [step, group] ∧
      plan.Prints ⟨"main", "Types", "Plan"⟩ ((Context.ofDescriptor {} plan).Declares
        [step.definition, group.definition, own.definition]) ∧
      plan.renderDecoder {} = .ok decoder ∧ "let rec ".toList <+: decoder.toList := by
  obtain ⟨hoisted, own, hdeclaration, hdecoder, hdeclares, hdecodes, hkeyword, -, -, -, hsum⟩ :=
    group_isRecursive_iff (rfl : plan.renderDeclaration {} = .ok _) (rfl : plan.renderDecoder {} = .ok _)
  obtain ⟨hlength, hisSum, -⟩ := hsum _ _ rfl
  obtain ⟨step, group, rfl⟩ := List.length_eq_two.mp hlength
  exact ⟨step, group, own, _, hdeclaration, hdecoder, hisSum, (hdeclares _).mp rfl, rfl,
    hkeyword.mpr ((hdecodes _).mp rfl)⟩

end Descriptor

end TypeScribe
