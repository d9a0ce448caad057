import TypeScribe.Proofs.Provenance
import TypeScribe.Rendering

/-!
# The scope of type parameters

Each type that is emitted has the type parameters of the values it is made of, sorted. Its definition binds exactly the
type variables that it mentions. Its decoder takes the decoders of exactly the type parameters whose decoders it
mentions, in the same order. A sum of records has the type parameters of all its record types, and it passes to each of
them the ones of that record type, in their order.
-/

namespace TypeScribe
open Ocaml (Term TypeExpr TypeBody TypeDefinition Clause Body Function DefinitionGroup ValueSpec)

/-- A named type in the values has a decoder of this name in the module at hand. -/
def Context.SiblingOf (context : Context) (values : List Value) (name : String) : Prop :=
  ∃ value ∈ values, value.Names (context.RefersTo name)

/-! ## What is emitted -/

/-- A type, its decoder, and the type of its decoder in an interface. -/
structure Emitted where
  parameters : List String
  definition : TypeDefinition
  function : Function
  spec : ValueSpec

namespace Emitted

def under (displayName : String) (parameters : List String) (body : TypeBody) (decoder : Body) : Emitted where
  parameters := parameters
  definition := declareType displayName parameters body
  function := decoderFunction displayName parameters decoder
  spec := decoderSpec displayName parameters

/-- The type parameters are those of the values, and each of the three emitted parts binds them in one order. Besides
the decoders that it is given, the function mentions only decoders of types, which `siblings` allows. -/
structure IsScoped (emitted : Emitted) (values : List Value) (siblings : String → Prop) : Prop where
  sorted : emitted.parameters.Pairwise (· < ·)
  occurring : ∀ name, name ∈ emitted.parameters ↔ ∃ value ∈ values, (Value.parameter name).Occurs value
  head : emitted.definition.parameters = emitted.parameters.map Ocaml.variableName
  header : emitted.function.parameters = emitted.parameters.map Ocaml.decoderParameter ++ ["json"]
  /-- The decoder in an interface takes a decoder for each type variable of the head and gives the type of the head. -/
  signature : emitted.spec.type =
    (emitted.definition.parameters.map fun v => TypeExpr.arrow jsonType (resultType (.var v))).foldr .arrow
      (.arrow jsonType (resultType emitted.definition.head))
  binds : ∀ v, v ∈ emitted.definition.body.variables ↔ v ∈ emitted.definition.parameters
  takes : ∀ name, .decoder name ∈ emitted.function.body.mentions ↔
    (∃ parameter ∈ emitted.parameters, name = Ocaml.decoderParameter parameter) ∨ siblings name
  /-- Each record in the function has the type of the head. -/
  records : ∀ type, .type type ∈ emitted.function.body.mentions → type = emitted.definition.head

/-- The type is a sum of the given record types: it has the type parameters of all of them, and it applies each of them
and calls each of their decoders with the type parameters of that record type, in their order. -/
structure IsSumOf (emitted : Emitted) (hoisted : List Emitted) : Prop where
  sublist : ∀ record ∈ hoisted, record.parameters.Sublist emitted.parameters
  union : ∀ name, name ∈ emitted.parameters ↔ ∃ record ∈ hoisted, name ∈ record.parameters
  uses : ∃ constructors, emitted.definition.body = .variant constructors ∧
    List.Forall₂ (fun record constructor => constructor.2 = [record.definition.head]) hoisted constructors
  calls : ∃ arms, emitted.function.body = Decoder.dispatch emitted.function.name arms ∧
    List.Forall₂ (fun record arm => ∃ answers, Body.mentionsOfArms answers = [] ∧
      arm.2 = .choose (.apply (.var record.function.name) (record.function.parameters.map .var)) answers) hoisted arms

theorem IsScoped.parameters_eq {emitted : Emitted} {values : List Value} {siblings : String → Prop}
    (h : emitted.IsScoped values siblings) : emitted.parameters = sortedNames (Value.parametersOfAll values) := by
  refine h.sorted.eq_of_mem_iff (pairwise_sortedNames _) fun name => ?_
  rw [h.occurring, mem_sortedNames, Value.mem_parametersOfAll]
  simp only [Value.mem_parameters]

theorem signature_under (displayName : String) (parameters : List String) (body : TypeBody) (decoder : Body) :
    (under displayName parameters body decoder).spec.type =
      ((under displayName parameters body decoder).definition.parameters.map fun v =>
        TypeExpr.arrow jsonType (resultType (.var v))).foldr .arrow
        (.arrow jsonType (resultType (under displayName parameters body decoder).definition.head)) := by
  rw [under, declareType, List.map_map]
  rfl

variable {displayName : String} {parameters : List String} {body : TypeBody} {decoder : Body} {values : List Value}

theorem exists_names_standsForVariable
    (hoccurring : ∀ name, name ∈ parameters ↔ ∃ value ∈ values, (Value.parameter name).Occurs value) {v : String} :
    (∃ value ∈ values, value.Names (Value.StandsForVariable v)) ↔ v ∈ parameters.map Ocaml.variableName := by
  simp only [Value.names_standsForVariable, List.mem_map, hoccurring]
  constructor
  · rintro ⟨value, hvalue, name, hoccurs, rfl⟩
    exact ⟨name, ⟨value, hvalue, hoccurs⟩, rfl⟩
  · rintro ⟨name, ⟨value, hvalue, hoccurs⟩, rfl⟩
    exact ⟨value, hvalue, name, hoccurs, rfl⟩

theorem exists_names_standsFor_decoder {context : Context}
    (hoccurring : ∀ name, name ∈ parameters ↔ ∃ value ∈ values, (Value.parameter name).Occurs value) {name : String} :
    (∃ value ∈ values, value.Names (context.StandsFor (.decoder name))) ↔
      (∃ parameter ∈ parameters, name = Ocaml.decoderParameter parameter) ∨ context.SiblingOf values name := by
  simp only [Context.names_standsFor_decoder, Context.SiblingOf, hoccurring]
  constructor
  · rintro ⟨value, hvalue, ⟨parameter, hoccurs, rfl⟩ | hnames⟩
    · exact .inl ⟨parameter, ⟨value, hvalue, hoccurs⟩, rfl⟩
    · exact .inr ⟨value, hvalue, hnames⟩
  · rintro (⟨parameter, ⟨value, hvalue, hoccurs⟩, rfl⟩ | ⟨value, hvalue, hnames⟩)
    · exact ⟨value, hvalue, .inl ⟨parameter, hoccurs, rfl⟩⟩
    · exact ⟨value, hvalue, .inr hnames⟩

/-- A type whose definition and decoder are made of types is scoped by the values that the types come from. -/
theorem isScoped_under {context : Context} {types : List Value} (hsorted : parameters.Pairwise (· < ·))
    (hoccurring : ∀ name, name ∈ parameters ↔ ∃ value ∈ values, (Value.parameter name).Occurs value)
    (hsame : ∀ part : Value, part.IsNamed →
      ((∃ value ∈ values, part.Occurs value) ↔ ∃ type ∈ types, part.Occurs type))
    (hvariables : ∀ v, v ∈ body.variables ↔ ∃ type ∈ types, type.Names (Value.StandsForVariable v))
    (htraces : context.Traces types (declaredType displayName parameters) decoder) :
    (under displayName parameters body decoder).IsScoped values (context.SiblingOf values) where
  sorted := hsorted
  occurring := hoccurring
  head := rfl
  header := rfl
  signature := signature_under _ _ _ _
  binds v := by
    refine (hvariables v).trans ?_
    rw [← Value.exists_names_congr hsame]
    exact exists_names_standsForVariable hoccurring
  takes name := by
    refine (htraces.decoders name).trans ?_
    rw [← Value.exists_names_congr hsame]
    exact exists_names_standsFor_decoder hoccurring
  records := htraces.records

/-! ## Record types of a sum -/

def IsFor (emitted : Emitted) (record : HoistedRecord) : Prop :=
  ∃ body decoder, under record.displayName record.parameters body decoder = emitted

theorem exists_hoisted {context : Context} {typeName : String} {branch : Branch} {record : HoistedRecord}
    {definition : TypeDefinition} {function : Function} (hrecord : Shape.hoistedRecord typeName branch = .ok record)
    (hdefinition : context.hoistedDefinition record = .ok definition)
    (hfunction : context.hoistedFunction record = .ok function) :
    ∃ emitted : Emitted, emitted.definition = definition ∧ emitted.function = function ∧ emitted.IsFor record ∧
      emitted.IsScoped [branch.value] (context.SiblingOf [branch.value]) := by
  obtain ⟨body, decoder, rfl, rfl, hvariables, htraces⟩ := Context.exists_bodies_of_hoisted hdefinition hfunction
  refine ⟨_, rfl, rfl, ⟨body, decoder, rfl⟩,
    isScoped_under ?_ (fun name => ?_) (fun part hpart => ?_) hvariables htraces⟩
  · obtain ⟨value, -, -, -, hparameters⟩ := Shape.hoistedRecord_eq_ok.mp hrecord
    rw [hparameters]
    exact pairwise_sortedNames _
  · obtain ⟨value, rfl, -, -, hparameters⟩ := Shape.hoistedRecord_eq_ok.mp hrecord
    rw [hparameters, mem_sortedNames, Value.mem_parameters]
    simp [Branch.value]
  · simp [Shape.occurs_iff_of_hoistedRecord hpart hrecord]

theorem exists_hoisted_of_forall₂ {context : Context} {typeName : String} {branches : List Branch}
    {records : List HoistedRecord} {definitions : List TypeDefinition} {functions : List Function}
    (hrecords : List.Forall₂ (fun branch record => Shape.hoistedRecord typeName branch = .ok record) branches records)
    (hdefinitions : List.Forall₂ (fun record definition => context.hoistedDefinition record = .ok definition)
      records definitions)
    (hfunctions : List.Forall₂ (fun record function => context.hoistedFunction record = .ok function)
      records functions) :
    ∃ hoisted : List Emitted, hoisted.map (·.definition) = definitions ∧ hoisted.map (·.function) = functions ∧
      List.Forall₂ (fun record emitted => emitted.IsFor record) records hoisted ∧
      List.Forall₂ (fun branch emitted => emitted.IsScoped [branch.value] (context.SiblingOf [branch.value]))
        branches hoisted := by
  induction hrecords generalizing definitions functions with
  | nil =>
    cases hdefinitions
    cases hfunctions
    exact ⟨[], rfl, rfl, .nil, .nil⟩
  | cons hrecord _ ih =>
    obtain _ | ⟨hdefinition, hdefinitions⟩ := hdefinitions
    obtain _ | ⟨hfunction, hfunctions⟩ := hfunctions
    obtain ⟨emitted, rfl, rfl, hfor, hscoped⟩ := exists_hoisted hrecord hdefinition hfunction
    obtain ⟨hoisted, rfl, rfl, hfors, hscopes⟩ := ih hdefinitions hfunctions
    exact ⟨emitted :: hoisted, rfl, rfl, .cons hfor hfors, .cons hscoped hscopes⟩

/-! ## Sums of record types -/

/-- The type with one constructor for each record type, which carries it, and its decoder. -/
def sumOf (context : Context) (parameters : List String) (records : List HoistedRecord) : Emitted :=
  let decoder := Ocaml.decoderName context.displayName
  under context.displayName parameters (.variant (records.map (·.constructorType)))
    (Decoder.dispatch decoder (records.map (context.hoistedArm decoder)))

section
variable {context : Context} {records : List HoistedRecord} {hoisted : List Emitted}
variable (hfors : List.Forall₂ (fun record emitted => emitted.IsFor record) records hoisted)
variable (hunion : ∀ name, name ∈ parameters ↔ ∃ emitted ∈ hoisted, name ∈ emitted.parameters)
include hfors hunion

theorem mem_parameters_iff (name : String) : name ∈ parameters ↔ ∃ record ∈ records, name ∈ record.parameters := by
  rw [hunion]
  refine exists_mem_iff_of_forall₂ hfors fun record _ emitted hfor => ?_
  obtain ⟨body, decoder, rfl⟩ := hfor
  rfl

/-- The sum is scoped, for it mentions what each record type binds and takes. -/
theorem isScoped_sumOf (hsorted : parameters.Pairwise (· < ·))
    (hoccurring : ∀ name, name ∈ parameters ↔ ∃ value ∈ values, (Value.parameter name).Occurs value) :
    (sumOf context parameters records).IsScoped values
      fun name => ∃ emitted ∈ hoisted, name = emitted.function.name where
  sorted := hsorted
  occurring := hoccurring
  head := rfl
  header := rfl
  signature := signature_under _ _ _ _
  binds v := by
    refine mem_variables_constructorTypes.trans ?_
    change _ ↔ v ∈ parameters.map Ocaml.variableName
    simp only [List.mem_map, mem_parameters_iff hfors hunion]
    constructor
    · rintro ⟨record, hrecord, name, hname, rfl⟩
      exact ⟨name, ⟨record, hrecord, hname⟩, rfl⟩
    · rintro ⟨name, ⟨record, hrecord, hname⟩, rfl⟩
      exact ⟨record, hrecord, name, hname, rfl⟩
  takes name := by
    have hsiblings : (∃ emitted ∈ hoisted, name = emitted.function.name) ↔
        ∃ record ∈ records, name = Ocaml.decoderName record.displayName := by
      refine exists_mem_iff_of_forall₂ hfors fun record _ emitted hfor => ?_
      obtain ⟨body, decoder, rfl⟩ := hfor
      rfl
    refine Context.mem_mentions_dispatch_hoistedArm.trans ?_
    rw [hsiblings]
    simp only [Mention.decoder.injEq, sumOf, under, mem_parameters_iff hfors hunion]
    constructor
    · rintro ⟨record, hrecord, hname | ⟨parameter, hparameter, rfl⟩⟩
      · exact .inr ⟨record, hrecord, hname⟩
      · exact .inl ⟨parameter, ⟨record, hrecord, hparameter⟩, rfl⟩
    · rintro (⟨parameter, ⟨record, hrecord, hparameter⟩, rfl⟩ | ⟨record, hrecord, hname⟩)
      · exact ⟨record, hrecord, .inr ⟨parameter, hparameter, rfl⟩⟩
      · exact ⟨record, hrecord, .inl hname⟩
  records type hmem := by
    obtain ⟨record, -, h | ⟨parameter, -, h⟩⟩ := Context.mem_mentions_dispatch_hoistedArm.mp hmem
    · cases h
    · cases h

theorem isSumOf_sumOf (hsorted : parameters.Pairwise (· < ·))
    (hhoisted : ∀ emitted ∈ hoisted, emitted.parameters.Pairwise (· < ·)) :
    (sumOf context parameters records).IsSumOf hoisted where
  sublist emitted hemitted := by
    have hsubset : emitted.parameters ⊆ parameters := fun name hname => (hunion name).mpr ⟨emitted, hemitted, hname⟩
    have hnodup : emitted.parameters.Nodup := (hhoisted emitted hemitted).imp ne_of_lt
    exact List.sublist_of_subperm_of_pairwise (List.subperm_of_subset hnodup hsubset) (hhoisted emitted hemitted) hsorted
  union := hunion
  uses := by
    refine ⟨_, rfl, List.forall₂_map_right_iff.mpr (List.Forall₂.flip ?_)⟩
    refine hfors.imp fun record emitted hfor => ?_
    obtain ⟨body, decoder, rfl⟩ := hfor
    rfl
  calls := by
    refine ⟨_, rfl, List.forall₂_map_right_iff.mpr (List.Forall₂.flip ?_)⟩
    refine hfors.imp fun record emitted hfor => ?_
    obtain ⟨body, decoder, rfl⟩ := hfor
    obtain ⟨answers, hanswers, harm⟩ := Context.hoistedArm_eq context (Ocaml.decoderName context.displayName) record
    refine ⟨answers, hanswers, ?_⟩
    rw [harm, HoistedRecord.decoderCall]
    simp [under, decoderFunction]

end

end Emitted

/-! ## Renderings -/

namespace Descriptor

open Emitted (sumOf)

variable {descriptor : Descriptor} {options : Options}

theorem exists_own {shape : Shape} {definitions : List TypeDefinition} {functions : List Function}
    (hconstructor : ∀ typeName alternatives, descriptor.constructor ≠ .sumOfRecords typeName alternatives)
    (hshape : descriptor.classify = .ok shape)
    (hdefinitions : (Context.ofDescriptor options descriptor).typeDefinitions descriptor.parameters shape =
      .ok definitions)
    (hfunctions : (Context.ofDescriptor options descriptor).functions descriptor.parameters shape = .ok functions) :
    ∃ own : Emitted, definitions = [own.definition] ∧ functions = [own.function] ∧
      descriptor.decoderSpecs = .ok [own.spec] ∧ own.parameters = descriptor.parameters ∧
      own.IsScoped descriptor.constructor.values
        ((Context.ofDescriptor options descriptor).SiblingOf descriptor.constructor.values) := by
  have hplain := ne_sumOfRecords_of_classify hconstructor hshape
  obtain ⟨body, decoder, rfl, rfl, hvariables, htraces⟩ :=
    Context.exists_bodies_of_shape hplain hdefinitions hfunctions
  refine ⟨.under descriptor.displayName descriptor.parameters body decoder, rfl, rfl, ?_, rfl,
    Emitted.isScoped_under (pairwise_sortedNames _) (fun name => mem_parameters)
      (fun part hpart => holds_iff_of_classify hshape hpart) hvariables htraces⟩
  rw [decoderSpecs, hshape]
  cases shape with
  | sumOfRecords records => exact absurd rfl (hplain records)
  | _ => rfl

/-- A sum of records is emitted as its record types, each scoped by its branch, and the sum of them. -/
theorem exists_sumOf {typeName : String} {alternatives : Alternatives} {shape : Shape}
    {definitions : List TypeDefinition} {functions : List Function}
    (hconstructor : descriptor.constructor = .sumOfRecords typeName alternatives)
    (hshape : descriptor.classify = .ok shape)
    (hdefinitions : (Context.ofDescriptor options descriptor).typeDefinitions descriptor.parameters shape =
      .ok definitions)
    (hfunctions : (Context.ofDescriptor options descriptor).functions descriptor.parameters shape = .ok functions) :
    ∃ (hoisted : List Emitted) (own : Emitted), definitions = (hoisted ++ [own]).map (·.definition) ∧
      functions = (hoisted ++ [own]).map (·.function) ∧
      descriptor.decoderSpecs = .ok ((hoisted ++ [own]).map (·.spec)) ∧ own.parameters = descriptor.parameters ∧
      own.IsScoped descriptor.constructor.values (fun name => ∃ record ∈ hoisted, name = record.function.name) ∧
      List.Forall₂ (fun branch record => record.IsScoped [branch.value]
        ((Context.ofDescriptor options descriptor).SiblingOf [branch.value])) alternatives.branches hoisted ∧
      own.IsSumOf hoisted := by
  obtain ⟨records, rfl, -, hrecords⟩ := exists_records_of_classify hconstructor hshape
  obtain ⟨definitions, hhoisted, hdefinitions⟩ := bind_eq_ok.mp hdefinitions
  obtain ⟨functions, hhoisted', hfunctions⟩ := bind_eq_ok.mp hfunctions
  obtain rfl := pure_eq_ok.mp hdefinitions
  obtain rfl := pure_eq_ok.mp hfunctions
  obtain ⟨hoisted, rfl, rfl, hfors, hscoped⟩ :=
    Emitted.exists_hoisted_of_forall₂ hrecords (mapM_eq_ok.mp hhoisted) (mapM_eq_ok.mp hhoisted')
  have hunion : ∀ name, name ∈ descriptor.parameters ↔ ∃ record ∈ hoisted, name ∈ record.parameters := fun name => by
    rw [mem_parameters, Holds, hconstructor, Constructor.values]
    simp only [List.mem_map, exists_exists_and_eq_and]
    refine (exists_mem_iff_of_forall₂ hscoped fun branch _ record hrecord => ?_).symm
    rw [hrecord.occurring]
    simp
  have hspecs : hoisted.map (·.spec) = records.map fun record => decoderSpec record.displayName record.parameters := by
    rw [← List.forall₂_eq_eq_eq, List.forall₂_map_left_iff, List.forall₂_map_right_iff]
    refine List.Forall₂.flip (hfors.imp fun record emitted hfor => ?_)
    obtain ⟨body, decoder, rfl⟩ := hfor
    rfl
  have hsorted : ∀ record ∈ hoisted, record.parameters.Pairwise (· < ·) := fun record hrecord => by
    obtain ⟨branch, -, hbranch⟩ := exists_of_forall₂_left hscoped.flip hrecord
    exact hbranch.sorted
  refine ⟨hoisted, sumOf (Context.ofDescriptor options descriptor) descriptor.parameters records, ?_, ?_, ?_, rfl,
    Emitted.isScoped_sumOf hfors hunion (pairwise_sortedNames _) (fun name => mem_parameters), hscoped,
    Emitted.isSumOf_sumOf hfors hunion (pairwise_sortedNames _) hsorted⟩
  · rw [List.map_append]
    rfl
  · rw [List.map_append]
    rfl
  · rw [decoderSpecs, hshape, List.map_append, hspecs]
    rfl

/-- The type parameters of a type are those that stand in its descriptor, sorted. In what is rendered, each definition
binds the type variables that it mentions, and each decoder takes the decoders of the type parameters that it mentions,
in that order. Besides these, a decoder mentions those of the types that its values name, and that of a sum of records
those of its record types. -/
theorem parameters_areScoped (descriptor : Descriptor) :
    descriptor.parameters.Pairwise (· < ·) ∧
    (∀ name, name ∈ descriptor.parameters ↔ descriptor.Holds (.parameter name)) ∧
    ∀ options declaration decoder, descriptor.renderDeclaration options = .ok declaration →
      descriptor.renderDecoder options = .ok decoder →
      ∃ (hoisted : List Emitted) (own : Emitted),
        declaration = Ocaml.source (DefinitionGroup.typeLines
          ⟨descriptor.references descriptor.identity, (hoisted ++ [own]).map (·.definition)⟩) ∧
        decoder = Ocaml.source (DefinitionGroup.functionLines
          ⟨descriptor.references descriptor.identity, (hoisted ++ [own]).map (·.function)⟩) ∧
        descriptor.renderDecoderSignature = .ok (Ocaml.source ((hoisted ++ [own]).map (·.spec.line))) ∧
        own.parameters = descriptor.parameters ∧
        ((∀ typeName alternatives, descriptor.constructor ≠ .sumOfRecords typeName alternatives) → hoisted = [] ∧
          own.IsScoped descriptor.constructor.values
            ((Context.ofDescriptor options descriptor).SiblingOf descriptor.constructor.values)) ∧
        ∀ typeName alternatives, descriptor.constructor = .sumOfRecords typeName alternatives →
          own.IsScoped descriptor.constructor.values (fun name => ∃ record ∈ hoisted, name = record.function.name) ∧
          List.Forall₂ (fun branch record => record.IsScoped [branch.value]
            ((Context.ofDescriptor options descriptor).SiblingOf [branch.value])) alternatives.branches hoisted ∧
          own.IsSumOf hoisted := by
  refine ⟨pairwise_sortedNames _, fun name => mem_parameters, fun options declaration decoder hdeclaration hdecoder => ?_⟩
  obtain ⟨group, hgroup, rfl⟩ := renderDeclaration_eq_ok.mp hdeclaration
  obtain ⟨shape, hshape, hrecursive, hdefinitions⟩ := declaration_eq_ok.mp hgroup
  obtain ⟨group', hgroup', rfl⟩ := renderDecoder_eq_ok.mp hdecoder
  obtain ⟨shape', hshape', hrecursive', hfunctions⟩ := decoder_eq_ok.mp hgroup'
  obtain rfl := Except.ok.inj (hshape.symm.trans hshape')
  by_cases hsum : ∃ typeName alternatives, descriptor.constructor = .sumOfRecords typeName alternatives
  · obtain ⟨typeName, alternatives, hconstructor⟩ := hsum
    obtain ⟨hoisted, own, hitems, hitems', hspecs, hown, hscoped, hbranches, hisSum⟩ :=
      exists_sumOf hconstructor hshape hdefinitions hfunctions
    refine ⟨hoisted, own, ?_, ?_, ?_, hown, fun hplain => absurd hconstructor (hplain _ _), fun _ _ h => ?_⟩
    · rw [← hitems, ← hrecursive]
    · rw [← hitems', ← hrecursive']
    · rw [renderDecoderSignature_of_decoderSpecs hspecs, List.map_map]
      rfl
    · obtain ⟨rfl, rfl⟩ := Constructor.sumOfRecords.inj (hconstructor.symm.trans h)
      exact ⟨hscoped, hbranches, hisSum⟩
  · simp only [not_exists] at hsum
    obtain ⟨own, hitems, hitems', hspecs, hown, hscoped⟩ := exists_own hsum hshape hdefinitions hfunctions
    refine ⟨[], own, ?_, ?_, ?_, hown, fun _ => ⟨rfl, hscoped⟩, fun _ _ h => absurd h (hsum _ _)⟩
    · rw [List.nil_append, List.map_singleton, ← hitems, ← hrecursive]
    · rw [List.nil_append, List.map_singleton, ← hitems', ← hrecursive']
    · rw [renderDecoderSignature_of_decoderSpecs hspecs]
      rfl

def verdict : Descriptor :=
  .ofConstructor ⟨"main", "Types", "Verdict"⟩ <| .sumOfRecords "Verdict" <| .multiple [
    .ofFields "Rejected" [("reason", .parameter "e")],
    .ofFields "Accepted" [("value", .parameter "a"), ("warnings", .primitive (.list (.parameter "e")))]]

theorem verdict_isScoped :
    ∃ rejected accepted own : Emitted, rejected.parameters = ["e"] ∧ accepted.parameters = ["a", "e"] ∧
      own.parameters = ["a", "e"] ∧ own.IsSumOf [rejected, accepted] := by
  obtain ⟨-, -, hrendered⟩ := parameters_areScoped verdict
  obtain ⟨hoisted, own, -, -, -, hown, -, hsum⟩ := hrendered {} _ _ rfl rfl
  obtain ⟨-, hbranches, hisSum⟩ := hsum _ _ rfl
  obtain _ | ⟨hrejected, _ | ⟨haccepted, ⟨⟩⟩⟩ := hbranches
  exact ⟨_, _, own, hrejected.parameters_eq, haccepted.parameters_eq, hown, hisSum⟩

end Descriptor

end TypeScribe
