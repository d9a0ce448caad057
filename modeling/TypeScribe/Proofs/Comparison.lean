import TypeScribe.Proofs.Classification
import TypeScribe.Proofs.Literals
import TypeScribe.Proofs.Walk

/-!
# Two renderings side by side

Two shapes with the same names, and with values that are rendered alike where types are due, are rendered alike, each in
its own context. The keys and tags of JSON may differ between the contexts, for they stand in texts of the decoders only.
`f` says what is compared of these texts: `id` all of them, a constant function nothing.
-/

namespace TypeScribe
open Ocaml (Term TypeExpr TypeBody TypeDefinition Clause Body Function)

namespace Context

variable {R : RenderError → RenderError → Prop} {c c' : Context}

/-! ## Values where types are due -/

/-- Two contexts with the same path to every type that is known, and with faults in the relation `R`. -/
structure SamePaths (R : RenderError → RenderError → Prop) (known : Identity → Prop) (c c' : Context) : Prop where
  refl : ∀ e, R e e
  misplaced : ∀ kind place, R (c.misplaced kind place) (c'.misplaced kind place)
  paths : ∀ identity, known identity → ∀ name, Matches R Eq (c.pathTo identity name) (c'.pathTo identity name)

/-- Two values that mean one type, which is rendered alike in both contexts. -/
structure SameType (R : RenderError → RenderError → Prop) (c c' : Context) (v v' : Value) : Prop where
  fieldType : v.fieldType = v'.fieldType
  type : Matches R Eq (c.typeExpr v.fieldType) (c'.typeExpr v.fieldType)
  decoder : Matches R Eq (c.converter v.fieldType) (c'.converter v.fieldType)
  /-- What an optional field may hold is decoded alike too. -/
  optional : ∀ item, v.fieldType = .option item → Matches R Eq (c.converter item) (c'.converter item)

theorem SameType.of_fieldType (c : Context) {v v' : Value} (h : v.fieldType = v'.fieldType) :
    SameType Eq c c v v' where
  fieldType := h
  type := .refl (fun _ => rfl) _
  decoder := .refl (fun _ => rfl) _
  optional _ _ := .refl (fun _ => rfl) _

section
variable {v v' : Value} (h : SameType R c c' v v')
include h

theorem SameType.typeExpr : Matches R Eq (c.typeExpr v.fieldType) (c'.typeExpr v'.fieldType) :=
  h.fieldType ▸ h.type

theorem SameType.converter : Matches R Eq (c.converter v.fieldType) (c'.converter v'.fieldType) :=
  h.fieldType ▸ h.decoder

theorem SameType.raising : Matches R Eq (c.raising v) (c'.raising v') :=
  h.converter.bind fun _ _ hsame => .ok (by rw [hsame])

end

namespace SamePaths

variable {known : Identity → Prop} (h : SamePaths R known c c')
include h

theorem typeExpr {v : Value} (hv : ∀ identity, v.references identity = true → known identity) :
    Matches R Eq (c.typeExpr v.fieldType) (c'.typeExpr v.fieldType) := by
  induction v using Value.typeInduction with
  | typeRef identity name =>
    have hpath := h.paths identity (hv identity (by simp [Value.references])) (Ocaml.typeName name)
    exact hpath.bind fun _ _ hsame => .ok (by rw [hsame])
  | application identity arguments ih =>
    have harguments : ∀ argument ∈ arguments.flatten, _ := fun argument hargument =>
      ih argument hargument fun other hother =>
        hv other (Value.references_of_occurs hother (.argument (Value.occurs_of_mem_flatten hargument)))
    have hpath := h.paths identity (hv identity (by simp [Value.references])) (Ocaml.typeName identity.name)
    rw [typeExpr_application, typeExpr_application]
    refine (Matches.mapM_eq (List.forall₂_same.mpr harguments)).bind fun _ _ hsame => ?_
    exact hpath.bind fun _ _ hsame' => .ok (by rw [hsame, hsame'])
  | primitive p ih =>
    have hcomponents : ∀ component ∈ p.components, _ := fun component hcomponent =>
      ih component hcomponent fun other hother => hv other (Value.references_of_occurs hother (.component hcomponent .self))
    rw [Value.fieldType, typeExpr_primitive_eq, typeExpr_primitive_eq]
    refine (Matches.refl h.refl _).bind fun _ _ _ => ?_
    exact (Matches.mapM_eq (List.forall₂_same.mpr hcomponents)).bind fun _ _ hsame => .ok (by rw [hsame])
  | parameter name => exact .ok rfl
  | misplaced v hmisplaced =>
    rw [hmisplaced]
    exact .error (h.misplaced _ _)

theorem converter {v : Value} (hv : ∀ identity, v.references identity = true → known identity) :
    Matches R Eq (c.converter v.fieldType) (c'.converter v.fieldType) := by
  induction v using Value.typeInduction with
  | typeRef identity name =>
    have hpath := h.paths identity (hv identity (by simp [Value.references])) (Ocaml.decoderName name)
    exact hpath.bind fun _ _ hsame => .ok (by rw [hsame])
  | application identity arguments ih =>
    have harguments : ∀ argument ∈ arguments.flatten, _ := fun argument hargument =>
      ih argument hargument fun other hother =>
        hv other (Value.references_of_occurs hother (.argument (Value.occurs_of_mem_flatten hargument)))
    have hpath := h.paths identity (hv identity (by simp [Value.references])) (Ocaml.decoderName identity.name)
    rw [converter_application, converter_application]
    refine hpath.bind fun _ _ hsame => (Matches.mapM_eq (List.forall₂_same.mpr fun argument hargument => ?_)).bind
      fun _ _ hsame' => .ok (by rw [hsame, hsame'])
    exact (harguments argument hargument).bind fun _ _ hsame => .ok (by rw [hsame])
  | primitive p ih =>
    have hcomponents : ∀ component ∈ p.components, _ := fun component hcomponent =>
      ih component hcomponent fun other hother => hv other (Value.references_of_occurs hother (.component hcomponent .self))
    rw [Value.fieldType, converter_primitive_eq, converter_primitive_eq]
    refine (Matches.refl h.refl _).bind fun _ _ _ => (Matches.mapM_eq (List.forall₂_same.mpr fun component hmem => ?_)).bind
      fun _ _ hsame => .ok (by rw [hsame])
    exact (hcomponents component hmem).bind fun _ _ hsame => .ok (by rw [hsame])
  | parameter name => exact .ok rfl
  | misplaced v hmisplaced =>
    rw [hmisplaced]
    exact .error (h.misplaced _ _)

/-- A value that refers to known types only is rendered alike in both contexts. -/
theorem sameType {v : Value} (hv : ∀ identity, v.references identity = true → known identity) : SameType R c c' v v where
  fieldType := rfl
  type := h.typeExpr hv
  decoder := h.converter hv
  optional item hitem := by
    obtain ⟨inner, rfl, rfl⟩ := Value.eq_of_fieldType_option hitem
    exact h.converter fun identity hidentity =>
      hv identity (Value.references_of_occurs hidentity (.component (List.mem_singleton_self inner) .self))

end SamePaths

end Context

/-! ## Shapes with the same names -/

/-- Two fields with the same name, and with values in the relation `P`. -/
structure RecordField.Alike (P : Value → Value → Prop) (field field' : RecordField) : Prop where
  name : field.name = field'.name
  value : P field.value field'.value

structure Positional.Alike (P : Value → Value → Prop) (constructor constructor' : Positional) : Prop where
  name : constructor.name = constructor'.name
  arguments : List.Forall₂ P constructor.arguments constructor'.arguments

structure HoistedRecord.Alike (P : Value → Value → Prop) (record record' : HoistedRecord) : Prop where
  displayName : record.displayName = record'.displayName
  branch : record.branch = record'.branch
  parameters : record.parameters = record'.parameters
  fields : List.Forall₂ (RecordField.Alike P) record.fields record'.fields

theorem HoistedRecord.Alike.constructorType {P : Value → Value → Prop} {record record' : HoistedRecord}
    (h : record.Alike P record') : record.constructorType = record'.constructorType := by
  rw [HoistedRecord.constructorType, HoistedRecord.constructorType, h.branch, h.displayName, h.parameters]

/-- Two shapes of one form with the same names, and with values in the relation `P`. -/
inductive Shape.Alike (P : Value → Value → Prop) : Shape → Shape → Prop where
  | «alias» {p p' : Primitive} : P (.primitive p) (.primitive p') → Alike P (.alias p) (.alias p')
  | record {fields fields' : List RecordField} :
    List.Forall₂ (RecordField.Alike P) fields fields' → Alike P (.record fields) (.record fields')
  | single {constructor constructor' : Positional} :
    constructor.Alike P constructor' → Alike P (.single constructor) (.single constructor')
  | sum {constructors constructors' : List Positional} :
    List.Forall₂ (Positional.Alike P) constructors constructors' → Alike P (.sum constructors) (.sum constructors')
  | enumeration (tags : List String) : Alike P (.enumeration tags) (.enumeration tags)
  | sumOfRecords {records records' : List HoistedRecord} :
    List.Forall₂ (HoistedRecord.Alike P) records records' → Alike P (.sumOfRecords records) (.sumOfRecords records')

section
variable {P Q : Value → Value → Prop} (h : ∀ {value value'}, P value value' → Q value value')
include h

theorem RecordField.Alike.mono {field field' : RecordField} (hfield : field.Alike P field') : field.Alike Q field' :=
  ⟨hfield.name, h hfield.value⟩

theorem Positional.Alike.mono {constructor constructor' : Positional} (hconstructor : constructor.Alike P constructor') :
    constructor.Alike Q constructor' :=
  ⟨hconstructor.name, hconstructor.arguments.imp fun _ _ => h⟩

theorem HoistedRecord.Alike.mono {record record' : HoistedRecord} (hrecord : record.Alike P record') :
    record.Alike Q record' :=
  ⟨hrecord.displayName, hrecord.branch, hrecord.parameters, hrecord.fields.imp fun _ _ => .mono h⟩

theorem Shape.Alike.mono {shape shape' : Shape} (hshape : shape.Alike P shape') : shape.Alike Q shape' := by
  cases hshape with
  | «alias» hvalue => exact .alias (h hvalue)
  | record hfields => exact .record (hfields.imp fun _ _ => .mono h)
  | single hconstructor => exact .single (hconstructor.mono h)
  | sum hconstructors => exact .sum (hconstructors.imp fun _ _ => .mono h)
  | enumeration tags => exact .enumeration tags
  | sumOfRecords hrecords => exact .sumOfRecords (hrecords.imp fun _ _ => .mono h)

end

theorem Shape.Alike.refl {P : Value → Value → Prop} {shape : Shape} (h : ∀ value ∈ shape.types, P value value) :
    shape.Alike P shape := by
  have hfields : ∀ fields : List RecordField, (∀ field ∈ fields, P field.value field.value) →
      List.Forall₂ (RecordField.Alike P) fields fields := fun fields hfields =>
    List.forall₂_same.mpr fun field hfield => ⟨rfl, hfields field hfield⟩
  cases shape with
  | «alias» p => exact .alias (h _ (List.mem_singleton_self _))
  | record fields => exact .record (hfields fields fun field hfield => h _ (List.mem_map_of_mem hfield))
  | single constructor => exact .single ⟨rfl, List.forall₂_same.mpr h⟩
  | sum constructors =>
    refine .sum (List.forall₂_same.mpr fun constructor hconstructor => ⟨rfl, List.forall₂_same.mpr fun argument hargument => ?_⟩)
    exact h _ (List.mem_flatMap.mpr ⟨constructor, hconstructor, hargument⟩)
  | enumeration tags => exact .enumeration tags
  | sumOfRecords records =>
    refine .sumOfRecords (List.forall₂_same.mpr fun record hrecord => ⟨rfl, rfl, rfl, hfields _ fun field hfield => ?_⟩)
    exact h _ (List.mem_flatMap.mpr ⟨record, hrecord, List.mem_map_of_mem hfield⟩)

namespace Context

variable {R : RenderError → RenderError → Prop} {c c' : Context}

/-! ## Definitions -/

theorem matches_recordBody {fields fields' : List RecordField}
    (h : List.Forall₂ (RecordField.Alike (SameType R c c')) fields fields') :
    Matches R Eq (c.recordBody fields) (c'.recordBody fields') := by
  refine (Matches.mapM_eq (h.imp fun field field' hfield => ?_)).bind fun _ _ hsame => .ok (by rw [hsame])
  exact hfield.value.typeExpr.bind fun _ _ hsame => .ok (by rw [hfield.name, hsame])

theorem matches_constructorType {constructor constructor' : Positional}
    (h : constructor.Alike (SameType R c c') constructor') :
    Matches R Eq (c.constructorType constructor) (c'.constructorType constructor') := by
  refine (Matches.mapM_eq (h.arguments.imp fun _ _ hargument => hargument.typeExpr)).bind fun _ _ hsame => ?_
  exact .ok (by rw [h.name, hsame])

theorem matches_typeDefinitions (hname : c.displayName = c'.displayName) (parameters : List String) {shape shape' : Shape}
    (h : shape.Alike (SameType R c c') shape') :
    Matches R Eq (c.typeDefinitions parameters shape) (c'.typeDefinitions parameters shape') := by
  cases h with
  | «alias» hvalue => exact hvalue.typeExpr.bind fun _ _ hsame => .ok (by rw [hname, hsame])
  | record hfields => exact (matches_recordBody hfields).bind fun _ _ hsame => .ok (by rw [hname, hsame])
  | single hconstructor =>
    exact (matches_constructorType hconstructor).bind fun _ _ hsame => .ok (by rw [hname, hsame])
  | sum hconstructors =>
    refine (Matches.mapM_eq (hconstructors.imp fun _ _ hconstructor => matches_constructorType hconstructor)).bind
      fun _ _ hsame => .ok (by rw [hname, hsame])
  | enumeration tags => exact .ok (by rw [hname])
  | sumOfRecords hrecords =>
    have htypes := map_eq_of_forall₂ (hrecords.imp fun record record' hrecord => hrecord.constructorType)
    refine (Matches.mapM_eq (hrecords.imp fun record record' hrecord => ?_)).bind fun _ _ hsame => .ok ?_
    · refine (matches_recordBody hrecord.fields).bind fun _ _ hsame => .ok ?_
      rw [hrecord.displayName, hrecord.parameters, hsame]
    · rw [hname, hsame, htypes]

/-! ## Bodies of functions -/

/-- Both bodies are the same but for what `f` does not tell apart in their texts. -/
def SameBody (f : String → String) (body body' : Body) : Prop := body.mapTexts f = body'.mapTexts f

def SameFunction (f : String → String) (function function' : Function) : Prop :=
  function.mapTexts f = function'.mapTexts f

theorem SameFunction.eq {function function' : Function} (h : SameFunction id function function') :
    function = function' := by
  rwa [SameFunction, Ocaml.Function.mapTexts_id, Ocaml.Function.mapTexts_id] at h

/-- The keys and tags of the two contexts are the same for `f`, keys also with texts around them. -/
structure SameTexts (f : String → String) (c c' : Context) : Prop where
  keys : ∀ field front back, f (front ++ c.options.jsonKey field ++ back) = f (front ++ c'.options.jsonKey field ++ back)
  tags : ∀ name, f (c.options.jsonTag name) = f (c'.options.jsonTag name)

section
variable {f : String → String}

theorem SameTexts.key (h : SameTexts f c c') (field : String) :
    f (c.options.jsonKey field) = f (c'.options.jsonKey field) := by
  simpa using h.keys field "" ""

theorem SameTexts.tagClause (h : SameTexts f c c') (name : String) :
    (c.tagClause name).mapTexts f = (c'.tagClause name).mapTexts f := by
  simp [Context.tagClause, Clause.mapTexts, Ocaml.Pattern.mapTexts, h.tags name]

theorem sameBody_attempt {read read' : Term} (hread : read.mapTexts f = read'.mapTexts f) {place place' : String}
    (hplace : f place = f place') (name : String) {next next' : Body} (hnext : SameBody f next next') :
    SameBody f (Decoder.attempt read place name next) (Decoder.attempt read' place' name next') := by
  unfold SameBody at hnext ⊢
  simp [Decoder.attempt, Decoder.caught, Body.mapTexts, Clause.mapTexts, Runtime.errorBefore, Runtime.error,
    Term.mapTexts, Term.mapTextsOfAll, hread, hplace, hnext]

theorem sameBody_dispatch (decoder : String) {arms arms' : List (Clause × Body)}
    (h : List.Forall₂ (fun arm arm' => arm.1.mapTexts f = arm'.1.mapTexts f ∧ SameBody f arm.2 arm'.2) arms arms') :
    SameBody f (Decoder.dispatch decoder arms) (Decoder.dispatch decoder arms') := by
  have harms : arms.map (fun arm => (arm.1.mapTexts f, arm.2.mapTexts f)) =
      arms'.map fun arm => (arm.1.mapTexts f, arm.2.mapTexts f) :=
    map_eq_of_forall₂ (h.imp fun arm arm' ⟨hclause, hbody⟩ => Prod.ext hclause hbody)
  simp only [SameBody, Decoder.dispatch, Body.mapTexts, Body.mapTextsOfArms_eq_map, List.map_append, List.map_cons, harms]

theorem sameFunction_decoderFunction (displayName : String) (parameters : List String) {body body' : Body}
    (h : SameBody f body body') :
    SameFunction f (decoderFunction displayName parameters body) (decoderFunction displayName parameters body') := by
  rw [SameFunction, decoderFunction, decoderFunction, Function.mapTexts, Function.mapTexts, h]

/-! ### Records -/

theorem matches_fieldRead {key key' : String} (hkey : f key = f key') {v v' : Value} (h : SameType R c c' v v') :
    Matches R (fun read read' => read.mapTexts f = read'.mapTexts f) (c.fieldRead key v) (c'.fieldRead key' v') := by
  unfold fieldRead
  rw [← h.fieldType]
  split
  · next item hitem =>
    refine (h.optional item hitem).bind fun _ _ hsame => .ok ?_
    simp only [Term.mapTexts, Term.mapTextsOfAll, hsame, hkey]
  · refine h.decoder.bind fun _ _ hsame => .ok ?_
    simp only [Decoder.fieldOf, Term.mapTexts, Term.mapTextsOfAll, hsame, hkey]

theorem matches_readFields (htexts : SameTexts f c c') (decoder : String) (last : Body) (i : Nat)
    {fields fields' : List RecordField} (h : List.Forall₂ (RecordField.Alike (SameType R c c')) fields fields') :
    Matches R (SameBody f) (c.readFields decoder last i fields) (c'.readFields decoder last i fields') := by
  induction h generalizing i with
  | nil => exact .ok rfl
  | cons hfield _ ih =>
    unfold readFields
    rw [← hfield.name]
    refine (matches_fieldRead (htexts.key _) hfield.value).bind fun _ _ hread => (ih (i + 1)).bind fun _ _ hnext => ?_
    exact .ok (sameBody_attempt hread (htexts.keys _ _ _) _ hnext)

theorem matches_recordFunction (htexts : SameTexts f c c') (displayName : String) (parameters : List String)
    {fields fields' : List RecordField} (h : List.Forall₂ (RecordField.Alike (SameType R c c')) fields fields') :
    Matches R (SameFunction f) (c.recordFunction displayName parameters fields)
      (c'.recordFunction displayName parameters fields') := by
  have hlabels : ∀ slot : Nat → String, fields.mapIdx (fun i field => (Ocaml.label field.name, slot i)) =
      fields'.mapIdx fun i field => (Ocaml.label field.name, slot i) := fun slot => by
    induction h generalizing slot with
    | nil => rfl
    | cons hfield _ ih => rw [List.mapIdx_cons, List.mapIdx_cons, hfield.name, ih]
  unfold recordFunction recordDecoder
  rw [hlabels]
  exact (matches_readFields htexts _ _ 0 h).bind fun _ _ hbody => .ok (sameFunction_decoderFunction _ _ hbody)

theorem matches_hoistedFunction (htexts : SameTexts f c c') {record record' : HoistedRecord}
    (h : record.Alike (SameType R c c') record') :
    Matches R (SameFunction f) (c.hoistedFunction record) (c'.hoistedFunction record') := by
  unfold hoistedFunction
  rw [h.displayName, h.parameters]
  exact matches_recordFunction htexts _ _ h.fields

/-! ### Constructors -/

theorem matches_readElements (place : String) (last : Body) (i : Nat) {arguments arguments' : List Value}
    (h : List.Forall₂ (SameType R c c') arguments arguments') :
    Matches R (SameBody f) (c.readElements place last i arguments) (c'.readElements place last i arguments') := by
  induction h generalizing i with
  | nil => exact .ok rfl
  | cons hargument _ ih =>
    refine hargument.raising.bind fun _ _ hsame => (ih (i + 1)).bind fun _ _ hnext => ?_
    exact .ok (sameBody_attempt (by rw [hsame]) rfl _ hnext)

theorem matches_positionalDecoder {source source' : Term} (hsource : source.mapTexts f = source'.mapTexts f)
    (place : String) {constructor constructor' : Positional} (h : constructor.Alike (SameType R c c') constructor') :
    Matches R (SameBody f) (c.positionalDecoder source place constructor)
      (c'.positionalDecoder source' place constructor') := by
  unfold positionalDecoder
  rw [h.name, h.arguments.length_eq]
  refine (matches_readElements (f := f) place _ 0 h.arguments).bind fun _ _ hnext => .ok ?_
  rw [SameBody, Body.mapTexts, Body.mapTexts, hsource, hnext]

theorem matches_argumentDecoder {read : Term → Term} (place name : String) {v v' : Value} (h : SameType R c c' v v') :
    Matches R (SameBody f) (c.argumentDecoder read place name v) (c'.argumentDecoder read place name v') :=
  h.raising.bind fun _ _ hsame => .ok (sameBody_attempt (by rw [hsame]) rfl _ rfl)

theorem matches_singleDecoder (decoder : String) {constructor constructor' : Positional}
    (h : constructor.Alike (SameType R c c') constructor') :
    Matches R (SameBody f) (c.singleDecoder decoder constructor) (c'.singleDecoder decoder constructor') := by
  obtain ⟨name, arguments⟩ := constructor
  obtain ⟨name', arguments'⟩ := constructor'
  obtain rfl : name = name' := h.name
  obtain _ | ⟨hargument, _ | _⟩ := id h.arguments
  · exact .ok rfl
  · exact matches_argumentDecoder _ _ hargument
  · exact matches_positionalDecoder rfl _ h

theorem matches_contentsDecoder (decoder : String) {constructor constructor' : Positional}
    (h : constructor.Alike (SameType R c c') constructor') :
    Matches R (SameBody f) (c.contentsDecoder decoder constructor) (c'.contentsDecoder decoder constructor') := by
  obtain ⟨name, arguments⟩ := constructor
  obtain ⟨name', arguments'⟩ := constructor'
  obtain rfl : name = name' := h.name
  obtain _ | ⟨hargument, _ | _⟩ := id h.arguments
  · exact .ok rfl
  · exact matches_argumentDecoder _ _ hargument
  · exact matches_positionalDecoder rfl _ h

theorem matches_constructorArm (htexts : SameTexts f c c') (decoder : String) {constructor constructor' : Positional}
    (h : constructor.Alike (SameType R c c') constructor') :
    Matches R (fun arm arm' => arm.1.mapTexts f = arm'.1.mapTexts f ∧ SameBody f arm.2 arm'.2)
      (c.constructorArm decoder constructor) (c'.constructorArm decoder constructor') := by
  refine (matches_contentsDecoder (f := f) decoder h).bind fun _ _ hbody => .ok ⟨?_, hbody⟩
  rw [← h.name]
  exact htexts.tagClause _

/-! ### Shapes -/

theorem sameBody_hoistedArm (htexts : SameTexts f c c') (decoder : String) {record record' : HoistedRecord}
    (h : record.Alike (SameType R c c') record') :
    (c.hoistedArm decoder record).1.mapTexts f = (c'.hoistedArm decoder record').1.mapTexts f ∧
      SameBody f (c.hoistedArm decoder record).2 (c'.hoistedArm decoder record').2 := by
  have hcall : record.decoderCall = record'.decoderCall := by
    rw [HoistedRecord.decoderCall, HoistedRecord.decoderCall, h.displayName, h.parameters]
  unfold hoistedArm
  rw [← h.branch, hcall]
  exact ⟨htexts.tagClause _, rfl⟩

theorem sameBody_enumerationDecoder (htexts : SameTexts f c c') (decoder : String) (tags : List String) :
    SameBody f (c.enumerationDecoder decoder tags) (c'.enumerationDecoder decoder tags) := by
  unfold enumerationDecoder
  split
  · rfl
  · have harms : ∀ tag, f (c.options.jsonTag tag) = f (c'.options.jsonTag tag) := htexts.tags
    simp [SameBody, Body.mapTexts, Body.mapTextsOfArms_eq_map, Clause.mapTexts, Ocaml.Pattern.mapTexts, harms]

/-- The functions for two shapes that are alike are the same but for what `f` does not tell apart in their texts. -/
theorem matches_functions (hname : c.displayName = c'.displayName) (htexts : SameTexts f c c') (parameters : List String)
    {shape shape' : Shape} (h : shape.Alike (SameType R c c') shape') :
    Matches R (List.Forall₂ (SameFunction f)) (c.functions parameters shape) (c'.functions parameters shape') := by
  unfold functions
  rw [← hname]
  cases h with
  | «alias» hvalue =>
    refine Matches.bind (S := SameBody f) ?_ fun _ _ hbody => .ok (.cons (sameFunction_decoderFunction _ _ hbody) .nil)
    exact hvalue.converter.bind fun _ _ hsame => .ok (by rw [hsame]; rfl)
  | record hfields =>
    exact (matches_recordFunction htexts _ _ hfields).bind fun _ _ hfunction => .ok (.cons hfunction .nil)
  | single hconstructor =>
    refine (matches_singleDecoder (f := f) _ hconstructor).bind fun _ _ hbody => .ok (.cons ?_ .nil)
    exact sameFunction_decoderFunction _ _ hbody
  | sum hconstructors =>
    refine (Matches.mapM (hconstructors.imp fun _ _ h => matches_constructorArm htexts _ h)).bind fun _ _ harms => ?_
    exact .ok (.cons (sameFunction_decoderFunction _ _ (sameBody_dispatch _ harms)) .nil)
  | enumeration tags =>
    exact .ok (.cons (sameFunction_decoderFunction _ _ (sameBody_enumerationDecoder htexts _ tags)) .nil)
  | sumOfRecords hrecords =>
    refine (Matches.mapM (hrecords.imp fun _ _ h => matches_hoistedFunction htexts h)).bind fun _ _ hhoisted => .ok ?_
    refine List.rel_append hhoisted (.cons (sameFunction_decoderFunction _ _ (sameBody_dispatch _ ?_)) .nil)
    rw [List.forall₂_map_left_iff, List.forall₂_map_right_iff]
    exact hrecords.imp fun _ _ hrecord => sameBody_hoistedArm htexts _ hrecord

end

end Context

/-! ## Types -/

namespace Descriptor

variable {d d' : Descriptor} {o o' : Options}

/-- Two descriptors, each under its options, with shapes that are rendered alike and with the same names. -/
structure Alike (d : Descriptor) (o : Options) (d' : Descriptor) (o' : Options) : Prop where
  displayName : d.displayName = d'.displayName
  parameters : d.parameters = d'.parameters
  recursive : d.references d.identity = d'.references d'.identity
  shapes : Matches Eq (Shape.Alike (Context.SameType Eq (.ofDescriptor o d) (.ofDescriptor o' d'))) d.classify d'.classify

theorem references_of_mem_types {shape : Shape} (hshape : d.classify = .ok shape) {value : Value}
    (hvalue : value ∈ shape.types) {identity : Identity} (h : value.references identity = true) :
    d.references identity = true := by
  obtain ⟨part, hoccurs, hpart⟩ := Value.references_iff.mp h
  obtain ⟨whole, hwhole, hvalue⟩ := holds_of_mem_types hshape hvalue
  exact references_iff.mpr ⟨part, ⟨whole, hwhole, hoccurs.trans hvalue⟩, hpart⟩

/-- A descriptor is rendered alike where the paths to the types that it refers to are the same. -/
theorem Alike.of_samePaths
    (h : Context.SamePaths Eq (d.references · = true) (.ofDescriptor o d) (.ofDescriptor o' d)) : d.Alike o d o' where
  displayName := rfl
  parameters := rfl
  recursive := rfl
  shapes := by
    cases hshape : d.classify with
    | ok shape =>
      exact .ok (.refl fun value hvalue => h.sameType fun identity hidentity =>
        references_of_mem_types hshape hvalue hidentity)
    | error fault => exact .error rfl

/-- All that is rendered for two descriptors, each under its options, is the same, also if it is a fault. -/
structure SameRendering (d : Descriptor) (o : Options) (d' : Descriptor) (o' : Options) : Prop where
  declaration : d.renderDeclaration o = d'.renderDeclaration o'
  declarationSignature : d.renderDeclarationSignature o = d'.renderDeclarationSignature o'
  decoder : d.renderDecoder o = d'.renderDecoder o'
  decoderSignature : d.renderDecoderSignature = d'.renderDecoderSignature
  rendering : d.render o = d'.render o'

theorem SameRendering.refl (d : Descriptor) (o : Options) : d.SameRendering o d o :=
  ⟨rfl, rfl, rfl, rfl, rfl⟩

theorem SameRendering.trans {d'' : Descriptor} {o'' : Options} (h : d.SameRendering o d' o')
    (h' : d'.SameRendering o' d'' o'') : d.SameRendering o d'' o'' where
  declaration := h.declaration.trans h'.declaration
  declarationSignature := h.declarationSignature.trans h'.declarationSignature
  decoder := h.decoder.trans h'.decoder
  decoderSignature := h.decoderSignature.trans h'.decoderSignature
  rendering := h.rendering.trans h'.rendering

section
variable (h : d.Alike o d' o')
include h

theorem Alike.renderDeclaration : d.renderDeclaration o = d'.renderDeclaration o' := by
  have hgroups : Matches Eq Eq (d.declaration o) (d'.declaration o') := by
    refine h.shapes.bind fun _ _ hshape => ?_
    rw [h.parameters, h.recursive]
    exact (Context.matches_typeDefinitions h.displayName _ hshape).bind fun _ _ hsame => .ok (by rw [hsame])
  rw [Descriptor.renderDeclaration, Descriptor.renderDeclaration, Matches.eq_iff.mp hgroups]

theorem Alike.decoder {f : String → String}
    (htexts : Context.SameTexts f (.ofDescriptor o d) (.ofDescriptor o' d')) :
    Matches Eq (fun group group' => group.recursive = group'.recursive ∧
      List.Forall₂ (Context.SameFunction f) group.items group'.items) (d.decoder o) (d'.decoder o') := by
  refine h.shapes.bind fun _ _ hshape => ?_
  rw [h.parameters]
  exact (Context.matches_functions h.displayName htexts _ hshape).bind fun _ _ hsame => .ok ⟨h.recursive, hsame⟩

theorem Alike.renderDecoderSignature : d.renderDecoderSignature = d'.renderDecoderSignature := by
  have hspecs : Matches Eq Eq d.decoderSpecs d'.decoderSpecs := by
    unfold decoderSpecs
    rw [h.displayName, h.parameters]
    refine h.shapes.bind fun _ _ hshape => ?_
    cases hshape with
    | sumOfRecords hrecords =>
      have hspecs := map_eq_of_forall₂ (f := fun record => decoderSpec record.displayName record.parameters)
        (g := fun record => decoderSpec record.displayName record.parameters)
        (hrecords.imp fun _ _ hrecord => by rw [hrecord.displayName, hrecord.parameters])
      exact .ok (by rw [hspecs])
    | _ => exact .ok rfl
  rw [Descriptor.renderDecoderSignature, Descriptor.renderDecoderSignature, Matches.eq_iff.mp hspecs]

theorem Alike.renderSignature : d.renderSignature o = d'.renderSignature o' := by
  simp only [Descriptor.renderSignature, renderDeclarationSignature, h.renderDeclaration, h.renderDecoderSignature]

theorem Alike.renderDecoder (hlabels : o.fieldLabel = o'.fieldLabel) (htags : o.constructorTag = o'.constructorTag) :
    d.renderDecoder o = d'.renderDecoder o' := by
  have htexts : Context.SameTexts id (.ofDescriptor o d) (.ofDescriptor o' d') := by
    constructor
    · simp [Context.ofDescriptor, Options.jsonKey, hlabels]
    · simp [Context.ofDescriptor, Options.jsonTag, htags]
  have hgroups : Matches Eq Eq (d.decoder o) (d'.decoder o') := by
    refine (h.decoder htexts).mono fun group group' ⟨hrecursive, hitems⟩ => ?_
    have hsame : group.items = group'.items := List.forall₂_eq_eq_eq ▸ hitems.imp fun _ _ hsame => hsame.eq
    exact congrArg₂ Ocaml.DefinitionGroup.mk hrecursive hsame
  rw [Descriptor.renderDecoder, Descriptor.renderDecoder, Matches.eq_iff.mp hgroups]

theorem Alike.sameRendering (hlabels : o.fieldLabel = o'.fieldLabel) (htags : o.constructorTag = o'.constructorTag)
    (hsignatures : o.signatures = o'.signatures) : d.SameRendering o d' o' := by
  have hdecoder := h.renderDecoder hlabels htags
  refine ⟨h.renderDeclaration, h.renderDeclaration, hdecoder, h.renderDecoderSignature, ?_⟩
  rw [render, render, h.renderDeclaration, hdecoder, h.renderSignature, hsignatures]

end

end Descriptor

end TypeScribe
