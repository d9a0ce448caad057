import TypeScribe.Proofs.Unquoted

/-!
# Decoders without quotes

Where no quote stands in a name of a shape or of a module, none stands in a name in the decoders. Their keys, tags and
messages stand in text literals, which may hold any character.
-/

namespace TypeScribe
open Ocaml (Path Term TypeExpr Pattern Clause Body Function)

attribute [local simp] Term.Unquoted Term.UnquotedAll Pattern.Unquoted Clause.Unquoted Body.Unquoted Body.UnquotedArms
  Term.var Runtime.error Runtime.errorText Runtime.errorBefore Runtime.errorQuoting

/-! ## Decoder expressions -/

theorem Runtime.unquoted_decode {name : String} (h : IsUnquoted name) : (decode name).Unquoted :=
  ⟨(by decide : ∀ m ∈ ["Aeson", "Decode"], IsUnquoted m), h⟩

theorem Runtime.unquoted_onJson {function : Term} (h : function.Unquoted) : (onJson function).Unquoted := by
  simp +decide [onJson, h]

theorem Runtime.unquoted_ok {value : Term} (h : value.Unquoted) : (ok value).Unquoted :=
  ⟨(by decide : okPath.Unquoted), h, trivial⟩

theorem Converter.unquoted_adapt {converter : Converter} (h : converter.term.Unquoted) (wanted : Convention) :
    (converter.adapt wanted).Unquoted := by
  have hcall : ∀ {name : String}, IsUnquoted name → ∀ {t : Term}, t.Unquoted →
      (Term.apply (Runtime.decode name) [t]).Unquoted := fun hname _ ht => ⟨Runtime.unquoted_decode hname, ht, trivial⟩
  unfold adapt
  split
  · exact h
  · exact h
  · exact ⟨by decide, hcall (by decide) (Runtime.unquoted_onJson h)⟩
  · exact hcall (by decide) h

def Value.Unquoted (value : Value) : Prop := ∀ name ∈ value.names, IsUnquoted name

theorem Value.Unquoted.of_occurs {part value : Value} (h : value.Unquoted) (hoccurs : part.Occurs value) : part.Unquoted :=
  fun _ hname => h _ (mem_names_of_occurs hoccurs hname)

namespace Context

/-- No quote stands in a module that the context may name. -/
def HasUnquotedModules (context : Context) : Prop :=
  ∀ entry ∈ context.options.dependencies.entries, ∀ m ∈ entry.location.modules, IsUnquoted m

variable {context : Context} (hmodules : context.HasUnquotedModules)
include hmodules

theorem HasUnquotedModules.pathTo {identity : Identity} {name : String} (hname : IsUnquoted name) {path : Path}
    (h : context.pathTo identity name = .ok path) : path.Unquoted := by
  obtain ⟨modules, hqualify, h⟩ := bind_eq_ok.mp h
  obtain rfl := pure_eq_ok.mp h
  refine ⟨fun m hm => ?_, hname⟩
  obtain ⟨entry, hentry, source, hsource, rfl⟩ := DependencyMap.exists_of_mem_qualify hqualify hm
  exact isUnquoted_upperFirst (hmodules entry hentry source hsource)

theorem HasUnquotedModules.converter {value : Value} (hvalue : value.Unquoted) {converter : Converter}
    (h : context.converter value.fieldType = .ok converter) : converter.term.Unquoted := by
  induction value using Value.typeInduction generalizing converter with
  | typeRef identity name =>
    obtain ⟨path, hpath, h⟩ := bind_eq_ok.mp h
    obtain rfl := pure_eq_ok.mp h
    exact hmodules.pathTo (isUnquoted_decoderName (hvalue name (List.mem_singleton_self name))) hpath
  | application identity arguments ih =>
    rw [converter_application] at h
    obtain ⟨path, hpath, h⟩ := bind_eq_ok.mp h
    obtain ⟨terms, hterms, h⟩ := bind_eq_ok.mp h
    obtain rfl := pure_eq_ok.mp h
    refine ⟨hmodules.pathTo (isUnquoted_decoderName (hvalue identity.name List.mem_cons_self)) hpath, ?_⟩
    refine Term.unquotedAll_iff.mpr fun term hterm => ?_
    obtain ⟨argument, hargument, hterm⟩ := exists_of_mapM_eq_ok hterms hterm
    obtain ⟨converter, hconverter, hterm⟩ := bind_eq_ok.mp hterm
    obtain rfl := pure_eq_ok.mp hterm
    have hunquoted := hvalue.of_occurs (.argument (Value.occurs_of_mem_flatten hargument))
    exact Converter.unquoted_adapt (ih argument hargument hunquoted hconverter) _
  | primitive p ih =>
    obtain ⟨terms, hterms, hmade⟩ := exists_converters_of_primitive h
    have hunquoted : ∀ term ∈ terms, term.Unquoted := fun term hterm => by
      obtain ⟨component, hcomponent, hterm⟩ := exists_of_mapM_eq_ok hterms hterm
      obtain ⟨converter, hconverter, hterm⟩ := bind_eq_ok.mp hterm
      obtain rfl := pure_eq_ok.mp hterm
      have hcomponent' := hvalue.of_occurs (.component hcomponent .self)
      exact Converter.unquoted_adapt (ih component hcomponent hcomponent' hconverter) _
    have hname : ∀ name ∈ Runtime.decoderNames, IsUnquoted name := by decide
    generalize converter.term = term at hmade ⊢
    cases hmade with
    | decode known => exact Runtime.unquoted_decode (hname _ known)
    | call known => exact ⟨Runtime.unquoted_decode (hname _ known), Term.unquotedAll_iff.mpr hunquoted⟩
    | only term => exact hunquoted term (List.mem_singleton_self term)
  | parameter name =>
    obtain rfl := pure_eq_ok.mp h
    exact ⟨nofun, isUnquoted_decoderParameter (hvalue name (List.mem_singleton_self name))⟩
  | misplaced value hmisplaced =>
    rw [hmisplaced] at h
    cases h

theorem HasUnquotedModules.raising {value : Value} (hvalue : value.Unquoted) {term : Term}
    (h : context.raising value = .ok term) : term.Unquoted := by
  obtain ⟨converter, hconverter, h⟩ := bind_eq_ok.mp h
  obtain rfl := pure_eq_ok.mp h
  exact Converter.unquoted_adapt (hmodules.converter hvalue hconverter) _

end Context

/-! ## Bodies of decoders -/

theorem Decoder.unquoted_caught (place : String) : (caught place).1.Unquoted ∧ (caught place).2.Unquoted := by
  simp +decide [caught, Runtime.decodeError]

theorem Decoder.unquoted_attempt {read : Term} (hread : read.Unquoted) (place : String) {name : String}
    (hname : IsUnquoted name) {next : Body} (hnext : next.Unquoted) : (attempt read place name next).Unquoted :=
  ⟨hread, List.forall_mem_singleton.mpr (unquoted_caught place), hname, hnext⟩

theorem Decoder.unquoted_fieldOf (key : String) {decoder : Term} (h : decoder.Unquoted) : (fieldOf key decoder).Unquoted := by
  simp +decide [fieldOf, Runtime.decode, h]

theorem Decoder.unquoted_elements : elements.Unquoted := by
  simp +decide [elements, Runtime.decode]

theorem Decoder.unquoted_constructed {name : String} (h : IsUnquoted name) (arity : Nat) :
    (constructed name arity).Unquoted := by
  refine ⟨⟨nofun, isUnquoted_upperFirst h⟩, Term.unquotedAll_iff.mpr fun term hterm => ?_⟩
  obtain ⟨i, -, rfl⟩ := List.mem_map.mp hterm
  exact ⟨nofun, isUnquoted_slot i⟩

theorem Decoder.unquoted_emptyArray (decoder : String) {name : String} (h : IsUnquoted name) :
    (emptyArray decoder name).Unquoted := by
  have hvalue := unquoted_constructed h 0
  simp +decide [emptyArray, Runtime.onJson, Runtime.ok, hvalue]

theorem Decoder.unquoted_dispatch (decoder : String) {arms : List (Clause × Body)}
    (h : ∀ arm ∈ arms, arm.1.Unquoted ∧ arm.2.Unquoted) : (dispatch decoder arms).Unquoted := by
  obtain ⟨hclause, hmessage⟩ := unquoted_caught (decoder ++ ": ")
  refine ⟨unquoted_fieldOf _ (Runtime.unquoted_decode (by decide)), Body.unquotedArms_iff.mpr ?_⟩
  refine List.forall_mem_cons.mpr ⟨⟨hclause, hmessage⟩, List.forall_mem_append.mpr ⟨h, List.forall_mem_singleton.mpr ?_⟩⟩
  simp +decide

theorem unquoted_declaredType {displayName : String} (hname : IsUnquoted displayName) {parameters : List String}
    (hparameters : ∀ name ∈ parameters, IsUnquoted name) (inner : Bool) :
    Ocaml.Unquoted ((declaredType displayName parameters).tokens inner) := by
  have hvariable : ∀ name ∈ parameters, Ocaml.Unquoted [.word ("'" ++ Ocaml.variableName name)] := fun name hmem =>
    .word (isUnquoted_append (by decide) (isUnquoted_lowerFirst (hparameters name hmem))) .nil
  have htype : Ocaml.Unquoted [.word (Path.text ⟨[], Ocaml.typeName displayName⟩)] :=
    .word (Path.Unquoted.text ⟨nofun, isUnquoted_typeName hname⟩) .nil
  have hrest : ∀ rest ⊆ parameters, Ocaml.Unquoted
      (TypeExpr.followedBy .comma ((rest.map Ocaml.variableName).map .var)) := fun rest hrest => by
    induction rest with
    | nil => exact .nil
    | cons name rest ih =>
      rw [List.cons_subset] at hrest
      exact .mark trivial ((hvariable name hrest.1).append (ih hrest.2))
  match parameters, hvariable, hrest with
  | [], _, _ => exact htype
  | [name], hvariable, _ => exact (hvariable name (List.mem_singleton_self name)).append htype
  | first :: second :: rest, hvariable, hrest =>
    have hothers := hrest (second :: rest) (List.subset_cons_self first _)
    exact ((hvariable first List.mem_cons_self).append hothers).enclose.append htype

namespace Context

variable {context : Context} {body : Body} (hmodules : context.HasUnquotedModules)
include hmodules

theorem HasUnquotedModules.fieldRead {key : String} {value : Value} (hvalue : value.Unquoted) {read : Term}
    (h : context.fieldRead key value = .ok read) : read.Unquoted := by
  unfold Context.fieldRead at h
  split at h
  · next item hitem =>
    obtain ⟨inner, rfl, rfl⟩ := Value.eq_of_fieldType_option hitem
    obtain ⟨converter, hconverter, h⟩ := bind_eq_ok.mp h
    obtain rfl := pure_eq_ok.mp h
    have hinner := hvalue.of_occurs (.component (List.mem_singleton_self inner) .self)
    have hdecoder := Converter.unquoted_adapt (hmodules.converter hinner hconverter) .raising
    simp +decide [Runtime.decode, hdecoder]
  · obtain ⟨converter, hconverter, h⟩ := bind_eq_ok.mp h
    obtain rfl := pure_eq_ok.mp h
    exact Decoder.unquoted_fieldOf key (Converter.unquoted_adapt (hmodules.converter hvalue hconverter) .raising)

theorem HasUnquotedModules.readFields {decoder : String} {last : Body} (hlast : last.Unquoted) {fields : List RecordField}
    (hfields : ∀ field ∈ fields, field.value.Unquoted) {i : Nat}
    (h : context.readFields decoder last i fields = .ok body) : body.Unquoted := by
  induction fields generalizing i body with
  | nil =>
    obtain rfl := pure_eq_ok.mp h
    exact hlast
  | cons field rest ih =>
    obtain ⟨read, hread, h⟩ := bind_eq_ok.mp h
    obtain ⟨next, hnext, h⟩ := bind_eq_ok.mp h
    obtain rfl := pure_eq_ok.mp h
    rw [List.forall_mem_cons] at hfields
    exact Decoder.unquoted_attempt (hmodules.fieldRead hfields.1 hread) _ (isUnquoted_slot i) (ih hfields.2 hnext)

theorem HasUnquotedModules.readElements {place : String} {last : Body} (hlast : last.Unquoted) {arguments : List Value}
    (harguments : ∀ argument ∈ arguments, argument.Unquoted) {i : Nat}
    (h : context.readElements place last i arguments = .ok body) : body.Unquoted := by
  induction arguments generalizing i body with
  | nil =>
    obtain rfl := pure_eq_ok.mp h
    exact hlast
  | cons argument rest ih =>
    obtain ⟨decoder, hdecoder, h⟩ := bind_eq_ok.mp h
    obtain ⟨next, hnext, h⟩ := bind_eq_ok.mp h
    obtain rfl := pure_eq_ok.mp h
    rw [List.forall_mem_cons] at harguments
    have hitems : Term.Unquoted (.element "items" i) := (by decide : IsUnquoted "items")
    have hread : Term.Unquoted (.apply decoder [.element "items" i]) :=
      ⟨hmodules.raising harguments.1 hdecoder, hitems, trivial⟩
    exact Decoder.unquoted_attempt hread _ (isUnquoted_slot i) (ih harguments.2 hnext)

theorem HasUnquotedModules.positionalDecoder {source : Term} (hsource : source.Unquoted) {place : String}
    {constructor : Positional} (hname : IsUnquoted constructor.name)
    (harguments : ∀ argument ∈ constructor.arguments, argument.Unquoted)
    (h : context.positionalDecoder source place constructor = .ok body) : body.Unquoted := by
  obtain ⟨next, hnext, h⟩ := bind_eq_ok.mp h
  obtain rfl := pure_eq_ok.mp h
  have hlast : Body.Unquoted (.value (Runtime.ok (Decoder.constructed constructor.name constructor.arguments.length))) :=
    Runtime.unquoted_ok (Decoder.unquoted_constructed hname _)
  refine ⟨hsource, ?_, by decide, hmodules.readElements hlast harguments hnext⟩
  refine List.forall_mem_cons.mpr ⟨Decoder.unquoted_caught place, List.forall_mem_singleton.mpr ?_⟩
  simp +decide [Runtime.arrayLength]

theorem HasUnquotedModules.argumentDecoder {read : Term → Term} (hread : ∀ {t : Term}, t.Unquoted → (read t).Unquoted)
    {place name : String} (hname : IsUnquoted name) {argument : Value} (hargument : argument.Unquoted)
    (h : context.argumentDecoder read place name argument = .ok body) : body.Unquoted := by
  obtain ⟨decoder, hdecoder, h⟩ := bind_eq_ok.mp h
  obtain rfl := pure_eq_ok.mp h
  have hlast : Body.Unquoted (.value (Runtime.ok (Decoder.constructed name 1))) :=
    Runtime.unquoted_ok (Decoder.unquoted_constructed hname 1)
  exact Decoder.unquoted_attempt (hread (hmodules.raising hargument hdecoder)) place (isUnquoted_slot 0) hlast

section
variable {decoder : String} {constructor : Positional} (hname : IsUnquoted constructor.name)
  (harguments : ∀ argument ∈ constructor.arguments, argument.Unquoted)
include hname harguments

theorem HasUnquotedModules.singleDecoder (h : context.singleDecoder decoder constructor = .ok body) : body.Unquoted := by
  unfold Context.singleDecoder at h
  split at h
  · obtain rfl := pure_eq_ok.mp h
    exact Decoder.unquoted_emptyArray decoder hname
  · next argument hsingle =>
    have hargument := harguments argument (hsingle ▸ List.mem_singleton_self argument)
    exact hmodules.argumentDecoder Runtime.unquoted_onJson hname hargument h
  · exact hmodules.positionalDecoder (Runtime.unquoted_onJson Decoder.unquoted_elements) hname harguments h

theorem HasUnquotedModules.contentsDecoder (h : context.contentsDecoder decoder constructor = .ok body) :
    body.Unquoted := by
  unfold Context.contentsDecoder at h
  split at h
  · obtain rfl := pure_eq_ok.mp h
    exact Runtime.unquoted_ok (Decoder.unquoted_constructed hname 0)
  · next argument hsingle =>
    have hargument := harguments argument (hsingle ▸ List.mem_singleton_self argument)
    exact hmodules.argumentDecoder (Decoder.unquoted_fieldOf contentsKey) hname hargument h
  · exact hmodules.positionalDecoder (Decoder.unquoted_fieldOf contentsKey Decoder.unquoted_elements) hname harguments h

theorem HasUnquotedModules.constructorArm {arm : Clause × Body} (h : context.constructorArm decoder constructor = .ok arm) :
    arm.1.Unquoted ∧ arm.2.Unquoted := by
  obtain ⟨body, hbody, h⟩ := bind_eq_ok.mp h
  obtain rfl := pure_eq_ok.mp h
  exact ⟨⟨trivial, nofun⟩, hmodules.contentsDecoder hname harguments hbody⟩

end

omit hmodules in
theorem unquoted_hoistedArm (decoder : String) {record : HoistedRecord} (hdisplayName : IsUnquoted record.displayName)
    (hbranch : IsUnquoted record.branch) (hparameters : ∀ name ∈ record.parameters, IsUnquoted name) :
    (context.hoistedArm decoder record).1.Unquoted ∧ (context.hoistedArm decoder record).2.Unquoted := by
  have hcall : record.decoderCall.Unquoted := by
    refine ⟨⟨nofun, isUnquoted_decoderName hdisplayName⟩, Term.unquotedAll_iff.mpr (List.forall_mem_append.mpr ⟨?_, ?_⟩)⟩
    · exact List.forall_mem_map.mpr fun name hmem => ⟨nofun, isUnquoted_decoderParameter (hparameters name hmem)⟩
    · exact List.forall_mem_singleton.mpr ⟨nofun, (by decide : IsUnquoted "json")⟩
  have hconstructor : IsUnquoted (Ocaml.constructorName record.branch) := isUnquoted_upperFirst hbranch
  refine ⟨⟨trivial, nofun⟩, hcall, ?_⟩
  simp +decide [Runtime.ok, Path.Unquoted, hconstructor]

omit hmodules in
theorem unquoted_enumerationDecoder (decoder : String) {tags : List String} (h : ∀ tag ∈ tags, IsUnquoted tag) :
    (context.enumerationDecoder decoder tags).Unquoted := by
  unfold enumerationDecoder
  split
  · exact Decoder.unquoted_emptyArray decoder (h _ (List.mem_singleton_self _))
  · have hread : Path.Unquoted ⟨["Js", "Json"], "decodeString"⟩ := by decide
    have hsome : Runtime.somePath.Unquoted := by decide
    refine ⟨Runtime.unquoted_onJson hread, Body.unquotedArms_iff.mpr (List.forall_mem_append.mpr ⟨?_, ?_⟩)⟩
    · exact List.forall_mem_map.mpr fun tag htag =>
        ⟨⟨⟨hsome, trivial⟩, nofun⟩, Runtime.unquoted_ok (Decoder.unquoted_constructed (h tag htag) 0)⟩
    · simp +decide

/-! ## Functions -/

omit hmodules in
theorem unquoted_decoderFunction {displayName : String} (hname : IsUnquoted displayName) {parameters : List String}
    (hparameters : ∀ name ∈ parameters, IsUnquoted name) (hbody : body.Unquoted) :
    (decoderFunction displayName parameters body).Unquoted := by
  refine ⟨isUnquoted_decoderName hname, List.forall_mem_append.mpr ⟨?_, List.forall_mem_singleton.mpr (by decide)⟩, hbody⟩
  exact List.forall_mem_map.mpr fun name hmem => isUnquoted_decoderParameter (hparameters name hmem)

theorem HasUnquotedModules.recordFunction {displayName : String} (hname : IsUnquoted displayName)
    {parameters : List String} (hparameters : ∀ name ∈ parameters, IsUnquoted name) {fields : List RecordField}
    (hfields : ∀ field ∈ fields, ∀ name ∈ field.names, IsUnquoted name) {function : Function}
    (h : context.recordFunction displayName parameters fields = .ok function) : function.Unquoted := by
  obtain ⟨body, hbody, h⟩ := bind_eq_ok.mp h
  obtain rfl := pure_eq_ok.mp h
  have hlast : Body.Unquoted (.value (Runtime.ok (.record
      (fields.mapIdx fun i field => (Ocaml.label field.name, Decoder.slot i)) (declaredType displayName parameters)))) := by
    refine Runtime.unquoted_ok ⟨fun label hlabel => ?_, unquoted_declaredType hname hparameters false⟩
    obtain ⟨i, hi, rfl⟩ := List.mem_mapIdx.mp hlabel
    exact ⟨isUnquoted_label (hfields _ (List.getElem_mem hi) _ List.mem_cons_self), isUnquoted_slot i⟩
  refine unquoted_decoderFunction hname hparameters (hmodules.readFields hlast ?_ hbody)
  exact fun field hfield name hname => hfields field hfield name (List.mem_cons_of_mem _ hname)

/-- No quote stands in a name in the functions of a shape, if none stands in a name in the shape. -/
theorem HasUnquotedModules.functions (hname : IsUnquoted context.displayName) {parameters : List String}
    (hparameters : ∀ name ∈ parameters, IsUnquoted name) {shape : Shape} (hshape : ∀ name ∈ shape.names, IsUnquoted name)
    {functions : List Function} (h : context.functions parameters shape = .ok functions) :
    ∀ function ∈ functions, function.Unquoted := by
  have hown : ∀ {body : Body}, body.Unquoted →
      ∀ function ∈ [decoderFunction context.displayName parameters body], function.Unquoted := fun hbody =>
    List.forall_mem_singleton.mpr (unquoted_decoderFunction hname hparameters hbody)
  have harguments : ∀ constructor : Positional, (∀ name ∈ constructor.names, IsUnquoted name) →
      IsUnquoted constructor.name ∧ ∀ argument ∈ constructor.arguments, argument.Unquoted := fun constructor h =>
    ⟨h _ List.mem_cons_self, fun argument hargument name hname =>
      h name (List.mem_cons_of_mem _ (List.mem_flatMap.mpr ⟨argument, hargument, hname⟩))⟩
  cases shape with
  | «alias» p =>
    obtain ⟨body, hbody, h⟩ := bind_eq_ok.mp h
    obtain rfl := pure_eq_ok.mp h
    obtain ⟨converter, hconverter, hbody⟩ := bind_eq_ok.mp hbody
    obtain rfl := pure_eq_ok.mp hbody
    have hvalue : Value.Unquoted (.primitive p) := hshape
    have hread := Runtime.unquoted_onJson (Converter.unquoted_adapt (hmodules.converter hvalue hconverter) .raising)
    have hlast : Term.Unquoted (.var "v") := (by decide : Path.Unquoted ⟨[], "v"⟩)
    exact hown (Decoder.unquoted_attempt hread _ (by decide) (Runtime.unquoted_ok hlast))
  | record fields =>
    obtain ⟨function, hfunction, h⟩ := bind_eq_ok.mp h
    obtain rfl := pure_eq_ok.mp h
    refine List.forall_mem_singleton.mpr (hmodules.recordFunction hname hparameters (fun field hfield name hname => ?_) hfunction)
    exact hshape name (List.mem_flatMap.mpr ⟨field, hfield, hname⟩)
  | single constructor =>
    obtain ⟨body, hbody, h⟩ := bind_eq_ok.mp h
    obtain rfl := pure_eq_ok.mp h
    obtain ⟨hconstructor, hvalues⟩ := harguments constructor hshape
    exact hown (hmodules.singleDecoder hconstructor hvalues hbody)
  | sum constructors =>
    obtain ⟨arms, harms, h⟩ := bind_eq_ok.mp h
    obtain rfl := pure_eq_ok.mp h
    refine hown (Decoder.unquoted_dispatch _ fun arm hmem => ?_)
    obtain ⟨constructor, hconstructor, harm⟩ := exists_of_mapM_eq_ok harms hmem
    obtain ⟨hconstructor, hvalues⟩ := harguments constructor fun name hname =>
      hshape name (List.mem_flatMap.mpr ⟨constructor, hconstructor, hname⟩)
    exact hmodules.constructorArm hconstructor hvalues harm
  | enumeration tags =>
    obtain rfl := pure_eq_ok.mp h
    exact hown (unquoted_enumerationDecoder _ hshape)
  | sumOfRecords records =>
    obtain ⟨hoisted, hhoisted, h⟩ := bind_eq_ok.mp h
    obtain rfl := pure_eq_ok.mp h
    have hrecord : ∀ record ∈ records, IsUnquoted record.displayName ∧ IsUnquoted record.branch ∧
        (∀ name ∈ record.parameters, IsUnquoted name) ∧ ∀ field ∈ record.fields, ∀ name ∈ field.names, IsUnquoted name := by
      intro record hmem
      have hnames : ∀ name ∈ record.names, IsUnquoted name := fun name hname =>
        hshape name (List.mem_flatMap.mpr ⟨record, hmem, hname⟩)
      simp only [HoistedRecord.names, List.cons_append, List.forall_mem_cons, List.forall_mem_append] at hnames
      exact ⟨hnames.1, hnames.2.1, hnames.2.2.1, fun field hfield name hname =>
        hnames.2.2.2 name (List.mem_flatMap.mpr ⟨field, hfield, hname⟩)⟩
    refine List.forall_mem_append.mpr ⟨fun function hmem => ?_, hown (Decoder.unquoted_dispatch _ fun arm hmem => ?_)⟩
    · obtain ⟨record, hfrom, hfunction⟩ := exists_of_mapM_eq_ok hhoisted hmem
      obtain ⟨hdisplayName, -, hparameters, hfields⟩ := hrecord record hfrom
      exact hmodules.recordFunction hdisplayName hparameters hfields hfunction
    · obtain ⟨record, hfrom, rfl⟩ := List.mem_map.mp hmem
      obtain ⟨hdisplayName, hbranch, hparameters, -⟩ := hrecord record hfrom
      exact unquoted_hoistedArm _ hdisplayName hbranch hparameters

end Context

end TypeScribe
