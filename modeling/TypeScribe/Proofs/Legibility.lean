import TypeScribe.Proofs.Formatting
import TypeScribe.Proofs.PlainNames
import TypeScribe.Proofs.Walk

/-!
# Generated decoders can be read

Where the names of a descriptor are plain, every expression and every arm of its decoders is one that the reader knows.
-/

namespace TypeScribe
open Ocaml (Path Term Pattern Clause Body Function)

/-! ## Decoder expressions -/

def Ocaml.Term.isCallable : Term → Bool
  | .path _ | .apply _ _ | .lambda _ _ => true
  | _ => false

/-- An expression that the reader knows and that may stand before arguments. -/
structure Ocaml.Term.IsFunction (term : Term) : Prop where
  readable : term.Readable
  callable : term.isCallable = true
  head : term.expr.isConstructor = false

namespace Ocaml.Term.IsFunction

theorem path {path : Path} (h : path.IsName) : IsFunction (.path path) := ⟨.path h, rfl, rfl⟩

theorem var {name : String} (h : Path.IsName ⟨[], name⟩) : IsFunction (.var name) := .path h

theorem apply {function : Term} {arguments : List Term} (hfunction : function.IsFunction)
    (harguments : ∀ argument ∈ arguments, argument.Readable) : IsFunction (.apply function arguments) where
  readable := .apply hfunction.readable hfunction.head harguments
  callable := rfl
  head := by
    rw [Term.expr]
    cases arguments with
    | nil => exact hfunction.head
    | cons argument rest => rfl

theorem lambda {parameter : String} {body : Term} (hparameter : Path.IsName ⟨[], parameter⟩) (hbody : body.Readable) :
    IsFunction (.lambda parameter body) := ⟨.lambda hparameter hbody, rfl, rfl⟩

end Ocaml.Term.IsFunction

theorem readable_json : Term.Readable (.var "json") := .path (by decide)

theorem isFunction_onJson {function : Term} (h : function.IsFunction) : (Runtime.onJson function).IsFunction :=
  h.apply (List.forall_mem_singleton.mpr readable_json)

theorem isFunction_adapt {converter : Converter} (h : converter.term.IsFunction) (wanted : Convention) :
    (converter.adapt wanted).IsFunction := by
  obtain ⟨term, convention⟩ := converter
  have hunwrap : (Runtime.decode "unwrapResult").IsFunction := .path (by decide)
  have hwrap : (Runtime.decode "wrapResult").IsFunction := .path (by decide)
  cases convention <;> cases wanted
  · exact h
  · exact hwrap.apply (List.forall_mem_singleton.mpr h.readable)
  · exact .lambda (by decide) (hunwrap.apply (List.forall_mem_singleton.mpr (isFunction_onJson h).readable)).readable
  · exact h

namespace Context

def HasPlainModules (context : Context) : Prop :=
  ∀ entry ∈ context.options.dependencies.entries, ∀ m ∈ entry.location.modules, IsLetterName m

variable {context : Context}

theorem HasPlainModules.isCapitalName_of_qualify (h : context.HasPlainModules) {identity : Identity}
    {modules : List String} (hmodules : context.options.dependencies.qualify context.identity identity = .ok modules) :
    ∀ m ∈ modules, Ocaml.isCapitalName m.toList = true := by
  intro m hm
  obtain ⟨entry, hentry, source, hsource, rfl⟩ := DependencyMap.exists_of_mem_qualify hmodules hm
  exact isCapitalName_upperFirst (h entry hentry source hsource)

theorem HasPlainModules.isName_pathTo (h : context.HasPlainModules) {identity : Identity} {name : String}
    (hname : IsIdentifier name) {path : Path}
    (hpath : context.pathTo identity (Ocaml.decoderName name) = .ok path) : path.IsName := by
  obtain ⟨modules, hmodules, hpath⟩ := bind_eq_ok.mp hpath
  cases hpath
  exact isName_decoderName hname (h.isCapitalName_of_qualify hmodules)

def ReadsConverter (context : Context) (value : Value) : Prop :=
  ∀ {converter}, context.converter value.fieldType = .ok converter → converter.term.IsFunction

theorem isFunction_of_mapM {wanted : Convention} {values : List Value}
    (h : ∀ value ∈ values, context.ReadsConverter value) {terms : List Term}
    (hterms : values.mapM (fun value => do return (← context.converter value.fieldType).adapt wanted) = .ok terms) :
    ∀ term ∈ terms, term.IsFunction := by
  intro term hterm
  obtain ⟨value, hvalue, hadapted⟩ := exists_of_mapM_eq_ok hterms hterm
  obtain ⟨converter, hconverter, hadapt⟩ := bind_eq_ok.mp hadapted
  cases hadapt
  exact isFunction_adapt (h value hvalue hconverter) wanted

theorem readsConverter_primitive {p : Primitive} (h : ∀ component ∈ p.components, context.ReadsConverter component) :
    context.ReadsConverter (.primitive p) := by
  intro converter hconverter
  obtain ⟨terms, hterms, hmade⟩ := exists_converters_of_primitive hconverter
  have hfunctions := isFunction_of_mapM h hterms
  have hname : ∀ name ∈ Runtime.decoderNames, Path.IsName ⟨["Aeson", "Decode"], name⟩ := by decide
  generalize converter.term = term at hmade ⊢
  cases hmade with
  | decode known => exact .path (hname _ known)
  | call known => exact .apply (.path (hname _ known)) fun term hterm => (hfunctions term hterm).readable
  | only term => exact hfunctions term (List.mem_singleton_self term)

/-- With plain modules the decoder of a plain value can be read. -/
theorem HasPlainModules.readsConverter (hmodules : context.HasPlainModules) {value : Value} (hvalue : value.IsPlain) :
    context.ReadsConverter value := by
  induction value using Value.typeInduction with
  | typeRef identity name =>
    intro converter hconverter
    obtain ⟨path, hpath, hconverter⟩ := bind_eq_ok.mp hconverter
    cases hconverter
    exact .path (hmodules.isName_pathTo (hvalue _ .self) hpath)
  | application identity arguments ih =>
    intro converter hconverter
    rw [converter_application] at hconverter
    obtain ⟨path, hpath, hconverter⟩ := bind_eq_ok.mp hconverter
    obtain ⟨terms, hterms, hconverter⟩ := bind_eq_ok.mp hconverter
    cases hconverter
    have harguments : ∀ argument ∈ arguments.flatten, context.ReadsConverter argument := fun argument hargument =>
      ih argument hargument (hvalue.of_occurs (.argument (Value.occurs_of_mem_flatten hargument)))
    exact .apply (.path (hmodules.isName_pathTo (hvalue _ .self) hpath)) fun term hterm =>
      (isFunction_of_mapM harguments hterms term hterm).readable
  | primitive p ih =>
    exact readsConverter_primitive fun component hcomponent =>
      ih component hcomponent (hvalue.of_occurs (.component hcomponent .self))
  | parameter name =>
    intro converter hconverter
    cases hconverter
    have hname : IsPlainVariable name := hvalue _ .self
    exact .var (isName_decoderParameter hname.identifier)
  | misplaced value hmisplaced =>
    intro converter hconverter
    rw [hmisplaced] at hconverter
    cases hconverter

theorem HasPlainModules.isFunction_raising (hmodules : context.HasPlainModules) {value : Value} (hvalue : value.IsPlain)
    {term : Term} (h : context.raising value = .ok term) : term.IsFunction := by
  obtain ⟨converter, hconverter, hterm⟩ := bind_eq_ok.mp h
  cases hterm
  exact isFunction_adapt (hmodules.readsConverter hvalue hconverter) .raising

end Context

/-! ## Results and arms -/

theorem readable_ok {value : Term} (h : value.Readable) : (Runtime.ok value).Readable :=
  .construct (by decide) (List.forall_mem_singleton.mpr h)

theorem readable_error {message : Term} (h : message.Readable) : (Runtime.error message).Readable :=
  .construct (by decide) (List.forall_mem_singleton.mpr h)

theorem readable_errorBefore (front : String) {name : String} (h : Path.IsName ⟨[], name⟩) :
    (Runtime.errorBefore front name).Readable :=
  readable_error (.concat (.text _) (.path h))

theorem readable_errorQuoting (front : String) {name : String} (h : Path.IsName ⟨[], name⟩) :
    (Runtime.errorQuoting front name).Readable :=
  readable_error (.concat (.text _) (.concat (.path h) (.text _)))

theorem readable_caught (place : String) :
    (Decoder.caught place).1.Readable ∧ (Decoder.caught place).2.Readable :=
  ⟨⟨.simple (.raised (by decide) (by decide)), nofun⟩, readable_errorBefore place (by decide)⟩

theorem readable_attempt {read : Term} (hread : read.Readable) (place : String) {name : String}
    (hname : Path.IsName ⟨[], name⟩) {next : Body} (hnext : next.Readable) :
    (Decoder.attempt read place name next).Readable :=
  .proceed hread (List.forall_mem_singleton.mpr (readable_caught place)) hname hnext

theorem isFunction_fieldOf (key : String) {decoder : Term} (h : decoder.Readable) :
    (Decoder.fieldOf key decoder).IsFunction := by
  refine .apply (.path (by decide)) ?_
  simp only [List.mem_cons, List.not_mem_nil, or_false, forall_eq_or_imp, forall_eq]
  exact ⟨.text key, h, readable_json⟩

theorem isFunction_elements : Decoder.elements.IsFunction :=
  .apply (.path (by decide)) (List.forall_mem_singleton.mpr (.lambda (by decide) (.path (by decide))))

theorem readable_constructed {name : String} (h : IsLetterName name) (arity : Nat) :
    (Decoder.constructed name arity).Readable := by
  refine .construct ⟨nofun, isCapitalName_upperFirst h⟩ fun argument hargument => ?_
  obtain ⟨i, -, rfl⟩ := List.mem_map.mp hargument
  exact .path (isName_slot i)

theorem readable_emptyArray (decoder : String) {name : String} (h : IsLetterName name) :
    (Decoder.emptyArray decoder name).Readable := by
  have hread : (Runtime.onJson (.path ⟨["Js", "Json"], "decodeArray"⟩)).IsFunction := isFunction_onJson (.path (by decide))
  refine .choose hread.readable (List.cons_ne_nil _ _) ?_ ?_
  · simp only [List.mem_cons, List.not_mem_nil, or_false, forall_eq_or_imp, forall_eq]
    have hsome : Pattern.IsSimple (.construct Runtime.somePath .any) := .construct (by decide) .any
    exact ⟨⟨.simple (.construct (by decide) .emptyArray), nofun⟩,
      ⟨.either (.simple hsome) (.atom (.constant (by decide))), nofun⟩⟩
  · simp only [List.mem_cons, List.not_mem_nil, or_false, forall_eq_or_imp, forall_eq]
    exact ⟨.value (readable_ok (readable_constructed h 0)), .value (readable_error (.text _))⟩

theorem readable_dispatch (decoder : String) {arms : List (Clause × Body)}
    (h : ∀ arm ∈ arms, arm.1.Readable ∧ arm.2.Readable) : (Decoder.dispatch decoder arms).Readable := by
  have hunknown : Clause.Readable ⟨.bind "tag", none⟩ := ⟨.simple (.atom (.bind (by decide))), nofun⟩
  have hread := isFunction_fieldOf tagKey (.path (by decide) : (Runtime.decode "string").Readable)
  have hfailed := readable_caught (decoder ++ ": ")
  refine .choose hread.readable (List.cons_ne_nil _ _) ?_ ?_
  · refine List.forall_mem_cons.mpr ⟨hfailed.1, List.forall_mem_append.mpr ⟨fun arm harm => (h arm harm).1, ?_⟩⟩
    exact List.forall_mem_singleton.mpr hunknown
  · refine List.forall_mem_cons.mpr ⟨.value hfailed.2,
      List.forall_mem_append.mpr ⟨fun arm harm => (h arm harm).2, ?_⟩⟩
    exact List.forall_mem_singleton.mpr (.value (readable_errorQuoting _ (by decide)))

namespace Context

variable {context : Context} {body : Body}

/-! ## Records -/

theorem HasPlainModules.readable_fieldRead (hmodules : context.HasPlainModules) {key : String} {value : Value}
    (hvalue : value.IsPlain) {read : Term} (h : context.fieldRead key value = .ok read) : read.Readable := by
  unfold fieldRead at h
  split at h
  · next item hitem =>
    obtain ⟨inner, rfl, rfl⟩ := Value.eq_of_fieldType_option hitem
    obtain ⟨converter, hconverter, hread⟩ := bind_eq_ok.mp h
    cases hread
    have hinner : inner.IsPlain := hvalue.of_occurs (.component (.head _) .self)
    have hdecoder := isFunction_adapt (hmodules.readsConverter hinner hconverter) .raising
    have hfield : Term.IsFunction (.apply (Runtime.decode "field") [.text key, converter.adapt .raising]) :=
      .apply (.path (by decide)) (List.forall_mem_cons.mpr ⟨.text key, List.forall_mem_singleton.mpr hdecoder.readable⟩)
    have hoptional : (Runtime.decode "optional").IsFunction := .path (by decide)
    exact (hoptional.apply
      (List.forall_mem_cons.mpr ⟨hfield.readable, List.forall_mem_singleton.mpr readable_json⟩)).readable
  · obtain ⟨term, hterm, hread⟩ := bind_eq_ok.mp h
    cases hread
    exact (isFunction_fieldOf key (isFunction_adapt (hmodules.readsConverter hvalue hterm) .raising).readable).readable

theorem HasPlainModules.readable_readFields (hmodules : context.HasPlainModules) {decoder : String} {last : Body}
    (hlast : last.Readable) {fields : List RecordField} (hfields : ∀ field ∈ fields, field.IsPlain) {i : Nat}
    (h : context.readFields decoder last i fields = .ok body) : body.Readable := by
  induction fields generalizing i body with
  | nil =>
    cases h
    exact hlast
  | cons field rest ih =>
    rw [readFields] at h
    obtain ⟨read, hread, h⟩ := bind_eq_ok.mp h
    obtain ⟨next, hnext, h⟩ := bind_eq_ok.mp h
    cases h
    rw [List.forall_mem_cons] at hfields
    exact readable_attempt (hmodules.readable_fieldRead hfields.1.value hread) _ (isName_slot i) (ih hfields.2 hnext)

theorem readable_declaredType {displayName : String} (hname : IsPlain displayName) {parameters : List String}
    (hparameters : ∀ name ∈ parameters, IsPlainVariable name) : (declaredType displayName parameters).Readable := by
  refine .constructor (isName_escapeKeyword hname.identifier hname.operator) fun type htype => ?_
  obtain ⟨name, hname, rfl⟩ := List.mem_map.mp htype
  obtain ⟨parameter, hparameter, rfl⟩ := List.mem_map.mp hname
  exact .var (isVariable_variableName (hparameters parameter hparameter))

theorem HasPlainModules.readable_recordDecoder (hmodules : context.HasPlainModules) {decoder displayName : String}
    (hname : IsPlain displayName) {parameters : List String} (hparameters : ∀ name ∈ parameters, IsPlainVariable name)
    {fields : List RecordField} (hne : fields ≠ []) (hfields : ∀ field ∈ fields, field.IsPlain)
    (h : context.recordDecoder decoder (declaredType displayName parameters) fields = .ok body) : body.Readable := by
  refine hmodules.readable_readFields (.value (readable_ok (.record ?_ ?_ ?_))) hfields h
  · simpa using hne
  · intro label hlabel
    obtain ⟨i, hi, rfl⟩ := List.mem_mapIdx.mp hlabel
    have hfield := (hfields _ (List.getElem_mem hi)).name
    exact ⟨isName_escapeKeyword hfield.identifier hfield.operator, isName_slot i⟩
  · exact readable_declaredType hname hparameters

/-! ## Constructors -/

theorem HasPlainModules.readable_readElements (hmodules : context.HasPlainModules) {place : String} {last : Body}
    (hlast : last.Readable) {arguments : List Value} (harguments : ∀ argument ∈ arguments, argument.IsPlain) {i : Nat}
    (h : context.readElements place last i arguments = .ok body) : body.Readable := by
  induction arguments generalizing i body with
  | nil =>
    cases h
    exact hlast
  | cons argument rest ih =>
    rw [readElements] at h
    obtain ⟨decoder, hdecoder, h⟩ := bind_eq_ok.mp h
    obtain ⟨next, hnext, h⟩ := bind_eq_ok.mp h
    cases h
    rw [List.forall_mem_cons] at harguments
    have hfunction := hmodules.isFunction_raising harguments.1 hdecoder
    have hread := hfunction.apply (List.forall_mem_singleton.mpr (.element i (by decide : Path.IsName ⟨[], "items"⟩)))
    exact readable_attempt hread.readable _ (isName_slot i) (ih harguments.2 hnext)

theorem HasPlainModules.readable_positionalDecoder (hmodules : context.HasPlainModules) {source : Term}
    (hsource : source.Readable) {place : String} {constructor : Positional} (hconstructor : constructor.IsPlain)
    (h : context.positionalDecoder source place constructor = .ok body) : body.Readable := by
  obtain ⟨next, hnext, h⟩ := bind_eq_ok.mp h
  cases h
  have hitems : Path.IsName ⟨[], "items"⟩ := by decide
  have hlength : (Runtime.arrayLength "items").IsFunction :=
    .apply (.path (by decide)) (List.forall_mem_singleton.mpr (.path hitems))
  have harity : Term.Readable (.number constructor.arguments.length) := .number _
  have hshortest : Term.IsFunction (.apply (.var "min") [Runtime.arrayLength "items", .number constructor.arguments.length]) :=
    .apply (.var (by decide)) (List.forall_mem_cons.mpr ⟨hlength.readable, List.forall_mem_singleton.mpr harity⟩)
  have hposition : Term.IsFunction (.apply (.var "string_of_int") [_]) :=
    .apply (.var (by decide)) (List.forall_mem_singleton.mpr hshortest.readable)
  have hguard : Clause.Readable ⟨.bind "items", some (.differs (Runtime.arrayLength "items")
      (.number constructor.arguments.length))⟩ :=
    ⟨.simple (.atom (.bind hitems)), fun _ hguard => Option.mem_some.mp hguard ▸ .differs hlength.readable harity⟩
  have hlast : Body.Readable (.value (Runtime.ok (Decoder.constructed constructor.name constructor.arguments.length))) :=
    .value (readable_ok (readable_constructed hconstructor.name _))
  refine .proceed hsource ?_ hitems (hmodules.readable_readElements hlast hconstructor.arguments hnext)
  refine List.forall_mem_cons.mpr ⟨readable_caught place, List.forall_mem_singleton.mpr ⟨hguard, ?_⟩⟩
  exact readable_error (.concat (.text _) (.concat hposition.readable (.text _)))

theorem HasPlainModules.readable_argumentDecoder (hmodules : context.HasPlainModules) {read : Term → Term}
    (hread : ∀ {decoder : Term}, decoder.IsFunction → (read decoder).Readable) {place name : String}
    (hname : IsLetterName name) {argument : Value} (hargument : argument.IsPlain)
    (h : context.argumentDecoder read place name argument = .ok body) : body.Readable := by
  obtain ⟨decoder, hdecoder, h⟩ := bind_eq_ok.mp h
  cases h
  have hfunction := hmodules.isFunction_raising hargument hdecoder
  exact readable_attempt (hread hfunction) place (isName_slot 0) (.value (readable_ok (readable_constructed hname 1)))

theorem HasPlainModules.readable_singleDecoder (hmodules : context.HasPlainModules) {decoder : String}
    {constructor : Positional} (hconstructor : constructor.IsPlain)
    (h : context.singleDecoder decoder constructor = .ok body) : body.Readable := by
  unfold singleDecoder at h
  split at h
  · cases h
    exact readable_emptyArray decoder hconstructor.name
  · next argument harguments =>
    have hargument := hconstructor.arguments argument (harguments ▸ List.mem_singleton_self argument)
    exact hmodules.readable_argumentDecoder (fun h => (isFunction_onJson h).readable) hconstructor.name hargument h
  · exact hmodules.readable_positionalDecoder (isFunction_onJson isFunction_elements).readable hconstructor h

theorem HasPlainModules.readable_contentsDecoder (hmodules : context.HasPlainModules) {decoder : String}
    {constructor : Positional} (hconstructor : constructor.IsPlain)
    (h : context.contentsDecoder decoder constructor = .ok body) : body.Readable := by
  unfold contentsDecoder at h
  split at h
  · cases h
    exact .value (readable_ok (readable_constructed hconstructor.name 0))
  · next argument harguments =>
    have hargument := hconstructor.arguments argument (harguments ▸ List.mem_singleton_self argument)
    exact hmodules.readable_argumentDecoder (fun h => (isFunction_fieldOf contentsKey h.readable).readable)
      hconstructor.name hargument h
  · exact hmodules.readable_positionalDecoder (isFunction_fieldOf contentsKey isFunction_elements.readable).readable
      hconstructor h

/-! ## Sums -/

theorem readable_tagClause (context : Context) (name : String) : (context.tagClause name).Readable :=
  ⟨.simple (.atom (.text _)), nofun⟩

theorem HasPlainModules.readable_constructorArm (hmodules : context.HasPlainModules) {decoder : String}
    {constructor : Positional} (hconstructor : constructor.IsPlain) {arm : Clause × Body}
    (h : context.constructorArm decoder constructor = .ok arm) : arm.1.Readable ∧ arm.2.Readable := by
  obtain ⟨body, hbody, h⟩ := bind_eq_ok.mp h
  cases h
  exact ⟨readable_tagClause context _, hmodules.readable_contentsDecoder hconstructor hbody⟩

theorem readable_hoistedArm (context : Context) (decoder : String) {record : HoistedRecord} (h : record.IsPlain) :
    (context.hoistedArm decoder record).1.Readable ∧ (context.hoistedArm decoder record).2.Readable := by
  refine ⟨readable_tagClause context _, ?_⟩
  have hcall : record.decoderCall.IsFunction := by
    refine .apply (.var (isName_decoderName h.displayName.identifier nofun)) ?_
    refine List.forall_mem_append.mpr ⟨fun term hterm => ?_, List.forall_mem_singleton.mpr readable_json⟩
    obtain ⟨parameter, hparameter, rfl⟩ := List.mem_map.mp hterm
    exact .path (isName_decoderParameter (h.parameters parameter hparameter).identifier)
  have hvalue : Term.Readable (.construct ⟨[], Ocaml.constructorName record.branch⟩ [.var "v"]) :=
    .construct ⟨nofun, isCapitalName_upperFirst h.branch⟩ (List.forall_mem_singleton.mpr (.path (by decide)))
  refine .choose hcall.readable (List.cons_ne_nil _ _) ?_ ?_
  · refine List.forall_mem_cons.mpr ⟨⟨.simple (.construct (by decide) (.bind (by decide))), nofun⟩, ?_⟩
    exact List.forall_mem_singleton.mpr ⟨.simple (.construct (by decide) (.bind (by decide))), nofun⟩
  · refine List.forall_mem_cons.mpr ⟨.value (readable_ok hvalue), ?_⟩
    exact List.forall_mem_singleton.mpr (.value (readable_errorBefore _ (by decide)))

/-! ## Whole decoders -/

theorem readable_enumerationDecoder (context : Context) (decoder : String) {tags : List String}
    (h : ∀ tag ∈ tags, IsLetterName tag) : (context.enumerationDecoder decoder tags).Readable := by
  unfold enumerationDecoder
  split
  · exact readable_emptyArray decoder (h _ (List.mem_singleton_self _))
  · have hread : (Runtime.onJson (.path ⟨["Js", "Json"], "decodeString"⟩)).IsFunction :=
      isFunction_onJson (.path (by decide))
    refine .choose hread.readable (List.append_ne_nil_of_right_ne_nil _ (List.cons_ne_nil _ _)) ?_ ?_
    · refine List.forall_mem_append.mpr ⟨fun arm harm => ?_, List.forall_mem_cons.mpr ⟨?_, List.forall_mem_singleton.mpr ?_⟩⟩
      · obtain ⟨tag, -, rfl⟩ := List.mem_map.mp harm
        exact ⟨.simple (.construct (by decide) (.text _)), nofun⟩
      · exact ⟨.simple (.construct (by decide) (.bind (by decide))), nofun⟩
      · exact ⟨.simple (.atom (.constant (by decide))), nofun⟩
    · refine List.forall_mem_append.mpr ⟨fun arm harm => ?_, List.forall_mem_cons.mpr ⟨?_, List.forall_mem_singleton.mpr ?_⟩⟩
      · obtain ⟨tag, htag, rfl⟩ := List.mem_map.mp harm
        exact .value (readable_ok (readable_constructed (h tag htag) 0))
      · exact .value (readable_errorQuoting _ (by decide))
      · exact .value (readable_error (.text _))

theorem HasPlainModules.readable_aliasDecoder (hmodules : context.HasPlainModules) {decoder : String} {p : Primitive}
    (hp : Value.IsPlain (.primitive p)) (h : context.aliasDecoder decoder p = .ok body) : body.Readable := by
  obtain ⟨converter, hconverter, h⟩ := bind_eq_ok.mp h
  cases h
  have hread := isFunction_onJson (isFunction_adapt (hmodules.readsConverter hp hconverter) .raising)
  exact readable_attempt hread.readable _ (by decide) (.value (readable_ok (.path (by decide))))

/-! ## Functions -/

theorem readable_decoderFunction {displayName : String} (hname : IsIdentifier displayName) {parameters : List String}
    (hparameters : ∀ name ∈ parameters, IsPlainVariable name) (hbody : body.Readable) :
    (decoderFunction displayName parameters body).Readable where
  name := isName_decoderName hname nofun
  parameters := by
    refine List.forall_mem_append.mpr ⟨fun name hmem => ?_, List.forall_mem_singleton.mpr (by decide)⟩
    obtain ⟨parameter, hparameter, rfl⟩ := List.mem_map.mp hmem
    exact isName_decoderParameter (hparameters parameter hparameter).identifier
  body := hbody

theorem HasPlainModules.readable_recordFunction (hmodules : context.HasPlainModules) {displayName : String}
    (hname : IsPlain displayName) {parameters : List String} (hparameters : ∀ name ∈ parameters, IsPlainVariable name)
    {fields : List RecordField} (hne : fields ≠ []) (hfields : ∀ field ∈ fields, field.IsPlain) {function : Function}
    (h : context.recordFunction displayName parameters fields = .ok function) : function.Readable := by
  obtain ⟨body, hbody, h⟩ := bind_eq_ok.mp h
  cases h
  exact readable_decoderFunction hname.identifier hparameters
    (hmodules.readable_recordDecoder hname hparameters hne hfields hbody)

/-- Every function of a plain shape can be read, and there is at least one. -/
theorem HasPlainModules.readable_functions (hmodules : context.HasPlainModules) (hname : IsPlain context.displayName)
    {parameters : List String} (hparameters : ∀ name ∈ parameters, IsPlainVariable name) {shape : Shape}
    (hshape : shape.IsPlain) {functions : List Function} (h : context.functions parameters shape = .ok functions) :
    functions ≠ [] ∧ ∀ function ∈ functions, function.Readable := by
  have hsingle : ∀ {body : Body}, body.Readable →
      [decoderFunction context.displayName parameters body] ≠ [] ∧
        ∀ function ∈ [decoderFunction context.displayName parameters body], function.Readable := fun hbody =>
    ⟨List.cons_ne_nil _ _, List.forall_mem_singleton.mpr (readable_decoderFunction hname.identifier hparameters hbody)⟩
  cases shape with
  | «alias» p =>
    obtain ⟨body, hbody, h⟩ := bind_eq_ok.mp h
    cases h
    exact hsingle (hmodules.readable_aliasDecoder hshape hbody)
  | record fields =>
    obtain ⟨function, hfunction, h⟩ := bind_eq_ok.mp h
    cases h
    exact ⟨List.cons_ne_nil _ _, List.forall_mem_singleton.mpr
      (hmodules.readable_recordFunction hname hparameters hshape.1 hshape.2 hfunction)⟩
  | single constructor =>
    obtain ⟨body, hbody, h⟩ := bind_eq_ok.mp h
    cases h
    exact hsingle (hmodules.readable_singleDecoder hshape hbody)
  | sum constructors =>
    obtain ⟨arms, harms, h⟩ := bind_eq_ok.mp h
    cases h
    refine hsingle (readable_dispatch _ fun arm hmem => ?_)
    obtain ⟨constructor, hconstructor, harm⟩ := exists_of_mapM_eq_ok harms hmem
    exact hmodules.readable_constructorArm (hshape constructor hconstructor) harm
  | enumeration tags =>
    cases h
    exact hsingle (readable_enumerationDecoder context _ hshape)
  | sumOfRecords records =>
    obtain ⟨hoisted, hhoisted, h⟩ := bind_eq_ok.mp h
    cases h
    refine ⟨List.append_ne_nil_of_right_ne_nil _ (List.cons_ne_nil _ _), ?_⟩
    refine List.forall_mem_append.mpr ⟨fun function hmem => ?_, (hsingle (readable_dispatch _ fun arm hmem => ?_)).2⟩
    · obtain ⟨record, hrecord, hfunction⟩ := exists_of_mapM_eq_ok hhoisted hmem
      have hplain := hshape record hrecord
      exact hmodules.readable_recordFunction hplain.displayName hplain.parameters hplain.nonempty hplain.fields hfunction
    · obtain ⟨record, hrecord, rfl⟩ := List.mem_map.mp hmem
      exact readable_hoistedArm context _ (hshape record hrecord)

end Context

end TypeScribe
