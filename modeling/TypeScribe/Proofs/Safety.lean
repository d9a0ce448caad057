import TypeScribe.Proofs.Acceptance
import TypeScribe.Proofs.Containment
import TypeScribe.Proofs.Conversion
import TypeScribe.Proofs.Functions

/-!
# No exception leaves a decoder

Every decoder of a descriptor keeps to the discipline of `Contained`, whatever its shape and its types. So it ends with a
value or with a message for every JSON value, in every lawful world.
-/

namespace TypeScribe
open Ocaml (Path Term Pattern Clause Body Function)

/-! ## Variables -/

namespace Decoder

theorem slot_ne {name : String} (h : name.toList.head? ≠ some 'v') (i : Nat) : slot i ≠ name := by
  rintro rfl
  simp [slot] at h

theorem not_isFunctionName_slot (i : Nat) : ¬ IsFunctionName (slot i) := by
  rintro (⟨rest, h⟩ | h | h)
  · simp [slot] at h
  · exact slot_ne (by decide) i h
  · exact slot_ne (by decide) i h

end Decoder

open Decoder (slot slot_ne not_isFunctionName_slot)

namespace Scope

/-- The scope in which a JSON value is read: the first `count` values read so far are in it. -/
structure Reads (scope : Scope) (count : Nat) : Prop where
  clear : scope.Clear
  json : scope.lookup "json" = some .json
  slots : ∀ i < count, ∃ type, scope.lookup (slot i) = some type

theorem reads_json : Reads [("json", .json)] 0 where
  clear := clear_json
  json := rfl
  slots i hi := absurd hi (Nat.not_lt_zero i)

theorem lookup_cons_of_ne {scope : Scope} {name name' : String} (h : name' ≠ name) (type : Ty) :
    List.lookup name' ((name, type) :: scope) = scope.lookup name' := by
  rw [List.lookup_cons, beq_false_of_ne h]

theorem exists_lookup_cons {scope : Scope} {name : String} (h : ∃ type, scope.lookup name = some type)
    (binding : String × Ty) : ∃ type, List.lookup name (binding :: scope) = some type := by
  rw [List.lookup_cons]
  split
  · exact ⟨_, rfl⟩
  · exact h

theorem Reads.slot {scope : Scope} {count : Nat} (h : scope.Reads count) (type : Ty) :
    Reads ((Decoder.slot count, type) :: scope) (count + 1) where
  clear := h.clear.cons (not_isFunctionName_slot count) type
  json := by
    rw [lookup_cons_of_ne (slot_ne (by decide) count).symm]
    exact h.json
  slots i hi := by
    rcases Nat.lt_succ_iff_lt_or_eq.mp hi with hi | rfl
    · exact exists_lookup_cons (h.slots i hi) _
    · exact ⟨type, List.lookup_cons_self⟩

theorem Reads.items {scope : Scope} {count : Nat} (h : scope.Reads count) (length : Option Nat) :
    Reads (("items", .items length) :: scope) count where
  clear := h.clear.cons (by decide) _
  json := by
    rw [lookup_cons_of_ne (by decide)]
    exact h.json
  slots i hi := exists_lookup_cons (h.slots i hi) _

end Scope

/-! ## What bodies read -/

section Reads

variable {scope : Scope} {count : Nat} {context : Context}

theorem Scope.Reads.typed_json (h : scope.Reads count) : Typed scope (.var "json") .silent .json := .var h.json

theorem shows_of_modules {path : Path} (h : path.modules ≠ []) : scope.Shows path := fun hnil => absurd hnil h

theorem Context.typed_raising {value : Value} {term : Term} (h : context.raising value = .ok term) :
    ∃ type, Typed [] term .silent (Convention.raising.decoderOf type) := by
  obtain ⟨converter, hconverter, hterm⟩ := bind_eq_ok.mp h
  cases hterm
  have hagree : Agree (fun _ _ => True) (context.typeExpr value.fieldType) (context.converter value.fieldType) :=
    agree_walks (fun _ _ _ => trivial) value (.inr fun _ _ => trivial)
  obtain ⟨type, htype⟩ := hagree.succeeds_iff.mpr ⟨converter, hconverter⟩
  exact ⟨type, ((decodesDeclared value htype hconverter).adapt .raising).isDecoder.typed⟩

theorem typed_onJson {decoder : Term} {type : Ty} (hreads : scope.Reads count)
    (h : Typed [] decoder .silent (.decoder .raising type)) : Typed scope (Runtime.onJson decoder) .raising type :=
  .run (h.weaken hreads.clear.within) hreads.typed_json

theorem typed_fieldOf {decoder : Term} {type : Ty} (hreads : scope.Reads count) (key : String)
    (h : Typed [] decoder .silent (.decoder .raising type)) :
    Typed scope (Decoder.fieldOf key decoder) .raising type := by
  have hdecoder := h.weaken hreads.clear.within
  exact .read_of_forall₂ [.text key, decoder] (shows_of_modules (by decide)) .field
    (.cons (.text key) (.cons hdecoder .nil)) hreads.typed_json

theorem typed_elements : Typed [] Decoder.elements .silent (.decoder .raising (.items none)) :=
  .call_of_forall₂ (shows_nil _) .array (.cons (.lambda (.var rfl)) .nil)

theorem Context.typed_fieldRead {key : String} {value : Value} {read : Term} (h : context.fieldRead key value = .ok read)
    (hreads : scope.Reads count) : ∃ type, Typed scope read .raising type := by
  unfold fieldRead at h
  split at h
  · next item hitem =>
    obtain ⟨inner, -, rfl⟩ := Value.eq_of_fieldType_option hitem
    obtain ⟨converter, hconverter, hread⟩ := bind_eq_ok.mp h
    cases hread
    obtain ⟨type, htyped⟩ := typed_raising (bind_eq_ok.mpr ⟨converter, hconverter, rfl⟩)
    have hdecoder := htyped.weaken hreads.clear.within
    have hfield : Typed scope (.apply (Runtime.decode "field") [.text key, converter.adapt .raising]) .silent
        (Convention.raising.decoderOf type) :=
      .call_of_forall₂ (shows_of_modules (by decide)) .field (.cons (.text key) (.cons hdecoder .nil))
    exact ⟨_, .read_of_forall₂ [_] (shows_of_modules (by decide)) (@Signature.optional type) (.cons hfield .nil)
      hreads.typed_json⟩
  · obtain ⟨term, hterm, hread⟩ := bind_eq_ok.mp h
    cases hread
    obtain ⟨type, htyped⟩ := typed_raising (bind_eq_ok.mpr ⟨term, hterm, rfl⟩)
    exact ⟨_, typed_fieldOf hreads key htyped⟩

end Reads

/-! ## Records -/

namespace Context

variable {context : Context}

theorem contained_readFields {decoder : String} {last body : Body} {fields : List RecordField} {scope : Scope} {i : Nat}
    (h : context.readFields decoder last i fields = .ok body) (hreads : scope.Reads i)
    (hlast : ∀ scope : Scope, scope.Reads (i + fields.length) → Contained scope last) : Contained scope body := by
  induction fields generalizing i scope body with
  | nil =>
    cases h
    exact hlast scope hreads
  | cons field rest ih =>
    rw [readFields] at h
    obtain ⟨read, hread, h⟩ := bind_eq_ok.mp h
    obtain ⟨next, hnext, h⟩ := bind_eq_ok.mp h
    cases h
    obtain ⟨type, htyped⟩ := typed_fieldRead hread hreads
    refine .attempt htyped (ih hnext (hreads.slot type) fun scope hscope => hlast scope ?_)
    rw [List.length_cons, show i + (rest.length + 1) = i + 1 + rest.length by omega]
    exact hscope

theorem contained_recordDecoder {decoder : String} {type : Ocaml.TypeExpr} {fields : List RecordField} {body : Body}
    (h : context.recordDecoder decoder type fields = .ok body) : Contained [("json", .json)] body := by
  refine contained_readFields h Scope.reads_json fun scope hreads => .value (.ok (.record ?_))
  intro field hmem
  obtain ⟨i, hi, rfl⟩ := List.mem_mapIdx.mp hmem
  exact hreads.slots i (by omega)

end Context

/-! ## Constructors -/

theorem built_constructed {scope : Scope} {arity : Nat} (hreads : scope.Reads arity) (name : String) :
    Built scope (Decoder.constructed name arity) := by
  refine .construct fun argument hmem => ?_
  obtain ⟨i, hi, rfl⟩ := List.mem_map.mp hmem
  obtain ⟨type, hlookup⟩ := hreads.slots i (List.mem_range.mp hi)
  exact .var hlookup

namespace Context

variable {context : Context} {body : Body}

theorem contained_readElements {place : String} {last : Body} {arguments : List Value} {scope : Scope} {i length : Nat}
    (h : context.readElements place last i arguments = .ok body) (hreads : scope.Reads i)
    (hitems : scope.lookup "items" = some (.items (some length))) (hlength : i + arguments.length = length)
    (hlast : ∀ scope : Scope, scope.Reads length → Contained scope last) : Contained scope body := by
  induction arguments generalizing i scope body with
  | nil =>
    cases h
    exact hlast scope (hlength ▸ hreads)
  | cons argument rest ih =>
    rw [readElements] at h
    obtain ⟨decoder, hdecoder, h⟩ := bind_eq_ok.mp h
    obtain ⟨next, hnext, h⟩ := bind_eq_ok.mp h
    cases h
    rw [List.length_cons] at hlength
    obtain ⟨type, htyped⟩ := typed_raising hdecoder
    have helement : Typed scope (.element "items" i) .silent .json := .element hitems (by omega)
    refine .attempt (.run (htyped.weaken hreads.clear.within) helement) (ih hnext (hreads.slot _) ?_ (by omega))
    rw [Scope.lookup_cons_of_ne (slot_ne (by decide) i).symm]
    exact hitems

theorem contained_positionalDecoder {source : Term} {place : String} {constructor : Positional}
    (h : context.positionalDecoder source place constructor = .ok body)
    (hsource : Typed [("json", .json)] source .raising (.items none)) : Contained [("json", .json)] body := by
  obtain ⟨next, hnext, h⟩ := bind_eq_ok.mp h
  cases h
  refine .measure hsource ?_ (contained_readElements hnext (Scope.reads_json.items _) rfl (Nat.zero_add _) ?_)
  · have hlength : Typed [("items", .items none), ("json", .json)] (Runtime.arrayLength "items") .silent .number :=
      .call_of_forall₂ (shows_of_modules (by decide)) .arrayLength (.cons (.var rfl) .nil)
    have hshows : ∀ name, IsFunctionName name → Scope.Shows [("items", .items none), ("json", .json)] ⟨[], name⟩ :=
      fun name hname _ => (Scope.reads_json.items none).clear name hname
    have hshortest : Typed [("items", .items none), ("json", .json)]
        (.apply (.var "min") [Runtime.arrayLength "items", .number constructor.arguments.length]) .silent .number :=
      .call_of_forall₂ (hshows _ (.inr (.inl rfl))) .min (.cons hlength (.cons (.number _) .nil))
    exact .concat (.text _) (.concat
      (.call_of_forall₂ (hshows _ (.inr (.inr rfl))) .stringOfInt (.cons hshortest .nil)) (.text _))
  · exact fun scope hreads => .value (.ok (built_constructed hreads _))

theorem contained_argumentDecoder {read : Term → Term} {place name : String} {argument : Value}
    (h : context.argumentDecoder read place name argument = .ok body)
    (hread : ∀ {decoder type}, Typed [] decoder .silent (Ty.decoder .raising type) →
      Typed [("json", .json)] (read decoder) .raising type) : Contained [("json", .json)] body := by
  obtain ⟨decoder, hdecoder, h⟩ := bind_eq_ok.mp h
  cases h
  obtain ⟨type, htyped⟩ := typed_raising hdecoder
  exact .attempt (hread htyped) (.value (.ok (built_constructed (Scope.reads_json.slot _) _)))

theorem contained_emptyArray (decoder name : String) :
    Contained [("json", .json)] (Decoder.emptyArray decoder name) := by
  have hread : Typed [("json", .json)] (Runtime.onJson (.path ⟨["Js", "Json"], "decodeArray"⟩)) .silent
      (.option (.items none)) :=
    .run (.path (shows_of_modules (by decide)) .decodeArray) (.var rfl)
  refine .choose hread nofun ?_ ?_ ?_
  · simp [Pattern.scope?]
  · rintro v (rfl | ⟨w, rfl, documents, rfl, -⟩)
    · exact ⟨_, .tail _ (.head _), rfl⟩
    · cases documents with
      | nil => exact ⟨_, .head _, rfl⟩
      | cons document rest => exact ⟨_, .tail _ (.head _), rfl⟩
  · intro arm hmem bound hbound
    simp only [List.mem_cons, List.not_mem_nil, or_false] at hmem
    rcases hmem with rfl | rfl
    · cases hbound
      exact .value (.ok (.construct fun argument hmem => by cases hmem))
    · cases hbound
      exact .value (.error (.text _))

theorem contained_singleDecoder {decoder : String} {constructor : Positional}
    (h : context.singleDecoder decoder constructor = .ok body) : Contained [("json", .json)] body := by
  unfold singleDecoder at h
  split at h
  · cases h
    exact contained_emptyArray decoder constructor.name
  · exact contained_argumentDecoder h (typed_onJson Scope.reads_json)
  · exact contained_positionalDecoder h (typed_onJson Scope.reads_json typed_elements)

theorem contained_contentsDecoder {decoder : String} {constructor : Positional}
    (h : context.contentsDecoder decoder constructor = .ok body) : Contained [("json", .json)] body := by
  unfold contentsDecoder at h
  split at h
  · cases h
    exact .value (.ok (built_constructed Scope.reads_json _))
  · exact contained_argumentDecoder h (typed_fieldOf Scope.reads_json _)
  · exact contained_positionalDecoder h (typed_fieldOf Scope.reads_json _ typed_elements)

/-! ## Sums -/

theorem contained_dispatch {decoder : String} {arms : List (Clause × Body)}
    (h : ∀ arm ∈ arms, (∃ tag, arm.1 = ⟨.text tag, none⟩) ∧ Contained [("json", .json)] arm.2) :
    Contained [("json", .json)] (Decoder.dispatch decoder arms) := by
  have hread : Typed [("json", .json)] (Decoder.fieldOf tagKey (Runtime.decode "string")) .raising .text :=
    typed_fieldOf Scope.reads_json _ (.path (shows_nil _) .text)
  refine .choose hread (fun _ => ⟨decoder ++ ": ", rfl⟩) ?_ ?_ ?_
  · intro arm hmem
    rcases List.mem_cons.mp hmem with rfl | hmem
    · exact ⟨rfl, rfl⟩
    · rcases List.mem_append.mp hmem with hmem | hmem
      · obtain ⟨⟨tag, htag⟩, -⟩ := h arm hmem
        rw [htag]
        exact ⟨rfl, rfl⟩
      · rw [List.mem_singleton.mp hmem]
        exact ⟨rfl, rfl⟩
  · intro v hv
    exact ⟨_, List.mem_cons_of_mem _ (List.mem_append_right _ (List.mem_singleton_self _)), rfl⟩
  · intro arm hmem bound hbound
    rcases List.mem_cons.mp hmem with rfl | hmem
    · cases hbound
      exact .value (.error (.concat (.text _) (.var rfl)))
    · rcases List.mem_append.mp hmem with hmem | hmem
      · obtain ⟨⟨tag, htag⟩, hcontained⟩ := h arm hmem
        rw [htag] at hbound
        cases hbound
        exact hcontained
      · rw [List.mem_singleton.mp hmem] at hbound ⊢
        cases hbound
        exact .value (.error (.concat (.text _) (.concat (.var rfl) (.text _))))

theorem contained_constructorArm {decoder : String} {constructor : Positional} {arm : Clause × Body}
    (h : context.constructorArm decoder constructor = .ok arm) :
    (∃ tag, arm.1 = ⟨.text tag, none⟩) ∧ Contained [("json", .json)] arm.2 := by
  obtain ⟨body, hbody, h⟩ := bind_eq_ok.mp h
  cases h
  exact ⟨⟨_, rfl⟩, contained_contentsDecoder hbody⟩

theorem typed_decoderCall (record : HoistedRecord) :
    ∃ type, Typed [("json", .json)] record.decoderCall .silent (.report type) := by
  have hshows : ∀ name, IsFunctionName name → Scope.Shows [("json", .json)] ⟨[], name⟩ :=
    fun name hname _ => clear_json name hname
  have hparameters : List.Forall₂ (fun argument type => Typed [("json", .json)] argument .silent type)
      (record.parameters.map fun parameter => .var (Ocaml.decoderParameter parameter))
      ((record.parameters.map fun parameter => .var (Ocaml.variableName parameter)).map
        Convention.returning.decoderOf) := by
    rw [List.map_map, List.forall₂_map_left_iff, List.forall₂_map_right_iff, List.forall₂_same]
    exact fun parameter _ => .path (hshows _ (.inl (isDecoderName_decoderParameter parameter))) .parameter
  exact ⟨_, .read_of_forall₂ _ (hshows _ (.inl (isDecoderName_decoderName _))) .sibling hparameters (.var rfl)⟩

theorem contained_hoistedArm (context : Context) (decoder : String) (record : HoistedRecord) :
    (∃ tag, (context.hoistedArm decoder record).1 = ⟨.text tag, none⟩) ∧
      Contained [("json", .json)] (context.hoistedArm decoder record).2 := by
  refine ⟨⟨_, rfl⟩, ?_⟩
  obtain ⟨type, hcall⟩ := typed_decoderCall record
  refine .choose hcall nofun ?_ ?_ ?_
  · simp [Pattern.scope?, Runtime.okPath, Runtime.errorPath]
  · rintro v (⟨w, rfl, -⟩ | ⟨message, rfl⟩)
    · exact ⟨_, .head _, rfl⟩
    · exact ⟨_, .tail _ (.head _), rfl⟩
  · intro arm hmem bound hbound
    simp only [List.mem_cons, List.not_mem_nil, or_false] at hmem
    rcases hmem with rfl | rfl
    · cases hbound
      exact .value (.ok (.construct fun argument hmem => by cases List.mem_singleton.mp hmem; exact .var rfl))
    · cases hbound
      exact .value (.error (.concat (.text _) (.var rfl)))

/-! ## Whole decoders -/

theorem contained_enumerationDecoder (context : Context) (decoder : String) (tags : List String) :
    Contained [("json", .json)] (context.enumerationDecoder decoder tags) := by
  unfold enumerationDecoder
  split
  · exact contained_emptyArray decoder _
  · have hread : Typed [("json", .json)] (Runtime.onJson (.path ⟨["Js", "Json"], "decodeString"⟩)) .silent
        (.option .text) :=
      .run (.path (shows_of_modules (by decide)) .decodeString) (.var rfl)
    refine .choose hread nofun ?_ ?_ ?_
    · intro arm hmem
      rcases List.mem_append.mp hmem with hmem | hmem
      · obtain ⟨tag, -, rfl⟩ := List.mem_map.mp hmem
        exact ⟨rfl, rfl⟩
      · simp only [List.mem_cons, List.not_mem_nil, or_false] at hmem
        rcases hmem with rfl | rfl <;> exact ⟨rfl, rfl⟩
    · rintro v (rfl | ⟨w, rfl, hw⟩)
      · exact ⟨_, List.mem_append_right _ (.tail _ (.head _)), rfl⟩
      · exact ⟨_, List.mem_append_right _ (.head _), rfl⟩
    · intro arm hmem bound hbound
      rcases List.mem_append.mp hmem with hmem | hmem
      · obtain ⟨tag, -, rfl⟩ := List.mem_map.mp hmem
        cases hbound
        exact .value (.ok (built_constructed Scope.reads_json _))
      · simp only [List.mem_cons, List.not_mem_nil, or_false] at hmem
        rcases hmem with rfl | rfl
        · cases hbound
          exact .value (.error (.concat (.text _) (.concat (.var rfl) (.text _))))
        · cases hbound
          exact .value (.error (.text _))

theorem contained_aliasDecoder {decoder : String} {p : Primitive} (h : context.aliasDecoder decoder p = .ok body) :
    Contained [("json", .json)] body := by
  obtain ⟨converter, hconverter, h⟩ := bind_eq_ok.mp h
  cases h
  have hraising : context.raising (.primitive p) = .ok (converter.adapt .raising) :=
    bind_eq_ok.mpr ⟨converter, hconverter, rfl⟩
  obtain ⟨type, htyped⟩ := typed_raising hraising
  exact .attempt (typed_onJson Scope.reads_json htyped) (.value (.ok (.var rfl)))

/-- The function is the decoder of a type, and no exception leaves it. -/
def IsContained (function : Function) : Prop :=
  ∃ displayName parameters body, function = decoderFunction displayName parameters body ∧
    Contained [("json", .json)] body

theorem Makes.contained {body : Body} (h : context.Makes body) : Contained [("json", .json)] body := by
  cases h with
  | «alias» h => exact contained_aliasDecoder h
  | record h => exact contained_recordDecoder h
  | single h => exact contained_singleDecoder h
  | sum harms =>
    refine contained_dispatch fun arm hmem => ?_
    obtain ⟨constructor, -, harm⟩ := exists_of_mapM_eq_ok harms hmem
    exact contained_constructorArm harm
  | enumeration decoder tags => exact contained_enumerationDecoder context decoder tags
  | sumOfRecords decoder records =>
    refine contained_dispatch fun arm hmem => ?_
    obtain ⟨record, -, rfl⟩ := List.mem_map.mp hmem
    exact contained_hoistedArm context decoder record

theorem contained_functions {parameters : List String} {shape : Shape} {functions : List Function}
    (h : context.functions parameters shape = .ok functions) : ∀ function ∈ functions, IsContained function := by
  intro function hmem
  obtain ⟨displayName, parameters, body, rfl, hbody⟩ := makesFunction_of_mem h function hmem
  exact ⟨displayName, parameters, body, rfl, hbody.contained⟩

end Context

/-! ## Functions -/

/-- The value is a decoder that returns a result for every JSON value. -/
def Val.IsReturning (v : Val) : Prop :=
  ∃ run, v = .decoder run ∧ ∀ document, (run document).Fits .silent Val.IsReport

theorem Val.IsReturning.holds {v : Val} (h : v.IsReturning) (type : Ocaml.TypeExpr) :
    (Convention.returning.decoderOf type).Holds v ∧ (Ty.decoder .silent (.report (.data type))).Holds v := by
  obtain ⟨run, rfl, hrun⟩ := h
  refine ⟨⟨run, rfl, fun document => ?_⟩, run, rfl, fun document => ?_⟩
  · obtain ⟨_, hv, ⟨w, rfl⟩ | ⟨message, rfl⟩⟩ := (hrun document).exists_value
    · exact hv ▸ ⟨_, _, rfl⟩
    · exact hv ▸ ⟨_, _, rfl⟩
  · obtain ⟨_, hv, ⟨w, rfl⟩ | ⟨message, rfl⟩⟩ := (hrun document).exists_value
    · exact hv ▸ .inl ⟨w, rfl, trivial⟩
    · exact hv ▸ .inr ⟨message, rfl⟩

/-- A decoder that returns results may stand for any decoder of the module at hand that takes no other decoder. -/
theorem Signature.fits_of_isReturning {path : Path} {effect : Effect} {type : Ty} {v : Val}
    (h : Signature path [] effect type) (hmodules : path.modules = []) (hname : IsDecoderName path.name)
    (hv : v.IsReturning) : (Ending.value v).Fits effect type.Holds := by
  generalize htypes : ([] : List Ty) = types at h
  cases h with
  | generated | parameter => exact (hv.holds _).1
  | sibling => exact (hv.holds _).2
  | min | stringOfInt => cases htypes
  | _ => cases hmodules

/-- A world stays lawful if decoders of type parameters return results. -/
theorem World.Lawful.withParameters {world : World} (h : world.Lawful) {parameters : List (String × Val)}
    (hparameters : ∀ parameter ∈ parameters, IsDecoderName parameter.1 ∧ parameter.2.IsReturning) :
    (world.withParameters parameters).Lawful where
  signature {path types effect type values} hsignature hvalues := by
    unfold World.withParameters
    split
    · next v hparameter =>
      cases hvalues
      unfold Locals.get? at hparameter
      split at hparameter
      · obtain ⟨front, back, rfl, -⟩ := List.lookup_eq_some_iff.mp hparameter
        obtain ⟨hname, hv⟩ := hparameters _ (List.mem_append_right front (List.mem_cons_self))
        exact hsignature.fits_of_isReturning ‹_› hname hv
      · cases hparameter
    · exact h.signature hsignature hvalues
  arrayLength := h.arrayLength

/-- The arguments of a decoder other than its JSON value are decoders that return results. -/
theorem decoderFunction_returning {displayName : String} {parameters : List String} {body : Body}
    {arguments : List Val} (hlength : arguments.length + 1 = (decoderFunction displayName parameters body).parameters.length)
    (h : ∀ argument ∈ arguments, argument.IsReturning) :
    ∀ parameter ∈ (decoderFunction displayName parameters body).parameters.zip arguments,
      IsDecoderName parameter.1 ∧ parameter.2.IsReturning := by
  intro parameter hmem
  have hlengths : (parameters.map Ocaml.decoderParameter).length = arguments.length := by
    simpa [decoderFunction] using hlength.symm
  have hzip : (parameters.map Ocaml.decoderParameter ++ ["json"]).zip (arguments ++ []) =
      (parameters.map Ocaml.decoderParameter).zip arguments ++ ["json"].zip [] := List.zip_append hlengths
  rw [List.append_nil, List.zip_nil_right, List.append_nil] at hzip
  rw [decoderFunction, hzip] at hmem
  obtain ⟨hname, hargument⟩ := List.of_mem_zip hmem
  obtain ⟨name, -, hname⟩ := List.mem_map.mp hname
  rw [← hname]
  exact ⟨isDecoderName_decoderParameter name, h _ hargument⟩

namespace Descriptor

/-- A decoder that is rendered is the text of functions that no exception leaves. For every JSON value, each ends with a
value or with a message, whatever the functions that it calls give as long as they keep to their types, and whatever
results the decoders of its parameters return. -/
theorem decoder_reports {descriptor : Descriptor} {options : Options} {text : String}
    (h : descriptor.renderDecoder options = .ok text) :
    ∃ group, descriptor.decoder options = .ok group ∧ text = Ocaml.source group.functionLines ∧
      ∀ function ∈ group.items, Contained [("json", .json)] function.body ∧
        ∀ world arguments document, World.Lawful world → arguments.length + 1 = function.parameters.length →
          (∀ argument ∈ arguments, argument.IsReturning) →
          ∃ v, function.run world arguments document = .value v ∧ v.IsReport := by
  obtain ⟨group, hgroup, htext⟩ := renderDecoder_eq_ok.mp h
  refine ⟨group, hgroup, htext.symm, fun function hmem => ?_⟩
  obtain ⟨shape, -, -, hfunctions⟩ := decoder_eq_ok.mp hgroup
  obtain ⟨displayName, parameters, body, rfl, hcontained⟩ := Context.contained_functions hfunctions function hmem
  refine ⟨hcontained, fun world arguments document hworld hlength harguments => ?_⟩
  refine (hcontained.sound (hworld.withParameters ?_) ?_).exists_value
  · exact decoderFunction_returning hlength harguments
  · exact .cons ⟨rfl, document, rfl⟩ .nil

end Descriptor

/-! ## A world that refuses everything -/

def refusal (message : String) : Val := .construct Runtime.errorPath [.text message]

/-- The world in which every decoder fails with the same message. -/
def World.refusing (message : String) : World := fun path arguments =>
  if path.modules = ["Js", "Json"] then .value (.decoder fun _ => .value (.construct Runtime.nonePath []))
  else if IsDecoderName path.name ∨ path.name = "wrapResult" then .value (.decoder fun _ => .value (refusal message))
  else match path.name, arguments with
    | "length", [.items documents] => .value (.number documents.length)
    | "min", [.number m, .number n] => .value (.number (min m n))
    | "string_of_int", [.number n] => .value (.text (toString n))
    | "unwrapResult", _ => .raised message
    | _, _ => .value (.decoder fun _ => .raised message)

theorem isReturning_refusal (message : String) : (Val.decoder fun _ => .value (refusal message)).IsReturning :=
  ⟨_, rfl, fun _ => .inr ⟨message, rfl⟩⟩

theorem World.refusing_returning (message : String) (path : Path) (hmodules : path.modules ≠ ["Js", "Json"])
    (hname : IsDecoderName path.name ∨ path.name = "wrapResult") (values : List Val) :
    World.refusing message path values = .value (.decoder fun _ => .value (refusal message)) := by
  unfold World.refusing
  rw [if_neg hmodules, if_pos hname]

theorem World.fits_refusing (message : String) (path : Path) (hname : IsDecoderName path.name) (type : Ocaml.TypeExpr)
    (values : List Val) :
    (World.refusing message path values).Fits .silent (Convention.returning.decoderOf type).Holds := by
  by_cases hmodules : path.modules = ["Js", "Json"]
  · unfold World.refusing
    rw [if_pos hmodules]
    exact ⟨_, rfl, fun _ => ⟨_, _, rfl⟩⟩
  · rw [World.refusing_returning message path hmodules (.inl hname)]
    exact ((isReturning_refusal message).holds type).1

theorem World.lawful_refusing (message : String) : (World.refusing message).Lawful where
  signature {path types effect type values} hsignature hvalues := by
    cases hsignature with
    | basic hmem =>
      simp only [basicDecoders, List.mem_cons, Prod.mk.injEq, List.not_mem_nil, or_false] at hmem
      rcases hmem with ⟨rfl, -⟩ | ⟨rfl, -⟩ | ⟨rfl, -⟩ | ⟨rfl, -⟩ | ⟨rfl, -⟩ | ⟨rfl, -⟩ | ⟨rfl, -⟩ <;>
        exact ⟨_, rfl, fun _ => rfl⟩
    | text | list | optional | either | field | array => exact ⟨_, rfl, fun _ => rfl⟩
    | @tuple types hlower hupper =>
      obtain h | h | h | h | h : types.length = 2 ∨ types.length = 3 ∨ types.length = 4 ∨ types.length = 5 ∨
        types.length = 6 := by omega
      all_goals rw [h]; exact ⟨_, rfl, fun _ => rfl⟩
    | wrapResult =>
      rw [World.refusing_returning message ⟨aesonDecode, "wrapResult"⟩ (by decide) (.inr rfl)]
      exact ((isReturning_refusal message).holds _).1
    | unwrapResult => exact rfl
    | decodeArray | decodeString => exact ⟨_, rfl, fun _ => .inl rfl⟩
    | arrayLength =>
      rcases hvalues with _ | ⟨⟨documents, rfl, -⟩, _ | _⟩
      exact ⟨documents.length, rfl⟩
    | min =>
      rcases hvalues with _ | ⟨⟨m, rfl⟩, _ | ⟨⟨n, rfl⟩, _ | _⟩⟩
      exact ⟨Min.min m n, rfl⟩
    | stringOfInt =>
      rcases hvalues with _ | ⟨⟨n, rfl⟩, _ | _⟩
      exact ⟨toString n, rfl⟩
    | @generated modules name types =>
      exact World.fits_refusing message ⟨modules, Ocaml.decoderName name⟩ (isDecoderName_decoderName name) _ values
    | @sibling name types =>
      rw [World.refusing_returning message ⟨[], Ocaml.decoderName name⟩ (List.cons_ne_nil _ _).symm
        (.inl (isDecoderName_decoderName name))]
      exact ((isReturning_refusal message).holds _).2
    | @parameter name =>
      exact World.fits_refusing message ⟨[], Ocaml.decoderParameter name⟩ (isDecoderName_decoderParameter name) _ values
  arrayLength documents := rfl

def boxOfItems : Descriptor :=
  let box : Identity := ⟨"main", "Types", "Box"⟩
  .ofConstructor box <| .value <| .ofFields "Box" [
    ("inner", .apply box [.parameter "a"]),
    ("items", .primitive (.list (.parameter "a")))]

theorem Descriptor.boxOfItems_reports :
    ∃ group function, boxOfItems.decoder {} = .ok group ∧ function ∈ group.items ∧
      ∃ v, function.run (World.refusing "no") [.decoder fun _ => .value (refusal "no")] .null = .value v ∧ v.IsReport := by
  obtain ⟨group, hgroup, -, h⟩ := decoder_reports (rfl : boxOfItems.renderDecoder {} = .ok _)
  have hfunction : ∃ function ∈ group.items, 2 = function.parameters.length := by
    cases hgroup
    exact ⟨_, .head _, rfl⟩
  obtain ⟨function, hmem, hlength⟩ := hfunction
  refine ⟨group, function, hgroup, hmem, (h function hmem).2 _ _ _ (World.lawful_refusing "no") hlength ?_⟩
  intro argument hargument
  rw [List.mem_singleton.mp hargument]
  exact isReturning_refusal "no"

end TypeScribe
