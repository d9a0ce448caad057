import TypeScribe.Decoder
import TypeScribe.Proofs.Outcome

/-!
# The functions of a shape one by one

Whatever the shape is, each of its functions is the decoder of a type, and its body is made in one of six ways. What
holds of the bodies of all six kinds holds of every function.
-/

namespace TypeScribe
open Ocaml (Clause Body Function)

namespace Context

inductive Makes (context : Context) : Body → Prop where
  | alias {decoder : String} {p : Primitive} {body : Body} :
    context.aliasDecoder decoder p = .ok body → Makes context body
  | record {decoder : String} {type : Ocaml.TypeExpr} {fields : List RecordField} {body : Body} :
    context.recordDecoder decoder type fields = .ok body → Makes context body
  | single {decoder : String} {constructor : Positional} {body : Body} :
    context.singleDecoder decoder constructor = .ok body → Makes context body
  | sum {decoder : String} {constructors : List Positional} {arms : List (Clause × Body)} :
    constructors.mapM (context.constructorArm decoder) = .ok arms → Makes context (Decoder.dispatch decoder arms)
  | enumeration (decoder : String) (tags : List String) : Makes context (context.enumerationDecoder decoder tags)
  | sumOfRecords (decoder : String) (records : List HoistedRecord) :
    Makes context (Decoder.dispatch decoder (records.map (context.hoistedArm decoder)))

/-- The function is the decoder of a type with a body of one of these kinds. -/
def MakesFunction (context : Context) (function : Function) : Prop :=
  ∃ displayName parameters body, function = decoderFunction displayName parameters body ∧ context.Makes body

variable {context : Context}

theorem makesFunction_of_recordFunction {displayName : String} {parameters : List String} {fields : List RecordField}
    {function : Function} (h : context.recordFunction displayName parameters fields = .ok function) :
    context.MakesFunction function := by
  obtain ⟨body, hbody, h⟩ := bind_eq_ok.mp h
  obtain rfl := pure_eq_ok.mp h
  exact ⟨_, _, _, rfl, .record hbody⟩

theorem makesFunction_of_mem {parameters : List String} {shape : Shape} {functions : List Function}
    (h : context.functions parameters shape = .ok functions) :
    ∀ function ∈ functions, context.MakesFunction function := by
  have hown : ∀ {body : Body}, context.Makes body →
      ∀ function ∈ [decoderFunction context.displayName parameters body], context.MakesFunction function :=
    fun hbody => List.forall_mem_singleton.mpr ⟨_, _, _, rfl, hbody⟩
  cases shape with
  | «alias» p =>
    obtain ⟨body, hbody, h⟩ := bind_eq_ok.mp h
    obtain rfl := pure_eq_ok.mp h
    exact hown (.alias hbody)
  | record fields =>
    obtain ⟨function, hfunction, h⟩ := bind_eq_ok.mp h
    obtain rfl := pure_eq_ok.mp h
    exact List.forall_mem_singleton.mpr (makesFunction_of_recordFunction hfunction)
  | single constructor =>
    obtain ⟨body, hbody, h⟩ := bind_eq_ok.mp h
    obtain rfl := pure_eq_ok.mp h
    exact hown (.single hbody)
  | sum constructors =>
    obtain ⟨arms, harms, h⟩ := bind_eq_ok.mp h
    obtain rfl := pure_eq_ok.mp h
    exact hown (.sum harms)
  | enumeration tags =>
    obtain rfl := pure_eq_ok.mp h
    exact hown (.enumeration _ tags)
  | sumOfRecords records =>
    obtain ⟨hoisted, hhoisted, h⟩ := bind_eq_ok.mp h
    obtain rfl := pure_eq_ok.mp h
    refine List.forall_mem_append.mpr ⟨fun function hmem => ?_, hown (.sumOfRecords _ records)⟩
    obtain ⟨record, -, hfunction⟩ := exists_of_mapM_eq_ok hhoisted hmem
    exact makesFunction_of_recordFunction hfunction

end Context

end TypeScribe
