import TypeScribe.Proofs.Acceptance
import TypeScribe.Proofs.Phrases
import TypeScribe.Proofs.ReadBack

/-!
# Interfaces and what they are interfaces of

Declarations, decoders and the types of decoders are rendered one by one from the same descriptor. The heads of its types
are computed from the descriptor alone, and each of the three texts has them in the same order.
-/

namespace TypeScribe
open Ocaml (TypeDefinition Function afterKeyword joined lex readTokens)

/-! ## The types of a descriptor -/

def Constructor.hoistedHeads : Constructor → List TypeHead
  | .sumOfRecords typeName alternatives => alternatives.branches.map fun branch =>
    ⟨Shape.hoistedName typeName branch.name, sortedNames branch.value.parameters⟩
  | _ => []

namespace Descriptor

/-- The types that are declared for a descriptor: its record types if it is a sum of records, and then its own type. -/
def heads (descriptor : Descriptor) : List TypeHead :=
  descriptor.constructor.hoistedHeads ++ [⟨descriptor.displayName, descriptor.parameters⟩]

variable {descriptor : Descriptor} {options : Options}

theorem hoistedHeads_of_classify {shape : Shape} (h : descriptor.classify = .ok shape) :
    shape.hoistedHeads = descriptor.constructor.hoistedHeads := by
  by_cases hsum : ∃ typeName alternatives, descriptor.constructor = .sumOfRecords typeName alternatives
  · obtain ⟨typeName, alternatives, hconstructor⟩ := hsum
    obtain ⟨records, rfl, -, hrecords⟩ := exists_records_of_classify hconstructor h
    rw [hconstructor]
    refine (map_eq_of_forall₂ (hrecords.imp fun branch record hrecord => ?_)).symm
    obtain ⟨value, rfl, hname, -, hparameters⟩ := Shape.hoistedRecord_eq_ok.mp hrecord
    rw [HoistedRecord.head, hname, hparameters]
    rfl
  -- otherwise neither the shape nor the constructor has record types
  · simp only [not_exists] at hsum
    have hplain := ne_sumOfRecords_of_classify hsum h
    have hshape : shape.hoistedHeads = [] := by
      cases shape with
      | sumOfRecords records => exact absurd rfl (hplain records)
      | _ => rfl
    have hown : descriptor.constructor.hoistedHeads = [] := by
      cases hconstructor : descriptor.constructor with
      | sumOfRecords typeName alternatives => exact absurd hconstructor (hsum typeName alternatives)
      | _ => rfl
    rw [hshape, hown]

theorem decoderSpecs_of_classify {shape : Shape} (h : descriptor.classify = .ok shape) :
    descriptor.decoderSpecs =
      .ok (descriptor.heads.map fun head => decoderSpec head.displayName head.parameters) := by
  have hheads := hoistedHeads_of_classify h
  rw [heads, List.map_append, ← hheads, decoderSpecs, h]
  cases shape with
  | sumOfRecords records =>
    rw [Shape.hoistedHeads, List.map_map]
    rfl
  | _ => rfl

theorem renderDecoderSignature_of_classify {shape : Shape} (h : descriptor.classify = .ok shape) :
    descriptor.renderDecoderSignature = .ok (String.join (descriptor.heads.map (·.spec ++ "\n"))) := by
  rw [renderDecoderSignature_of_decoderSpecs (decoderSpecs_of_classify h), List.map_map, heads,
    ← TypeHead.source_specLines]
  rfl

/-! ## Texts in step -/

theorem exists_definitions {declaration : String} (h : descriptor.renderDeclaration options = .ok declaration) :
    ∃ definitions, descriptor.declaration options = .ok ⟨descriptor.references descriptor.identity, definitions⟩ ∧
      List.Forall₂ TypeHead.IsDeclaredBy descriptor.heads definitions ∧
      declaration = joined "type" (if descriptor.references descriptor.identity then "and" else "type")
        (definitions.map fun definition => afterKeyword (TypeDefinition.lines · definition)) := by
  obtain ⟨⟨_, definitions⟩, hgroup, rfl⟩ := renderDeclaration_eq_ok.mp h
  obtain ⟨shape, hshape, rfl, hdefinitions⟩ := declaration_eq_ok.mp hgroup
  have hheads := Context.forall₂_typeDefinitions hdefinitions
  rw [hoistedHeads_of_classify hshape] at hheads
  obtain ⟨hne, hrecords⟩ := Context.isRecord_typeDefinitions hdefinitions
  exact ⟨definitions, hgroup, hheads, Ocaml.source_typeLines hne hrecords⟩

theorem exists_functions {decoder : String} (h : descriptor.renderDecoder options = .ok decoder) :
    ∃ functions, descriptor.decoder options = .ok ⟨descriptor.references descriptor.identity, functions⟩ ∧
      List.Forall₂ TypeHead.IsDecodedBy descriptor.heads functions ∧
      decoder = joined (if descriptor.references descriptor.identity then "let rec" else "let")
        (if descriptor.references descriptor.identity then "and" else "let")
        (functions.map fun function => afterKeyword (Function.lines · function)) := by
  obtain ⟨⟨_, functions⟩, hgroup, rfl⟩ := renderDecoder_eq_ok.mp h
  obtain ⟨shape, hshape, rfl, hfunctions⟩ := decoder_eq_ok.mp hgroup
  have hheads := Context.forall₂_functions hfunctions
  rw [hoistedHeads_of_classify hshape] at hheads
  obtain ⟨hne, hclosed⟩ := Context.isClosed_functions hfunctions
  exact ⟨functions, hgroup, hheads, Ocaml.source_functionLines hne hclosed⟩

/-- Where names are plain, the functions that are read in the text of the decoders are those of the types in order. -/
theorem exists_readFunctions {decoder : String} (hnames : descriptor.HasPlainNames options)
    (h : descriptor.renderDecoder options = .ok decoder) :
    ∃ tokens groups, lex decoder.toList = some tokens ∧ readTokens tokens = some groups ∧
      (groups.flatMap (·.items)).map (fun definition => (definition.name, definition.parameters)) =
        descriptor.heads.map fun head =>
          (Ocaml.decoderName head.displayName, head.parameters.map Ocaml.decoderParameter ++ ["json"]) := by
  obtain ⟨functions, hgroup, hheads, -⟩ := exists_functions h
  obtain ⟨group, hgroup', rfl⟩ := renderDecoder_eq_ok.mp h
  obtain rfl := Except.ok.inj (hgroup.symm.trans hgroup')
  obtain ⟨tokens, hlex, hread⟩ := exists_readTokens hnames hgroup
  refine ⟨tokens, _, hlex, hread, ?_⟩
  rw [Ocaml.DefinitionGroup.flatMap_definitions, List.map_map]
  refine (map_eq_of_forall₂ (hheads.imp fun head function hdecoded => ?_)).symm
  exact congrArg₂ Prod.mk hdecoded.name.symm hdecoded.parameters.symm

theorem succeeds_renderDeclaration (h : Succeeds (descriptor.renderDecoder options)) :
    Succeeds (descriptor.renderDeclaration options) := by
  have hagree : Agree (fun _ _ => True) (descriptor.renderDeclaration options) (descriptor.renderDecoder options) :=
    agree_render (fun _ _ _ => trivial) (.inr fun _ _ => trivial)
  exact hagree.succeeds_iff.mpr h

/-- A type that has decoders has an interface for them and a declaration, and these are in step. For the record types of
a sum of records in the order of its branches and then for the type itself, the text of the decoders has one function
each, that of their interface one line each with the type of this function, and that of the declaration one definition
each of the type which the function decodes. -/
theorem interface_isInStep {decoder : String} (h : descriptor.renderDecoder options = .ok decoder) :
    descriptor.renderDecoderSignature = .ok (String.join (descriptor.heads.map (·.spec ++ "\n"))) ∧
    (∃ functions, descriptor.decoder options = .ok ⟨descriptor.references descriptor.identity, functions⟩ ∧
      List.Forall₂ TypeHead.IsDecodedBy descriptor.heads functions ∧
      decoder = joined (if descriptor.references descriptor.identity then "let rec" else "let")
        (if descriptor.references descriptor.identity then "and" else "let")
        (functions.map fun function => afterKeyword (Function.lines · function))) ∧
    (∃ declaration definitions, descriptor.renderDeclaration options = .ok declaration ∧
      descriptor.declaration options = .ok ⟨descriptor.references descriptor.identity, definitions⟩ ∧
      List.Forall₂ TypeHead.IsDeclaredBy descriptor.heads definitions ∧
      declaration = joined "type" (if descriptor.references descriptor.identity then "and" else "type")
        (definitions.map fun definition => afterKeyword (TypeDefinition.lines · definition))) ∧
    (descriptor.HasPlainNames options → ∃ tokens groups, lex decoder.toList = some tokens ∧
      readTokens tokens = some groups ∧
      (groups.flatMap (·.items)).map (fun definition => (definition.name, definition.parameters)) =
        descriptor.heads.map fun head =>
          (Ocaml.decoderName head.displayName, head.parameters.map Ocaml.decoderParameter ++ ["json"])) := by
  obtain ⟨group, hgroup, -⟩ := renderDecoder_eq_ok.mp h
  obtain ⟨shape, hshape, -⟩ := decoder_eq_ok.mp hgroup
  obtain ⟨declaration, hdeclaration⟩ := succeeds_renderDeclaration ⟨decoder, h⟩
  obtain ⟨definitions, hdefinitions⟩ := exists_definitions hdeclaration
  exact ⟨renderDecoderSignature_of_classify hshape, exists_functions h,
    ⟨declaration, definitions, hdeclaration, hdefinitions⟩, fun hnames => exists_readFunctions hnames h⟩

end Descriptor

def payment : Descriptor :=
  let type : Identity := ⟨"main", "Types", "Payment"⟩
  .ofConstructor type <| .sumOfRecords "Payment" <| .multiple [
    .ofFields "Cash" [("amount", .primitive (.scalar .int))],
    .ofFields "Transfer" [("reference", .parameter "a"), ("previous", .apply type [.parameter "a"])]]

theorem hasPlainNames_payment : payment.HasPlainNames {} where
  displayName := ⟨by decide, by decide⟩
  typeName := by
    rintro typeName alternatives h
    cases h
    decide
  constructors := by decide
  modules := nofun
  values part hpart := by
    have hparameter : IsPlainVariable "a" := ⟨by decide, by decide, by decide⟩
    obtain ⟨whole, hwhole, hoccurs⟩ := hpart
    have hwhole : whole ∈ [.field "amount" _, .product (.field "reference" _) (.field "previous" _)] := hwhole
    rcases List.mem_cons.mp hwhole with rfl | hwhole
    · cases hoccurs with
      | self => exact (⟨by decide, by decide⟩ : IsPlain "amount")
      | field hvalue =>
        cases hvalue with
        | self => trivial
        | component hmem => cases hmem
    rw [List.mem_singleton.mp hwhole] at hoccurs
    cases hoccurs with
    | self => trivial
    | productLeft hleft =>
      cases hleft with
      | self => exact (⟨by decide, by decide⟩ : IsPlain "reference")
      | field hvalue =>
        cases hvalue
        exact hparameter
    | productRight hright =>
      cases hright with
      | self => exact (⟨by decide, by decide⟩ : IsPlain "previous")
      | field hvalue =>
        cases hvalue with
        | self => exact (by decide : IsIdentifier "Payment")
        | argument hargument =>
          cases hargument
          exact hparameter

theorem Descriptor.payment_isInStep :
    payment.heads = [⟨"PaymentCash", []⟩, ⟨"PaymentTransfer", ["a"]⟩, ⟨"Payment", ["a"]⟩] ∧
    payment.renderDecoderSignature = .ok (
      "val decodePaymentCash : Js.Json.t -> (paymentCash, string) Belt.Result.t\n" ++
      "val decodePaymentTransfer : (Js.Json.t -> ('a, string) Belt.Result.t) -> Js.Json.t -> " ++
      "('a paymentTransfer, string) Belt.Result.t\n" ++
      "val decodePayment : (Js.Json.t -> ('a, string) Belt.Result.t) -> Js.Json.t -> " ++
      "('a payment, string) Belt.Result.t\n") ∧
    (∃ cash transfer own, payment.renderDecoder {} = .ok (joined "let rec" "and" [
      " decodePaymentCash json =" ++ cash, " decodePaymentTransfer decode_a json =" ++ transfer,
      " decodePayment decode_a json =" ++ own])) ∧
    (∃ cash transfer own, payment.renderDeclaration {} = .ok (joined "type" "and" [
      " paymentCash =" ++ cash, " 'a paymentTransfer =" ++ transfer, " 'a payment =" ++ own])) ∧
    ∃ decoder tokens groups, payment.renderDecoder {} = .ok decoder ∧ lex decoder.toList = some tokens ∧
      readTokens tokens = some groups ∧
      (groups.flatMap (·.items)).map (fun definition => (definition.name, definition.parameters)) = [
        ("decodePaymentCash", ["json"]), ("decodePaymentTransfer", ["decode_a", "json"]),
        ("decodePayment", ["decode_a", "json"])] := by
  obtain ⟨decoder, hdecoder⟩ : ∃ decoder, payment.renderDecoder {} = .ok decoder := ⟨_, rfl⟩
  obtain ⟨hsignature, ⟨functions, -, hfunctions, htext⟩, ⟨declaration, definitions, hdeclaration, -, hdefinitions, htext'⟩,
    hread⟩ := interface_isInStep hdecoder
  have hheads : payment.heads = [⟨"PaymentCash", []⟩, ⟨"PaymentTransfer", ["a"]⟩, ⟨"Payment", ["a"]⟩] := rfl
  rw [hheads] at hsignature hfunctions hdefinitions
  obtain _ | ⟨⟨-, -, cash, hcash⟩, _ | ⟨⟨-, -, transfer, htransfer⟩, _ | ⟨⟨-, -, own, hown⟩, ⟨⟩⟩⟩⟩ := hfunctions
  obtain _ | ⟨⟨-, cash', hcash'⟩, _ | ⟨⟨-, transfer', htransfer'⟩, _ | ⟨⟨-, own', hown'⟩, ⟨⟩⟩⟩⟩ := hdefinitions
  obtain ⟨tokens, groups, hlex, hgroups, hitems⟩ := hread hasPlainNames_payment
  refine ⟨hheads, hsignature.trans (congrArg Except.ok (by decide +kernel)), ⟨cash, transfer, own, ?_⟩,
    ⟨cash', transfer', own', ?_⟩, decoder, tokens, groups, hdecoder, hlex, hgroups, hitems⟩
  · simp only [List.map_cons, List.map_nil, hcash, htransfer, hown] at htext
    exact hdecoder.trans (congrArg Except.ok htext)
  · simp only [List.map_cons, List.map_nil, hcash', htransfer', hown'] at htext'
    exact hdeclaration.trans (congrArg Except.ok htext')

end TypeScribe
