import TypeScribe.Proofs.BodyEvaluation

/-!
# Fields and arguments are decoded in order

A record is read field by field, each under its own key, and the arguments of a constructor are read from an array of as
many elements. Every value goes to where it belongs, and the first failure is reported with its place.
-/

namespace TypeScribe
open Ocaml (Term Clause Body Function)
open Json (Document)
open Decoder (fieldOf elements dispatch)

/-- The record types of a shape, each with its display name and its fields in declared order. -/
def Shape.records (displayName : String) : Shape → List (String × List RecordField)
  | .record fields => [(displayName, fields)]
  | .sumOfRecords records => records.map fun record => (record.displayName, record.fields)
  | _ => []

namespace Context

/-- The body reads the fields in order, each under its key and by the decoder of its type, and builds the record in which
each label has the value that was read for it. -/
def DecodesRecord (context : Context) (decoder : String) (fields : List RecordField) (body : Body) : Prop :=
  ∃ reads, List.Forall₂ context.ReadsField fields reads ∧ ∀ (world : World) (document : Document),
    ReadsInOrder (List.zipWith (context.fieldReading decoder world document) fields reads)
      (fun values => .record ((fields.map fun field => Ocaml.label field.name).zip values))
      (body.eval world [("json", .json document)])

/-- The body decodes the arguments of the constructor from the array that `source` reads, each by the decoder of its own
type. -/
def DecodesPositions (context : Context) (source : Term) (place : String) (constructor : Positional) (body : Body) : Prop :=
  ∃ decoders, constructor.arguments.mapM context.raising = .ok decoders ∧
    ∀ (world : World) (document : Document), world.Counts →
      DecodesArray world document source place ⟨[], Ocaml.constructorName constructor.name⟩ decoders
        (body.eval world [("json", .json document)])

variable {context : Context} {parameters : List String} {shape : Shape} {functions : List Function}

theorem decodesRecord_of_recordFunction {displayName : String} {fields : List RecordField} {function : Function}
    (h : context.recordFunction displayName parameters fields = .ok function) :
    function.name = Ocaml.decoderName displayName ∧ context.DecodesRecord function.name fields function.body := by
  obtain ⟨body, hbody, h⟩ := bind_eq_ok.mp h
  obtain rfl := pure_eq_ok.mp h
  exact ⟨rfl, readsInOrder_recordDecoder hbody⟩

theorem exists_recordFunction (h : context.functions parameters shape = .ok functions) {record : String × List RecordField}
    (hmem : record ∈ shape.records context.displayName) :
    ∃ function ∈ functions, function.name = Ocaml.decoderName record.1 ∧
      context.DecodesRecord function.name record.2 function.body := by
  cases shape with
  | record fields =>
    obtain ⟨function, hfunction, h⟩ := bind_eq_ok.mp h
    obtain rfl := pure_eq_ok.mp h
    cases List.mem_singleton.mp hmem
    exact ⟨function, List.mem_singleton_self function, decodesRecord_of_recordFunction hfunction⟩
  | sumOfRecords records =>
    obtain ⟨hoisted, hhoisted, h⟩ := bind_eq_ok.mp h
    obtain rfl := pure_eq_ok.mp h
    obtain ⟨record, hrecord, rfl⟩ := List.mem_map.mp hmem
    obtain ⟨function, hfunction, hmade⟩ := exists_of_forall₂_left (mapM_eq_ok.mp hhoisted) hrecord
    exact ⟨function, List.mem_append_left _ hfunction, decodesRecord_of_recordFunction hmade⟩
  | _ => cases hmem

theorem decodesPositions_singleDecoder {decoder : String} {constructor : Positional} {body : Body}
    (h : context.singleDecoder decoder constructor = .ok body) (harity : 2 ≤ constructor.arguments.length) :
    context.DecodesPositions (Runtime.onJson elements) (decoder ++ ": ") constructor body := by
  unfold singleDecoder at h
  split at h
  · next hnil => simp [hnil] at harity
  · next argument hsingle => simp [hsingle] at harity
  · exact decodesArray_positionalDecoder h

theorem decodesPositions_contentsDecoder {decoder : String} {constructor : Positional} {body : Body}
    (h : context.contentsDecoder decoder constructor = .ok body) (harity : 2 ≤ constructor.arguments.length) :
    context.DecodesPositions (fieldOf contentsKey elements)
      (decoder ++ ": " ++ Ocaml.constructorName constructor.name ++ ": ") constructor body := by
  unfold contentsDecoder at h
  split at h
  · next hnil => simp [hnil] at harity
  · next argument hsingle => simp [hsingle] at harity
  · exact decodesArray_positionalDecoder h

end Context

namespace Descriptor

/-- A decoder that is rendered is the text of functions that decode in order, whatever the world says of the names that
they call, their parameters among them. The function of a record type, of the type itself or of a branch, reads the
fields. The arguments of a constructor, two or more of them, are decoded from the JSON value itself if it is the only
constructor, or else from its contents in the arm for its tag. -/
theorem decoder_readsInOrder {descriptor : Descriptor} {options : Options} {text : String} {shape : Shape}
    (htext : descriptor.renderDecoder options = .ok text) (hshape : descriptor.classify = .ok shape) :
    ∃ group, descriptor.decoder options = .ok group ∧ text = Ocaml.source group.functionLines ∧
      (∀ record ∈ shape.records descriptor.displayName, ∃ function ∈ group.items,
        function.name = Ocaml.decoderName record.1 ∧
        (Context.ofDescriptor options descriptor).DecodesRecord function.name record.2 function.body) ∧
      (∀ constructor, shape = .single constructor → 2 ≤ constructor.arguments.length →
        ∃ function ∈ group.items, function.name = Ocaml.decoderName descriptor.displayName ∧
          (Context.ofDescriptor options descriptor).DecodesPositions (Runtime.onJson elements) (function.name ++ ": ")
            constructor function.body) ∧
      ∀ constructors, shape = .sum constructors →
        ∃ function ∈ group.items, function.name = Ocaml.decoderName descriptor.displayName ∧
          ∃ arms, function.body = dispatch function.name arms ∧
            List.Forall₂ (fun constructor arm =>
              arm.1 = (Context.ofDescriptor options descriptor).tagClause constructor.name ∧
              (2 ≤ constructor.arguments.length →
                (Context.ofDescriptor options descriptor).DecodesPositions (fieldOf contentsKey elements)
                  (function.name ++ ": " ++ Ocaml.constructorName constructor.name ++ ": ") constructor arm.2))
              constructors arms := by
  obtain ⟨group, hgroup, htext⟩ := renderDecoder_eq_ok.mp htext
  obtain ⟨shape', hshape', -, hfunctions⟩ := decoder_eq_ok.mp hgroup
  obtain rfl : shape' = shape := Except.ok.inj (hshape'.symm.trans hshape)
  refine ⟨group, hgroup, htext.symm, fun record hmem => Context.exists_recordFunction hfunctions hmem, ?_, ?_⟩
  · rintro constructor rfl harity
    obtain ⟨body, hbody, hitems⟩ := bind_eq_ok.mp hfunctions
    rw [← pure_eq_ok.mp hitems]
    exact ⟨_, List.mem_singleton_self _, rfl, Context.decodesPositions_singleDecoder hbody harity⟩
  · rintro constructors rfl
    obtain ⟨arms, harms, hitems⟩ := bind_eq_ok.mp hfunctions
    rw [← pure_eq_ok.mp hitems]
    refine ⟨_, List.mem_singleton_self _, rfl, arms, rfl, (mapM_eq_ok.mp harms).imp fun constructor arm harm => ?_⟩
    obtain ⟨body, hbody, harm⟩ := bind_eq_ok.mp harm
    obtain rfl := pure_eq_ok.mp harm
    exact ⟨rfl, Context.decodesPositions_contentsDecoder hbody⟩

def letter : Descriptor :=
  .ofConstructor ⟨"main", "Types", "Letter"⟩ <| .value <| .ofFields "Letter" [
    ("title", .primitive (.scalar .string)),
    ("pages", .primitive (.option (.primitive (.scalar .int))))]

def point : Descriptor :=
  .ofConstructor ⟨"main", "Types", "Point"⟩ <| .value <|
    .ofArguments "Point" [.primitive (.scalar .int), .primitive (.scalar .int)]

theorem letter_point_readInOrder :
    (∃ group function, letter.decoder {} = .ok group ∧ function ∈ group.items ∧
      function.body.eval .library [("json", .json (.map [("pages", .number (.integer 3)), ("title", .text "hello")]))] =
        .value (acceptance (.record [
          ("title", .text "hello"), ("pages", .construct Runtime.somePath [.number 3])])) ∧
      function.body.eval .library [("json", .json (.map [("pages", .number (.integer 3))]))] =
        .value (refusal "decodeLetter: field 'title': Expected field 'title'")) ∧
    ∃ group function, point.decoder {} = .ok group ∧ function ∈ group.items ∧
      function.body.eval .library [("json", .json (.sequence [.number (.integer 3)]))] =
        .value (refusal "decodePoint: position 1: expected 2 elements.") := by
  obtain ⟨letterGroup, hletter, -, hrecords, -, -⟩ := decoder_readsInOrder (rfl : letter.renderDecoder {} = .ok _) rfl
  obtain ⟨function, hfunction, hname, reads, hreads, hrun⟩ := hrecords _ (.head _)
  obtain ⟨pointGroup, hpoint, -, -, hsingle, -⟩ := decoder_readsInOrder (rfl : point.renderDecoder {} = .ok _) rfl
  obtain ⟨function', hfunction', hname', decoders, hdecoders, hrun'⟩ := hsingle _ rfl (Nat.le_refl 2)
  have hfields : reads = [
      fieldOf "title" (Runtime.decode "string"),
      .apply (Runtime.decode "optional") [.apply (Runtime.decode "field") [.text "pages", Runtime.decode "int"],
        .var "json"]] := by
    obtain _ | ⟨htitle, _ | ⟨hpages, ⟨⟩⟩⟩ := hreads
    obtain ⟨-, hdecoder⟩ | ⟨⟨⟩, -⟩ := htitle
    obtain ⟨hrequired, -⟩ | ⟨hitem, hdecoder'⟩ := hpages
    · exact absurd rfl (hrequired _)
    · cases hdecoder
      cases hitem
      cases hdecoder'
      rfl
  subst hfields
  refine ⟨⟨letterGroup, function, hletter, hfunction, ?_, ?_⟩, pointGroup, function', hpoint, hfunction', ?_⟩
  · exact (hrun .library _).succeeds [.text "hello", .construct Runtime.somePath [.number 3]] rfl
  · rw [(hrun .library (.map [("pages", .number (.integer 3))])).fails [] _ _ _ rfl nofun, hname]
    rfl
  · cases hdecoders
    have hdocuments := (hrun' .library (.sequence [.number (.integer 3)]) World.counts_library).items _ rfl
    rw [hdocuments.mismatch (by decide), hname']
    rfl

end Descriptor

end TypeScribe
