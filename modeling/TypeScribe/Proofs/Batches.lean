import TypeScribe.Proofs.Acceptance
import TypeScribe.Proofs.Comparison
import TypeScribe.Proofs.GroupTexts

/-!
# Batches

What is rendered for several types is what is rendered for each of them, with a blank line between two texts. Every text
starts and ends with something visible before its only line break at the end, so nothing is cut where texts are put
together. Interfaces are rendered from what was rendered already, so that asking for them never brings in a fault.
-/

namespace TypeScribe

/-! ## Finished texts -/

namespace Ocaml

/-- The text starts with something visible, and one line break follows the last visible character. -/
structure IsFinished (text : String) : Prop where
  starts : ∃ c rest, text.toList = c :: rest ∧ Text.isBlank c = false
  ends : ∃ front c, text.toList = front ++ [c] ++ ['\n'] ∧ Text.isBlank c = false

namespace IsFinished

theorem ofList_finish {c : Char} (hc : Text.isBlank c = false) (rest : List Char) :
    IsFinished (String.ofList (finish (c :: rest))) := by
  obtain ⟨front, last, htrim, hlast, more, hmore⟩ := exists_trimEnd_cons hc rest
  refine ⟨⟨c, more ++ ['\n'], ?_, hc⟩, ⟨front, last, ?_, hlast⟩⟩
  · rw [String.toList_ofList, finish, htrim, hmore, List.cons_append]
  · rw [String.toList_ofList, finish, htrim]

theorem finish_eq {text : String} (h : IsFinished text) : String.ofList (finish text.toList) = text := by
  obtain ⟨front, c, htext, hc⟩ := h.ends
  rw [htext, Lexer.finish_of_solid hc, ← htext, String.ofList_toList]

theorem append {text text' : String} (h : IsFinished text) (h' : IsFinished text') : IsFinished (text ++ "\n" ++ text') := by
  obtain ⟨c, rest, hstart, hc⟩ := h.starts
  obtain ⟨front, d, hend, hd⟩ := h'.ends
  refine ⟨⟨c, rest ++ '\n' :: text'.toList, ?_, hc⟩, ⟨text.toList ++ '\n' :: front, d, ?_, hd⟩⟩
  · simp [hstart]
  · simp [hend]

theorem intercalate {texts : List String} (hne : texts ≠ []) (h : ∀ text ∈ texts, IsFinished text) :
    IsFinished ("\n".intercalate texts) := by
  induction texts with
  | nil => exact absurd rfl hne
  | cons text rest ih =>
    rw [List.forall_mem_cons] at h
    cases rest with
    | nil => exact String.intercalate_singleton ▸ h.1
    | cons next rest =>
      rw [String.intercalate_cons_cons]
      exact h.1.append (ih (List.cons_ne_nil _ _) h.2)

end IsFinished

/-- Once anything is written, each further block follows a blank line. -/
theorem foldl_appendBlock {written : List Char} (hne : written ≠ []) (blocks : List (List Char)) :
    blocks.foldl appendBlock written = ['\n'].intercalate (written :: blocks) := by
  induction blocks generalizing written with
  | nil => exact List.intercalate_singleton.symm
  | cons block rest ih =>
    have hstep : appendBlock written block = written ++ ['\n'] ++ block := by simp [appendBlock, hne]
    rw [List.foldl_cons, hstep, ih (by simp), List.intercalate_cons_cons]
    -- the block that was just written is now a part of the first text
    cases rest with
    | nil => rw [List.intercalate_singleton, List.intercalate_singleton]
    | cons next rest => simp only [List.intercalate_cons_cons, List.append_assoc]

/-- Nothing is cut from finished texts when they are put together. -/
theorem assemble_eq_intercalate {texts : List String} (hne : texts ≠ []) (h : ∀ text ∈ texts, IsFinished text) :
    assemble texts = "\n".intercalate texts := by
  have hjoined := (IsFinished.intercalate hne h).finish_eq
  obtain ⟨first, rest, rfl⟩ := List.exists_cons_of_ne_nil hne
  obtain ⟨c, cs, hfirst, -⟩ := (h first List.mem_cons_self).starts
  have hwritten : first.toList ≠ [] := hfirst ▸ List.cons_ne_nil c cs
  rw [assemble, List.map_cons, List.foldl_cons, appendBlock, List.isEmpty_nil, if_pos rfl, foldl_appendBlock hwritten]
  rwa [String.toList_intercalate] at hjoined

theorem assemble_pair {text text' : String} (h : IsFinished text) (h' : IsFinished text') :
    assemble [text, text'] = text ++ "\n" ++ text' := by
  have hboth : ∀ t ∈ [text, text'], IsFinished t := List.forall_mem_cons.mpr ⟨h, List.forall_mem_singleton.mpr h'⟩
  rw [assemble_eq_intercalate (List.cons_ne_nil _ _) hboth, String.intercalate_cons_cons, String.intercalate_singleton]

/-! ## Lines that start with a keyword -/

theorem isFinished_source {word : String} (hword : ∃ c rest, word.toList = c :: rest ∧ Text.isBlank c = false)
    (tokens : List Token) (more : List Line) : IsFinished (source (⟨0, .word word :: tokens⟩ :: more)) := by
  obtain ⟨c, rest, hword, hc⟩ := hword
  have hjoin : ∃ others, Token.join (.word word :: tokens) = c :: others := by
    cases tokens with
    | nil => exact ⟨rest, hword⟩
    | cons next tokens =>
      rw [Lexer.join_cons_cons, Token.chars, hword]
      exact ⟨_, rfl⟩
  obtain ⟨others, hothers⟩ := hjoin
  have hchars : (⟨0, .word word :: tokens⟩ :: more).flatMap Line.chars =
      c :: (others ++ '\n' :: more.flatMap Line.chars) := by
    simp [Line.chars, hothers]
  rw [source, hchars]
  exact .ofList_finish hc _

theorem isFinished_groupLines {lines : List Token → α → List Line} {items : List α} (hne : items ≠ [])
    (hopened : ∀ item ∈ items, IsOpened (lines · item)) {word : String}
    (hword : ∃ c rest, word.toList = c :: rest ∧ Text.isBlank c = false) (front following : List Token) :
    IsFinished (source (groupLines (.word word :: front) following lines items)) := by
  obtain ⟨first, rest, rfl⟩ := List.exists_cons_of_ne_nil hne
  obtain ⟨tokens, more, -, hlines⟩ := hopened first List.mem_cons_self
  have hfirst : lines (.word word :: front) first = ⟨0, .word word :: (front ++ tokens)⟩ :: more := hlines _
  rw [groupLines, hfirst, List.cons_append]
  exact isFinished_source hword _ _

theorem isFinished_typeLines {group : DefinitionGroup TypeDefinition} (hne : group.items ≠ []) :
    IsFinished (source group.typeLines) :=
  isFinished_groupLines hne (fun definition _ => isOpened_typeLines definition) ⟨'t', _, rfl, by decide⟩ [] _

theorem isFinished_functionLines {group : DefinitionGroup Function} (hne : group.items ≠ []) :
    IsFinished (source group.functionLines) := by
  have hopened : ∀ function ∈ group.items, IsOpened (Function.lines · function) :=
    fun function _ => isOpened_functionLines function
  unfold DefinitionGroup.functionLines
  cases group.recursive with
  | true => exact isFinished_groupLines hne hopened ⟨'l', _, rfl, by decide⟩ [.word "rec"] _
  | false => exact isFinished_groupLines hne hopened ⟨'l', _, rfl, by decide⟩ [] _

theorem isFinished_specLines {specs : List ValueSpec} (hne : specs ≠ []) :
    IsFinished (source (specs.map ValueSpec.line)) := by
  obtain ⟨first, rest, rfl⟩ := List.exists_cons_of_ne_nil hne
  exact isFinished_source ⟨'v', _, rfl, by decide⟩ _ _

end Ocaml

/-! ## One type -/

namespace Descriptor

variable {descriptor : Descriptor} {options : Options} {declaration decoder values : String}

theorem isFinished_of_renderDeclaration (h : descriptor.renderDeclaration options = .ok declaration) :
    Ocaml.IsFinished declaration := by
  obtain ⟨group, hgroup, rfl⟩ := renderDeclaration_eq_ok.mp h
  obtain ⟨shape, -, -, hdefinitions⟩ := declaration_eq_ok.mp hgroup
  exact Ocaml.isFinished_typeLines (Context.isRecord_typeDefinitions hdefinitions).1

theorem isFinished_of_renderDecoder (h : descriptor.renderDecoder options = .ok decoder) : Ocaml.IsFinished decoder := by
  obtain ⟨group, hgroup, rfl⟩ := renderDecoder_eq_ok.mp h
  obtain ⟨shape, -, -, hfunctions⟩ := decoder_eq_ok.mp hgroup
  exact Ocaml.isFinished_functionLines (Context.isClosed_functions hfunctions).1

theorem isFinished_of_renderDecoderSignature (h : descriptor.renderDecoderSignature = .ok values) :
    Ocaml.IsFinished values := by
  obtain ⟨specs, hspecs, hvalues⟩ := bind_eq_ok.mp h
  obtain rfl := pure_eq_ok.mp hvalues
  obtain ⟨shape, -, hspecs⟩ := bind_eq_ok.mp hspecs
  refine Ocaml.isFinished_specLines ?_
  cases shape with
  | sumOfRecords records =>
    obtain rfl := pure_eq_ok.mp hspecs
    simp
  | _ =>
    obtain rfl := pure_eq_ok.mp hspecs
    exact List.cons_ne_nil _ _

/-- The types of the decoders are found wherever the decoders are: both need the shape, and the first need no more. -/
theorem succeeds_renderDecoderSignature (h : Succeeds (descriptor.renderDecoder options)) :
    Succeeds descriptor.renderDecoderSignature := by
  obtain ⟨decoder, hdecoder⟩ := h
  obtain ⟨group, hgroup, -⟩ := renderDecoder_eq_ok.mp hdecoder
  obtain ⟨shape, hshape, -⟩ := decoder_eq_ok.mp hgroup
  rw [renderDecoderSignature, succeeds_bind_pure, decoderSpecs, hshape]
  cases shape <;> exact succeeds_pure _

theorem renderSignature_of_ok (hdeclaration : descriptor.renderDeclaration options = .ok declaration)
    (hvalues : descriptor.renderDecoderSignature = .ok values) :
    descriptor.renderSignature options = .ok (declaration ++ "\n" ++ values) := by
  rw [renderSignature, renderDeclarationSignature, hdeclaration, hvalues, ← Ocaml.assemble_pair
    (isFinished_of_renderDeclaration hdeclaration) (isFinished_of_renderDecoderSignature hvalues)]
  rfl

theorem render_of_ok (hdeclaration : descriptor.renderDeclaration options = .ok declaration)
    (hdecoder : descriptor.renderDecoder options = .ok decoder)
    (hvalues : descriptor.renderDecoderSignature = .ok values) :
    descriptor.render options = .ok {
      implementation := declaration ++ "\n" ++ decoder
      signature := if options.signatures then some (declaration ++ "\n" ++ values) else none } := by
  rw [render, hdeclaration, hdecoder, renderSignature_of_ok hdeclaration hvalues,
    ← Ocaml.assemble_pair (isFinished_of_renderDeclaration hdeclaration) (isFinished_of_renderDecoder hdecoder)]
  cases options.signatures <;> rfl

theorem exists_of_render_eq_ok {rendering : Rendering} (h : descriptor.render options = .ok rendering) :
    ∃ declaration decoder values, descriptor.renderDeclaration options = .ok declaration ∧
      descriptor.renderDecoder options = .ok decoder ∧ descriptor.renderDecoderSignature = .ok values ∧
      rendering = {
        implementation := declaration ++ "\n" ++ decoder
        signature := if options.signatures then some (declaration ++ "\n" ++ values) else none } := by
  obtain ⟨declaration, hdeclaration, hrest⟩ := bind_eq_ok.mp h
  obtain ⟨decoder, hdecoder, -⟩ := bind_eq_ok.mp hrest
  obtain ⟨values, hvalues⟩ := succeeds_renderDecoderSignature ⟨decoder, hdecoder⟩
  have hrendering := (render_of_ok hdeclaration hdecoder hvalues).symm.trans h
  exact ⟨declaration, decoder, values, hdeclaration, hdecoder, hvalues, (Except.ok.inj hrendering).symm⟩

end Descriptor

/-! ## Several types -/

structure Rendering.IsFinished (rendering : Rendering) : Prop where
  implementation : Ocaml.IsFinished rendering.implementation
  signature : ∀ text, rendering.signature = some text → Ocaml.IsFinished text

/-- The texts of renderings in order, with a blank line between two of them, and no interface unless it is asked for. -/
def Rendering.joined (signatures : Bool) (renderings : List Rendering) : Rendering where
  implementation := "\n".intercalate (renderings.map (·.implementation))
  signature := if signatures then some ("\n".intercalate (renderings.filterMap (·.signature))) else none

def Rendering.followedBy (rendering next : Rendering) : Rendering where
  implementation := rendering.implementation ++ "\n" ++ next.implementation
  signature := do return (← rendering.signature) ++ "\n" ++ (← next.signature)

theorem Rendering.filterMap_signature_ne_nil {renderings : List Rendering} (hne : renderings ≠ [])
    (h : ∀ rendering ∈ renderings, rendering.signature.isSome = true) : renderings.filterMap (·.signature) ≠ [] := by
  obtain ⟨first, rest, rfl⟩ := List.exists_cons_of_ne_nil hne
  obtain ⟨text, htext⟩ := Option.isSome_iff_exists.mp (h first List.mem_cons_self)
  simp [htext]

theorem Rendering.joined_append {signatures : Bool} {front back : List Rendering} (hfront : front ≠ [])
    (hback : back ≠ []) (h : ∀ rendering ∈ front ++ back, rendering.signature.isSome = signatures) :
    joined signatures (front ++ back) = (joined signatures front).followedBy (joined signatures back) := by
  have himplementation : (joined signatures (front ++ back)).implementation =
      ((joined signatures front).followedBy (joined signatures back)).implementation := by
    have hne : front.map (·.implementation) ≠ [] := by simpa using hfront
    have hne' : back.map (·.implementation) ≠ [] := by simpa using hback
    rw [joined, List.map_append, String.intercalate_append_of_ne_nil hne hne']
    rfl
  have hsignature : (joined signatures (front ++ back)).signature =
      ((joined signatures front).followedBy (joined signatures back)).signature := by
    cases signatures with
    | false => rfl
    | true =>
      rw [List.forall_mem_append] at h
      rw [joined, if_pos rfl, List.filterMap_append, String.intercalate_append_of_ne_nil
        (filterMap_signature_ne_nil hfront h.1) (filterMap_signature_ne_nil hback h.2)]
      rfl
  exact congrArg₂ Rendering.mk himplementation hsignature

section
variable {options : Options} {descriptors : List Descriptor} {renderings : List Rendering}

theorem Descriptor.isFinished_of_render {descriptor : Descriptor} {rendering : Rendering}
    (h : descriptor.render options = .ok rendering) :
    rendering.IsFinished ∧ rendering.signature.isSome = options.signatures := by
  obtain ⟨declaration, decoder, values, hdeclaration, hdecoder, hvalues, rfl⟩ := exists_of_render_eq_ok h
  have hfinished := isFinished_of_renderDeclaration hdeclaration
  refine ⟨⟨hfinished.append (isFinished_of_renderDecoder hdecoder), fun text htext => ?_⟩, ?_⟩
  · cases hsignatures : options.signatures with
    | false => simp [hsignatures] at htext
    | true =>
      simp only [hsignatures, if_true, Option.some.injEq] at htext
      exact htext ▸ hfinished.append (isFinished_of_renderDecoderSignature hvalues)
  · cases options.signatures <;> rfl

theorem isFinished_of_forall₂
    (h : List.Forall₂ (fun descriptor rendering => Descriptor.render descriptor options = .ok rendering)
      descriptors renderings) :
    ∀ rendering ∈ renderings, rendering.IsFinished ∧ rendering.signature.isSome = options.signatures := by
  intro rendering hmem
  obtain ⟨descriptor, -, hrender⟩ := exists_of_forall₂_left h.flip hmem
  exact Descriptor.isFinished_of_render hrender

theorem renderAll_of_forall₂ (hne : descriptors ≠ [])
    (h : List.Forall₂ (fun descriptor rendering => Descriptor.render descriptor options = .ok rendering)
      descriptors renderings) :
    renderAll descriptors options = .ok (Rendering.joined options.signatures renderings) := by
  have hfinished := isFinished_of_forall₂ h
  have hnonempty : renderings ≠ [] := fun hnil => hne (List.forall₂_nil_right_iff.mp (hnil ▸ h))
  have himplementations : Ocaml.assemble (renderings.map (·.implementation)) =
      "\n".intercalate (renderings.map (·.implementation)) :=
    Ocaml.assemble_eq_intercalate (by simpa using hnonempty)
      (List.forall_mem_map.mpr fun rendering hmem => (hfinished rendering hmem).1.implementation)
  rw [renderAll, mapM_eq_ok.mpr h, Rendering.joined, ← himplementations]
  cases hsignatures : options.signatures with
  | false => rfl
  | true =>
    have hinterfaces : Ocaml.assemble (renderings.filterMap (·.signature)) =
        "\n".intercalate (renderings.filterMap (·.signature)) := by
      refine Ocaml.assemble_eq_intercalate ?_ fun text hmem => ?_
      · exact Rendering.filterMap_signature_ne_nil hnonempty fun rendering hmem =>
          (hfinished rendering hmem).2.trans hsignatures
      · obtain ⟨rendering, hmem, htext⟩ := List.mem_filterMap.mp hmem
        exact (hfinished rendering hmem).1.signature text htext
    rw [if_pos rfl, ← hinterfaces]
    rfl

theorem exists_of_renderAll_eq_ok {all : Rendering} (h : renderAll descriptors options = .ok all) :
    ∃ renderings, List.Forall₂ (fun descriptor rendering => Descriptor.render descriptor options = .ok rendering)
      descriptors renderings := by
  obtain ⟨renderings, hrenderings, -⟩ := bind_eq_ok.mp h
  exact ⟨renderings, mapM_eq_ok.mp hrenderings⟩

theorem succeeds_renderAll :
    Succeeds (renderAll descriptors options) ↔ ∀ descriptor ∈ descriptors, Succeeds (descriptor.render options) := by
  rw [renderAll, succeeds_bind_pure, succeeds_mapM]

theorem renderAll_append {front back : List Descriptor} {rendering next : Rendering} (hfront : front ≠ [])
    (hback : back ≠ []) (h : renderAll front options = .ok rendering) (h' : renderAll back options = .ok next) :
    renderAll (front ++ back) options = .ok (rendering.followedBy next) := by
  obtain ⟨renderings, hrenderings⟩ := exists_of_renderAll_eq_ok h
  obtain ⟨nexts, hnexts⟩ := exists_of_renderAll_eq_ok h'
  have hne : renderings ≠ [] := fun hnil => hfront (List.forall₂_nil_right_iff.mp (hnil ▸ hrenderings))
  have hne' : nexts ≠ [] := fun hnil => hback (List.forall₂_nil_right_iff.mp (hnil ▸ hnexts))
  have hall := List.rel_append hrenderings hnexts
  obtain rfl := Except.ok.inj (h.symm.trans (renderAll_of_forall₂ hfront hrenderings))
  obtain rfl := Except.ok.inj (h'.symm.trans (renderAll_of_forall₂ hback hnexts))
  rw [renderAll_of_forall₂ (by simp [hfront]) hall,
    Rendering.joined_append hne hne' fun rendering hmem => (isFinished_of_forall₂ hall rendering hmem).2]

/-- Several types are rendered one after the other: the first one that fails decides, and otherwise the texts of each
type stand in order with exactly one blank line between two of them, for every one of these texts is finished. -/
theorem renderAll_isJoined (options : Options) :
    (∀ descriptors fault, renderAll descriptors options = .error fault ↔
      ∃ front descriptor back, descriptors = front ++ descriptor :: back ∧
        (∀ other ∈ front, Succeeds (other.render options)) ∧ descriptor.render options = .error fault) ∧
    (∀ descriptors renderings, descriptors ≠ [] →
      List.Forall₂ (fun descriptor rendering => Descriptor.render descriptor options = .ok rendering)
        descriptors renderings →
      renderAll descriptors options = .ok (Rendering.joined options.signatures renderings)) ∧
    (∀ descriptor rendering, Descriptor.render descriptor options = .ok rendering →
      rendering.IsFinished ∧ rendering.signature.isSome = options.signatures ∧
      ∃ declaration decoder, descriptor.renderDeclaration options = .ok declaration ∧
        descriptor.renderDecoder options = .ok decoder ∧ Ocaml.IsFinished declaration ∧ Ocaml.IsFinished decoder ∧
        rendering.implementation = declaration ++ "\n" ++ decoder) ∧
    ∀ front back, front ≠ [] → back ≠ [] →
      (Succeeds (renderAll (front ++ back) options) ↔
        Succeeds (renderAll front options) ∧ Succeeds (renderAll back options)) ∧
      ∀ rendering next, renderAll front options = .ok rendering → renderAll back options = .ok next →
        renderAll (front ++ back) options = .ok (rendering.followedBy next) := by
  refine ⟨fun descriptors fault => ?_, fun descriptors renderings => renderAll_of_forall₂,
    fun descriptor rendering h => ?_, fun front back hfront hback => ⟨?_, fun rendering next => ?_⟩⟩
  · rw [renderAll, bind_pure_eq_error, mapM_eq_error]
  · obtain ⟨hfinished, hsignature⟩ := Descriptor.isFinished_of_render h
    obtain ⟨declaration, decoder, values, hdeclaration, hdecoder, -, rfl⟩ := Descriptor.exists_of_render_eq_ok h
    exact ⟨hfinished, hsignature, declaration, decoder, hdeclaration, hdecoder,
      Descriptor.isFinished_of_renderDeclaration hdeclaration, Descriptor.isFinished_of_renderDecoder hdecoder, rfl⟩
  · rw [succeeds_renderAll, succeeds_renderAll, succeeds_renderAll, List.forall_mem_append]
  · exact renderAll_append hfront hback

end

namespace Descriptor

def colour : Descriptor := .ofConstructor ⟨"main", "Paint", "Colour"⟩ (.enumeration ["Red", "Dark_blue"])

def blank : Descriptor := .ofConstructor ⟨"main", "Paint", "Blank"⟩ (.enumeration [])

def palette : Descriptor :=
  .ofConstructor ⟨"main", "Paint", "Palette"⟩ <| .value <| .ofFields "Palette" [
    ("colour", .reference ⟨"main", "Paint", "Colour"⟩), ("items", .primitive (.list (.parameter "a")))]

/-- Two types with their interfaces, and the fault of a type between them. -/
theorem colour_palette_isJoined :
    (∃ rendering next, colour.render { signatures := true } = .ok rendering ∧
      palette.render { signatures := true } = .ok next ∧ rendering.IsFinished ∧ next.IsFinished ∧
      renderAll [colour, palette] { signatures := true } = .ok (Rendering.joined true [rendering, next]) ∧
      renderAll [colour, palette] { signatures := true } =
        .ok ((Rendering.joined true [rendering]).followedBy (Rendering.joined true [next]))) ∧
    renderAll [colour, blank, palette, blank] { signatures := true } = .error (.noConstructors "Blank") := by
  obtain ⟨herror, hjoined, hrender, happend⟩ := renderAll_isJoined { signatures := true }
  obtain ⟨rendering, hrendering⟩ : ∃ rendering, colour.render { signatures := true } = .ok rendering := ⟨_, rfl⟩
  obtain ⟨next, hnext⟩ : ∃ next, palette.render { signatures := true } = .ok next := ⟨_, rfl⟩
  have hone := hjoined [colour] [rendering] (List.cons_ne_nil _ _) (.cons hrendering .nil)
  have hother := hjoined [palette] [next] (List.cons_ne_nil _ _) (.cons hnext .nil)
  refine ⟨⟨rendering, next, hrendering, hnext, (hrender _ _ hrendering).1, (hrender _ _ hnext).1, ?_, ?_⟩, ?_⟩
  · exact hjoined [colour, palette] [rendering, next] (List.cons_ne_nil _ _) (.cons hrendering (.cons hnext .nil))
  · exact (happend [colour] [palette] (List.cons_ne_nil _ _) (List.cons_ne_nil _ _)).2 _ _ hone hother
  · exact (herror _ _).mpr ⟨[colour], blank, [palette, blank], rfl, List.forall_mem_singleton.mpr ⟨_, hrendering⟩, rfl⟩

end Descriptor

/-! ## Interfaces on request -/

/-- One implementation, and one interface for each of the renderings that is asked for one. -/
structure Rendering.SameButSignature (asked asked' : Bool) (rendering rendering' : Rendering) : Prop where
  implementation : rendering.implementation = rendering'.implementation
  signature : ∃ text, rendering.signature = (if asked then some text else none) ∧
    rendering'.signature = if asked' then some text else none

theorem Rendering.SameButSignature.exists_texts {asked asked' : Bool} {renderings renderings' : List Rendering}
    (h : List.Forall₂ (SameButSignature asked asked') renderings renderings') :
    ∃ texts, renderings.filterMap (·.signature) = (if asked then texts else []) ∧
      renderings'.filterMap (·.signature) = if asked' then texts else [] := by
  induction h with
  | nil => exact ⟨[], by simp⟩
  | cons hsame _ ih =>
    obtain ⟨text, htext, htext'⟩ := hsame.signature
    obtain ⟨texts, htexts, htexts'⟩ := ih
    refine ⟨text :: texts, ?_, ?_⟩
    · rw [List.filterMap_cons, htext, htexts]
      cases asked <;> rfl
    · rw [List.filterMap_cons, htext', htexts']
      cases asked' <;> rfl

/-- Whether an interface is asked for matters to no other text, nor to what fails. -/
theorem Descriptor.matches_render (descriptor : Descriptor) (options : Options) (asked : Bool) :
    Matches Eq (Rendering.SameButSignature options.signatures asked) (descriptor.render options)
      (descriptor.render { options with signatures := asked }) := by
  -- the flag stands in no path and in no key
  have halike : descriptor.Alike options descriptor { options with signatures := asked } := .of_samePaths
    { refl := fun _ => rfl
      misplaced := fun _ _ => rfl
      paths := fun _ _ _ => .refl (fun _ => rfl) _ }
  have hdeclaration := halike.renderDeclaration
  have hdecoder := halike.renderDecoder rfl rfl
  cases h : descriptor.renderDeclaration options with
  | error fault =>
    rw [render, render, ← hdeclaration, h]
    exact .error rfl
  | ok declaration =>
    cases h' : descriptor.renderDecoder options with
    | error fault =>
      rw [render, render, ← hdeclaration, ← hdecoder, h, h']
      exact .error rfl
    | ok decoder =>
      obtain ⟨values, hvalues⟩ := succeeds_renderDecoderSignature ⟨decoder, h'⟩
      rw [render_of_ok h h' hvalues, render_of_ok (hdeclaration ▸ h) (hdecoder ▸ h') hvalues]
      exact .ok ⟨rfl, _, rfl, rfl⟩

/-- Asking for interfaces changes nothing else. Under options that differ in this only, a type and a list of types are
rendered with the same implementation or fail with the same fault, and there is an interface exactly where it is asked
for. Whatever has a declaration and decoders has both parts of its interface. -/
theorem signatures_changeNothingElse (options : Options) (asked : Bool) :
    (∀ descriptor, Matches Eq (Rendering.SameButSignature options.signatures asked)
      (Descriptor.render descriptor options) (descriptor.render { options with signatures := asked })) ∧
    (∀ descriptors, Matches Eq (Rendering.SameButSignature options.signatures asked)
      (renderAll descriptors options) (renderAll descriptors { options with signatures := asked })) ∧
    ∀ descriptor, Succeeds (Descriptor.renderDeclaration descriptor options) →
      Succeeds (descriptor.renderDecoder options) →
      Succeeds (descriptor.renderDeclarationSignature options) ∧ Succeeds descriptor.renderDecoderSignature ∧
        Succeeds (descriptor.renderSignature options) := by
  refine ⟨fun descriptor => descriptor.matches_render options asked, fun descriptors => ?_,
    fun descriptor ⟨declaration, hdeclaration⟩ hdecoder => ?_⟩
  · have hrenderings := Matches.mapM (List.forall₂_same.mpr fun descriptor (_ : descriptor ∈ descriptors) =>
      descriptor.matches_render options asked)
    refine hrenderings.bind fun renderings renderings' hsame => .ok ⟨?_, ?_⟩
    · have himplementations := map_eq_of_forall₂ (f := Rendering.implementation) (g := Rendering.implementation)
        (hsame.imp fun _ _ h => h.implementation)
      exact congrArg Ocaml.assemble himplementations
    · obtain ⟨texts, htexts, htexts'⟩ := Rendering.SameButSignature.exists_texts hsame
      refine ⟨Ocaml.assemble texts, ?_, ?_⟩
      · simp only [htexts]
        cases options.signatures <;> rfl
      · simp only [htexts']
        cases asked <;> rfl
  · obtain ⟨values, hvalues⟩ := Descriptor.succeeds_renderDecoderSignature hdecoder
    exact ⟨⟨_, hdeclaration⟩, ⟨_, hvalues⟩, ⟨_, Descriptor.renderSignature_of_ok hdeclaration hvalues⟩⟩

theorem Descriptor.colour_palette_keepImplementation :
    ∃ rendering rendering', renderAll [colour, palette] {} = .ok rendering ∧
      renderAll [colour, palette] { signatures := true } = .ok rendering' ∧
      rendering.implementation = rendering'.implementation ∧ rendering.signature = none ∧
      rendering'.signature.isSome = true ∧ Succeeds (palette.renderSignature {}) := by
  obtain ⟨-, hall, hsignature⟩ := signatures_changeNothingElse {} true
  obtain ⟨rendering, hrendering⟩ : ∃ rendering, renderAll [colour, palette] {} = .ok rendering := ⟨_, rfl⟩
  obtain ⟨rendering', hrendering', hsame⟩ := (hall [colour, palette]).ok_left hrendering
  obtain ⟨text, htext, htext'⟩ := hsame.signature
  exact ⟨rendering, rendering', hrendering, hrendering', hsame.implementation, htext, by rw [htext']; rfl,
    (hsignature palette ⟨_, rfl⟩ ⟨_, rfl⟩).2.2⟩

end TypeScribe
