import TypeScribe.Proofs.BodyEvaluation
import TypeScribe.Proofs.ReadBack

/-!
# Which branch a tag selects

The arms of a match on tags stand in declared order, one for each branch, and the last arm is for any other tag. So a tag
selects the first branch that JSON gives this tag, and a tag that no branch has is quoted in the message.
-/

namespace TypeScribe
open Ocaml (Path Term Pattern Clause Body Function Token)
open Json (Document)
open Decoder (fieldOf dispatch constructed)

/-! ## Branches with tags -/

inductive TaggedBranch where
  | positional (constructor : Positional)
  | hoisted (record : HoistedRecord)

def TaggedBranch.name : TaggedBranch → String
  | .positional constructor => constructor.name
  | .hoisted record => record.branch

namespace Shape

/-- The branches that have tags in JSON, in declared order. The only tag of an enumeration is not written. -/
def branches? : Shape → Option (List TaggedBranch)
  | .sum constructors => some (constructors.map .positional)
  | .sumOfRecords records => some (records.map .hoisted)
  | .enumeration [_] => none
  | .enumeration tags => some (tags.map fun tag => .positional ⟨tag, []⟩)
  | _ => none

/-- The decoder of a type finds the tag in the JSON value: an enumeration is a text, and other types have a field for
it. -/
def Finds (world : World) (document : Document) (tag : String) : Shape → Prop
  | .enumeration _ =>
    (Runtime.onJson (.path ⟨["Js", "Json"], "decodeString"⟩)).eval world [("json", .json document)] =
      .value (.construct Runtime.somePath [.text tag])
  | _ => (fieldOf tagKey (Runtime.decode "string")).eval world [("json", .json document)] = .value (.text tag)

def unknownTag (decoder tag : String) : Shape → String
  | .enumeration _ => decoder ++ ": unknown enumeration " ++ "'" ++ tag ++ "'."
  | _ => decoder ++ ": unknown tag value found " ++ "'" ++ tag ++ "'."

end Shape

namespace Context

/-- An evaluation that builds the constructor of a branch: of its arguments, which it decodes from the contents, or of
what the decoder of its record type gives. -/
def Builds (context : Context) (decoder : String) (world : World) (document : Document) :
    TaggedBranch → Ending Val → Prop
  | .positional constructor, ending =>
    ∃ decoders, constructor.arguments.mapM context.raising = .ok decoders ∧
      DecodesArguments world document (fieldOf contentsKey)
        (decoder ++ ": " ++ Ocaml.constructorName constructor.name ++ ": ")
        ⟨[], Ocaml.constructorName constructor.name⟩ decoders ending
  | .hoisted record, ending =>
    (∀ v, record.decoderCall.eval world [("json", .json document)] = .value (acceptance v) →
      ending = .value (acceptance (.construct ⟨[], Ocaml.constructorName record.branch⟩ [v]))) ∧
    ∀ message, record.decoderCall.eval world [("json", .json document)] = .value (refusal message) →
      ending = .value (refusal (decoder ++ ": " ++ message))

/-- The body builds the constructor of the branch, whatever else there is in the world. -/
def BodyBuilds (context : Context) (decoder : String) (branch : TaggedBranch) (body : Body) : Prop :=
  ∀ (world : World) (document : Document), world.Counts →
    context.Builds decoder world document branch (body.eval world [("json", .json document)])

/-- An evaluation that has found a tag. It builds the constructor of the first branch with this tag, or else it ends
with the message that there is none. -/
def Selects (context : Context) (decoder unknown : String) (branches : List TaggedBranch) (world : World)
    (document : Document) (tag : String) (ending : Ending Val) : Prop :=
  match branches.find? fun branch => context.options.jsonTag branch.name = tag with
  | some branch => context.Builds decoder world document branch ending
  | none => ending = .value (refusal unknown)

end Context

/-! ## First matches -/

section
variable {β : Type} {tag : β → String} {pattern : String → Pattern} {P : β → Body → Prop} {branches : List β}
  {arms : List (Clause × Body)}

/-- Arms that stand for branches in order, each with the pattern of its tag, go on as the first branch with the tag that
is found, or else as the arms after them. -/
theorem evalArms_append_of_forall₂ (world : World) (locals : Locals)
    (harms : List.Forall₂ (fun branch arm => arm.1 = ⟨pattern (tag branch), none⟩ ∧ P branch arm.2) branches arms)
    {ending : Ending Val} {found : String} (hpattern : ∀ s, (pattern s).bind? ending = if s = found then some [] else none)
    (rest : List (Clause × Body)) :
    match branches.find? fun branch => tag branch = found with
    | some branch => ∃ body, P branch body ∧
      Body.evalArms world locals ending (arms ++ rest) = body.eval world locals
    | none => Body.evalArms world locals ending (arms ++ rest) = Body.evalArms world locals ending rest := by
  induction harms with
  | nil => rfl
  | @cons branch arm branches arms harm _ ih =>
    obtain ⟨⟨pattern, guard⟩, body⟩ := arm
    obtain ⟨hclause, hbody⟩ := harm
    cases hclause
    rw [List.find?_cons, List.cons_append, Body.evalArms, Clause.select?, hpattern]
    by_cases h : tag branch = found
    · rw [if_pos h, decide_eq_true h]
      exact ⟨body, hbody, rfl⟩
    · rw [if_neg h, decide_eq_false h]
      exact ih

theorem find?_eq_some_iff_of_nodup (h : (branches.map tag).Nodup) {branch : β} (hmem : branch ∈ branches)
    (found : String) : branches.find? (fun branch => tag branch = found) = some branch ↔ tag branch = found := by
  refine ⟨fun hfind => ?_, ?_⟩
  · have hfound := List.find?_some hfind
    exact of_decide_eq_true hfound
  · rintro rfl
    induction branches with
    | nil => cases hmem
    | cons first rest ih =>
      rw [List.map_cons, List.nodup_cons] at h
      rw [List.find?_cons]
      rcases List.mem_cons.mp hmem with rfl | hmem
      · rw [decide_eq_true rfl]
      · have hne : tag first ≠ tag branch := fun heq => h.1 (heq ▸ List.mem_map_of_mem hmem)
        rw [decide_eq_false hne]
        exact ih h.2 hmem

theorem eval_errorQuoting {world : World} {locals : Locals} {front name s : String} (h : locals.lookup name = some (.text s)) :
    (Runtime.errorQuoting front name).eval world locals = .value (refusal (front ++ "'" ++ s ++ "'.")) := by
  rw [Runtime.errorQuoting, eval_error (eval_concat (eval_text _) (eval_concat (Term.eval_var h) (eval_text _))),
    ← String.append_assoc]

end

/-! ## Decoders with tags -/

namespace Context

variable {context : Context} {decoder : String} {branches : List TaggedBranch} {arms : List (Clause × Body)}

/-- The arms of a match stand for branches, each with the pattern of its tag and a body that builds its constructor. -/
def StandFor (context : Context) (decoder : String) (pattern : String → Pattern) (branches : List TaggedBranch)
    (arms : List (Clause × Body)) : Prop :=
  List.Forall₂ (fun branch arm => arm.1 = ⟨pattern (context.options.jsonTag branch.name), none⟩ ∧
    context.BodyBuilds decoder branch arm.2) branches arms

/-- A match on tags selects a branch if its other arms answer that there is none. -/
theorem StandFor.selects {pattern : String → Pattern} (harms : context.StandFor decoder pattern branches arms)
    {world : World} (hworld : world.Counts) {document : Document} {tag unknown : String} {found : Val}
    (hpattern : ∀ s, (pattern s).bind? (.value found) = if s = tag then some [] else none)
    {rest : List (Clause × Body)}
    (hrest : Body.evalArms world [("json", .json document)] (.value found) rest = .value (refusal unknown)) :
    context.Selects decoder unknown branches world document tag
      (Body.evalArms world [("json", .json document)] (.value found) (arms ++ rest)) := by
  have hselected := evalArms_append_of_forall₂ world [("json", .json document)] harms hpattern rest
  unfold Selects
  split at hselected
  · next branch hfind =>
    obtain ⟨body, hbuilds, hbody⟩ := hselected
    rw [hfind, hbody]
    exact hbuilds world document hworld
  · next hfind => rw [hfind, hselected, hrest]

theorem StandFor.selects_dispatch (harms : context.StandFor decoder .text branches arms) {world : World}
    (hworld : world.Counts) {document : Document} {tag : String}
    (hfield : (fieldOf tagKey (Runtime.decode "string")).eval world [("json", .json document)] = .value (.text tag)) :
    context.Selects decoder (decoder ++ ": unknown tag value found " ++ "'" ++ tag ++ "'.") branches world document tag
      ((dispatch decoder arms).eval world [("json", .json document)]) := by
  rw [dispatch, Body.eval, hfield]
  refine harms.selects hworld (fun _ => rfl) ?_
  rw [Body.evalArms, ← @eval_errorQuoting world [("tag", .text tag), ("json", .json document)] _ "tag" tag rfl]
  rfl

/-! ## The arms of each shape -/

theorem standFor_constructorArms {constructors : List Positional}
    (h : constructors.mapM (context.constructorArm decoder) = .ok arms) :
    context.StandFor decoder .text (constructors.map .positional) arms := by
  refine List.forall₂_map_left_iff.mpr ((mapM_eq_ok.mp h).imp fun constructor arm harm => ?_)
  obtain ⟨body, hbody, harm⟩ := bind_eq_ok.mp harm
  obtain rfl := pure_eq_ok.mp harm
  obtain ⟨decoders, hdecoders, hbuilds⟩ := decodesArguments_contentsDecoder hbody
  exact ⟨rfl, fun world document hworld => ⟨decoders, hdecoders, hbuilds world document hworld⟩⟩

theorem standFor_hoistedArms (records : List HoistedRecord) :
    context.StandFor decoder .text (records.map .hoisted) (records.map (context.hoistedArm decoder)) := by
  refine List.forall₂_map_left_iff.mpr (List.forall₂_map_right_iff.mpr (List.forall₂_same.mpr fun record _ => ?_))
  refine ⟨rfl, fun world document _ => ⟨fun v hcall => ?_, fun message hcall => ?_⟩⟩
  · have hv : Term.eval world [("v", v), ("json", .json document)]
        (.construct ⟨[], Ocaml.constructorName record.branch⟩ [.var "v"]) =
        .value (.construct ⟨[], Ocaml.constructorName record.branch⟩ [v]) := by
      rw [Term.eval, Term.evalAll, Term.eval_var List.lookup_cons_self]
      rfl
    rw [hoistedArm, Body.eval, hcall, ← eval_ok hv, Body.evalArms]
    rfl
  · have hmessage : (Runtime.errorBefore (decoder ++ ": ") "message").eval world
        [("message", .text message), ("json", .json document)] = .value (refusal (decoder ++ ": " ++ message)) :=
      eval_error (eval_concat (eval_text _) (Term.eval_var List.lookup_cons_self))
    rw [hoistedArm, Body.eval, hcall, ← hmessage, Body.evalArms, Body.evalArms]
    rfl

theorem selects_enumerationDecoder {tags : List String} (htags : ∀ tag, tags ≠ [tag]) {world : World}
    (hworld : world.Counts) {document : Document} {tag : String}
    (htext : (Runtime.onJson (.path ⟨["Js", "Json"], "decodeString"⟩)).eval world [("json", .json document)] =
      .value (.construct Runtime.somePath [.text tag])) :
    context.Selects decoder (decoder ++ ": unknown enumeration " ++ "'" ++ tag ++ "'.")
      (tags.map fun tag => .positional ⟨tag, []⟩) world document tag
      ((context.enumerationDecoder decoder tags).eval world [("json", .json document)]) := by
  have harms : context.StandFor decoder (fun s => .construct Runtime.somePath (.text s))
      (tags.map fun tag => .positional ⟨tag, []⟩) (tags.map fun tag =>
        (⟨.construct Runtime.somePath (.text (context.options.jsonTag tag)), none⟩,
          Body.value (Runtime.ok (constructed tag 0)))) := by
    refine List.forall₂_map_left_iff.mpr (List.forall₂_map_right_iff.mpr (List.forall₂_same.mpr fun tag _ => ?_))
    refine ⟨rfl, fun world document _ => ⟨[], rfl, ?_⟩⟩
    rw [Body.eval]
    exact eval_ok (eval_constructed tag [])
  unfold enumerationDecoder
  split
  · exact absurd rfl (htags _)
  · rw [Body.eval, htext]
    refine harms.selects hworld (fun _ => rfl) ?_
    rw [Body.evalArms, ← @eval_errorQuoting world [("value", .text tag), ("json", .json document)] _ "value" tag rfl]
    rfl

/-- The last function of a shape with tags selects a branch. -/
theorem selects_functions {parameters : List String} {shape : Shape} {functions : List Function}
    (h : context.functions parameters shape = .ok functions) (hbranches : shape.branches? = some branches) :
    ∃ front own, functions = front ++ [own] ∧ own.name = Ocaml.decoderName context.displayName ∧
      ∀ (world : World) (document : Document) (tag : String), world.Counts → shape.Finds world document tag →
        context.Selects own.name (shape.unknownTag own.name tag) branches world document tag
          (own.body.eval world [("json", .json document)]) := by
  cases shape with
  | sum constructors =>
    cases hbranches
    obtain ⟨arms, harms, h⟩ := bind_eq_ok.mp h
    obtain rfl := pure_eq_ok.mp h
    exact ⟨[], _, rfl, rfl, fun world document tag hworld hfinds =>
      (standFor_constructorArms harms).selects_dispatch hworld hfinds⟩
  | sumOfRecords records =>
    cases hbranches
    obtain ⟨hoisted, -, h⟩ := bind_eq_ok.mp h
    obtain rfl := pure_eq_ok.mp h
    exact ⟨hoisted, _, rfl, rfl, fun world document tag hworld hfinds =>
      (standFor_hoistedArms records).selects_dispatch hworld hfinds⟩
  | enumeration tags =>
    obtain rfl := pure_eq_ok.mp h
    have htags : (∀ tag, tags ≠ [tag]) ∧ branches = tags.map fun tag => .positional ⟨tag, []⟩ := by
      unfold Shape.branches? at hbranches
      split at hbranches <;> simp_all
    obtain ⟨htags, rfl⟩ := htags
    exact ⟨[], _, rfl, rfl, fun world document tag hworld hfinds => selects_enumerationDecoder htags hworld hfinds⟩
  | _ => cases hbranches

end Context

/-! ## Texts -/

namespace Descriptor

/-- The decoder of a type with tags selects the first branch in declared order that JSON gives the tag which is found,
and builds the constructor of this branch, whatever the world says of the names that it calls, its parameters among them.
A tag that no branch has is quoted in the message. So where the tags are pairwise distinct each branch has its own tag
and no other one. The literals in the text are read back as the tags, and where names are plain the whole text is read
back as the functions. -/
theorem decoder_dispatches {descriptor : Descriptor} {options : Options} {text : String} {shape : Shape}
    {branches : List TaggedBranch} (htext : descriptor.renderDecoder options = .ok text)
    (hshape : descriptor.classify = .ok shape) (hbranches : shape.branches? = some branches) :
    ∃ group front own, descriptor.decoder options = .ok group ∧ text = Ocaml.source group.functionLines ∧
      group.items = front ++ [own] ∧ own.name = Ocaml.decoderName descriptor.displayName ∧
      (∀ (world : World) (document : Document) (tag : String), world.Counts → shape.Finds world document tag →
        (Context.ofDescriptor options descriptor).Selects own.name (shape.unknownTag own.name tag) branches world document
          tag (own.body.eval world [("json", .json document)])) ∧
      ((branches.map fun branch => options.jsonTag branch.name).Nodup → ∀ branch ∈ branches, ∀ tag,
        branches.find? (fun branch => options.jsonTag branch.name = tag) = some branch ↔
          options.jsonTag branch.name = tag) ∧
      (∀ branch ∈ branches, Ocaml.lex (Token.literal (options.jsonTag branch.name)).chars =
        some [.literal (options.jsonTag branch.name)]) ∧
      (descriptor.HasPlainNames options → ∃ tokens, Ocaml.lex text.toList = some tokens ∧
        Ocaml.readTokens tokens = some group.definitions) := by
  obtain ⟨group, hgroup, rfl⟩ := renderDecoder_eq_ok.mp htext
  obtain ⟨shape', hshape', -, hfunctions⟩ := decoder_eq_ok.mp hgroup
  obtain rfl : shape' = shape := Except.ok.inj (hshape'.symm.trans hshape)
  obtain ⟨front, own, hitems, hname, hselects⟩ := Context.selects_functions hfunctions hbranches
  refine ⟨group, front, own, hgroup, rfl, hitems, hname, hselects, ?_, ?_, ?_⟩
  · exact fun hdistinct branch hmem tag => find?_eq_some_iff_of_nodup hdistinct hmem tag
  · intro branch _
    rw [Ocaml.lex, Ocaml.Lexer.run_literal _ List.mem_cons_self]
    rfl
  · exact fun hnames => exists_readTokens hnames hgroup

def parcel : Descriptor :=
  .ofConstructor ⟨"main", "Types", "Parcel"⟩ <| .value <| .multiple [
    .ofArguments "Lost" [],
    .ofArguments "Sized" [.primitive (.scalar .int)],
    .ofArguments "Labelled" [.primitive (.scalar .int), .primitive (.scalar .string)]]

theorem parcel_dispatches :
    ∃ group own, parcel.decoder {} = .ok group ∧ own ∈ group.items ∧
      own.body.eval .library [("json", .json (.map [
        ("tag", .text "Labelled"),
        ("contents", .sequence [.number (.integer 3), .text "fragile"])]))] =
        .value (acceptance (.construct ⟨[], "Labelled"⟩ [.number 3, .text "fragile"])) := by
  obtain ⟨group, front, own, hgroup, -, hitems, hname, hselects, -, -, -⟩ :=
    decoder_dispatches (rfl : parcel.renderDecoder {} = .ok _) rfl rfl
  refine ⟨group, own, hgroup, hitems ▸ List.mem_concat_self, ?_⟩
  obtain ⟨decoders, hdecoders, hcontents⟩ := hselects .library (.map [
    ("tag", .text "Labelled"),
    ("contents", .sequence [.number (.integer 3), .text "fragile"])]) "Labelled" World.counts_library rfl
  cases hdecoders
  exact ((hcontents.items _ rfl).inOrder rfl).succeeds [.number 3, .text "fragile"] rfl

end Descriptor

end TypeScribe
