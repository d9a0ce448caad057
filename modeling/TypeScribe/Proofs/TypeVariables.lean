import TypeScribe.Proofs.Interfaces
import TypeScribe.Proofs.Labels
import TypeScribe.Proofs.SmallLetters
import TypeScribe.Proofs.TypeParameters

/-!
# Type parameters with one type variable

A type variable is the name of a type parameter with its first letter small. So type parameters that differ in the case
of this letter alone get the same type variable, which a type then lists twice. All others stay apart.
-/

namespace TypeScribe
open Ocaml (TypeDefinition afterKeyword joined)

/-! ## Names that start alike -/

/-- The texts go on alike after first letters that are the same in lower case. -/
inductive StartAlike : List Char → List Char → Prop where
  | letter {c d : Char} (rest : List Char) (h : Text.lower c = Text.lower d) : StartAlike (c :: rest) (d :: rest)
  /-- In lower case the capital `İ` is an `i` and a dot. -/
  | dotted {d : Char} (rest : List Char) (h : Text.lower d = ['i']) :
    StartAlike ('İ' :: rest) (d :: Text.dotAbove :: rest)
  | undotted {c : Char} (rest : List Char) (h : Text.lower c = ['i']) :
    StartAlike (c :: Text.dotAbove :: rest) ('İ' :: rest)

theorem StartAlike.lowerFirstChars_eq {a b : List Char} (h : StartAlike a b) :
    Name.lowerFirstChars a = Name.lowerFirstChars b := by
  cases h with
  | letter rest h => rw [Name.lowerFirstChars, Name.lowerFirstChars, h]
  | dotted rest h =>
    rw [Name.lowerFirstChars, Name.lowerFirstChars, h, Text.lower_dotted]
    rfl
  | undotted rest h =>
    rw [Name.lowerFirstChars, Name.lowerFirstChars, h, Text.lower_dotted]
    rfl

theorem startAlike_of_lowerFirstChars {c d : Char} {rest rest' : List Char}
    (h : Name.lowerFirstChars (c :: rest) = Name.lowerFirstChars (d :: rest')) :
    StartAlike (c :: rest) (d :: rest') := by
  rw [Name.lowerFirstChars, Name.lowerFirstChars] at h
  -- the two lists agree letter by letter, unless one of them starts with the two small letters of `İ`
  by_cases hc : c = 'İ'
  · subst hc
    by_cases hd : d = 'İ'
    · subst hd
      obtain rfl := List.append_cancel_left h
      exact .letter rest rfl
    · obtain ⟨e, hlower⟩ := Text.exists_lower_eq hd
      rw [hlower, Text.lower_dotted] at h
      obtain ⟨rfl, rfl⟩ := List.cons.inj h
      exact .dotted rest hlower
  · obtain ⟨e, hlower⟩ := Text.exists_lower_eq hc
    by_cases hd : d = 'İ'
    · subst hd
      rw [hlower, Text.lower_dotted] at h
      obtain ⟨rfl, rfl⟩ := List.cons.inj h
      exact .undotted rest' hlower
    · obtain ⟨e', hlower'⟩ := Text.exists_lower_eq hd
      rw [hlower, hlower'] at h
      obtain ⟨rfl, rfl⟩ := List.cons.inj h
      exact .letter rest (hlower.trans hlower'.symm)

/-- Names become the same with a small letter first if they are the same or start alike. -/
theorem lowerFirst_eq_iff {a b : String} :
    Name.lowerFirst a = Name.lowerFirst b ↔ a = b ∨ StartAlike a.toList b.toList := by
  have hlists : Name.lowerFirst a = Name.lowerFirst b ↔
      Name.lowerFirstChars a.toList = Name.lowerFirstChars b.toList := by
    rw [← String.toList_inj, Name.lowerFirst, Name.lowerFirst, String.toList_ofList, String.toList_ofList]
  rw [hlists, ← String.toList_inj]
  constructor
  · intro h
    cases ha : a.toList with
    | nil =>
      cases hb : b.toList with
      | nil => exact .inl rfl
      | cons d rest' =>
        rw [ha, hb] at h
        exact absurd h.symm (List.append_ne_nil_of_left_ne_nil (Text.lower_ne_nil d) rest')
    | cons c rest =>
      cases hb : b.toList with
      | nil =>
        rw [ha, hb] at h
        exact absurd h (List.append_ne_nil_of_left_ne_nil (Text.lower_ne_nil c) rest)
      | cons d rest' =>
        rw [ha, hb] at h
        exact .inr (startAlike_of_lowerFirstChars h)
  · rintro (h | h)
    · rw [h]
    · exact h.lowerFirstChars_eq

theorem StartAlike.eq_of_isLower {a b : String} (h : StartAlike a.toList b.toList) (ha : StartsWith Char.isLower a)
    (hb : StartsWith Char.isLower b) : a = b := by
  obtain ⟨c, rest, hachars, hc⟩ := startsWith_iff.mp ha
  obtain ⟨d, rest', hbchars, hd⟩ := startsWith_iff.mp hb
  rw [hachars, hbchars] at h
  rw [← String.toList_inj, hachars, hbchars]
  cases h with
  | letter rest h =>
    rw [Text.lower_of_isLower hc, Text.lower_of_isLower hd] at h
    rw [List.singleton_inj.mp h]
  | dotted rest h => exact absurd hc (by decide)
  | undotted rest h => exact absurd hd (by decide)

/-! ## Type variables -/

theorem quoted_injective : Function.Injective fun name : String => "'" ++ name := fun _ _ h =>
  (String.append_right_inj _).mp h

/-- A type lists type variables for the type parameters that stand in its values, one for each of them. They differ
unless two of the type parameters start alike. -/
structure TypeHead.Lists (head : TypeHead) (values : List Value) : Prop where
  sorted : head.parameters.Pairwise (· < ·)
  occurring : ∀ name, name ∈ head.parameters ↔ ∃ value ∈ values, (Value.parameter name).Occurs value
  nodup_iff : head.typeVariables.Nodup ↔
    ∀ a ∈ head.parameters, ∀ b ∈ head.parameters, StartAlike a.toList b.toList → a = b

/-- Type variables that are the same stand for type parameters that start alike. -/
theorem TypeHead.nodup_typeVariables_iff {head : TypeHead} (h : head.parameters.Pairwise (· < ·)) :
    head.typeVariables.Nodup ↔ ∀ a ∈ head.parameters, ∀ b ∈ head.parameters, StartAlike a.toList b.toList → a = b := by
  have hnodup : head.parameters.Nodup := h.imp fun hlt => ne_of_lt hlt
  unfold TypeHead.typeVariables
  rw [List.nodup_map_iff_inj_on hnodup]
  refine forall₂_congr fun a _ => forall₂_congr fun b _ => ?_
  have hsame : "'" ++ Ocaml.variableName a = "'" ++ Ocaml.variableName b ↔ a = b ∨ StartAlike a.toList b.toList :=
    quoted_injective.eq_iff.trans lowerFirst_eq_iff
  rw [hsame]
  constructor
  · intro heq halike
    exact heq (.inr halike)
  · rintro heq (hab | halike)
    · exact hab
    · exact heq halike

theorem TypeHead.lists {head : TypeHead} {values : List Value} (hsorted : head.parameters.Pairwise (· < ·))
    (hoccurring : ∀ name, name ∈ head.parameters ↔ ∃ value ∈ values, (Value.parameter name).Occurs value) :
    head.Lists values :=
  ⟨hsorted, hoccurring, nodup_typeVariables_iff hsorted⟩

/-- The type variables of type parameters that start with small letters of ASCII differ. -/
theorem TypeHead.Lists.nodup {head : TypeHead} {values : List Value} (h : head.Lists values)
    (hsmall : ∀ name ∈ head.parameters, StartsWith Char.isLower name) : head.typeVariables.Nodup := by
  rw [h.nodup_iff]
  intro a ha b hb halike
  exact halike.eq_of_isLower (hsmall a ha) (hsmall b hb)

def Constructor.hoistedValues : Constructor → List (List Value)
  | .sumOfRecords _ alternatives => alternatives.branches.map fun branch => [branch.value]
  | _ => []

theorem Constructor.lists_hoistedHeads (constructor : Constructor) :
    List.Forall₂ TypeHead.Lists constructor.hoistedHeads constructor.hoistedValues := by
  cases constructor with
  | sumOfRecords typeName alternatives =>
    refine List.forall₂_map_left_iff.mpr (List.forall₂_map_right_iff.mpr (List.forall₂_same.mpr ?_))
    intro branch _
    refine TypeHead.lists (pairwise_sortedNames _) fun name => ?_
    rw [mem_sortedNames, Value.mem_parameters]
    simp
  | _ => exact .nil

namespace Descriptor

def headValues (descriptor : Descriptor) : List (List Value) :=
  descriptor.constructor.hoistedValues ++ [descriptor.constructor.values]

theorem lists_heads (descriptor : Descriptor) :
    List.Forall₂ TypeHead.Lists descriptor.heads descriptor.headValues :=
  List.rel_append descriptor.constructor.lists_hoistedHeads
    (.cons (TypeHead.lists (pairwise_sortedNames _) fun _ => mem_parameters) .nil)

variable {descriptor : Descriptor} {options : Options} {text : String}

/-- In every declaration that is rendered, and in the types of the decoders, each type lists one type variable for each
type parameter that stands in its values. No type variable is listed twice unless two type parameters start alike. -/
theorem typeVariables_differ_iff (h : descriptor.renderDeclaration options = .ok text) :
    (∃ definitions, descriptor.declaration options = .ok ⟨descriptor.references descriptor.identity, definitions⟩ ∧
      List.Forall₂ TypeHead.IsDeclaredBy descriptor.heads definitions ∧
      text = joined "type" (if descriptor.references descriptor.identity then "and" else "type")
        (definitions.map fun definition => afterKeyword (TypeDefinition.lines · definition))) ∧
    descriptor.renderDecoderSignature = .ok (String.join (descriptor.heads.map (·.spec ++ "\n"))) ∧
    List.Forall₂ TypeHead.Lists descriptor.heads descriptor.headValues := by
  obtain ⟨group, hgroup, -⟩ := renderDeclaration_eq_ok.mp h
  obtain ⟨shape, hshape, -⟩ := declaration_eq_ok.mp hgroup
  exact ⟨exists_definitions h, renderDecoderSignature_of_classify hshape, descriptor.lists_heads⟩

theorem verdict_listsVariables :
    verdict.heads.map (·.typeVariables) = [["'e"], ["'a", "'e"], ["'a", "'e"]] ∧
      ∀ head ∈ verdict.heads, head.typeVariables.Nodup := by
  obtain ⟨-, -, hlists⟩ := typeVariables_differ_iff (rfl : verdict.renderDeclaration {} = .ok _)
  have hsmall : ∀ head ∈ verdict.heads, ∀ name ∈ head.parameters, StartsWith Char.isLower name := by decide
  refine ⟨by decide, ?_⟩
  intro head hhead
  obtain ⟨values, -, hhead'⟩ := exists_of_forall₂_left hlists hhead
  exact hhead'.nodup (hsmall head hhead)

def couple : Descriptor :=
  .ofConstructor ⟨"main", "Types", "Couple"⟩ <| .value <| .ofFields "Couple" [
    ("first", .parameter "A"),
    ("second", .parameter "a")]

/-- Both type parameters get the type variable `'a`, which the type lists twice. Their decoders stay apart. -/
theorem couple_repeatsVariable :
    couple.parameters = ["A", "a"] ∧
      couple.renderDeclaration {} = .ok "type ('a, 'a) couple =\n  \x7b first : 'a\n  ; second : 'a\n  \x7d\n" ∧
      couple.renderDecoderSignature = .ok ("val decodeCouple : (Js.Json.t -> ('a, string) Belt.Result.t) -> " ++
        "(Js.Json.t -> ('a, string) Belt.Result.t) -> Js.Json.t -> (('a, 'a) couple, string) Belt.Result.t\n") ∧
      couple.parameters.map Ocaml.decoderParameter = ["decode_A", "decode_a"] := by
  refine ⟨by decide, by decide, ?_, by decide⟩
  decide +kernel

end Descriptor

end TypeScribe
