import TypeScribe.Proofs.Interfaces
import TypeScribe.Proofs.Labels

/-!
# Names of hoisted record types

The record types for the branches of a sum of records are called like the sum with the constructor of the branch after
it. A constructor starts with a capital, which no keyword has in it and no escape adds. So these names differ from each
other where the constructors differ, and all of them differ from the name of the sum.
-/

namespace TypeScribe
open Ocaml (TypeDefinition Function afterKeyword joined keywords escapeKeyword typeName constructorName decoderName)
open Ocaml.Lexer (isWordChar forall_isWordChar)

/-! ## Names after names -/

theorem isWordChar_of_isAlpha {c : Char} (h : c.isAlpha = true) : isWordChar c = true :=
  Ocaml.Lexer.isWordChar_of_first (.inl h)

theorem exists_constructorName_eq {name : String} (h : StartsWith Char.isAlpha name) :
    ∃ c rest, (constructorName name).toList = c :: rest ∧ c.isUpper = true := by
  obtain ⟨c, rest, hname, hc⟩ := startsWith_iff.mp h
  have hword := isWordChar_of_isAlpha hc
  refine ⟨c.toUpper, rest, toList_upperFirst hname hword, ?_⟩
  exact forall_isWordChar (P := fun c => c.isAlpha = true → c.toUpper.isUpper = true) (by decide) hword hc

theorem upperFirst_append {name : String} (h : StartsWith Char.isAlpha name) (back : String) :
    Name.upperFirst (name ++ back) = Name.upperFirst name ++ back := by
  obtain ⟨c, rest, hname, hc⟩ := startsWith_iff.mp h
  have hword := isWordChar_of_isAlpha hc
  have happend : (name ++ back).toList = c :: (rest ++ back.toList) := by
    rw [String.toList_append, hname]
    rfl
  rw [← String.toList_inj, toList_upperFirst happend hword, String.toList_append, toList_upperFirst hname hword]
  rfl

section
variable {sum branch : String} (hsum : StartsWith Char.isAlpha sum)
include hsum

theorem typeName_hoistedName (hbranch : StartsWith Char.isAlpha branch) :
    typeName (Shape.hoistedName sum branch) = Name.lowerFirst sum ++ constructorName branch := by
  obtain ⟨c, rest, hconstructor, hc⟩ := exists_constructorName_eq hbranch
  have hname : Name.lowerFirst (Shape.hoistedName sum branch) = Name.lowerFirst sum ++ constructorName branch :=
    lowerFirst_append (fun _ => isWordChar_of_isAlpha) hsum _
  -- the constructor brings a capital into the name, so nothing is escaped
  have hsmall : ∀ word ∈ keywords, word.toList.any Char.isUpper = false := by decide
  have hfree : Name.lowerFirst sum ++ constructorName branch ∉ keywords := by
    intro hkeyword
    have hcapital := List.any_eq_false.mp (hsmall _ hkeyword) c
    rw [String.toList_append, hconstructor] at hcapital
    exact hcapital (List.mem_append_right _ List.mem_cons_self) hc
  rw [typeName, hname, Ocaml.escapeKeyword_of_notMem hfree]

theorem decoderName_hoistedName :
    decoderName (Shape.hoistedName sum branch) = decoderName sum ++ constructorName branch := by
  rw [decoderName, Shape.hoistedName, upperFirst_append hsum, ← String.append_assoc]
  rfl

end

/-! ## Names that differ -/

theorem exists_escapeKeyword_eq (name : String) : ∃ back ∈ ["", "_"], escapeKeyword name = name ++ back := by
  by_cases hkeyword : name ∈ keywords
  · exact ⟨"_", by decide, Ocaml.escapeKeyword_of_mem hkeyword⟩
  · exact ⟨"", by decide, by rw [Ocaml.escapeKeyword_of_notMem hkeyword, String.append_empty]⟩

theorem notMem_constructorNames {names : List String} (h : ∀ name ∈ names, StartsWith Char.isAlpha name) {back : String}
    (hback : back ∈ ["", "_"]) : back ∉ names.map constructorName := by
  intro hmem
  obtain ⟨name, hname, rfl⟩ := List.mem_map.mp hmem
  obtain ⟨c, rest, hconstructor, hc⟩ := exists_constructorName_eq (h name hname)
  have hsmall : ∀ back ∈ ["", "_"], back.toList.any Char.isUpper = false := by decide
  have hcapital := List.any_eq_false.mp (hsmall _ hback) c
  rw [hconstructor] at hcapital
  exact hcapital List.mem_cons_self hc

theorem nodup_continued (front : String) {names : List String} (hnames : names.Nodup) {back : String}
    (hback : back ∉ names) : ((names ++ [back]).map (front ++ ·)).Nodup := by
  have hinjective : Function.Injective (front ++ ·) := fun _ _ h => (String.append_right_inj front).mp h
  refine List.Nodup.map hinjective (List.nodup_append.mpr ⟨hnames, List.nodup_singleton back, ?_⟩)
  rintro name hname other hother rfl
  exact hback (List.mem_singleton.mp hother ▸ hname)

theorem map_name_of_isDeclaredBy {heads : List TypeHead} {definitions : List TypeDefinition}
    (h : List.Forall₂ TypeHead.IsDeclaredBy heads definitions) :
    definitions.map (·.name) = heads.map (typeName ·.displayName) :=
  (map_eq_of_forall₂ (h.imp fun _ _ hdeclared => hdeclared.name.symm)).symm

theorem map_name_of_isDecodedBy {heads : List TypeHead} {functions : List Function}
    (h : List.Forall₂ TypeHead.IsDecodedBy heads functions) :
    functions.map (·.name) = heads.map (decoderName ·.displayName) :=
  (map_eq_of_forall₂ (h.imp fun _ _ hdecoded => hdecoded.name.symm)).symm

namespace Descriptor

variable {descriptor : Descriptor} {alternatives : Alternatives}
variable (hsum : descriptor.constructor = .sumOfRecords descriptor.displayName alternatives)
variable (hname : StartsWith Char.isAlpha descriptor.displayName)
include hsum

/-- The record types are called like the sum and the branch, in the order of the branches, and the sum comes last. -/
theorem map_heads {names : String → String} : descriptor.heads.map (names ·.displayName) =
    (alternatives.branches.map fun branch => names (Shape.hoistedName descriptor.displayName branch.name)) ++
      [names descriptor.displayName] := by
  rw [heads, hsum, Constructor.hoistedHeads, List.map_append, List.map_map]
  rfl

include hname

theorem nodup_decoderNames (hconstructors : ((alternatives.branches.map (·.name)).map constructorName).Nodup)
    (hbranches : ∀ name ∈ alternatives.branches.map (·.name), StartsWith Char.isAlpha name) :
    (descriptor.heads.map (decoderName ·.displayName)).Nodup := by
  have hnames : descriptor.heads.map (decoderName ·.displayName) =
      ((alternatives.branches.map (·.name)).map constructorName ++ [""]).map
        (decoderName descriptor.displayName ++ ·) := by
    rw [map_heads hsum, List.map_append, List.map_map, List.map_map]
    refine congrArg₂ (· ++ ·) (List.map_congr_left fun branch _ => decoderName_hoistedName hname) ?_
    rw [List.map_singleton, String.append_empty]
  rw [hnames]
  exact nodup_continued _ hconstructors (notMem_constructorNames hbranches (by decide))

theorem nodup_typeNames (hconstructors : ((alternatives.branches.map (·.name)).map constructorName).Nodup)
    (hbranches : ∀ name ∈ alternatives.branches.map (·.name), StartsWith Char.isAlpha name) :
    (descriptor.heads.map (typeName ·.displayName)).Nodup := by
  obtain ⟨back, hback, hown⟩ := exists_escapeKeyword_eq (Name.lowerFirst descriptor.displayName)
  have hnames : descriptor.heads.map (typeName ·.displayName) =
      ((alternatives.branches.map (·.name)).map constructorName ++ [back]).map
        (Name.lowerFirst descriptor.displayName ++ ·) := by
    rw [map_heads hsum, List.map_append, List.map_map, List.map_map]
    refine congrArg₂ (· ++ ·) (List.map_congr_left fun branch hbranch => ?_) ?_
    · exact typeName_hoistedName hname (hbranches _ (List.mem_map_of_mem hbranch))
    · rw [List.map_singleton, typeName, hown]
  rw [hnames]
  exact nodup_continued _ hconstructors (notMem_constructorNames hbranches hback)

/-- The names of the types that are declared for a sum of records all differ, and so do those of their decoders, where
the sum is called like its type, its name and those of all branches start with letters, and the constructors differ. -/
theorem hoistedNames_differ (hbranches : ∀ branch ∈ alternatives.branches, StartsWith Char.isAlpha branch.name)
    (hconstructors : (alternatives.branches.map fun branch => constructorName branch.name).Nodup) (options : Options) :
    (∀ text, descriptor.renderDeclaration options = .ok text →
      ∃ definitions, descriptor.declaration options = .ok ⟨descriptor.references descriptor.identity, definitions⟩ ∧
        List.Forall₂ TypeHead.IsDeclaredBy descriptor.heads definitions ∧
        text = joined "type" (if descriptor.references descriptor.identity then "and" else "type")
          (definitions.map fun definition => afterKeyword (TypeDefinition.lines · definition)) ∧
        (definitions.map (·.name)).Nodup) ∧
    ∀ text, descriptor.renderDecoder options = .ok text →
      ∃ functions, descriptor.decoder options = .ok ⟨descriptor.references descriptor.identity, functions⟩ ∧
        List.Forall₂ TypeHead.IsDecodedBy descriptor.heads functions ∧
        text = joined (if descriptor.references descriptor.identity then "let rec" else "let")
          (if descriptor.references descriptor.identity then "and" else "let")
          (functions.map fun function => afterKeyword (Function.lines · function)) ∧
        (functions.map (·.name)).Nodup := by
  have hstart : ∀ name ∈ alternatives.branches.map (·.name), StartsWith Char.isAlpha name :=
    List.forall_mem_map.mpr hbranches
  have hdiffer : ((alternatives.branches.map (·.name)).map constructorName).Nodup := by
    rw [List.map_map]
    exact hconstructors
  constructor
  · intro text htext
    obtain ⟨definitions, hgroup, hheads, htext⟩ := exists_definitions htext
    refine ⟨definitions, hgroup, hheads, htext, ?_⟩
    rw [map_name_of_isDeclaredBy hheads]
    exact nodup_typeNames hsum hname hdiffer hstart
  · intro text htext
    obtain ⟨functions, hgroup, hheads, htext⟩ := exists_functions htext
    refine ⟨functions, hgroup, hheads, htext, ?_⟩
    rw [map_name_of_isDecodedBy hheads]
    exact nodup_decoderNames hsum hname hdiffer hstart

end Descriptor

def object : Descriptor :=
  .ofConstructor ⟨"main", "Types", "Object"⟩ <| .sumOfRecords "Object" <| .multiple [
    .ofFields "type" [("name", .primitive (.scalar .string))],
    .ofFields "Val" [("content", .primitive (.scalar .string))]]

theorem Descriptor.object_namesDiffer :
    (∃ definitions, object.declaration {} = .ok ⟨false, definitions⟩ ∧
      definitions.map (·.name) = ["objectType", "objectVal", "object_"] ∧ (definitions.map (·.name)).Nodup) ∧
    ∃ functions, object.decoder {} = .ok ⟨false, functions⟩ ∧
      functions.map (·.name) = ["decodeObjectType", "decodeObjectVal", "decodeObject"] ∧
      (functions.map (·.name)).Nodup := by
  obtain ⟨hdeclaration, hdecoder⟩ :=
    hoistedNames_differ (rfl : object.constructor = .sumOfRecords object.displayName _) (by decide) (by decide)
      (by decide) {}
  obtain ⟨definitions, hdefinitions, hdeclared, -, hdiffer⟩ := hdeclaration _ rfl
  obtain ⟨functions, hfunctions, hdecoded, -, hdiffer'⟩ := hdecoder _ rfl
  refine ⟨⟨definitions, hdefinitions, ?_, hdiffer⟩, functions, hfunctions, ?_, hdiffer'⟩
  · rw [map_name_of_isDeclaredBy hdeclared]
    decide
  · rw [map_name_of_isDecodedBy hdecoded]
    decide

end TypeScribe
