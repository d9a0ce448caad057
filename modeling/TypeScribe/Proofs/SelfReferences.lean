import TypeScribe.Proofs.Interfaces
import TypeScribe.Proofs.RecursiveGroups

/-!
# Under which name a type refers to itself

A reference carries a name, and the type that is defined is called by its display name. A reference to the type that is
defined is printed without modules, under the name that it carries. So it names the definition where that is the display
name, as it is in a descriptor that is made under the type's own name.
-/

namespace TypeScribe
open Ocaml (Path Term TypeExpr TypeDefinition Function)

/-- The name that a reference carries: a plain one has a name of its own, an application that of its type. -/
def Value.carriedName? : Value → Option String
  | .typeRef _ name => some name
  | .application identity _ => some identity.name
  | _ => none

/-- The expression is the path alone, or applied to arguments. -/
inductive Ocaml.Term.IsHeadedBy (path : Path) : Term → Prop where
  | bare : IsHeadedBy path (.path path)
  | applied (arguments : List Term) : IsHeadedBy path (.apply (.path path) arguments)

namespace Context

/-- The value is printed in the definitions and in the functions, with the type name and the decoder name made of `name`
and without modules. -/
structure PrintsUnder (context : Context) (definitions : List TypeDefinition) (functions : List Function) (name : String)
    (part : Value) : Prop where
  declared : context.Declares definitions part
  decoded : context.Decodes functions part
  type : ∀ type, context.typeExpr part.fieldType = .ok type →
    ∃ arguments, type = .constructor ⟨[], Ocaml.typeName name⟩ arguments
  decoder : ∀ converter, context.converter part.fieldType = .ok converter →
    converter.term.IsHeadedBy ⟨[], Ocaml.decoderName name⟩

variable {context : Context} {part : Value} {name : String}

theorem pathTo_identity (context : Context) (name : String) : context.pathTo context.identity name = .ok ⟨[], name⟩ := by
  rw [pathTo, DependencyMap.qualify, if_pos rfl]
  rfl

section
variable (hidentity : part.identity? = some context.identity) (hname : part.carriedName? = some name)
include hidentity hname

theorem exists_typeExpr_of_identity {type : TypeExpr} (h : context.typeExpr part.fieldType = .ok type) :
    ∃ arguments, type = .constructor ⟨[], Ocaml.typeName name⟩ arguments := by
  cases part with
  | typeRef identity own =>
    obtain rfl := Option.some.inj hidentity
    obtain rfl := Option.some.inj hname
    rw [Value.fieldType, typeExpr, pathTo_identity] at h
    exact ⟨[], (pure_eq_ok.mp h).symm⟩
  | application identity arguments =>
    obtain rfl := Option.some.inj hidentity
    obtain rfl := Option.some.inj hname
    rw [typeExpr_application] at h
    obtain ⟨types, -, h⟩ := bind_eq_ok.mp h
    rw [pathTo_identity] at h
    exact ⟨types, (pure_eq_ok.mp h).symm⟩
  | _ => cases hidentity

theorem isHeadedBy_of_identity {converter : Converter} (h : context.converter part.fieldType = .ok converter) :
    converter.term.IsHeadedBy ⟨[], Ocaml.decoderName name⟩ := by
  cases part with
  | typeRef identity own =>
    obtain rfl := Option.some.inj hidentity
    obtain rfl := Option.some.inj hname
    rw [Value.fieldType, Context.converter, pathTo_identity] at h
    obtain rfl := pure_eq_ok.mp h
    exact .bare
  | application identity arguments =>
    obtain rfl := Option.some.inj hidentity
    obtain rfl := Option.some.inj hname
    rw [converter_application] at h
    obtain ⟨path, hpath, h⟩ := bind_eq_ok.mp h
    obtain rfl := Except.ok.inj ((pathTo_identity context _).symm.trans hpath)
    obtain ⟨terms, -, h⟩ := bind_eq_ok.mp h
    obtain rfl := pure_eq_ok.mp h
    exact .applied terms
  | _ => cases hidentity

end

end Context

/-! ## The definition of the type itself -/

theorem exists_concat_of_forall₂ {α β : Type} {R : α → β → Prop} {xs : List α} {x : α} {ys : List β}
    (h : List.Forall₂ R (xs ++ [x]) ys) : ∃ front y, ys = front ++ [y] ∧ R x y := by
  have hreverse := List.rel_reverse h
  rw [List.reverse_append, List.reverse_singleton, List.singleton_append] at hreverse
  obtain ⟨y, back, hxy, -, hys⟩ := List.forall₂_cons_left_iff.mp hreverse
  exact ⟨back.reverse, y, by rw [← List.reverse_reverse ys, hys, List.reverse_cons], hxy⟩

namespace Descriptor

variable {descriptor : Descriptor} {options : Options}

/-- A type's references to itself are printed without modules under the names that they carry, at any depth, in the
declaration and in the decoder. Where that name is the display name, they name the type that the last definition defines
and the decoder that the last function is. -/
theorem selfReferences_areUnqualified {declaration decoder : String}
    (hdeclaration : descriptor.renderDeclaration options = .ok declaration)
    (hdecoder : descriptor.renderDecoder options = .ok decoder) :
    ∃ types type functions function,
      descriptor.declaration options = .ok ⟨descriptor.references descriptor.identity, types ++ [type]⟩ ∧
      descriptor.decoder options = .ok ⟨descriptor.references descriptor.identity, functions ++ [function]⟩ ∧
      declaration = Ocaml.source (Ocaml.DefinitionGroup.typeLines
        ⟨descriptor.references descriptor.identity, types ++ [type]⟩) ∧
      decoder = Ocaml.source (Ocaml.DefinitionGroup.functionLines
        ⟨descriptor.references descriptor.identity, functions ++ [function]⟩) ∧
      type.name = Ocaml.typeName descriptor.displayName ∧ function.name = Ocaml.decoderName descriptor.displayName ∧
      ∀ part name, descriptor.Holds part → part.identity? = some descriptor.identity → part.carriedName? = some name →
        (Context.ofDescriptor options descriptor).PrintsUnder (types ++ [type]) (functions ++ [function]) name part ∧
        (name = descriptor.displayName → type.name = Ocaml.typeName name ∧ function.name = Ocaml.decoderName name) := by
  obtain ⟨⟨_, definitions⟩, hgroup, rfl⟩ := renderDeclaration_eq_ok.mp hdeclaration
  obtain ⟨shape, hshape, rfl, hdefinitions⟩ := declaration_eq_ok.mp hgroup
  obtain ⟨⟨_, functions⟩, hgroup', rfl⟩ := renderDecoder_eq_ok.mp hdecoder
  obtain ⟨shape', hshape', rfl, hfunctions⟩ := decoder_eq_ok.mp hgroup'
  obtain rfl := Except.ok.inj (hshape.symm.trans hshape')
  obtain ⟨types, type, rfl, hdeclared⟩ := exists_concat_of_forall₂ (Context.forall₂_typeDefinitions hdefinitions)
  obtain ⟨functions, function, rfl, hdecoded⟩ := exists_concat_of_forall₂ (Context.forall₂_functions hfunctions)
  have htype : type.name = Ocaml.typeName descriptor.displayName :=
    (Ocaml.Path.mk.inj (TypeExpr.constructor.inj hdeclared.defines).1).2
  have hfunction : function.name = Ocaml.decoderName descriptor.displayName := hdecoded.name
  refine ⟨types, type, functions, function, hgroup, hgroup', rfl, rfl, htype, hfunction, ?_⟩
  intro part name hpart hidentity hname
  have hnamed := Value.isNamed_of_identity? hidentity
  obtain ⟨value, hvalue, hoccurs⟩ := (holds_iff_of_classify hshape hnamed).mp hpart
  refine ⟨⟨?_, ?_, ?_, ?_⟩, ?_⟩
  · exact Context.declares_typeDefinitions hnamed hdefinitions hvalue hoccurs
  · exact Context.decodes_functions hnamed hfunctions hvalue hoccurs
  · exact fun _ => Context.exists_typeExpr_of_identity hidentity hname
  · exact fun _ => Context.isHeadedBy_of_identity hidentity hname
  · rintro rfl
    exact ⟨htype, hfunction⟩

def thicket : Descriptor :=
  let type : Identity := ⟨"main", "Types", "Thicket"⟩
  .ofConstructor type <| .value <| .ofFields "Thicket" [
    ("seed", .reference type),
    ("branches", .primitive (.list (.apply type [.parameter "a"])))]

theorem thicket_refersToItself :
    ∃ types type functions function,
      thicket.declaration {} = .ok ⟨true, types ++ [type]⟩ ∧ thicket.decoder {} = .ok ⟨true, functions ++ [function]⟩ ∧
      type.name = Ocaml.typeName "Thicket" ∧ function.name = Ocaml.decoderName "Thicket" ∧
      ∀ part ∈ [Value.reference thicket.identity, .apply thicket.identity [.parameter "a"]],
        (Context.ofDescriptor {} thicket).PrintsUnder (types ++ [type]) (functions ++ [function]) "Thicket" part := by
  obtain ⟨types, type, functions, function, htypes, hfunctions, -, -, hname, hname', hprints⟩ :=
    selfReferences_areUnqualified (rfl : thicket.renderDeclaration {} = .ok _) (rfl : thicket.renderDecoder {} = .ok _)
  refine ⟨types, type, functions, function, htypes, hfunctions, hname, hname', ?_⟩
  simp only [List.forall_mem_cons, List.not_mem_nil, false_imp_iff, implies_true, and_true]
  constructor
  · refine (hprints _ "Thicket" ⟨_, List.mem_singleton_self _, ?_⟩ rfl rfl).1
    exact .productLeft (.field .self)
  · refine (hprints _ "Thicket" ⟨_, List.mem_singleton_self _, ?_⟩ rfl rfl).1
    exact .productRight (.field (.component (List.mem_singleton_self _) .self))

/-- A tree of labels, under a display name that is not the type's own name. -/
def forest : Descriptor where
  identity := ⟨"main", "Types", "Tree"⟩
  displayName := "Forest"
  constructor := .value <| .ofFields "Forest" [
    ("label", .primitive (.scalar .string)),
    ("branches", .primitive (.list (.reference ⟨"main", "Types", "Tree"⟩)))]

/-- A reference to the type itself does not have the name of the type that is defined. -/
theorem forest_refersToTree :
    ∃ type function, forest.declaration {} = .ok ⟨true, [type]⟩ ∧ forest.decoder {} = .ok ⟨true, [function]⟩ ∧
      ∃ part, forest.Holds part ∧ part.identity? = some forest.identity ∧
        (Context.ofDescriptor {} forest).typeExpr part.fieldType = .ok (.constructor ⟨[], "tree"⟩ []) ∧
        type.name = "forest" ∧
        (Context.ofDescriptor {} forest).converter part.fieldType = .ok ⟨.path ⟨[], "decodeTree"⟩, .returning⟩ ∧
        function.name = "decodeForest" := by
  refine ⟨_, _, rfl, rfl, .reference ⟨"main", "Types", "Tree"⟩, ?_, rfl, rfl, rfl, rfl, rfl⟩
  exact ⟨_, List.mem_singleton_self _, .productRight (.field (.component (List.mem_singleton_self _) .self))⟩

end Descriptor

end TypeScribe
