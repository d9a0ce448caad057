import TypeScribe.Proofs.Comparison
import TypeScribe.Proofs.UnquotedDecoders

/-!
# What the transforms of names reach

The keys and tags of JSON stand in the text literals of decoders and nowhere else, and nothing is decided by them. So two
renderings under different transforms of names differ in nothing but the content of literals.
-/

namespace TypeScribe
open Ocaml (Function DefinitionGroup eraseLiterals)

namespace Ocaml

theorem emptied_functionLines {group group' : DefinitionGroup Function} (hrecursive : group.recursive = group'.recursive)
    (hitems : List.Forall₂ (Context.SameFunction fun _ => "") group.items group'.items) :
    group.functionLines.map Line.emptied = group'.functionLines.map Line.emptied := by
  obtain ⟨recursive, functions⟩ := group
  obtain ⟨recursive', functions'⟩ := group'
  obtain rfl : recursive = recursive' := hrecursive
  have hfunctions : functions.map (·.mapTexts fun _ => "") = functions'.map (·.mapTexts fun _ => "") :=
    map_eq_of_forall₂ hitems
  rw [← DefinitionGroup.functionLines_mapTexts, ← DefinitionGroup.functionLines_mapTexts, hfunctions]

end Ocaml

namespace Descriptor

variable {descriptor : Descriptor} {options options' : Options}

/-- No quote stands in a word of the decoders of a type, if none stands in a name of the type or of a module. -/
theorem unquoted_decoder (hnames : ∀ name ∈ descriptor.names, IsUnquoted name)
    (hmodules : ∀ entry ∈ options.dependencies.entries, ∀ m ∈ entry.location.modules, IsUnquoted m)
    {group : DefinitionGroup Function} (h : descriptor.decoder options = .ok group) :
    ∀ line ∈ group.functionLines, line.Unquoted := by
  obtain ⟨shape, hshape, -, hfunctions⟩ := decoder_eq_ok.mp h
  have hcontext : (Context.ofDescriptor options descriptor).HasUnquotedModules := hmodules
  have hparameters : ∀ name ∈ descriptor.parameters, IsUnquoted name := fun name hname =>
    hnames name (mem_names_of_holds (holds_of_mem_parameters hname) (List.mem_singleton_self name))
  have hshapeNames : ∀ name ∈ shape.names, IsUnquoted name := fun name hname => by
    rcases mem_names_of_classify hshape hname with hname | ⟨typeName, htypeName, branch, hbranch, rfl⟩
    · exact hnames name hname
    · exact isUnquoted_append (hnames typeName htypeName) (isUnquoted_upperFirst (hnames branch hbranch))
  exact Ocaml.unquoted_functionLines
    (hcontext.functions (hnames _ List.mem_cons_self) hparameters hshapeNames hfunctions)

/-- The transforms of names change nothing but the content of text literals. With the same dependency map, and no quote
in a name of the type or of a module, the declaration and the interface of a type are the same under any two options, and
its decoders are erased to the same text, or fail with the same fault. The signatures of decoders depend on no option. -/
theorem transforms_reachOnlyLiterals (hdependencies : options.dependencies = options'.dependencies)
    (hnames : ∀ name ∈ descriptor.names, IsUnquoted name)
    (hmodules : ∀ entry ∈ options.dependencies.entries, ∀ m ∈ entry.location.modules, IsUnquoted m) :
    descriptor.renderDeclaration options = descriptor.renderDeclaration options' ∧
      descriptor.renderDeclarationSignature options = descriptor.renderDeclarationSignature options' ∧
      descriptor.renderSignature options = descriptor.renderSignature options' ∧
      Matches Eq (fun text text' => eraseLiterals text = eraseLiterals text')
        (descriptor.renderDecoder options) (descriptor.renderDecoder options') := by
  have halike : descriptor.Alike options descriptor options' := .of_samePaths
    { refl := fun _ => rfl
      misplaced := fun _ _ => rfl
      paths := fun _ _ _ => Matches.eq_iff.mpr (by simp only [Context.pathTo, Context.ofDescriptor, hdependencies]) }
  have htexts : Context.SameTexts (fun _ => "") (.ofDescriptor options descriptor) (.ofDescriptor options' descriptor) :=
    ⟨fun _ _ _ => rfl, fun _ => rfl⟩
  refine ⟨halike.renderDeclaration, halike.renderDeclaration, halike.renderSignature, ?_⟩
  refine (halike.decoder htexts).with_ok.bind fun group group' hgroups => .ok ?_
  obtain ⟨⟨hrecursive, hitems⟩, hgroup, hgroup'⟩ := hgroups
  rw [Ocaml.eraseLiterals_source (unquoted_decoder hnames hmodules hgroup),
    Ocaml.eraseLiterals_source (unquoted_decoder hnames (hdependencies ▸ hmodules) hgroup'),
    Ocaml.emptied_functionLines hrecursive hitems]

def box : Descriptor :=
  let type : Identity := ⟨"main", "Orders", "Box"⟩
  .ofConstructor type <| .value <| .multiple [
    .ofArguments "Empty_box" [],
    .ofArguments "Full\\_box" [.reference ⟨"main", "Goods", "Item"⟩, .primitive (.option (.reference type))]]

/-- Two transforms make two tags of that name, and once literals are erased the decoders are the same. -/
theorem box_rendersAlike :
    let goods : DependencyMap := .ofEntries [⟨⟨"main", "Goods", "Item"⟩, ⟨["lib", "goods"], ["Stock"]⟩⟩]
    let kept : Options := { dependencies := goods }
    let changed : Options := { dependencies := goods, constructorTag := ⟨[.kebabCase, .dropChars 3]⟩ }
    kept.jsonTag "Full\\_box" = "Full\\_box" ∧ changed.jsonTag "Full\\_box" = "l\\-box" ∧
    box.renderDeclaration kept = box.renderDeclaration changed ∧
    ∃ text text', box.renderDecoder kept = .ok text ∧ box.renderDecoder changed = .ok text' ∧
      eraseLiterals text = eraseLiterals text' := by
  intro goods kept changed
  obtain ⟨hdeclaration, -, -, hdecoder⟩ := @transforms_reachOnlyLiterals box kept changed rfl (by decide) (by decide)
  obtain ⟨text, htext⟩ : ∃ text, box.renderDecoder kept = .ok text := ⟨_, rfl⟩
  obtain ⟨text', htext'⟩ : ∃ text', box.renderDecoder changed = .ok text' := ⟨_, rfl⟩
  rw [htext, htext'] at hdecoder
  cases hdecoder with
  | ok herased => exact ⟨by decide, by decide, hdeclaration, text, text', htext, htext', herased⟩

end Descriptor

end TypeScribe
