import TypeScribe.Proofs.Legibility

/-!
# Decoders are read as they are meant

The text of the decoders of a type with plain names is read back as the functions it was formatted from. No arm of a
match is taken for one of a match inside another arm.
-/

namespace TypeScribe
open Ocaml (Path Term Token Pattern Clause Body Function Expr Definition DefinitionGroup Balanced lex readTokens)

/-! ## Expressions inside bodies -/

inductive Ocaml.Term.StandsIn (part : Term) : Term → Prop where
  | self : StandsIn part part
  | function {function : Term} {arguments : List Term} :
    StandsIn part function → StandsIn part (.apply function arguments)
  | argument {function argument : Term} {arguments : List Term} :
    argument ∈ arguments → StandsIn part argument → StandsIn part (.apply function arguments)
  | lambda {parameter : String} {body : Term} : StandsIn part body → StandsIn part (.lambda parameter body)
  | component {constructor : Path} {argument : Term} {arguments : List Term} :
    argument ∈ arguments → StandsIn part argument → StandsIn part (.construct constructor arguments)
  | concatLeft {left right : Term} : StandsIn part left → StandsIn part (.concat left right)
  | concatRight {left right : Term} : StandsIn part right → StandsIn part (.concat left right)
  | differsLeft {left right : Term} : StandsIn part left → StandsIn part (.differs left right)
  | differsRight {left right : Term} : StandsIn part right → StandsIn part (.differs left right)

/-- The expression is a part of what a body matches, of a guard or of a result. -/
inductive Ocaml.Body.Holds (part : Term) : Body → Prop where
  | value {t : Term} : part.StandsIn t → Holds part (.value t)
  | matched {scrutinee : Term} {arms : List (Clause × Body)} :
    part.StandsIn scrutinee → Holds part (.choose scrutinee arms)
  | guard {scrutinee guard : Term} {arms : List (Clause × Body)} {arm : Clause × Body} :
    arm ∈ arms → arm.1.guard = some guard → part.StandsIn guard → Holds part (.choose scrutinee arms)
  | arm {scrutinee : Term} {arms : List (Clause × Body)} {arm : Clause × Body} :
    arm ∈ arms → Holds part arm.2 → Holds part (.choose scrutinee arms)
  | attempted {scrutinee : Term} {failures : List (Clause × Term)} {name : String} {next : Body} :
    part.StandsIn scrutinee → Holds part (.proceed scrutinee failures name next)
  | failureGuard {scrutinee guard : Term} {failures : List (Clause × Term)} {name : String} {next : Body}
    {arm : Clause × Term} : arm ∈ failures → arm.1.guard = some guard → part.StandsIn guard →
      Holds part (.proceed scrutinee failures name next)
  | failure {scrutinee : Term} {failures : List (Clause × Term)} {name : String} {next : Body} {arm : Clause × Term} :
    arm ∈ failures → part.StandsIn arm.2 → Holds part (.proceed scrutinee failures name next)
  | next {scrutinee : Term} {failures : List (Clause × Term)} {name : String} {next : Body} :
    Holds part next → Holds part (.proceed scrutinee failures name next)

theorem Ocaml.Term.Readable.of_standsIn {part whole : Term} (h : whole.Readable) (hpart : part.StandsIn whole) :
    part.Readable := by
  induction hpart with
  | self => exact h
  | function _ ih =>
    cases h with
    | apply hfunction => exact ih hfunction
  | argument hmem _ ih =>
    cases h with
    | apply _ _ harguments => exact ih (harguments _ hmem)
  | lambda _ ih =>
    cases h with
    | lambda _ hbody => exact ih hbody
  | component hmem _ ih =>
    cases h with
    | construct _ harguments => exact ih (harguments _ hmem)
  | concatLeft _ ih =>
    cases h with
    | concat hleft => exact ih hleft
  | concatRight _ ih =>
    cases h with
    | concat _ hright => exact ih hright
  | differsLeft _ ih =>
    cases h with
    | differs hleft => exact ih hleft
  | differsRight _ ih =>
    cases h with
    | differs _ hright => exact ih hright

theorem Ocaml.Body.Readable.of_holds {part : Term} {body : Body} (h : body.Readable) (hpart : body.Holds part) :
    part.Readable := by
  induction hpart with
  | value hpart =>
    cases h with
    | value ht => exact ht.of_standsIn hpart
  | matched hpart =>
    cases h with
    | choose hscrutinee => exact hscrutinee.of_standsIn hpart
  | guard hmem hguard hpart =>
    cases h with
    | choose _ _ hclauses => exact ((hclauses _ hmem).guard _ hguard).of_standsIn hpart
  | arm hmem _ ih =>
    cases h with
    | choose _ _ _ hbodies => exact ih (hbodies _ hmem)
  | attempted hpart =>
    cases h with
    | proceed hscrutinee => exact hscrutinee.of_standsIn hpart
  | failureGuard hmem hguard hpart =>
    cases h with
    | proceed _ hfailures => exact ((hfailures _ hmem).1.guard _ hguard).of_standsIn hpart
  | failure hmem hpart =>
    cases h with
    | proceed _ hfailures => exact (hfailures _ hmem).2.of_standsIn hpart
  | next _ ih =>
    cases h with
    | proceed _ _ _ hnext => exact ih hnext

/-! ## Arguments -/

/-- The tokens are one path, or one pair of parentheses around tokens in which parentheses balance. -/
def IsPathOrGroup (tokens : List Token) : Prop :=
  (∃ path : Path, path.IsName ∧ tokens = [.word path.text]) ∨
    ∃ inner, tokens = Token.enclose inner ∧ Balanced inner

theorem Ocaml.Term.Readable.isPathOrGroup {term : Term} (h : term.Readable) (hcallable : term.isCallable = true) :
    IsPathOrGroup (term.tokens 4) := by
  cases h with
  | @path p hname => exact .inl ⟨p, hname, rfl⟩
  | apply hfunction hhead harguments =>
    have hinner := ((Term.Readable.apply hfunction hhead harguments).printable 3).balanced
    rw [Term.tokens] at hinner ⊢
    exact .inr ⟨_, rfl, hinner⟩
  | lambda hparameter hbody =>
    have hinner := ((Term.Readable.lambda hparameter hbody).printable 0).balanced
    rw [Term.tokens] at hinner ⊢
    exact .inr ⟨_, rfl, hinner⟩
  | _ => cases hcallable

/-! ## Tags -/

/-- The names of the branches that JSON tags, in declared order. -/
def Shape.tagged? : Shape → Option (List String)
  | .sum constructors => some (constructors.map (·.name))
  | .sumOfRecords records => some (records.map (·.branch))
  | _ => none

/-- The last definition is a match of which the arms are one for a failure, one for each tag in order and one for any
other tag. -/
def DispatchesOn (tags : List String) (groups : List (DefinitionGroup Definition)) : Prop :=
  ∃ definition scrutinee arms, (groups.flatMap (·.items)).getLast? = some definition ∧
    definition.body = .choice scrutinee arms ∧
    arms.map (fun arm => (arm.1, arm.2.1)) =
      (Runtime.decodeError "message", none) :: tags.map (fun tag => (.text tag, none)) ++ [(.bind "tag", none)]

theorem Ocaml.Body.armExprs_eq_map (arms : List (Clause × Body)) :
    Body.armExprs arms = arms.map fun arm => arm.1.arm arm.2.expr := by
  induction arms with
  | nil => rfl
  | cons arm rest ih =>
    rw [Body.armExprs, ih]
    rfl

theorem Ocaml.DefinitionGroup.flatMap_definitions (group : DefinitionGroup Function) :
    group.definitions.flatMap (·.items) = group.items.map Function.definition := by
  unfold definitions
  split
  · exact List.flatMap_singleton _ _
  · rw [List.flatMap_map, List.map_eq_flatMap]

/-! ## Dispatch -/

/-- A match on tags has the arms of the branches between one for a failure and one for any other tag. -/
theorem dispatchesOn_dispatch {context : Context} {names : List String} {arms : List (Clause × Body)}
    (harms : arms.map (·.1) = names.map context.tagClause) {group : DefinitionGroup Function} {front : List Function}
    {displayName decoder : String} {parameters : List String}
    (hitems : group.items = front ++ [decoderFunction displayName parameters (Decoder.dispatch decoder arms)]) :
    DispatchesOn (names.map context.options.jsonTag) group.definitions := by
  have hheads : arms.map (fun arm => (arm.1.pattern, arm.1.guard.map Term.expr)) =
      (names.map context.options.jsonTag).map fun tag => (Pattern.text tag, none) := by
    have hclauses := congrArg (List.map fun clause : Clause => (clause.pattern, clause.guard.map Term.expr)) harms
    rw [List.map_map, List.map_map] at hclauses
    rw [List.map_map]
    exact hclauses
  have hdefinition : (group.definitions.flatMap (·.items)).getLast? =
      some (decoderFunction displayName parameters (Decoder.dispatch decoder arms)).definition := by
    rw [DefinitionGroup.flatMap_definitions, hitems, List.getLast?_map, List.getLast?_concat]
    rfl
  refine ⟨_, _, _, hdefinition, rfl, ?_⟩
  rw [Body.armExprs_eq_map, List.map_map, List.cons_append, List.map_cons, List.map_append, ← hheads]
  rfl

theorem Context.map_constructorArm {context : Context} {decoder : String} {constructors : List Positional}
    {arms : List (Clause × Body)} (h : constructors.mapM (context.constructorArm decoder) = .ok arms) :
    arms.map (·.1) = (constructors.map (·.name)).map context.tagClause := by
  induction mapM_eq_ok.mp h with
  | nil => rfl
  | cons harm hrest ih =>
    obtain ⟨body, -, harm⟩ := bind_eq_ok.mp harm
    cases harm
    rw [List.map_cons, List.map_cons, List.map_cons, ih (mapM_eq_ok.mpr hrest)]

theorem Context.dispatchesOn_functions {context : Context} {parameters : List String} {shape : Shape}
    {group : DefinitionGroup Function} (h : context.functions parameters shape = .ok group.items) {names : List String}
    (hnames : shape.tagged? = some names) : DispatchesOn (names.map context.options.jsonTag) group.definitions := by
  cases shape with
  | sum constructors =>
    cases hnames
    obtain ⟨arms, harms, hitems⟩ := bind_eq_ok.mp h
    have hgroup : group.items = [] ++ [_] := (pure_eq_ok.mp hitems).symm
    exact dispatchesOn_dispatch (map_constructorArm harms) hgroup
  | sumOfRecords records =>
    cases hnames
    obtain ⟨hoisted, -, hitems⟩ := bind_eq_ok.mp h
    have hclauses : (records.map (context.hoistedArm (Ocaml.decoderName context.displayName))).map (·.1) =
        (records.map (·.branch)).map context.tagClause := by
      rw [List.map_map, List.map_map]
      rfl
    exact dispatchesOn_dispatch hclauses (pure_eq_ok.mp hitems).symm
  | _ => cases hnames

/-! ## Texts -/

namespace Descriptor

/-- Where names are plain, the text of decoders is read back as the definitions that it was formatted from. -/
theorem exists_readTokens {descriptor : Descriptor} {options : Options} {group : DefinitionGroup Function}
    (hnames : descriptor.HasPlainNames options) (hgroup : descriptor.decoder options = .ok group) :
    ∃ tokens, lex (Ocaml.source group.functionLines).toList = some tokens ∧ readTokens tokens = some group.definitions := by
  obtain ⟨shape, hshape, -, hfunctions⟩ := decoder_eq_ok.mp hgroup
  have hmodules : (Context.ofDescriptor options descriptor).HasPlainModules := hnames.modules
  have hparameters : ∀ name ∈ descriptor.parameters, IsPlainVariable name := fun name hname =>
    hnames.values _ (holds_of_mem_parameters hname)
  obtain ⟨hne, hreadable⟩ := hmodules.readable_functions hnames.displayName hparameters
    (hnames.isPlain_classify hshape) hfunctions
  obtain ⟨tokens, hlex, -, hread⟩ := Ocaml.read_functionLines hne hreadable
  exact ⟨tokens, hlex, hread⟩

/-- Where names are plain, the text of the decoders of a type is read back as the functions it was formatted from:
parentheses balance, what may be called, as every decoder may, is a path or stands in parentheses where it is an
argument, and the decoder of a type with tags has one arm for each of them, in order, between one for a failure and one
for any other tag. -/
theorem decoder_readsBack {descriptor : Descriptor} {options : Options} {text : String}
    (hnames : descriptor.HasPlainNames options) (htext : descriptor.renderDecoder options = .ok text) :
    ∃ group tokens, descriptor.decoder options = .ok group ∧ lex text.toList = some tokens ∧ Balanced tokens ∧
      readTokens tokens = some group.definitions ∧
      (∀ function ∈ group.items, ∀ head arguments, function.body.Holds (.apply head arguments) →
        ∀ argument ∈ arguments, argument.isCallable = true → IsPathOrGroup (argument.tokens 4)) ∧
      (∀ value converter wanted, descriptor.Holds value →
        (Context.ofDescriptor options descriptor).converter value.fieldType = .ok converter →
          (converter.adapt wanted).isCallable = true) ∧
      ∀ shape names, descriptor.classify = .ok shape → shape.tagged? = some names →
        DispatchesOn (names.map options.jsonTag) group.definitions := by
  obtain ⟨group, hgroup, rfl⟩ := renderDecoder_eq_ok.mp htext
  obtain ⟨shape, hshape, -, hfunctions⟩ := decoder_eq_ok.mp hgroup
  have hmodules : (Context.ofDescriptor options descriptor).HasPlainModules := hnames.modules
  have hparameters : ∀ name ∈ descriptor.parameters, IsPlainVariable name := fun name hname =>
    hnames.values _ (holds_of_mem_parameters hname)
  obtain ⟨hne, hreadable⟩ := hmodules.readable_functions hnames.displayName hparameters
    (hnames.isPlain_classify hshape) hfunctions
  obtain ⟨tokens, hlex, hbalanced, hread⟩ := Ocaml.read_functionLines hne hreadable
  refine ⟨group, tokens, hgroup, hlex, hbalanced, hread, ?_, ?_, ?_⟩
  · intro function hfunction head arguments hholds argument hargument hcallable
    cases (hreadable function hfunction).body.of_holds hholds with
    | apply _ _ harguments => exact (harguments argument hargument).isPathOrGroup hcallable
  · intro value converter wanted ⟨whole, hwhole, hoccurs⟩ hconverter
    have hplain : value.IsPlain := fun part hpart => hnames.values part ⟨whole, hwhole, hpart.trans hoccurs⟩
    exact (isFunction_adapt (hmodules.readsConverter hplain hconverter) wanted).callable
  · intro shape' names hshape' htagged
    obtain rfl : shape = shape' := Except.ok.inj (hshape.symm.trans hshape')
    exact Context.dispatchesOn_functions hfunctions htagged

end Descriptor

def tree : Descriptor :=
  let type : Identity := ⟨"main", "Types", "Tree"⟩
  .ofConstructor type <| .value <| .multiple [
    .ofArguments "Empty" [],
    .ofArguments "Leaf" [.parameter "a"],
    .ofArguments "Node" [.apply type [.parameter "a"], .primitive (.list (.parameter "a"))]]

theorem hasPlainNames_tree : tree.HasPlainNames {} where
  displayName := ⟨by decide, by decide⟩
  typeName := nofun
  constructors := by decide
  modules := nofun
  values part hpart := by
    have hparameter : IsPlainVariable "a" := ⟨by decide, by decide, by decide⟩
    obtain ⟨whole, hwhole, hoccurs⟩ := hpart
    have hwhole : whole ∈ [.empty, .parameter "a", .product _ _] := hwhole
    rcases List.mem_cons.mp hwhole with rfl | hwhole
    · cases hoccurs
      trivial
    rcases List.mem_cons.mp hwhole with rfl | hwhole
    · cases hoccurs
      exact hparameter
    rw [List.mem_singleton.mp hwhole] at hoccurs
    cases hoccurs with
    | self => trivial
    | productLeft hleft =>
      cases hleft with
      | self => exact (by decide : IsIdentifier "Tree")
      | argument hargument =>
        cases hargument
        exact hparameter
    | productRight hright =>
      cases hright with
      | self => trivial
      | component hitem hoccurs =>
        rw [List.mem_singleton.mp hitem] at hoccurs
        cases hoccurs
        exact hparameter

theorem Descriptor.tree_readsBack :
    ∃ text group tokens, tree.renderDecoder {} = .ok text ∧ tree.decoder {} = .ok group ∧
      lex text.toList = some tokens ∧ readTokens tokens = some group.definitions ∧
      DispatchesOn ["Empty", "Leaf", "Node"] group.definitions := by
  obtain ⟨group, tokens, hgroup, hlex, -, hread, -, -, hdispatch⟩ :=
    decoder_readsBack hasPlainNames_tree (rfl : tree.renderDecoder {} = .ok _)
  exact ⟨_, group, tokens, rfl, hgroup, hlex, hread, hdispatch _ _ rfl rfl⟩

end TypeScribe
