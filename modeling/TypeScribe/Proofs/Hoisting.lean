import TypeScribe.Proofs.ArgumentLists
import TypeScribe.Proofs.Comparison
import TypeScribe.Proofs.GroupTexts
import TypeScribe.Proofs.Occurrences
import TypeScribe.Proofs.Walk

/-!
# Sums of records are put together from records and a sum

A sum of records stands for one record type for each branch and a plain sum whose constructors carry these types.
`branchDescriptor` and `plainSum` are these types as descriptors of their own. What is rendered for the sum of records is
what is rendered for them, one after the other, up to the keywords that join the definitions of a recursive group.
-/

namespace TypeScribe

open Ocaml (TypeDefinition Function DefinitionGroup joined afterKeyword)

namespace Descriptor

def branchIdentity (descriptor : Descriptor) (typeName : String) (branch : Branch) : Identity :=
  { descriptor.identity with name := Shape.hoistedName typeName branch.name }

/-- The record type for a branch as a descriptor of its own. -/
def branchDescriptor (descriptor : Descriptor) (typeName : String) (branch : Branch) : Descriptor where
  identity := descriptor.identity
  displayName := Shape.hoistedName typeName branch.name
  constructor := .value (.record branch.name branch.value)

/-- The record type for a branch, applied to the type parameters of the branch. -/
def branchType (descriptor : Descriptor) (typeName : String) (branch : Branch) : Value :=
  .apply (descriptor.branchIdentity typeName branch) ((sortedNames branch.value.parameters).map .parameter)

/-- The sum with one constructor for each branch, which carries the record type for the branch. -/
def plainSum (descriptor : Descriptor) (typeName : String) (alternatives : Alternatives) : Descriptor :=
  { descriptor with
    constructor := .value <| .multiple <| alternatives.branches.map fun branch =>
      .named branch.name (descriptor.branchType typeName branch) }

def dispatcher (descriptor : Descriptor) (options : Options) (records : List HoistedRecord) : Function :=
  let decoder := Ocaml.decoderName descriptor.displayName
  decoderFunction descriptor.displayName descriptor.parameters <| Decoder.dispatch decoder <|
    records.map ((Context.ofDescriptor options descriptor).hoistedArm decoder)

end Descriptor

/-! ## Lists of type parameters -/

theorem Value.parameters_nest_argumentPair (names : List String) :
    (nest .argumentPair (names.map .parameter)).parameters = names := by
  induction names with
  | nil => rfl
  | cons name rest ih =>
    cases rest with
    | nil => rfl
    | cons next rest => exact congrArg (name :: ·) ih

theorem Descriptor.parameters_branchType (descriptor : Descriptor) (typeName : String) (branch : Branch) :
    (descriptor.branchType typeName branch).parameters = sortedNames branch.value.parameters :=
  Value.parameters_nest_argumentPair _

theorem Alternatives.branchesOfAll_map_named (name : α → String) (value : α → Value) (xs : List α) :
    branchesOfAll (xs.map fun x => .named (name x) (value x)) = xs.map fun x => .named (name x) (value x) := by
  induction xs with
  | nil => rfl
  | cons x rest ih => rw [List.map_cons, branchesOfAll, ih, branches, List.singleton_append, List.map_cons]

theorem Shape.mapM_positional_map_named (typeName : String) (name : α → String) (value : α → Value) (xs : List α) :
    (xs.map fun x => Branch.named (name x) (value x)).mapM (positional typeName) =
      .ok (xs.map fun x => ⟨name x, (value x).flatten⟩) := by
  rw [mapM_eq_ok, List.forall₂_map_left_iff, List.forall₂_map_right_iff]
  exact List.forall₂_same.mpr fun x _ => rfl

theorem Shape.ofBranches_map_named (typeName : String) (name : α → String) (value : α → Value) (first second : α)
    (rest : List α) :
    ofBranches typeName ((first :: second :: rest).map fun x => .named (name x) (value x)) =
      .ok (.sum ((first :: second :: rest).map fun x => ⟨name x, (value x).flatten⟩)) := by
  rw [ofBranches_of_several (by simp), mapM_positional_map_named]
  rfl

theorem Descriptor.parameters_plainSum {descriptor : Descriptor} {typeName : String} {alternatives : Alternatives}
    (h : descriptor.constructor = .sumOfRecords typeName alternatives) :
    (descriptor.plainSum typeName alternatives).parameters = descriptor.parameters := by
  have hmem : ∀ (branch : Branch) (name : String),
      name ∈ (descriptor.branchType typeName branch).parameters ↔ name ∈ branch.value.parameters := fun branch name => by
    rw [parameters_branchType, mem_sortedNames]
  refine sortedNames_congr fun name => ?_
  rw [h, plainSum, Constructor.parameters, Constructor.parameters, Alternatives.parameters_eq_flatMap,
    Alternatives.parameters_eq_flatMap, Alternatives.branches, Alternatives.branchesOfAll_map_named, List.flatMap_map,
    List.mem_flatMap, List.mem_flatMap]
  exact exists_congr fun branch => and_congr_right fun _ => hmem branch name

/-!
## Renderings under another display name

The display name of the type at hand shows in messages only. Where the types of fields and their decoders are rendered
without a fault, they are the same under any other display name.
-/

namespace Context

def named (context : Context) (displayName : String) : Context := { context with displayName }

variable (context : Context) (name : String)

/-- Under another display name only faults differ. -/
theorem samePaths_named :
    SamePaths (fun _ _ => True) (fun _ => True) (context.named name) context where
  refl _ := trivial
  misplaced _ _ := trivial
  paths _ _ _ := .refl (fun _ => trivial) _

theorem alike_named (fields : List RecordField) :
    List.Forall₂ (RecordField.Alike (SameType (fun _ _ => True) (context.named name) context)) fields fields :=
  List.forall₂_same.mpr fun _ _ => ⟨rfl, (samePaths_named context name).sameType fun _ _ => trivial⟩

theorem recordBody_named {fields : List RecordField} {body : Ocaml.TypeBody} :
    (context.named name).recordBody fields = .ok body ↔ context.recordBody fields = .ok body :=
  (matches_recordBody (alike_named context name fields)).ok_iff

theorem recordFunction_named {displayName : String} {parameters : List String} {fields : List RecordField}
    {function : Ocaml.Function} :
    (context.named name).recordFunction displayName parameters fields = .ok function ↔
      context.recordFunction displayName parameters fields = .ok function := by
  have htexts : SameTexts id (context.named name) context := ⟨fun _ _ _ => rfl, fun _ => rfl⟩
  have hfunctions := matches_recordFunction htexts displayName parameters (alike_named context name fields)
  exact (hfunctions.mono fun _ _ hsame => hsame.eq).ok_iff

end Context

/-! ## References to the record types -/

/-- A type without a location needs no modules in the code for a type from the same module. -/
theorem DependencyMap.qualify_eq_nil {map : DependencyMap} {current target : Identity}
    (hvalid : ∀ location, map.get? current = some location → location.isValid = true) (hnone : map.get? target = none)
    (hshare : target.sharesModule current = true) : map.qualify current target = .ok [] := by
  have hhere : ∃ here, map.validLocation current = .ok here := by
    unfold validLocation
    cases hget : map.get? current with
    | none => exact ⟨none, rfl⟩
    | some location => exact ⟨some location, if_pos (hvalid location hget)⟩
  obtain ⟨here, hhere⟩ := hhere
  have hthere : map.validLocation target = .ok none := by
    rw [validLocation, hnone]
  unfold qualify
  split
  · rfl
  · rw [hhere, hthere]
    rfl

namespace Context

variable {context : Context}

theorem typeExpr_apply_parameters {identity : Identity} (names : List String)
    (h : context.options.dependencies.qualify context.identity identity = .ok []) :
    context.typeExpr (Value.apply identity (names.map .parameter)).fieldType =
      .ok (declaredType identity.name names) := by
  have hpath : context.pathTo identity (Ocaml.typeName identity.name) = .ok ⟨[], Ocaml.typeName identity.name⟩ := by
    rw [pathTo, h]
    rfl
  have harguments : (names.map .parameter).mapM (fun argument : Value => context.typeExpr argument.fieldType) =
      .ok ((names.map Ocaml.variableName).map .var) := by
    rw [mapM_eq_ok, List.forall₂_map_left_iff, List.forall₂_map_right_iff, List.forall₂_map_right_iff]
    exact List.forall₂_same.mpr fun name _ => rfl
  have hitems : (Value.nest .argumentPair (names.map .parameter)).flatten = names.map .parameter :=
    Value.flatten_nest_of_isItem (fun _ _ => rfl) (List.forall_mem_map.mpr fun _ _ => rfl)
  rw [Value.apply, typeExpr_application, hitems, harguments, hpath]
  rfl

/-- The constructors of the plain sum are those of the sum of records. -/
theorem constructorTypes_plainSum {descriptor : Descriptor} {options : Options} {typeName : String}
    {branches : List Branch} {records : List HoistedRecord}
    (hrecords : List.Forall₂ (fun branch record => Shape.hoistedRecord typeName branch = .ok record) branches records)
    (hpaths : ∀ branch ∈ branches,
      options.dependencies.qualify descriptor.identity (descriptor.branchIdentity typeName branch) = .ok []) :
    (branches.map fun branch => (⟨branch.name, (descriptor.branchType typeName branch).flatten⟩ : Positional)).mapM
        (Context.ofDescriptor options descriptor).constructorType =
      .ok (records.map HoistedRecord.constructorType) := by
  rw [mapM_eq_ok, List.forall₂_map_left_iff, List.forall₂_map_right_iff]
  induction hrecords with
  | nil => exact .nil
  | @cons branch record branches records hrecord _ ih =>
    rw [List.forall_mem_cons] at hpaths
    refine .cons ?_ (ih hpaths.2)
    obtain ⟨value, rfl, hname, -, hparameters⟩ := Shape.hoistedRecord_eq_ok.mp hrecord
    have htype : (ofDescriptor options descriptor).typeExpr
        (descriptor.branchType typeName (.record record.branch value)).fieldType =
          .ok (declaredType record.displayName record.parameters) := by
      rw [hname, hparameters]
      exact typeExpr_apply_parameters _ hpaths.1
    exact bind_eq_ok.mpr ⟨[_], mapM_eq_ok.mpr (.cons htype .nil), rfl⟩

theorem exists_typeDefinitions_named (typeName : String) {name : α → String} {value : α → Value} {xs : List α}
    (hne : xs ≠ []) {constructors : List (String × List Ocaml.TypeExpr)}
    (h : (xs.map fun x => (⟨name x, (value x).flatten⟩ : Positional)).mapM context.constructorType = .ok constructors) :
    ∃ shape, Shape.ofBranches typeName (xs.map fun x => .named (name x) (value x)) = .ok shape ∧
      ∀ parameters, context.typeDefinitions parameters shape =
        .ok [declareType context.displayName parameters (.variant constructors)] := by
  cases xs with
  | nil => exact absurd rfl hne
  | cons first rest =>
    cases rest with
    | nil =>
      obtain _ | ⟨hfirst, ⟨⟩⟩ := mapM_eq_ok.mp h
      exact ⟨.single ⟨name first, (value first).flatten⟩, rfl, fun parameters => bind_eq_ok.mpr ⟨_, hfirst, rfl⟩⟩
    | cons second rest =>
      exact ⟨_, Shape.ofBranches_map_named _ _ _ _ _ _, fun parameters => bind_eq_ok.mpr ⟨_, h, rfl⟩⟩

end Context

/-! ## The parts as types of their own -/

namespace Descriptor

variable {descriptor : Descriptor} {options : Options} {typeName : String}

theorem classify_branchDescriptor {branch : Branch} {record : HoistedRecord}
    (h : Shape.hoistedRecord typeName branch = .ok record) :
    (descriptor.branchDescriptor typeName branch).classify = .ok (.record record.fields) := by
  obtain ⟨value, rfl, hname, hfields, -⟩ := Shape.hoistedRecord_eq_ok.mp h
  rw [hname] at hfields
  simp [branchDescriptor, classify, Alternatives.branches, Shape.ofBranches, Branch.name, Branch.value, hfields, bind,
    Except.bind, pure, Except.pure]

theorem parameters_branchDescriptor {branch : Branch} {record : HoistedRecord}
    (h : Shape.hoistedRecord typeName branch = .ok record) :
    (descriptor.branchDescriptor typeName branch).parameters = record.parameters := by
  obtain ⟨value, rfl, -, -, hparameters⟩ := Shape.hoistedRecord_eq_ok.mp h
  simp [branchDescriptor, parameters, Constructor.parameters, Alternatives.parameters, Branch.value, hparameters]

theorem displayName_of_hoistedRecord (descriptor : Descriptor) {branch : Branch} {record : HoistedRecord}
    (h : Shape.hoistedRecord typeName branch = .ok record) :
    record.displayName = (descriptor.branchDescriptor typeName branch).displayName := by
  obtain ⟨value, rfl, hname, -, -⟩ := Shape.hoistedRecord_eq_ok.mp h
  exact hname

theorem declaration_branchDescriptor {branch : Branch} {record : HoistedRecord} {definition : TypeDefinition}
    (hrecord : Shape.hoistedRecord typeName branch = .ok record)
    (hdefinition : (Context.ofDescriptor options descriptor).hoistedDefinition record = .ok definition) :
    (descriptor.branchDescriptor typeName branch).declaration options =
      .ok ⟨(descriptor.branchDescriptor typeName branch).references descriptor.identity, [definition]⟩ := by
  obtain ⟨body, hbody, hdefinition⟩ := bind_eq_ok.mp hdefinition
  refine bind_eq_ok.mpr ⟨_, classify_branchDescriptor hrecord, bind_eq_ok.mpr ⟨[definition], ?_, rfl⟩⟩
  refine bind_eq_ok.mpr ⟨body, (Context.recordBody_named _ _).mpr hbody, ?_⟩
  rw [parameters_branchDescriptor hrecord, ← pure_eq_ok.mp hdefinition, displayName_of_hoistedRecord descriptor hrecord]
  rfl

theorem decoder_branchDescriptor {branch : Branch} {record : HoistedRecord} {function : Function}
    (hrecord : Shape.hoistedRecord typeName branch = .ok record)
    (hfunction : (Context.ofDescriptor options descriptor).hoistedFunction record = .ok function) :
    (descriptor.branchDescriptor typeName branch).decoder options =
      .ok ⟨(descriptor.branchDescriptor typeName branch).references descriptor.identity, [function]⟩ := by
  refine bind_eq_ok.mpr ⟨_, classify_branchDescriptor hrecord, bind_eq_ok.mpr ⟨[function], ?_, rfl⟩⟩
  refine bind_eq_ok.mpr ⟨function, ?_, rfl⟩
  rw [parameters_branchDescriptor hrecord]
  rw [Context.hoistedFunction, displayName_of_hoistedRecord descriptor hrecord] at hfunction
  exact (Context.recordFunction_named _ _).mpr hfunction

theorem declaration_plainSum {alternatives : Alternatives} {records : List HoistedRecord}
    (hconstructor : descriptor.constructor = .sumOfRecords typeName alternatives)
    (hrecords : List.Forall₂ (fun branch record => Shape.hoistedRecord typeName branch = .ok record)
      alternatives.branches records)
    (hne : alternatives.branches ≠ [])
    (hpaths : ∀ branch ∈ alternatives.branches,
      options.dependencies.qualify descriptor.identity (descriptor.branchIdentity typeName branch) = .ok []) :
    (descriptor.plainSum typeName alternatives).declaration options =
      .ok ⟨(descriptor.plainSum typeName alternatives).references descriptor.identity,
        [declareType descriptor.displayName descriptor.parameters (.variant (records.map (·.constructorType)))]⟩ := by
  obtain ⟨shape, hshape, hdefinitions⟩ := Context.exists_typeDefinitions_named descriptor.displayName hne
    (Context.constructorTypes_plainSum hrecords hpaths)
  rw [← parameters_plainSum hconstructor]
  refine bind_eq_ok.mpr ⟨shape, ?_, bind_eq_ok.mpr ⟨_, hdefinitions _, rfl⟩⟩
  change Shape.ofBranches _ (Alternatives.branchesOfAll _) = _
  rw [Alternatives.branchesOfAll_map_named]
  exact hshape

/-! ## Texts -/

def decoderKeyword (descriptor : Descriptor) : String :=
  if descriptor.references descriptor.identity then "let rec" else "let"

theorem references_branchDescriptor (descriptor : Descriptor) (typeName : String) (branch : Branch) (identity : Identity) :
    (descriptor.branchDescriptor typeName branch).references identity = branch.value.references identity := by
  simp [branchDescriptor, references, Constructor.references, Alternatives.references]

/-- The record types of a sum of records refer to nothing that the sum does not refer to. -/
theorem references_branch_of_sumOfRecords {alternatives : Alternatives} {branch : Branch} {identity : Identity}
    (hconstructor : descriptor.constructor = .sumOfRecords typeName alternatives)
    (hbranch : branch ∈ alternatives.branches) (h : descriptor.references identity = false) :
    (descriptor.branchDescriptor typeName branch).references identity = false := by
  rw [references, hconstructor, Constructor.references, Alternatives.references_eq_any, List.any_eq_false] at h
  rw [references_branchDescriptor]
  simpa using h branch hbranch

theorem renderDeclaration_of_singleton {definition : TypeDefinition} {recursive : Bool}
    (h : descriptor.declaration options = .ok ⟨recursive, [definition]⟩) :
    descriptor.renderDeclaration options = .ok ("type" ++ afterKeyword (TypeDefinition.lines · definition)) := by
  refine renderDeclaration_eq_ok.mpr ⟨_, h, ?_⟩
  rw [Ocaml.source_typeLines (List.cons_ne_nil _ _) (by simp)]
  exact Ocaml.joined_singleton _ _ _

theorem renderDecoder_of_singleton {function : Function}
    (h : descriptor.decoder options = .ok ⟨descriptor.references descriptor.identity, [function]⟩) :
    descriptor.renderDecoder options = .ok (descriptor.decoderKeyword ++ afterKeyword (Function.lines · function)) := by
  refine renderDecoder_eq_ok.mpr ⟨_, h, ?_⟩
  rw [Ocaml.source_functionLines (List.cons_ne_nil _ _) (by simp)]
  exact Ocaml.joined_singleton _ _ _

/-- What is rendered for a sum of records is put together from what is rendered for its record types and the plain sum.
The texts are those after the keywords. -/
theorem exists_texts_of_sumOfRecords {typeName : String} {alternatives : Alternatives} {declaration decoder : String}
    (hconstructor : descriptor.constructor = .sumOfRecords typeName alternatives)
    (hdeclaration : descriptor.renderDeclaration options = .ok declaration)
    (hdecoder : descriptor.renderDecoder options = .ok decoder)
    (hpaths : ∀ branch ∈ alternatives.branches,
      options.dependencies.qualify descriptor.identity (descriptor.branchIdentity typeName branch) = .ok []) :
    ∃ records types sum functions dispatch, descriptor.classify = .ok (.sumOfRecords records) ∧
      List.Forall₂ (fun branch text =>
        (descriptor.branchDescriptor typeName branch).renderDeclaration options = .ok ("type" ++ text))
        alternatives.branches types ∧
      (descriptor.plainSum typeName alternatives).renderDeclaration options = .ok ("type" ++ sum) ∧
      List.Forall₂ (fun branch text => (descriptor.branchDescriptor typeName branch).renderDecoder options =
        .ok ((descriptor.branchDescriptor typeName branch).decoderKeyword ++ text)) alternatives.branches functions ∧
      Ocaml.source ((descriptor.dispatcher options records).lines [.word "let"]) = "let" ++ dispatch ∧
      declaration = joined "type" (if descriptor.references descriptor.identity then "and" else "type") (types ++ [sum]) ∧
      decoder = joined descriptor.decoderKeyword
        (if descriptor.references descriptor.identity then "and" else "let") (functions ++ [dispatch]) := by
  obtain ⟨group, hgroup, rfl⟩ := renderDeclaration_eq_ok.mp hdeclaration
  obtain ⟨shape, hshape, hrecursive, hdefinitions⟩ := declaration_eq_ok.mp hgroup
  obtain ⟨records, rfl, hne, hrecords⟩ := exists_records_of_classify hconstructor hshape
  obtain ⟨definitions, hhoisted, hitems⟩ := bind_eq_ok.mp hdefinitions
  obtain ⟨group', hgroup', rfl⟩ := renderDecoder_eq_ok.mp hdecoder
  obtain ⟨shape', hshape', hrecursive', hfunctions⟩ := decoder_eq_ok.mp hgroup'
  obtain rfl := Except.ok.inj (hshape.symm.trans hshape')
  obtain ⟨functions, hhoisted', hitems'⟩ := bind_eq_ok.mp hfunctions
  obtain rfl : group = ⟨_, _⟩ := congrArg₂ DefinitionGroup.mk hrecursive (pure_eq_ok.mp hitems).symm
  obtain rfl : group' = ⟨_, _⟩ := congrArg₂ DefinitionGroup.mk hrecursive' (pure_eq_ok.mp hitems').symm
  refine ⟨records, definitions.map fun definition => afterKeyword (TypeDefinition.lines · definition),
    afterKeyword (TypeDefinition.lines · (declareType descriptor.displayName descriptor.parameters
      (.variant (records.map (·.constructorType))))),
    functions.map fun function => afterKeyword (Function.lines · function),
    afterKeyword (Function.lines · (descriptor.dispatcher options records)), hshape, ?types, ?sum, ?functions, ?dispatch,
    ?declaration, ?decoder⟩
  case types =>
    rw [List.forall₂_map_right_iff]
    refine forall₂_trans (fun branch record definition hrecord hdefinition => ?_) hrecords (mapM_eq_ok.mp hhoisted)
    exact renderDeclaration_of_singleton (declaration_branchDescriptor hrecord hdefinition)
  case sum => exact renderDeclaration_of_singleton (declaration_plainSum hconstructor hrecords hne hpaths)
  case functions =>
    rw [List.forall₂_map_right_iff]
    refine forall₂_trans (fun branch record function hrecord hfunction => ?_) hrecords (mapM_eq_ok.mp hhoisted')
    exact renderDecoder_of_singleton (decoder_branchDescriptor hrecord hfunction)
  case dispatch => exact (Ocaml.isOpened_functionLines _).source_eq [] "let"
  case declaration =>
    obtain ⟨hne, hrecords⟩ := Context.isRecord_typeDefinitions hdefinitions
    rw [Ocaml.source_typeLines hne hrecords, List.map_append]
    rfl
  case decoder =>
    obtain ⟨hne, hclosed⟩ := Context.isClosed_functions hfunctions
    rw [Ocaml.source_functionLines hne hclosed, List.map_append]
    rfl

/-- A sum of records is rendered as its record types and the plain sum are, one after the other with a blank line between
them: word for word where the type does not refer to itself, and up to the keywords that join the definitions of one
group where it does. -/
theorem sumOfRecords_isPutTogether {typeName : String} {alternatives : Alternatives} {declaration decoder : String}
    (hconstructor : descriptor.constructor = .sumOfRecords typeName alternatives)
    (hdeclaration : descriptor.renderDeclaration options = .ok declaration)
    (hdecoder : descriptor.renderDecoder options = .ok decoder)
    (hown : ∀ location, options.dependencies.get? descriptor.identity = some location → location.isValid = true)
    (hbranches : ∀ branch ∈ alternatives.branches,
      options.dependencies.get? (descriptor.branchIdentity typeName branch) = none) :
    ∃ records, descriptor.classify = .ok (.sumOfRecords records) ∧
      (descriptor.references descriptor.identity = false →
        ∃ declarations sum decoders,
          alternatives.branches.mapM (fun branch =>
            (descriptor.branchDescriptor typeName branch).renderDeclaration options) = .ok declarations ∧
          (descriptor.plainSum typeName alternatives).renderDeclaration options = .ok sum ∧
          alternatives.branches.mapM (fun branch =>
            (descriptor.branchDescriptor typeName branch).renderDecoder options) = .ok decoders ∧
          declaration = "\n".intercalate (declarations ++ [sum]) ∧
          decoder = "\n".intercalate
            (decoders ++ [Ocaml.source ((descriptor.dispatcher options records).lines [.word "let"])])) ∧
      (descriptor.references descriptor.identity = true →
        ∃ types sum functions dispatch,
          List.Forall₂ (fun branch text =>
            (descriptor.branchDescriptor typeName branch).renderDeclaration options = .ok ("type" ++ text))
            alternatives.branches types ∧
          (descriptor.plainSum typeName alternatives).renderDeclaration options = .ok ("type" ++ sum) ∧
          List.Forall₂ (fun branch text => (descriptor.branchDescriptor typeName branch).renderDecoder options =
            .ok ((descriptor.branchDescriptor typeName branch).decoderKeyword ++ text)) alternatives.branches functions ∧
          Ocaml.source ((descriptor.dispatcher options records).lines [.word "let"]) = "let" ++ dispatch ∧
          declaration = joined "type" "and" (types ++ [sum]) ∧
          decoder = joined "let rec" "and" (functions ++ [dispatch])) := by
  have hpaths : ∀ branch ∈ alternatives.branches,
      options.dependencies.qualify descriptor.identity (descriptor.branchIdentity typeName branch) = .ok [] :=
    fun branch hbranch => DependencyMap.qualify_eq_nil hown (hbranches branch hbranch)
      (by simp [branchIdentity, Identity.sharesModule])
  obtain ⟨records, types, sum, functions, dispatch, hshape, htypes, hsum, hfunctions, hdispatch, htext, htext'⟩ :=
    exists_texts_of_sumOfRecords hconstructor hdeclaration hdecoder hpaths
  refine ⟨records, hshape, fun hplain => ?_, fun hrecursive => ?_⟩
  · have hkeyword : ∀ branch ∈ alternatives.branches,
        (descriptor.branchDescriptor typeName branch).decoderKeyword = "let" := fun branch hbranch =>
      if_neg (Bool.eq_false_iff.mp (references_branch_of_sumOfRecords hconstructor hbranch hplain))
    have hdecoders := List.forall₂_and_left _ _ |>.mpr ⟨hkeyword, hfunctions⟩
    refine ⟨types.map ("type" ++ ·), "type" ++ sum, functions.map ("let" ++ ·), ?_, hsum, ?_, ?_, ?_⟩
    · rw [mapM_eq_ok, List.forall₂_map_right_iff]
      exact htypes
    · rw [mapM_eq_ok, List.forall₂_map_right_iff]
      exact hdecoders.imp fun branch text ⟨hlet, htext⟩ => by rw [htext, hlet]
    · rw [htext, hplain, if_neg (by decide), Ocaml.joined_same, List.map_append, List.map_singleton]
    · rw [htext', decoderKeyword, hplain, if_neg (by decide), if_neg (by decide), Ocaml.joined_same, List.map_append,
        List.map_singleton, hdispatch]
  · refine ⟨types, sum, functions, dispatch, htypes, hsum, hfunctions, hdispatch, ?_, ?_⟩
    · rw [htext, if_pos hrecursive]
    · rw [htext', decoderKeyword, if_pos hrecursive, if_pos hrecursive]

def figureBranches (inner : Value) : Alternatives :=
  .multiple [.ofFields "Circle" [("radius", .primitive (.scalar .float))],
    .ofFields "Frame" [("label", .parameter "a"), ("inner", inner)]]

def figure (inner : Value) : Descriptor :=
  .ofConstructor ⟨"main", "Types", "Figure"⟩ (.sumOfRecords "Figure" (figureBranches inner))

/-- A type that does not refer to itself, and one of which the second record refers to the sum. -/
theorem figure_isPutTogether :
    let scalar := Value.primitive (.scalar .unit)
    let self := Value.apply ⟨"main", "Types", "Figure"⟩ [.parameter "a"]
    (∃ declarations sum,
      (figureBranches scalar).branches.mapM (fun branch =>
        ((figure scalar).branchDescriptor "Figure" branch).renderDeclaration {}) = .ok declarations ∧
      ((figure scalar).plainSum "Figure" (figureBranches scalar)).renderDeclaration {} = .ok sum ∧
      (figure scalar).renderDeclaration {} = .ok ("\n".intercalate (declarations ++ [sum]))) ∧
    ∃ functions dispatch,
      List.Forall₂ (fun branch text => ((figure self).branchDescriptor "Figure" branch).renderDecoder {} =
        .ok (((figure self).branchDescriptor "Figure" branch).decoderKeyword ++ text))
        (figureBranches self).branches functions ∧
      (figure self).renderDecoder {} = .ok (joined "let rec" "and" (functions ++ [dispatch])) := by
  intro scalar self
  obtain ⟨_, -, hplain, -⟩ := sumOfRecords_isPutTogether (rfl : (figure scalar).constructor = _)
    (rfl : (figure scalar).renderDeclaration {} = .ok _) (rfl : (figure scalar).renderDecoder {} = .ok _) nofun
    fun _ _ => rfl
  obtain ⟨declarations, sum, decoders, hdeclarations, hsum, -, htext, -⟩ := hplain rfl
  obtain ⟨_, -, -, hrecursive⟩ := sumOfRecords_isPutTogether (rfl : (figure self).constructor = _)
    (rfl : (figure self).renderDeclaration {} = .ok _) (rfl : (figure self).renderDecoder {} = .ok _) nofun
    fun _ _ => rfl
  obtain ⟨types, sum', functions, dispatch, -, -, hfunctions, -, -, htext'⟩ := hrecursive rfl
  exact ⟨⟨declarations, sum, hdeclarations, hsum, congrArg Except.ok htext⟩, functions, dispatch, hfunctions,
    congrArg Except.ok htext'⟩

end Descriptor

end TypeScribe
