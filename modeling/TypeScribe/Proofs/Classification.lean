import TypeScribe.Proofs.Outcome
import TypeScribe.Proofs.TypePosition
import TypeScribe.Rendering

/-!
# What classification accepts

Each check of `classify` succeeds on one form of input, from which it keeps every name and every value. Decoders are
rendered from the shape that it gives.
-/

namespace TypeScribe

namespace Shape

theorem recordField_eq_ok {typeName : String} {value : Value} {field : RecordField} :
    recordField typeName value = .ok field ↔ value = .field field.name field.value := by
  cases value <;> simp [recordField]
  constructor
  · rintro rfl
    exact ⟨rfl, rfl⟩
  · rintro ⟨rfl, rfl⟩
    rfl

theorem recordFields_eq_ok {typeName : String} {payload : Value} {fields : List RecordField} :
    recordFields typeName payload = .ok fields ↔
      payload.flatten = fields.map (fun field => .field field.name field.value) ∧ fields ≠ [] := by
  have hmap : payload.flatten.mapM (recordField typeName) = .ok fields ↔
      payload.flatten = fields.map (fun field => .field field.name field.value) := by
    rw [mapM_eq_ok, ← List.forall₂_eq_eq_eq, List.forall₂_map_right_iff]
    simp only [recordField_eq_ok]
  rw [← hmap]
  unfold recordFields
  constructor
  · intro h
    obtain ⟨found, hfound, h⟩ := bind_eq_ok.mp h
    by_cases hempty : found.isEmpty
    · simp [hempty, throw, throwThe, MonadExceptOf.throw, bind, Except.bind] at h
    · simp only [hempty, Bool.false_eq_true, if_false, pure_eq_ok] at h
      subst h
      exact ⟨hfound, by simpa using hempty⟩
  · rintro ⟨hfound, hne⟩
    refine bind_eq_ok.mpr ⟨fields, hfound, ?_⟩
    simp [hne, pure, Except.pure]

theorem positional_eq_ok {typeName : String} {branch : Branch} {constructor : Positional} :
    positional typeName branch = .ok constructor ↔
      ∃ value, branch = .named constructor.name value ∧ constructor.arguments = value.flatten := by
  cases branch with
  | named name value =>
    obtain ⟨name', arguments⟩ := constructor
    simp only [positional, Except.ok.injEq, Positional.mk.injEq, Branch.named.injEq]
    constructor
    · rintro ⟨rfl, rfl⟩
      exact ⟨value, ⟨rfl, rfl⟩, rfl⟩
    · rintro ⟨_, ⟨rfl, rfl⟩, rfl⟩
      exact ⟨rfl, rfl⟩
  | record name value => simp [positional]

theorem ofBranches_of_several {typeName : String} {branches : List Branch} (h : 2 ≤ branches.length) :
    ofBranches typeName branches = return .sum (← branches.mapM (positional typeName)) := by
  match branches with
  | [] => exact absurd h (by simp)
  | [_] => exact absurd h (by simp)
  | .named _ _ :: _ :: _ => rfl
  | .record _ _ :: _ :: _ => rfl

theorem hoistedRecord_eq_ok {typeName : String} {branch : Branch} {record : HoistedRecord} :
    hoistedRecord typeName branch = .ok record ↔
      ∃ value, branch = .record record.branch value ∧ record.displayName = hoistedName typeName record.branch ∧
        recordFields record.displayName value = .ok record.fields ∧
        record.parameters = sortedNames value.parameters := by
  cases branch with
  | named name value => simp [hoistedRecord]
  | record name value =>
    obtain ⟨displayName, name', fields, parameters⟩ := record
    simp only [hoistedRecord, bind_eq_ok, pure_eq_ok, HoistedRecord.mk.injEq, Branch.record.injEq]
    constructor
    · rintro ⟨_, hfields, rfl, rfl, rfl, rfl⟩
      exact ⟨value, ⟨rfl, rfl⟩, rfl, hfields, rfl⟩
    · rintro ⟨_, ⟨rfl, rfl⟩, rfl, hfields, rfl⟩
      exact ⟨fields, hfields, rfl, rfl, rfl, rfl⟩

/-! ## Shapes hold what the descriptor holds -/

theorem occurs_of_recordFields {typeName : String} {payload : Value} {fields : List RecordField}
    (h : recordFields typeName payload = .ok fields) {field : RecordField} (hfield : field ∈ fields) :
    field.value.Occurs payload := by
  have hitem : Value.field field.name field.value ∈ payload.flatten := by
    rw [(recordFields_eq_ok.mp h).1]
    exact List.mem_map_of_mem hfield
  exact Value.Occurs.trans (.field .self) (Value.occurs_of_mem_flatten hitem)

theorem occurs_of_positional {typeName : String} {branch : Branch} {constructor : Positional}
    (h : positional typeName branch = .ok constructor) {argument : Value} (hargument : argument ∈ constructor.arguments) :
    argument.Occurs branch.value := by
  obtain ⟨value, rfl, harguments⟩ := positional_eq_ok.mp h
  rw [harguments] at hargument
  exact Value.occurs_of_mem_flatten hargument

theorem occurs_of_hoistedRecord {typeName : String} {branch : Branch} {record : HoistedRecord}
    (h : hoistedRecord typeName branch = .ok record) {field : RecordField} (hfield : field ∈ record.fields) :
    field.value.Occurs branch.value := by
  obtain ⟨value, rfl, -, hfields, -⟩ := hoistedRecord_eq_ok.mp h
  exact occurs_of_recordFields hfields hfield

theorem occurs_of_ofBranches {typeName : String} {branches : List Branch} {shape : Shape}
    (h : ofBranches typeName branches = .ok shape) {value : Value} (hvalue : value ∈ shape.types) :
    ∃ branch ∈ branches, value.Occurs branch.value := by
  unfold ofBranches at h
  split at h
  · cases h
  · next name payload =>
    obtain ⟨fields, hfields, h⟩ := bind_eq_ok.mp h
    cases h
    obtain ⟨field, hfield, rfl⟩ := List.mem_map.mp hvalue
    exact ⟨_, List.mem_singleton_self _, occurs_of_recordFields hfields hfield⟩
  · next name payload =>
    cases h
    exact ⟨_, List.mem_singleton_self _, Value.occurs_of_mem_flatten hvalue⟩
  · obtain ⟨constructors, hconstructors, h⟩ := bind_eq_ok.mp h
    cases h
    obtain ⟨constructor, hmem, hargument⟩ := List.mem_flatMap.mp hvalue
    obtain ⟨branch, hbranch, hpositional⟩ := exists_of_mapM_eq_ok hconstructors hmem
    exact ⟨branch, hbranch, occurs_of_positional hpositional hargument⟩

theorem occurs_of_hoist {typeName : String} {branches : List Branch} {records : List HoistedRecord}
    (h : hoist typeName branches = .ok records) {value : Value} (hvalue : value ∈ (sumOfRecords records).types) :
    ∃ branch ∈ branches, value.Occurs branch.value := by
  unfold hoist at h
  split at h
  · cases h
  · obtain ⟨record, hmem, hvalue⟩ := List.mem_flatMap.mp hvalue
    obtain ⟨field, hfield, rfl⟩ := List.mem_map.mp hvalue
    obtain ⟨branch, hbranch, hrecord⟩ := exists_of_mapM_eq_ok h hmem
    exact ⟨branch, hbranch, occurs_of_hoistedRecord hrecord hfield⟩

end Shape

theorem Descriptor.classify_value {descriptor : Descriptor} {alternatives : Alternatives}
    (h : descriptor.constructor = .value alternatives) :
    descriptor.classify = Shape.ofBranches descriptor.displayName alternatives.branches := by
  rw [classify, h]

theorem Descriptor.holds_of_mem_types {descriptor : Descriptor} {shape : Shape} (h : descriptor.classify = .ok shape)
    {value : Value} (hvalue : value ∈ shape.types) : descriptor.Holds value := by
  unfold Descriptor.Holds
  unfold classify at h
  cases hconstructor : descriptor.constructor with
  | «alias» p =>
    simp only [hconstructor, Except.ok.injEq] at h
    subst h
    exact ⟨_, List.mem_singleton_self _, List.mem_singleton.mp hvalue ▸ .self⟩
  | value alternatives =>
    simp only [hconstructor] at h
    obtain ⟨branch, hbranch, hoccurs⟩ := Shape.occurs_of_ofBranches h hvalue
    exact ⟨_, List.mem_map_of_mem hbranch, hoccurs⟩
  | enumeration tags =>
    simp only [hconstructor] at h
    split at h
    · cases h
    · cases h
      cases hvalue
  | sumOfRecords typeName alternatives =>
    simp only [hconstructor] at h
    obtain ⟨records, hrecords, h⟩ := bind_eq_ok.mp h
    cases h
    obtain ⟨branch, hbranch, hoccurs⟩ := Shape.occurs_of_hoist hrecords hvalue
    exact ⟨_, List.mem_map_of_mem hbranch, hoccurs⟩

/-! ## Renderings -/

namespace Descriptor

/-- The record types of a sum of records are made of its branches, in order, of which there is at least one. -/
theorem exists_records_of_classify {descriptor : Descriptor} {typeName : String} {alternatives : Alternatives}
    {shape : Shape} (hconstructor : descriptor.constructor = .sumOfRecords typeName alternatives)
    (h : descriptor.classify = .ok shape) :
    ∃ records, shape = .sumOfRecords records ∧ alternatives.branches ≠ [] ∧
      List.Forall₂ (fun branch record => Shape.hoistedRecord typeName branch = .ok record)
        alternatives.branches records := by
  simp only [classify, hconstructor] at h
  obtain ⟨records, hrecords, h⟩ := bind_eq_ok.mp h
  unfold Shape.hoist at hrecords
  split at hrecords
  · cases hrecords
  · next hne => exact ⟨records, (pure_eq_ok.mp h).symm, by simpa using hne, mapM_eq_ok.mp hrecords⟩

theorem ne_sumOfRecords_of_classify {descriptor : Descriptor}
    (hconstructor : ∀ typeName alternatives, descriptor.constructor ≠ .sumOfRecords typeName alternatives)
    {shape : Shape} (h : descriptor.classify = .ok shape) (records : List HoistedRecord) :
    shape ≠ .sumOfRecords records := by
  rintro rfl
  cases hcases : descriptor.constructor with
  | «alias» p =>
    simp only [classify, hcases] at h
    cases h
  | value alternatives =>
    simp only [classify, hcases] at h
    unfold Shape.ofBranches at h
    split at h
    · cases h
    · obtain ⟨_, -, h⟩ := bind_eq_ok.mp h
      cases h
    · cases h
    · obtain ⟨_, -, h⟩ := bind_eq_ok.mp h
      cases h
  | enumeration tags =>
    simp only [classify, hcases] at h
    split at h <;> cases h
  | sumOfRecords typeName alternatives => exact hconstructor typeName alternatives hcases

theorem renderDeclaration_eq_ok {descriptor : Descriptor} {options : Options} {text : String} :
    descriptor.renderDeclaration options = .ok text ↔
      ∃ group, descriptor.declaration options = .ok group ∧ Ocaml.source group.typeLines = text := by
  unfold renderDeclaration
  rw [bind_eq_ok]
  simp only [pure_eq_ok]

theorem declaration_eq_ok {descriptor : Descriptor} {options : Options}
    {group : Ocaml.DefinitionGroup Ocaml.TypeDefinition} :
    descriptor.declaration options = .ok group ↔ ∃ shape, descriptor.classify = .ok shape ∧
      group.recursive = descriptor.references descriptor.identity ∧
      (Context.ofDescriptor options descriptor).typeDefinitions descriptor.parameters shape = .ok group.items := by
  unfold declaration
  simp only [bind_eq_ok, pure_eq_ok]
  constructor
  · rintro ⟨shape, hshape, definitions, hdefinitions, rfl⟩
    exact ⟨shape, hshape, rfl, hdefinitions⟩
  · rintro ⟨shape, hshape, hrecursive, hdefinitions⟩
    refine ⟨shape, hshape, group.items, hdefinitions, ?_⟩
    rw [← hrecursive]

theorem renderDecoder_eq_ok {descriptor : Descriptor} {options : Options} {text : String} :
    descriptor.renderDecoder options = .ok text ↔
      ∃ group, descriptor.decoder options = .ok group ∧ Ocaml.source group.functionLines = text := by
  unfold renderDecoder
  rw [bind_eq_ok]
  simp only [pure_eq_ok]

theorem decoder_eq_ok {descriptor : Descriptor} {options : Options} {group : Ocaml.DefinitionGroup Ocaml.Function} :
    descriptor.decoder options = .ok group ↔ ∃ shape, descriptor.classify = .ok shape ∧
      group.recursive = descriptor.references descriptor.identity ∧
      (Context.ofDescriptor options descriptor).functions descriptor.parameters shape = .ok group.items := by
  unfold decoder
  simp only [bind_eq_ok, pure_eq_ok]
  constructor
  · rintro ⟨shape, hshape, functions, hfunctions, rfl⟩
    exact ⟨shape, hshape, rfl, hfunctions⟩
  · rintro ⟨shape, hshape, hrecursive, hfunctions⟩
    refine ⟨shape, hshape, group.items, hfunctions, ?_⟩
    rw [← hrecursive]

theorem renderDecoderSignature_of_decoderSpecs {descriptor : Descriptor} {specs : List Ocaml.ValueSpec}
    (h : descriptor.decoderSpecs = .ok specs) :
    descriptor.renderDecoderSignature = .ok (Ocaml.source (specs.map Ocaml.ValueSpec.line)) := by
  rw [renderDecoderSignature, h]
  rfl

end Descriptor

end TypeScribe
