import Mathlib.Data.List.Sort
import Mathlib.Data.String.Basic
import TypeScribe.Proofs.Classification

/-!
# Where types and type parameters are named

A value names a type or a type parameter in three of its forms. Such a part occurs in a value only where a walk over the
value comes by: in an item of an argument list, in a field, in an argument of a type or in a component of a built-in
type. So a shape has the named parts of its descriptor, and the type parameters are those that occur.
-/

namespace TypeScribe

namespace Value

/-- The value names a type or a type parameter, a type perhaps with arguments. -/
def IsNamed : Value → Prop
  | .typeRef _ _ => True
  | .application _ _ => True
  | .parameter _ => True
  | _ => False

/-! ## Occurrences by the form of the value -/

section
variable {part : Value}

theorem occurs_typeRef {identity : Identity} {name : String} :
    part.Occurs (.typeRef identity name) ↔ part = .typeRef identity name := by
  constructor
  · rintro ⟨⟩
    rfl
  · rintro rfl
    exact .self

theorem occurs_parameter {name : String} : part.Occurs (.parameter name) ↔ part = .parameter name := by
  constructor
  · rintro ⟨⟩
    rfl
  · rintro rfl
    exact .self

variable (hpart : part.IsNamed)
include hpart

theorem flatten_of_isNamed : part.flatten = [part] := by
  cases part with
  | typeRef | application | parameter => rfl
  | _ => exact hpart.elim

theorem occurs_field {name : String} {value : Value} : part.Occurs (.field name value) ↔ part.Occurs value := by
  constructor
  · rintro (_ | _ | _ | hoccurs)
    · exact hpart.elim
    · exact hoccurs
  · exact .field

theorem occurs_primitive {p : Primitive} :
    part.Occurs (.primitive p) ↔ ∃ component ∈ p.components, part.Occurs component := by
  constructor
  · rintro (_ | _ | ⟨hmem, hoccurs⟩)
    · exact hpart.elim
    · exact ⟨_, hmem, hoccurs⟩
  · rintro ⟨component, hmem, hoccurs⟩
    exact .component hmem hoccurs

theorem occurs_iff_exists_mem_flatten {value : Value} :
    part.Occurs value ↔ ∃ item ∈ value.flatten, part.Occurs item := by
  constructor
  · intro hoccurs
    induction hoccurs with
    | self => exact ⟨part, flatten_of_isNamed hpart ▸ List.mem_singleton_self _, .self⟩
    | argument hoccurs => exact ⟨_, List.mem_singleton_self _, .argument hoccurs⟩
    | component hmem hoccurs => exact ⟨_, List.mem_singleton_self _, .component hmem hoccurs⟩
    | field hoccurs => exact ⟨_, List.mem_singleton_self _, .field hoccurs⟩
    | productLeft _ ih | pairLeft _ ih =>
      obtain ⟨item, hmem, hitem⟩ := ih
      exact ⟨item, List.mem_append_left _ hmem, hitem⟩
    | productRight _ ih | pairRight _ ih =>
      obtain ⟨item, hmem, hitem⟩ := ih
      exact ⟨item, List.mem_append_right _ hmem, hitem⟩
  · rintro ⟨item, hmem, hitem⟩
    exact hitem.trans (occurs_of_mem_flatten hmem)

theorem occurs_application {identity : Identity} {arguments : Value} :
    part.Occurs (.application identity arguments) ↔
      part = .application identity arguments ∨ ∃ argument ∈ arguments.flatten, part.Occurs argument := by
  rw [← occurs_iff_exists_mem_flatten hpart]
  constructor
  · rintro (_ | hoccurs)
    · exact .inl rfl
    · exact .inr hoccurs
  · rintro (rfl | hoccurs)
    · exact .self
    · exact .argument hoccurs

end

/-! ## Named parts of a kind -/

/-- Something of the kind `P` is named in the value, at whatever depth. -/
def Names (P : Value → Prop) (value : Value) : Prop := ∃ part : Value, part.Occurs value ∧ part.IsNamed ∧ P part

section
variable {P : Value → Prop}

theorem names_typeRef {identity : Identity} {name : String} :
    (typeRef identity name).Names P ↔ P (.typeRef identity name) := by
  simp [Names, occurs_typeRef, IsNamed]

theorem names_parameter {name : String} : (parameter name).Names P ↔ P (.parameter name) := by
  simp [Names, occurs_parameter, IsNamed]

theorem names_application {identity : Identity} {arguments : Value} :
    (application identity arguments).Names P ↔
      P (.application identity arguments) ∨ ∃ argument ∈ arguments.flatten, argument.Names P := by
  constructor
  · rintro ⟨part, hoccurs, hpart, h⟩
    rcases (occurs_application hpart).mp hoccurs with rfl | ⟨argument, hmem, hoccurs⟩
    · exact .inl h
    · exact .inr ⟨argument, hmem, part, hoccurs, hpart, h⟩
  · rintro (h | ⟨argument, hmem, part, hoccurs, hpart, h⟩)
    · exact ⟨_, .self, trivial, h⟩
    · exact ⟨part, .argument (hoccurs.trans (occurs_of_mem_flatten hmem)), hpart, h⟩

theorem names_primitive {p : Primitive} :
    (primitive p).Names P ↔ ∃ component ∈ p.components, component.Names P := by
  constructor
  · rintro ⟨part, hoccurs, hpart, h⟩
    obtain ⟨component, hmem, hoccurs⟩ := (occurs_primitive hpart).mp hoccurs
    exact ⟨component, hmem, part, hoccurs, hpart, h⟩
  · rintro ⟨component, hmem, part, hoccurs, hpart, h⟩
    exact ⟨part, .component hmem hoccurs, hpart, h⟩

/-- Lists in which the same parts are named. -/
theorem exists_names_congr {values values' : List Value}
    (h : ∀ part : Value, part.IsNamed → ((∃ value ∈ values, part.Occurs value) ↔ ∃ value ∈ values', part.Occurs value)) :
    (∃ value ∈ values, value.Names P) ↔ ∃ value ∈ values', value.Names P := by
  constructor
  · rintro ⟨value, hvalue, part, hoccurs, hpart, hP⟩
    obtain ⟨value', hvalue', hoccurs⟩ := (h part hpart).mp ⟨value, hvalue, hoccurs⟩
    exact ⟨value', hvalue', part, hoccurs, hpart, hP⟩
  · rintro ⟨value, hvalue, part, hoccurs, hpart, hP⟩
    obtain ⟨value', hvalue', hoccurs⟩ := (h part hpart).mpr ⟨value, hvalue, hoccurs⟩
    exact ⟨value', hvalue', part, hoccurs, hpart, hP⟩

end

end Value

/-!
## Sorted lists of names

`sortedNames` gives the set of the names of a list: it holds the names of the list, in strictly increasing order, so it
depends on nothing but which names these are.
-/

section

variable {name other : String} {names : List String}

theorem mem_insertName : name ∈ insertName other names ↔ name = other ∨ name ∈ names := by
  induction names with
  | nil => exact List.mem_cons
  | cons first rest ih =>
    unfold insertName
    split
    · exact List.mem_cons
    · split
      · next hsame =>
        rw [hsame, List.mem_cons, ← or_assoc, or_self]
      · rw [List.mem_cons, ih, List.mem_cons, or_left_comm]

theorem pairwise_insertName (h : names.Pairwise (· < ·)) : (insertName name names).Pairwise (· < ·) := by
  induction names with
  | nil => exact List.pairwise_singleton _ _
  | cons first rest ih =>
    unfold insertName
    rw [List.pairwise_cons] at h
    split
    · next hlt =>
      refine List.pairwise_cons.mpr ⟨List.forall_mem_cons.mpr ⟨hlt, fun other hmem => ?_⟩, List.pairwise_cons.mpr h⟩
      exact lt_trans hlt (h.1 other hmem)
    · split
      · exact List.pairwise_cons.mpr h
      · next hge hne =>
        refine List.pairwise_cons.mpr ⟨fun other hmem => ?_, ih h.2⟩
        rcases mem_insertName.mp hmem with rfl | hmem
        · exact lt_of_le_of_ne (not_lt.mp hge) (Ne.symm hne)
        · exact h.1 other hmem

@[simp] theorem mem_sortedNames : name ∈ sortedNames names ↔ name ∈ names := by
  induction names with
  | nil => rfl
  | cons first rest ih => rw [sortedNames, List.foldr_cons, mem_insertName, ← sortedNames, ih, List.mem_cons]

theorem pairwise_sortedNames (names : List String) : (sortedNames names).Pairwise (· < ·) := by
  induction names with
  | nil => exact List.Pairwise.nil
  | cons first rest ih => exact pairwise_insertName ih

theorem sortedNames_congr {names' : List String} (h : ∀ name, name ∈ names ↔ name ∈ names') :
    sortedNames names = sortedNames names' :=
  (pairwise_sortedNames names).eq_of_mem_iff (pairwise_sortedNames names') fun name => by
    rw [mem_sortedNames, mem_sortedNames, h]

end

/-! ## Type parameters -/

theorem Value.parametersOfAll_eq_flatMap (values : List Value) : parametersOfAll values = values.flatMap parameters := by
  induction values with
  | nil => rfl
  | cons value rest ih => rw [parametersOfAll, ih, List.flatMap_cons]

theorem Value.mem_parametersOfAll {name : String} {values : List Value} :
    name ∈ parametersOfAll values ↔ ∃ value ∈ values, name ∈ value.parameters := by
  rw [parametersOfAll_eq_flatMap, List.mem_flatMap]

theorem Primitive.mem_parameters {name : String} {p : Primitive} :
    name ∈ p.parameters ↔ ∃ component ∈ p.components, name ∈ component.parameters := by
  cases p with
  | tuple items => exact Value.mem_parametersOfAll
  | _ => simp [parameters, components]

theorem Value.mem_parameters {name : String} {value : Value} :
    name ∈ value.parameters ↔ (parameter name).Occurs value := by
  constructor
  · intro h
    induction value using partInduction with
    | typeRef _ _ | empty => cases h
    | application _ _ ih => exact .argument (ih h)
    | primitive p ih =>
      obtain ⟨component, hmem, h⟩ := Primitive.mem_parameters.mp h
      exact .component hmem (ih component hmem h)
    | parameter _ => exact List.mem_singleton.mp h ▸ .self
    | field _ _ ih => exact .field (ih h)
    | product _ _ ihLeft ihRight =>
      exact (List.mem_append.mp h).elim (fun h => .productLeft (ihLeft h)) fun h => .productRight (ihRight h)
    | argumentPair _ _ ihLeft ihRight =>
      exact (List.mem_append.mp h).elim (fun h => .pairLeft (ihLeft h)) fun h => .pairRight (ihRight h)
  · intro h
    induction h with
    | self => exact List.mem_singleton_self name
    | argument _ ih | field _ ih => exact ih
    | component hmem _ ih => exact Primitive.mem_parameters.mpr ⟨_, hmem, ih⟩
    | productLeft _ ih | pairLeft _ ih => exact List.mem_append_left _ ih
    | productRight _ ih | pairRight _ ih => exact List.mem_append_right _ ih

theorem Constructor.mem_parameters {name : String} {constructor : Constructor} :
    name ∈ constructor.parameters ↔ ∃ value ∈ constructor.values, (Value.parameter name).Occurs value := by
  simp only [← Value.mem_parameters]
  cases constructor with
  | «alias» p => simp [parameters, values, Value.parameters]
  | value alternatives | sumOfRecords _ alternatives =>
    simp [parameters, values, Alternatives.parameters_eq_flatMap]
  | enumeration tags => simp [parameters, values]

/-- The type parameters of a type are those that stand in its descriptor. -/
theorem Descriptor.mem_parameters {descriptor : Descriptor} {name : String} :
    name ∈ descriptor.parameters ↔ descriptor.Holds (.parameter name) := by
  rw [Descriptor.parameters, mem_sortedNames, Constructor.mem_parameters, Descriptor.Holds]

theorem Descriptor.holds_of_mem_parameters {descriptor : Descriptor} {name : String}
    (h : name ∈ descriptor.parameters) : descriptor.Holds (.parameter name) :=
  mem_parameters.mp h

/-! ## Shapes -/

namespace Shape

variable {part : Value} (hpart : part.IsNamed)
include hpart

theorem occurs_iff_of_recordFields {typeName : String} {payload : Value} {fields : List RecordField}
    (h : recordFields typeName payload = .ok fields) :
    part.Occurs payload ↔ ∃ field ∈ fields, part.Occurs field.value := by
  rw [Value.occurs_iff_exists_mem_flatten hpart, (recordFields_eq_ok.mp h).1]
  simp only [List.mem_map, exists_exists_and_eq_and, Value.occurs_field hpart]

theorem exists_type_of_ofBranches {typeName : String} {branches : List Branch} {shape : Shape}
    (h : ofBranches typeName branches = .ok shape) {branch : Branch} (hbranch : branch ∈ branches)
    (hoccurs : part.Occurs branch.value) : ∃ value ∈ shape.types, part.Occurs value := by
  unfold ofBranches at h
  split at h
  · cases h
  · obtain ⟨fields, hfields, h⟩ := bind_eq_ok.mp h
    cases h
    obtain rfl := List.mem_singleton.mp hbranch
    obtain ⟨field, hfield, hoccurs⟩ := (occurs_iff_of_recordFields hpart hfields).mp hoccurs
    exact ⟨field.value, List.mem_map_of_mem hfield, hoccurs⟩
  · cases h
    obtain rfl := List.mem_singleton.mp hbranch
    exact (Value.occurs_iff_exists_mem_flatten hpart).mp hoccurs
  · obtain ⟨constructors, hconstructors, h⟩ := bind_eq_ok.mp h
    cases h
    obtain ⟨constructor, hmem, hpositional⟩ := exists_of_forall₂_left (mapM_eq_ok.mp hconstructors) hbranch
    obtain ⟨value, rfl, harguments⟩ := positional_eq_ok.mp hpositional
    obtain ⟨argument, hargument, hoccurs⟩ := (Value.occurs_iff_exists_mem_flatten hpart).mp hoccurs
    exact ⟨argument, List.mem_flatMap.mpr ⟨constructor, hmem, harguments ▸ hargument⟩, hoccurs⟩

theorem occurs_iff_of_hoistedRecord {typeName : String} {branch : Branch} {record : HoistedRecord}
    (h : hoistedRecord typeName branch = .ok record) :
    part.Occurs branch.value ↔ ∃ field ∈ record.fields, part.Occurs field.value := by
  obtain ⟨value, rfl, -, hfields, -⟩ := hoistedRecord_eq_ok.mp h
  exact occurs_iff_of_recordFields hpart hfields

end Shape

/-- A shape names what its descriptor names. -/
theorem Descriptor.holds_iff_of_classify {descriptor : Descriptor} {shape : Shape} (h : descriptor.classify = .ok shape)
    {part : Value} (hpart : part.IsNamed) : descriptor.Holds part ↔ ∃ value ∈ shape.types, part.Occurs value := by
  constructor
  · rintro ⟨value, hvalue, hoccurs⟩
    cases hconstructor : descriptor.constructor with
    | «alias» p =>
      simp only [classify, hconstructor, Except.ok.injEq] at h
      subst h
      rw [hconstructor] at hvalue
      exact ⟨value, hvalue, hoccurs⟩
    | value alternatives =>
      simp only [classify, hconstructor] at h
      rw [hconstructor] at hvalue
      obtain ⟨branch, hbranch, rfl⟩ := List.mem_map.mp hvalue
      exact Shape.exists_type_of_ofBranches hpart h hbranch hoccurs
    | enumeration tags =>
      rw [hconstructor] at hvalue
      cases hvalue
    | sumOfRecords typeName alternatives =>
      obtain ⟨records, rfl, -, hrecords⟩ := exists_records_of_classify hconstructor h
      rw [hconstructor] at hvalue
      obtain ⟨branch, hbranch, rfl⟩ := List.mem_map.mp hvalue
      obtain ⟨record, hmem, hrecord⟩ := exists_of_forall₂_left hrecords hbranch
      obtain ⟨field, hfield, hoccurs⟩ := (Shape.occurs_iff_of_hoistedRecord hpart hrecord).mp hoccurs
      exact ⟨field.value, List.mem_flatMap.mpr ⟨record, hmem, List.mem_map_of_mem hfield⟩, hoccurs⟩
  · rintro ⟨value, hvalue, hoccurs⟩
    obtain ⟨top, htop, hvalue⟩ := holds_of_mem_types h hvalue
    exact ⟨top, htop, hoccurs.trans hvalue⟩

end TypeScribe
