import TypeScribe.FieldType
import TypeScribe.Shape

/-!
# Values where types are due

The walks over values go from a type to the arguments it is applied to and to the components of a built-in type.
`Value.typeInduction` is the induction along these walks, `Value.IsType` says which values the walks accept, and
`Value.Occurs` which values they may meet.
-/

namespace TypeScribe

def Primitive.components : Primitive → List Value
  | .scalar _ => []
  | .list item => [item]
  | .option item => [item]
  | .either left right => [left, right]
  | .tuple items => items

/-- Whether a built-in type has as many components as it may have: two to six in a tuple. -/
def Primitive.SizeAllowed : Primitive → Prop
  | .tuple items => 2 ≤ items.length ∧ items.length ≤ 6
  | _ => True

namespace Value

/-! ## Induction -/

theorem sizeOf_le_of_mem_flatten {item value : Value} (h : item ∈ value.flatten) : sizeOf item ≤ sizeOf value := by
  fun_induction Value.flatten value with
  | case1 left right ihLeft ihRight =>
    rw [List.mem_append] at h
    rw [product.sizeOf_spec]
    rcases h with h | h
    · have := ihLeft h
      omega
    · have := ihRight h
      omega
  | case2 left right ihLeft ihRight =>
    rw [List.mem_append] at h
    rw [argumentPair.sizeOf_spec]
    rcases h with h | h
    · have := ihLeft h
      omega
    · have := ihRight h
      omega
  | case3 => cases h
  | case4 => exact Nat.le_of_eq (congrArg sizeOf (List.mem_singleton.mp h))

theorem sizeOf_lt_of_mem_components {item : Value} {p : Primitive} (h : item ∈ p.components) :
    sizeOf item < sizeOf p := by
  cases p with
  | scalar s => cases h
  | list item' =>
    rw [List.mem_singleton.mp h, Primitive.list.sizeOf_spec]
    omega
  | option item' =>
    rw [List.mem_singleton.mp h, Primitive.option.sizeOf_spec]
    omega
  | either left right =>
    simp only [Primitive.components, List.mem_cons, List.not_mem_nil, or_false] at h
    rcases h with rfl | rfl
    · rw [Primitive.either.sizeOf_spec]
      omega
    · rw [Primitive.either.sizeOf_spec]
      omega
  | tuple items =>
    have : sizeOf item < sizeOf items := List.sizeOf_lt_of_mem h
    rw [Primitive.tuple.sizeOf_spec]
    omega

/-- Induction from the arguments of a type and the components of a built-in type to the type itself. A value that is
no type is not entered. -/
@[elab_as_elim]
theorem typeInduction {motive : Value → Prop}
    (typeRef : ∀ identity name, motive (.typeRef identity name))
    (application : ∀ identity arguments, (∀ argument ∈ arguments.flatten, motive argument) →
      motive (.application identity arguments))
    (primitive : ∀ p : Primitive, (∀ component ∈ p.components, motive component) → motive (.primitive p))
    (parameter : ∀ name, motive (.parameter name))
    (misplaced : ∀ value, value.fieldType = .misplaced value.kind → motive value) : ∀ value, motive value
  | .typeRef identity name => typeRef identity name
  | .application identity arguments =>
    application identity arguments fun argument _ =>
      typeInduction typeRef application primitive parameter misplaced argument
  | .primitive p =>
    primitive p fun component _ => typeInduction typeRef application primitive parameter misplaced component
  | .parameter name => parameter name
  | .field name value => misplaced (.field name value) rfl
  | .product left right => misplaced (.product left right) rfl
  | .argumentPair left right => misplaced (.argumentPair left right) rfl
  | .empty => misplaced .empty rfl
termination_by value => sizeOf value
decreasing_by
  · have := sizeOf_le_of_mem_flatten ‹_›
    rw [Value.application.sizeOf_spec]
    omega
  · have := sizeOf_lt_of_mem_components ‹_›
    rw [Value.primitive.sizeOf_spec]
    omega

/-- Induction from the parts of a value to the value itself. The parts of a built-in type are its components. -/
@[elab_as_elim]
theorem partInduction {motive : Value → Prop}
    (typeRef : ∀ identity name, motive (.typeRef identity name))
    (application : ∀ identity arguments, motive arguments → motive (.application identity arguments))
    (primitive : ∀ p : Primitive, (∀ component ∈ p.components, motive component) → motive (.primitive p))
    (parameter : ∀ name, motive (.parameter name))
    (field : ∀ name value, motive value → motive (.field name value))
    (product : ∀ left right, motive left → motive right → motive (.product left right))
    (argumentPair : ∀ left right, motive left → motive right → motive (.argumentPair left right))
    (empty : motive .empty) (value : Value) : motive value :=
  have parts : ∀ part, sizeOf part < sizeOf value → motive part := fun part _ =>
    partInduction typeRef application primitive parameter field product argumentPair empty part
  match value with
  | .typeRef identity name => typeRef identity name
  | .application identity arguments => application identity arguments <| parts arguments <| by
    rw [Value.application.sizeOf_spec]
    omega
  | .primitive p => primitive p fun component hcomponent => parts component <| by
    have := sizeOf_lt_of_mem_components hcomponent
    rw [Value.primitive.sizeOf_spec]
    omega
  | .parameter name => parameter name
  | .field name value => field name value <| parts value <| by
    rw [Value.field.sizeOf_spec]
    omega
  | .product left right => product left right
    (parts left (by rw [Value.product.sizeOf_spec]; omega)) (parts right (by rw [Value.product.sizeOf_spec]; omega))
  | .argumentPair left right => argumentPair left right
    (parts left (by rw [Value.argumentPair.sizeOf_spec]; omega))
    (parts right (by rw [Value.argumentPair.sizeOf_spec]; omega))
  | .empty => empty
termination_by sizeOf value

/-! ## The normal form -/

theorem fieldType_list (item : Value) :
    (item = .primitive (.scalar .char) ∧ (Primitive.list item).fieldType = .scalar .string) ∨
      (Primitive.list item).fieldType = .list item.fieldType := by
  by_cases h : item = .primitive (.scalar .char)
  · subst h
    exact .inl ⟨rfl, rfl⟩
  · refine .inr ?_
    unfold Primitive.fieldType
    split <;> simp_all

theorem eq_of_fieldType_option {value : Value} {item : FieldType} (h : value.fieldType = .option item) :
    ∃ inner, value = .primitive (.option inner) ∧ inner.fieldType = item := by
  cases value with
  | primitive p =>
    cases p with
    | option inner => exact ⟨inner, rfl, FieldType.option.inj h⟩
    | list inner => rcases fieldType_list inner with ⟨-, h'⟩ | h' <;> rw [Value.fieldType, h'] at h <;> cases h
    | _ => cases h
  | _ => cases h

theorem fieldTypes_eq_map (value : Value) : value.fieldTypes = value.flatten.map fieldType := by
  fun_induction Value.flatten value with
  | case1 left right ihLeft ihRight => rw [fieldTypes, ihLeft, ihRight, List.map_append]
  | case2 left right ihLeft ihRight => rw [fieldTypes, ihLeft, ihRight, List.map_append]
  | case3 => rfl
  | case4 item => cases item <;> simp_all [fieldTypes, fieldType]

theorem fieldTypesOfAll_eq_map (values : List Value) : fieldTypesOfAll values = values.map fieldType := by
  induction values with
  | nil => rfl
  | cons value rest ih => rw [fieldTypesOfAll, ih, List.map_cons]

theorem fieldType_application (identity : Identity) (arguments : Value) :
    (application identity arguments).fieldType = .application identity (arguments.flatten.map fieldType) := by
  rw [fieldType, fieldTypes_eq_map]

/-! ## Types -/

/-- The value is a type, in which every type of the program is one that `known` accepts. -/
inductive IsType (known : Identity → Prop) : Value → Prop where
  | parameter (name : String) : IsType known (.parameter name)
  | typeRef {identity : Identity} (name : String) : known identity → IsType known (.typeRef identity name)
  | application {identity : Identity} {arguments : Value} :
    known identity → (∀ argument ∈ arguments.flatten, IsType known argument) →
      IsType known (.application identity arguments)
  | primitive {p : Primitive} :
    p.SizeAllowed → (∀ component ∈ p.components, IsType known component) → IsType known (.primitive p)

theorem not_isType_of_misplaced {known : Identity → Prop} {value : Value} {kind : ValueKind}
    (h : value.fieldType = .misplaced kind) : ¬ value.IsType known := by
  rintro (_ | _ | _ | @⟨p, _, _⟩)
  · cases h
  · cases h
  · cases h
  · cases p with
    | list item => rcases fieldType_list item with ⟨-, h'⟩ | h' <;> rw [Value.fieldType, h'] at h <;> cases h
    | _ => cases h

theorem isType_application {known : Identity → Prop} {identity : Identity} {arguments : Value} :
    (application identity arguments).IsType known ↔
      known identity ∧ ∀ argument ∈ arguments.flatten, argument.IsType known := by
  constructor
  · rintro (_ | _ | ⟨h, harguments⟩)
    exact ⟨h, harguments⟩
  · rintro ⟨h, harguments⟩
    exact .application h harguments

theorem isType_primitive {known : Identity → Prop} {p : Primitive} :
    (primitive p).IsType known ↔ p.SizeAllowed ∧ ∀ component ∈ p.components, component.IsType known := by
  constructor
  · rintro (_ | _ | _ | ⟨hsize, hcomponents⟩)
    exact ⟨hsize, hcomponents⟩
  · rintro ⟨hsize, hcomponents⟩
    exact .primitive hsize hcomponents

/-! ## Parts -/

/-- The value `part` stands somewhere in a value, at whatever depth. -/
inductive Occurs (part : Value) : Value → Prop where
  | self : Occurs part part
  | argument {identity : Identity} {arguments : Value} :
    Occurs part arguments → Occurs part (.application identity arguments)
  | component {p : Primitive} {value : Value} :
    value ∈ p.components → Occurs part value → Occurs part (.primitive p)
  | field {name : String} {value : Value} : Occurs part value → Occurs part (.field name value)
  | productLeft {left right : Value} : Occurs part left → Occurs part (.product left right)
  | productRight {left right : Value} : Occurs part right → Occurs part (.product left right)
  | pairLeft {left right : Value} : Occurs part left → Occurs part (.argumentPair left right)
  | pairRight {left right : Value} : Occurs part right → Occurs part (.argumentPair left right)

theorem Occurs.trans {part middle whole : Value} (h : Occurs part middle) (h' : Occurs middle whole) :
    Occurs part whole := by
  induction h' with
  | self => exact h
  | argument _ ih => exact .argument ih
  | component hmem _ ih => exact .component hmem ih
  | field _ ih => exact .field ih
  | productLeft _ ih => exact .productLeft ih
  | productRight _ ih => exact .productRight ih
  | pairLeft _ ih => exact .pairLeft ih
  | pairRight _ ih => exact .pairRight ih

theorem occurs_of_mem_flatten {item value : Value} (h : item ∈ value.flatten) : Occurs item value := by
  fun_induction Value.flatten value with
  | case1 left right ihLeft ihRight =>
    exact (List.mem_append.mp h).elim (fun h => .productLeft (ihLeft h)) fun h => .productRight (ihRight h)
  | case2 left right ihLeft ihRight =>
    exact (List.mem_append.mp h).elim (fun h => .pairLeft (ihLeft h)) fun h => .pairRight (ihRight h)
  | case3 => cases h
  | case4 => exact List.mem_singleton.mp h ▸ .self

end Value

theorem Primitive.references_eq_any (identity : Identity) (p : Primitive) :
    p.references identity = p.components.any (·.references identity) := by
  cases p with
  | tuple items =>
    rw [references, components]
    induction items with
    | nil => rfl
    | cons item rest ih => rw [Value.anyReferences, ih, List.any_cons]
  | _ => simp [references, components]

/-- The type of the program that a value refers to by itself. -/
def Value.identity? : Value → Option Identity
  | .typeRef identity _ => some identity
  | .application identity _ => some identity
  | _ => none

/-- A value refers to the types that it and the values in it refer to by themselves. -/
theorem Value.references_iff {identity : Identity} {value : Value} :
    value.references identity = true ↔ ∃ part : Value, part.Occurs value ∧ part.identity? = some identity := by
  constructor
  · intro h
    induction value using partInduction with
    | typeRef other name => exact ⟨_, .self, congrArg some (eq_of_beq h)⟩
    | application other arguments ih =>
      rcases Bool.or_eq_true_iff.mp h with h | h
      · exact ⟨_, .self, congrArg some (eq_of_beq h)⟩
      · obtain ⟨part, hoccurs, hpart⟩ := ih h
        exact ⟨part, .argument hoccurs, hpart⟩
    | primitive p ih =>
      rw [references, Primitive.references_eq_any, List.any_eq_true] at h
      obtain ⟨component, hmem, h⟩ := h
      obtain ⟨part, hoccurs, hpart⟩ := ih component hmem h
      exact ⟨part, .component hmem hoccurs, hpart⟩
    | parameter name | empty => cases h
    | field name value ih =>
      obtain ⟨part, hoccurs, hpart⟩ := ih h
      exact ⟨part, .field hoccurs, hpart⟩
    | product left right ihLeft ihRight =>
      rcases Bool.or_eq_true_iff.mp h with h | h
      · obtain ⟨part, hoccurs, hpart⟩ := ihLeft h
        exact ⟨part, .productLeft hoccurs, hpart⟩
      · obtain ⟨part, hoccurs, hpart⟩ := ihRight h
        exact ⟨part, .productRight hoccurs, hpart⟩
    | argumentPair left right ihLeft ihRight =>
      rcases Bool.or_eq_true_iff.mp h with h | h
      · obtain ⟨part, hoccurs, hpart⟩ := ihLeft h
        exact ⟨part, .pairLeft hoccurs, hpart⟩
      · obtain ⟨part, hoccurs, hpart⟩ := ihRight h
        exact ⟨part, .pairRight hoccurs, hpart⟩
  · rintro ⟨part, hoccurs, hpart⟩
    induction hoccurs with
    | self =>
      cases part with
      | typeRef | application => simp_all [identity?, references]
      | _ => cases hpart
    | argument _ ih => simp [references, ih]
    | component hmem _ ih =>
      rw [references, Primitive.references_eq_any]
      exact List.any_eq_true.mpr ⟨_, hmem, ih⟩
    | field _ ih => rw [references, ih]
    | productLeft _ ih => simp [references, ih]
    | productRight _ ih => simp [references, ih]
    | pairLeft _ ih => simp [references, ih]
    | pairRight _ ih => simp [references, ih]

theorem Value.references_of_occurs {identity : Identity} {part value : Value} (h : part.references identity = true)
    (hoccurs : part.Occurs value) : value.references identity = true := by
  obtain ⟨inner, hinner, hidentity⟩ := references_iff.mp h
  exact references_iff.mpr ⟨inner, hinner.trans hoccurs, hidentity⟩

/-! ## Shapes -/

namespace Shape

/-- The values of a shape that must be types, in the order in which they are rendered. -/
def types : Shape → List Value
  | .alias p => [.primitive p]
  | .record fields => fields.map (·.value)
  | .single constructor => constructor.arguments
  | .sum constructors => constructors.flatMap (·.arguments)
  | .enumeration _ => []
  | .sumOfRecords records => records.flatMap fun record => record.fields.map (·.value)

end Shape

def Constructor.values : Constructor → List Value
  | .alias p => [.primitive p]
  | .value alternatives => alternatives.branches.map (·.value)
  | .enumeration _ => []
  | .sumOfRecords _ alternatives => alternatives.branches.map (·.value)

/-- The value stands somewhere in the descriptor, at whatever depth. -/
def Descriptor.Holds (descriptor : Descriptor) (part : Value) : Prop :=
  ∃ value ∈ descriptor.constructor.values, part.Occurs value

theorem Constructor.references_eq_any (identity : Identity) (constructor : Constructor) :
    constructor.references identity = constructor.values.any (·.references identity) := by
  cases constructor with
  | «alias» p => simp [references, values, Value.references]
  | value alternatives | sumOfRecords typeName alternatives =>
    rw [references, values, Alternatives.references_eq_any, List.any_map]
    rfl
  | enumeration tags => rfl

/-- A type refers to the types that the values in its descriptor refer to by themselves. -/
theorem Descriptor.references_iff {descriptor : Descriptor} {identity : Identity} :
    descriptor.references identity = true ↔ ∃ part, descriptor.Holds part ∧ part.identity? = some identity := by
  simp only [references, Constructor.references_eq_any, List.any_eq_true, Value.references_iff, Holds]
  constructor
  · rintro ⟨value, hvalue, part, hoccurs, hpart⟩
    exact ⟨part, ⟨value, hvalue, hoccurs⟩, hpart⟩
  · rintro ⟨part, ⟨value, hvalue, hoccurs⟩, hpart⟩
    exact ⟨value, hvalue, part, hoccurs, hpart⟩

end TypeScribe
