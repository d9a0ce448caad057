import TypeScribe.Proofs.Occurrences

/-!
# The names in a descriptor

A value holds the names of types, fields and type parameters, at whatever depth. Each name in the shape of a descriptor is
one of the descriptor, but for the names of the record types that a sum of records is given.
-/

namespace TypeScribe

/-! ## Values -/

mutual

/-- The names of types, fields and type parameters that stand in a value. -/
def Value.names : Value → List String
  | .typeRef _ name => [name]
  | .application identity arguments => identity.name :: arguments.names
  | .primitive p => p.names
  | .parameter name => [name]
  | .field name value => name :: value.names
  | .product left right => left.names ++ right.names
  | .argumentPair left right => left.names ++ right.names
  | .empty => []

def Primitive.names : Primitive → List String
  | .scalar _ => []
  | .list item => item.names
  | .option item => item.names
  | .either left right => left.names ++ right.names
  | .tuple items => Value.namesOfAll items

def Value.namesOfAll : List Value → List String
  | [] => []
  | item :: rest => item.names ++ Value.namesOfAll rest

end

theorem Primitive.names_eq_flatMap (p : Primitive) : p.names = p.components.flatMap Value.names := by
  cases p with
  | tuple items =>
    rw [names, components]
    induction items with
    | nil => rfl
    | cons item rest ih => rw [Value.namesOfAll, ih, List.flatMap_cons]
  | _ => simp [names, components]

theorem Value.names_eq_flatMap (value : Value) : value.names = value.flatten.flatMap names := by
  fun_induction flatten value with
  | case1 left right ihLeft ihRight => rw [names, ihLeft, ihRight, List.flatMap_append]
  | case2 left right ihLeft ihRight => rw [names, ihLeft, ihRight, List.flatMap_append]
  | case3 => rfl
  | case4 item => exact (List.flatMap_singleton _ _).symm

theorem Value.mem_names_of_occurs {part value : Value} (hoccurs : part.Occurs value) {name : String}
    (h : name ∈ part.names) : name ∈ value.names := by
  induction hoccurs with
  | self => exact h
  | component hmem _ ih =>
    rw [names, Primitive.names_eq_flatMap]
    exact List.mem_flatMap.mpr ⟨_, hmem, ih⟩
  | _ => simp_all [names]

/-! ## Shapes -/

def RecordField.names (field : RecordField) : List String := field.name :: field.value.names

def Positional.names (constructor : Positional) : List String :=
  constructor.name :: constructor.arguments.flatMap Value.names

def HoistedRecord.names (record : HoistedRecord) : List String :=
  record.displayName :: record.branch :: record.parameters ++ record.fields.flatMap RecordField.names

def Shape.names : Shape → List String
  | .alias p => p.names
  | .record fields => fields.flatMap RecordField.names
  | .single constructor => constructor.names
  | .sum constructors => constructors.flatMap Positional.names
  | .enumeration tags => tags
  | .sumOfRecords records => records.flatMap HoistedRecord.names

def Branch.names (branch : Branch) : List String := branch.name :: branch.value.names

def Descriptor.names (descriptor : Descriptor) : List String :=
  descriptor.displayName ::
    match descriptor.constructor with
    | .alias p => p.names
    | .value alternatives => alternatives.branches.flatMap Branch.names
    | .enumeration tags => tags
    | .sumOfRecords typeName alternatives => typeName :: alternatives.branches.flatMap Branch.names

theorem Shape.names_recordFields {typeName : String} {payload : Value} {fields : List RecordField}
    (h : recordFields typeName payload = .ok fields) : fields.flatMap RecordField.names = payload.names := by
  rw [Value.names_eq_flatMap, (recordFields_eq_ok.mp h).1, List.flatMap_map]
  rfl

theorem Shape.names_ofBranches {typeName : String} {branches : List Branch} {shape : Shape}
    (h : ofBranches typeName branches = .ok shape) : shape.names ⊆ branches.flatMap Branch.names := by
  unfold ofBranches at h
  split at h
  · cases h
  · next name payload =>
    obtain ⟨fields, hfields, h⟩ := bind_eq_ok.mp h
    obtain rfl := pure_eq_ok.mp h
    rw [names, names_recordFields hfields, List.flatMap_singleton]
    exact List.subset_cons_self _ _
  · next name payload =>
    cases h
    rw [List.flatMap_singleton, Branch.names, Branch.value, Value.names_eq_flatMap]
    exact fun _ hname => hname
  · obtain ⟨constructors, hconstructors, h⟩ := bind_eq_ok.mp h
    obtain rfl := pure_eq_ok.mp h
    intro name hname
    obtain ⟨constructor, hmem, hname⟩ := List.mem_flatMap.mp hname
    obtain ⟨branch, hbranch, hpositional⟩ := exists_of_mapM_eq_ok hconstructors hmem
    obtain ⟨value, rfl, harguments⟩ := positional_eq_ok.mp hpositional
    refine List.mem_flatMap.mpr ⟨_, hbranch, ?_⟩
    rwa [Branch.names, Branch.value, Value.names_eq_flatMap, ← harguments]

theorem Shape.mem_names_hoistedRecord {typeName : String} {branch : Branch} {record : HoistedRecord}
    (h : hoistedRecord typeName branch = .ok record) {name : String} (hname : name ∈ record.names) :
    name = hoistedName typeName branch.name ∨ name ∈ branch.names := by
  obtain ⟨value, rfl, hdisplayName, hfields, hparameters⟩ := hoistedRecord_eq_ok.mp h
  rw [HoistedRecord.names, List.cons_append, List.cons_append, hdisplayName, hparameters, names_recordFields hfields,
    List.mem_cons, List.mem_cons, List.mem_append, mem_sortedNames, Value.mem_parameters] at hname
  rcases hname with hname | hname | hname | hname
  · exact .inl hname
  · exact .inr (List.mem_cons.mpr (.inl hname))
  · exact .inr (List.mem_cons_of_mem _ (Value.mem_names_of_occurs hname (List.mem_singleton_self name)))
  · exact .inr (List.mem_cons_of_mem _ hname)

namespace Descriptor

variable {descriptor : Descriptor}

/-- A name in the shape of a descriptor stands in the descriptor, or it is put together from two that do. -/
theorem mem_names_of_classify {shape : Shape} (h : descriptor.classify = .ok shape) {name : String}
    (hname : name ∈ shape.names) :
    name ∈ descriptor.names ∨
      ∃ typeName ∈ descriptor.names, ∃ branch ∈ descriptor.names, name = Shape.hoistedName typeName branch := by
  unfold Descriptor.names
  unfold classify at h
  cases hconstructor : descriptor.constructor with
  | «alias» p =>
    simp only [hconstructor, Except.ok.injEq] at h
    subst h
    exact .inl (List.mem_cons_of_mem _ hname)
  | value alternatives =>
    simp only [hconstructor] at h
    exact .inl (List.mem_cons_of_mem _ (Shape.names_ofBranches h hname))
  | enumeration tags =>
    simp only [hconstructor] at h
    split at h
    · cases h
    · cases h
      exact .inl (List.mem_cons_of_mem _ hname)
  | sumOfRecords typeName alternatives =>
    obtain ⟨records, rfl, -, hrecords⟩ := exists_records_of_classify hconstructor h
    obtain ⟨record, hmem, hname⟩ := List.mem_flatMap.mp hname
    obtain ⟨branch, hbranch, hrecord⟩ := exists_of_forall₂_left hrecords.flip hmem
    have hnames : ∀ inner ∈ branch.names, inner ∈ alternatives.branches.flatMap Branch.names := fun inner hinner =>
      List.mem_flatMap.mpr ⟨branch, hbranch, hinner⟩
    rcases Shape.mem_names_hoistedRecord hrecord hname with rfl | hname
    · exact .inr ⟨typeName, by simp, branch.name, by simp [hnames _ (List.mem_cons_self)], rfl⟩
    · exact .inl (by simp [hnames name hname])

theorem mem_names_of_holds {part : Value} (h : descriptor.Holds part) {name : String} (hname : name ∈ part.names) :
    name ∈ descriptor.names := by
  obtain ⟨value, hvalue, hoccurs⟩ := h
  have hname := Value.mem_names_of_occurs hoccurs hname
  unfold Descriptor.names
  cases hconstructor : descriptor.constructor with
  | «alias» p =>
    rw [hconstructor] at hvalue
    obtain rfl := List.mem_singleton.mp hvalue
    exact List.mem_cons_of_mem _ hname
  | value alternatives | sumOfRecords typeName alternatives =>
    rw [hconstructor] at hvalue
    obtain ⟨branch, hbranch, rfl⟩ := List.mem_map.mp hvalue
    have hmem : name ∈ alternatives.branches.flatMap Branch.names :=
      List.mem_flatMap.mpr ⟨branch, hbranch, List.mem_cons_of_mem _ hname⟩
    simp [hmem]
  | enumeration tags =>
    rw [hconstructor] at hvalue
    cases hvalue

end Descriptor

end TypeScribe
