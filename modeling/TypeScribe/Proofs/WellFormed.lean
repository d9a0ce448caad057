import TypeScribe.Proofs.Classification

/-!
# Well-formed descriptors

Which descriptors have a shape is said here without a check being run: by the list of constructors that a descriptor
comes to, and by the list of items that the payload of a record comes to. `classify_outcome` proves that exactly these
descriptors are accepted, that the shape holds all they declare, in order, and that otherwise the fault is that of the
first constructor out of place or, inside it, of the first item out of place.
-/

namespace TypeScribe

/-- Some member of the list is not well formed, and the fault is that of the first one. -/
def FirstFault {α : Type} (wellFormed : α → Prop) (faultOf : α → RenderError → Prop) (xs : List α)
    (fault : RenderError) : Prop :=
  ∃ front x back, xs = front ++ x :: back ∧ (∀ y ∈ front, wellFormed y) ∧ faultOf x fault

/-- A list is checked member by member until the first fault. -/
theorem mapM_eq_error_iff_firstFault {α β : Type} {f : α → Except RenderError β} {wellFormed : α → Prop}
    {faultOf : α → RenderError → Prop} {xs : List α} {fault : RenderError}
    (hsucceeds : ∀ x, Succeeds (f x) ↔ wellFormed x) (hfault : ∀ x e, f x = .error e ↔ faultOf x e) :
    xs.mapM f = .error fault ↔ FirstFault wellFormed faultOf xs fault := by
  simp only [mapM_eq_error, FirstFault, hsucceeds, hfault]

/-! ## Records -/

namespace Value

def IsField (item : Value) : Prop := ∃ name value, item = .field name value

def IsFieldList (payload : Value) : Prop :=
  payload.flatten ≠ [] ∧ ∀ item ∈ payload.flatten, item.IsField

/-- The payload consists of these fields, in this order. -/
def HoldsFields (payload : Value) (fields : List RecordField) : Prop :=
  payload.flatten = fields.map fun field => .field field.name field.value

def FieldFault (typeName : String) (item : Value) (fault : RenderError) : Prop :=
  ¬ item.IsField ∧ fault = .unexpectedValue typeName item.kind .record

/-- What is wrong with the payload of a record: there are no items, or one is no field. -/
def RecordFault (typeName : String) (payload : Value) (fault : RenderError) : Prop :=
  payload.flatten = [] ∧ fault = .emptyRecord typeName ∨
    FirstFault IsField (FieldFault typeName) payload.flatten fault

end Value

namespace Shape

variable {typeName : String}

theorem succeeds_recordField {item : Value} : Succeeds (recordField typeName item) ↔ item.IsField := by
  unfold Value.IsField
  cases item <;> simp [recordField]

theorem recordField_eq_error {item : Value} {fault : RenderError} :
    recordField typeName item = .error fault ↔ item.FieldFault typeName fault := by
  unfold Value.FieldFault Value.IsField
  cases item <;> simp [recordField, eq_comm]

theorem recordFields_of_nil {payload : Value} (h : payload.flatten = []) :
    recordFields typeName payload = .error (.emptyRecord typeName) := by
  unfold recordFields
  rw [h]
  rfl

theorem recordFields_of_ne_nil {payload : Value} (h : payload.flatten ≠ []) :
    recordFields typeName payload = payload.flatten.mapM (recordField typeName) := by
  unfold recordFields
  cases hfields : payload.flatten.mapM (recordField typeName) with
  | error fault => rfl
  | ok fields =>
    have hne : fields ≠ [] := by
      rintro rfl
      exact h (List.forall₂_nil_right_iff.mp (mapM_eq_ok.mp hfields))
    simp [bind, Except.bind, pure, Except.pure, hne]

theorem succeeds_recordFields {payload : Value} :
    Succeeds (recordFields typeName payload) ↔ payload.IsFieldList := by
  unfold Value.IsFieldList
  by_cases h : payload.flatten = []
  · simp [recordFields_of_nil h, h]
  · simp only [recordFields_of_ne_nil h, succeeds_mapM, succeeds_recordField, ne_eq, h, not_false_eq_true, true_and]

theorem recordFields_eq_error {payload : Value} {fault : RenderError} :
    recordFields typeName payload = .error fault ↔ payload.RecordFault typeName fault := by
  unfold Value.RecordFault
  by_cases h : payload.flatten = []
  · simp [recordFields_of_nil h, h, FirstFault, eq_comm]
  · rw [recordFields_of_ne_nil h, mapM_eq_error_iff_firstFault (fun _ => succeeds_recordField)
      fun _ _ => recordField_eq_error]
    simp only [h, false_and, false_or]

end Shape

/-! ## Constructors -/

namespace Branch

def IsPositional (branch : Branch) : Prop := ∃ name value, branch = .named name value

/-- A constructor with labelled fields, of which there is at least one. -/
def IsRecord (branch : Branch) : Prop := ∃ name payload, branch = .record name payload ∧ payload.IsFieldList

def MixedFault (typeName : String) (branch : Branch) (fault : RenderError) : Prop :=
  ∃ name payload, branch = .record name payload ∧ fault = .mixedRecordBranch typeName name

/-- What is wrong with a constructor of a sum of records: it is positional, or its own record is at fault. -/
def HoistFault (typeName : String) (branch : Branch) (fault : RenderError) : Prop :=
  (∃ name value, branch = .named name value ∧ fault = .malformedSumOfRecords typeName name) ∨
    ∃ name payload, branch = .record name payload ∧ payload.RecordFault (Shape.hoistedName typeName name) fault

/-- The arguments are those of the constructor, under its name. -/
def Carries (branch : Branch) (constructor : Positional) : Prop :=
  ∃ value, branch = .named constructor.name value ∧ constructor.arguments = value.flatten

/-- The record type holds the fields of the constructor and has the parameters that occur in them. It is named after the
sum and the constructor. -/
def Becomes (typeName : String) (branch : Branch) (record : HoistedRecord) : Prop :=
  ∃ payload, branch = .record record.branch payload ∧ payload.HoldsFields record.fields ∧
    record.displayName = Shape.hoistedName typeName record.branch ∧ record.parameters = sortedNames payload.parameters

end Branch

namespace Shape

variable {typeName : String} {branch : Branch}

theorem succeeds_positional : Succeeds (positional typeName branch) ↔ branch.IsPositional := by
  unfold Branch.IsPositional
  cases branch <;> simp [positional]

theorem positional_eq_error {fault : RenderError} :
    positional typeName branch = .error fault ↔ branch.MixedFault typeName fault := by
  unfold Branch.MixedFault
  cases branch <;> simp [positional, eq_comm]

theorem succeeds_hoistedRecord : Succeeds (hoistedRecord typeName branch) ↔ branch.IsRecord := by
  unfold Branch.IsRecord
  cases branch with
  | named name value => simp [hoistedRecord]
  | record name payload =>
    rw [hoistedRecord, succeeds_bind_pure, succeeds_recordFields]
    simp

theorem hoistedRecord_eq_error {fault : RenderError} :
    hoistedRecord typeName branch = .error fault ↔ branch.HoistFault typeName fault := by
  unfold Branch.HoistFault
  cases branch with
  | named name value => simp [hoistedRecord, eq_comm]
  | record name payload =>
    rw [hoistedRecord, bind_pure_eq_error, recordFields_eq_error]
    simp

theorem becomes_of_hoistedRecord {record : HoistedRecord} (h : hoistedRecord typeName branch = .ok record) :
    branch.Becomes typeName record := by
  obtain ⟨payload, hbranch, hname, hfields, hparameters⟩ := hoistedRecord_eq_ok.mp h
  exact ⟨payload, hbranch, (recordFields_eq_ok.mp hfields).1, hname, hparameters⟩

end Shape

/-! ## Types -/

namespace Constructor

/-- A type is well formed if it is another name for a built-in type; if it has a tag; if it has one constructor, with
labelled fields only by way of a list of fields, or several positional ones; or if it is a sum of records with a
constructor, each with a list of fields. -/
def IsWellFormed : Constructor → Prop
  | .alias _ => True
  | .enumeration tags => tags ≠ []
  | .value alternatives =>
    (∃ name value, alternatives.branches = [.named name value]) ∨
    (∃ name payload, alternatives.branches = [.record name payload] ∧ payload.IsFieldList) ∨
    (2 ≤ alternatives.branches.length ∧ ∀ branch ∈ alternatives.branches, branch.IsPositional)
  | .sumOfRecords _ alternatives => alternatives.branches ≠ [] ∧ ∀ branch ∈ alternatives.branches, branch.IsRecord

def FaultOf (displayName : String) (fault : RenderError) : Constructor → Prop
  | .alias _ => False
  | .enumeration tags => tags = [] ∧ fault = .noConstructors displayName
  | .value alternatives =>
    (alternatives.branches = [] ∧ fault = .noConstructors displayName) ∨
    (∃ name payload, alternatives.branches = [.record name payload] ∧ payload.RecordFault displayName fault) ∨
    (2 ≤ alternatives.branches.length ∧
      FirstFault Branch.IsPositional (Branch.MixedFault displayName) alternatives.branches fault)
  | .sumOfRecords typeName alternatives =>
    (alternatives.branches = [] ∧ fault = .noConstructors typeName) ∨
    FirstFault Branch.IsRecord (Branch.HoistFault typeName) alternatives.branches fault

/-- The shape holds all that the constructors declare: each tag, each field with its name and its type, and each
constructor with its name and its arguments, once and in order. A lone record is nothing but its fields. -/
inductive HasShape : Constructor → Shape → Prop where
  | alias (p : Primitive) : HasShape (.alias p) (.alias p)
  | enumeration (tags : List String) : HasShape (.enumeration tags) (.enumeration tags)
  | record {alternatives : Alternatives} {name : String} {payload : Value} {fields : List RecordField}
      (branches : alternatives.branches = [.record name payload]) (holds : payload.HoldsFields fields) :
      HasShape (.value alternatives) (.record fields)
  | single {alternatives : Alternatives} {branch : Branch} {constructor : Positional}
      (branches : alternatives.branches = [branch]) (carries : branch.Carries constructor) :
      HasShape (.value alternatives) (.single constructor)
  | sum {alternatives : Alternatives} {constructors : List Positional}
      (several : 2 ≤ alternatives.branches.length)
      (carries : List.Forall₂ Branch.Carries alternatives.branches constructors) :
      HasShape (.value alternatives) (.sum constructors)
  | sumOfRecords {typeName : String} {alternatives : Alternatives} {records : List HoistedRecord}
      (becomes : List.Forall₂ (Branch.Becomes typeName) alternatives.branches records) :
      HasShape (.sumOfRecords typeName alternatives) (.sumOfRecords records)

/-- An outcome that accepts exactly the well-formed types, keeps all they declare, and reports the first fault of any
other. -/
structure Judges (displayName : String) (constructor : Constructor) (outcome : Except RenderError Shape) : Prop where
  accepts : Succeeds outcome ↔ constructor.IsWellFormed
  keeps : ∀ shape, outcome = .ok shape → constructor.HasShape shape
  reports : ∀ fault, outcome = .error fault ↔ constructor.FaultOf displayName fault

variable {displayName typeName : String} {alternatives : Alternatives}

theorem judges_error {constructor : Constructor} {fault : RenderError} (hconstructor : ¬ constructor.IsWellFormed)
    (hfault : ∀ e, constructor.FaultOf displayName e ↔ e = fault) : Judges displayName constructor (.error fault) := by
  refine ⟨by simp [hconstructor], ?_, fun e => ?_⟩
  · rintro _ ⟨⟩
  · rw [hfault, Except.error.injEq, eq_comm]

theorem judges_enumeration (tags : List String) :
    Judges displayName (.enumeration tags)
      (if tags.isEmpty then .error (.noConstructors displayName) else .ok (.enumeration tags)) := by
  by_cases h : tags = []
  · subst h
    exact judges_error (by simp [IsWellFormed]) (by simp [FaultOf])
  · rw [if_neg (by simpa using h)]
    refine ⟨by simp [IsWellFormed, h], ?_, by simp [FaultOf, h]⟩
    rintro _ ⟨⟩
    exact .enumeration tags

theorem judges_lone (branch : Branch) (h : alternatives.branches = [branch]) :
    Judges displayName (.value alternatives) (Shape.ofBranches displayName [branch]) := by
  cases branch with
  | named name value =>
    refine ⟨by simp [IsWellFormed, Shape.ofBranches, h], ?_, by simp [FaultOf, Shape.ofBranches, h]⟩
    rintro _ ⟨⟩
    exact .single h ⟨value, rfl, rfl⟩
  | record name payload =>
    rw [Shape.ofBranches]
    refine ⟨?_, fun shape hshape => ?_, fun fault => ?_⟩
    · rw [succeeds_bind_pure, Shape.succeeds_recordFields]
      simp [IsWellFormed, h]
    · obtain ⟨fields, hfields, hshape⟩ := bind_eq_ok.mp hshape
      cases hshape
      exact .record h (Shape.recordFields_eq_ok.mp hfields).1
    · rw [bind_pure_eq_error, Shape.recordFields_eq_error]
      simp [FaultOf, h]

theorem judges_several (h : 2 ≤ alternatives.branches.length) :
    Judges displayName (.value alternatives)
      (return .sum (← alternatives.branches.mapM (Shape.positional displayName))) := by
  have hne : alternatives.branches ≠ [] := by
    rintro hnil
    simp [hnil] at h
  have hlone : ∀ branch, alternatives.branches ≠ [branch] := by
    rintro branch hbranch
    simp [hbranch] at h
  refine ⟨?_, fun shape hshape => ?_, fun fault => ?_⟩
  · rw [succeeds_bind_pure, succeeds_mapM]
    simp [IsWellFormed, hlone, h, Shape.succeeds_positional]
  · obtain ⟨constructors, hconstructors, hshape⟩ := bind_eq_ok.mp hshape
    cases hshape
    exact .sum h ((mapM_eq_ok.mp hconstructors).imp fun _ _ => Shape.positional_eq_ok.mp)
  · rw [bind_pure_eq_error, mapM_eq_error_iff_firstFault (fun _ => Shape.succeeds_positional)
      fun _ _ => Shape.positional_eq_error]
    simp [FaultOf, hne, hlone, h]

theorem judges_value : Judges displayName (.value alternatives) (Shape.ofBranches displayName alternatives.branches) := by
  match h : alternatives.branches with
  | [] => exact judges_error (by simp [IsWellFormed, h]) (by simp [FaultOf, h])
  | [branch] => exact judges_lone branch h
  | first :: second :: rest =>
    have hseveral : 2 ≤ alternatives.branches.length := by simp [h]
    rw [← h, Shape.ofBranches_of_several hseveral]
    exact judges_several hseveral

theorem judges_sumOfRecords :
    Judges displayName (.sumOfRecords typeName alternatives)
      (return .sumOfRecords (← Shape.hoist typeName alternatives.branches)) := by
  by_cases h : alternatives.branches = []
  · rw [h]
    exact judges_error (by simp [IsWellFormed, h]) (by simp [FaultOf, FirstFault, h])
  · have hhoist : Shape.hoist typeName alternatives.branches =
        alternatives.branches.mapM (Shape.hoistedRecord typeName) := if_neg (by simpa using h)
    rw [hhoist]
    refine ⟨?_, fun shape hshape => ?_, fun fault => ?_⟩
    · rw [succeeds_bind_pure, succeeds_mapM]
      simp [IsWellFormed, h, Shape.succeeds_hoistedRecord]
    · obtain ⟨records, hrecords, hshape⟩ := bind_eq_ok.mp hshape
      cases hshape
      exact .sumOfRecords ((mapM_eq_ok.mp hrecords).imp fun _ _ => Shape.becomes_of_hoistedRecord)
    · rw [bind_pure_eq_error, mapM_eq_error_iff_firstFault (fun _ => Shape.succeeds_hoistedRecord)
        fun _ _ => Shape.hoistedRecord_eq_error]
      simp [FaultOf, h]

end Constructor

/-- Classification accepts exactly the well-formed descriptors. The shape then holds all that the descriptor declares, in
order, and otherwise the fault is that of the first constructor out of place, or of the first item inside it. -/
theorem Descriptor.classify_outcome (descriptor : Descriptor) :
    descriptor.constructor.Judges descriptor.displayName descriptor.classify := by
  unfold classify
  cases descriptor.constructor with
  | «alias» p =>
    refine ⟨by simp [Constructor.IsWellFormed], ?_, by simp [Constructor.FaultOf]⟩
    rintro _ ⟨⟩
    exact .alias p
  | value alternatives => exact Constructor.judges_value
  | enumeration tags => exact Constructor.judges_enumeration tags
  | sumOfRecords typeName alternatives => exact Constructor.judges_sumOfRecords

end TypeScribe
