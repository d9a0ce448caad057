import TypeScribe.Proofs.Classification
import TypeScribe.Proofs.Walk
import TypeScribe.Rendering

/-!
# Declarations and decoders accept the same descriptors

Both renderings classify the descriptor and then walk over the types of its shape in the same order. The walks accept
exactly the types of `Value.IsType`, so the renderings succeed together. They also meet the same first fault, but for
one difference: a type application is qualified after its arguments in a declaration and before them in a decoder.
-/

namespace TypeScribe
open Ocaml (TypeExpr Term Body)

/-! ## Faults -/

def RenderError.place? : RenderError → Option Place
  | .unexpectedValue _ _ place => some place
  | _ => none

/-- One fault as a declaration and as a decoder report it. They differ in the place of a value that is no type. -/
inductive SameFault : RenderError → RenderError → Prop where
  | misplaced (typeName : String) (kind : ValueKind) :
    SameFault (.unexpectedValue typeName kind .typePosition) (.unexpectedValue typeName kind .decoderPosition)
  | same {fault : RenderError} : fault.place? ≠ some .typePosition → fault.place? ≠ some .decoderPosition →
    SameFault fault fault

theorem sameFault_of_place?_eq_none {fault : RenderError} (h : fault.place? = none) : SameFault fault fault :=
  .same (by simp [h]) (by simp [h])

theorem DependencyMap.agree_qualify (map : DependencyMap) (current target : Identity) :
    Agree SameFault (map.qualify current target) (map.qualify current target) := by
  have hvalid : ∀ identity, Agree SameFault (map.validLocation identity) (map.validLocation identity) := by
    intro identity
    unfold validLocation
    split
    · split
      · exact .ok _ _
      · exact .error (sameFault_of_place?_eq_none rfl)
    · exact .ok _ _
  unfold qualify
  split
  · exact .ok _ _
  · refine (hvalid current).bind fun here here' h h' => (hvalid target).bind fun there there' ht ht' => ?_
    obtain rfl := Except.ok.inj (h.symm.trans h')
    obtain rfl := Except.ok.inj (ht.symm.trans ht')
    split
    · split
      · exact .ok _ _
      · exact .error (sameFault_of_place?_eq_none rfl)
    · exact .ok _ _
    · split <;> exact .ok _ _

namespace Shape

theorem agree_recordFields (typeName : String) (payload : Value) :
    Agree SameFault (recordFields typeName payload) (recordFields typeName payload) := by
  unfold recordFields
  refine Agree.bind (.mapM fun value _ => ?_) fun fields fields' h h' => ?_
  · cases value <;> first | exact .ok _ _ | exact .error (.same (by simp [RenderError.place?]) (by simp [RenderError.place?]))
  · obtain rfl := Except.ok.inj (h.symm.trans h')
    split
    · exact .error (sameFault_of_place?_eq_none rfl)
    · exact .ok _ _

theorem agree_ofBranches (typeName : String) (branches : List Branch) :
    Agree SameFault (ofBranches typeName branches) (ofBranches typeName branches) := by
  unfold ofBranches
  split
  · exact .error (sameFault_of_place?_eq_none rfl)
  · exact (agree_recordFields _ _).bind fun _ _ _ _ => .ok _ _
  · exact .ok _ _
  · refine Agree.bind (.mapM fun branch _ => ?_) fun _ _ _ _ => .ok _ _
    cases branch with
    | named name value => exact .ok _ _
    | record name value => exact .error (sameFault_of_place?_eq_none rfl)

theorem agree_hoist (typeName : String) (branches : List Branch) :
    Agree SameFault (hoist typeName branches) (hoist typeName branches) := by
  unfold hoist
  split
  · exact .error (sameFault_of_place?_eq_none rfl)
  · refine .mapM fun branch _ => ?_
    cases branch with
    | named name value => exact .error (sameFault_of_place?_eq_none rfl)
    | record name value => exact (agree_recordFields _ _).bind fun _ _ _ _ => .ok _ _

end Shape

theorem Descriptor.agree_classify (descriptor : Descriptor) :
    Agree SameFault descriptor.classify descriptor.classify := by
  unfold classify
  split
  · exact .ok _ _
  · split
    · exact .error (sameFault_of_place?_eq_none rfl)
    · exact .ok _ _
  · exact Shape.agree_ofBranches _ _
  · exact (Shape.agree_hoist _ _).bind fun _ _ _ _ => .ok _ _

namespace Context

variable {context : Context}

/-! ## Types that a walk accepts -/

/-- The type can be reached from the code that is rendered. -/
def Reaches (context : Context) (identity : Identity) : Prop :=
  Succeeds (context.options.dependencies.qualify context.identity identity)

theorem succeeds_pathTo {identity : Identity} {name : String} :
    Succeeds (context.pathTo identity name) ↔ context.Reaches identity :=
  succeeds_bind_pure

theorem succeeds_checkSize (p : Primitive) : Succeeds (checkSize p) ↔ p.SizeAllowed := by
  unfold checkSize
  split
  · unfold checkArity
    split <;> simp_all [Primitive.SizeAllowed]
  · simp_all [Primitive.SizeAllowed]

/-- A type expression is found for the types that are made of types in reach, and for no other value. -/
theorem succeeds_typeExpr_iff (value : Value) :
    Succeeds (context.typeExpr value.fieldType) ↔ value.IsType context.Reaches := by
  induction value using Value.typeInduction with
  | typeRef identity name =>
    rw [Value.fieldType, typeExpr, succeeds_bind_pure, succeeds_pathTo]
    exact ⟨.typeRef name, fun h => by cases h; assumption⟩
  | application identity arguments ih =>
    rw [typeExpr_application, Value.isType_application, ← forall₂_congr ih, ← succeeds_mapM, succeeds_bind]
    simp only [succeeds_bind_pure, succeeds_pathTo, exists_and_right]
    exact and_comm
  | primitive p ih =>
    rw [Value.fieldType, Value.isType_primitive, ← forall₂_congr ih, ← succeeds_mapM, ← succeeds_checkSize,
      (context.typeExpr_primitive p).succeeds_iff, succeeds_bind]
    exact exists_and_right
  | parameter name => exact ⟨fun _ => .parameter name, fun _ => succeeds_pure _⟩
  | misplaced value h =>
    rw [h]
    exact iff_of_false (not_succeeds_error _) (Value.not_isType_of_misplaced h)

/-! ## The two walks -/

theorem agree_pathTo (identity : Identity) (name name' : String) :
    Agree SameFault (context.pathTo identity name) (context.pathTo identity name') :=
  (context.options.dependencies.agree_qualify context.identity identity).bind fun _ _ _ _ => .ok _ _

theorem agree_checkSize (p : Primitive) : Agree SameFault (checkSize p) (checkSize p) := by
  unfold checkSize
  split
  · unfold checkArity
    split
    · exact .ok _ _
    · exact .error (sameFault_of_place?_eq_none rfl)
  · exact .ok _ _

/-- The walks agree if the order of a type and its arguments does not matter: every application is of a type in reach,
or it is not asked which fault comes first. -/
theorem agree_walks {R : RenderError → RenderError → Prop} (weaker : ∀ e e', SameFault e e' → R e e') (value : Value)
    (h : (∀ identity arguments, (Value.application identity arguments).Occurs value → context.Reaches identity) ∨
      ∀ e e', R e e') :
    Agree R (context.typeExpr value.fieldType) (context.converter value.fieldType) := by
  induction value using Value.typeInduction with
  | typeRef identity name =>
    exact ((agree_pathTo identity _ _).mono weaker).bind fun _ _ _ _ => .ok _ _
  | application identity arguments ih =>
    have harguments : Agree R (arguments.flatten.mapM fun argument => context.typeExpr argument.fieldType)
        (arguments.flatten.mapM fun argument => do
          return (← context.converter argument.fieldType).adapt .returning) := by
      refine .mapM fun argument hargument => ?_
      have hpart : ∀ part : Value, part.Occurs argument → part.Occurs (.application identity arguments) :=
        fun _ occurs => .argument (occurs.trans (Value.occurs_of_mem_flatten hargument))
      exact (ih argument hargument (h.imp_left fun reach _ _ occurs => reach _ _ (hpart _ occurs))).trans_eq
        (Agree.refl _).map_left.symm
    rw [typeExpr_application, converter_application]
    rcases h with reach | total
    · obtain ⟨path, hpath⟩ := succeeds_pathTo.mpr (reach _ _ .self)
      obtain ⟨path', hpath'⟩ := succeeds_pathTo.mpr (reach _ _ .self)
      rw [hpath, hpath']
      exact harguments.bind fun _ _ _ _ => .ok _ _
    · exact Agree.swap total harguments ((agree_pathTo identity _ _).mono weaker)
  | primitive p ih =>
    refine (context.typeExpr_primitive p).trans (.trans_eq ?_ (context.converter_primitive p).symm)
    refine ((agree_checkSize p).mono weaker).bind fun _ _ _ _ => .mapM fun component hcomponent => ?_
    exact ih component hcomponent (h.imp_left fun reach _ _ occurs => reach _ _ (.component hcomponent occurs))
  | parameter name => exact .ok _ _
  | misplaced value hmisplaced =>
    rw [hmisplaced]
    exact .error (weaker _ _ (.misplaced _ _))

/-! ## Shapes -/

theorem typeDefinitions_agree (parameters : List String) (shape : Shape) :
    Agree Eq (context.typeDefinitions parameters shape)
      (shape.types.mapM fun value => context.typeExpr value.fieldType) := by
  have hrecord : ∀ fields : List RecordField, Agree Eq (context.recordBody fields)
      ((fields.map (·.value)).mapM fun value => context.typeExpr value.fieldType) := by
    intro fields
    rw [List.mapM_map]
    exact (Agree.mapM fun _ _ => (Agree.refl _).map_left).map_left
  have hconstructor : ∀ constructor : Positional, Agree Eq (context.constructorType constructor)
      (constructor.arguments.mapM fun value => context.typeExpr value.fieldType) :=
    fun constructor => (Agree.refl _).map_left
  cases shape with
  | «alias» p => exact ((Agree.refl _).map_left).mapM_singleton
  | record fields => exact (hrecord fields).map_left
  | single constructor => exact (hconstructor constructor).map_left
  | sum constructors => exact (Agree.mapM_flatMap fun constructor _ => hconstructor constructor).map_left
  | enumeration tags => exact .ok _ _
  | sumOfRecords records => exact (Agree.mapM_flatMap fun record _ => (hrecord record.fields).map_left).map_left

theorem raising_agree (value : Value) :
    Agree Eq (context.raising value) (context.converter value.fieldType) :=
  (Agree.refl _).map_left

theorem fieldRead_agree (key : String) (value : Value) :
    Agree Eq (context.fieldRead key value) (context.converter value.fieldType) := by
  unfold fieldRead
  split
  · next item h =>
    rw [h]
    exact (Agree.refl _).bind fun _ _ _ _ => .ok _ _
  · exact (Agree.refl _).map_left

theorem readFields_agree (decoder : String) (last : Body) (i : Nat) (fields : List RecordField) :
    Agree Eq (context.readFields decoder last i fields)
      ((fields.map (·.value)).mapM fun value => context.converter value.fieldType) := by
  induction fields generalizing i with
  | nil => exact .ok _ _
  | cons field rest ih =>
    rw [readFields, List.map_cons, List.mapM_cons]
    exact (fieldRead_agree _ _).bind fun _ _ _ _ => (ih (i + 1)).bind fun _ _ _ _ => .ok _ _

theorem readElements_agree (place : String) (last : Body) (i : Nat) (arguments : List Value) :
    Agree Eq (context.readElements place last i arguments)
      (arguments.mapM fun value => context.converter value.fieldType) := by
  induction arguments generalizing i with
  | nil => exact .ok _ _
  | cons argument rest ih =>
    rw [readElements, List.mapM_cons]
    exact (raising_agree _).bind fun _ _ _ _ => (ih (i + 1)).bind fun _ _ _ _ => .ok _ _

theorem argumentDecoder_agree (read : Term → Term) (place name : String) (argument : Value) :
    Agree Eq (context.argumentDecoder read place name argument)
      ([argument].mapM fun value => context.converter value.fieldType) :=
  ((raising_agree _).map_left).mapM_singleton

theorem positionalDecoder_agree (source : Term) (place : String) (constructor : Positional) :
    Agree Eq (context.positionalDecoder source place constructor)
      (constructor.arguments.mapM fun value => context.converter value.fieldType) :=
  (readElements_agree _ _ _ _).map_left

theorem singleDecoder_agree (decoder : String) (constructor : Positional) :
    Agree Eq (context.singleDecoder decoder constructor)
      (constructor.arguments.mapM fun value => context.converter value.fieldType) := by
  unfold singleDecoder
  split
  · next h => rw [h]; exact .ok _ _
  · next argument h => rw [h]; exact argumentDecoder_agree _ _ _ _
  · exact positionalDecoder_agree _ _ _

theorem contentsDecoder_agree (decoder : String) (constructor : Positional) :
    Agree Eq (context.contentsDecoder decoder constructor)
      (constructor.arguments.mapM fun value => context.converter value.fieldType) := by
  unfold contentsDecoder
  split
  · next h => rw [h]; exact .ok _ _
  · next argument h => rw [h]; exact argumentDecoder_agree _ _ _ _
  · exact positionalDecoder_agree _ _ _

theorem functions_agree (parameters : List String) (shape : Shape) :
    Agree Eq (context.functions parameters shape)
      (shape.types.mapM fun value => context.converter value.fieldType) := by
  have hrecord : ∀ displayName parameters fields, Agree Eq (context.recordFunction displayName parameters fields)
      ((fields.map (·.value)).mapM fun value => context.converter value.fieldType) :=
    fun _ _ fields => (readFields_agree _ _ 0 fields).map_left
  cases shape with
  | «alias» p => exact ((Agree.refl _).map_left.map_left).mapM_singleton
  | record fields => exact (hrecord _ _ fields).map_left
  | single constructor => exact (singleDecoder_agree _ constructor).map_left
  | sum constructors =>
    exact (Agree.mapM_flatMap fun constructor _ => (contentsDecoder_agree _ constructor).map_left).map_left
  | enumeration tags => exact .ok _ _
  | sumOfRecords records => exact (Agree.mapM_flatMap fun record _ => hrecord _ _ record.fields).map_left

end Context

/-! ## Renderings -/

namespace Descriptor

def Reaches (descriptor : Descriptor) (options : Options) (identity : Identity) : Prop :=
  Succeeds (options.dependencies.qualify descriptor.identity identity)

variable {descriptor : Descriptor} {options : Options}

theorem succeeds_renderDeclaration_iff :
    Succeeds (descriptor.renderDeclaration options) ↔
      ∃ shape, descriptor.classify = .ok shape ∧ ∀ value ∈ shape.types, value.IsType (descriptor.Reaches options) := by
  have hshape : ∀ shape : Shape,
      Succeeds ((Context.ofDescriptor options descriptor).typeDefinitions descriptor.parameters shape) ↔
        ∀ value ∈ shape.types, value.IsType (descriptor.Reaches options) := by
    intro shape
    rw [(Context.typeDefinitions_agree _ shape).succeeds_iff, succeeds_mapM]
    exact forall₂_congr fun value _ => Context.succeeds_typeExpr_iff value
  rw [renderDeclaration, succeeds_bind_pure, declaration, succeeds_bind]
  simp only [succeeds_bind_pure, hshape]

/-- Both renderings agree, in the sense in which the walks over the types of the shape do. -/
theorem agree_render {R : RenderError → RenderError → Prop} (weaker : ∀ e e', SameFault e e' → R e e')
    (h : (∀ identity arguments, descriptor.Holds (.application identity arguments) →
      descriptor.Reaches options identity) ∨ ∀ e e', R e e') :
    Agree R (descriptor.renderDeclaration options) (descriptor.renderDecoder options) := by
  have hgroup : Agree R (descriptor.declaration options) (descriptor.decoder options) := by
    refine (descriptor.agree_classify.mono weaker).bind fun shape shape' hshape hshape' => ?_
    obtain rfl := Except.ok.inj (hshape.symm.trans hshape')
    have htypes : Agree R
        (shape.types.mapM fun value => (Context.ofDescriptor options descriptor).typeExpr value.fieldType)
        (shape.types.mapM fun value => (Context.ofDescriptor options descriptor).converter value.fieldType) := by
      refine .mapM fun value hvalue => Context.agree_walks weaker value ?_
      obtain ⟨top, htop, hoccurs⟩ := holds_of_mem_types hshape hvalue
      exact h.imp_left fun reach _ _ occurs => reach _ _ ⟨top, htop, occurs.trans hoccurs⟩
    exact ((Context.typeDefinitions_agree _ shape).trans
      (htypes.trans_eq (Context.functions_agree _ shape).symm)).bind fun _ _ _ _ => .ok _ _
  exact hgroup.bind fun _ _ _ _ => .ok _ _

/-- A declaration is rendered if and only if a decoder is: for the descriptors that are classified and whose types are
made of types in reach. Where every type application is in reach, both renderings fail with the same fault. -/
theorem declaration_accepts_as_decoder (descriptor : Descriptor) (options : Options) :
    (Succeeds (descriptor.renderDeclaration options) ↔ Succeeds (descriptor.renderDecoder options)) ∧
    (Succeeds (descriptor.renderDeclaration options) ↔
      ∃ shape, descriptor.classify = .ok shape ∧
        ∀ value ∈ shape.types, value.IsType (descriptor.Reaches options)) ∧
    ((∀ identity arguments, descriptor.Holds (.application identity arguments) →
        descriptor.Reaches options identity) →
      ∀ fault, descriptor.renderDeclaration options = .error fault →
        ∃ fault', descriptor.renderDecoder options = .error fault' ∧ SameFault fault fault') := by
  refine ⟨?_, succeeds_renderDeclaration_iff, fun reach fault hfault => ?_⟩
  · exact (agree_render (R := fun _ _ => True) (fun _ _ _ => trivial) (.inr fun _ _ => trivial)).succeeds_iff
  · exact (agree_render (fun _ _ h => h) (.inl reach)).error_left hfault

/-- A record that holds itself, and whose second field is a list of what is no type. -/
def misplacedField : Descriptor :=
  let box : Identity := ⟨"main", "Types", "Box"⟩
  .ofConstructor box <| .value <| .ofFields "Box" [
    ("inner", .apply box [.parameter "a"]),
    ("items", .primitive (.list (.field "item" (.parameter "a"))))]

theorem misplacedField_fails_alike :
    ∃ fault, misplacedField.renderDecoder {} = .error fault ∧
      SameFault (.unexpectedValue "Box" .field .typePosition) fault := by
  refine (declaration_accepts_as_decoder misplacedField {}).2.2 (fun identity arguments h => ?_) _ rfl
  obtain ⟨value, hvalue, hoccurs⟩ := h
  obtain rfl := List.mem_singleton.mp hvalue
  have hidentity : ⟨"main", "Types", "Box"⟩ = identity := by
    simpa [Branch.value, Value.productOf, Value.nest, Value.apply, Value.references, Primitive.references]
      using Value.references_iff.mpr ⟨_, hoccurs, rfl⟩
  subst hidentity
  exact ⟨[], rfl⟩

end Descriptor

end TypeScribe
