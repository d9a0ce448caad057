import Mathlib.Logic.Relation
import TypeScribe.Proofs.Comparison
import TypeScribe.Proofs.Occurrences

/-!
# Descriptors that are grouped in another way

An argument list is a tree, and so are the constructors of a type, but only the order of their items means something.
`Regroup` changes the grouping of one list somewhere in a descriptor. One change keeps the type parameters, the types
that are referred to and, up to such changes, the shape. So what is rendered is the same after any number of changes.
-/

namespace TypeScribe
open Relation (ReflGen ReflTransGen)

/-! ## One change -/

/-- One argument list inside a value is grouped in another way. -/
inductive Value.Regroup : Value → Value → Prop where
  | arguments {identity : Identity} {arguments arguments' : Value} :
    arguments.flatten = arguments'.flatten → Regroup (.application identity arguments) (.application identity arguments')
  | argument {identity : Identity} {arguments arguments' : Value} :
    Regroup arguments arguments' → Regroup (.application identity arguments) (.application identity arguments')
  | list {item item' : Value} : Regroup item item' → Regroup (.primitive (.list item)) (.primitive (.list item'))
  | option {item item' : Value} : Regroup item item' → Regroup (.primitive (.option item)) (.primitive (.option item'))
  | eitherLeft {left left' right : Value} :
    Regroup left left' → Regroup (.primitive (.either left right)) (.primitive (.either left' right))
  | eitherRight {left right right' : Value} :
    Regroup right right' → Regroup (.primitive (.either left right)) (.primitive (.either left right'))
  | tuple {before after : List Value} {item item' : Value} : Regroup item item' →
    Regroup (.primitive (.tuple (before ++ item :: after))) (.primitive (.tuple (before ++ item' :: after)))
  | field {name : String} {value value' : Value} : Regroup value value' → Regroup (.field name value) (.field name value')
  | productLeft {left left' right : Value} : Regroup left left' → Regroup (.product left right) (.product left' right)
  | productRight {left right right' : Value} : Regroup right right' → Regroup (.product left right) (.product left right')
  | pairLeft {left left' right : Value} :
    Regroup left left' → Regroup (.argumentPair left right) (.argumentPair left' right)
  | pairRight {left right right' : Value} :
    Regroup right right' → Regroup (.argumentPair left right) (.argumentPair left right')

/-- One argument list of a constructor's payload is grouped in another way, be it the payload itself. -/
inductive Value.RegroupPayload (payload payload' : Value) : Prop where
  | items : payload.flatten = payload'.flatten → RegroupPayload payload payload'
  | inside : payload.Regroup payload' → RegroupPayload payload payload'

/-- The constructors of a type, or one payload of them, are grouped in another way. -/
inductive Alternatives.Regroup : Alternatives → Alternatives → Prop where
  /-- Groups inside groups keep their constructors. -/
  | branches {a a' : Alternatives} : a.branches = a'.branches → Regroup a a'
  | named {name : String} {payload payload' : Value} :
    payload.RegroupPayload payload' → Regroup (.named name payload) (.named name payload')
  | record {name : String} {payload payload' : Value} :
    payload.RegroupPayload payload' → Regroup (.record name payload) (.record name payload')
  | item {before after : List Alternatives} {a a' : Alternatives} :
    Regroup a a' → Regroup (.multiple (before ++ a :: after)) (.multiple (before ++ a' :: after))

inductive Constructor.Regroup : Constructor → Constructor → Prop where
  | «alias» {p p' : Primitive} : Value.Regroup (.primitive p) (.primitive p') → Regroup (.alias p) (.alias p')
  | value {a a' : Alternatives} : a.Regroup a' → Regroup (.value a) (.value a')
  | sumOfRecords {typeName : String} {a a' : Alternatives} :
    a.Regroup a' → Regroup (.sumOfRecords typeName a) (.sumOfRecords typeName a')

structure Descriptor.Regroup (descriptor descriptor' : Descriptor) : Prop where
  identity : descriptor.identity = descriptor'.identity
  displayName : descriptor.displayName = descriptor'.displayName
  constructor : descriptor.constructor.Regroup descriptor'.constructor

/-! ## Values -/

namespace Value

theorem parameters_eq_flatMap (value : Value) : value.parameters = value.flatten.flatMap parameters := by
  fun_induction flatten value with
  | case1 left right ihLeft ihRight => rw [parameters, ihLeft, ihRight, List.flatMap_append]
  | case2 left right ihLeft ihRight => rw [parameters, ihLeft, ihRight, List.flatMap_append]
  | case3 => rfl
  | case4 item => exact (List.flatMap_singleton _ _).symm

theorem references_eq_any (identity : Identity) (value : Value) :
    value.references identity = value.flatten.any (references identity) := by
  fun_induction flatten value with
  | case1 left right ihLeft ihRight => rw [references, ihLeft, ihRight, List.any_append]
  | case2 left right ihLeft ihRight => rw [references, ihLeft, ihRight, List.any_append]
  | case3 => rfl
  | case4 item => simp

namespace Regroup

variable {value value' : Value}

theorem parameters (h : value.Regroup value') : value.parameters = value'.parameters := by
  induction h with
  | arguments h => simp only [Value.parameters, parameters_eq_flatMap, h]
  | tuple _ ih => simp [Value.parameters, Primitive.parameters, parametersOfAll_eq_flatMap, ih]
  | _ => simp_all [Value.parameters, Primitive.parameters]

theorem references (h : value.Regroup value') (identity : Identity) :
    value.references identity = value'.references identity := by
  induction h with
  | arguments h => simp only [Value.references, references_eq_any, h]
  | tuple _ ih => simp [Value.references, Primitive.references_eq_any, Primitive.components, ih]
  | _ => simp_all [Value.references, Primitive.references]

theorem ne_scalar (h : value.Regroup value') (s : Scalar) :
    value ≠ .primitive (.scalar s) ∧ value' ≠ .primitive (.scalar s) := by
  cases h <;> simp

theorem fieldTypes (h : value.Regroup value') :
    value.fieldType = value'.fieldType ∧ value.fieldTypes = value'.fieldTypes := by
  induction h with
  | arguments h => simp only [Value.fieldType, Value.fieldTypes, fieldTypes_eq_map, h, and_self]
  | list h ih =>
    obtain ⟨hne, hne'⟩ := h.ne_scalar .char
    simp only [Value.fieldType, Value.fieldTypes, fieldType_list_of_ne hne, fieldType_list_of_ne hne', ih, and_self]
  | tuple _ ih => simp [Value.fieldType, Value.fieldTypes, Primitive.fieldType, fieldTypesOfAll_eq_map, ih]
  | _ => simp_all [Value.fieldType, Value.fieldTypes, Primitive.fieldType]

theorem items (h : value.Regroup value') : List.Forall₂ (ReflGen Regroup) value.flatten value'.flatten := by
  have same : ∀ items : List Value, List.Forall₂ (ReflGen Regroup) items items := fun items =>
    List.forall₂_same.mpr fun _ _ => .refl
  induction h with
  | productLeft _ ih | pairLeft _ ih => exact List.rel_append ih (same _)
  | productRight _ ih | pairRight _ ih => exact List.rel_append (same _) ih
  | arguments h => exact .cons (.single (.arguments h)) .nil
  | argument h => exact .cons (.single (.argument h)) .nil
  | list h => exact .cons (.single (.list h)) .nil
  | option h => exact .cons (.single (.option h)) .nil
  | eitherLeft h => exact .cons (.single (.eitherLeft h)) .nil
  | eitherRight h => exact .cons (.single (.eitherRight h)) .nil
  | tuple h => exact .cons (.single (.tuple h)) .nil
  | field h => exact .cons (.single (.field h)) .nil

end Regroup

/-- The values have the same items, or items that are regrouped in themselves. -/
def SameItems (value value' : Value) : Prop := List.Forall₂ (ReflGen Regroup) value.flatten value'.flatten

theorem RegroupPayload.sameItems {payload payload' : Value} (h : payload.RegroupPayload payload') :
    payload.SameItems payload' := by
  cases h with
  | items h =>
    rw [SameItems, h]
    exact List.forall₂_same.mpr fun _ _ => .refl
  | inside h => exact h.items

section
variable {value value' : Value}

theorem fieldType_eq_of_regroup (h : ReflGen Regroup value value') : value.fieldType = value'.fieldType := by
  cases h with
  | refl => rfl
  | single h => exact h.fieldTypes.1

theorem parameters_eq_of_regroup (h : ReflGen Regroup value value') : value.parameters = value'.parameters := by
  cases h with
  | refl => rfl
  | single h => exact h.parameters

theorem references_eq_of_regroup (h : ReflGen Regroup value value') (identity : Identity) :
    value.references identity = value'.references identity := by
  cases h with
  | refl => rfl
  | single h => exact h.references identity

theorem SameItems.parameters (h : value.SameItems value') : value.parameters = value'.parameters := by
  rw [parameters_eq_flatMap value, parameters_eq_flatMap value']
  exact flatMap_eq_of_forall₂ (h.imp fun _ _ => parameters_eq_of_regroup)

theorem SameItems.references (h : value.SameItems value') (identity : Identity) :
    value.references identity = value'.references identity := by
  rw [references_eq_any identity value, references_eq_any identity value']
  exact any_eq_of_forall₂ (h.imp fun _ _ h => references_eq_of_regroup h identity)

end

end Value

/-! ## Constructors -/

/-- Two constructors of one kind and name whose values have the same items. -/
inductive Branch.SameItems : Branch → Branch → Prop where
  | named (name : String) {value value' : Value} : value.SameItems value' → SameItems (.named name value) (.named name value')
  | record (name : String) {value value' : Value} :
    value.SameItems value' → SameItems (.record name value) (.record name value')

theorem Branch.SameItems.value {branch branch' : Branch} (h : branch.SameItems branch') :
    branch.value.SameItems branch'.value := by
  cases h with
  | named _ h => exact h
  | record _ h => exact h

namespace Alternatives

theorem branchesOfAll_append (front back : List Alternatives) :
    branchesOfAll (front ++ back) = branchesOfAll front ++ branchesOfAll back := by
  induction front with
  | nil => rfl
  | cons first rest ih => rw [List.cons_append, branchesOfAll, branchesOfAll, ih, List.append_assoc]

theorem Regroup.sameItems {a a' : Alternatives} (h : a.Regroup a') :
    List.Forall₂ Branch.SameItems a.branches a'.branches := by
  have same : ∀ branches : List Branch, List.Forall₂ Branch.SameItems branches branches := fun branches =>
    List.forall₂_same.mpr fun branch _ => by
      cases branch with
      | named name value => exact .named name (List.forall₂_same.mpr fun _ _ => .refl)
      | record name value => exact .record name (List.forall₂_same.mpr fun _ _ => .refl)
  induction h with
  | branches h =>
    rw [h]
    exact same _
  | named h => exact .cons (.named _ h.sameItems) .nil
  | record h => exact .cons (.record _ h.sameItems) .nil
  | item _ ih =>
    simp only [Alternatives.branches, branchesOfAll_append, branchesOfAll]
    exact List.rel_append (same _) (List.rel_append ih (same _))

section
variable {a a' : Alternatives} (h : List.Forall₂ Branch.SameItems a.branches a'.branches)
include h

theorem parameters_eq_of_sameItems : a.parameters = a'.parameters := by
  rw [parameters_eq_flatMap a, parameters_eq_flatMap a']
  exact flatMap_eq_of_forall₂ (h.imp fun _ _ hbranch => hbranch.value.parameters)

theorem references_eq_of_sameItems (identity : Identity) : a.references identity = a'.references identity := by
  rw [references_eq_any identity a, references_eq_any identity a']
  exact any_eq_of_forall₂ (h.imp fun _ _ hbranch => hbranch.value.references identity)

end

end Alternatives

/-! ## Shapes -/

namespace Shape

def SameMeaning (value value' : Value) : Prop := value.fieldType = value'.fieldType

theorem matches_recordField (typeName : String) {value value' : Value} (h : ReflGen Value.Regroup value value') :
    Matches Eq (RecordField.Alike SameMeaning) (recordField typeName value) (recordField typeName value') := by
  cases h with
  | refl =>
    cases value with
    | field name value => exact .ok ⟨rfl, rfl⟩
    | _ => exact .error rfl
  | single h =>
    cases h with
    | field h => exact .ok ⟨rfl, h.fieldTypes.1⟩
    | _ => exact .error rfl

theorem matches_recordFields (typeName : String) {payload payload' : Value} (h : payload.SameItems payload') :
    Matches Eq (List.Forall₂ (RecordField.Alike SameMeaning)) (recordFields typeName payload)
      (recordFields typeName payload') := by
  refine (Matches.mapM (h.imp fun _ _ h => matches_recordField typeName h)).bind fun fields fields' hfields => ?_
  cases hfields with
  | nil => exact .error rfl
  | cons hfield hfields => exact .ok (.cons hfield hfields)

theorem alike_arguments (name : String) {value value' : Value} (h : value.SameItems value') :
    Positional.Alike SameMeaning ⟨name, value.flatten⟩ ⟨name, value'.flatten⟩ :=
  ⟨rfl, h.imp fun _ _ => Value.fieldType_eq_of_regroup⟩

theorem matches_positional (typeName : String) {branch branch' : Branch} (h : branch.SameItems branch') :
    Matches Eq (Positional.Alike SameMeaning) (positional typeName branch) (positional typeName branch') := by
  cases h with
  | named name h => exact .ok (alike_arguments name h)
  | record name h => exact .error rfl

theorem matches_ofBranches (typeName : String) {branches branches' : List Branch}
    (h : List.Forall₂ Branch.SameItems branches branches') :
    Matches Eq (Alike SameMeaning) (ofBranches typeName branches) (ofBranches typeName branches') := by
  cases h with
  | nil => exact .error rfl
  | cons hfirst hrest =>
    cases id hrest with
    | nil =>
      cases hfirst with
      | named name h => exact .ok (.single (alike_arguments name h))
      | record name h => exact (matches_recordFields typeName h).bind fun _ _ hfields => .ok (.record hfields)
    | cons _ _ =>
      have hconstructors := Matches.mapM (List.Forall₂.cons hfirst hrest |>.imp fun _ _ => matches_positional typeName)
      cases hfirst with
      | named | record => exact hconstructors.bind fun _ _ h => .ok (.sum h)

theorem matches_hoistedRecord (typeName : String) {branch branch' : Branch} (h : branch.SameItems branch') :
    Matches Eq (HoistedRecord.Alike SameMeaning) (hoistedRecord typeName branch) (hoistedRecord typeName branch') := by
  cases h with
  | named name h => exact .error rfl
  | record name h =>
    refine (matches_recordFields _ h).bind fun _ _ hfields => .ok ⟨rfl, rfl, ?_, hfields⟩
    rw [h.parameters]

theorem matches_hoist (typeName : String) {branches branches' : List Branch}
    (h : List.Forall₂ Branch.SameItems branches branches') :
    Matches Eq (List.Forall₂ (HoistedRecord.Alike SameMeaning)) (hoist typeName branches) (hoist typeName branches') := by
  cases id h with
  | nil => exact .error rfl
  | cons _ _ => exact .mapM (h.imp fun _ _ h => matches_hoistedRecord typeName h)

end Shape

/-! ## Types -/

namespace Constructor.Regroup

variable {constructor constructor' : Constructor} (h : constructor.Regroup constructor')
include h

theorem parameters : constructor.parameters = constructor'.parameters := by
  cases h with
  | «alias» h => exact h.parameters
  | value h | sumOfRecords h => exact Alternatives.parameters_eq_of_sameItems h.sameItems

theorem references (identity : Identity) : constructor.references identity = constructor'.references identity := by
  cases h with
  | «alias» h => exact h.references identity
  | value h | sumOfRecords h => exact Alternatives.references_eq_of_sameItems h.sameItems identity

end Constructor.Regroup

namespace Descriptor

variable {descriptor descriptor' : Descriptor}

theorem Regroup.parameters (h : descriptor.Regroup descriptor') : descriptor.parameters = descriptor'.parameters :=
  congrArg sortedNames h.constructor.parameters

theorem Regroup.references (h : descriptor.Regroup descriptor') (identity : Identity) :
    descriptor.references identity = descriptor'.references identity :=
  h.constructor.references identity

theorem Regroup.classify (h : descriptor.Regroup descriptor') :
    Matches Eq (Shape.Alike Shape.SameMeaning) descriptor.classify descriptor'.classify := by
  obtain ⟨identity, displayName, constructor⟩ := descriptor
  obtain ⟨identity', displayName', constructor'⟩ := descriptor'
  obtain ⟨rfl, rfl, hconstructor⟩ := h
  cases hconstructor with
  | «alias» h => exact .ok (.alias h.fieldTypes.1)
  | value h => exact Shape.matches_ofBranches _ h.sameItems
  | sumOfRecords h => exact (Shape.matches_hoist _ h.sameItems).bind fun _ _ hrecords => .ok (.sumOfRecords hrecords)

/-- A regrouped descriptor has the same names, and values with the same meaning, under any options. -/
theorem Regroup.alike (h : descriptor.Regroup descriptor') (options : Options) :
    descriptor.Alike options descriptor' options where
  displayName := h.displayName
  parameters := h.parameters
  recursive := by rw [h.references, h.identity]
  shapes := by
    refine h.classify.mono fun _ _ hshape => hshape.mono fun hmeaning => ?_
    rw [Context.ofDescriptor, Context.ofDescriptor, h.identity, h.displayName]
    exact .of_fieldType _ hmeaning

/-- Only the order of what the lists of a descriptor hold is looked at, not their grouping: after any number of changes to
it the descriptor has the same type parameters, refers to the same types, and is rendered the same, faults included. -/
theorem regrouped_rendersAlike (h : ReflTransGen Regroup descriptor descriptor') :
    descriptor.parameters = descriptor'.parameters ∧
      (∀ identity, descriptor.references identity = descriptor'.references identity) ∧
      ∀ options, descriptor.SameRendering options descriptor' options := by
  induction h with
  | refl => exact ⟨rfl, fun _ => rfl, fun options => .refl _ options⟩
  | tail _ hchange ih =>
    obtain ⟨hparameters, hreferences, hrendering⟩ := ih
    refine ⟨hparameters.trans hchange.parameters, fun identity => ?_, fun options => ?_⟩
    · exact (hreferences identity).trans (hchange.references identity)
    · exact (hrendering options).trans ((hchange.alike options).sameRendering rfl rfl rfl)

def foliage (alternatives : Alternatives) : Descriptor :=
  .ofConstructor ⟨"main", "Trees", "foliage"⟩ (.value alternatives)

def foliageOf (arguments : Value) : Value := .application ⟨"main", "Trees", "foliage"⟩ arguments

/-- Groups of type arguments, of arguments and of constructors, empty ones too, are taken apart one after the other. -/
theorem foliage_rendersAlike :
    let leaf : Alternatives := .named "leaf" .empty
    let node (first : Value) (arguments : Value) : Alternatives :=
      .named "node" (.product first (.primitive (.list (foliageOf arguments))))
    let nested := foliage (.multiple
      [.multiple [], leaf, .multiple [node (.product .empty (.parameter "a")) (.argumentPair (.parameter "a") .empty)]])
    let flat := foliage (.multiple [leaf, node (.parameter "a") (.parameter "a")])
    ReflTransGen Regroup nested flat ∧
    (∃ text, flat.renderDeclaration {} = .ok text) ∧
    nested.parameters = flat.parameters ∧
    nested.references nested.identity = flat.references nested.identity ∧
    nested.SameRendering {} flat {} := by
  intro leaf node nested flat
  have hbranches : nested.Regroup (foliage (.multiple
      [leaf, node (.product .empty (.parameter "a")) (.argumentPair (.parameter "a") .empty)])) :=
    ⟨rfl, rfl, .value (.branches rfl)⟩
  have hchange {first first' arguments arguments' : Value}
      (h : (node first arguments).Regroup (node first' arguments')) :
      (foliage (.multiple [leaf, node first arguments])).Regroup (foliage (.multiple [leaf, node first' arguments'])) :=
    ⟨rfl, rfl, .value (@Alternatives.Regroup.item [leaf] [] _ _ h)⟩
  have hargument : (node (.product .empty (.parameter "a")) (.argumentPair (.parameter "a") .empty)).Regroup
      (node (.product .empty (.parameter "a")) (.parameter "a")) :=
    .named (.inside (.productRight (.list (.arguments rfl))))
  have hpayload : (node (.product .empty (.parameter "a")) (.parameter "a")).Regroup
      (node (.parameter "a") (.parameter "a")) := .named (.items rfl)
  have hchanges : ReflTransGen Regroup nested flat :=
    .head hbranches (.head (hchange hargument) (.single (hchange hpayload)))
  obtain ⟨hparameters, hreferences, hrendering⟩ := regrouped_rendersAlike hchanges
  exact ⟨hchanges, ⟨_, rfl⟩, hparameters, hreferences _, hrendering {}⟩

end Descriptor

end TypeScribe
