import TypeScribe.Proofs.WellFormed

/-!
# Argument lists

The builders nest the items of an argument list in pairs, and `flatten` reads them back in order. It dissolves the lists
among the items as well, so that exactly the lists of items that are none themselves come back as they were. Arguments and
fields are such lists, and classification keeps what `flatten` gives. So a constructor that is built of arguments or of
fields has these in the shape of its type, wherever it stands there. Only a record without fields is built in vain.
-/

namespace TypeScribe

namespace Value

variable {item value : Value}

/-- The value is a single item: neither a part of an argument list nor one without items. -/
def isItem : Value → Bool
  | .product _ _ => false
  | .argumentPair _ _ => false
  | .empty => false
  | _ => true

theorem flatten_of_isItem (h : item.isItem = true) : item.flatten = [item] := by
  cases item with
  | product left right => cases h
  | argumentPair left right => cases h
  | empty => cases h
  | _ => rfl

theorem isItem_of_mem_flatten (h : item ∈ value.flatten) : item.isItem = true := by
  fun_induction flatten value with
  | case1 left right ihLeft ihRight => exact (List.mem_append.mp h).elim ihLeft ihRight
  | case2 left right ihLeft ihRight => exact (List.mem_append.mp h).elim ihLeft ihRight
  | case3 => cases h
  | case4 single hproduct hpair hempty =>
    obtain rfl := List.mem_singleton.mp h
    cases item with
    | product left right => exact absurd rfl (hproduct left right)
    | argumentPair left right => exact absurd rfl (hpair left right)
    | empty => exact absurd rfl hempty
    | _ => rfl

theorem flatten_nest {pair : Value → Value → Value}
    (hpair : ∀ left right, (pair left right).flatten = left.flatten ++ right.flatten) (items : List Value) :
    (nest pair items).flatten = items.flatMap flatten := by
  fun_induction nest pair items with
  | case1 => rfl
  | case2 last => exact (List.flatMap_singleton ..).symm
  | case3 first rest _ ih => rw [hpair, ih, List.flatMap_cons]

theorem flatten_productOf (items : List Value) : (productOf items).flatten = items.flatMap flatten :=
  flatten_nest (fun _ _ => rfl) items

theorem flatMap_flatten_eq_self_iff {items : List Value} :
    items.flatMap flatten = items ↔ ∀ item ∈ items, item.isItem = true := by
  constructor
  · intro h item hitem
    rw [← h] at hitem
    obtain ⟨value, -, hmem⟩ := List.mem_flatMap.mp hitem
    exact isItem_of_mem_flatten hmem
  · intro h
    rw [List.flatMap_congr fun item hitem => flatten_of_isItem (h item hitem), List.flatMap_singleton']

theorem flatten_nest_of_isItem {pair : Value → Value → Value}
    (hpair : ∀ left right, (pair left right).flatten = left.flatten ++ right.flatten) {items : List Value}
    (h : ∀ item ∈ items, item.isItem = true) : (nest pair items).flatten = items :=
  (flatten_nest hpair items).trans (flatMap_flatten_eq_self_iff.mpr h)

theorem flatten_productOf_of_isItem {items : List Value} (h : ∀ item ∈ items, item.isItem = true) :
    (productOf items).flatten = items :=
  flatten_nest_of_isItem (fun _ _ => rfl) h

theorem flatten_productOf_flatten (value : Value) : (productOf value.flatten).flatten = value.flatten :=
  flatten_productOf_of_isItem fun _ => isItem_of_mem_flatten

end Value

/-! ## Constructors that are built -/

/-- If all elements but one are known to succeed, the result of this one stands at its place among the results. -/
theorem exists_mapM_append_cons {ε α β : Type} {f : α → Except ε β} {front back : List α} {x : α} {y : β}
    (hx : f x = .ok y) (hothers : ∀ other ∈ front ++ back, Succeeds (f other)) :
    ∃ before after, (front ++ x :: back).mapM f = .ok (before ++ y :: after) ∧ before.length = front.length ∧
      after.length = back.length := by
  rw [List.forall_mem_append] at hothers
  obtain ⟨before, hbefore⟩ := succeeds_mapM.mpr hothers.1
  obtain ⟨after, hafter⟩ := succeeds_mapM.mpr hothers.2
  rw [mapM_eq_ok] at hbefore hafter
  refine ⟨before, after, mapM_eq_ok.mpr ?_, hbefore.length_eq.symm, hafter.length_eq.symm⟩
  exact List.rel_append hbefore (.cons hx hafter)

def RecordField.ofPair (pair : String × Value) : RecordField := ⟨pair.1, pair.2⟩

namespace Shape

theorem recordFields_productOf {typeName : String} {fields : List (String × Value)} (h : fields ≠ []) :
    recordFields typeName (Value.productOf (fields.map fun (label, value) => .field label value)) =
      .ok (fields.map RecordField.ofPair) := by
  refine recordFields_eq_ok.mpr ⟨?_, by simpa using h⟩
  rw [Value.flatten_productOf_of_isItem (List.forall_mem_map.mpr fun _ _ => rfl), List.map_map]
  rfl

end Shape

/-- A type with the constructor has it in its shape with exactly these arguments: as the only one, or at its place among
other positional ones. -/
structure Alternatives.KeepsArguments (built : Alternatives) (name : String) (arguments : List Value) : Prop where
  alone (descriptor : Descriptor) (alternatives : Alternatives)
    (hconstructor : descriptor.constructor = .value alternatives) (hbranches : alternatives.branches = built.branches) :
    descriptor.classify = .ok (.single ⟨name, arguments⟩)
  among (descriptor : Descriptor) (alternatives : Alternatives) (front back : List Branch)
    (hconstructor : descriptor.constructor = .value alternatives)
    (hbranches : alternatives.branches = front ++ built.branches ++ back) (hothers : front ++ back ≠ [])
    (hpositional : ∀ other ∈ front ++ back, other.IsPositional) :
    ∃ before after, descriptor.classify = .ok (.sum (before ++ ⟨name, arguments⟩ :: after)) ∧
      before.length = front.length ∧ after.length = back.length

/-- A type with the constructor has it in its shape with exactly these fields: as the only one, or at its place among
other records. -/
structure Alternatives.KeepsFields (built : Alternatives) (name : String) (fields : List RecordField) : Prop where
  alone (descriptor : Descriptor) (alternatives : Alternatives)
    (hconstructor : descriptor.constructor = .value alternatives) (hbranches : alternatives.branches = built.branches) :
    descriptor.classify = .ok (.record fields)
  among (descriptor : Descriptor) (typeName : String) (alternatives : Alternatives) (front back : List Branch)
    (hconstructor : descriptor.constructor = .sumOfRecords typeName alternatives)
    (hbranches : alternatives.branches = front ++ built.branches ++ back)
    (hrecords : ∀ other ∈ front ++ back, other.IsRecord) :
    ∃ before record after, descriptor.classify = .ok (.sumOfRecords (before ++ record :: after)) ∧
      before.length = front.length ∧ after.length = back.length ∧ record.branch = name ∧ record.fields = fields ∧
      record.displayName = Shape.hoistedName typeName name

namespace Alternatives

theorem keepsArguments_ofArguments (name : String) {arguments : List Value}
    (h : ∀ argument ∈ arguments, argument.isItem = true) :
    (ofArguments name arguments).KeepsArguments name arguments where
  alone descriptor alternatives hconstructor hbranches := by
    rw [Descriptor.classify_value hconstructor, hbranches]
    show Except.ok (Shape.single ⟨name, (Value.productOf arguments).flatten⟩) = _
    rw [Value.flatten_productOf_of_isItem h]
  among descriptor alternatives front back hconstructor hbranches hothers hpositional := by
    have hseveral : 2 ≤ alternatives.branches.length := by
      have hlength := List.length_pos_of_ne_nil hothers
      rw [hbranches]
      simp only [branches, ofArguments, List.length_append, List.length_singleton] at hlength ⊢
      omega
    have hbranch : Shape.positional descriptor.displayName (.named name (.productOf arguments)) =
        .ok ⟨name, arguments⟩ := by
      rw [Shape.positional, Value.flatten_productOf_of_isItem h]
    obtain ⟨before, after, hmap, hbefore, hafter⟩ := exists_mapM_append_cons hbranch fun other hother =>
      Shape.succeeds_positional.mpr (hpositional other hother)
    refine ⟨before, after, ?_, hbefore, hafter⟩
    rw [Descriptor.classify_value hconstructor, Shape.ofBranches_of_several hseveral, hbranches, List.append_assoc]
    exact bind_eq_ok.mpr ⟨_, hmap, rfl⟩

theorem keepsFields_ofFields (name : String) {fields : List (String × Value)} (h : fields ≠ []) :
    (ofFields name fields).KeepsFields name (fields.map RecordField.ofPair) where
  alone descriptor alternatives hconstructor hbranches := by
    rw [Descriptor.classify_value hconstructor, hbranches]
    exact bind_eq_ok.mpr ⟨_, Shape.recordFields_productOf h, rfl⟩
  among descriptor typeName alternatives front back hconstructor hbranches hrecords := by
    let payload := Value.productOf (fields.map fun (label, value) => .field label value)
    let record : HoistedRecord :=
      ⟨Shape.hoistedName typeName name, name, fields.map RecordField.ofPair, sortedNames payload.parameters⟩
    have hrecord : Shape.hoistedRecord typeName (.record name payload) = .ok record :=
      Shape.hoistedRecord_eq_ok.mpr ⟨payload, rfl, rfl, Shape.recordFields_productOf h, rfl⟩
    obtain ⟨before, after, hmap, hbefore, hafter⟩ := exists_mapM_append_cons hrecord
      fun other hother => Shape.succeeds_hoistedRecord.mpr (hrecords other hother)
    refine ⟨before, record, after, ?_, hbefore, hafter, rfl, rfl, rfl⟩
    have hhoist : Shape.hoist typeName alternatives.branches = .ok (before ++ record :: after) := by
      rw [Shape.hoist, hbranches, List.append_assoc, if_neg (by simp [branches, ofFields])]
      exact hmap
    unfold Descriptor.classify
    rw [hconstructor]
    exact bind_eq_ok.mpr ⟨_, hhoist, rfl⟩

end Alternatives

/-- Flattening undoes the builders. An argument list or a list of type arguments that is built of values has the items of
all of them in order, which are the values themselves exactly if each is an item. All that is flattened is an item, and a
list that is built anew of its items keeps them. So a constructor that is built of arguments, or of at least one field, is
classified with exactly these, in order. A record that is built of none is refused. -/
theorem builders_areUndone :
    (∀ items : List Value, (Value.productOf items).flatten = items.flatMap Value.flatten) ∧
    (∀ (identity : Identity) (items : List Value), ∃ arguments,
      Value.apply identity items = .application identity arguments ∧
        arguments.flatten = items.flatMap Value.flatten) ∧
    (∀ items : List Value, items.flatMap Value.flatten = items ↔ ∀ item ∈ items, item.isItem = true) ∧
    (∀ value : Value, ∀ item ∈ value.flatten, item.isItem = true) ∧
    (∀ value : Value, (Value.productOf value.flatten).flatten = value.flatten) ∧
    (∀ (name : String) (arguments : List Value), (∀ argument ∈ arguments, argument.isItem = true) →
      (Alternatives.ofArguments name arguments).KeepsArguments name arguments) ∧
    (∀ (name : String) (fields : List (String × Value)), fields ≠ [] →
      (Alternatives.ofFields name fields).KeepsFields name (fields.map RecordField.ofPair)) ∧
    ∀ (descriptor : Descriptor) (alternatives : Alternatives) (name : String),
      descriptor.constructor = .value alternatives → alternatives.branches = (Alternatives.ofFields name []).branches →
        descriptor.classify = .error (.emptyRecord descriptor.displayName) := by
  refine ⟨Value.flatten_productOf, fun identity items => ⟨_, rfl, Value.flatten_nest (fun _ _ => rfl) items⟩,
    fun items => Value.flatMap_flatten_eq_self_iff, fun value item => Value.isItem_of_mem_flatten,
    Value.flatten_productOf_flatten, fun name arguments => Alternatives.keepsArguments_ofArguments name,
    fun name fields => Alternatives.keepsFields_ofFields name,
    fun descriptor alternatives name hconstructor hbranches => ?_⟩
  rw [Descriptor.classify_value hconstructor, hbranches]
  rfl

/-- A record whose fields are not sorted, and a constructor with two arguments in a group beside one without any. -/
theorem package_keepsItems :
    let weight := Value.primitive (.scalar .float)
    let goods := Value.parameter "a"
    let package : Descriptor :=
      .ofConstructor ⟨"main", "Types", "Package"⟩ (.value (.ofFields "Package" [("weight", weight), ("goods", goods)]))
    let delivery : Descriptor :=
      .ofConstructor ⟨"main", "Types", "Delivery"⟩ <| .value <|
        .multiple [.ofArguments "Lost" [], .multiple [.ofArguments "Sent" [weight, goods]]]
    package.classify = .ok (.record [⟨"weight", weight⟩, ⟨"goods", goods⟩]) ∧
    ∃ before after, delivery.classify = .ok (.sum (before ++ ⟨"Sent", [weight, goods]⟩ :: after)) ∧
      before.length = 1 ∧ after.length = 0 := by
  intro weight goods package delivery
  obtain ⟨-, -, -, -, -, harguments, hfields, -⟩ := builders_areUndone
  have hsent := harguments "Sent" [weight, goods] (by simp [weight, goods, Value.isItem])
  refine ⟨(hfields "Package" _ (List.cons_ne_nil _ _)).alone package _ rfl rfl,
    hsent.among delivery _ [.named "Lost" .empty] [] rfl rfl (List.cons_ne_nil _ _) ?_⟩
  exact List.forall_mem_singleton.mpr ⟨_, _, rfl⟩

/-- The record that is built of no fields does not have them in its shape: it has none. -/
theorem nothing_isRefused :
    let nothing : Descriptor := .ofConstructor ⟨"main", "Types", "Nothing"⟩ (.value (.ofFields "Nothing" []))
    nothing.classify = .error (.emptyRecord "Nothing") ∧ nothing.classify ≠ .ok (.record []) ∧
      ¬ (Alternatives.ofFields "Nothing" []).KeepsFields "Nothing" [] := by
  intro nothing
  have hne : nothing.classify ≠ .ok (.record []) := nofun
  exact ⟨rfl, hne, fun hkeeps => hne (hkeeps.alone nothing _ rfl rfl)⟩

end TypeScribe
