import TypeScribe.Proofs.WrittenForms
import TypeScribe.Wire.Descriptor

/-!
# Descriptors read back

The document of a value, of the constructors of a type and of a descriptor is read back for what it was written for. A
component stands inside at least one bracket of the value it belongs to, so the levels that a reader counts run out no
sooner than the brackets it may open, and the induction is on the levels.
-/

namespace TypeScribe

open Json Json.Reader

/-! ## Documents of texts and brackets -/

theorem Json.Document.Textual.tagged {name : String} {payload : Document} (h : payload.Textual) :
    (Document.tagged name payload).Textual :=
  .map (List.forall_mem_singleton.mpr h)

theorem Json.Document.Textual.pair {left right : Document} (hleft : left.Textual) (hright : right.Textual) :
    (Document.sequence [left, right]).Textual :=
  .sequence (List.forall_mem_cons.mpr ⟨hleft, List.forall_mem_singleton.mpr hright⟩)

theorem Json.Document.Textual.twoEntries {name name' : String} {first second : Document} (hfirst : first.Textual)
    (hsecond : second.Textual) : (Document.map [(name, first), (name', second)]).Textual :=
  .map (List.forall_mem_cons.mpr ⟨hfirst, List.forall_mem_singleton.mpr hsecond⟩)

theorem Json.Document.Textual.threeEntries {name name' name'' : String} {first second third : Document}
    (hfirst : first.Textual) (hsecond : second.Textual) (hthird : third.Textual) :
    (Document.map [(name, first), (name', second), (name'', third)]).Textual :=
  .map (List.forall_mem_cons.mpr ⟨hfirst, List.forall_mem_cons.mpr ⟨hsecond, List.forall_mem_singleton.mpr hthird⟩⟩)

theorem Identity.textual (identity : Identity) : identity.toDocument.Textual :=
  .threeEntries (.text _) (.text _) (.text _)

mutual

theorem Value.textual : ∀ value : Value, value.toDocument.Textual
  | .typeRef identity _ => .tagged (.twoEntries identity.textual (.text _))
  | .application identity arguments => .tagged (.twoEntries identity.textual arguments.textual)
  | .primitive p => .tagged p.textual
  | .parameter _ => .tagged (.text _)
  | .field _ value => .tagged (.twoEntries (.text _) value.textual)
  | .product left right => .tagged (.pair left.textual right.textual)
  | .argumentPair left right => .tagged (.pair left.textual right.textual)
  | .empty => .text _

theorem Primitive.textual : ∀ p : Primitive, p.toDocument.Textual
  | .scalar _ => .text _
  | .list item => .tagged item.textual
  | .option item => .tagged item.textual
  | .either left right => .tagged (.pair left.textual right.textual)
  | .tuple items => .tagged (.sequence (Value.textual_toDocuments items))

theorem Value.textual_toDocuments : ∀ items : List Value, ∀ document ∈ Value.toDocuments items, document.Textual
  | [] => List.forall_mem_nil _
  | item :: rest => List.forall_mem_cons.mpr ⟨item.textual, Value.textual_toDocuments rest⟩

end

mutual

theorem Alternatives.textual : ∀ alternatives : Alternatives, alternatives.toDocument.Textual
  | .named _ value => .tagged (.twoEntries (.text _) value.textual)
  | .record _ value => .tagged (.twoEntries (.text _) value.textual)
  | .multiple items => .tagged (.sequence (Alternatives.textual_toDocuments items))

theorem Alternatives.textual_toDocuments : ∀ items : List Alternatives,
    ∀ document ∈ Alternatives.toDocuments items, document.Textual
  | [] => List.forall_mem_nil _
  | item :: rest => List.forall_mem_cons.mpr ⟨item.textual, Alternatives.textual_toDocuments rest⟩

end

theorem Constructor.textual : ∀ constructor : Constructor, constructor.toDocument.Textual
  | .alias p => .tagged p.textual
  | .value alternatives => .tagged alternatives.textual
  | .enumeration _ => .tagged (.sequence (List.forall_mem_map.mpr fun _ _ => .text _))
  | .sumOfRecords _ alternatives => .tagged (.twoEntries (.text _) alternatives.textual)

theorem Descriptor.textual (descriptor : Descriptor) : descriptor.toDocument.Textual :=
  .threeEntries descriptor.identity.textual (.text _) descriptor.constructor.textual

theorem Identity.startsValue (identity : Identity) : identity.toDocument.StartsValue := identity.textual.startsValue

theorem Value.startsValue (value : Value) : value.toDocument.StartsValue := value.textual.startsValue

theorem Alternatives.startsValue (alternatives : Alternatives) : alternatives.toDocument.StartsValue :=
  alternatives.textual.startsValue

theorem Constructor.startsValue (constructor : Constructor) : constructor.toDocument.StartsValue :=
  constructor.textual.startsValue

/-! ## Identities and values -/

theorem Identity.readsBack (identity : Identity) (depth : Nat) :
    ReadsBack Identity.reader depth identity.toDocument identity := by
  refine ReadsBack.bind (x := (identity.package, identity.module, identity.name, ())) ?_ fun _ => rfl
  refine Fields.record_readsBack (by simp [Fields.names]) fun depth' _ => ?_
  exact .cons (.text _) (text_readsBack _ depth') <| .cons (.text _) (text_readsBack _ depth') <|
    .cons (.text _) (text_readsBack _ depth') .nil

theorem Primitive.nodup_variants (value : Reader Value) : ((Primitive.variants value).map (·.1)).Nodup := by
  simp [Primitive.variants]

theorem Value.nodup_variants (value : Reader Value) : ((Value.variants value).map (·.1)).Nodup := by
  simp [Value.variants]

theorem Value.forall₂_toDocuments {read : Reader Value} {depth : Nat}
    (h : ∀ value : Value, ReadsBack read depth value.toDocument value) (values : List Value) :
    List.Forall₂ (ReadsBack read depth) (Value.toDocuments values) values := by
  induction values with
  | nil => exact .nil
  | cons value rest ih => exact .cons (h value) ih

variable {read : Reader Value} {depth : Nat}

theorem Primitive.readsBack (h : ∀ depth' < depth, ∀ component : Value, ReadsBack read depth' component.toDocument component)
    (p : Primitive) : ReadsBack (variant (Primitive.variants read)) depth p.toDocument p := by
  have hlookup := @lookup_of_getElem? _ _ (Primitive.nodup_variants read)
  cases p with
  | scalar s =>
    cases s with
    | bool => exact unit_readsBack (hlookup (i := 0) rfl)
    | char => exact unit_readsBack (hlookup (i := 1) rfl)
    | date => exact unit_readsBack (hlookup (i := 2) rfl)
    | float => exact unit_readsBack (hlookup (i := 3) rfl)
    | int => exact unit_readsBack (hlookup (i := 4) rfl)
    | int32 => exact unit_readsBack (hlookup (i := 5) rfl)
    | string => exact unit_readsBack (hlookup (i := 6) rfl)
    | unit => exact unit_readsBack (hlookup (i := 7) rfl)
  | list item =>
    exact variant_readsBack (hlookup (i := 8) rfl) fun depth' _ => .bind (h depth' (by omega) item) fun _ => rfl
  | option item =>
    exact variant_readsBack (hlookup (i := 9) rfl) fun depth' _ => .bind (h depth' (by omega) item) fun _ => rfl
  | either left right =>
    exact tupleVariant_readsBack (hlookup (i := 10) rfl) (by simp [Fields.size]) (fun depth' hdepth =>
      .cons left.startsValue (h depth' hdepth left) <| .cons right.startsValue (h depth' hdepth right) .nil) rfl rfl
  | tuple items =>
    refine variant_readsBack (hlookup (i := 11) rfl) fun depth' _ => .bind ?_ fun _ => rfl
    exact list_readsBack (fun depth'' _ => Value.forall₂_toDocuments (h depth'' (by omega)) items)
      fun document hmem => (Value.textual_toDocuments items document hmem).startsValue

theorem Value.readsBack_variant
    (h : ∀ depth' < depth, ∀ component : Value, ReadsBack read depth' component.toDocument component) (value : Value) :
    ReadsBack (variant (Value.variants read)) depth value.toDocument value := by
  have hlookup := @lookup_of_getElem? _ _ (Value.nodup_variants read)
  cases value with
  | typeRef identity name =>
    exact recordVariant_readsBack (hlookup (i := 0) rfl) (by simp [Fields.names]) (fun depth' _ =>
      .cons identity.startsValue (identity.readsBack depth') <| .cons (.text _) (text_readsBack name depth') .nil) rfl
  | application identity arguments =>
    exact recordVariant_readsBack (hlookup (i := 1) rfl) (by simp [Fields.names]) (fun depth' hdepth =>
      .cons identity.startsValue (identity.readsBack depth') <|
        .cons arguments.startsValue (h depth' hdepth arguments) .nil) rfl
  | primitive p =>
    exact variant_readsBack (hlookup (i := 2) rfl) fun depth' _ =>
      .bind (p.readsBack fun depth'' _ => h depth'' (by omega)) fun _ => rfl
  | parameter name =>
    exact variant_readsBack (hlookup (i := 3) rfl) fun depth' _ => .bind (text_readsBack name depth') fun _ => rfl
  | field name value =>
    exact recordVariant_readsBack (hlookup (i := 4) rfl) (by simp [Fields.names]) (fun depth' hdepth =>
      .cons (.text _) (text_readsBack name depth') <| .cons value.startsValue (h depth' hdepth value) .nil) rfl
  | product left right =>
    exact tupleVariant_readsBack (hlookup (i := 5) rfl) (by simp [Fields.size]) (fun depth' hdepth =>
      .cons left.startsValue (h depth' hdepth left) <| .cons right.startsValue (h depth' hdepth right) .nil) rfl rfl
  | argumentPair left right =>
    exact tupleVariant_readsBack (hlookup (i := 6) rfl) (by simp [Fields.size]) (fun depth' hdepth =>
      .cons left.startsValue (h depth' hdepth left) <| .cons right.startsValue (h depth' hdepth right) .nil) rfl rfl
  | empty => exact unit_readsBack (hlookup (i := 7) rfl)

theorem Value.readsBack {levels depth : Nat} (h : depth < levels) (value : Value) :
    ReadsBack (Value.readerWithin levels) depth value.toDocument value := by
  induction levels generalizing depth value with
  | zero => omega
  | succ levels ih => exact Value.readsBack_variant (fun _ hdepth component => ih (by omega) component) value

/-! ## Constructors and descriptors -/

theorem Alternatives.nodup_variants (group : Reader Alternatives) :
    ((Alternatives.variants group).map (·.1)).Nodup := by
  simp [Alternatives.variants]

theorem Alternatives.forall₂_toDocuments {read : Reader Alternatives} {depth : Nat}
    (h : ∀ group : Alternatives, ReadsBack read depth group.toDocument group) (groups : List Alternatives) :
    List.Forall₂ (ReadsBack read depth) (Alternatives.toDocuments groups) groups := by
  induction groups with
  | nil => exact .nil
  | cons group rest ih => exact .cons (h group) ih

theorem Alternatives.readsBack {levels depth : Nat} (h : depth < levels) (hlimit : depth ≤ depthLimit)
    (alternatives : Alternatives) :
    ReadsBack (Alternatives.readerWithin levels) depth alternatives.toDocument alternatives := by
  induction levels generalizing depth alternatives with
  | zero => omega
  | succ levels ih =>
    have hlookup := @lookup_of_getElem? _ _ (Alternatives.nodup_variants (Alternatives.readerWithin levels))
    cases alternatives with
    | named name value =>
      exact recordVariant_readsBack (hlookup (i := 0) rfl) (by simp [Fields.names]) (fun depth' _ =>
        .cons (.text _) (text_readsBack name depth') <| .cons value.startsValue (value.readsBack (by omega)) .nil) rfl
    | record name value =>
      exact recordVariant_readsBack (hlookup (i := 1) rfl) (by simp [Fields.names]) (fun depth' _ =>
        .cons (.text _) (text_readsBack name depth') <| .cons value.startsValue (value.readsBack (by omega)) .nil) rfl
    | multiple items =>
      refine variant_readsBack (hlookup (i := 2) rfl) fun depth' _ => .bind ?_ fun _ => rfl
      exact list_readsBack
        (fun depth'' _ => Alternatives.forall₂_toDocuments (fun group => ih (by omega) (by omega) group) items)
        fun document hmem => (Alternatives.textual_toDocuments items document hmem).startsValue

theorem Constructor.nodup_variants : (Constructor.variants.map (·.1)).Nodup := by
  simp [Constructor.variants]

theorem Constructor.readsBack {depth : Nat} (h : depth ≤ depthLimit) (constructor : Constructor) :
    ReadsBack (variant Constructor.variants) depth constructor.toDocument constructor := by
  have hlookup := @lookup_of_getElem? _ _ Constructor.nodup_variants
  cases constructor with
  | «alias» p =>
    exact variant_readsBack (hlookup (i := 0) rfl) fun depth' _ =>
      .bind (p.readsBack fun depth'' _ component => component.readsBack (by omega)) fun _ => rfl
  | value alternatives =>
    exact variant_readsBack (hlookup (i := 1) rfl) fun depth' _ =>
      .bind (alternatives.readsBack (by omega) (by omega)) fun _ => rfl
  | enumeration tags =>
    exact variant_readsBack (hlookup (i := 2) rfl) fun depth' _ => .bind (texts_readsBack tags depth') fun _ => rfl
  | sumOfRecords typeName alternatives =>
    exact recordVariant_readsBack (hlookup (i := 3) rfl) (by simp [Fields.names]) (fun depth' _ =>
      .cons (.text _) (text_readsBack typeName depth') <|
        .cons alternatives.startsValue (alternatives.readsBack (by omega) (by omega)) .nil) rfl

theorem Descriptor.readsBack {depth : Nat} (h : depth ≤ depthLimit) (descriptor : Descriptor) :
    ReadsBack Descriptor.reader depth descriptor.toDocument descriptor := by
  refine ReadsBack.bind (x := (descriptor.identity, descriptor.displayName, descriptor.constructor, ())) ?_ fun _ => rfl
  refine Fields.record_readsBack (by simp [Fields.names]) fun depth' _ => ?_
  exact .cons descriptor.identity.startsValue (descriptor.identity.readsBack depth') <|
    .cons (.text _) (text_readsBack _ depth') <|
      .cons descriptor.constructor.startsValue (descriptor.constructor.readsBack (by omega)) .nil

end TypeScribe
