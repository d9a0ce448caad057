import TypeScribe.Proofs.Nesting
import TypeScribe.Wire.Descriptor

/-!
# How deep a value that was read nests

`Gives read depth x` says that a reader can give `x` where `depth` more brackets may be opened. Whatever stands inside a
bracket is given by a reader with one bracket less to open, so the document of a value that was read nests no deeper
than brackets may be opened: the value is written no deeper than it was read.
-/

namespace TypeScribe.Json

/-- On some input the reader gives `x`, where so many brackets may be opened. -/
def Reader.Gives (read : Reader α) (depth : Nat) (x : α) : Prop := ∃ input rest, read depth input = .ok (x, rest)

namespace Reader

theorem not_gives_throw (e : ReadError) (depth : Nat) (x : α) : ¬ (throw e : Reader α).Gives depth x := by
  rintro ⟨input, rest, h⟩
  cases h

theorem Gives.pure {depth : Nat} {x y : α} (h : (Pure.pure x : Reader α).Gives depth y) : y = x := by
  obtain ⟨input, rest, h⟩ := h
  cases h
  rfl

theorem Gives.bind {read : Reader α} {next : α → Reader β} {depth : Nat} {y : β}
    (h : (read >>= next).Gives depth y) : ∃ x, read.Gives depth x ∧ (next x).Gives depth y := by
  obtain ⟨input, rest, h⟩ := h
  change read depth input >>= (fun result => next result.1 depth result.2) = _ at h
  cases hread : read depth input with
  | error e =>
    rw [hread] at h
    cases h
  | ok result =>
    rw [hread] at h
    exact ⟨result.1, ⟨input, result.2, hread⟩, result.2, rest, h⟩

theorem Gives.map {read : Reader α} {f : α → β} {depth : Nat} {y : β}
    (h : (read >>= fun x => Pure.pure (f x)).Gives depth y) : ∃ x, read.Gives depth x ∧ y = f x := by
  obtain ⟨x, hread, hy⟩ := h.bind
  exact ⟨x, hread, hy.pure⟩

theorem Gives.nested {read : Reader α} {depth : Nat} {x : α} (h : (nested read).Gives depth x) :
    ∃ depth', depth = depth' + 1 ∧ read.Gives depth' x := by
  obtain ⟨input, rest, h⟩ := h
  cases depth with
  | zero => cases h
  | succ depth' => exact ⟨depth', rfl, input.tail, rest, h⟩

theorem Gives.bounded {read : Nat → Reader α} {depth : Nat} {x : α} (h : (bounded read).Gives depth x) :
    ∃ steps, (read steps).Gives depth x := by
  obtain ⟨input, rest, h⟩ := h
  exact ⟨input.length + 1, input, rest, h⟩

/-! ## Sequences -/

theorem Gives.elements {item : Reader α} {steps depth : Nat} {first : Bool} {xs : List α}
    (h : (elements item steps first).Gives depth xs) : ∀ x ∈ xs, item.Gives depth x := by
  induction steps generalizing first xs with
  | zero => exact absurd h (not_gives_throw _ _ _)
  | succ steps ih =>
    obtain ⟨more, -, h⟩ := h.bind
    cases more with
    | false =>
      obtain rfl : xs = [] := h.pure
      exact List.forall_mem_nil _
    | true =>
      obtain ⟨x, hitem, h⟩ := h.bind
      obtain ⟨rest, hrest, rfl⟩ := h.map
      exact List.forall_mem_cons.mpr ⟨hitem, ih hrest⟩

theorem Gives.list {item : Reader α} {depth : Nat} {xs : List α} (h : (list item).Gives depth xs) :
    ∃ depth', depth = depth' + 1 ∧ ∀ x ∈ xs, item.Gives depth' x := by
  obtain ⟨found, -, h⟩ := h.bind
  cases found with
  | sequence =>
    obtain ⟨xs', hinside, h⟩ := h.bind
    obtain ⟨_, -, h⟩ := h.bind
    obtain rfl := h.pure
    obtain ⟨depth', hdepth, h⟩ := hinside.nested
    obtain ⟨steps, h⟩ := h.bounded
    exact ⟨depth', hdepth, h.elements⟩
  | _ => exact absurd h (not_gives_throw _ _ _)

end Reader

/-! ## Records -/

namespace Fields
open Reader

/-- Each value is given by the reader of its field, or is what the field is if absent. -/
def Given (depth : Nat) : Fields γ σ → γ → Prop
  | nil, _ => True
  | cons _ read absent rest, (x, xs) => (read.Gives depth x ∨ absent = some x) ∧ rest.Given depth xs

theorem given_required {name : String} {read : Reader α} {rest : Fields β τ} {depth : Nat} {x : α} {xs : β} :
    (cons name read none rest).Given depth (x, xs) ↔ read.Gives depth x ∧ rest.Given depth xs := by
  simp [Given]

/-- Each slot that is filled holds a value that the reader of its field gives. -/
def Filled (depth : Nat) : Fields γ σ → σ → Prop
  | nil, _ => True
  | cons _ read _ rest, (slot, slots) => (∀ x, slot = some x → read.Gives depth x) ∧ rest.Filled depth slots

theorem filled_vacant (fields : Fields γ σ) (depth : Nat) : fields.Filled depth fields.vacant := by
  induction fields with
  | nil => trivial
  | cons name read absent rest ih => exact ⟨fun _ h => (nomatch h), ih⟩

theorem Filled.fill {fields : Fields γ σ} {depth : Nat} {key : String} {slots slots' : σ} {fill : Reader σ}
    (h : fields.Filled depth slots) (hfill : fields.fill? key slots = some fill) (hgives : fill.Gives depth slots') :
    fields.Filled depth slots' := by
  induction fields with
  | nil => cases hfill
  | cons name read absent rest ih =>
    obtain ⟨slot, slots⟩ := slots
    rw [fill?] at hfill
    split at hfill
    · obtain rfl := Option.some.inj hfill
      cases slot with
      | some x => exact absurd hgives (not_gives_throw _ _ _)
      | none =>
        obtain ⟨_, -, hgives⟩ := hgives.bind
        obtain ⟨x, hread, rfl⟩ := hgives.map
        exact ⟨fun x' hx' => Option.some.inj hx' ▸ hread, h.2⟩
    · obtain ⟨more, hmore, rfl⟩ := Option.map_eq_some_iff.mp hfill
      obtain ⟨slots'', hrest, rfl⟩ := hgives.map
      exact ⟨h.1, ih h.2 hmore hrest⟩

theorem Filled.readEntries {fields : Fields γ σ} {depth steps : Nat} {closed first : Bool} {slots slots' : σ}
    (h : fields.Filled depth slots) (hgives : (fields.readEntries closed steps first slots).Gives depth slots') :
    fields.Filled depth slots' := by
  induction steps generalizing first slots with
  | zero => exact absurd hgives (not_gives_throw _ _ _)
  | succ steps ih =>
    obtain ⟨more, -, hgives⟩ := hgives.bind
    cases more with
    | false =>
      obtain rfl := hgives.pure
      exact h
    | true =>
      obtain ⟨key, -, hgives⟩ := hgives.bind
      cases hfill : fields.fill? key slots with
      | some fill =>
        simp only [hfill] at hgives
        obtain ⟨slots'', hfilled, hgives⟩ := hgives.bind
        exact ih (h.fill hfill hfilled) hgives
      | none =>
        simp only [hfill] at hgives
        cases closed with
        | true => exact absurd hgives (not_gives_throw _ _ _)
        | false =>
          obtain ⟨_, -, hgives⟩ := hgives.bind
          obtain ⟨_, -, hgives⟩ := hgives.bind
          exact ih h hgives

theorem Filled.collect {fields : Fields γ σ} {depth : Nat} {slots : σ} {xs : γ} (h : fields.Filled depth slots)
    (hcollect : fields.collect slots = .ok xs) : fields.Given depth xs := by
  induction fields with
  | nil => trivial
  | cons name read absent rest ih =>
    obtain ⟨slot, slots⟩ := slots
    rw [Fields.collect] at hcollect
    cases hvalue : (slot <|> absent) with
    | none => simp [hvalue] at hcollect
    | some x =>
      simp only [hvalue] at hcollect
      cases hrest : rest.collect slots with
      | error e => simp [hrest, Except.map] at hcollect
      | ok xs' =>
        rw [hrest] at hcollect
        cases hcollect
        refine ⟨?_, ih h.2 hrest⟩
        cases slot with
        | none => exact .inr hvalue
        | some x' => exact .inl (h.1 x hvalue)

theorem given_of_readItems {fields : Fields γ σ} {depth index : Nat} {expected : String} {xs : γ}
    (h : (fields.readItems expected index).Gives depth xs) : fields.Given depth xs := by
  induction fields generalizing index with
  | nil => trivial
  | cons name read absent rest ih =>
    obtain ⟨more, -, h⟩ := h.bind
    cases more with
    | true =>
      obtain ⟨x, hread, h⟩ := h.bind
      obtain ⟨xs', hrest, rfl⟩ := h.map
      exact ⟨.inl hread, ih hrest⟩
    | false =>
      cases absent with
      | none => exact absurd h (not_gives_throw _ _ _)
      | some x =>
        obtain ⟨xs', hrest, rfl⟩ := h.map
        exact ⟨.inr rfl, ih hrest⟩

variable {fields : Fields γ σ} {depth : Nat} {what : String} {closed : Bool} {xs : γ}

theorem given_of_ofSequence (h : (fields.ofSequence what).Gives depth xs) :
    ∃ depth', depth = depth' + 1 ∧ fields.Given depth' xs := by
  obtain ⟨xs', hinside, h⟩ := h.bind
  obtain ⟨_, -, h⟩ := h.bind
  obtain rfl := h.pure
  obtain ⟨depth', hdepth, h⟩ := hinside.nested
  exact ⟨depth', hdepth, given_of_readItems h⟩

theorem given_of_ofMap (h : (fields.ofMap closed).Gives depth xs) :
    ∃ depth', depth = depth' + 1 ∧ fields.Given depth' xs := by
  obtain ⟨slots, hinside, h⟩ := h.bind
  obtain ⟨xs', hcollect, h⟩ := h.bind
  obtain ⟨_, -, h⟩ := h.bind
  obtain rfl := h.pure
  obtain ⟨depth', hdepth, h⟩ := hinside.nested
  obtain ⟨steps, h⟩ := h.bounded
  refine ⟨depth', hdepth, ((filled_vacant fields depth').readEntries h).collect ?_⟩
  obtain ⟨input, rest, hcollect⟩ := hcollect
  cases hcollected : fields.collect slots with
  | error e =>
    rw [hcollected] at hcollect
    cases hcollect
  | ok xs' =>
    rw [hcollected] at hcollect
    cases hcollect
    rfl

theorem given_of_record (h : (fields.record what closed).Gives depth xs) :
    ∃ depth', depth = depth' + 1 ∧ fields.Given depth' xs := by
  obtain ⟨found, -, h⟩ := h.bind
  cases found with
  | sequence => exact given_of_ofSequence h
  | map => exact given_of_ofMap h
  | _ => exact absurd h (not_gives_throw _ _ _)

theorem given_of_tuple (h : (fields.tuple what).Gives depth xs) :
    ∃ depth', depth = depth' + 1 ∧ fields.Given depth' xs := by
  obtain ⟨found, -, h⟩ := h.bind
  cases found with
  | sequence => exact given_of_ofSequence h
  | _ => exact absurd h (not_gives_throw _ _ _)

end Fields

/-! ## Variants -/

theorem Payload.mem_of_find {variants : Variants ρ} {name : String} {payload : Payload ρ}
    (h : Payload.find variants name = .ok payload) : (name, payload) ∈ variants := by
  rw [find] at h
  split at h
  · next payload' hlookup =>
    obtain rfl := Except.ok.inj h
    obtain ⟨before, after, rfl, -⟩ := List.lookup_eq_some_iff.mp hlookup
    simp
  · cases h

namespace Reader

theorem Gives.ofKey {variants : Variants ρ} {use : Payload ρ → Reader ρ} {depth : Nat} {x : ρ}
    (h : (Payload.ofKey variants use).Gives depth x) :
    ∃ name payload, (name, payload) ∈ variants ∧ (use payload).Gives depth x := by
  obtain ⟨name, -, h⟩ := h.bind
  cases hfind : Payload.find variants name with
  | error e =>
    simp only [hfind] at h
    exact absurd h (not_gives_throw _ _ _)
  | ok payload =>
    simp only [hfind] at h
    exact ⟨name, payload, Payload.mem_of_find hfind, h⟩

end Reader

/-- What the variant can be: what carries something stands inside a bracket, and its components inside another. -/
def Payload.Gives (depth : Nat) : Payload ρ → ρ → Prop
  | unit value, x => x = value
  | single read, x => ∃ depth', depth = depth' + 1 ∧ read.Gives depth' x
  | tuple _ fields make, x => ∃ depth' xs, depth = depth' + 2 ∧ fields.Given depth' xs ∧ x = make xs
  | record _ fields make, x => ∃ depth' xs, depth = depth' + 2 ∧ fields.Given depth' xs ∧ x = make xs

theorem Payload.gives_of_bare {payload : Payload ρ} {depth : Nat} {x : ρ}
    (h : (liftM payload.bare : Reader ρ).Gives depth x) : payload.Gives depth x := by
  obtain ⟨input, rest, h⟩ := h
  cases payload with
  | unit value =>
    cases h
    rfl
  | _ => cases h

theorem Payload.gives_of_read {payload : Payload ρ} {depth : Nat} {x : ρ} (h : payload.read.Gives depth x) :
    payload.Gives (depth + 1) x := by
  cases payload with
  | unit value =>
    obtain ⟨_, -, hx⟩ := h.map
    exact hx
  | single read => exact ⟨depth, rfl, h⟩
  | tuple what fields make =>
    obtain ⟨xs, hfields, hx⟩ := h.map
    obtain ⟨depth', rfl, hgiven⟩ := Fields.given_of_tuple hfields
    exact ⟨depth', xs, rfl, hgiven, hx⟩
  | record what fields make =>
    obtain ⟨xs, hfields, hx⟩ := h.map
    obtain ⟨depth', rfl, hgiven⟩ := Fields.given_of_record hfields
    exact ⟨depth', xs, rfl, hgiven, hx⟩

theorem Reader.Gives.variant {variants : Variants ρ} {depth : Nat} {x : ρ} (h : (variant variants).Gives depth x) :
    ∃ entry ∈ variants, entry.2.Gives depth x := by
  obtain ⟨next, -, h⟩ := h.bind
  split at h
  · exact absurd h (not_gives_throw _ _ _)
  · obtain ⟨x', hinside, h⟩ := h.bind
    obtain ⟨close, -, h⟩ := h.bind
    have hx : x = x' := by
      split at h
      · exact absurd h (not_gives_throw _ _ _)
      · obtain ⟨_, -, h⟩ := h.bind
        exact h.pure
      · exact absurd h (not_gives_throw _ _ _)
    subst hx
    obtain ⟨depth', rfl, hentry⟩ := hinside.nested
    obtain ⟨more, -, hentry⟩ := hentry.bind
    cases more with
    | false => exact absurd hentry (not_gives_throw _ _ _)
    | true =>
      obtain ⟨name, payload, hmem, hpayload⟩ := Gives.ofKey hentry
      obtain ⟨_, -, hpayload⟩ := hpayload.bind
      exact ⟨(name, payload), hmem, Payload.gives_of_read hpayload⟩
  · obtain ⟨name, payload, hmem, h⟩ := Gives.ofKey h
    exact ⟨(name, payload), hmem, Payload.gives_of_bare h⟩
  · exact absurd h (not_gives_throw _ _ _)

@[simp] theorem Document.depth_tagged (name : String) (payload : Document) :
    (tagged name payload).depth = payload.depth + 1 := by
  simp [tagged, depth, depthOfEntries]

end TypeScribe.Json

namespace TypeScribe
open Json Json.Reader

/-! ## Values -/

/-- What the reader gives is written no deeper than brackets may be opened. -/
def WritesWithin (toDocument : α → Document) (read : Reader α) : Prop :=
  ∀ {depth x}, read.Gives depth x → (toDocument x).depth ≤ depth

theorem Identity.depth_toDocument (identity : Identity) : identity.toDocument.depth = 1 := rfl

theorem Identity.writesWithin : WritesWithin Identity.toDocument Identity.reader := by
  intro depth identity h
  obtain ⟨_, h, -⟩ := h.bind
  obtain ⟨depth', rfl, -⟩ := Fields.given_of_record h
  rw [Identity.depth_toDocument]
  omega

theorem Value.depthOfItems_toDocuments_le {values : List Value} {n : Nat} (h : ∀ value ∈ values, value.toDocument.depth ≤ n) :
    Document.depthOfItems (Value.toDocuments values) ≤ n := by
  induction values with
  | nil => exact Nat.zero_le n
  | cons value rest ih =>
    rw [List.forall_mem_cons] at h
    exact Nat.max_le.mpr ⟨h.1, ih h.2⟩

theorem Primitive.writesWithin_variant {read : Reader Value} (h : WritesWithin Value.toDocument read) :
    WritesWithin Primitive.toDocument (variant (Primitive.variants read)) := by
  intro depth p hp
  obtain ⟨entry, hmem, hgives⟩ := hp.variant
  simp only [Primitive.variants, List.mem_cons, List.not_mem_nil, or_false] at hmem
  rcases hmem with rfl | rfl | rfl | rfl | rfl | rfl | rfl | rfl | rfl | rfl | rfl | rfl
  iterate 8
    obtain rfl : p = _ := hgives
    exact Nat.zero_le depth
  · obtain ⟨depth', rfl, hgives⟩ := hgives
    obtain ⟨item, hitem, rfl⟩ := hgives.map
    simpa [Primitive.toDocument] using h hitem
  · obtain ⟨depth', rfl, hgives⟩ := hgives
    obtain ⟨item, hitem, rfl⟩ := hgives.map
    simpa [Primitive.toDocument] using h hitem
  · obtain ⟨depth', ⟨left, right, _⟩, rfl, hgiven, rfl⟩ := hgives
    simp only [Fields.given_required] at hgiven
    obtain ⟨hleft, hright, -⟩ := hgiven
    have := h hleft
    have := h hright
    simp only [Primitive.toDocument, Document.depth_tagged, Document.depth, Document.depthOfItems]
    omega
  · obtain ⟨depth', rfl, hgives⟩ := hgives
    obtain ⟨items, hlist, rfl⟩ := hgives.map
    obtain ⟨depth'', rfl, hitems⟩ := hlist.list
    have := Value.depthOfItems_toDocuments_le fun item hitem => h (hitems item hitem)
    simpa [Primitive.toDocument, Document.depth] using this

theorem Value.writesWithin_variant {read : Reader Value} (h : WritesWithin Value.toDocument read) :
    WritesWithin Value.toDocument (variant (Value.variants read)) := by
  intro depth value hvalue
  obtain ⟨entry, hmem, hgives⟩ := hvalue.variant
  simp only [Value.variants, List.mem_cons, List.not_mem_nil, or_false] at hmem
  rcases hmem with rfl | rfl | rfl | rfl | rfl | rfl | rfl | rfl
  · obtain ⟨depth', ⟨identity, name, _⟩, rfl, hgiven, rfl⟩ := hgives
    simp only [Fields.given_required] at hgiven
    obtain ⟨hidentity, -, -⟩ := hgiven
    have := Identity.writesWithin hidentity
    simp only [Value.toDocument, Document.depth_tagged, Document.depth, Document.depthOfEntries]
    omega
  · obtain ⟨depth', ⟨identity, arguments, _⟩, rfl, hgiven, rfl⟩ := hgives
    simp only [Fields.given_required] at hgiven
    obtain ⟨hidentity, harguments, -⟩ := hgiven
    have := Identity.writesWithin hidentity
    have := h harguments
    simp only [Value.toDocument, Document.depth_tagged, Document.depth, Document.depthOfEntries]
    omega
  · obtain ⟨depth', rfl, hgives⟩ := hgives
    obtain ⟨p, hp, rfl⟩ := hgives.map
    simpa [Value.toDocument] using Primitive.writesWithin_variant h hp
  · obtain ⟨depth', rfl, hgives⟩ := hgives
    obtain ⟨name, -, rfl⟩ := hgives.map
    simp [Value.toDocument, Document.depth]
  · obtain ⟨depth', ⟨name, component, _⟩, rfl, hgiven, rfl⟩ := hgives
    simp only [Fields.given_required] at hgiven
    obtain ⟨-, hcomponent, -⟩ := hgiven
    have := h hcomponent
    simp only [Value.toDocument, Document.depth_tagged, Document.depth, Document.depthOfEntries]
    omega
  · obtain ⟨depth', ⟨left, right, _⟩, rfl, hgiven, rfl⟩ := hgives
    simp only [Fields.given_required] at hgiven
    obtain ⟨hleft, hright, -⟩ := hgiven
    have := h hleft
    have := h hright
    simp only [Value.toDocument, Document.depth_tagged, Document.depth, Document.depthOfItems]
    omega
  · obtain ⟨depth', ⟨left, right, _⟩, rfl, hgiven, rfl⟩ := hgives
    simp only [Fields.given_required] at hgiven
    obtain ⟨hleft, hright, -⟩ := hgiven
    have := h hleft
    have := h hright
    simp only [Value.toDocument, Document.depth_tagged, Document.depth, Document.depthOfItems]
    omega
  · obtain rfl : value = .empty := hgives
    exact Nat.zero_le depth

theorem Value.writesWithin (levels : Nat) : WritesWithin Value.toDocument (Value.readerWithin levels) := by
  induction levels with
  | zero => exact fun h => absurd h (not_gives_throw _ _ _)
  | succ levels ih => exact Value.writesWithin_variant ih

/-! ## Descriptors -/

theorem Alternatives.depthOfItems_toDocuments_le {groups : List Alternatives} {n : Nat}
    (h : ∀ group ∈ groups, group.toDocument.depth ≤ n) :
    Document.depthOfItems (Alternatives.toDocuments groups) ≤ n := by
  induction groups with
  | nil => exact Nat.zero_le n
  | cons group rest ih =>
    rw [List.forall_mem_cons] at h
    exact Nat.max_le.mpr ⟨h.1, ih h.2⟩

theorem Alternatives.writesWithin (levels : Nat) :
    WritesWithin Alternatives.toDocument (Alternatives.readerWithin levels) := by
  induction levels with
  | zero => exact fun h => absurd h (not_gives_throw _ _ _)
  | succ levels ih =>
    intro depth alternatives h
    obtain ⟨entry, hmem, hgives⟩ := Gives.variant h
    simp only [Alternatives.variants, List.mem_cons, List.not_mem_nil, or_false] at hmem
    rcases hmem with rfl | rfl | rfl
    · obtain ⟨depth', ⟨name, value, _⟩, rfl, hgiven, rfl⟩ := hgives
      simp only [Fields.given_required] at hgiven
      obtain ⟨-, hvalue, -⟩ := hgiven
      have := Value.writesWithin _ hvalue
      simp only [Alternatives.toDocument, Document.depth_tagged, Document.depth, Document.depthOfEntries]
      omega
    · obtain ⟨depth', ⟨name, value, _⟩, rfl, hgiven, rfl⟩ := hgives
      simp only [Fields.given_required] at hgiven
      obtain ⟨-, hvalue, -⟩ := hgiven
      have := Value.writesWithin _ hvalue
      simp only [Alternatives.toDocument, Document.depth_tagged, Document.depth, Document.depthOfEntries]
      omega
    · obtain ⟨depth', rfl, hgives⟩ := hgives
      obtain ⟨groups, hlist, rfl⟩ := hgives.map
      obtain ⟨depth'', rfl, hgroups⟩ := hlist.list
      have := Alternatives.depthOfItems_toDocuments_le fun group hgroup => ih (hgroups group hgroup)
      simpa [Alternatives.toDocument, Document.depth] using this

theorem Constructor.writesWithin : WritesWithin Constructor.toDocument (variant Constructor.variants) := by
  intro depth constructor h
  obtain ⟨entry, hmem, hgives⟩ := h.variant
  simp only [Constructor.variants, List.mem_cons, List.not_mem_nil, or_false] at hmem
  rcases hmem with rfl | rfl | rfl | rfl
  · obtain ⟨depth', rfl, hgives⟩ := hgives
    obtain ⟨p, hp, rfl⟩ := hgives.map
    simpa [Constructor.toDocument] using Primitive.writesWithin_variant (Value.writesWithin _) hp
  · obtain ⟨depth', rfl, hgives⟩ := hgives
    obtain ⟨alternatives, halternatives, rfl⟩ := hgives.map
    simpa [Constructor.toDocument] using Alternatives.writesWithin _ halternatives
  · obtain ⟨depth', rfl, hgives⟩ := hgives
    obtain ⟨tags, hlist, rfl⟩ := hgives.map
    obtain ⟨depth'', rfl, -⟩ := hlist.list
    have : Document.depthOfItems (tags.map .text) ≤ depth'' :=
      Document.depthOfItems_le.mpr (List.forall_mem_map.mpr fun _ _ => Nat.zero_le _)
    simpa [Constructor.toDocument, Document.ofTexts, Document.depth] using this
  · obtain ⟨depth', ⟨typeName, alternatives, _⟩, rfl, hgiven, rfl⟩ := hgives
    simp only [Fields.given_required] at hgiven
    obtain ⟨-, halternatives, -⟩ := hgiven
    have := Alternatives.writesWithin _ halternatives
    simp only [Constructor.toDocument, Document.depth_tagged, Document.depth, Document.depthOfEntries]
    omega

theorem Descriptor.writesWithin : WritesWithin Descriptor.toDocument Descriptor.reader := by
  intro depth descriptor h
  obtain ⟨⟨identity, displayName, constructor, _⟩, hrecord, hdescriptor⟩ := h.bind
  obtain rfl := Gives.pure hdescriptor
  obtain ⟨depth', rfl, hgiven⟩ := Fields.given_of_record hrecord
  simp only [Fields.given_required] at hgiven
  obtain ⟨hidentity, -, hconstructor, -⟩ := hgiven
  have := Identity.writesWithin hidentity
  have := Constructor.writesWithin hconstructor
  simp only [Descriptor.toDocument, Document.depth, Document.depthOfEntries]
  omega

end TypeScribe
