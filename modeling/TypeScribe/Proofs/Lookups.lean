import TypeScribe.Proofs.Comparison

/-!
# Which locations a rendering looks up

A path to a type is made from two locations, that of the type which is rendered and that of the type which is referred
to. So of a dependency map a rendering reads the entries of these types only, and neither the order of the entries nor an
entry for any other type, valid or not, shows in what is rendered.
-/

namespace TypeScribe

/-! ## Entries of a dependency map -/

theorem Dependency.find?_put (entry : Dependency) (identity : Identity) (entries : List Dependency) :
    (entry.put entries).find? (·.identity == identity) =
      if entry.identity = identity then some entry else entries.find? (·.identity == identity) := by
  induction entries with
  | nil => by_cases h : entry.identity = identity <;> simp [put, h]
  | cons first rest ih =>
    unfold put
    split
    · next hsame => by_cases h : entry.identity = identity <;> simp [h, hsame]
    · next hdiffers =>
      rw [List.find?_cons, List.find?_cons, ih]
      by_cases h : entry.identity = identity
      · have hfirst : (first.identity == identity) = false := beq_eq_false_iff_ne.mpr (h ▸ hdiffers)
        simp [h, hfirst]
      · simp [h]

namespace DependencyMap

theorem get?_insert (map : DependencyMap) (identity : Identity) (location : Location) (other : Identity) :
    (map.insert identity location).get? other = if identity = other then some location else map.get? other := by
  rw [get?, insert, Dependency.find?_put]
  split
  · rfl
  · rfl

theorem get?_insertAll {map : DependencyMap} {entries : List Dependency} (h : (entries.map (·.identity)).Nodup)
    {identity : Identity} {location : Location} :
    (map.insertAll entries).get? identity = some location ↔
      ⟨identity, location⟩ ∈ entries ∨ identity ∉ entries.map (·.identity) ∧ map.get? identity = some location := by
  induction entries generalizing map with
  | nil => simp [insertAll]
  | cons entry rest ih =>
    rw [List.map_cons, List.nodup_cons] at h
    change ((map.insert entry.identity entry.location).insertAll rest).get? identity = some location ↔ _
    rw [ih h.2, get?_insert, List.map_cons, List.mem_cons, List.mem_cons, not_or]
    by_cases hsame : entry.identity = identity
    · subst hsame
      have habsent : (⟨entry.identity, location⟩ : Dependency) ∉ rest := fun hmem =>
        h.1 (List.mem_map.mpr ⟨_, hmem, rfl⟩)
      have hentry : (⟨entry.identity, location⟩ : Dependency) = entry ↔ entry.location = location := by
        obtain ⟨identity, location'⟩ := entry
        simp [eq_comm]
      simp [h.1, habsent, hentry]
    · have hentry : (⟨identity, location⟩ : Dependency) ≠ entry := fun h => hsame (h ▸ rfl)
      simp [hsame, Ne.symm hsame, hentry]

/-- Entries of different types locate the same in any order. -/
theorem get?_insertAll_of_perm (map : DependencyMap) {entries entries' : List Dependency} (hperm : entries.Perm entries')
    (h : (entries.map (·.identity)).Nodup) (identity : Identity) :
    (map.insertAll entries).get? identity = (map.insertAll entries').get? identity := by
  have hidentities := hperm.map (·.identity)
  refine Option.ext fun location => ?_
  rw [get?_insertAll h, get?_insertAll (hidentities.nodup_iff.mp h), hperm.mem_iff, hidentities.mem_iff]

theorem get?_insertAll_of_notMem (map : DependencyMap) {entries : List Dependency} {identity : Identity}
    (h : identity ∉ entries.map (·.identity)) : (map.insertAll entries).get? identity = map.get? identity := by
  induction entries generalizing map with
  | nil => rfl
  | cons entry rest ih =>
    rw [List.map_cons, List.mem_cons, not_or] at h
    change ((map.insert entry.identity entry.location).insertAll rest).get? identity = _
    rw [ih _ h.2, get?_insert, if_neg (Ne.symm h.1)]

/-- A path depends on two locations only. -/
theorem qualify_congr {map map' : DependencyMap} {current target : Identity}
    (hcurrent : map.get? current = map'.get? current) (htarget : map.get? target = map'.get? target) :
    map.qualify current target = map'.qualify current target := by
  simp only [qualify, validLocation, hcurrent, htarget]

end DependencyMap

/-! ## Renderings -/

def Options.withDependencies (options : Options) (entries : List Dependency) : Options :=
  { options with dependencies := options.dependencies.insertAll entries }

/-- The options transform names alike and locate alike the type and the types that it refers to. -/
structure Options.AgreeOn (descriptor : Descriptor) (options options' : Options) : Prop where
  fieldLabel : options.fieldLabel = options'.fieldLabel
  constructorTag : options.constructorTag = options'.constructorTag
  signatures : options.signatures = options'.signatures
  own : options.dependencies.get? descriptor.identity = options'.dependencies.get? descriptor.identity
  mentioned : ∀ identity, descriptor.references identity = true →
    options.dependencies.get? identity = options'.dependencies.get? identity

namespace Descriptor

variable {descriptor : Descriptor}

theorem samePaths_of_agreeOn {options options' : Options} (h : options.AgreeOn descriptor options') :
    Context.SamePaths Eq (descriptor.references · = true) (.ofDescriptor options descriptor)
      (.ofDescriptor options' descriptor) where
  refl _ := rfl
  misplaced _ _ := rfl
  paths identity hidentity name := by
    have hqualify := DependencyMap.qualify_congr h.own (h.mentioned identity hidentity)
    refine Matches.eq_iff.mpr ?_
    simp only [Context.pathTo, Context.ofDescriptor, hqualify]

/-- What is rendered for a type depends on the entries of a dependency map for the type and for those it refers to. So
the order in which entries are inserted does not matter, and entries for other types change nothing. -/
theorem rendering_dependsOn_mentioned (descriptor : Descriptor) :
    (∀ options options' : Options, options.AgreeOn descriptor options' →
      descriptor.SameRendering options descriptor options') ∧
    (∀ (options : Options) (entries entries' : List Dependency), entries.Perm entries' →
      (entries.map (·.identity)).Nodup →
        descriptor.SameRendering (options.withDependencies entries) descriptor (options.withDependencies entries')) ∧
    ∀ (options : Options) (entries : List Dependency),
      (∀ entry ∈ entries, entry.identity ≠ descriptor.identity ∧ descriptor.references entry.identity = false) →
        descriptor.SameRendering (options.withDependencies entries) descriptor options := by
  have same : ∀ options options' : Options, options.AgreeOn descriptor options' →
      descriptor.SameRendering options descriptor options' := fun options options' h =>
    (Alike.of_samePaths (samePaths_of_agreeOn h)).sameRendering h.fieldLabel h.constructorTag h.signatures
  refine ⟨same, fun options entries entries' hperm hnodup => ?_, fun options entries hothers => ?_⟩
  · have hget := options.dependencies.get?_insertAll_of_perm hperm hnodup
    exact same _ _ ⟨rfl, rfl, rfl, hget _, fun _ _ => hget _⟩
  · have hget : ∀ identity, identity = descriptor.identity ∨ descriptor.references identity = true →
        (options.withDependencies entries).dependencies.get? identity = options.dependencies.get? identity := by
      intro identity h
      refine DependencyMap.get?_insertAll_of_notMem _ fun hmem => ?_
      obtain ⟨entry, hentry, rfl⟩ := List.mem_map.mp hmem
      obtain ⟨hne, hunrelated⟩ := hothers entry hentry
      rcases h with h | h
      · exact hne h
      · simp [hunrelated] at h
    exact same _ _ ⟨rfl, rfl, rfl, hget _ (.inl rfl), fun identity h => hget identity (.inr h)⟩

def delivery : Descriptor :=
  .ofConstructor ⟨"main", "Orders", "Delivery"⟩ <| .value <| .ofFields "Delivery" [
    ("to", .reference ⟨"main", "Places", "Address"⟩), ("parcels", .primitive (.list (.parameter "a")))]

/-- An invalid location of a type that is not mentioned may come before or after the one that is, or be left out. It does
not make up for that one either. -/
theorem delivery_dependsOn_mentioned :
    let address : Dependency := ⟨⟨"main", "Places", "Address"⟩, ⟨["lib", "places"], ["Postal"]⟩⟩
    let broken : Dependency := ⟨⟨"main", "Other", "Broken"⟩, ⟨[], []⟩⟩
    let options : Options := {}
    (∃ text, delivery.renderDeclaration (options.withDependencies [address, broken]) = .ok text) ∧
    delivery.renderDeclaration (options.withDependencies [broken]) =
      .error (.unknownIdentity address.identity delivery.identity) ∧
    delivery.SameRendering (options.withDependencies [address, broken]) delivery
      (options.withDependencies [broken, address]) ∧
    delivery.SameRendering (options.withDependencies [broken]) delivery options ∧
    delivery.SameRendering (options.withDependencies [address, broken]) delivery (options.withDependencies [address]) := by
  intro address broken options
  obtain ⟨hagree, hperm, hothers⟩ := rendering_dependsOn_mentioned delivery
  refine ⟨⟨_, rfl⟩, rfl, hperm _ _ _ (.swap _ _ _) (by decide), hothers _ _ ?_,
    hagree _ _ ⟨rfl, rfl, rfl, rfl, fun identity h => ?_⟩⟩
  · rintro entry hentry
    obtain rfl := List.mem_singleton.mp hentry
    exact ⟨by decide, rfl⟩
  · have hidentity : ⟨"main", "Places", "Address"⟩ = identity := by
      simpa [delivery, references, Constructor.references, Alternatives.references, Alternatives.ofFields,
        Value.productOf, Value.nest, Value.reference, Value.references, Primitive.references, ofConstructor] using h
    subst hidentity
    rfl

end Descriptor

end TypeScribe
