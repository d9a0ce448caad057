import Mathlib.Order.Bounds.Defs
import TypeScribe.Proofs.LexicalScope
import TypeScribe.Proofs.Outcome

/-!
# What a reference is qualified with

A reference to another type is looked up before anything is named for it: the location of the code must be valid, then
that of the target, and a target without a location must come from the module of the code. `qualify_outcome` says which
fault each case has, and what is named otherwise: the path to the target from the top level, or what is left of it after
the submodules that both locations share, or nothing.
-/

namespace TypeScribe

/-! ## Locations -/

namespace Location

variable {here there location : Location}

def LeadsNowhere (location : Location) : Prop :=
  location.file = [] ∨ "" ∈ location.file ∨ "" ∈ location.submodules

theorem isValid_iff : location.isValid = true ↔ ¬ location.LeadsNowhere := by
  simp only [isValid, LeadsNowhere, Bool.and_eq_true, Bool.not_eq_true', List.isEmpty_eq_false_iff, List.all_eq_true,
    bne_iff_ne, not_or, and_assoc]
  refine and_congr_right fun _ => and_congr ?_ ?_
  · exact ⟨fun h hmem => h _ hmem rfl, fun h _ hmem heq => h (heq ▸ hmem)⟩
  · exact ⟨fun h hmem => h _ hmem rfl, fun h _ hmem heq => h (heq ▸ hmem)⟩

/-- The first `n` submodules of both locations are the same. -/
def ShareFirst (here there : Location) (n : Nat) : Prop :=
  n ≤ here.submodules.length ∧ n ≤ there.submodules.length ∧ here.submodules.take n = there.submodules.take n

theorem isPrefix_sharedFront_of_isPrefix {front as bs : List String} (h : front <+: as) (h' : front <+: bs) :
    front <+: sharedFront as bs := by
  induction front generalizing as bs with
  | nil => exact List.nil_prefix
  | cons name front ih =>
    obtain ⟨as, rfl⟩ := h
    obtain ⟨bs, rfl⟩ := h'
    rw [List.cons_append, List.cons_append, sharedFront, if_pos rfl]
    exact List.cons_prefix_cons.mpr ⟨rfl, ih (List.prefix_append front as) (List.prefix_append front bs)⟩

theorem isGreatest_sharedFront (here there : Location) :
    IsGreatest {n | here.ShareFirst there n} (sharedFront here.submodules there.submodules).length := by
  have hhere := isPrefix_sharedFront here.submodules there.submodules
  have hthere : sharedFront here.submodules there.submodules <+: there.submodules :=
    ⟨_, sharedFront_append_dropShared here.submodules there.submodules⟩
  refine ⟨⟨hhere.length_le, hthere.length_le, ?_⟩, ?_⟩
  · rw [← List.prefix_iff_eq_take.mp hhere, ← List.prefix_iff_eq_take.mp hthere]
  · rintro n ⟨hn, -, hsame⟩
    have hshared := isPrefix_sharedFront_of_isPrefix (List.take_prefix n here.submodules)
      (hsame ▸ List.take_prefix n there.submodules)
    have hlength := hshared.length_le
    rwa [List.length_take, Nat.min_eq_left hn] at hlength

/-- The modules are those from the file of the location down to it. -/
def IsSpelledBy (location : Location) (modules : List String) : Prop :=
  ∃ file ∈ location.file.getLast?, modules = (file :: location.submodules).map Name.upperFirst

theorem isSpelledBy_fullPath (h : ¬ location.LeadsNowhere) : location.IsSpelledBy location.fullPath := by
  have hfile : location.file ≠ [] := fun hnil => h (.inl hnil)
  refine ⟨_, List.getLast?_eq_some_getLast hfile, ?_⟩
  rw [fullPath, List.getLast?_eq_some_getLast hfile]
  rfl

end Location

/-! ## Outcomes -/

def Identity.SharesModule (a b : Identity) : Prop := a.package = b.package ∧ a.module = b.module

theorem Identity.sharesModule_iff {a b : Identity} : a.sharesModule b = true ↔ a.SharesModule b := by
  rw [sharesModule, Bool.and_eq_true, beq_iff_eq, beq_iff_eq, SharesModule]

namespace DependencyMap

variable {map : DependencyMap} {current target : Identity}

def Misplaces (map : DependencyMap) (identity : Identity) : Prop :=
  ∃ location, map.get? identity = some location ∧ location.LeadsNowhere

theorem validLocation_eq_error {identity : Identity} {fault : RenderError} :
    map.validLocation identity = .error fault ↔ map.Misplaces identity ∧ fault = .invalidLocation identity := by
  unfold validLocation Misplaces
  cases map.get? identity with
  | none => simp
  | some location =>
    have hvalid := @Location.isValid_iff location
    by_cases h : location.isValid
    · simp [h, hvalid.mp h]
    · simp [h, not_not.mp (mt hvalid.mpr h), eq_comm]

theorem validLocation_eq_ok {identity : Identity} {found : Option Location} :
    map.validLocation identity = .ok found ↔ ¬ map.Misplaces identity ∧ map.get? identity = found := by
  unfold validLocation Misplaces
  cases map.get? identity with
  | none => simp
  | some location =>
    have hvalid := @Location.isValid_iff location
    by_cases h : location.isValid
    · simp [h, hvalid.mp h]
    · simp [h, not_not.mp (mt hvalid.mpr h)]

theorem qualify_of_not_misplaces (hdistinct : current ≠ target) (hcurrent : ¬ map.Misplaces current)
    (htarget : ¬ map.Misplaces target) : map.qualify current target =
      match map.get? current, map.get? target with
      | _, none => if target.sharesModule current then .ok [] else .error (.unknownIdentity target current)
      | some here, some there => .ok (here.pathFrom there)
      | none, some there => .ok (if target.sharesModule current then [] else there.fullPath) := by
  rw [qualify, if_neg hdistinct, validLocation_eq_ok.mpr ⟨hcurrent, rfl⟩, validLocation_eq_ok.mpr ⟨htarget, rfl⟩]
  cases map.get? current <;> cases map.get? target <;> cases target.sharesModule current <;> rfl

/-- A reference fails for the location of the code, then for that of the target, then for want of a location. -/
theorem qualify_eq_error (hdistinct : current ≠ target) {fault : RenderError} :
    map.qualify current target = .error fault ↔
      map.Misplaces current ∧ fault = .invalidLocation current ∨
      ¬ map.Misplaces current ∧ map.Misplaces target ∧ fault = .invalidLocation target ∨
      ¬ map.Misplaces current ∧ map.get? target = none ∧ ¬ target.SharesModule current ∧
        fault = .unknownIdentity target current := by
  by_cases hcurrent : map.Misplaces current
  · have hfault : map.qualify current target = .error (.invalidLocation current) := by
      rw [qualify, if_neg hdistinct, validLocation_eq_error.mpr ⟨hcurrent, rfl⟩]
      rfl
    simp [hfault, hcurrent, eq_comm]
  by_cases htarget : map.Misplaces target
  · have hfault : map.qualify current target = .error (.invalidLocation target) := by
      rw [qualify, if_neg hdistinct, validLocation_eq_ok.mpr ⟨hcurrent, rfl⟩,
        validLocation_eq_error.mpr ⟨htarget, rfl⟩]
      rfl
    have hsome : map.get? target ≠ none := by
      obtain ⟨location, hlocation, -⟩ := htarget
      simp [hlocation]
    simp [hfault, hcurrent, htarget, hsome, eq_comm]
  rw [qualify_of_not_misplaces hdistinct hcurrent htarget, ← Identity.sharesModule_iff]
  cases map.get? target with
  | none => cases target.sharesModule current <;> simp [hcurrent, htarget, eq_comm]
  | some there => cases map.get? current <;> simp [hcurrent, htarget]

/-- What is named for a reference: what is left of the target's submodules after those that both locations share, if
both are in one file, the path to the target from the top level, if they are in different files or only the target has a
location and comes from another module, and otherwise nothing. -/
structure Qualifies (map : DependencyMap) (current target : Identity) (modules : List String) : Prop where
  sameFile : ∀ here there, map.get? current = some here → map.get? target = some there → here.file = there.file →
    ∃ k, IsGreatest {n | here.ShareFirst there n} k ∧
      (here.submodules.take k).map Name.upperFirst ++ modules = there.submodules.map Name.upperFirst
  otherFile : ∀ here there, map.get? current = some here → map.get? target = some there → here.file ≠ there.file →
    there.IsSpelledBy modules
  otherModule : ∀ there, map.get? current = none → map.get? target = some there → ¬ target.SharesModule current →
    there.IsSpelledBy modules
  nearby : map.get? target = none ∨ map.get? current = none ∧ target.SharesModule current → modules = []

/-- Inside one file, the shared submodules and what is named lead to the target. -/
theorem take_append_pathFrom {here there : Location} (hfile : here.file = there.file) :
    (here.submodules.take (Location.sharedFront here.submodules there.submodules).length).map Name.upperFirst ++
      here.pathFrom there = there.submodules.map Name.upperFirst := by
  rw [← List.prefix_iff_eq_take.mp (Location.isPrefix_sharedFront _ _), Location.pathFrom, if_pos hfile, ← List.map_append,
    Location.sharedFront_append_dropShared]

theorem qualifies_of_qualify (hdistinct : current ≠ target) {modules : List String}
    (h : map.qualify current target = .ok modules) : map.Qualifies current target modules := by
  have hcurrent : ¬ map.Misplaces current := fun hcurrent => by
    rw [(qualify_eq_error hdistinct).mpr (.inl ⟨hcurrent, rfl⟩)] at h
    cases h
  have htarget : ¬ map.Misplaces target := fun htarget => by
    rw [(qualify_eq_error hdistinct).mpr (.inr (.inl ⟨hcurrent, htarget, rfl⟩))] at h
    cases h
  rw [qualify_of_not_misplaces hdistinct hcurrent htarget] at h
  constructor
  · intro here there hhere hthere hfile
    simp only [hhere, hthere, Except.ok.injEq] at h
    subst h
    exact ⟨_, here.isGreatest_sharedFront there, take_append_pathFrom hfile⟩
  · intro here there hhere hthere hfile
    simp only [hhere, hthere, Except.ok.injEq] at h
    subst h
    rw [Location.pathFrom, if_neg hfile]
    exact Location.isSpelledBy_fullPath fun hnowhere => htarget ⟨there, hthere, hnowhere⟩
  · intro there hhere hthere hmodule
    rw [← Identity.sharesModule_iff] at hmodule
    simp only [hhere, hthere, if_neg hmodule, Except.ok.injEq] at h
    subst h
    exact Location.isSpelledBy_fullPath fun hnowhere => htarget ⟨there, hthere, hnowhere⟩
  · rintro (hnone | ⟨hnone, hmodule⟩)
    · simp only [hnone] at h
      split at h <;> simp_all
    · rw [← Identity.sharesModule_iff] at hmodule
      simp only [hnone, hmodule] at h
      split at h <;> simp_all

theorem qualifies_self (map : DependencyMap) (identity : Identity) : map.Qualifies identity identity [] := by
  constructor
  · intro here there hhere hthere hfile
    obtain rfl := Option.some.inj (hhere.symm.trans hthere)
    refine ⟨here.submodules.length, ⟨⟨Nat.le_refl _, Nat.le_refl _, rfl⟩, fun n hn => hn.1⟩, ?_⟩
    rw [List.take_length, List.append_nil]
  · intro here there hhere hthere hfile
    obtain rfl := Option.some.inj (hhere.symm.trans hthere)
    exact absurd rfl hfile
  · intro there hhere hthere
    cases hhere.symm.trans hthere
  · exact fun _ => rfl

/-- A type is always in sight of its own code. Any other type is out of reach exactly if a location leads nowhere, that
of the code before that of the type, or if the type has no location and comes from another module. Where a type is
reached, its location and that of the code say what is named. -/
theorem qualify_outcome (map : DependencyMap) (current target : Identity) :
    (current = target → Succeeds (map.qualify current target)) ∧
    (current ≠ target → ∀ fault, map.qualify current target = .error fault ↔
      map.Misplaces current ∧ fault = .invalidLocation current ∨
      ¬ map.Misplaces current ∧ map.Misplaces target ∧ fault = .invalidLocation target ∨
      ¬ map.Misplaces current ∧ map.get? target = none ∧ ¬ target.SharesModule current ∧
        fault = .unknownIdentity target current) ∧
    ∀ modules, map.qualify current target = .ok modules → map.Qualifies current target modules := by
  by_cases hdistinct : current = target
  · subst hdistinct
    have hself : map.qualify current current = .ok [] := by rw [qualify, if_pos rfl]; rfl
    refine ⟨fun _ => ⟨[], hself⟩, fun hne => absurd rfl hne, fun modules h => ?_⟩
    obtain rfl := Except.ok.inj (hself.symm.trans h)
    exact qualifies_self map current
  · exact ⟨fun h => absurd h hdistinct, fun _ _ => qualify_eq_error hdistinct, fun _ => qualifies_of_qualify hdistinct⟩

/-- From the module `A.X` only the last name of `A.X.B` is named: the locations share one submodule. -/
theorem between_qualifies_inner :
    twoNamesakes.Qualifies ⟨"main", "Types", "Between"⟩ ⟨"main", "Types", "Inner"⟩ ["B"] :=
  (qualify_outcome twoNamesakes ⟨"main", "Types", "Between"⟩ ⟨"main", "Types", "Inner"⟩).2.2 ["B"] (by decide)

end DependencyMap

end TypeScribe
