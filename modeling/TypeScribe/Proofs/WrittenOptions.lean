import TypeScribe.Proofs.WrittenDescriptors
import TypeScribe.Proofs.WrittenNumbers
import TypeScribe.Wire.Options

/-!
# Options survive their JSON form

Options are written with all their fields: a transform as the list of its steps, a dependency map as the list of its
entries. A step names its kind first, and what follows is a text or a number. The entries of a map have distinct
identities, so inserting them one after the other fills the map that they came from. `Options.parse_print` puts these
together for all options, whatever changes led to them.
-/

namespace TypeScribe

open Json Json.Reader

/-! ## Values that name their kind -/

namespace Json

/-- The entries can stand after the kind: none of them is the kind, and each holds a text or a number. -/
def FollowKind (entries : List (String × Document)) : Prop :=
  ∀ entry ∈ entries, entry.1 ≠ kindField ∧ entry.2.IsAtom

theorem FollowKind.depthOfEntries {entries : List (String × Document)} (h : FollowKind entries) :
    Document.depthOfEntries entries = 0 := by
  induction entries with
  | nil => rfl
  | cons entry rest ih =>
    rw [FollowKind, List.forall_mem_cons] at h
    rw [Document.depthOfEntries, h.1.2.depth, ih h.2, Nat.max_zero]

theorem FollowKind.single {name : String} {document : Document} (hname : name ≠ kindField) (h : document.IsAtom) :
    FollowKind [(name, document)] :=
  List.forall_mem_singleton.mpr ⟨hname, h⟩

namespace Reader

variable {kind : Reader κ} {k : κ} {name : String} {entries : List (String × Document)}

theorem exists_endsNumber (entries : List (String × Document)) (rest : List Char) :
    ∃ c following, (entries.flatMap fun next => ',' :: Document.printEntry next) ++ '}' :: rest = c :: following ∧
      EndsNumber c := by
  cases entries with
  | nil => exact ⟨'}', rest, rfl, by decide⟩
  | cons entry following => exact ⟨',', _, rfl, by decide⟩

theorem kindAndEntries_further (h : FollowKind entries) {steps : Nat} (hsteps : entries.length < steps) (depth : Nat)
    (rest : List Char) :
    kindAndEntries kind steps false (some k) depth
      ((entries.flatMap fun next => ',' :: Document.printEntry next) ++ '}' :: rest) =
      .ok ((some k, entries), '}' :: rest) := by
  induction entries generalizing steps with
  | nil =>
    obtain ⟨steps, rfl⟩ := Nat.exists_eq_succ_of_ne_zero (Nat.ne_of_gt hsteps)
    rfl
  | cons entry following ih =>
    obtain ⟨steps, rfl⟩ := Nat.exists_eq_succ_of_ne_zero (Nat.ne_of_gt (Nat.lt_of_le_of_lt (Nat.zero_le _) hsteps))
    rw [FollowKind, List.forall_mem_cons] at h
    rw [List.length_cons, Nat.succ_lt_succ_iff] at hsteps
    have hfollowing := ih h.2 hsteps
    -- a number in this entry ends at the comma or bracket after it
    obtain ⟨c, chars, htail, hends⟩ := exists_endsNumber following rest
    have hinput : ((entry :: following).flatMap fun next => ',' :: Document.printEntry next) ++ '}' :: rest =
        ',' :: (escapedText entry.1 ++ ':' :: (entry.2.print ++ c :: chars)) := by
      rw [← htail]
      simp [Document.printEntry]
    rw [htail] at hfollowing
    rw [hinput, kindAndEntries, bind_of_ok (nextKey_further entry.1 depth _), if_pos rfl,
      bind_of_ok (key_escapedText entry.1 depth _), if_neg h.1.1, bind_of_ok (colon_apply depth _),
      bind_of_ok (h.1.2.document hends depth chars), bind_of_ok hfollowing]
    rfl

theorem kindAndEntries_written (hkind : ∀ depth rest, kind depth (escapedText name ++ rest) = .ok (k, rest))
    (h : FollowKind entries) {steps : Nat} (hsteps : entries.length + 1 < steps) (depth : Nat) (rest : List Char) :
    kindAndEntries kind steps true none depth
      (Document.printEntries ((kindField, .text name) :: entries) ++ '}' :: rest) =
      .ok ((some k, entries), '}' :: rest) := by
  obtain ⟨steps, rfl⟩ := Nat.exists_eq_succ_of_ne_zero (Nat.ne_of_gt (Nat.lt_of_le_of_lt (Nat.zero_le _) hsteps))
  rw [Nat.succ_lt_succ_iff] at hsteps
  have hinput : Document.printEntries ((kindField, .text name) :: entries) ++ '}' :: rest =
      escapedText kindField ++ ':' :: (escapedText name ++
        ((entries.flatMap fun next => ',' :: Document.printEntry next) ++ '}' :: rest)) := by
    simp [Document.printEntries_cons, Document.printEntry, Document.print]
  rw [hinput, kindAndEntries, bind_of_ok (nextKey_first kindField depth _), if_pos rfl,
    bind_of_ok (key_escapedText kindField depth _), if_pos rfl]
  change (colon >>= fun _ => kind >>= fun k => kindAndEntries kind steps false (some k)) depth _ = _
  rw [bind_of_ok (colon_apply depth _), bind_of_ok (hkind depth _)]
  exact kindAndEntries_further h hsteps depth rest

/-- A value that names its kind first is read back with the entries after the kind. -/
theorem kinded_readsBack {what : String} (hkind : ∀ depth rest, kind depth (escapedText name ++ rest) = .ok (k, rest))
    (h : FollowKind entries) (depth : Nat) :
    ReadsBack (kinded what kind) depth (.map ((kindField, .text name) :: entries)) (k, .entries entries) := by
  intro rest
  let all : List (String × Document) := (kindField, .text name) :: entries
  have hprint : (Document.map all).print ++ rest = '{' :: (Document.printEntries all ++ '}' :: rest) := by
    simp [Document.print]
  have hdepth : (Document.map all).depth = 0 + 1 := by
    simp [all, Document.depth, Document.depthOfEntries, h.depthOfEntries]
  have hsteps : entries.length + 1 < (Document.printEntries all ++ '}' :: rest).length + 1 :=
    Nat.lt_succ_of_le (Fields.length_le_length_printEntries all rest)
  have hinside : nested (bounded fun steps => kindAndEntries kind steps true none) depth
      ('{' :: (Document.printEntries all ++ '}' :: rest)) = outcome (0 + 1) depth (some k, entries) ('}' :: rest) := by
    refine nested_apply fun depth' _ => ?_
    rw [outcome, if_pos (Nat.zero_le depth')]
    exact kindAndEntries_written hkind h hsteps depth' rest
  rw [hprint, kinded, bind_of_ok (start_openMap depth _), hdepth, ← Nat.max_zero (0 + 1)]
  exact bind_of_outcome hinside rfl

theorem boolean_readsBack (b : Bool) (depth : Nat) : ReadsBack boolean depth (.boolean b) b := by
  intro rest
  cases b <;> rfl

end Reader

end Json

/-! ## Transforms of names -/

theorem StepForm.reader_apply {name : String} {form : StepForm} (h : NameStep.forms.lookup name = some form)
    (depth : Nat) (rest : List Char) : StepForm.reader depth (escapedText name ++ rest) = .ok (form, rest) := by
  have htext : textAs "variant identifier" depth (escapedText name ++ rest) = .ok (name, rest) := by
    rw [textAs, bind_of_ok (start_escapedText name depth rest)]
    rfl
  rw [StepForm.reader, bind_of_ok htext]
  simp only [h]
  rfl

namespace NameStep

theorem nodup_forms : (forms.map (·.1)).Nodup := by
  simp [forms]

/-- A step is read back if its form makes it from the fields that it is written with. -/
theorem readsBack_of_form {name : String} {form : StepForm} {entries : List (String × Document)} {step : NameStep}
    (hform : forms.lookup name = some form) (h : FollowKind entries) (hstep : form (.entries entries) = .ok step)
    (depth : Nat) : ReadsBack reader depth (.map ((kindField, .text name) :: entries)) step := by
  refine (kinded_readsBack (StepForm.reader_apply hform) h depth).bind fun rest => ?_
  change (liftM (form (.entries entries)) : Reader NameStep) depth rest = _
  rw [hstep]
  rfl

theorem readsBack (step : NameStep) (depth : Nat) : ReadsBack reader depth step.toDocument step := by
  have hform := @lookup_of_getElem? _ _ nodup_forms
  have hnone : FollowKind [] := List.forall_mem_nil _
  cases step with
  | dropPrefix front =>
    exact readsBack_of_form (hform (i := 0) rfl) (.single (by decide) (.text front)) rfl depth
  | dropChars count =>
    have hcount : count.toNat ≤ maxWord := Nat.le_of_lt_succ count.toNat_lt
    refine readsBack_of_form (hform (i := 1) rfl) (.single (by decide) (.natural hcount)) ?_ depth
    simp [Remainder.field, Remainder.fieldOfEntries, Document.asCount, Except.map, bind, Except.bind]
  | snakeCase => exact readsBack_of_form (hform (i := 2) rfl) hnone rfl depth
  | camelCase => exact readsBack_of_form (hform (i := 3) rfl) hnone rfl depth
  | pascalCase => exact readsBack_of_form (hform (i := 4) rfl) hnone rfl depth
  | kebabCase => exact readsBack_of_form (hform (i := 5) rfl) hnone rfl depth
  | lowercase => exact readsBack_of_form (hform (i := 6) rfl) hnone rfl depth
  | uppercase => exact readsBack_of_form (hform (i := 7) rfl) hnone rfl depth
  | lowerFirst => exact readsBack_of_form (hform (i := 8) rfl) hnone rfl depth
  | upperFirst => exact readsBack_of_form (hform (i := 9) rfl) hnone rfl depth

theorem exists_toDocument (step : NameStep) : ∃ entries, step.toDocument = .map entries := by
  cases step <;> exact ⟨_, rfl⟩

end NameStep

theorem NameTransform.readsBack (transform : NameTransform) (depth : Nat) :
    ReadsBack reader depth transform.toDocument transform := by
  refine ReadsBack.bind (x := transform.steps) ?_ fun _ => rfl
  refine list_readsBack (fun depth' _ => ?_) (List.forall_mem_map.mpr fun step _ => ?_)
  · exact List.forall₂_map_left_iff.mpr (List.forall₂_same.mpr fun step _ => step.readsBack depth')
  · obtain ⟨entries, hentries⟩ := step.exists_toDocument
    rw [hentries]
    exact .map entries

theorem NameTransform.startsValue (transform : NameTransform) : transform.toDocument.StartsValue := .sequence _

/-! ## Dependency maps -/

theorem Location.readsBack (location : Location) (depth : Nat) :
    ReadsBack Location.reader depth location.toDocument location := by
  refine ReadsBack.bind (x := (location.file, location.submodules, ())) ?_ fun _ => rfl
  refine Fields.record_readsBack (by simp [Fields.names]) fun depth' _ => ?_
  exact .cons (.sequence _) (texts_readsBack _ depth') <| .cons (.sequence _) (texts_readsBack _ depth') .nil

namespace Dependency

theorem readsBack (entry : Dependency) (depth : Nat) : ReadsBack Dependency.reader depth entry.toDocument entry := by
  refine ReadsBack.bind (x := (entry.identity, entry.location, ())) ?_ fun _ => rfl
  refine Fields.record_readsBack (by simp [Fields.names]) fun depth' _ => ?_
  exact .cons (.map _) (entry.identity.readsBack depth') <| .cons (.map _) (entry.location.readsBack depth') .nil

/-- The JSON form of a list of entries, in which a type may come up again. -/
def listDocument (entries : List Dependency) : Document := .sequence (entries.map toDocument)

theorem list_readsBack (entries : List Dependency) (depth : Nat) :
    ReadsBack (list reader) depth (listDocument entries) entries := by
  refine Reader.list_readsBack (fun depth' _ => ?_) (List.forall_mem_map.mpr fun _ _ => .map _)
  exact List.forall₂_map_left_iff.mpr (List.forall₂_same.mpr fun entry _ => entry.readsBack depth')

theorem put_of_not_mem {entry : Dependency} {entries : List Dependency}
    (h : entry.identity ∉ entries.map (·.identity)) : entry.put entries = entries ++ [entry] := by
  induction entries with
  | nil => rfl
  | cons first rest ih =>
    rw [List.map_cons, List.mem_cons, not_or] at h
    rw [put, if_neg (Ne.symm h.1), ih h.2, List.cons_append]

/-- A list of entries nests four brackets deep: the list, an entry, its location and a path. -/
theorem depth_listDocument_le (entries : List Dependency) : (listDocument entries).depth ≤ 4 := by
  have htexts : ∀ texts : List String, (Document.ofTexts texts).depth ≤ 1 := fun texts =>
    Nat.succ_le_succ (Document.depthOfItems_le.mpr (List.forall_mem_map.mpr fun _ _ => Nat.le_refl 0))
  have hentry : ∀ entry : Dependency, entry.toDocument.depth ≤ 3 := by
    intro entry
    have hfile := htexts entry.location.file
    have hsubmodules := htexts entry.location.submodules
    simp only [toDocument, Location.toDocument, Identity.toDocument, Document.depth, Document.depthOfEntries]
    omega
  exact Nat.succ_le_succ (Document.depthOfItems_le.mpr (List.forall_mem_map.mpr fun entry _ => hentry entry))

end Dependency

namespace DependencyMap

/-- Entries for further types, each once, are kept in order after the entries of the map. -/
theorem entries_insertAll {map : DependencyMap} {entries : List Dependency}
    (h : ((map.entries ++ entries).map (·.identity)).Nodup) : (map.insertAll entries).entries = map.entries ++ entries := by
  -- the map that is filled so far holds none of the types that are left
  induction entries generalizing map with
  | nil => exact (List.append_nil _).symm
  | cons entry rest ih =>
    have hnew : entry.identity ∉ map.entries.map (·.identity) := by
      rw [List.map_append, List.map_cons] at h
      exact fun hmem => (List.nodup_append.mp h).2.2 _ hmem _ List.mem_cons_self rfl
    have hentries : (map.insert entry.identity entry.location).entries = map.entries ++ [entry] :=
      Dependency.put_of_not_mem hnew
    change ((map.insert entry.identity entry.location).insertAll rest).entries = _
    rw [ih (by rwa [hentries, List.append_assoc]), hentries, List.append_assoc]
    rfl

theorem ofEntries_entries (map : DependencyMap) : ofEntries map.entries = map := by
  have hentries : (ofEntries map.entries).entries = map.entries := entries_insertAll map.nodup
  cases map
  cases h : ofEntries _
  rw [h] at hentries
  subst hentries
  rfl

/-- A list of entries is read as the map that they fill. -/
theorem list_readsBack (entries : List Dependency) (depth : Nat) :
    ReadsBack reader depth (Dependency.listDocument entries) (ofEntries entries) :=
  (Dependency.list_readsBack entries depth).bind fun _ => rfl

end DependencyMap

/-! ## Options -/

namespace Options

/-- The JSON form of options that list entries for their dependency map. -/
def listing (options : Options) (entries : List Dependency) : Document :=
  .map [("field_label", options.fieldLabel.toDocument), ("constructor_tag", options.constructorTag.toDocument),
    ("dependencies", Dependency.listDocument entries), ("signatures", .boolean options.signatures)]

theorem listing_readsBack (options : Options) (entries : List Dependency) (depth : Nat) :
    ReadsBack reader depth (options.listing entries) { options with dependencies := .ofEntries entries } := by
  refine ReadsBack.bind
    (x := (options.fieldLabel, options.constructorTag, .ofEntries entries, options.signatures, ())) ?_ fun _ => rfl
  refine Fields.record_readsBack (by simp [Fields.names]) fun depth' _ => ?_
  exact .cons options.fieldLabel.startsValue (options.fieldLabel.readsBack depth') <|
    .cons options.constructorTag.startsValue (options.constructorTag.readsBack depth') <|
    .cons (.sequence _) (DependencyMap.list_readsBack entries depth') <|
    .cons (.boolean _) (boolean_readsBack _ depth') .nil

theorem depth_listing_le (options : Options) (entries : List Dependency) :
    (options.listing entries).depth ≤ depthLimit := by
  have hstep : ∀ step : NameStep, step.toDocument.depth ≤ 1 := by
    intro step
    cases step <;> simp [NameStep.toDocument, Document.depth, Document.depthOfEntries]
  have htransform : ∀ transform : NameTransform, transform.toDocument.depth ≤ 2 := fun transform =>
    Nat.succ_le_succ (Document.depthOfItems_le.mpr (List.forall_mem_map.mpr fun step _ => hstep step))
  have hmap := Dependency.depth_listDocument_le entries
  have hlabel := htransform options.fieldLabel
  have htag := htransform options.constructorTag
  simp only [listing, Document.depth, Document.depthOfEntries, depthLimit]
  omega

theorem parse_listing (options : Options) (entries : List Dependency) :
    parse (options.listing entries).toText = .ok { options with dependencies := .ofEntries entries } := by
  rw [parse, run_toText (options.listing_readsBack entries depthLimit), if_pos (options.depth_listing_le entries)]

theorem parse_print (options : Options) : parse options.print = .ok options := by
  have h := options.parse_listing options.dependencies.entries
  rwa [DependencyMap.ofEntries_entries] at h

/-- Whatever changes led to some options, their text is read, and what is read holds the same transforms, the same
entries in the same order and the same flag. So it gives every key, tag and location that the options give, has the same
text, and stays the same under all later changes. -/
theorem changes_surviveText (start : Options) (changes : List Change) :
    ∃ read, parse (start.changeAll changes).print = .ok read ∧
      read.fieldLabel.steps = (start.changeAll changes).fieldLabel.steps ∧
      read.constructorTag.steps = (start.changeAll changes).constructorTag.steps ∧
      read.dependencies.entries = (start.changeAll changes).dependencies.entries ∧
      read.signatures = (start.changeAll changes).signatures ∧
      (∀ name, read.jsonKey name = (start.changeAll changes).jsonKey name) ∧
      (∀ name, read.jsonTag name = (start.changeAll changes).jsonTag name) ∧
      (∀ identity, read.dependencies.get? identity = (start.changeAll changes).dependencies.get? identity) ∧
      read.print = (start.changeAll changes).print ∧
      ∀ later, read.changeAll later = start.changeAll (changes ++ later) := by
  refine ⟨_, parse_print _, rfl, rfl, rfl, rfl, fun _ => rfl, fun _ => rfl, fun _ => rfl, rfl, fun later => ?_⟩
  exact (List.foldl_append ..).symm

end Options

end TypeScribe
