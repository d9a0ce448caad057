import Mathlib
import TypeScribe.Proofs.Labels

/-!
# Case styles that give names back

A name without separators is parted at its capitals: each of them becomes a mark and the small letter. Where each mark
stands before a small letter, joining the words undoes that. So `toSnake` and `toKebab` keep names in `camelCase` apart.
-/

namespace TypeScribe.Name

/-! ## Separators -/

theorem isAlpha_of_isLower {c : Char} (h : c.isLower = true) : c.isAlpha = true := Ocaml.Lexer.isAlpha_iff.mpr (.inr h)

theorem isAlpha_of_isUpper {c : Char} (h : c.isUpper = true) : c.isAlpha = true := Ocaml.Lexer.isAlpha_iff.mpr (.inl h)

theorem isSeparator_iff {c : Char} : isSeparator c = true ↔ (c = '_' ∨ c = '-') ∨ c = '.' := by
  simp only [isSeparator, Bool.or_eq_true, beq_iff_eq]

theorem isSeparator_eq_false_of_isAlpha {c : Char} (h : c.isAlpha = true) : isSeparator c = false := by
  rw [Bool.eq_false_iff]
  intro hsep
  obtain (rfl | rfl) | rfl := isSeparator_iff.mp hsep <;> exact absurd h (by decide)

theorem isUpper_eq_false_of_isLower {c : Char} (h : c.isLower = true) : c.isUpper = false :=
  Bool.eq_false_iff.mpr (Char.not_isUpper_of_isLower h)

theorem isSeparator_eq_false_of_isLower {c : Char} (h : c.isLower = true) : isSeparator c = false :=
  isSeparator_eq_false_of_isAlpha (isAlpha_of_isLower h)

theorem toLower_of_isLower {c : Char} (h : c.isLower = true) : c.toLower = c :=
  Char.toLower_eq_of_not_isUpper (Char.not_isUpper_of_isLower h)

theorem toUpper_of_isUpper {c : Char} (h : c.isUpper = true) : c.toUpper = c :=
  Char.toUpper_eq_of_not_isLower (Char.not_isLower_of_isUpper h)

theorem isWordChar_toUpper {c : Char} (h : c.isLower = true) : Ocaml.Lexer.isWordChar c.toUpper = true := by
  refine Ocaml.Lexer.isWordChar_of_first (.inl ?_)
  rw [Char.isAlpha_toUpper_eq_isAlpha, isAlpha_of_isLower h]

@[simp] theorem isSeparator_toUpper (c : Char) : isSeparator c.toUpper = isSeparator c := by
  by_cases h : c.isLower
  · have hupper : c.toUpper.isAlpha = true := by rw [Char.isAlpha_toUpper_eq_isAlpha, isAlpha_of_isLower h]
    rw [isSeparator_eq_false_of_isAlpha hupper, isSeparator_eq_false_of_isLower h]
  · rw [Char.toUpper_eq_of_not_isLower h]

@[simp] theorem isSeparator_toLower (c : Char) : isSeparator c.toLower = isSeparator c := by
  by_cases h : c.isUpper
  · have hlower : c.toLower.isAlpha = true := by rw [Char.isAlpha_toLower_eq_isAlpha, isAlpha_of_isUpper h]
    rw [isSeparator_eq_false_of_isAlpha hlower, isSeparator_eq_false_of_isAlpha (isAlpha_of_isUpper h)]
  · rw [Char.toLower_eq_of_not_isUpper h]

theorem isSeparator_of_mem_joinWords {raise : Bool} {cs : List Char} {d : Char} (h : d ∈ joinWords raise cs) :
    isSeparator d = false := by
  fun_induction joinWords raise cs with
  | case1 => cases h
  | case2 raise c rest hsep ih => exact ih h
  | case3 raise c rest hsep ih =>
    rw [Bool.not_eq_true] at hsep
    rcases List.mem_cons.mp h with rfl | h
    · split <;> simpa using hsep
    · exact ih h

/-! ## Marks -/

/-- How a character of a name without separators is written: a capital becomes the mark and the small letter. -/
def partedChar (mark c : Char) : List Char := if c.isUpper then [mark, c.toLower] else [c]

theorem of_mem_partedChar {mark c d : Char} (hc : isSeparator c = false) (hd : d ∈ partedChar mark c) :
    d = mark ∨ d.isUpper = false ∧ isSeparator d = false := by
  unfold partedChar at hd
  split at hd
  · rcases List.mem_cons.mp hd with rfl | hd
    · exact .inl rfl
    · rw [List.mem_singleton.mp hd]
      exact .inr ⟨Char.isUpper_toLower_eq_false c, by rw [isSeparator_toLower, hc]⟩
  · next hupper =>
    rw [List.mem_singleton.mp hd]
    exact .inr ⟨Bool.eq_false_iff.mpr hupper, hc⟩

theorem of_mem_flatMap_partedChar {mark d : Char} {cs : List Char} (hcs : ∀ c ∈ cs, isSeparator c = false)
    (hd : d ∈ cs.flatMap (partedChar mark)) : d = mark ∨ d.isUpper = false ∧ isSeparator d = false := by
  obtain ⟨c, hc, hd⟩ := List.mem_flatMap.mp hd
  exact of_mem_partedChar (hcs c hc) hd

/-- Each mark stands right before a small letter. -/
def MarksLead (mark : Char) : List Char → Prop
  | [] => True
  | c :: rest => (c = mark → rest.head?.any Char.isLower = true) ∧ MarksLead mark rest

instance decidableMarksLead (mark : Char) : ∀ cs, Decidable (MarksLead mark cs)
  | [] => inferInstanceAs (Decidable True)
  | c :: rest =>
    have := decidableMarksLead mark rest
    inferInstanceAs (Decidable ((c = mark → _) ∧ MarksLead mark rest))

section
variable {mark : Char} (hmark : isSeparator mark = true)
include hmark

theorem ne_mark {c : Char} (h : isSeparator c = false) : c ≠ mark := by
  rintro rfl
  rw [hmark] at h
  cases h

/-- After a character that is no mark, each character is written by itself. -/
theorem partWords_eq_flatMap {last : Char} {cs : List Char} (hlast : last ≠ mark)
    (hcs : ∀ c ∈ cs, isSeparator c = false) : partWords mark (some last) cs = cs.flatMap (partedChar mark) := by
  induction cs generalizing last with
  | nil => rfl
  | cons c rest ih =>
    rw [List.forall_mem_cons] at hcs
    rw [partWords, List.flatMap_cons, partedChar]
    by_cases hc : c.isUpper
    · have hlower : isSeparator c.toLower = false := by rw [isSeparator_toLower, hcs.1]
      simp [hc, hlast, ih (ne_mark hmark hlower) hcs.2]
    · have hother : ¬ (c = '_' ∨ c = '-') := fun h => Bool.eq_false_iff.mp hcs.1 (isSeparator_iff.mpr (.inl h))
      simp [hc, hother, ih (ne_mark hmark hcs.1) hcs.2]

/-- A name that starts with a letter and has no separators loses the first capital, and is parted at the others. -/
theorem partWords_cons {c : Char} {rest : List Char} (hc : c.isAlpha = true)
    (hrest : ∀ d ∈ rest, isSeparator d = false) :
    partWords mark none (c :: rest) = c.toLower :: rest.flatMap (partedChar mark) := by
  have hsep := isSeparator_eq_false_of_isAlpha hc
  have hlower : isSeparator c.toLower = false := by rw [isSeparator_toLower, hsep]
  have hrest := partWords_eq_flatMap hmark (ne_mark hmark hlower) hrest
  rw [partWords, ← hrest]
  by_cases hupper : c.isUpper
  · simp [hupper]
  · have hother : ¬ (c = '_' ∨ c = '-') := fun h => Bool.eq_false_iff.mp hsep (isSeparator_iff.mpr (.inl h))
    simp [hupper, hother, Char.toLower_eq_of_not_isUpper hupper]

theorem joinWords_flatMap_partedChar {cs : List Char} (hcs : ∀ c ∈ cs, isSeparator c = false) :
    joinWords false (cs.flatMap (partedChar mark)) = cs := by
  induction cs with
  | nil => rfl
  | cons c rest ih =>
    rw [List.forall_mem_cons] at hcs
    rw [List.flatMap_cons, partedChar]
    by_cases hc : c.isUpper
    · simp [hc, joinWords, hmark, hcs.1, toUpper_of_isUpper hc, ih hcs.2]
    · simp [hc, joinWords, hcs.1, Char.toLower_eq_of_not_isUpper hc, ih hcs.2]

/-- Parting the joined words puts the marks back: one before the first word too if it was raised, as if it followed one. -/
theorem flatMap_partedChar_joinWords {cs : List Char} (raise : Bool)
    (hfirst : raise = true → cs.head?.any Char.isLower = true) (hsmall : ∀ c ∈ cs, c.isUpper = false)
    (hmarks : ∀ c ∈ cs, isSeparator c = true → c = mark) (hlead : MarksLead mark cs) :
    (joinWords raise cs).flatMap (partedChar mark) = if raise then mark :: cs else cs := by
  induction cs generalizing raise with
  | nil =>
    cases raise with
    | false => rfl
    | true => cases hfirst rfl
  | cons c rest ih =>
    rw [List.forall_mem_cons] at hsmall hmarks
    by_cases hsep : isSeparator c
    -- a mark is left out, and the letter that it leads is raised
    · obtain rfl := hmarks.1 hsep
      have hlower : ¬ c.isLower := fun h => by simp [isSeparator_eq_false_of_isLower h] at hsep
      have hraise : raise = false := by
        rw [Bool.eq_false_iff]
        exact fun h => hlower (by simpa using hfirst h)
      have hrest := ih true (fun _ => hlead.1 rfl) hsmall.2 hmarks.2 hlead.2
      simpa [joinWords, hsep, hraise] using hrest
    · have hrest := ih false nofun hsmall.2 hmarks.2 hlead.2
      rw [if_neg Bool.false_ne_true] at hrest
      rw [joinWords, if_neg hsep, List.flatMap_cons, hrest, partedChar]
      cases raise with
      | true =>
        have hc : c.isLower = true := by simpa using hfirst rfl
        simp [isAlpha_of_isLower hc, toLower_of_isLower hc]
      | false => simp [Char.toLower_eq_of_not_isUpper (Bool.eq_false_iff.mp hsmall.1), hsmall.1]

theorem marksLead_flatMap_partedChar {cs : List Char} (hcs : ∀ c ∈ cs, isSeparator c = false) :
    MarksLead mark (cs.flatMap (partedChar mark)) := by
  induction cs with
  | nil => trivial
  | cons c rest ih =>
    rw [List.forall_mem_cons] at hcs
    rw [List.flatMap_cons, partedChar]
    by_cases hc : c.isUpper
    · have hlower : isSeparator c.toLower = false := by rw [isSeparator_toLower, hcs.1]
      simp [hc, MarksLead, isAlpha_of_isUpper hc, ne_mark hmark hlower, ih hcs.2]
    · simp [hc, MarksLead, ne_mark hmark hcs.1, ih hcs.2]

end

/-! ## Names in each style -/

/-- The name has no separators, and its first character is one that `first` allows. -/
structure IsJoined (first : Char → Bool) (name : String) : Prop where
  start : StartsWith first name
  joined : ∀ c ∈ name.toList, isSeparator c = false

/-- The name starts with a small letter and has no capitals. Its only separators are marks, each right before a small
letter. -/
structure IsParted (mark : Char) (name : String) : Prop where
  start : StartsWith Char.isLower name
  small : ∀ c ∈ name.toList, c.isUpper = false
  marks : ∀ c ∈ name.toList, isSeparator c = true → c = mark
  lead : MarksLead mark name.toList

instance (first : Char → Bool) (name : String) : Decidable (IsJoined first name) :=
  decidable_of_iff (StartsWith first name ∧ name.toList.all (!isSeparator ·) = true)
    ⟨fun h => ⟨h.1, by simpa using h.2⟩, fun h => ⟨h.start, by simpa using h.joined⟩⟩

instance (mark : Char) (name : String) : Decidable (IsParted mark name) :=
  decidable_of_iff (StartsWith Char.isLower name ∧
      name.toList.all (fun c => !c.isUpper && (!isSeparator c || c == mark)) = true ∧ MarksLead mark name.toList) <| by
    simp only [List.all_eq_true, Bool.and_eq_true, Bool.not_eq_true', Bool.or_eq_true, beq_iff_eq]
    constructor
    · rintro ⟨hstart, hchars, hlead⟩
      exact ⟨hstart, fun c hc => (hchars c hc).1, fun c hc hsep => (hchars c hc).2.resolve_left (by simp [hsep]), hlead⟩
    · rintro ⟨hstart, hsmall, hmarks, hlead⟩
      refine ⟨hstart, fun c hc => ⟨hsmall c hc, ?_⟩, hlead⟩
      cases hsep : isSeparator c with
      | false => exact .inl rfl
      | true => exact .inr (hmarks c hc hsep)

def camelNames : Set String := {name | IsJoined Char.isLower name}

def pascalNames : Set String := {name | IsJoined Char.isUpper name}

def partedNames (mark : Char) : Set String := {name | IsParted mark name}

theorem toList_toPascal {name : String} {c : Char} {rest : List Char} (hname : name.toList = c :: rest)
    (hc : c.isLower = true) : (toPascal name).toList = c.toUpper :: joinWords false rest := by
  have hpascal : isPascal (c :: rest) = false := by simp [isPascal, isUpper_eq_false_of_isLower hc]
  rw [toPascal, String.toList_ofList, hname, pascalChars, hpascal, if_neg Bool.false_ne_true, joinWords,
    isSeparator_eq_false_of_isLower hc, if_neg Bool.false_ne_true, if_pos rfl]

theorem toList_toCamel {name : String} {c : Char} {rest : List Char} (hname : name.toList = c :: rest)
    (hc : c.isLower = true) : (toCamel name).toList = c :: joinWords false rest := by
  rw [toCamel, toList_lowerFirst (toList_toPascal hname hc) (isWordChar_toUpper hc), Char.toLower_toUpper_eq_toLower,
    toLower_of_isLower hc]

/-- `write` parts the words of a name by `mark`. Joining them gives back every name in `camelCase` and in `PascalCase`,
and parting the words of a name that was joined gives back every name whose words are parted so. -/
structure Parts (write : String → String) (mark : Char) : Prop where
  parted : Set.MapsTo write camelNames (partedNames mark)
  joined : Set.MapsTo toCamel (partedNames mark) camelNames
  inverse : Set.InvOn toCamel write camelNames (partedNames mark)
  pascal : Set.LeftInvOn toPascal write pascalNames
  injective : Set.InjOn write camelNames

section
variable {write : String → String} {mark : Char} {name : String}
variable (hmark : isSeparator mark = true)
variable (hwrite : ∀ name : String, (write name).toList = partWords mark none name.toList)
include hmark hwrite

theorem toList_write {first : Char → Bool} (hfirst : ∀ c, first c = true → c.isAlpha = true) (h : IsJoined first name) :
    ∃ c rest, name.toList = c :: rest ∧ first c = true ∧ (∀ d ∈ rest, isSeparator d = false) ∧
      (write name).toList = c.toLower :: rest.flatMap (partedChar mark) := by
  obtain ⟨c, rest, hname, hc⟩ := startsWith_iff.mp h.start
  have hjoined := h.joined
  rw [hname, List.forall_mem_cons] at hjoined
  refine ⟨c, rest, hname, hc, hjoined.2, ?_⟩
  rw [hwrite, hname, partWords_cons hmark (hfirst c hc) hjoined.2]

theorem isParted_write (h : IsJoined Char.isLower name) : IsParted mark (write name) := by
  obtain ⟨c, rest, hname, hc, hrest, htext⟩ := toList_write hmark hwrite (fun _ => isAlpha_of_isLower) h
  rw [toLower_of_isLower hc] at htext
  have hchars : ∀ d ∈ c :: rest.flatMap (partedChar mark), d = mark ∨ d.isUpper = false ∧ isSeparator d = false := by
    rw [List.forall_mem_cons]
    exact ⟨.inr ⟨isUpper_eq_false_of_isLower hc, isSeparator_eq_false_of_isLower hc⟩,
      fun d hd => of_mem_flatMap_partedChar hrest hd⟩
  rw [← htext] at hchars
  have hmarkSmall : mark.isUpper = false := by
    rw [Bool.eq_false_iff]
    intro h
    exact ne_mark hmark (isSeparator_eq_false_of_isAlpha (isAlpha_of_isUpper h)) rfl
  have hlead := marksLead_flatMap_partedChar hmark hrest
  refine ⟨startsWith_iff.mpr ⟨c, _, htext, hc⟩, ?_, ?_, ?_⟩
  · intro d hd
    rcases hchars d hd with rfl | ⟨hsmall, -⟩
    · exact hmarkSmall
    · exact hsmall
  · intro d hd hsep
    exact (hchars d hd).resolve_right fun h => Bool.eq_false_iff.mp h.2 hsep
  · rw [htext]
    exact ⟨fun h => absurd h (ne_mark hmark (isSeparator_eq_false_of_isLower hc)), hlead⟩

omit hmark hwrite in
theorem isJoined_toCamel (h : IsParted mark name) : IsJoined Char.isLower (toCamel name) := by
  obtain ⟨c, rest, hname, hc⟩ := startsWith_iff.mp h.start
  have hcamel := toList_toCamel hname hc
  refine ⟨startsWith_iff.mpr ⟨c, _, hcamel, hc⟩, ?_⟩
  rw [hcamel, List.forall_mem_cons]
  exact ⟨isSeparator_eq_false_of_isLower hc, fun d hd => isSeparator_of_mem_joinWords hd⟩

theorem toCamel_write (h : IsJoined Char.isLower name) : toCamel (write name) = name := by
  obtain ⟨c, rest, hname, hc, hrest, htext⟩ := toList_write hmark hwrite (fun _ => isAlpha_of_isLower) h
  rw [toLower_of_isLower hc] at htext
  rw [← String.toList_inj, toList_toCamel htext hc, joinWords_flatMap_partedChar hmark hrest, hname]

theorem write_toCamel (h : IsParted mark name) : write (toCamel name) = name := by
  obtain ⟨c, rest, hname, hc⟩ := startsWith_iff.mp h.start
  obtain ⟨-, hsmall, hmarks, hlead⟩ := h
  rw [hname, List.forall_mem_cons] at hsmall hmarks
  rw [hname] at hlead
  have hjoined : ∀ d ∈ joinWords false rest, isSeparator d = false := fun _ => isSeparator_of_mem_joinWords
  have hback := flatMap_partedChar_joinWords hmark false nofun hsmall.2 hmarks.2 hlead.2
  rw [if_neg Bool.false_ne_true] at hback
  rw [← String.toList_inj, hwrite, toList_toCamel hname hc, partWords_cons hmark (isAlpha_of_isLower hc) hjoined,
    toLower_of_isLower hc, hback, hname]

theorem toPascal_write (h : IsJoined Char.isUpper name) : toPascal (write name) = name := by
  obtain ⟨c, rest, hname, hc, hrest, htext⟩ := toList_write hmark hwrite (fun _ => isAlpha_of_isUpper) h
  have hlower : c.toLower.isLower = true := by rw [Char.isLower_toLower_eq_isAlpha, isAlpha_of_isUpper hc]
  rw [← String.toList_inj, toList_toPascal htext hlower, Char.toUpper_toLower_eq_toUpper, toUpper_of_isUpper hc,
    joinWords_flatMap_partedChar hmark hrest, hname]

theorem parts_write : Parts write mark :=
  have hcamel : Set.LeftInvOn toCamel write camelNames := fun _ h => toCamel_write hmark hwrite h
  { parted := fun _ h => isParted_write hmark hwrite h
    joined := fun _ h => isJoined_toCamel h
    inverse := ⟨hcamel, fun _ h => write_toCamel hmark hwrite h⟩
    pascal := fun _ h => toPascal_write hmark hwrite h
    injective := hcamel.injOn }

end

/-- Writing a name in `snake_case` or `kebab-case` and in `camelCase` are inverse to each other on the names of these
styles, and no two names in `camelCase` are written alike. A name in `PascalCase` is given back as well. -/
theorem toSnake_toKebab_part : Parts toSnake '_' ∧ Parts toKebab '-' :=
  ⟨parts_write rfl fun _ => String.toList_ofList, parts_write rfl fun _ => String.toList_ofList⟩

/-- A name with capitals side by side, a digit, and a letter outside ASCII. -/
theorem page_isParted :
    toSnake "pageÄHTTP2" = "pageÄ_h_t_t_p2" ∧ IsParted '_' "pageÄ_h_t_t_p2" ∧
      toCamel "pageÄ_h_t_t_p2" = "pageÄHTTP2" ∧
      toKebab (toCamel "pageÄ-h-t-t-p2") = "pageÄ-h-t-t-p2" := by
  obtain ⟨hsnake, hkebab⟩ := toSnake_toKebab_part
  have hname : "pageÄHTTP2" ∈ camelNames := (by decide : IsJoined Char.isLower "pageÄHTTP2")
  have hwritten : toSnake "pageÄHTTP2" = "pageÄ_h_t_t_p2" := by decide
  have hparted := hsnake.parted hname
  have hback := hsnake.inverse.1 hname
  rw [hwritten] at hparted hback
  exact ⟨hwritten, hparted, hback,
    hkebab.inverse.2 (by decide : IsParted '-' "pageÄ-h-t-t-p2")⟩

end TypeScribe.Name
