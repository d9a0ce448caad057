import TypeScribe.Proofs.CaseStyles
import TypeScribe.Proofs.SmallLetters

/-!
# Case styles applied twice

The style of capitals keeps a name that has small letters among its capitals, and joins the words of any other one. What
it makes of words of one letter is a run of capitals, which is one word to it the next time. So a style keeps the name
that it has made, or lowers the later capitals in it, and it depends on the words of the name which of the two it does.
-/

namespace TypeScribe.Name

/-! ## Words -/

def words (cs : List Char) : List (List Char) := (cs.splitOnP isSeparator).filter (!·.isEmpty)

def capitalize : List Char → List Char
  | [] => []
  | c :: rest => c.toUpper :: rest.map Char.toLower

/-- Joining words raises the first letter of each of them but the first, of which it raises it if `raise`. -/
theorem joinWords_of_splitOnP {cs first : List Char} {others : List (List Char)}
    (h : cs.splitOnP isSeparator = first :: others) (raise : Bool) :
    joinWords raise cs = (if raise then capitalize first else first.map Char.toLower) ++ others.flatMap capitalize := by
  induction cs generalizing raise first others with
  | nil =>
    cases h
    cases raise <;> rfl
  | cons c rest ih =>
    obtain ⟨next, more, hrest⟩ := List.exists_cons_of_ne_nil (List.splitOnP_ne_nil isSeparator rest)
    rw [List.splitOnP_cons_eq_if_modifyHead, hrest] at h
    by_cases hsep : isSeparator c
    · rw [if_pos hsep] at h
      cases h
      rw [joinWords, if_pos hsep, ih hrest true]
      cases raise <;> rfl
    · rw [if_neg hsep] at h
      cases h
      rw [joinWords, if_neg hsep, ih hrest false]
      cases raise <;> rfl

theorem joinWords_true (cs : List Char) : joinWords true cs = (words cs).flatMap capitalize := by
  obtain ⟨first, others, hsplit⟩ := List.exists_cons_of_ne_nil (List.splitOnP_ne_nil isSeparator cs)
  have hempty : ∀ pieces : List (List Char),
      (pieces.filter (!·.isEmpty)).flatMap capitalize = pieces.flatMap capitalize := by
    intro pieces
    induction pieces with
    | nil => rfl
    | cons piece pieces ih => cases piece <;> simp [ih, capitalize]
  rw [joinWords_of_splitOnP hsplit true, words, hempty, hsplit, List.flatMap_cons]
  rfl

theorem joinWords_of_joined {cs : List Char} (h : ∀ c ∈ cs, isSeparator c = false) :
    joinWords true cs = capitalize cs := by
  rw [joinWords_of_splitOnP (List.splitOnP_eq_singleton h) true]
  exact List.append_nil _

theorem ne_nil_of_mem_words {cs word : List Char} (h : word ∈ words cs) : word ≠ [] := by
  have hword := (List.mem_filter.mp h).2
  rintro rfl
  cases hword

/-! ## Names that are kept -/

theorem map_toLower_eq_iff {cs : List Char} : cs.map Char.toLower = cs ↔ ∀ c ∈ cs, c.isUpper = false := by
  induction cs with
  | nil => simp
  | cons c rest ih =>
    have hfirst : c.toLower = c ↔ c.isUpper = false := by
      constructor
      · intro h
        rw [← h, Char.isUpper_toLower_eq_false]
      · intro h
        exact Char.toLower_eq_of_not_isUpper (Bool.eq_false_iff.mp h)
    rw [List.map_cons, List.cons.injEq, ih, hfirst, List.forall_mem_cons]

theorem joined_pascalChars (cs : List Char) : ∀ c ∈ pascalChars cs, isSeparator c = false := by
  unfold pascalChars
  split
  · next hpascal =>
    simp only [isPascal, Bool.and_eq_true, Bool.not_eq_true', List.any_eq_false] at hpascal
    intro c hc
    exact Bool.eq_false_iff.mpr (hpascal.2 c hc)
  · intro c hc
    exact isSeparator_of_mem_joinWords hc

theorem toUpper_of_joinWords {cs rest : List Char} {c : Char} (h : joinWords true cs = c :: rest) : c.toUpper = c := by
  induction cs with
  | nil => cases h
  | cons d others ih =>
    rw [joinWords] at h
    split at h
    · exact ih h
    · obtain ⟨rfl, -⟩ := List.cons.inj h
      exact Char.toUpper_toUpper_eq_toUpper d

/-- A name that has been made is kept if it has small letters after a capital, or no capital but the first. -/
theorem pascalChars_pascalChars_iff {cs : List Char} : pascalChars (pascalChars cs) = pascalChars cs ↔
    isPascal (pascalChars cs) = true ∨ ∀ c ∈ (pascalChars cs).tail, c.isUpper = false := by
  by_cases hkept : isPascal (pascalChars cs)
  · have hagain : pascalChars (pascalChars cs) = pascalChars cs := if_pos hkept
    simp [hkept, hagain]
  · have hcs : ¬ isPascal cs := by
      intro h
      have hsame : pascalChars cs = cs := if_pos h
      exact hkept (hsame.symm ▸ h)
    have hagain : pascalChars (pascalChars cs) = capitalize (pascalChars cs) := by
      rw [← joinWords_of_joined (joined_pascalChars cs)]
      exact if_neg hkept
    have hmade : pascalChars cs = joinWords true cs := if_neg hcs
    rw [hagain, or_iff_right hkept, hmade]
    cases hchars : joinWords true cs with
    | nil => simp [capitalize]
    | cons c rest =>
      rw [capitalize, toUpper_of_joinWords hchars, List.cons.injEq, eq_self, true_and, map_toLower_eq_iff,
        List.tail_cons]

/-! ## Names with a small letter first -/

theorem isSeparator_of_mem_lower {c d : Char} (hc : isSeparator c = false) (hd : d ∈ Text.lower c) :
    isSeparator d = false := by
  refine Text.of_mem_lower (P := fun d => isSeparator d = false) ?_ rfl rfl ?_ hc hd
  · intro n _ hn
    rw [isSeparator_toLower, hn]
  · intro d houtside
    rw [Bool.eq_false_iff]
    intro hsep
    obtain (rfl | rfl) | rfl := isSeparator_iff.mp hsep <;> exact houtside (by decide)

/-- A small letter that is raised is the same one in lower case. -/
theorem lower_toUpper_of_mem_lower {c d : Char} (hd : d ∈ Text.lower c) : Text.lower d.toUpper = [d] := by
  by_cases hlower : d.isLower
  · have hascii := Ocaml.Lexer.toNat_lt_of_isWordChar (isWordChar_toUpper hlower)
    rw [Text.lower, if_pos hascii, Char.toLower_toUpper_eq_toLower, toLower_of_isLower hlower]
  · rw [Char.toUpper_eq_of_not_isLower hlower]
    exact Text.lower_of_mem_lower hd

theorem toList_toCamel_eq (name : String) : (toCamel name).toList = lowerFirstChars (pascalChars name.toList) := by
  rw [toCamel, lowerFirst, toPascal, String.toList_ofList, String.toList_ofList]

/-- A name in `camelCase` is kept if it has no capitals at all. -/
theorem toCamel_toCamel_iff {name : String} : toCamel (toCamel name) = toCamel name ↔
    ∀ c ∈ (pascalChars name.toList).tail, c.isUpper = false := by
  have hjoined := joined_pascalChars name.toList
  rw [← String.toList_inj, toList_toCamel_eq (toCamel name), toList_toCamel_eq name]
  cases hchars : pascalChars name.toList with
  | nil => simp [lowerFirstChars, pascalChars, isPascal, joinWords]
  | cons c rest =>
    rw [hchars, List.forall_mem_cons] at hjoined
    obtain ⟨d, more, hlower⟩ := List.exists_cons_of_ne_nil (Text.lower_ne_nil c)
    have hd : d ∈ Text.lower c := hlower ▸ List.mem_cons_self
    have hmore : ∀ e ∈ more, e ∈ Text.lower c := fun e he => hlower ▸ List.mem_cons_of_mem d he
    have hcamel : lowerFirstChars (c :: rest) = d :: (more ++ rest) := by
      rw [lowerFirstChars, hlower, List.cons_append]
    -- the name that was made starts with a small letter, so it is joined anew, as one word
    have hpascal : isPascal (d :: (more ++ rest)) = false := by
      simp [isPascal, Text.isUpper_of_mem_lower hd]
    have hsep : ∀ e ∈ d :: (more ++ rest), isSeparator e = false := by
      rw [List.forall_mem_cons, List.forall_mem_append]
      exact ⟨isSeparator_of_mem_lower hjoined.1 hd, fun e he => isSeparator_of_mem_lower hjoined.1 (hmore e he),
        hjoined.2⟩
    have hagain : lowerFirstChars (pascalChars (d :: (more ++ rest))) = d :: (more ++ rest).map Char.toLower := by
      rw [pascalChars, hpascal, if_neg Bool.false_ne_true, joinWords_of_joined hsep, capitalize, lowerFirstChars,
        lower_toUpper_of_mem_lower hd]
      rfl
    rw [hcamel, hagain, List.cons.injEq, eq_self, true_and, map_toLower_eq_iff, List.forall_mem_append]
    exact and_iff_right fun e he => Text.isUpper_of_mem_lower (hmore e he)

/-! ## Words of names that are kept -/

/-- The first character of the word is a letter. -/
def StartsLettered (word : List Char) : Prop := word.head?.any Char.isAlpha = true

/-- Some character of the word after the first is a letter. -/
def HoldsLetters (word : List Char) : Prop := ∃ c ∈ word.tail, c.isAlpha = true

theorem isUpper_capitalize_iff {word : List Char} :
    (∀ c ∈ capitalize word, c.isUpper = false) ↔ ¬ StartsLettered word := by
  cases word with
  | nil => simp [capitalize, StartsLettered]
  | cons c rest => simp [capitalize, StartsLettered]

theorem isLower_capitalize_iff {word : List Char} : (∃ c ∈ capitalize word, c.isLower = true) ↔ HoldsLetters word := by
  cases word with
  | nil => simp [capitalize, HoldsLetters]
  | cons c rest => simp [capitalize, HoldsLetters]

theorem isUpper_tail_joinWords {cs : List Char} : (∀ c ∈ (joinWords true cs).tail, c.isUpper = false) ↔
    ∀ word ∈ (words cs).tail, ¬ StartsLettered word := by
  rw [joinWords_true]
  cases hwords : words cs with
  | nil => simp
  | cons word others =>
    obtain ⟨c, rest, rfl⟩ := List.exists_cons_of_ne_nil (ne_nil_of_mem_words (hwords ▸ List.mem_cons_self))
    rw [List.flatMap_cons, capitalize, List.cons_append, List.tail_cons, List.tail_cons]
    constructor
    · intro h word hword
      rw [← isUpper_capitalize_iff]
      intro d hd
      exact h d (List.mem_append_right _ (List.mem_flatMap.mpr ⟨word, hword, hd⟩))
    · intro h d hd
      rcases List.mem_append.mp hd with hd | hd
      · obtain ⟨e, -, rfl⟩ := List.mem_map.mp hd
        exact Char.isUpper_toLower_eq_false e
      · obtain ⟨word, hword, hd⟩ := List.mem_flatMap.mp hd
        exact isUpper_capitalize_iff.mpr (h word hword) d hd

/-- Joined words have the form that is kept if the first word starts with a letter and some word goes on with one. -/
theorem isPascal_joinWords_iff {cs : List Char} : isPascal (joinWords true cs) = true ↔
    (∃ word ∈ (words cs).head?, StartsLettered word) ∧ ∃ word ∈ words cs, HoldsLetters word := by
  have hsep : (joinWords true cs).any isSeparator = false := by
    rw [List.any_eq_false]
    intro c hc
    exact Bool.eq_false_iff.mp (isSeparator_of_mem_joinWords hc)
  have hlower : (joinWords true cs).any Char.isLower = true ↔ ∃ word ∈ words cs, HoldsLetters word := by
    simp only [List.any_eq_true, joinWords_true, List.mem_flatMap, ← isLower_capitalize_iff]
    constructor
    · rintro ⟨c, ⟨word, hword, hc⟩, hlower⟩
      exact ⟨word, hword, c, hc, hlower⟩
    · rintro ⟨word, hword, c, hc, hlower⟩
      exact ⟨c, ⟨word, hword, hc⟩, hlower⟩
  unfold isPascal
  rw [hsep, Bool.not_false, Bool.and_true, Bool.and_eq_true, hlower, joinWords_true]
  refine and_congr_left fun _ => ?_
  cases hwords : words cs with
  | nil => simp
  | cons word others =>
    obtain ⟨c, rest, rfl⟩ := List.exists_cons_of_ne_nil (ne_nil_of_mem_words (hwords ▸ List.mem_cons_self))
    simp [capitalize, StartsLettered]

/-- What `toPascal` makes of a name is kept by a second `toPascal` exactly if the name had its form already, or none of
its words but the first starts with a letter, or the first starts with one and some word has letters past its first
character. What `toCamel` makes of a name is kept exactly if there are no capitals past the first letter, either in the
name, if it had the form that is kept, or else from its later words. -/
theorem casing_isRepeatable_iff (name : String) :
    (toPascal (toPascal name) = toPascal name ↔
      isPascal name.toList = true ∨ (∀ word ∈ (words name.toList).tail, ¬ StartsLettered word) ∨
        (∃ word ∈ (words name.toList).head?, StartsLettered word) ∧ ∃ word ∈ words name.toList, HoldsLetters word) ∧
    (toCamel (toCamel name) = toCamel name ↔
      if isPascal name.toList then ∀ c ∈ name.toList.tail, c.isUpper = false
      else ∀ word ∈ (words name.toList).tail, ¬ StartsLettered word) := by
  have hpascal : toPascal (toPascal name) = toPascal name ↔
      pascalChars (pascalChars name.toList) = pascalChars name.toList := by
    rw [← String.toList_inj]
    simp only [toPascal, String.toList_ofList]
  rw [hpascal, pascalChars_pascalChars_iff, toCamel_toCamel_iff]
  by_cases hkept : isPascal name.toList
  · have hsame : pascalChars name.toList = name.toList := if_pos hkept
    simp [hsame, hkept]
  · have hmade : pascalChars name.toList = joinWords true name.toList := if_neg hkept
    rw [hmade, isPascal_joinWords_iff, isUpper_tail_joinWords, or_iff_right hkept, if_neg hkept]
    exact ⟨or_comm, Iff.rfl⟩

/-- Words of one letter make a run of capitals, which is lowered the next time, also when the second time is a further
step. So are the capitals of a name in `camelCase`. -/
theorem casing_lowersCapitals :
    toPascal "a_b_c" = "ABC" ∧ toPascal (toPascal "a_b_c") = "Abc" ∧
      NameTransform.apply ⟨[.pascalCase, .pascalCase]⟩ "a_b_c" = "Abc" ∧
      toCamel "foo_bar" = "fooBar" ∧ toCamel (toCamel "foo_bar") = "foobar" ∧
      NameTransform.apply ⟨[.camelCase, .camelCase]⟩ "foo_bar" = "foobar" := by
  decide

end TypeScribe.Name
