import TypeScribe.Proofs.CaseStyles

/-!
# Normal forms of names

What `partWords` writes has no capitals, no mark but its own, and no two marks side by side, whatever the name was. Such
a text is written as it is. Another mark changes nothing else of what is written, so the words of a name may be parted by
one mark and then by another with the same outcome as by the last one alone.
-/

namespace TypeScribe.Name

/-- The text has no capitals, `mark` is its only mark, and no two marks stand side by side. -/
structure IsNormal (mark : Char) (cs : List Char) : Prop where
  small : ∀ c ∈ cs, c.isUpper = false
  marks : ∀ c ∈ cs, c = '_' ∨ c = '-' → c = mark
  single : cs.IsChain fun c d => c = mark → d ≠ mark

/-- The character, with one mark put for the other. -/
def remark (mark mark' c : Char) : Char := if c = mark then mark' else c

section
variable {mark mark' c : Char} {cs : List Char}

/-! ## Texts in normal form -/

theorem isNormal_nil : IsNormal mark [] := ⟨nofun, nofun, .nil⟩

theorem isNormal_cons : IsNormal mark (c :: cs) ↔
    c.isUpper = false ∧ (c = '_' ∨ c = '-' → c = mark) ∧ (c = mark → cs.head? ≠ some mark) ∧ IsNormal mark cs := by
  have hhead : (∀ d ∈ cs.head?, c = mark → d ≠ mark) ↔ (c = mark → cs.head? ≠ some mark) := by
    constructor
    · intro h hc hd
      exact h mark hd hc rfl
    · rintro h d hd hc rfl
      exact h hc hd
  constructor
  · rintro ⟨hsmall, hmarks, hsingle⟩
    rw [List.forall_mem_cons] at hsmall hmarks
    rw [List.isChain_cons, hhead] at hsingle
    exact ⟨hsmall.1, hmarks.1, hsingle.1, hsmall.2, hmarks.2, hsingle.2⟩
  · rintro ⟨hc, hmark, hfirst, hsmall, hmarks, hsingle⟩
    exact ⟨List.forall_mem_cons.mpr ⟨hc, hsmall⟩, List.forall_mem_cons.mpr ⟨hmark, hmarks⟩,
      List.isChain_cons.mpr ⟨hhead.mpr hfirst, hsingle⟩⟩

/-- A text may follow the last character before it unless both meet in a mark. -/
theorem IsNormal.follow {last : Option Char} (h : IsNormal mark (c :: cs)) (hlast : IsNormal mark last.toList)
    (hmeet : last = some mark → c ≠ mark) : IsNormal mark (last.toList ++ c :: cs) := by
  cases last with
  | none => exact h
  | some d =>
    obtain ⟨hsmall, hmarks, -, -⟩ := isNormal_cons.mp hlast
    refine isNormal_cons.mpr ⟨hsmall, hmarks, fun hd hc => ?_, h⟩
    exact hmeet (congrArg some hd) (Option.some.inj hc)

theorem not_mark_toLower (hc : c.isUpper = true) : ¬ (c.toLower = '_' ∨ c.toLower = '-') := by
  intro h
  have hsep : isSeparator c.toLower = false := by
    rw [isSeparator_toLower, isSeparator_eq_false_of_isAlpha (isAlpha_of_isUpper hc)]
  exact Bool.eq_false_iff.mp hsep (isSeparator_iff.mpr (.inl h))

theorem isNormal_singleton (hsmall : c.isUpper = false) (hother : ¬ (c = '_' ∨ c = '-')) : IsNormal mark [c] :=
  isNormal_cons.mpr ⟨hsmall, fun h => absurd h hother, fun _ => nofun, isNormal_nil⟩

theorem isNormal_toLower (hc : c.isUpper = true) : IsNormal mark [c.toLower] :=
  isNormal_singleton (Char.isUpper_toLower_eq_false c) (not_mark_toLower hc)

theorem partWords_of_isNormal (last : Option Char) (h : IsNormal mark (last.toList ++ cs)) :
    partWords mark last cs = cs := by
  induction cs generalizing last with
  | nil => rfl
  | cons c rest ih =>
    have hcs : IsNormal mark (c :: rest) := by
      cases last with
      | none => exact h
      | some d => exact (isNormal_cons.mp h).2.2.2
    have hmeet : last = some mark → c ≠ mark := by
      rintro rfl rfl
      exact (isNormal_cons.mp h).2.2.1 rfl rfl
    obtain ⟨hsmall, hmarks, -, -⟩ := isNormal_cons.mp hcs
    have hrest := ih (some c) hcs
    rw [partWords, if_neg (Bool.eq_false_iff.mp hsmall)]
    split
    · next hsep =>
      obtain rfl := hmarks hsep
      rw [if_neg fun h => hmeet h rfl, hrest]
    · rw [hrest]

/-! ## What is written -/

variable (hmark : mark = '_' ∨ mark = '-')
include hmark

theorem isNormal_mark : IsNormal mark [mark] := by
  refine isNormal_cons.mpr ⟨?_, fun _ => rfl, fun _ => nofun, isNormal_nil⟩
  rcases hmark with rfl | rfl <;> rfl

theorem ne_of_not_mark (hother : ¬ (c = '_' ∨ c = '-')) : c ≠ mark := by
  rintro rfl
  exact hother hmark

/-- What is written is in normal form, together with the character before it. -/
theorem isNormal_partWords (last : Option Char) (hlast : IsNormal mark last.toList) :
    IsNormal mark (last.toList ++ partWords mark last cs) := by
  fun_induction partWords mark last cs with
  | case1 last => rwa [List.append_nil]
  | case2 last c rest hc hopen ih =>
    have hlower := ne_of_not_mark hmark (not_mark_toLower hc)
    exact (ih (isNormal_toLower hc)).follow hlast fun _ => hlower
  | case3 last c rest hc hclosed ih =>
    have hlower := ne_of_not_mark hmark (not_mark_toLower hc)
    have hmarked : IsNormal mark ((some mark).toList ++ c.toLower :: partWords mark (some c.toLower) rest) :=
      (ih (isNormal_toLower hc)).follow (isNormal_mark hmark) fun _ => hlower
    exact hmarked.follow hlast fun h => absurd (.inr h) hclosed
  | case4 c rest hc hsep ih => exact ih hlast
  | case5 last c rest hc hsep hdiffers ih => exact (ih (isNormal_mark hmark)).follow hlast fun h => absurd h hdiffers
  | case6 last c rest hc hother ih =>
    have hne := ne_of_not_mark hmark hother
    exact (ih (isNormal_singleton (Bool.eq_false_iff.mpr hc) hother)).follow hlast fun _ => hne

theorem partWords_none_eq_iff : partWords mark none cs = cs ↔ IsNormal mark cs := by
  constructor
  · intro h
    rw [← h]
    exact isNormal_partWords hmark none isNormal_nil
  · exact partWords_of_isNormal none

/-! ## Another mark -/

theorem remark_of_not_mark (mark' : Char) (hother : ¬ (c = '_' ∨ c = '-')) : remark mark mark' c = c :=
  if_neg (ne_of_not_mark hmark hother)

variable (hmark' : mark' = '_' ∨ mark' = '-')
include hmark'

omit hmark in
theorem map_remark_eq_some_iff {last : Option Char} (hlast : IsNormal mark last.toList) :
    last.map (remark mark mark') = some mark' ↔ last = some mark := by
  cases last with
  | none => simp
  | some c =>
    obtain ⟨-, hmarks, -, -⟩ := isNormal_cons.mp hlast
    rw [Option.map_some, Option.some_inj, Option.some_inj, remark]
    constructor
    · intro h
      by_contra hne
      rw [if_neg hne] at h
      exact hne (hmarks (h ▸ hmark'))
    · rintro rfl
      exact if_pos rfl

/-- With another mark the same is written up to the marks. -/
theorem partWords_map_remark (last : Option Char) (hlast : IsNormal mark last.toList) :
    partWords mark' (last.map (remark mark mark')) cs = (partWords mark last cs).map (remark mark mark') := by
  have hmet {last : Option Char} (hlast : IsNormal mark last.toList) := map_remark_eq_some_iff hmark' hlast
  have hopens {last : Option Char} (hlast : IsNormal mark last.toList) :
      (last.map (remark mark mark') = none ∨ last.map (remark mark mark') = some mark') ↔
        (last = none ∨ last = some mark) :=
    or_congr Option.map_eq_none_iff (hmet hlast)
  have hremark : remark mark mark' mark = mark' := if_pos rfl
  fun_induction partWords mark last cs with
  | case1 last => rfl
  | case2 last c rest hc hopen ih =>
    have hlower := remark_of_not_mark hmark mark' (not_mark_toLower hc)
    have hrest := ih (isNormal_toLower hc)
    rw [Option.map_some, hlower] at hrest
    rw [partWords, if_pos hc, if_pos ((hopens hlast).mpr hopen), List.map_cons, hlower, hrest]
  | case3 last c rest hc hclosed ih =>
    have hlower := remark_of_not_mark hmark mark' (not_mark_toLower hc)
    have hrest := ih (isNormal_toLower hc)
    rw [Option.map_some, hlower] at hrest
    rw [partWords, if_pos hc, if_neg (mt (hopens hlast).mp hclosed), List.map_cons, List.map_cons, hremark, hlower,
      hrest]
  | case4 c rest hc hsep ih =>
    rw [partWords, if_neg hc, if_pos hsep, if_pos ((hmet hlast).mpr rfl), ih hlast]
  | case5 last c rest hc hsep hdiffers ih =>
    have hrest := ih (isNormal_mark hmark)
    rw [Option.map_some, hremark] at hrest
    rw [partWords, if_neg hc, if_pos hsep, if_neg (mt (hmet hlast).mp hdiffers), List.map_cons, hremark, hrest]
  | case6 last c rest hc hother ih =>
    have hkept := remark_of_not_mark hmark mark' hother
    have hrest := ih (isNormal_singleton (Bool.eq_false_iff.mpr hc) hother)
    rw [Option.map_some, hkept] at hrest
    rw [partWords, if_neg hc, if_neg hother, List.map_cons, hkept, hrest]

/-- Only the last mark shows in a text that has been parted twice. -/
theorem partWords_partWords : partWords mark' none (partWords mark none cs) = partWords mark' none cs := by
  have hkept : partWords mark none (partWords mark none cs) = partWords mark none cs :=
    (partWords_none_eq_iff hmark).mpr (isNormal_partWords hmark none isNormal_nil)
  have hremark : ∀ cs, partWords mark' none cs = (partWords mark none cs).map (remark mark mark') := fun _ =>
    partWords_map_remark hmark hmark' none isNormal_nil
  calc partWords mark' none (partWords mark none cs)
      = (partWords mark none (partWords mark none cs)).map (remark mark mark') := hremark _
    _ = (partWords mark none cs).map (remark mark mark') := by rw [hkept]
    _ = partWords mark' none cs := (hremark cs).symm

end

/-! ## Names -/

/-- A name in `snake_case` or `kebab-case` is in normal form, and the names in normal form are those that are kept. The
styles differ in the mark alone. So each of them keeps what it has made, and makes the same of what the other has made
as of the name itself. -/
theorem toSnake_toKebab_normalize (name : String) :
    IsNormal '_' (toSnake name).toList ∧ IsNormal '-' (toKebab name).toList ∧
    (toSnake name = name ↔ IsNormal '_' name.toList) ∧ (toKebab name = name ↔ IsNormal '-' name.toList) ∧
    (toKebab name).toList = (toSnake name).toList.map (fun c => if c = '_' then '-' else c) ∧
    toSnake (toSnake name) = toSnake name ∧ toSnake (toKebab name) = toSnake name ∧
    toKebab (toKebab name) = toKebab name ∧ toKebab (toSnake name) = toKebab name := by
  have hsnake : ∀ name, (toSnake name).toList = partWords '_' none name.toList := fun _ => String.toList_ofList
  have hkebab : ∀ name, (toKebab name).toList = partWords '-' none name.toList := fun _ => String.toList_ofList
  have hunderscore : '_' = '_' ∨ '_' = '-' := .inl rfl
  have hhyphen : '-' = '_' ∨ '-' = '-' := .inr rfl
  simp only [← String.toList_inj, hsnake, hkebab]
  refine ⟨isNormal_partWords hunderscore none isNormal_nil, isNormal_partWords hhyphen none isNormal_nil,
    partWords_none_eq_iff hunderscore, partWords_none_eq_iff hhyphen,
    partWords_map_remark hunderscore hhyphen none isNormal_nil, ?_, ?_, ?_, ?_⟩
  · exact partWords_partWords hunderscore hunderscore
  · exact partWords_partWords hhyphen hunderscore
  · exact partWords_partWords hhyphen hhyphen
  · exact partWords_partWords hunderscore hhyphen

example : toSnake "__Foo-_-barHTTP." = "_foo_bar_h_t_t_p." ∧ toKebab "__Foo-_-barHTTP." = "-foo-bar-h-t-t-p." := by decide

end TypeScribe.Name
