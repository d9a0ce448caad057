import Mathlib.Data.List.TakeDrop
import TypeScribe.Proofs.WrittenDocuments

/-!
# Numbers that are written

A natural number is written as its decimal digits. They are read for the same number if 64 bits hold it and the text goes
on with something that is no part of a number. The digits are absorbed one after the other, and what is absorbed never
exceeds the number itself.
-/

namespace TypeScribe.Json

/-! ## Values of digits -/

theorem le_ofDigitChars (ds : List Char) (n : Nat) : n ≤ Nat.ofDigitChars 10 ds n := by
  induction ds generalizing n with
  | nil => exact Nat.le_refl n
  | cons c rest ih =>
    have hnext := ih (10 * n + (c.toNat - '0'.toNat))
    rw [Nat.ofDigitChars_cons]
    omega

theorem absorb_of_le {ds : List Char} {n : Nat} (h : Nat.ofDigitChars 10 ds n ≤ maxWord) :
    absorb n ds = (Nat.ofDigitChars 10 ds n, []) := by
  induction ds generalizing n with
  | nil => rfl
  | cons c rest ih =>
    rw [Nat.ofDigitChars_cons] at h ⊢
    -- further digits make no number smaller
    have hnext : 10 * n + digitValue c ≤ maxWord := Nat.le_trans (le_ofDigitChars rest _) h
    unfold absorb
    rw [if_pos hnext]
    exact ih h

/-! ## Digits in front of something else -/

/-- The character is no part of a number after its first digits. -/
def EndsNumber (c : Char) : Prop := c.isDigit = false ∧ c ≠ '.' ∧ c ≠ 'e' ∧ c ≠ 'E'

instance (c : Char) : Decidable (EndsNumber c) :=
  inferInstanceAs (Decidable (c.isDigit = false ∧ c ≠ '.' ∧ c ≠ 'e' ∧ c ≠ 'E'))

theorem span_isDigit {ds : List Char} (hds : ∀ d ∈ ds, d.isDigit = true) {c : Char} (hc : c.isDigit = false)
    (rest : List Char) : (ds ++ c :: rest).span Char.isDigit = (ds, c :: rest) := by
  rw [List.span_eq_takeWhile_dropWhile, List.takeWhile_append_of_pos hds, List.dropWhile_append_of_pos hds]
  simp [hc]

theorem isDigit_toDigits (n : Nat) : ∀ d ∈ Nat.toDigits 10 n, d.isDigit = true :=
  fun _ hd => Nat.isDigit_of_mem_toDigits (by decide) (by decide) hd

theorem head_toDigits_ne_zero (n : Nat) (hn : n ≠ 0) :
    ∃ d ds, Nat.toDigits 10 n = d :: ds ∧ d ≠ '0' := by
  induction n using Nat.strongRecOn with
  | ind n ih =>
    rw [Nat.toDigits_eq_if (by decide)]
    by_cases hlt : n < 10
    · rw [if_pos hlt]
      exact ⟨_, [], rfl, fun h => hn (Nat.digitChar_eq_zero.mp h)⟩
    · obtain ⟨d, ds, hds, hd⟩ := ih (n / 10) (by omega) (by omega)
      rw [if_neg hlt, hds]
      exact ⟨d, ds ++ [_], rfl, hd⟩

theorem wholeDigits_toDigits (atEnd : ReadError) (n : Nat) {c : Char} (hc : c.isDigit = false) (rest : List Char) :
    wholeDigits atEnd (Nat.toDigits 10 n ++ c :: rest) = .ok (Nat.toDigits 10 n, c :: rest) := by
  by_cases hn : n = 0
  · subst hn
    rw [Nat.toDigits_zero]
    simp [wholeDigits, hc]
  · obtain ⟨d, ds, hds, hd⟩ := head_toDigits_ne_zero n hn
    have hall := isDigit_toDigits n
    rw [hds] at hall ⊢
    have hspan := span_isDigit hall hc rest
    unfold wholeDigits
    split
    · next heq => exact absurd (List.cons.inj heq).1 hd
    · rw [List.cons_append] at hspan ⊢
      rw [digits, if_pos (hall d List.mem_cons_self), hspan]

theorem numeral_toDigits (atEnd : ReadError) (n : Nat) {c : Char} (hc : EndsNumber c) (rest : List Char) :
    numeral atEnd (Nat.toDigits 10 n ++ c :: rest) =
      .ok (⟨false, Nat.toDigits 10 n, [], none⟩, c :: rest) := by
  obtain ⟨hdigit, hpoint, hsmall, hcapital⟩ := hc
  obtain ⟨d, ds, hds⟩ := List.exists_cons_of_ne_nil (Nat.toDigits_ne_nil (n := n) (b := 10))
  have hsign : d ≠ '-' := by
    rintro rfl
    have hd := isDigit_toDigits n '-' (hds ▸ List.mem_cons_self)
    revert hd
    decide
  have hwhole := wholeDigits_toDigits atEnd n hdigit rest
  have hfraction : fractionDigits atEnd (c :: rest) = .ok ([], c :: rest) := by
    unfold fractionDigits
    split
    · next heq => exact absurd (List.cons.inj heq).1 hpoint
    · rfl
  have hexponent : exponentDigits atEnd (c :: rest) = .ok (none, c :: rest) := by
    unfold exponentDigits
    split
    · next heq => exact absurd (List.cons.inj heq).1 hsmall
    · next heq => exact absurd (List.cons.inj heq).1 hcapital
    · rfl
  rw [hds] at hwhole ⊢
  unfold numeral
  rw [List.cons_append] at hwhole ⊢
  simp [hsign, hwhole, hfraction, hexponent, bind, Except.bind, pure, Except.pure]

theorem value_toDigits {n : Nat} (h : n ≤ maxWord) :
    Numeral.value ⟨false, Nat.toDigits 10 n, [], none⟩ = .ok (.integer n) := by
  have hdigits : Nat.ofDigitChars 10 (Nat.toDigits 10 n) 0 = n := Nat.ofDigitChars_ten_toDigits
  have habsorb : absorb 0 (Nat.toDigits 10 n) = (n, []) := by
    rw [absorb_of_le (by rwa [hdigits]), hdigits]
  simp [Numeral.value, habsorb]

namespace Reader

theorem number_toDigits {n : Nat} (h : n ≤ maxWord) {c : Char} (hc : EndsNumber c) (depth : Nat) (rest : List Char) :
    number depth (Nat.toDigits 10 n ++ c :: rest) = .ok (.integer n, c :: rest) := by
  show (numeral .endOfValue (Nat.toDigits 10 n ++ c :: rest) >>= _) = _
  rw [numeral_toDigits _ _ hc]
  show (Numeral.value _ >>= _) = _
  rw [value_toDigits h]
  rfl

theorem start_of_isDigit {d : Char} (hd : d.isDigit = true) (depth : Nat) (rest : List Char) :
    start depth (d :: rest) = (number >>= fun x => pure (Found.number x)) depth (d :: rest) := by
  have hother : ∀ other : Char, other.isDigit = false → d ≠ other := by
    rintro other hother rfl
    rw [hd] at hother
    cases hother
  have hblank : isBlank d = false := by
    simp [isBlank, hother ' ' rfl, hother '\t' rfl, hother '\n' rfl, hother '\r' rfl]
  rw [start, bind_of_ok (peek_of_not_blank hblank depth _)]
  refine congrFun (congrFun ?_ depth) _
  split
  · next heq => cases heq
  · next heq => exact absurd (Option.some.inj heq) (hother 'n' rfl)
  · next heq => exact absurd (Option.some.inj heq) (hother 't' rfl)
  · next heq => exact absurd (Option.some.inj heq) (hother 'f' rfl)
  · next heq => exact absurd (Option.some.inj heq) (hother '"' rfl)
  · next heq => exact absurd (Option.some.inj heq) (hother '[' rfl)
  · next heq => exact absurd (Option.some.inj heq) (hother '\x7b' rfl)
  · next heq =>
    obtain rfl := Option.some.inj heq
    exact if_pos (.inr hd)

theorem start_toDigits {n : Nat} (h : n ≤ maxWord) {c : Char} (hc : EndsNumber c) (depth : Nat) (rest : List Char) :
    start depth (Nat.toDigits 10 n ++ c :: rest) = .ok (.number (.integer n), c :: rest) := by
  have hnumber := number_toDigits h hc depth rest
  obtain ⟨d, ds, hds⟩ := List.exists_cons_of_ne_nil (Nat.toDigits_ne_nil (n := n) (b := 10))
  have hd : d.isDigit = true := isDigit_toDigits n d (hds ▸ List.mem_cons_self)
  rw [hds, List.cons_append] at hnumber ⊢
  rw [start_of_isDigit hd, bind_of_ok hnumber]
  rfl

end Reader

/-! ## Texts and numbers as documents -/

namespace Document

theorem print_natural (n : Nat) : (Document.number (.integer n)).print = Nat.toDigits 10 n := by
  show (toString n).toList = _
  rw [Nat.toString_eq_ofList_toDigits, String.toList_ofList]

/-- A text, or a natural number that 64 bits hold. -/
inductive IsAtom : Document → Prop where
  | text (s : String) : IsAtom (.text s)
  | natural {n : Nat} : n ≤ maxWord → IsAtom (.number (.integer n))

theorem IsAtom.depth {document : Document} (h : document.IsAtom) : document.depth = 0 := by
  cases h <;> rfl

theorem IsAtom.document {document : Document} (h : document.IsAtom) {c : Char} (hc : EndsNumber c) (depth : Nat)
    (rest : List Char) : Reader.document depth (document.print ++ c :: rest) = .ok (document, c :: rest) := by
  rw [Reader.document, Reader.documentWithin]
  cases h with
  | text s =>
    rw [print, Reader.bind_of_ok (Reader.start_escapedText s depth _)]
    rfl
  | natural h =>
    rw [print_natural, Reader.bind_of_ok (Reader.start_toDigits h hc depth rest)]
    rfl

end Document

end TypeScribe.Json
