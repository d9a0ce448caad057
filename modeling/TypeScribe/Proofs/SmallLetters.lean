import TypeScribe.Proofs.Lexer
import TypeScribe.Text

/-!
# Small letters

What the table for lower case leads to: letters that it leaves as they are, and in ASCII only `i` and `k`. All letters
but the capital `İ` have one small letter.
-/

namespace TypeScribe.Text

/-! ## Runs -/

namespace CaseRun

def target (run : CaseRun) (n : Nat) : Nat := (n + run.shift).toNat

/-- No letter that `run` moves becomes one that `other` moves: they all lie before these or after them, or between any
two of them. -/
def misses (run other : CaseRun) : Bool :=
  (run.target run.last).blt other.first || other.last.blt (run.target run.first) ||
    other.step == 2 && (run.step == 2 || run.first == run.last) && run.target run.first % 2 != other.first % 2

variable {run other : CaseRun} {n : Nat}

theorem covers_iff : run.covers n = true ↔ run.first ≤ n ∧ n ≤ run.last ∧ (n - run.first) % run.step = 0 := by
  simp only [covers, Bool.and_eq_true, decide_eq_true_eq, beq_iff_eq, and_assoc]

theorem not_covers_target (habove : 0 ≤ run.first + run.shift) (hmisses : run.misses other = true)
    (hcovers : run.covers n = true) : other.covers (run.target n) = false := by
  obtain ⟨hfirst, hlast, hstep⟩ := covers_iff.mp hcovers
  rw [Bool.eq_false_iff, ne_eq, covers_iff]
  rintro ⟨hfirst', hlast', hstep'⟩
  simp only [misses, Bool.or_eq_true, Bool.and_eq_true, Nat.blt_eq, beq_iff_eq, bne_iff_ne] at hmisses
  unfold target at hmisses hfirst' hlast' hstep'
  -- before or after the letters of `other`, or between any two of them
  rcases hmisses with (hbefore | hafter) | ⟨⟨hother, hrun⟩, hparity⟩
  · omega
  · omega
  · rw [hother] at hstep'
    rcases hrun with hrun | hrun
    · rw [hrun] at hstep
      omega
    · omega

end CaseRun

/-! ## The table -/

/-- Letters outside ASCII are moved to letters outside ASCII, apart from one that is moved to `k`. -/
theorem lands_lowerRuns : ∀ run ∈ lowerRuns, (0 : Int) ≤ run.first + run.shift ∧
    (run.first = run.last ∧ run.target run.first = 'k'.toNat ∨
      128 ≤ run.target run.first ∧
        (run.target run.last < 0xD800 ∨ 0xDFFF < run.target run.first ∧ run.target run.last < 0x110000)) := by
  decide +kernel

/-- No letter is moved twice. -/
theorem misses_lowerRuns : ∀ run ∈ lowerRuns, (lowerRuns.all fun other => run.misses other) = true := by
  decide +kernel

theorem misses_lowerExpansions : ∀ run ∈ lowerRuns, run.misses ⟨0x130, 0x130, 1, 0⟩ = true := by
  decide +kernel

theorem target_cases {run : CaseRun} (hrun : run ∈ lowerRuns) {n : Nat} (hcovers : run.covers n = true) :
    run.target n = 'k'.toNat ∨ 128 ≤ run.target n ∧ (run.target n).isValidChar := by
  obtain ⟨hfirst, hlast, -⟩ := CaseRun.covers_iff.mp hcovers
  obtain ⟨habove, hlands⟩ := lands_lowerRuns run hrun
  unfold CaseRun.target at hlands ⊢
  rcases hlands with ⟨hsame, hk⟩ | ⟨hascii, hvalid⟩
  · obtain rfl : n = run.first := by omega
    exact .inl hk
  · right
    refine ⟨by omega, ?_⟩
    unfold Nat.isValidChar
    omega

/-- A letter outside ASCII has itself for its small letter, or is the one with two small letters, or a run moves it. -/
theorem lower_cases {c : Char} (hc : ¬ c.toNat < 128) :
    lower c = [c] ∨ c = 'İ' ∨
      ∃ run ∈ lowerRuns, run.covers c.toNat = true ∧ lower c = [Char.ofNat (run.target c.toNat)] := by
  unfold lower mapped
  rw [if_neg hc]
  split
  · next code codes hfound =>
    have hentry := List.mem_of_find?_eq_some hfound
    have hcode := List.find?_some hfound
    obtain ⟨rfl, -⟩ := Prod.mk.inj (List.mem_singleton.mp hentry)
    exact .inr (.inl (Char.toNat_inj.mp (eq_of_beq hcode).symm))
  · split
    · next run hfound =>
      have hcovers := List.find?_some hfound
      exact .inr (.inr ⟨run, List.mem_of_find?_eq_some hfound, hcovers, rfl⟩)
    · exact .inl rfl

/-! ## Small letters -/

def dotAbove : Char := Char.ofNat 0x307

theorem lower_dotted : lower 'İ' = ['i', dotAbove] := by decide

theorem exists_lower_eq {c : Char} (hc : c ≠ 'İ') : ∃ d, lower c = [d] := by
  by_cases hascii : c.toNat < 128
  · exact ⟨c.toLower, if_pos hascii⟩
  · obtain hself | hdotted | ⟨run, -, -, hmoved⟩ := lower_cases hascii
    · exact ⟨c, hself⟩
    · exact absurd hdotted hc
    · exact ⟨_, hmoved⟩

theorem lower_ne_nil (c : Char) : lower c ≠ [] := by
  by_cases hdotted : c = 'İ'
  · subst hdotted
    exact List.cons_ne_nil _ _
  · obtain ⟨d, hlower⟩ := exists_lower_eq hdotted
    rw [hlower]
    exact List.cons_ne_nil _ _

/-- The small letters of a letter outside ASCII are `i`, `k` and letters outside ASCII. -/
theorem mem_lower_of_not_ascii {c d : Char} (hc : ¬ c.toNat < 128) (hd : d ∈ lower c) :
    d = 'i' ∨ d = 'k' ∨ ¬ d.toNat < 128 := by
  obtain hself | rfl | ⟨run, hrun, hcovers, hmoved⟩ := lower_cases hc
  · rw [hself, List.mem_singleton] at hd
    subst hd
    exact .inr (.inr hc)
  · rw [lower_dotted, List.mem_cons, List.mem_singleton] at hd
    rcases hd with rfl | rfl
    · exact .inl rfl
    · exact .inr (.inr (by decide))
  · rw [hmoved, List.mem_singleton] at hd
    subst hd
    rcases target_cases hrun hcovers with hk | ⟨hascii, hvalid⟩
    · rw [hk]
      exact .inr (.inl rfl)
    · rw [Char.ofNat, dif_pos hvalid]
      exact .inr (.inr (Nat.not_lt.mpr hascii))

/-- What lower case keeps in ASCII it keeps in all letters, if `i`, `k` and all letters outside ASCII have it. -/
theorem of_mem_lower {P : Char → Prop} (hkept : ∀ n < 128, P (Char.ofNat n) → P (Char.ofNat n).toLower) (hi : P 'i')
    (hk : P 'k') (houtside : ∀ d : Char, ¬ d.toNat < 128 → P d) {c d : Char} (hc : P c) (hd : d ∈ lower c) : P d := by
  by_cases hascii : c.toNat < 128
  · rw [lower, if_pos hascii, List.mem_singleton] at hd
    subst hd
    exact Ocaml.Lexer.forall_ascii (P := fun c => P c → P c.toLower) hkept hascii hc
  · obtain rfl | rfl | hd := mem_lower_of_not_ascii hascii hd
    · exact hi
    · exact hk
    · exact houtside d hd

theorem isUpper_of_mem_lower {c d : Char} (hd : d ∈ lower c) : d.isUpper = false := by
  by_cases hascii : c.toNat < 128
  · rw [lower, if_pos hascii, List.mem_singleton] at hd
    subst hd
    exact Ocaml.Lexer.forall_ascii (P := fun c => c.toLower.isUpper = false) (by decide) hascii
  · obtain rfl | rfl | houtside := mem_lower_of_not_ascii hascii hd
    · rfl
    · rfl
    · rw [Bool.eq_false_iff]
      intro hupper
      have hcode : d.toNat ≤ 90 := UInt32.le_iff_toNat_le.mp (of_decide_eq_true hupper).2
      omega

theorem lower_of_isLower {c : Char} (h : c.isLower = true) : lower c = [c] := by
  have hword := Ocaml.Lexer.isWordChar_of_first (.inl (Ocaml.Lexer.isAlpha_iff.mpr (.inr h)))
  exact Ocaml.Lexer.forall_isWordChar (P := fun c => c.isLower = true → lower c = [c]) (by decide) hword h

/-- A letter that a run has led to stays as it is. -/
theorem lower_target {run : CaseRun} (hrun : run ∈ lowerRuns) {n : Nat} (hcovers : run.covers n = true) :
    lower (Char.ofNat (run.target n)) = [Char.ofNat (run.target n)] := by
  rcases target_cases hrun hcovers with hk | ⟨houtside, hvalid⟩
  · rw [hk]
    rfl
  · have hcode : (Char.ofNat (run.target n)).toNat = run.target n := by
      rw [Char.ofNat, dif_pos hvalid]
      rfl
    have habove := (lands_lowerRuns run hrun).1
    obtain hself | hdotted | ⟨other, hother, hcovers', -⟩ := lower_cases (c := Char.ofNat (run.target n)) (by omega)
    · exact hself
    · have hmisses := CaseRun.not_covers_target habove (misses_lowerExpansions run hrun) hcovers
      rw [← hcode, hdotted] at hmisses
      exact absurd hmisses (by decide)
    · have hmisses := List.all_eq_true.mp (misses_lowerRuns run hrun) other hother
      rw [hcode, CaseRun.not_covers_target habove hmisses hcovers] at hcovers'
      cases hcovers'

theorem lower_of_mem_lower {c d : Char} (hd : d ∈ lower c) : lower d = [d] := by
  by_cases hascii : c.toNat < 128
  · rw [lower, if_pos hascii, List.mem_singleton] at hd
    subst hd
    exact Ocaml.Lexer.forall_ascii (P := fun c => lower c.toLower = [c.toLower]) (by decide) hascii
  · obtain hself | rfl | ⟨run, hrun, hcovers, hmoved⟩ := lower_cases hascii
    · rw [hself, List.mem_singleton] at hd
      rwa [hd]
    · rw [lower_dotted, List.mem_cons, List.mem_singleton] at hd
      rcases hd with rfl | rfl <;> decide
    · rw [hmoved, List.mem_singleton] at hd
      rw [hd]
      exact lower_target hrun hcovers

end TypeScribe.Text
