import TypeScribe.Proofs.Erasure
import TypeScribe.Proofs.PlainNames
import TypeScribe.Proofs.SmallLetters
import TypeScribe.Proofs.Walk
import TypeScribe.Proofs.WrittenNames

/-!
# Words without quotes

Where no quote stands in a name, none stands in a word of the generated decoders: a change of case makes no quote, and
keys and tags stand in literals only.
-/

namespace TypeScribe
open Ocaml (Path Term TypeExpr Pattern Clause Body Function Token Line)

/-! ## Names -/

theorem isUnquoted_append {front back : String} (hfront : IsUnquoted front) (hback : IsUnquoted back) :
    IsUnquoted (front ++ back) := by
  rw [IsUnquoted, String.toList_append, List.mem_append]
  exact not_or.mpr ⟨hfront, hback⟩

theorem ofNat_ne {q : Char} (hq : q.toNat ≠ 0) {n : Nat} (h : n ≠ q.toNat) : Char.ofNat n ≠ q := by
  rintro rfl
  by_cases hn : n.isValidChar
  · rw [Char.ofNat, dif_pos hn] at h
    exact h rfl
  · rw [Char.ofNat, dif_neg hn] at hq
    exact hq rfl

/-- A case table that leads to `q` from nowhere makes no `q` of another character. -/
theorem notMem_mapped {q : Char} (hq : q.toNat ≠ 0) {expansions : List (Nat × List Nat)} {runs : List Text.CaseRun}
    (hexpansions : ∀ entry ∈ expansions, q.toNat ∉ entry.2)
    (hruns : ∀ run ∈ runs, (run.last : Int) + run.shift < q.toNat ∨ (q.toNat : Int) < run.first + run.shift)
    {c : Char} (hc : c ≠ q) : q ∉ Text.mapped expansions runs c := by
  unfold Text.mapped
  split
  · next code codes hfound =>
    intro hmem
    obtain ⟨n, hn, hchar⟩ := List.mem_map.mp hmem
    have hne : n ≠ q.toNat := by
      rintro rfl
      exact hexpansions _ (List.mem_of_find?_eq_some hfound) hn
    exact ofNat_ne hq hne hchar
  · split
    · next run hfound =>
      have hcovers := List.find?_some hfound
      have hrun := hruns run (List.mem_of_find?_eq_some hfound)
      simp only [Text.CaseRun.covers, Bool.and_eq_true, decide_eq_true_eq] at hcovers
      intro hmem
      exact ofNat_ne hq (by omega) (List.mem_singleton.mp hmem).symm
    · exact fun hmem => hc (List.mem_singleton.mp hmem).symm

/-- A change to upper case makes no `q` of another character, if neither the letters of ASCII nor the table lead to it. -/
theorem notMem_upper {q : Char} (hq : q.toNat ≠ 0)
    (hascii : ∀ n < 128, Char.ofNat n ≠ q → (Char.ofNat n).toUpper ≠ q)
    (hexpansions : ∀ entry ∈ Text.upperExpansions, q.toNat ∉ entry.2)
    (hruns : ∀ run ∈ Text.upperRuns, (run.last : Int) + run.shift < q.toNat ∨ (q.toNat : Int) < run.first + run.shift)
    {c : Char} (hc : c ≠ q) : q ∉ Text.upper c := by
  unfold Text.upper
  split
  · next hsmall =>
    have hupper := Ocaml.Lexer.forall_ascii (P := fun c => c ≠ q → c.toUpper ≠ q) hascii hsmall hc
    exact fun hmem => hupper (List.mem_singleton.mp hmem).symm
  · exact notMem_mapped hq hexpansions hruns hc

set_option maxRecDepth 4000 in
theorem quote_notMem_upper {c : Char} (hc : c ≠ '"') : '"' ∉ Text.upper c :=
  notMem_upper (by decide) (by decide) (by decide) (by decide) hc

theorem quote_notMem_lower {c : Char} (hc : c ≠ '"') : '"' ∉ Text.lower c := by
  intro hmem
  refine Text.of_mem_lower (P := (· ≠ '"')) (by decide) (by decide) (by decide) ?_ hc hmem rfl
  rintro d houtside rfl
  exact houtside (by decide)

section
variable {name : String} (h : IsUnquoted name)
include h

theorem isUnquoted_upperFirst : IsUnquoted (Name.upperFirst name) := by
  rw [IsUnquoted, Name.upperFirst, String.toList_ofList]
  unfold IsUnquoted at h
  cases hname : name.toList with
  | nil => exact List.not_mem_nil
  | cons c rest =>
    rw [hname, List.mem_cons, not_or] at h
    rw [Name.upperFirstChars, List.mem_append, not_or]
    exact ⟨quote_notMem_upper (Ne.symm h.1), h.2⟩

theorem isUnquoted_lowerFirst : IsUnquoted (Name.lowerFirst name) := by
  rw [IsUnquoted, Name.lowerFirst, String.toList_ofList]
  unfold IsUnquoted at h
  cases hname : name.toList with
  | nil => exact List.not_mem_nil
  | cons c rest =>
    rw [hname, List.mem_cons, not_or] at h
    rw [Name.lowerFirstChars, List.mem_append, not_or]
    exact ⟨quote_notMem_lower (Ne.symm h.1), h.2⟩

theorem isUnquoted_escapeKeyword : IsUnquoted (Ocaml.escapeKeyword name) := by
  unfold Ocaml.escapeKeyword
  split
  · exact isUnquoted_append h (by decide)
  · exact h

theorem isUnquoted_typeName : IsUnquoted (Ocaml.typeName name) := isUnquoted_escapeKeyword (isUnquoted_lowerFirst h)

theorem isUnquoted_label : IsUnquoted (Ocaml.label name) := isUnquoted_escapeKeyword (isUnquoted_lowerFirst h)

theorem isUnquoted_decoderName : IsUnquoted (Ocaml.decoderName name) :=
  isUnquoted_append (by decide) (isUnquoted_upperFirst h)

theorem isUnquoted_decoderParameter : IsUnquoted (Ocaml.decoderParameter name) := isUnquoted_append (by decide) h

end

theorem isUnquoted_toString (n : Nat) : IsUnquoted (toString n) := fun hmem => by
  have hdigit : '"'.isDigit = true := Nat.isDigit_of_mem_toDigits (by decide) (by decide) (Nat.toList_repr ▸ hmem)
  cases hdigit

theorem isUnquoted_slot (i : Nat) : IsUnquoted (Decoder.slot i) := isUnquoted_append (by decide) (isUnquoted_toString i)

/-! ## Expressions -/

namespace Ocaml

namespace Unquoted

variable {tokens front back : List Token}

theorem nil : Unquoted [] := nofun

theorem append (hfront : Unquoted front) (hback : Unquoted back) : Unquoted (front ++ back) :=
  List.forall_mem_append.mpr ⟨hfront, hback⟩

theorem word {w : String} (hw : IsUnquoted w) (h : Unquoted tokens) : Unquoted (.word w :: tokens) :=
  List.forall_mem_cons.mpr ⟨hw, h⟩

theorem mark {token : Token} (htoken : token.Unquoted) (h : Unquoted tokens) : Unquoted (token :: tokens) :=
  List.forall_mem_cons.mpr ⟨htoken, h⟩

theorem enclose (h : Unquoted tokens) : Unquoted (Token.enclose tokens) :=
  .mark trivial (h.append (.mark trivial .nil))

theorem encloseIf (h : Unquoted tokens) (needed : Bool) : Unquoted (Token.encloseIf needed tokens) := by
  cases needed with
  | true => exact h.enclose
  | false => exact h

end Unquoted

def Path.Unquoted (path : Path) : Prop := (∀ m ∈ path.modules, IsUnquoted m) ∧ IsUnquoted path.name

instance (path : Path) : Decidable path.Unquoted := inferInstanceAs (Decidable (_ ∧ _))

theorem Path.Unquoted.text {path : Path} (h : path.Unquoted) : IsUnquoted path.text := by
  refine isUnquoted_append ?_ h.2
  obtain ⟨modules, name⟩ := path
  have hmodules : ∀ m ∈ modules, IsUnquoted m := h.1
  rw [qualifier, IsUnquoted, String.toList_join]
  simp_all [IsUnquoted]

mutual

/-- No quote stands in a name in the expression. -/
def Term.Unquoted : Term → Prop
  | .path p => p.Unquoted
  | .text _ => True
  | .number _ => True
  | .apply function arguments => function.Unquoted ∧ UnquotedAll arguments
  | .lambda parameter body => IsUnquoted parameter ∧ body.Unquoted
  | .construct constructor arguments => constructor.Unquoted ∧ UnquotedAll arguments
  | .record fields type =>
    (∀ field ∈ fields, IsUnquoted field.1 ∧ IsUnquoted field.2) ∧ Ocaml.Unquoted (type.tokens false)
  | .concat left right => left.Unquoted ∧ right.Unquoted
  | .element array _ => IsUnquoted array
  | .differs left right => left.Unquoted ∧ right.Unquoted

def Term.UnquotedAll : List Term → Prop
  | [] => True
  | term :: rest => term.Unquoted ∧ UnquotedAll rest

end

theorem Term.unquotedAll_iff {terms : List Term} : UnquotedAll terms ↔ ∀ term ∈ terms, term.Unquoted := by
  induction terms with
  | nil => simp [UnquotedAll]
  | cons term rest ih => rw [UnquotedAll, ih, List.forall_mem_cons]

theorem Term.unquoted_recordTokens {fields : List (String × String)}
    (h : ∀ field ∈ fields, IsUnquoted field.1 ∧ IsUnquoted field.2) : Ocaml.Unquoted (recordTokens fields) := by
  fun_induction recordTokens fields with
  | case1 => exact .nil
  | case2 label name =>
    obtain ⟨hlabel, hname⟩ := h _ (List.mem_singleton_self _)
    exact .word hlabel (.word (by decide) (.word hname .nil))
  | case3 label name next rest ih =>
    rw [List.forall_mem_cons] at h
    exact .word h.1.1 (.word (by decide) (.word h.1.2 (.mark trivial (ih h.2))))

mutual

theorem Term.Unquoted.tokens : ∀ {term : Term}, term.Unquoted → ∀ level, Ocaml.Unquoted (term.tokens level)
  | .path _, h, _ => .word h.text .nil
  | .text _, _, _ => .mark trivial .nil
  | .number n, _, _ => .word (isUnquoted_toString n) .nil
  | .apply _ _, h, level => by
    rw [Term.tokens]
    exact ((h.1.tokens 4).append (atoms h.2)).encloseIf _
  | .lambda _ _, h, level => by
    rw [Term.tokens]
    exact (Unquoted.word (by decide) (.word h.1 (.word (by decide) (h.2.tokens 0)))).encloseIf _
  | .construct _ [], h, _ => .word h.1.text .nil
  | .construct _ [_], h, level => by
    rw [Term.tokens]
    exact (Unquoted.word h.1.text (h.2.1.tokens 4)).encloseIf _
  | .construct _ (_ :: _ :: _), h, level => by
    rw [Term.tokens]
    exact (Unquoted.word h.1.text ((h.2.1.tokens 1).append (followedByComma h.2.2)).enclose).encloseIf _
  | .record _ _, h, level => by
    have hfields := unquoted_recordTokens h.1
    rw [Term.tokens]
    exact (Unquoted.word (by decide) (hfields.append (.word (by decide) (.word (by decide) h.2)))).enclose
  | .concat _ _, h, level => by
    rw [Term.tokens]
    exact ((h.1.tokens 3).append (.word (by decide) (h.2.tokens 2))).encloseIf _
  | .element _ index, h, _ => .word h (.mark trivial (.word (isUnquoted_toString index) (.mark trivial .nil)))
  | .differs _ _, h, level => by
    rw [Term.tokens]
    exact ((h.1.tokens 2).append (.word (by decide) (h.2.tokens 2))).encloseIf _

theorem Term.Unquoted.atoms : ∀ {terms : List Term}, UnquotedAll terms → Ocaml.Unquoted (Term.atoms terms)
  | [], _ => .nil
  | _ :: _, h => (h.1.tokens 4).append (atoms h.2)

theorem Term.Unquoted.followedByComma : ∀ {terms : List Term}, UnquotedAll terms →
    Ocaml.Unquoted (Term.followedByComma terms)
  | [], _ => .nil
  | _ :: _, h => .mark trivial ((h.1.tokens 1).append (followedByComma h.2))

end

/-! ## Arms and bodies -/

def Pattern.Unquoted : Pattern → Prop
  | .raised exception name => exception.Unquoted ∧ IsUnquoted name
  | .bind name => IsUnquoted name
  | .text _ => True
  | .any => True
  | .constant constructor => constructor.Unquoted
  | .construct constructor argument => constructor.Unquoted ∧ argument.Unquoted
  | .emptyArray => True
  | .either left right => left.Unquoted ∧ right.Unquoted

theorem Pattern.Unquoted.tokens : ∀ {pattern : Pattern}, pattern.Unquoted → ∀ inner, Ocaml.Unquoted (pattern.tokens inner)
  | .raised _ _, h, _ => (Ocaml.Unquoted.word (by decide) (.word h.1.text (.word h.2 .nil))).encloseIf _
  | .bind _, h, _ => .word h .nil
  | .text _, _, _ => .mark trivial .nil
  | .any, _, _ => .word (by decide) .nil
  | .constant _, h, _ => .word h.text .nil
  | .construct _ _, h, _ => (Ocaml.Unquoted.word h.1.text (h.2.tokens true)).encloseIf _
  | .emptyArray, _, _ => .word (by decide) .nil
  | .either _ _, h, _ => ((h.1.tokens false).append (.word (by decide) (h.2.tokens false))).encloseIf _

def Clause.Unquoted (clause : Clause) : Prop := clause.pattern.Unquoted ∧ ∀ guard ∈ clause.guard, guard.Unquoted

theorem Clause.Unquoted.tokens {clause : Clause} (h : clause.Unquoted) : Ocaml.Unquoted clause.tokens := by
  obtain ⟨pattern, guard⟩ := clause
  obtain ⟨hpattern, hguard⟩ := h
  have harrow : Ocaml.Unquoted [.word "->"] := .word (by decide) .nil
  cases guard with
  | none => exact .word (by decide) (((hpattern.tokens false).append .nil).append harrow)
  | some guard =>
    have hwhen := Ocaml.Unquoted.word (w := "when") (by decide) ((hguard guard rfl).tokens 0)
    exact .word (by decide) (((hpattern.tokens false).append hwhen).append harrow)

mutual

def Body.Unquoted : Body → Prop
  | .value t => t.Unquoted
  | .choose scrutinee arms => scrutinee.Unquoted ∧ UnquotedArms arms
  | .proceed scrutinee failures name next =>
    scrutinee.Unquoted ∧ (∀ arm ∈ failures, arm.1.Unquoted ∧ arm.2.Unquoted) ∧ IsUnquoted name ∧ next.Unquoted

def Body.UnquotedArms : List (Clause × Body) → Prop
  | [] => True
  | (clause, body) :: rest => clause.Unquoted ∧ body.Unquoted ∧ UnquotedArms rest

end

theorem Body.unquotedArms_iff {arms : List (Clause × Body)} :
    UnquotedArms arms ↔ ∀ arm ∈ arms, arm.1.Unquoted ∧ arm.2.Unquoted := by
  induction arms with
  | nil => simp [UnquotedArms]
  | cons arm rest ih => rw [UnquotedArms, ih, List.forall_mem_cons, and_assoc]

theorem Line.Unquoted.enclose {lines : List Line} (h : ∀ line ∈ lines, line.Unquoted) :
    ∀ line ∈ Line.enclose lines, line.Unquoted := by
  have hclose : ∀ lines : List Line, (∀ line ∈ lines, line.Unquoted) → ∀ line ∈ Line.enclose.close lines, line.Unquoted :=
    fun lines h => by
      fun_induction Line.enclose.close lines with
      | case1 => exact h
      | case2 last =>
        rw [List.forall_mem_singleton] at h ⊢
        exact h.append (.mark trivial .nil)
      | case3 line next rest ih =>
        rw [List.forall_mem_cons] at h ⊢
        exact ⟨h.1, ih h.2⟩
  cases lines with
  | nil => exact h
  | cons first rest =>
    rw [List.forall_mem_cons] at h
    exact hclose _ (List.forall_mem_cons.mpr ⟨.mark trivial h.1, h.2⟩)

theorem Body.Unquoted.opening {scrutinee : Term} (h : scrutinee.Unquoted) : Ocaml.Unquoted (Body.opening scrutinee) :=
  .word (by decide) ((h.tokens 0).append (.word (by decide) .nil))

mutual

theorem Body.Unquoted.lines : ∀ {body : Body}, body.Unquoted → ∀ depth, ∀ line ∈ body.lines depth, line.Unquoted
  | .value _, h, _ => List.forall_mem_singleton.mpr (h.tokens 0)
  | .choose _ _, h, depth => List.forall_mem_cons.mpr ⟨opening h.1, armLines h.2 depth⟩
  | .proceed _ _ _ _, h, depth => by
    obtain ⟨hscrutinee, hfailures, hname, hnext⟩ := h
    refine List.forall_mem_cons.mpr ⟨opening hscrutinee, List.forall_mem_append.mpr ⟨?_, ?_⟩⟩
    · refine List.forall_mem_map.mpr fun arm harm => ?_
      exact (hfailures arm harm).1.tokens.append ((hfailures arm harm).2.tokens 0)
    · exact List.forall_mem_cons.mpr ⟨Clause.Unquoted.tokens ⟨hname, nofun⟩, hnext.lines depth⟩

theorem Body.Unquoted.armLines : ∀ {arms : List (Clause × Body)}, UnquotedArms arms →
    ∀ depth, ∀ line ∈ Body.armLines depth arms, line.Unquoted
  | [], _, _ => nofun
  | (_, .value _) :: _, h, depth =>
    List.forall_mem_cons.mpr ⟨h.1.tokens.append (Term.Unquoted.tokens h.2.1 0), armLines h.2.2 depth⟩
  | (_, .choose _ _) :: _, h, depth =>
    List.forall_mem_cons.mpr ⟨h.1.tokens,
      List.forall_mem_append.mpr ⟨Line.Unquoted.enclose (h.2.1.lines (depth + 1)), armLines h.2.2 depth⟩⟩
  | (_, .proceed _ _ _ _) :: _, h, depth =>
    List.forall_mem_cons.mpr ⟨h.1.tokens,
      List.forall_mem_append.mpr ⟨Line.Unquoted.enclose (h.2.1.lines (depth + 1)), armLines h.2.2 depth⟩⟩

end

def Function.Unquoted (function : Function) : Prop :=
  IsUnquoted function.name ∧ (∀ parameter ∈ function.parameters, IsUnquoted parameter) ∧ function.body.Unquoted

theorem Function.Unquoted.lines {function : Function} (h : function.Unquoted) {keyword : List Token}
    (hkeyword : Ocaml.Unquoted keyword) : ∀ line ∈ function.lines keyword, line.Unquoted := by
  obtain ⟨hname, hparameters, hbody⟩ := h
  have hwords : Ocaml.Unquoted (function.parameters.map .word) := List.forall_mem_map.mpr hparameters
  refine List.forall_mem_cons.mpr ⟨(hkeyword.append (.word hname hwords)).append (.word (by decide) .nil), hbody.lines 1⟩

theorem unquoted_functionLines {group : DefinitionGroup Function} (h : ∀ function ∈ group.items, function.Unquoted) :
    ∀ line ∈ group.functionLines, line.Unquoted := by
  have hlines : ∀ opening following : List Token, Ocaml.Unquoted opening → Ocaml.Unquoted following →
      ∀ line ∈ groupLines opening following Function.lines group.items, line.Unquoted := by
    intro opening following hopening hfollowing
    cases hitems : group.items with
    | nil => exact nofun
    | cons first rest =>
      rw [hitems, List.forall_mem_cons] at h
      refine List.forall_mem_append.mpr ⟨h.1.lines hopening, fun line hline => ?_⟩
      obtain ⟨function, hfunction, hline⟩ := List.mem_flatMap.mp hline
      rcases List.mem_cons.mp hline with rfl | hline
      · exact .nil
      · exact (h.2 function hfunction).lines hfollowing line hline
  unfold DefinitionGroup.functionLines
  cases group.recursive with
  | true => exact hlines _ _ (.word (by decide) (.word (by decide) .nil)) (.word (by decide) .nil)
  | false => exact hlines _ _ (.word (by decide) .nil) (.word (by decide) .nil)

end Ocaml

end TypeScribe
