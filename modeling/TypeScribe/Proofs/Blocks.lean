import Mathlib.Data.List.Induction
import Mathlib.Data.List.TakeWhile
import TypeScribe.Ocaml.Term
import TypeScribe.Proofs.Lexer

/-!
# Texts of groups

The text of a group is put together from the texts that its definitions have alone: one blank line stands between two of
them, and each starts with its own keyword. `IsClosed` says that nothing is cut from the end of a text, `IsOpened` that
nothing after a keyword depends on it.
-/

namespace TypeScribe.Ocaml

def IsVisible (text : List Char) : Prop := ∃ c ∈ text, Text.isBlank c = false

theorem finish_append (front : List Char) {back : List Char} (h : IsVisible back) :
    finish (front ++ back) = front ++ finish back := by
  obtain ⟨c, hmem, hc⟩ := h
  have hne : (back.reverse.dropWhile Text.isBlank).isEmpty = false := by
    refine List.isEmpty_eq_false_iff.mpr fun hnil => ?_
    have hblank := List.dropWhile_eq_nil_iff.mp hnil c (List.mem_reverse.mpr hmem)
    simp [hblank] at hc
  rw [finish, finish, Text.trimEnd, Text.trimEnd, List.reverse_append, List.dropWhile_append, hne]
  simp

theorem exists_trimEnd_cons {c : Char} (hc : Text.isBlank c = false) (rest : List Char) :
    ∃ front last, Text.trimEnd (c :: rest) = front ++ [last] ∧ Text.isBlank last = false ∧
      ∃ more, front ++ [last] = c :: more := by
  induction rest using List.reverseRecOn with
  | nil =>
    exact ⟨[], c, (Text.trimEnd_append_singleton [] c).trans (if_neg (Bool.eq_false_iff.mp hc)), hc, [], rfl⟩
  | append_singleton rest last ih =>
    rw [← List.cons_append, Text.trimEnd_append_singleton]
    by_cases hlast : Text.isBlank last = true
    · rw [if_pos hlast]
      exact ih
    · rw [if_neg hlast]
      exact ⟨c :: rest, last, rfl, Bool.eq_false_iff.mpr hlast, rest ++ [last], rfl⟩

/-! ## Lines whose text ends with something visible -/

/-- The text of the lines ends with something visible and one line break. -/
def IsClosed (lines : List Line) : Prop :=
  ∃ front c, lines.flatMap Line.chars = front ++ [c] ++ ['\n'] ∧ Text.isBlank c = false

theorem IsClosed.finish_eq {lines : List Line} (h : IsClosed lines) :
    finish (lines.flatMap Line.chars) = lines.flatMap Line.chars := by
  obtain ⟨front, c, htext, hc⟩ := h
  rw [htext, Lexer.finish_of_solid hc]

theorem IsClosed.append_left {lines : List Line} (h : IsClosed lines) (before : List Line) :
    IsClosed (before ++ lines) := by
  obtain ⟨front, c, htext, hc⟩ := h
  refine ⟨before.flatMap Line.chars ++ front, c, ?_, hc⟩
  rw [List.flatMap_append, htext]
  simp only [List.append_assoc]

theorem exists_join_append_singleton (tokens : List Token) (last : Token) :
    ∃ front, Token.join (tokens ++ [last]) = front ++ last.chars := by
  induction tokens with
  | nil => exact ⟨[], rfl⟩
  | cons token rest ih =>
    obtain ⟨front, hfront⟩ := ih
    cases rest with
    | nil => exact ⟨token.chars ++ Token.gap token last, rfl⟩
    | cons next rest =>
      refine ⟨token.chars ++ (Token.gap token next ++ front), ?_⟩
      rw [List.cons_append, List.cons_append, Lexer.join_cons_cons, ← List.cons_append, hfront]
      simp only [List.append_assoc]

theorem isClosed_of_mark {last : Token} {c : Char} (hlast : last.chars = [c]) (hc : Text.isBlank c = false) (depth : Nat)
    (tokens : List Token) : IsClosed [⟨depth, tokens ++ [last]⟩] := by
  obtain ⟨front, hfront⟩ := exists_join_append_singleton tokens last
  refine ⟨List.replicate (2 * depth) ' ' ++ front, c, ?_, hc⟩
  simp [Line.chars, hfront, hlast]

/-! ## Lines after a keyword -/

/-- The lines are those of a definition after a keyword: the keyword stands in front of what defines it. -/
def IsOpened (lines : List Token → List Line) : Prop :=
  ∃ tokens more, IsVisible (Token.join tokens) ∧ ∀ keyword, lines keyword = ⟨0, keyword ++ tokens⟩ :: more

/-- The text of a definition after its keyword. -/
def afterKeyword (lines : List Token → List Line) : String := source (lines [.word ""])

theorem join_append_cons (front : List Token) (last next : Token) (rest : List Token) :
    Token.join (front ++ last :: next :: rest) =
      Token.join (front ++ [last]) ++ (Token.gap last next ++ Token.join (next :: rest)) := by
  induction front with
  | nil =>
    rw [List.nil_append, List.nil_append, Lexer.join_cons_cons]
    rfl
  | cons token front ih =>
    obtain ⟨first, more, hmore⟩ : ∃ first more, ∀ rest, front ++ last :: rest = first :: (more ++ rest) := by
      cases front with
      | nil => exact ⟨last, [], fun _ => rfl⟩
      | cons token' front => exact ⟨token', front ++ [last], fun _ => by simp⟩
    rw [List.cons_append, List.cons_append, hmore, hmore, Lexer.join_cons_cons, Lexer.join_cons_cons, ← hmore, ← hmore,
      ih]
    simp only [List.append_assoc]

theorem gap_word (word : String) (next : Token) : Token.gap (.word word) next = Token.gap (.word "") next := by
  cases next <;> rfl

theorem IsOpened.exists_chars {lines : List Token → List Line} (h : IsOpened lines) :
    ∃ rest, IsVisible rest ∧ ∀ front word,
      (lines (front ++ [.word word])).flatMap Line.chars = Token.join (front ++ [.word word]) ++ rest := by
  obtain ⟨tokens, more, hvisible, hlines⟩ := h
  cases tokens with
  | nil =>
    obtain ⟨c, hmem, -⟩ := hvisible
    cases hmem
  | cons next tokens =>
    refine ⟨Token.gap (.word "") next ++ (Token.join (next :: tokens) ++ ('\n' :: more.flatMap Line.chars)), ?_, ?_⟩
    · obtain ⟨c, hmem, hc⟩ := hvisible
      exact ⟨c, List.mem_append_right _ (List.mem_append_left _ hmem), hc⟩
    · intro front word
      have hjoin := join_append_cons front (.word word) next tokens
      rw [gap_word] at hjoin
      rw [hlines, List.flatMap_cons]
      simp [Line.chars, hjoin]

theorem IsOpened.isVisible {lines : List Token → List Line} (h : IsOpened lines) (front : List Token) (word : String) :
    IsVisible ((lines (front ++ [.word word])).flatMap Line.chars) := by
  obtain ⟨rest, ⟨c, hmem, hc⟩, hlines⟩ := h.exists_chars
  rw [hlines]
  exact ⟨c, List.mem_append_right _ hmem, hc⟩

theorem IsOpened.source_eq {lines : List Token → List Line} (h : IsOpened lines) (front : List Token) (word : String) :
    source (lines (front ++ [.word word])) = String.ofList (Token.join (front ++ [.word word])) ++ afterKeyword lines := by
  obtain ⟨rest, hvisible, hlines⟩ := h.exists_chars
  have hnone : (lines [.word ""]).flatMap Line.chars = rest := hlines [] ""
  rw [afterKeyword, source, source, hlines, hnone, finish_append _ hvisible, String.ofList_append]

/-! ## Groups -/

/-- Texts with a blank line between them, the first after one keyword and the others after another. -/
def joined (opening following : String) : List String → String
  | [] => ""
  | first :: rest => "\n".intercalate ((opening ++ first) :: rest.map (following ++ ·))

theorem joined_singleton (opening following text : String) : joined opening following [text] = opening ++ text := by
  rw [joined, List.map_nil, String.intercalate_singleton]

theorem exists_joined_cons (opening following first : String) (rest : List String) :
    ∃ more, joined opening following (first :: rest) = opening ++ first ++ more := by
  cases rest with
  | nil => exact ⟨"", by rw [joined_singleton, String.append_empty]⟩
  | cons second rest => exact ⟨_, by rw [joined, List.map_cons, String.intercalate_cons_cons, String.append_assoc]⟩

theorem joined_same (keyword : String) (texts : List String) :
    joined keyword keyword texts = "\n".intercalate (texts.map (keyword ++ ·)) := by
  cases texts with
  | nil => rfl
  | cons first rest => rfl

theorem source_append_blank {lines more : List Line} (hclosed : IsClosed lines)
    (hvisible : IsVisible (more.flatMap Line.chars)) :
    source (lines ++ Line.blank :: more) = source lines ++ "\n" ++ source more := by
  have hchars : (lines ++ Line.blank :: more).flatMap Line.chars =
      (lines.flatMap Line.chars ++ ['\n']) ++ more.flatMap Line.chars := by
    simp [Line.blank, Line.chars]
  rw [source, source, source, hchars, finish_append _ hvisible, hclosed.finish_eq, String.ofList_append,
    String.ofList_append]

/-- Lines with a blank line between them have their texts one after the other. -/
theorem source_blocks {block : List Line} {blocks : List (List Line)}
    (hvisible : ∀ lines ∈ block :: blocks, IsVisible (lines.flatMap Line.chars))
    (hclosed : ∀ lines ∈ (block :: blocks).dropLast, IsClosed lines) :
    source (block ++ blocks.flatMap (Line.blank :: ·)) = "\n".intercalate ((block :: blocks).map source) := by
  induction blocks generalizing block with
  | nil => simp
  | cons next blocks ih =>
    rw [List.forall_mem_cons] at hvisible
    rw [List.dropLast_cons_cons, List.forall_mem_cons] at hclosed
    have hmore : IsVisible ((next ++ blocks.flatMap (Line.blank :: ·)).flatMap Line.chars) := by
      obtain ⟨c, hmem, hc⟩ := hvisible.2 next List.mem_cons_self
      exact ⟨c, by rw [List.flatMap_append]; exact List.mem_append_left _ hmem, hc⟩
    rw [List.flatMap_cons, List.cons_append, source_append_blank hclosed.1 hmore, ih hvisible.2 hclosed.2,
      List.map_cons, List.map_cons, List.map_cons, String.intercalate_cons_cons]

theorem source_groupLines {lines : List Token → α → List Line} {items : List α} (hne : items ≠ [])
    (hopened : ∀ item ∈ items, IsOpened (lines · item))
    (hclosed : ∀ item ∈ items.dropLast, ∀ keyword, IsClosed (lines keyword item))
    (front : List Token) (opening following : String) :
    source (groupLines (front ++ [.word opening]) [.word following] lines items) =
      joined (String.ofList (Token.join (front ++ [.word opening]))) following
        (items.map fun item => afterKeyword (lines · item)) := by
  cases items with
  | nil => exact absurd rfl hne
  | cons first rest =>
    rw [List.forall_mem_cons] at hopened
    have hfollowing : ∀ item ∈ rest,
        source (lines [.word following] item) = following ++ afterKeyword (lines · item) := by
      intro item hitem
      have htext := (hopened.2 item hitem).source_eq [] following
      rwa [List.nil_append, Token.join, Token.chars, String.ofList_toList] at htext
    have hgroup : groupLines (front ++ [.word opening]) [.word following] lines (first :: rest) =
        lines (front ++ [.word opening]) first ++ (rest.map (lines [.word following])).flatMap (Line.blank :: ·) := by
      rw [groupLines, List.flatMap_map]
    have htexts : (rest.map (lines [.word following])).map source =
        (rest.map fun item => afterKeyword (lines · item)).map (following ++ ·) := by
      rw [List.map_map, List.map_map]
      exact List.map_congr_left hfollowing
    rw [hgroup, source_blocks ?visible ?closed, List.map_cons, htexts, hopened.1.source_eq front opening]
    · rfl
    case visible =>
      refine List.forall_mem_cons.mpr ⟨hopened.1.isVisible front opening, List.forall_mem_map.mpr fun item hitem => ?_⟩
      exact (hopened.2 item hitem).isVisible [] following
    case closed =>
      cases rest with
      | nil => exact List.forall_mem_nil _
      | cons next rest =>
        rw [List.dropLast_cons_cons, List.forall_mem_cons] at hclosed
        rw [List.map_cons, List.dropLast_cons_cons, ← List.map_cons, ← List.map_dropLast]
        exact List.forall_mem_cons.mpr ⟨hclosed.1 _, List.forall_mem_map.mpr fun item hitem => hclosed.2 item hitem _⟩

end TypeScribe.Ocaml
