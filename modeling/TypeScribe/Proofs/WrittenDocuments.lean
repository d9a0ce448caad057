import Mathlib.Data.List.Forall2
import TypeScribe.Json.Reader
import TypeScribe.Proofs.Nesting

/-!
# Readers on written documents

`ReadsBack read depth document x` says what a reader makes of the text of a document, whatever follows: it takes exactly
that text for `x` if as many brackets may be opened as the document nests, and stops at the recursion limit otherwise.
What a reader does on a sequence follows from what it does on the items, in order.
-/

namespace TypeScribe.Json

/-!
## Escaped texts

A text that is written with escapes is read back up to its closing quote, whatever follows it. Control characters
without a letter of their own are written as codes of four digits, of which the first two are zero.
-/

theorem hexDigit?_digitChar : ∀ n < 16, hexDigit? (Nat.digitChar n) = some n := by decide

theorem utf8Size_digitChar : ∀ n < 16, (Nat.digitChar n).utf8Size = 1 := by decide

theorem unescape_code {c : Char} (h : c.toNat < 0x20) (done rest : List Char) :
    unescape true .plain done
      ('\\' :: 'u' :: '0' :: '0' :: Nat.digitChar (c.toNat / 16) :: Nat.digitChar (c.toNat % 16) :: rest) =
      unescape true .plain (c :: done) rest := by
  have hhigh : c.toNat / 16 < 16 := by omega
  have hlow : c.toNat % 16 < 16 := by omega
  have hzero : hexDigit? '0' = some 0 := rfl
  have hsize : ('0' : Char).utf8Size = 1 := rfl
  have hvalue : 16 * (c.toNat / 16) + c.toNat % 16 = c.toNat := by omega
  have hleading : isLeading c.toNat = false := by simp [isLeading]; omega
  have htrailing : isTrailing c.toNat = false := by simp [isTrailing]; omega
  simp [unescape, TextState.step, escaped?, beginCode, holdsCode, Except.map, hzero, hsize, endCode,
    hexDigit?_digitChar _ hhigh, hexDigit?_digitChar _ hlow, utf8Size_digitChar _ hhigh, utf8Size_digitChar _ hlow,
    hvalue, hleading, htrailing, Char.ofNat_toNat]

theorem unescape_escapedChar (c : Char) (done rest : List Char) :
    unescape true .plain done (escapedChar c ++ rest) = unescape true .plain (c :: done) rest := by
  unfold escapedChar
  split
  · rfl
  · rfl
  · rfl
  · rfl
  · rfl
  · rfl
  · rfl
  · next quote backslash _ _ _ _ _ =>
    have hquote : c ≠ '"' := quote
    have hbackslash : c ≠ '\\' := backslash
    split
    · next hcontrol => exact unescape_code hcontrol done rest
    · next hcontrol => simp [unescape, TextState.step, hquote, hbackslash, hcontrol]

theorem unescape_flatMap_escapedChar (s done rest : List Char) :
    unescape true .plain done (s.flatMap escapedChar ++ '"' :: rest) = .ok (done.reverse ++ s, rest) := by
  induction s generalizing done with
  | nil => simp [unescape]
  | cons c s ih =>
    rw [List.flatMap_cons, List.append_assoc, unescape_escapedChar, ih]
    simp

namespace Reader

theorem textBody_escaped (s : String) (depth : Nat) (rest : List Char) :
    textBody depth (s.toList.flatMap escapedChar ++ '"' :: rest) = .ok (s, rest) := by
  rw [textBody, ofRest, unescape_flatMap_escapedChar]
  simp [Except.map]

end Reader

/-! ## Documents -/

/-- What reading `x` comes to where `needed` brackets are opened and `depth` may be. -/
def outcome (needed depth : Nat) (x : α) (rest : List Char) : Except ReadError (α × List Char) :=
  if needed ≤ depth then .ok (x, rest) else .error .recursionLimit

theorem outcome_of_lt {needed depth : Nat} (h : depth < needed) (x : α) (rest : List Char) :
    outcome needed depth x rest = .error .recursionLimit := if_neg (Nat.not_le.mpr h)

@[simp] theorem outcome_succ (needed depth : Nat) (x : α) (rest : List Char) :
    outcome (needed + 1) (depth + 1) x rest = outcome needed depth x rest := by
  simp [outcome]

/-- One part after the other needs as many brackets as the part that needs more. -/
theorem outcome_bind {needed needed' depth : Nat} {x : α} {y : β} {rest rest' : List Char}
    {next : α × List Char → Except ReadError (β × List Char)} (h : next (x, rest) = outcome needed' depth y rest') :
    outcome needed depth x rest >>= next = outcome (max needed needed') depth y rest' := by
  by_cases hfirst : needed ≤ depth
  · rw [outcome, if_pos hfirst]
    change next (x, rest) = _
    rw [h, outcome, outcome]
    by_cases hsecond : needed' ≤ depth
    · rw [if_pos hsecond, if_pos (Nat.max_le.mpr ⟨hfirst, hsecond⟩)]
    · rw [if_neg hsecond, if_neg fun both => hsecond (Nat.max_le.mp both).2]
  · rw [outcome_of_lt (by omega), outcome_of_lt (by omega)]
    rfl

namespace Document

def StartsValue (document : Document) : Prop :=
  ∃ c rest, document.print = c :: rest ∧ isBlank c = false ∧ c ≠ ']'

theorem StartsValue.boolean (b : Bool) : (Document.boolean b).StartsValue := by
  cases b
  · exact ⟨'f', _, rfl, rfl, by decide⟩
  · exact ⟨'t', _, rfl, rfl, by decide⟩

theorem StartsValue.text (s : String) : (Document.text s).StartsValue := ⟨'"', _, rfl, rfl, by decide⟩

theorem StartsValue.sequence (items : List Document) : (Document.sequence items).StartsValue :=
  ⟨'[', _, rfl, rfl, by decide⟩

theorem StartsValue.map (entries : List (String × Document)) : (Document.map entries).StartsValue :=
  ⟨'\x7b', _, rfl, rfl, by decide⟩

theorem Textual.startsValue {document : Document} (h : document.Textual) : document.StartsValue := by
  cases h with
  | text s => exact .text s
  | sequence _ => exact .sequence _
  | map _ => exact .map _

end Document

namespace Reader

/-- The reader takes the text of the document for `x`, if it may open as many brackets as the document nests. -/
def ReadsBack (read : Reader α) (depth : Nat) (document : Document) (x : α) : Prop :=
  ∀ rest, read depth (document.print ++ rest) = outcome document.depth depth x rest

/-! ## Sequencing -/

theorem bind_apply (read : Reader α) (next : α → Reader β) (depth : Nat) (input : List Char) :
    (read >>= next) depth input = read depth input >>= fun result => next result.1 depth result.2 := rfl

theorem pure_apply (x : α) (depth : Nat) (input : List Char) : (pure x : Reader α) depth input = .ok (x, input) := rfl

theorem bind_of_ok {read : Reader α} {next : α → Reader β} {depth : Nat} {input rest : List Char} {x : α}
    (h : read depth input = .ok (x, rest)) : (read >>= next) depth input = next x depth rest := by
  rw [bind_apply, h]
  rfl

theorem bind_of_outcome {read : Reader α} {next : α → Reader β} {depth needed needed' : Nat} {input rest rest' : List Char}
    {x : α} {y : β} (h : read depth input = outcome needed depth x rest)
    (hnext : next x depth rest = outcome needed' depth y rest') :
    (read >>= next) depth input = outcome (max needed needed') depth y rest' := by
  rw [bind_apply, h]
  exact outcome_bind hnext

theorem map_of_outcome {read : Reader α} {f : α → β} {depth needed : Nat} {input rest : List Char} {x : α}
    (h : read depth input = outcome needed depth x rest) :
    (read >>= fun x => pure (f x)) depth input = outcome needed depth (f x) rest := by
  rw [← Nat.max_zero needed]
  exact bind_of_outcome h rfl

/-! ## Single characters -/

theorem peek_of_not_blank {c : Char} (h : isBlank c = false) (depth : Nat) (rest : List Char) :
    peek depth (c :: rest) = .ok (some c, c :: rest) := by
  simp [peek, h]

theorem colon_apply (depth : Nat) (rest : List Char) : colon depth (':' :: rest) = .ok ((), rest) := rfl

theorem start_openSequence (depth : Nat) (rest : List Char) :
    start depth ('[' :: rest) = .ok (.sequence, '[' :: rest) := rfl

theorem start_openMap (depth : Nat) (rest : List Char) : start depth ('{' :: rest) = .ok (.map, '{' :: rest) := rfl

theorem endSequence_apply (depth : Nat) (rest : List Char) : endSequence depth (']' :: rest) = .ok ((), rest) := rfl

theorem nextKey_first (key : String) (depth : Nat) (rest : List Char) :
    nextKey true depth (escapedText key ++ rest) = .ok (true, escapedText key ++ rest) := rfl

theorem nextKey_further (key : String) (depth : Nat) (rest : List Char) :
    nextKey false depth (',' :: (escapedText key ++ rest)) = .ok (true, escapedText key ++ rest) := rfl

/-! ## Texts -/

theorem escapedText_append (s : String) (rest : List Char) :
    escapedText s ++ rest = '"' :: (s.toList.flatMap escapedChar ++ '"' :: rest) := by
  simp [escapedText]

theorem key_escapedText (s : String) (depth : Nat) (rest : List Char) :
    key depth (escapedText s ++ rest) = .ok (s, rest) := by
  rw [escapedText_append]
  exact textBody_escaped s depth rest

theorem start_escapedText (s : String) (depth : Nat) (rest : List Char) :
    start depth (escapedText s ++ rest) = .ok (.text s, rest) := by
  rw [escapedText_append, start, bind_of_ok (peek_of_not_blank rfl depth _)]
  change (advance >>= fun _ => textBody >>= fun s => pure (Found.text s)) depth _ = _
  rw [bind_of_ok (x := ()) rfl, List.tail_cons, bind_of_ok (textBody_escaped s depth rest)]
  rfl

theorem text_readsBack (s : String) (depth : Nat) : ReadsBack text depth (.text s) s := by
  intro rest
  rw [Document.print, text, textAs, bind_of_ok (start_escapedText s depth rest)]
  rfl

/-! ## Sequences -/

theorem nextElement_first {document : Document} (h : document.StartsValue) (depth : Nat) (rest : List Char) :
    nextElement true depth (document.print ++ rest) = .ok (true, document.print ++ rest) := by
  obtain ⟨c, cs, hprint, hblank, hclose⟩ := h
  rw [hprint, List.cons_append, nextElement, bind_of_ok (peek_of_not_blank hblank depth _)]
  simp [pure_apply]

theorem nextElement_further {document : Document} (h : document.StartsValue) (depth : Nat) (rest : List Char) :
    nextElement false depth (',' :: (document.print ++ rest)) = .ok (true, document.print ++ rest) := by
  obtain ⟨c, cs, hprint, hblank, hclose⟩ := h
  rw [hprint, List.cons_append, nextElement, bind_of_ok (peek_of_not_blank rfl depth _)]
  change (advance >>= fun _ => _) depth _ = _
  rw [bind_of_ok (x := ()) rfl, List.tail_cons, bind_of_ok (peek_of_not_blank hblank depth _)]
  simp [pure_apply]

variable {item : Reader α} {documents : List Document} {xs : List α} {depth : Nat}

theorem elements_further (h : List.Forall₂ (ReadsBack item depth) documents xs)
    (hstarts : ∀ document ∈ documents, document.StartsValue) {steps : Nat} (hsteps : documents.length < steps)
    (rest : List Char) :
    elements item steps false depth ((documents.flatMap fun next => ',' :: next.print) ++ ']' :: rest) =
      outcome (Document.depthOfItems documents) depth xs (']' :: rest) := by
  induction h generalizing steps with
  | nil =>
    obtain ⟨steps, rfl⟩ := Nat.exists_eq_succ_of_ne_zero (Nat.ne_of_gt hsteps)
    rfl
  | @cons document x documents xs hread _ ih =>
    obtain ⟨steps, rfl⟩ := Nat.exists_eq_succ_of_ne_zero (Nat.ne_of_gt (Nat.lt_of_le_of_lt (Nat.zero_le _) hsteps))
    rw [List.forall_mem_cons] at hstarts
    rw [List.length_cons, Nat.succ_lt_succ_iff] at hsteps
    rw [List.flatMap_cons, List.cons_append, List.cons_append, List.append_assoc, elements,
      bind_of_ok (nextElement_further hstarts.1 depth _), if_pos rfl, Document.depthOfItems]
    exact bind_of_outcome (hread _) (map_of_outcome (ih hstarts.2 hsteps))

theorem elements_written (h : List.Forall₂ (ReadsBack item depth) documents xs)
    (hstarts : ∀ document ∈ documents, document.StartsValue) {steps : Nat} (hsteps : documents.length < steps)
    (rest : List Char) :
    elements item steps true depth (Document.printItems documents ++ ']' :: rest) =
      outcome (Document.depthOfItems documents) depth xs (']' :: rest) := by
  obtain ⟨steps, rfl⟩ := Nat.exists_eq_succ_of_ne_zero (Nat.ne_of_gt (Nat.lt_of_le_of_lt (Nat.zero_le _) hsteps))
  cases h with
  | nil => rfl
  | @cons document x documents xs hread hrest =>
    rw [List.forall_mem_cons] at hstarts
    rw [List.length_cons, Nat.succ_lt_succ_iff] at hsteps
    rw [Document.printItems_cons, List.append_assoc, elements, bind_of_ok (nextElement_first hstarts.1 depth _),
      if_pos rfl, Document.depthOfItems]
    exact bind_of_outcome (hread _) (map_of_outcome (elements_further hrest hstarts.2 hsteps rest))

theorem length_le_length_printItems (documents : List Document) (rest : List Char) :
    documents.length ≤ (Document.printItems documents ++ ']' :: rest).length := by
  have hcommas : ∀ documents : List Document,
      documents.length ≤ (documents.flatMap fun next => ',' :: next.print).length := by
    intro documents
    induction documents with
    | nil => exact Nat.le_refl _
    | cons document documents ih =>
      rw [List.flatMap_cons, List.cons_append, List.length_cons, List.length_cons, List.length_append]
      omega
  cases documents with
  | nil => exact Nat.zero_le _
  | cons document documents =>
    have := hcommas documents
    rw [Document.printItems_cons, List.append_assoc, List.length_append, List.length_append, List.length_cons,
      List.length_cons]
    omega

/-- A bracket may be opened unless the limit is reached, and what is inside has one bracket less to open. -/
theorem nested_apply {read : Reader α} {needed : Nat} {bracket : Char} {input rest : List Char} {x : α}
    (h : ∀ depth', depth = depth' + 1 → read depth' input = outcome needed depth' x rest) :
    nested read depth (bracket :: input) = outcome (needed + 1) depth x rest := by
  cases depth with
  | zero => rfl
  | succ depth' =>
    rw [outcome_succ]
    exact h depth' rfl

/-- A list is read back if its items are, with one bracket less to open. -/
theorem list_readsBack
    (h : ∀ depth', depth = depth' + 1 → List.Forall₂ (ReadsBack item depth') documents xs)
    (hstarts : ∀ document ∈ documents, document.StartsValue) : ReadsBack (list item) depth (.sequence documents) xs := by
  intro rest
  have hprint : (Document.sequence documents).print ++ rest =
      '[' :: (Document.printItems documents ++ ']' :: rest) := by simp [Document.print]
  have hinside : nested (bounded fun steps => elements item steps true) depth
      ('[' :: (Document.printItems documents ++ ']' :: rest)) =
        outcome (Document.depthOfItems documents + 1) depth xs (']' :: rest) :=
    nested_apply fun depth' hdepth => elements_written (h depth' hdepth) hstarts
      (Nat.lt_succ_of_le (length_le_length_printItems documents rest)) rest
  rw [hprint, list, bind_of_ok (start_openSequence depth _), Document.depth, ← Nat.max_zero (_ + 1)]
  refine bind_of_outcome hinside ?_
  rw [bind_of_ok (endSequence_apply depth rest)]
  rfl

theorem texts_readsBack (texts : List String) (depth : Nat) : ReadsBack (list text) depth (.ofTexts texts) texts := by
  refine list_readsBack (fun depth' _ => ?_) (List.forall_mem_map.mpr fun s _ => .text s)
  exact List.forall₂_map_left_iff.mpr (List.forall₂_same.mpr fun s _ => text_readsBack s depth')

/-! ## Whole texts -/

/-- The text of a document alone is read for what it was written for, or found to nest too deep. -/
theorem run_toText {read : Reader α} {document : Document} {x : α} (h : ReadsBack read depthLimit document x) :
    run read document.toText = if document.depth ≤ depthLimit then .ok x else .error .recursionLimit := by
  have hread := h []
  rw [List.append_nil, outcome] at hread
  rw [run, Document.toText, String.toList_ofList, hread]
  by_cases hdepth : document.depth ≤ depthLimit
  · simp [hdepth]
  · simp [hdepth]

end Reader

end TypeScribe.Json
