import TypeScribe.Json.Fields
import TypeScribe.Proofs.WrittenDocuments

/-!
# Records and variants that are written

A record is written as a map of its fields in declared order. Its reader fills one slot after the other:
`Fields.progress` gives the slots after the first fields, and `fill_progress` is the step to the next one. A variant is
written as a map of one entry, or as its name alone if it carries nothing.
-/

namespace TypeScribe.Json

open Reader

namespace Fields

/-- The entries hold the fields in declared order, each written so that it is read back. -/
def Writes (depth : Nat) : Fields γ σ → List (String × Document) → γ → Prop
  | nil, entries, _ => entries = []
  | cons name read _ rest, entries, (x, xs) =>
    ∃ document following, entries = (name, document) :: following ∧ document.StartsValue ∧
      ReadsBack read depth document x ∧ rest.Writes depth following xs

theorem Writes.nil {depth : Nat} : Fields.nil.Writes depth [] () := rfl

theorem Writes.cons {read : Reader α} {absent : Option α} {rest : Fields β τ} {name : String} {document : Document}
    {entries : List (String × Document)} {x : α} {xs : β} {depth : Nat} (hstarts : document.StartsValue)
    (hread : ReadsBack read depth document x) (hrest : rest.Writes depth entries xs) :
    (Fields.cons name read absent rest).Writes depth ((name, document) :: entries) (x, xs) :=
  ⟨document, entries, rfl, hstarts, hread, hrest⟩

/-- The slots when the first `read` fields are filled. -/
def progress : Fields γ σ → (read : Nat) → γ → σ
  | nil, _, _ => ()
  | cons _ _ _ rest, 0, (_, xs) => (none, rest.progress 0 xs)
  | cons _ _ _ rest, read + 1, (x, xs) => (some x, rest.progress read xs)

theorem progress_zero (fields : Fields γ σ) (xs : γ) : fields.progress 0 xs = fields.vacant := by
  induction fields with
  | nil => rfl
  | cons name read absent rest ih => rw [progress, vacant, ih]

theorem collect_progress (fields : Fields γ σ) (xs : γ) : fields.collect (fields.progress fields.size xs) = .ok xs := by
  induction fields with
  | nil => rfl
  | cons name read absent rest ih =>
    rw [size, progress, collect]
    simp [ih, Except.map]

variable {fields : Fields γ σ} {entries : List (String × Document)} {xs : γ} {depth : Nat}

theorem Writes.names (h : fields.Writes depth entries xs) : entries.map (·.1) = fields.names := by
  induction fields generalizing entries with
  | nil =>
    obtain rfl : entries = [] := h
    rfl
  | cons name read absent rest ih =>
    obtain ⟨document, following, rfl, -, -, hrest⟩ := h
    rw [List.map_cons, ih hrest, names]

theorem size_eq_length_names (fields : Fields γ σ) : fields.size = fields.names.length := by
  induction fields with
  | nil => rfl
  | cons name read absent rest ih => rw [size, names, List.length_cons, ih]

theorem Writes.length (h : fields.Writes depth entries xs) : entries.length = fields.size := by
  rw [size_eq_length_names, ← h.names, List.length_map]

/-! ## Maps -/

theorem fill_progress (h : fields.Writes depth entries xs) (hnames : fields.names.Nodup) {i : Nat}
    {entry : String × Document} (hentry : entries[i]? = some entry) :
    ∃ fill, fields.fill? entry.1 (fields.progress i xs) = some fill ∧
      ∀ rest, fill depth (':' :: (entry.2.print ++ rest)) =
        outcome entry.2.depth depth (fields.progress (i + 1) xs) rest := by
  induction fields generalizing entries i with
  | nil =>
    obtain rfl : entries = [] := h
    cases hentry
  | cons name read absent following ih =>
    obtain ⟨document, entries, rfl, -, hread, hfollowing⟩ := h
    rw [names, List.nodup_cons] at hnames
    obtain ⟨x, xs⟩ := xs
    cases i with
    | zero =>
      rw [List.getElem?_cons_zero, Option.some.injEq] at hentry
      subst hentry
      refine ⟨_, if_pos rfl, fun rest => ?_⟩
      change (colon >>= fun _ => read >>= fun x => pure (some x, following.progress 0 xs)) depth _ = _
      rw [bind_of_ok (colon_apply depth _)]
      exact map_of_outcome (hread rest)
    | succ i =>
      rw [List.getElem?_cons_succ] at hentry
      obtain ⟨fill, hfill, hreads⟩ := ih hfollowing hnames.2 hentry
      have hother : entry.1 ≠ name := by
        rintro rfl
        refine hnames.1 ?_
        rw [← hfollowing.names]
        exact List.mem_map_of_mem (List.mem_of_getElem? hentry)
      refine ⟨_, by rw [progress, fill?, if_neg hother, hfill, Option.map_some], fun rest => ?_⟩
      exact map_of_outcome (hreads rest)

theorem readEntries_further (closed : Bool) (h : fields.Writes depth entries xs) (hnames : fields.names.Nodup)
    (steps i : Nat) (hsteps : entries.length < i + steps) (hi : i ≤ entries.length) (rest : List Char) :
    fields.readEntries closed steps false (fields.progress i xs) depth
      (((entries.drop i).flatMap fun next => ',' :: Document.printEntry next) ++ '}' :: rest) =
      outcome (Document.depthOfEntries (entries.drop i)) depth (fields.progress fields.size xs) ('}' :: rest) := by
  induction steps generalizing i with
  | zero => omega
  | succ steps ih =>
    rcases Nat.lt_or_eq_of_le hi with hlt | rfl
    · obtain ⟨fill, hfill, hreads⟩ := fill_progress h hnames (List.getElem?_eq_getElem hlt)
      rw [List.drop_eq_getElem_cons hlt, List.flatMap_cons, Document.depthOfEntries]
      have hinput : (',' :: Document.printEntry entries[i] ++
            (entries.drop (i + 1)).flatMap fun next => ',' :: Document.printEntry next) ++ '}' :: rest =
          ',' :: (escapedText entries[i].1 ++ ':' :: (entries[i].2.print ++
            (((entries.drop (i + 1)).flatMap fun next => ',' :: Document.printEntry next) ++ '}' :: rest))) := by
        simp [Document.printEntry]
      rw [hinput, readEntries, bind_of_ok (nextKey_further _ depth _), if_pos rfl,
        bind_of_ok (key_escapedText entries[i].1 depth _)]
      simp only [hfill]
      exact bind_of_outcome (hreads _) (ih (i + 1) (by omega) hlt)
    · rw [List.drop_length, h.length]
      rfl

theorem readEntries_written (closed : Bool) (h : fields.Writes depth entries xs) (hnames : fields.names.Nodup)
    {steps : Nat} (hsteps : entries.length < steps) (rest : List Char) :
    fields.readEntries closed steps true fields.vacant depth (Document.printEntries entries ++ '}' :: rest) =
      outcome (Document.depthOfEntries entries) depth (fields.progress fields.size xs) ('}' :: rest) := by
  obtain ⟨steps, rfl⟩ := Nat.exists_eq_succ_of_ne_zero (Nat.ne_of_gt (Nat.lt_of_le_of_lt (Nat.zero_le _) hsteps))
  rw [← progress_zero fields xs]
  cases entries with
  | nil =>
    rw [← h.length]
    rfl
  | cons entry following =>
    obtain ⟨fill, hfill, hreads⟩ := fill_progress h hnames (i := 0) rfl
    have hinput : Document.printEntries (entry :: following) ++ '}' :: rest =
        escapedText entry.1 ++ ':' :: (entry.2.print ++
          ((following.flatMap fun next => ',' :: Document.printEntry next) ++ '}' :: rest)) := by
      simp [Document.printEntries_cons, Document.printEntry]
    rw [hinput, readEntries, bind_of_ok (nextKey_first _ depth _), if_pos rfl, bind_of_ok (key_escapedText entry.1 depth _)]
    simp only [hfill, Document.depthOfEntries]
    refine bind_of_outcome (hreads _) ?_
    exact readEntries_further closed h hnames steps 1 (by rw [List.length_cons] at hsteps ⊢; omega) (by simp) rest

theorem length_le_length_printEntries (entries : List (String × Document)) (rest : List Char) :
    entries.length ≤ (Document.printEntries entries ++ '}' :: rest).length := by
  have hcommas : ∀ entries : List (String × Document),
      entries.length ≤ (entries.flatMap fun next => ',' :: Document.printEntry next).length := by
    intro entries
    induction entries with
    | nil => exact Nat.le_refl _
    | cons entry entries ih =>
      rw [List.flatMap_cons, List.cons_append, List.length_cons, List.length_cons, List.length_append]
      omega
  cases entries with
  | nil => exact Nat.zero_le _
  | cons entry entries =>
    have := hcommas entries
    rw [Document.printEntries_cons, List.append_assoc, List.length_append, List.length_append, List.length_cons,
      List.length_cons]
    omega

/-- A record that is written as a map is read back if its fields are, with one bracket less to open. -/
theorem record_readsBack {what : String} {closed : Bool} (hnames : fields.names.Nodup)
    (h : ∀ depth', depth = depth' + 1 → fields.Writes depth' entries xs) :
    ReadsBack (fields.record what closed) depth (.map entries) xs := by
  intro rest
  have hprint : (Document.map entries).print ++ rest = '{' :: (Document.printEntries entries ++ '}' :: rest) := by
    simp [Document.print]
  have hinside : nested (bounded fun steps => fields.readEntries closed steps true fields.vacant) depth
      ('{' :: (Document.printEntries entries ++ '}' :: rest)) =
        outcome (Document.depthOfEntries entries + 1) depth (fields.progress fields.size xs) ('}' :: rest) :=
    nested_apply fun depth' hdepth => readEntries_written closed (h depth' hdepth) hnames
      (Nat.lt_succ_of_le (length_le_length_printEntries entries rest)) rest
  rw [hprint, record, bind_of_ok (start_openMap depth _), Document.depth, ← Nat.max_zero (_ + 1)]
  refine bind_of_outcome hinside ?_
  rw [collect_progress]
  rfl

/-! ## Sequences -/

theorem readItems_cons {name expected : String} {read : Reader α} {absent : Option α} (index : Nat)
    {input rest : List Char} (more : nextElement (index == 0) depth input = .ok (true, rest)) :
    (cons name read absent fields).readItems expected index depth input =
      (read >>= fun x => fields.readItems expected (index + 1) >>= fun xs => pure (x, xs)) depth rest := by
  rw [readItems.eq_def]
  dsimp only
  rw [bind_of_ok more]
  rfl

theorem readItems_further (expected : String) (h : fields.Writes depth entries xs) (index : Nat) (rest : List Char) :
    fields.readItems expected (index + 1) depth
      (((entries.map (·.2)).flatMap fun next => ',' :: next.print) ++ ']' :: rest) =
      outcome (Document.depthOfItems (entries.map (·.2))) depth xs (']' :: rest) := by
  induction fields generalizing entries index with
  | nil =>
    obtain rfl : entries = [] := h
    rfl
  | cons name read absent following ih =>
    obtain ⟨document, entries, rfl, hstarts, hread, hfollowing⟩ := h
    rw [List.map_cons, List.flatMap_cons, List.cons_append, List.cons_append, List.append_assoc,
      readItems_cons (index + 1) (nextElement_further hstarts depth _), Document.depthOfItems]
    exact bind_of_outcome (hread _) (map_of_outcome (ih hfollowing (index + 1)))

/-- Values that are written as a sequence are read back if each is, with one bracket less to open. -/
theorem tuple_readsBack {what : String} (hsize : fields.size ≠ 0)
    (h : ∀ depth', depth = depth' + 1 → fields.Writes depth' entries xs) :
    ReadsBack (fields.tuple what) depth (.sequence (entries.map (·.2))) xs := by
  intro rest
  have hprint : (Document.sequence (entries.map (·.2))).print ++ rest =
      '[' :: (Document.printItems (entries.map (·.2)) ++ ']' :: rest) := by simp [Document.print]
  have hinside : nested (fields.readItems (expectation what fields.size) 0) depth
      ('[' :: (Document.printItems (entries.map (·.2)) ++ ']' :: rest)) =
        outcome (Document.depthOfItems (entries.map (·.2)) + 1) depth xs (']' :: rest) := by
    refine nested_apply fun depth' hdepth => ?_
    have hwrites := h depth' hdepth
    cases fields with
    | nil => exact absurd rfl hsize
    | cons name read absent following =>
      obtain ⟨document, entries, rfl, hstarts, hread, hfollowing⟩ := hwrites
      rw [List.map_cons, Document.printItems_cons, List.append_assoc,
        readItems_cons 0 (nextElement_first hstarts depth' _), Document.depthOfItems]
      exact bind_of_outcome (hread _) (map_of_outcome (readItems_further _ hfollowing 0 rest))
  rw [hprint, tuple, bind_of_ok (start_openSequence depth _), Document.depth, ← Nat.max_zero (_ + 1)]
  change (ofSequence what fields) depth _ = _
  rw [ofSequence]
  refine bind_of_outcome hinside ?_
  rw [bind_of_ok (endSequence_apply depth rest)]
  rfl

end Fields

/-! ## Variants -/

theorem lookup_of_getElem? {entries : List (String × β)} (hnames : (entries.map (·.1)).Nodup) {i : Nat} {name : String}
    {x : β} (h : entries[i]? = some (name, x)) : entries.lookup name = some x := by
  induction entries generalizing i with
  | nil => cases h
  | cons entry rest ih =>
    rw [List.map_cons, List.nodup_cons] at hnames
    cases i with
    | zero =>
      obtain rfl := Option.some.inj h
      exact List.lookup_cons_self
    | succ i =>
      rw [List.getElem?_cons_succ] at h
      have hother : (name == entry.1) = false := by
        refine beq_eq_false_iff_ne.mpr ?_
        rintro rfl
        exact hnames.1 (List.mem_map.mpr ⟨_, List.mem_of_getElem? h, rfl⟩)
      rw [List.lookup_cons, hother]
      exact ih hnames.2 h

namespace Reader

variable {variants : Variants ρ} {name : String} {payload : Payload ρ} {x : ρ} {depth : Nat}

/-- A variant that carries something is read back if what it carries is, with one bracket less to open. -/
theorem variant_readsBack {document : Document} (hpayload : variants.lookup name = some payload)
    (h : ∀ depth', depth = depth' + 1 → ReadsBack payload.read depth' document x) :
    ReadsBack (variant variants) depth (.tagged name document) x := by
  intro rest
  have hprint : (Document.tagged name document).print ++ rest =
      '{' :: (escapedText name ++ ':' :: (document.print ++ '}' :: rest)) := by
    simp [Document.tagged, Document.print, Document.printEntries]
  have hdepth : (Document.tagged name document).depth = document.depth + 1 := by
    simp [Document.tagged, Document.depth, Document.depthOfEntries]
  have hfind : Payload.find variants name = .ok payload := by simp [Payload.find, hpayload]
  have hinside : (nested do
      if ← nextKey true then
        Payload.ofKey variants fun payload => do
          colon
          payload.read
      else throw .expectedValue) depth ('{' :: (escapedText name ++ ':' :: (document.print ++ '}' :: rest))) =
        outcome (document.depth + 1) depth x ('}' :: rest) := by
    refine nested_apply fun depth' hdepth => ?_
    rw [bind_of_ok (nextKey_first name depth' _), if_pos rfl, Payload.ofKey,
      bind_of_ok (key_escapedText name depth' _)]
    simp only [hfind]
    rw [bind_of_ok (colon_apply depth' _)]
    exact h depth' hdepth _
  rw [hprint, hdepth, variant, bind_of_ok (peek_of_not_blank rfl depth _), ← Nat.max_zero (_ + 1)]
  refine bind_of_outcome hinside ?_
  rw [bind_of_ok (peek_of_not_blank rfl depth _)]
  rfl

theorem ReadsBack.bind {read : Reader α} {next : α → Reader β} {document : Document} {x : α} {y : β}
    (h : ReadsBack read depth document x) (hnext : ∀ rest, next x depth rest = .ok (y, rest)) :
    ReadsBack (read >>= next) depth document y := by
  intro rest
  rw [← Nat.max_zero document.depth]
  exact bind_of_outcome (h rest) (hnext rest)

variable {fields : Fields γ σ} {entries : List (String × Document)} {xs : γ} {make : γ → ρ} {what : String}

theorem recordVariant_readsBack (hpayload : variants.lookup name = some (.record what fields make))
    (hnames : fields.names.Nodup) (h : ∀ depth' < depth, fields.Writes depth' entries xs) (hmake : make xs = x) :
    ReadsBack (variant variants) depth (.tagged name (.map entries)) x := by
  subst hmake
  refine variant_readsBack hpayload fun depth' _ => ?_
  have hfields : ReadsBack (fields.record what false) depth' (.map entries) xs :=
    Fields.record_readsBack hnames fun depth'' _ => h depth'' (by omega)
  exact hfields.bind fun _ => rfl

theorem tupleVariant_readsBack {documents : List Document}
    (hpayload : variants.lookup name = some (.tuple what fields make)) (hsize : fields.size ≠ 0)
    (h : ∀ depth' < depth, fields.Writes depth' entries xs) (hdocuments : entries.map (·.2) = documents)
    (hmake : make xs = x) : ReadsBack (variant variants) depth (.tagged name (.sequence documents)) x := by
  subst hdocuments
  subst hmake
  refine variant_readsBack hpayload fun depth' _ => ?_
  have hfields : ReadsBack (fields.tuple what) depth' (.sequence (entries.map (·.2))) xs :=
    Fields.tuple_readsBack hsize fun depth'' _ => h depth'' (by omega)
  exact hfields.bind fun _ => rfl

theorem unit_readsBack (hpayload : variants.lookup name = some (.unit x)) :
    ReadsBack (variant variants) depth (.text name) x := by
  intro rest
  have hfind : Payload.find variants name = .ok (.unit x) := by simp [Payload.find, hpayload]
  rw [Document.print, escapedText_append, variant, bind_of_ok (peek_of_not_blank rfl depth _), ← escapedText_append]
  change Payload.ofKey variants (fun payload => liftM payload.bare) depth _ = _
  rw [Payload.ofKey, bind_of_ok (key_escapedText name depth _)]
  simp only [hfind]
  rfl

end Reader

end TypeScribe.Json
