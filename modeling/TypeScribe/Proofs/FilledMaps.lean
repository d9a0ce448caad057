import Mathlib.Data.List.Induction
import TypeScribe.Proofs.Lookups
import TypeScribe.Proofs.WrittenOptions

/-!
# Ways to fill a dependency map

Entries are inserted one after the other, into the map itself or through the options that hold it, or many of them at
once: as pairs, as a list, as JSON text or as part of the text of options. Each of these steps leads from the map that
some entries fill in order to the map that these and the further entries fill in order. So after any steps the map is the
one of all entries so far (`Filled.eq_ofEntries`), in which a type stands where it came up first and has the location that
came up last.
-/

namespace TypeScribe

open Json

theorem eraseDups_append_singleton [DecidableEq α] (xs : List α) (x : α) :
    (xs ++ [x]).eraseDups = if x ∈ xs then xs.eraseDups else xs.eraseDups ++ [x] := by
  rw [List.eraseDups_append, List.removeAll]
  by_cases hmem : x ∈ xs
  · simp [hmem]
  · simp [hmem, List.eraseDups_cons]

theorem Dependency.identities_put (entry : Dependency) (entries : List Dependency) :
    (entry.put entries).map (·.identity) =
      if entry.identity ∈ entries.map (·.identity) then entries.map (·.identity)
      else entries.map (·.identity) ++ [entry.identity] := by
  induction entries with
  | nil => rfl
  | cons first rest ih =>
    unfold put
    split
    · next hsame => simp [hsame]
    · next hdiffers =>
      rw [List.map_cons, ih]
      by_cases hmem : entry.identity ∈ rest.map (·.identity)
      · rw [if_pos hmem, List.map_cons, if_pos (List.mem_cons_of_mem _ hmem)]
      · have habsent : entry.identity ∉ (first :: rest).map (·.identity) := fun h =>
          (List.mem_cons.mp h).elim (fun h => hdiffers h.symm) hmem
        rw [if_neg hmem, if_neg habsent]
        rfl

namespace DependencyMap

/-! ## The map of a list of entries -/

theorem ofEntries_append (entries more : List Dependency) :
    ofEntries (entries ++ more) = (ofEntries entries).insertAll more :=
  List.foldl_append ..

theorem ofEntries_append_singleton (entries : List Dependency) (entry : Dependency) :
    ofEntries (entries ++ [entry]) = (ofEntries entries).insert entry.identity entry.location :=
  ofEntries_append entries [entry]

/-- The entries of a map stand for all those that filled it. -/
theorem ofEntries_entries_append (entries more : List Dependency) :
    ofEntries ((ofEntries entries).entries ++ more) = ofEntries (entries ++ more) := by
  rw [ofEntries_append, ofEntries_entries, ofEntries_append]

theorem collect_eq_ofEntries (pairs : List (Identity × Location)) :
    collect pairs = ofEntries (pairs.map Dependency.ofPair) := by
  rw [ofEntries, insertAll, List.foldl_map]
  rfl

theorem collect_pairs_append (entries : List Dependency) (pairs : List (Identity × Location)) :
    collect (entries.map (·.pair) ++ pairs) = ofEntries (entries ++ pairs.map .ofPair) := by
  have hpairs : (entries.map (·.pair)).map .ofPair = entries := by simp [Function.comp_def]
  rw [collect_eq_ofEntries, List.map_append, hpairs]

theorem get?_ofEntries (entries : List Dependency) (identity : Identity) :
    (ofEntries entries).get? identity = (entries.findRev? (·.identity == identity)).map (·.location) := by
  rw [List.findRev?_eq_find?_reverse]
  -- entries are inserted in order, so the one to take off is the last one
  induction entries using List.reverseRecOn with
  | nil => rfl
  | append_singleton front entry ih =>
    rw [ofEntries_append_singleton, get?_insert, ih, List.reverse_append]
    by_cases hsame : entry.identity = identity
    · simp [hsame]
    · simp [hsame]

theorem identities_ofEntries (entries : List Dependency) :
    (ofEntries entries).entries.map (·.identity) = (entries.map (·.identity)).eraseDups := by
  induction entries using List.reverseRecOn with
  | nil => rfl
  | append_singleton front entry ih =>
    rw [ofEntries_append_singleton, insert, Dependency.identities_put, ih, List.map_append]
    simp only [List.map_singleton, List.mem_eraseDups, eraseDups_append_singleton]

/-! ## Maps in JSON -/

/-- A text is read as a map exactly as it is read as a list of entries. -/
theorem run_reader (text : String) :
    Reader.run reader text = (Reader.run (Reader.list Dependency.reader) text).map ofEntries := by
  unfold Reader.run reader
  rw [Reader.bind_apply]
  cases Reader.list Dependency.reader depthLimit text.toList with
  | error e => rfl
  | ok result =>
    change (if result.2.all isBlank then _ else _) = Except.map _ (if result.2.all isBlank then _ else _)
    split
    · rfl
    · rfl

theorem run_listDocument (entries : List Dependency) :
    Reader.run (Reader.list Dependency.reader) (Dependency.listDocument entries).toText = .ok entries := by
  have hdepth : (Dependency.listDocument entries).depth ≤ depthLimit :=
    Nat.le_trans (Dependency.depth_listDocument_le entries) (by decide)
  rw [Reader.run_toText (Dependency.list_readsBack entries depthLimit), if_pos hdepth]

theorem run_reader_listDocument (entries : List Dependency) :
    Reader.run reader (Dependency.listDocument entries).toText = .ok (ofEntries entries) := by
  rw [run_reader, run_listDocument]
  rfl

/-! ## Steps -/

/-- The map can be filled with the entries in this order. A step adds further entries to a map that is filled already,
and may make it a list first. -/
inductive Filled : (entries : List Dependency) → (map : DependencyMap) → Prop where
  | empty : Filled [] .empty
  | insert {entries map} (h : Filled entries map) (identity : Identity) (location : Location) :
      Filled (entries ++ [⟨identity, location⟩]) (map.insert identity location)
  /-- The options that hold the map are changed. -/
  | change {entries} {options : Options} (h : Filled entries options.dependencies) (identity : Identity)
      (location : Location) :
      Filled (entries ++ [⟨identity, location⟩]) (options.change (.dependency identity location)).dependencies
  | collect {entries map} (h : Filled entries map) (pairs : List (Identity × Location)) :
      Filled (entries ++ pairs.map .ofPair) (.collect (map.entries.map (·.pair) ++ pairs))
  | convert {entries map} (h : Filled entries map) (more : List Dependency) :
      Filled (entries ++ more) (.ofEntries (map.entries ++ more))
  /-- A text is read that holds the list, in whatever form. -/
  | load {entries map map'} (h : Filled entries map) (more : List Dependency) {text : String}
      (hlist : Reader.run (Reader.list Dependency.reader) text = .ok (map.entries ++ more))
      (hread : Reader.run reader text = .ok map') : Filled (entries ++ more) map'
  /-- The text of options is read that holds the list. -/
  | parse {entries map} (h : Filled entries map) (more : List Dependency) {options read : Options}
      (hread : Options.parse (options.listing (map.entries ++ more)).toText = .ok read) :
      Filled (entries ++ more) read.dependencies

variable {map : DependencyMap} {entries : List Dependency}

theorem Filled.eq_ofEntries (h : Filled entries map) : map = ofEntries entries := by
  -- each step inserts its entries after those that came before, as `ofEntries` does with all of them
  induction h with
  | empty => rfl
  | insert _ identity location ih => rw [ofEntries_append_singleton, ← ih]
  | change _ identity location ih =>
    rw [ofEntries_append_singleton, ← ih]
    rfl
  | collect _ pairs ih => rw [collect_pairs_append, ih, ofEntries_entries_append]
  | convert _ more ih => rw [ih, ofEntries_entries_append]
  | load _ more hlist hread ih =>
    rw [run_reader, hlist, ih] at hread
    rw [← ofEntries_entries_append]
    exact (Except.ok.inj hread).symm
  | @parse _ _ _ more options _ hread ih =>
    rw [options.parse_listing, ih, ofEntries_entries_append] at hread
    rw [← Except.ok.inj hread]

/-- All ways to fill a map with the same entries in the same order lead to one map. It has the last location of each type,
and holds each type once, in the order in which the types came up first. Its text holds this list, and the list, the text
and the list of all entries are filled into the same map. -/
theorem filled_agree (h : Filled entries map) :
    (∀ map', Filled entries map' → map' = map) ∧
    (∀ identity, map.get? identity = (entries.findRev? (·.identity == identity)).map (·.location)) ∧
    map.entries.map (·.identity) = (entries.map (·.identity)).eraseDups ∧
    (map.entries.map (·.identity)).Nodup ∧
    Reader.run (Reader.list Dependency.reader) map.toDocument.toText = .ok map.entries ∧
    Reader.run reader map.toDocument.toText = .ok map ∧
    ofEntries map.entries = map ∧
    ofEntries entries = map ∧
    Reader.run reader (Dependency.listDocument entries).toText = .ok map ∧
    ∀ options : Options, Options.parse (options.listing entries).toText = .ok { options with dependencies := map } := by
  obtain rfl := h.eq_ofEntries
  refine ⟨fun map' h' => h'.eq_ofEntries, get?_ofEntries entries, identities_ofEntries entries, nodup _,
    run_listDocument _, ?_, ofEntries_entries _, rfl, run_reader_listDocument entries, fun options => ?_⟩
  · have hread := run_reader_listDocument (ofEntries entries).entries
    rwa [ofEntries_entries] at hread
  · exact options.parse_listing entries

theorem atlas_agree :
    let town : Identity := ⟨"main", "Atlas", "Town"⟩
    let river : Identity := ⟨"main", "Atlas", "River"⟩
    let road : Identity := ⟨"main", "Atlas", "Road"⟩
    let draft : Location := ⟨["draft"], []⟩
    let atlas : Location := ⟨["lib", "atlas"], ["Plain"]⟩
    ∃ map, Filled [⟨town, draft⟩, ⟨river, draft⟩, ⟨town, atlas⟩, ⟨road, draft⟩, ⟨river, atlas⟩, ⟨town, draft⟩,
        ⟨road, atlas⟩] map ∧
      map.get? town = some draft ∧ map.get? river = some atlas ∧ map.get? road = some atlas ∧
      map.get? ⟨"main", "Atlas", "Lake"⟩ = none ∧ map.entries.map (·.identity) = [town, river, road] := by
  intro town river road draft atlas
  have hcollected := Filled.empty.collect [(town, draft), (river, draft)]
  have hinserted := hcollected.insert town atlas
  have hconverted := hinserted.convert [⟨road, draft⟩]
  have hloaded := hconverted.load [⟨river, atlas⟩] (run_listDocument _) (run_reader_listDocument _)
  have hparsed := hloaded.parse [⟨town, draft⟩] (Options.parse_listing {} _)
  have hfilled := hparsed.change road atlas
  obtain ⟨-, hlocation, horder, -⟩ := filled_agree hfilled
  exact ⟨_, hfilled, hlocation town, hlocation river, hlocation road, hlocation _, horder⟩

end DependencyMap

end TypeScribe
