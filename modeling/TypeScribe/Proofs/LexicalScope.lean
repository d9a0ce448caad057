import Mathlib.Data.List.Infix
import TypeScribe.Qualification

/-!
# Where qualified references lead

A path of modules is resolved from inside a module: its first name is the member of that name of the nearest module
around, its further names lead downward. The modules to name for a reference are found from the two locations alone, as
what is left of the path to the target after the scope that both share. `qualify_resolves` says when they lead to the
target: unless a nearer scope has a member of the first name.
-/

namespace TypeScribe

/-! ## Modules and their members -/

namespace DependencyMap

variable (map : DependencyMap)

/-- The path is that of a module: of one in which a type of the map is located, or of one around such a module. -/
def IsModule (path : List String) : Prop := path ≠ [] ∧ ∃ entry ∈ map.entries, path <+: entry.location.fullPath

instance (path : List String) : Decidable (map.IsModule path) := inferInstanceAs (Decidable (_ ∧ _))

/-- The module that `name` stands for in code inside `here`: the member of that name of the nearest module around it, or
the module of that name at the top level. -/
def nearest (here : List String) (name : String) : Option (List String) :=
  (here.inits.reverse.map (· ++ [name])).find? (map.IsModule ·)

/-- The module that a path leads to from `scope` downward. -/
def descend (scope : List String) : List String → Option (List String)
  | [] => some scope
  | name :: rest => if map.IsModule (scope ++ [name]) then descend (scope ++ [name]) rest else none

/-- The module that a path stands for in code inside `here`. No module is named by the empty path. -/
def resolve (here : List String) : List String → Option (List String)
  | [] => none
  | first :: rest => (map.nearest here first).bind (map.descend · rest)

variable {map} {here scope path found : List String} {name : String}

theorem IsModule.of_append {more : List String} (h : map.IsModule (path ++ more)) (hne : path ≠ []) :
    map.IsModule path := by
  obtain ⟨-, entry, hentry, hprefix⟩ := h
  exact ⟨hne, entry, hentry, (List.prefix_append path more).trans hprefix⟩

theorem pairwise_inits_length (here : List String) : here.inits.Pairwise (·.length < ·.length) := by
  induction here with
  | nil => exact List.pairwise_singleton _ _
  | cons m rest ih =>
    rw [List.inits, List.pairwise_cons, List.pairwise_map]
    refine ⟨fun longer hlonger => ?_, ih.imp fun h => by simpa using h⟩
    obtain ⟨front, -, rfl⟩ := List.mem_map.mp hlonger
    exact Nat.succ_pos _

/-- The nearest scope with a member of the name is the longest one. -/
theorem nearest_eq_some : map.nearest here name = some found ↔
    ∃ scope, scope <+: here ∧ found = scope ++ [name] ∧ map.IsModule found ∧
      ∀ nearer, nearer <+: here → scope.length < nearer.length → ¬ map.IsModule (nearer ++ [name]) := by
  have hpairwise : (here.inits.reverse.map (· ++ [name])).Pairwise fun a b => b.length < a.length := by
    rw [List.pairwise_map, List.pairwise_reverse]
    exact (pairwise_inits_length here).imp fun h => by simpa using h
  have hmem : ∀ {path}, path ∈ here.inits.reverse.map (· ++ [name]) ↔ ∃ scope, scope <+: here ∧ scope ++ [name] = path := by
    simp [List.mem_map, List.mem_inits]
  rw [nearest]
  constructor
  · intro h
    obtain ⟨hmodule, longer, shorter, hsplit, hlonger⟩ := List.find?_eq_some_iff_append.mp h
    obtain ⟨scope, hscope, rfl⟩ := hmem.mp (List.mem_of_find?_eq_some h)
    refine ⟨scope, hscope, rfl, of_decide_eq_true hmodule, fun nearer hnearer hlt hmember => ?_⟩
    rw [hsplit] at hpairwise hmem
    rcases List.mem_append.mp (hmem.mpr ⟨nearer, hnearer, rfl⟩) with hcandidate | hcandidate
    · have := hlonger _ hcandidate
      simp [hmember] at this
    · rcases List.mem_cons.mp hcandidate with hsame | hcandidate
      · rw [List.append_cancel_right hsame] at hlt
        exact Nat.lt_irrefl _ hlt
      · have := (List.pairwise_cons.mp (List.pairwise_append.mp hpairwise).2.1).1 _ hcandidate
        simp only [List.length_append] at this
        omega
  · rintro ⟨scope, hscope, rfl, hmodule, hnearest⟩
    obtain ⟨longer, shorter, hsplit⟩ := List.append_of_mem (hmem.mpr ⟨scope, hscope, rfl⟩)
    refine List.find?_eq_some_iff_append.mpr ⟨decide_eq_true hmodule, longer, shorter, hsplit, fun path hpath => ?_⟩
    obtain ⟨nearer, hnearer, rfl⟩ := hmem.mp (hsplit ▸ List.mem_append_left _ hpath)
    rw [hsplit] at hpairwise
    have hlt := (List.pairwise_append.mp hpairwise).2.2 _ hpath _ List.mem_cons_self
    simp only [List.length_append] at hlt
    simpa using hnearest nearer hnearer (by omega)

theorem eq_append_of_descend (h : map.descend scope path = some found) : found = scope ++ path := by
  induction path generalizing scope with
  | nil => rw [List.append_nil, ← Option.some.inj h]
  | cons name rest ih =>
    rw [descend] at h
    split at h
    · rw [ih h, List.append_assoc, List.singleton_append]
    · cases h

theorem descend_of_isModule (h : map.IsModule (scope ++ path)) : map.descend scope path = some (scope ++ path) := by
  induction path generalizing scope with
  | nil => rw [descend, List.append_nil]
  | cons name rest ih =>
    rw [← List.singleton_append, ← List.append_assoc] at h
    rw [descend, if_pos (h.of_append (by simp)), ih h, List.append_assoc, List.singleton_append]

/-- A path leads from a scope to the module below it exactly if no nearer scope has a member of its first name. -/
theorem resolve_eq_some {rest : List String} (hscope : scope <+: here) (hmodule : map.IsModule (scope ++ name :: rest)) :
    map.resolve here (name :: rest) = some (scope ++ name :: rest) ↔
      ∀ nearer, nearer <+: here → scope.length < nearer.length → ¬ map.IsModule (nearer ++ [name]) := by
  have hsplit : scope ++ name :: rest = (scope ++ [name]) ++ rest := by simp
  rw [hsplit] at hmodule ⊢
  constructor
  · intro h
    obtain ⟨found, hfound, hdescend⟩ := Option.bind_eq_some_iff.mp h
    obtain ⟨scope', hscope', rfl, -, hnearest⟩ := nearest_eq_some.mp hfound
    have hlength := congrArg List.length (eq_append_of_descend hdescend)
    simp only [List.length_append] at hlength
    intro nearer hnearer hlt
    exact hnearest nearer hnearer (by omega)
  · intro h
    have hfound : map.nearest here name = some (scope ++ [name]) :=
      nearest_eq_some.mpr ⟨scope, hscope, rfl, hmodule.of_append (by simp), h⟩
    rw [resolve, hfound, Option.bind_some, descend_of_isModule hmodule]

end DependencyMap

/-! ## Paths between locations -/

namespace Location

/-- The front that both lists share. -/
def sharedFront : List String → List String → List String
  | a :: as, b :: bs => if a = b then a :: sharedFront as bs else []
  | _, _ => []

theorem sharedFront_append_dropShared (here there : List String) :
    sharedFront here there ++ dropShared here there = there := by
  fun_induction sharedFront here there with
  | case1 as b bs ih => simp [dropShared, ih]
  | case2 a as b bs h => simp [dropShared, h]
  | case3 here there h =>
    unfold dropShared
    split
    · next a as b bs => exact absurd rfl (h a as b bs rfl)
    · rfl

theorem isPrefix_sharedFront (here there : List String) : sharedFront here there <+: here := by
  fun_induction sharedFront here there with
  | case1 as b bs ih => exact List.cons_prefix_cons.mpr ⟨rfl, ih⟩
  | case2 => exact List.nil_prefix
  | case3 => exact List.nil_prefix

/-- The scope from which the path to the target starts: the innermost module of the same file around both locations, or
the top level for another file. -/
def sharedScope (here there : Location) : List String :=
  if here.file = there.file then
    (here.file.getLast?.toList ++ sharedFront here.submodules there.submodules).map Name.upperFirst
  else []

theorem sharedScope_append_pathFrom (here there : Location) :
    sharedScope here there ++ here.pathFrom there = there.fullPath := by
  unfold sharedScope pathFrom
  split
  · next hfile =>
    rw [← List.map_append, List.append_assoc, sharedFront_append_dropShared, hfile, fullPath]
  · rfl

theorem isPrefix_sharedScope (here there : Location) : sharedScope here there <+: here.fullPath := by
  unfold sharedScope
  split
  · exact ((List.prefix_append_right_inj _).mpr (isPrefix_sharedFront _ _)).map _
  · exact List.nil_prefix

theorem fullPath_ne_nil {location : Location} (h : location.isValid = true) : location.fullPath ≠ [] := by
  have hfile : location.file ≠ [] := by
    intro hnil
    simp [isValid, hnil] at h
  rw [fullPath, List.getLast?_eq_some_getLast hfile]
  exact List.cons_ne_nil _ _

end Location

/-! ## References -/

namespace DependencyMap

variable {map : DependencyMap} {current target : Identity} {here there : Location}

theorem validLocation_eq_some (hget : map.get? current = some here) (hvalid : here.isValid = true) :
    map.validLocation current = .ok (some here) := by
  rw [validLocation, hget]
  exact if_pos hvalid

/-- Between types with locations, the modules to name are what is left of the path to the target after a scope around
the code. They lead to the target exactly if no scope nearer to the code has a member of the first name, and none are
named only where the target's module is around the code. -/
theorem qualify_resolves (hvalid : ∀ entry ∈ map.entries, entry.location.isValid = true) (hdistinct : current ≠ target)
    (hhere : map.get? current = some here) (hthere : map.get? target = some there) :
    ∃ modules, map.qualify current target = .ok modules ∧
      here.sharedScope there <+: here.fullPath ∧ here.sharedScope there ++ modules = there.fullPath ∧
      (modules = [] → there.fullPath <+: here.fullPath) ∧
      ∀ first rest, modules = first :: rest →
        (map.resolve here.fullPath modules = some there.fullPath ↔
          ∀ nearer, nearer <+: here.fullPath → (here.sharedScope there).length < nearer.length →
            ¬ map.IsModule (nearer ++ [first])) := by
  obtain ⟨entry, hentry, rfl⟩ := exists_of_get? hhere
  obtain ⟨entry', hentry', rfl⟩ := exists_of_get? hthere
  have hpath := Location.sharedScope_append_pathFrom entry.location entry'.location
  have hscope := Location.isPrefix_sharedScope entry.location entry'.location
  refine ⟨entry.location.pathFrom entry'.location, ?_, hscope, hpath, fun hnil => ?_, fun first rest hmodules => ?_⟩
  · rw [qualify, if_neg hdistinct, validLocation_eq_some hhere (hvalid _ hentry),
      validLocation_eq_some hthere (hvalid _ hentry')]
    rfl
  · rwa [← hpath, hnil, List.append_nil]
  · have hmodule : map.IsModule entry'.location.fullPath :=
      ⟨Location.fullPath_ne_nil (hvalid _ hentry'), entry', hentry', List.prefix_rfl⟩
    rw [← hpath, hmodules] at hmodule ⊢
    exact resolve_eq_some hscope hmodule

/-! ## A name that is used twice -/

/-- A type at the outer module `A.B`, one at `A.X`, and one at the module `A.X.B` inside it. -/
def twoNamesakes : DependencyMap :=
  .ofEntries [⟨⟨"main", "Types", "Outer"⟩, ⟨["a"], ["B"]⟩⟩, ⟨⟨"main", "Types", "Between"⟩, ⟨["a"], ["X"]⟩⟩,
    ⟨⟨"main", "Types", "Inner"⟩, ⟨["a"], ["X", "B"]⟩⟩]

theorem outer_reaches_inner :
    twoNamesakes.qualify ⟨"main", "Types", "Outer"⟩ ⟨"main", "Types", "Inner"⟩ = .ok ["X", "B"] ∧
      twoNamesakes.resolve ["A", "B"] ["X", "B"] = some ["A", "X", "B"] := by
  have hqualify : twoNamesakes.qualify ⟨"main", "Types", "Outer"⟩ ⟨"main", "Types", "Inner"⟩ = .ok ["X", "B"] := by
    decide
  obtain ⟨modules, hmodules, -, -, -, hresolve⟩ :=
    qualify_resolves (by decide : ∀ entry ∈ twoNamesakes.entries, entry.location.isValid = true)
      (by decide : (⟨"main", "Types", "Outer"⟩ : Identity) ≠ ⟨"main", "Types", "Inner"⟩) rfl rfl
  obtain rfl := Except.ok.inj (hqualify.symm.trans hmodules)
  refine ⟨hqualify, (hresolve "X" ["B"] rfl).mpr fun nearer hnearer => ?_⟩
  rw [← List.mem_inits] at hnearer
  revert nearer
  decide

/-- The outer module is not reached from the module between: its name stands for the inner module there. -/
theorem inner_captures_outer :
    (∀ entry ∈ twoNamesakes.entries, entry.location.isValid = true) ∧
    (∀ entry ∈ twoNamesakes.entries, ∀ entry' ∈ twoNamesakes.entries, entry.location.file ≠ entry'.location.file →
      entry.location.file.getLast?.map Name.upperFirst ≠ entry'.location.file.getLast?.map Name.upperFirst) ∧
    twoNamesakes.get? ⟨"main", "Types", "Between"⟩ = some ⟨["a"], ["X"]⟩ ∧
    twoNamesakes.get? ⟨"main", "Types", "Outer"⟩ = some ⟨["a"], ["B"]⟩ ∧
    twoNamesakes.qualify ⟨"main", "Types", "Between"⟩ ⟨"main", "Types", "Outer"⟩ = .ok ["B"] ∧
    Location.fullPath ⟨["a"], ["X"]⟩ = ["A", "X"] ∧ Location.fullPath ⟨["a"], ["B"]⟩ = ["A", "B"] ∧
    twoNamesakes.resolve ["A", "X"] ["B"] = some ["A", "X", "B"] := by
  decide

end DependencyMap

end TypeScribe
