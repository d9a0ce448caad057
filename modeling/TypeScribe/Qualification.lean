import TypeScribe.Name.Transform
import TypeScribe.RenderError
import TypeScribe.Value

/-!
# Locations of types and qualified references

A location is the path of an output file and the path of a module inside that file. The file's last segment names its
top-level module. A dependency map tells which output module owns a type. It keeps the order in which identities were
first inserted; a later insertion of the same identity changes its location in place.

`qualify` gives the modules that code rendered for one type must name to reach another type. Types without a location
stand beside the other types of the module they come from.
-/

namespace TypeScribe

/-- The path of a file, without its ending, and the path of a module in it. -/
structure Location where
  file : List String
  submodules : List String := []
deriving DecidableEq, Repr, Inhabited

namespace Location

/-- Whether there is a file and no segment is empty. -/
def isValid (location : Location) : Bool :=
  !location.file.isEmpty && location.file.all (· != "") && location.submodules.all (· != "")

/-- The modules to go through from the top level. -/
def fullPath (location : Location) : List String :=
  (location.file.getLast?.toList ++ location.submodules).map Name.upperFirst

/-- The second list without the front that both lists share. -/
def dropShared : List String → List String → List String
  | a :: as, b :: bs => if a = b then dropShared as bs else b :: bs
  | _, bs => bs

/-- The modules to go through from code at `here` to `target`. Inside one file the shared front is left out. -/
def pathFrom (here target : Location) : List String :=
  if here.file = target.file then (dropShared here.submodules target.submodules).map Name.upperFirst
  else target.fullPath

end Location

/-! ## Dependency maps -/

structure Dependency where
  identity : Identity
  location : Location
deriving DecidableEq, Repr, Inhabited

def Dependency.ofPair (pair : Identity × Location) : Dependency := ⟨pair.1, pair.2⟩

def Dependency.pair (entry : Dependency) : Identity × Location := (entry.identity, entry.location)

@[simp] theorem Dependency.ofPair_pair (entry : Dependency) : ofPair entry.pair = entry := rfl

/-- The entries with that of `entry.identity` replaced, or with `entry` at the end if there is none. -/
def Dependency.put (entry : Dependency) : List Dependency → List Dependency
  | [] => [entry]
  | first :: rest => if first.identity = entry.identity then entry :: rest else first :: entry.put rest

theorem Dependency.mem_identities_put {entry : Dependency} {identity : Identity} :
    ∀ {entries : List Dependency}, identity ∈ (entry.put entries).map (·.identity) →
      identity = entry.identity ∨ identity ∈ entries.map (·.identity)
  | [], h => by simpa [put] using h
  | first :: rest, h => by
    unfold put at h
    split at h
    · simp only [List.map_cons, List.mem_cons] at h ⊢
      exact h.imp id Or.inr
    · simp only [List.map_cons, List.mem_cons] at h ⊢
      rcases h with h | h
      · exact Or.inr (Or.inl h)
      · exact (mem_identities_put h).imp id Or.inr

theorem Dependency.nodup_put (entry : Dependency) :
    ∀ {entries : List Dependency}, (entries.map (·.identity)).Nodup →
      ((entry.put entries).map (·.identity)).Nodup
  | [], _ => by simp [put]
  | first :: rest, h => by
    rw [List.map_cons, List.nodup_cons] at h
    unfold put
    split
    · next same =>
      rw [List.map_cons, List.nodup_cons]
      exact ⟨same ▸ h.1, h.2⟩
    · next differs =>
      rw [List.map_cons, List.nodup_cons]
      exact ⟨fun mem => (mem_identities_put mem).elim differs h.1, nodup_put entry h.2⟩

/-- Types with their locations, each type once. -/
structure DependencyMap where
  entries : List Dependency
  nodup : (entries.map (·.identity)).Nodup

namespace DependencyMap

def empty : DependencyMap := ⟨[], List.nodup_nil⟩

instance : Inhabited DependencyMap := ⟨empty⟩

def insert (map : DependencyMap) (identity : Identity) (location : Location) : DependencyMap :=
  { entries := Dependency.put ⟨identity, location⟩ map.entries
    nodup := Dependency.nodup_put _ map.nodup }

def insertAll (map : DependencyMap) (entries : List Dependency) : DependencyMap :=
  entries.foldl (fun map entry => map.insert entry.identity entry.location) map

/-- The map that a list of entries fills: the first entry of a type places it, the last one locates it. -/
def ofEntries (entries : List Dependency) : DependencyMap :=
  empty.insertAll entries

def collect (pairs : List (Identity × Location)) : DependencyMap :=
  pairs.foldl (fun map pair => map.insert pair.1 pair.2) empty

def get? (map : DependencyMap) (identity : Identity) : Option Location :=
  (map.entries.find? (·.identity == identity)).map (·.location)

theorem exists_of_get? {map : DependencyMap} {identity : Identity} {location : Location}
    (h : map.get? identity = some location) : ∃ entry ∈ map.entries, entry.location = location := by
  obtain ⟨entry, hentry, hlocation⟩ := Option.map_eq_some_iff.mp h
  exact ⟨entry, List.mem_of_find?_eq_some hentry, hlocation⟩

end DependencyMap

/-! ## References -/

namespace DependencyMap

/-- The location of a type, which must be valid if there is one. -/
def validLocation (map : DependencyMap) (identity : Identity) : Except RenderError (Option Location) :=
  match map.get? identity with
  | some location => if location.isValid then .ok (some location) else .error (.invalidLocation identity)
  | none => .ok none

/-- The modules to name in code for `current` to reach `target`, none where it is in sight. -/
def qualify (map : DependencyMap) (current target : Identity) : Except RenderError (List String) := do
  if current = target then
    return []
  let here ← map.validLocation current
  match here, ← map.validLocation target with
  | _, none =>
    if target.sharesModule current then return [] else throw (.unknownIdentity target current)
  | some here, some there => return here.pathFrom there
  | none, some there => if target.sharesModule current then return [] else return there.fullPath

end DependencyMap

end TypeScribe
