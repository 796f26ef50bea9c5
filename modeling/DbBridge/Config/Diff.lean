import DbBridge.Config.Validate
import DbBridge.State.Memory

/-!
# Differences between two configurations

`config/diff.go`: what a reload reports. The maps are iterated in the order of their
entries; Go's order is arbitrary, and nothing below depends on it.
-/

namespace DbBridge.Settings

open State List

/-- The sections that a reload cannot apply. -/
def nonReloadableChanges : Option Config → Option Config → List String
  | some oldCfg, some newCfg =>
    (if oldCfg.inst ≠ newCfg.inst then ["instance"] else []) ++
    (if oldCfg.server ≠ newCfg.server then ["server"] else []) ++
    (if oldCfg.storage ≠ newCfg.storage then ["storage"] else []) ++
    (if oldCfg.auth ≠ newCfg.auth then ["auth"] else []) ++
    (if oldCfg.defaults.maxConcurrentQueries ≠ newCfg.defaults.maxConcurrentQueries then
      ["defaults.max_concurrent_queries"] else [])
  | _, _ => []

structure DatabaseDiff where
  added : List DatabaseConfig := []
  removed : List DatabaseConfig := []
  updated : List DatabaseConfig := []

def databaseMap (databases : List DatabaseConfig) : Table DatabaseConfig :=
  databases.foldl (fun byID db => byID.insert db.id db) ∅

def poolFieldsDiffer (oldDb db : DatabaseConfig) : Bool :=
  oldDb.engine ≠ db.engine || oldDb.dsn ≠ db.dsn || oldDb.maxConns ≠ db.maxConns

def diffMaps (oldMap newMap : Table DatabaseConfig) : DatabaseDiff where
  added := newMap.entries.filterMap fun entry =>
    match oldMap.lookup entry.1 with
    | none => some entry.2
    | some _ => none
  updated := newMap.entries.filterMap fun entry =>
    match oldMap.lookup entry.1 with
    | none => none
    | some oldDb => if poolFieldsDiffer oldDb entry.2 then some entry.2 else none
  removed := oldMap.entries.filterMap fun entry =>
    match newMap.lookup entry.1 with
    | none => some entry.2
    | some _ => none

def diffDatabases : Option Config → Option Config → DatabaseDiff
  | none, none => {}
  | none, some newCfg => { added := newCfg.databases }
  | some oldCfg, none => { removed := oldCfg.databases }
  | some oldCfg, some newCfg =>
    diffMaps (databaseMap oldCfg.databases) (databaseMap newCfg.databases)

def dbIDs (databases : List DatabaseConfig) : List String :=
  databases.map DatabaseConfig.id

/-! ## The maps by ID -/

section
variable (databases : List DatabaseConfig) (byID : Table DatabaseConfig)
include databases byID

theorem inserts_lookup_absent {id : String} (absent : id ∉ dbIDs databases) :
    (databases.foldl (fun byID db => byID.insert db.id db) byID).lookup id = byID.lookup id := by
  induction databases generalizing byID with
  | nil => rfl
  | cons _ _ ih =>
    simp only [dbIDs, map_cons, mem_cons, not_or] at absent
    rw [foldl_cons, ih _ absent.2]
    exact AList.lookup_insert_ne absent.1

theorem inserts_lookup_mem (unique : (dbIDs databases).Nodup) {db : DatabaseConfig}
    (member : db ∈ databases) :
    (databases.foldl (fun byID db => byID.insert db.id db) byID).lookup db.id = some db := by
  induction databases generalizing byID with
  | nil => simp at member
  | cons _ rest ih =>
    simp only [dbIDs, map_cons, nodup_cons] at unique
    rcases mem_cons.mp member with rfl | later
    · rw [foldl_cons, inserts_lookup_absent rest _ unique.1]
      exact AList.lookup_insert _
    · exact ih _ unique.2 later

end

variable {databases : List DatabaseConfig}

theorem databaseMap_lookup (unique : (dbIDs databases).Nodup) (id : String) (db : DatabaseConfig) :
    (databaseMap databases).lookup id = some db ↔ db ∈ databases ∧ db.id = id := by
  constructor
  · intro found
    by_cases listed : id ∈ dbIDs databases
    · obtain ⟨_, member, rfl⟩ := mem_map.mp listed
      rw [databaseMap, inserts_lookup_mem databases ∅ unique member] at found
      cases found
      exact ⟨member, rfl⟩
    · rw [databaseMap, inserts_lookup_absent databases ∅ listed] at found
      simp at found
  · rintro ⟨member, rfl⟩
    exact inserts_lookup_mem databases ∅ unique member

theorem databaseMap_absent (unique : (dbIDs databases).Nodup) (id : String) :
    (databaseMap databases).lookup id = none ↔ id ∉ dbIDs databases := by
  rw [Option.eq_none_iff_forall_ne_some]
  simp only [ne_eq, databaseMap_lookup unique, dbIDs, mem_map, not_exists, not_and]

/-! ## What is reported -/

section
variable {oldCfg newCfg : Config} (oldUnique : (dbIDs oldCfg.databases).Nodup)
  (newUnique : (dbIDs newCfg.databases).Nodup) (id : String)

include oldUnique newUnique

theorem mem_added_iff : id ∈ dbIDs (diffDatabases (some oldCfg) (some newCfg)).added ↔
    id ∉ dbIDs oldCfg.databases ∧ id ∈ dbIDs newCfg.databases := by
  simp only [dbIDs, mem_map, diffDatabases, diffMaps, mem_filterMap]
  constructor
  · rintro ⟨db, ⟨⟨key, entry⟩, listed, selected⟩, rfl⟩
    obtain ⟨member, rfl⟩ := (databaseMap_lookup newUnique key entry).mp
      (AList.mem_lookup_iff.mpr listed)
    split at selected <;> cases selected
    rename_i missing
    have absent := (databaseMap_absent oldUnique entry.id).mp missing
    exact ⟨by simpa [dbIDs] using absent, entry, member, rfl⟩
  · rintro ⟨absent, db, member, rfl⟩
    have missing := (databaseMap_absent oldUnique db.id).mpr (by simpa [dbIDs] using absent)
    have found := (databaseMap_lookup newUnique db.id db).mpr ⟨member, rfl⟩
    exact ⟨db, ⟨⟨db.id, db⟩, AList.mem_lookup_iff.mp found, by simp [missing]⟩, rfl⟩

theorem mem_removed_iff : id ∈ dbIDs (diffDatabases (some oldCfg) (some newCfg)).removed ↔
    id ∈ dbIDs oldCfg.databases ∧ id ∉ dbIDs newCfg.databases := by
  -- removed is added with the two configurations exchanged
  have exchanged := mem_added_iff newUnique oldUnique id
  rw [and_comm]
  exact exchanged

theorem mem_updated_iff : id ∈ dbIDs (diffDatabases (some oldCfg) (some newCfg)).updated ↔
    ∃ oldDb ∈ oldCfg.databases, ∃ db ∈ newCfg.databases, oldDb.id = id ∧ db.id = id ∧
      poolFieldsDiffer oldDb db = true := by
  simp only [dbIDs, mem_map, diffDatabases, diffMaps, mem_filterMap]
  constructor
  · rintro ⟨db, ⟨⟨key, entry⟩, listed, selected⟩, rfl⟩
    obtain ⟨member, rfl⟩ := (databaseMap_lookup newUnique key entry).mp
      (AList.mem_lookup_iff.mpr listed)
    split at selected
    · contradiction
    · rename_i oldDb found
      obtain ⟨oldMember, same⟩ := (databaseMap_lookup oldUnique entry.id oldDb).mp found
      split at selected <;> cases selected
      rename_i differs
      exact ⟨oldDb, oldMember, entry, member, same, rfl, differs⟩
  · rintro ⟨oldDb, oldMember, db, member, same, rfl, differs⟩
    have oldFound := (databaseMap_lookup oldUnique db.id oldDb).mpr ⟨oldMember, same⟩
    have found := (databaseMap_lookup newUnique db.id db).mpr ⟨member, rfl⟩
    exact ⟨db, ⟨⟨db.id, db⟩, AList.mem_lookup_iff.mp found, by simp [oldFound, differs]⟩, rfl⟩

end

end DbBridge.Settings
