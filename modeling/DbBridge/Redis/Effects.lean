import DbBridge.Redis.Store

/-!
# What the record operations do to each key

The commands of `writeQuery` name different keys, and so do those of a deletion, so each
key ends up as its own command leaves it.
-/

namespace DbBridge.State.Redis

open Domain Keyspace List

theorem wholeMilliseconds_pos (d : Duration) : 0 < wholeMilliseconds d := by
  unfold wholeMilliseconds
  have unit : (0 : Int) < millisecond := by decide
  split
  · exact unit
  · rename_i large
    have remainder := Int.emod_lt_of_pos d unit
    have low : millisecond ≤ d := not_lt.mp large
    exact Int.sub_pos_of_lt (lt_of_lt_of_le remainder low)

variable {d : Duration}

theorem setExpire_positive {ttl : Int} (after : setExpire d = .after ttl) : 0 < ttl := by
  unfold setExpire at after
  split at after
  · cases after
    exact wholeMilliseconds_pos d
  · split at after <;> cases after

theorem piped_run (context : String) (writes : List (Write Data)) (now : Time)
    (server : Server Data) :
    (piped context writes).run now server =
      (if (runAll now server writes).1 then .error (.failed context) else .ok (),
        (runAll now server writes).2) := by
  simp only [piped, Program.pipeline_run, Bool.false_or, Program.run]

theorem wholeMilliseconds_eq (positive : 0 < d) (whole : d % millisecond = 0) :
    wholeMilliseconds d = d := by
  unfold wholeMilliseconds
  split
  · rename_i small
    rw [Int.emod_eq_of_lt (le_of_lt positive) small] at whole
    exact absurd whole (ne_of_gt positive)
  · rw [whole]
    exact Int.sub_zero d

theorem readQuery_eq_ok {now : Time} {get : Except WrongType (Option Data)}
    {lease : Option (Option Duration)} {record : QueryRecord}
    (read : readQuery now get lease = .ok record) :
    ∃ stored, get = .ok (some (.record stored)) ∧
      ∃ deadline, record = { stored with leaseDeadline := deadline } := by
  unfold readQuery at read
  split at read
  · contradiction
  · contradiction
  · contradiction
  · rename_i stored
    cases read
    refine ⟨stored, rfl, ?_⟩
    unfold withLease
    split
    · split
      · exact ⟨_, rfl⟩
      · exact ⟨stored.leaseDeadline, rfl⟩
    · exact ⟨stored.leaseDeadline, rfl⟩

variable {key : String}

section
variable (record : QueryRecord) (now : Time) (server : Server Data)

def recordWrite : Write Data :=
  .set (queryKey record.id) (.record { record with leaseDeadline := 0 })
    (setExpire (expiration record))

def indexWrite : Write Data :=
  if record.state.isTerminal then
    .sRem (instanceQueriesKey record.ownerInstanceID) record.id
  else .sAdd (instanceQueriesKey record.ownerInstanceID) record.id

theorem indexWrite_key : (indexWrite record).key = instanceQueriesKey record.ownerInstanceID := by
  unfold indexWrite
  split <;> rfl

theorem mem_writeQuery_iff (write : Write Data) :
    write ∈ writeQuery record ↔ write = recordWrite record ∨
      (record.databaseID ≠ "" ∧ write = .sAdd databasesSeenKey record.databaseID) ∨
      write = indexWrite record ∨
      (record.state.isTerminal = true ∧ write = .del (leaseKey record.id)) := by
  unfold writeQuery indexWrite
  cases record.state.isTerminal <;> by_cases named : record.databaseID = "" <;>
    simp [named, recordWrite]

theorem writeQuery_keys : ((writeQuery record).map Write.key).Nodup := by
  apply Nodup.of_map kind
  unfold writeQuery
  split <;> split <;> simp [Write.key]

theorem writeQuery_find_of_ne (query : key ≠ queryKey record.id) (seen : key ≠ databasesSeenKey)
    (index : key ≠ instanceQueriesKey record.ownerInstanceID)
    (lease : record.state.isTerminal = true → key ≠ leaseKey record.id) (later : Time) :
    (runAll now server (writeQuery record)).2.find later key = server.find later key := by
  apply runAll_find_of_notMem
  intro member
  obtain ⟨write, listed, rfl⟩ := mem_map.mp member
  rcases (mem_writeQuery_iff record write).mp listed with rfl | ⟨_, rfl⟩ | rfl | ⟨terminal, rfl⟩
  · exact query rfl
  · exact seen rfl
  · exact index (indexWrite_key record)
  · exact lease terminal rfl

theorem writeQuery_find_query (id : String) :
    (runAll now server (writeQuery record)).2.find now (queryKey id) =
      if id = record.id then
        some (.text (.record { record with leaseDeadline := 0 })
          (server.expiryAfter now (queryKey record.id) (setExpire (expiration record))))
      else server.find now (queryKey id) := by
  split
  · rename_i same
    subst same
    have alone : (runAll now server (writeQuery record)).2.find now (recordWrite record).key =
        ((recordWrite record).run now server).2.find now (recordWrite record).key :=
      runAll_find_of_mem (writeQuery_keys record)
        ((mem_writeQuery_iff record _).mpr (.inl rfl))
    exact alone.trans (Write.set_find now server fun ttl after => setExpire_positive after)
  · rename_i different
    apply writeQuery_find_of_ne
    · simpa using different
    · exact ne_of_kind (by simp)
    · exact ne_of_kind (by simp)
    · intro _
      exact ne_of_kind (by simp)

theorem writeQuery_find_lease (id : String) :
    (runAll now server (writeQuery record)).2.find now (leaseKey id) =
      if record.state.isTerminal = true ∧ id = record.id then none
      else server.find now (leaseKey id) := by
  split
  · rename_i both
    obtain ⟨terminal, rfl⟩ := both
    have alone : (runAll now server (writeQuery record)).2.find now
          (Write.del (leaseKey record.id) : Write Data).key =
        ((Write.del (leaseKey record.id) : Write Data).run now server).2.find now
          (leaseKey record.id) :=
      runAll_find_of_mem (writeQuery_keys record)
        ((mem_writeQuery_iff record _).mpr (.inr (.inr (.inr ⟨terminal, rfl⟩))))
    exact alone.trans (Write.del_find now server _)
  · rename_i other
    apply writeQuery_find_of_ne
    · exact ne_of_kind (by simp)
    · exact ne_of_kind (by simp)
    · exact ne_of_kind (by simp)
    · intro terminal same
      exact other ⟨terminal, (leaseKey_inj id record.id).mp same⟩

theorem writeQuery_find_index (instanceID : String) :
    (runAll now server (writeQuery record)).2.find now (instanceQueriesKey instanceID) =
      if instanceID = record.ownerInstanceID then
        ((indexWrite record).run now server).2.find now
          (instanceQueriesKey record.ownerInstanceID)
      else server.find now (instanceQueriesKey instanceID) := by
  split
  · rename_i same
    subst same
    have alone : (runAll now server (writeQuery record)).2.find now (indexWrite record).key =
        ((indexWrite record).run now server).2.find now (indexWrite record).key :=
      runAll_find_of_mem (writeQuery_keys record)
        ((mem_writeQuery_iff record _).mpr (.inr (.inr (.inl rfl))))
    rwa [indexWrite_key] at alone
  · rename_i different
    apply writeQuery_find_of_ne
    · exact ne_of_kind (by simp)
    · exact ne_of_kind (by simp)
    · simpa using different
    · intro _
      exact ne_of_kind (by simp)

theorem indexWrite_isText :
    ((indexWrite record).run now server).2.isText now
        (instanceQueriesKey record.ownerInstanceID) =
      server.isText now (instanceQueriesKey record.ownerInstanceID) := by
  unfold indexWrite
  split
  · exact Write.sRem_isText ..
  · exact Write.sAdd_isText ..

theorem writeQuery_isText_index (instanceID : String) :
    (runAll now server (writeQuery record)).2.isText now (instanceQueriesKey instanceID) =
      server.isText now (instanceQueriesKey instanceID) := by
  have found := writeQuery_find_index record now server instanceID
  split at found
  · rename_i same
    subst same
    exact (Server.isText_congr _ found).trans (indexWrite_isText record now server)
  · exact Server.isText_congr _ found

theorem writeQuery_isText_seen (set : server.isText now databasesSeenKey = false) :
    (runAll now server (writeQuery record)).2.isText now databasesSeenKey = false := by
  by_cases named : record.databaseID = ""
  · have absent : databasesSeenKey ∉ (writeQuery record).map Write.key := by
      intro member
      obtain ⟨write, listed, same⟩ := mem_map.mp member
      have kinds := congrArg kind same
      rcases (mem_writeQuery_iff record write).mp listed with rfl | ⟨given, _⟩ | rfl | ⟨_, rfl⟩
      · simp [recordWrite, Write.key] at kinds
      · exact given named
      · simp [indexWrite_key] at kinds
      · simp [Write.key] at kinds
    exact (Server.isText_congr _ (runAll_find_of_notMem now now server _ absent)).trans set
  · have alone : (runAll now server (writeQuery record)).2.find now
          (Write.sAdd databasesSeenKey record.databaseID : Write Data).key =
        ((Write.sAdd databasesSeenKey record.databaseID : Write Data).run now server).2.find now
          databasesSeenKey :=
      runAll_find_of_mem (writeQuery_keys record)
        ((mem_writeQuery_iff record _).mpr (.inr (.inl ⟨named, rfl⟩)))
    exact (Server.isText_congr _ alone).trans ((Write.sAdd_isText ..).trans set)

theorem writeQuery_members (instanceID : String)
    (set : server.isText now (instanceQueriesKey record.ownerInstanceID) = false) :
    (runAll now server (writeQuery record)).2.members now (instanceQueriesKey instanceID) =
      if instanceID = record.ownerInstanceID then
        if record.state.isTerminal then
          (server.members now (instanceQueriesKey instanceID)).erase record.id
        else insert record.id (server.members now (instanceQueriesKey instanceID))
      else server.members now (instanceQueriesKey instanceID) := by
  have found := writeQuery_find_index record now server instanceID
  split at found
  · rename_i same
    subst same
    rw [if_pos rfl, Server.members_congr _ found]
    unfold indexWrite
    split
    · exact Write.sRem_members ..
    · exact Write.sAdd_members _ _ _ set
  · rename_i different
    rw [if_neg different, Server.members_congr _ found]

theorem writeQuery_succeeds (seen : server.isText now databasesSeenKey = false)
    (set : server.isText now (instanceQueriesKey record.ownerInstanceID) = false) :
    (runAll now server (writeQuery record)).1 = false := by
  rw [← Bool.not_eq_true, runAll_failed_iff (writeQuery_keys record)]
  rintro ⟨write, listed, failed⟩
  rcases (mem_writeQuery_iff record write).mp listed with rfl | ⟨_, rfl⟩ | rfl | ⟨_, rfl⟩
  · cases failed
  · rw [Write.sAdd_failed, seen] at failed
    contradiction
  · unfold indexWrite at failed
    split at failed
    · rw [Write.sRem_failed, set] at failed
      contradiction
    · rw [Write.sAdd_failed, set] at failed
      contradiction
  · cases failed

end

/-! ## Deletions -/

section
variable (id : String) (read : Except StoreError QueryRecord) (now : Time)
  (server : Server Data)

theorem mem_deletion_iff (write : Write Data) :
    write ∈ deletion id read ↔ write = .del (queryKey id) ∨ write = .del (leaseKey id) ∨
      ∃ record, read = .ok record ∧
        write = .sRem (instanceQueriesKey record.ownerInstanceID) id := by
  cases read <;> simp [deletion]

theorem deletion_keys : ((deletion id read).map Write.key).Nodup := by
  apply Nodup.of_map kind
  cases read <;> simp [deletion, Write.key]

theorem deletion_find_of_ne (query : key ≠ queryKey id) (lease : key ≠ leaseKey id)
    (index : ∀ record, read = .ok record → key ≠ instanceQueriesKey record.ownerInstanceID)
    (later : Time) :
    (runAll now server (deletion id read)).2.find later key = server.find later key := by
  apply runAll_find_of_notMem
  intro member
  obtain ⟨write, listed, rfl⟩ := mem_map.mp member
  rcases (mem_deletion_iff id read write).mp listed with rfl | rfl | ⟨record, found, rfl⟩
  · exact query rfl
  · exact lease rfl
  · exact index record found rfl

theorem deletion_find_deleted (member : Write.del key ∈ deletion id read) :
    (runAll now server (deletion id read)).2.find now key = none :=
  (runAll_find_of_mem (deletion_keys id read) member).trans (Write.del_find now server _)

theorem deletion_find_query (other : String) :
    (runAll now server (deletion id read)).2.find now (queryKey other) =
      if other = id then none else server.find now (queryKey other) := by
  split
  · rename_i same
    subst same
    exact deletion_find_deleted _ _ _ _ ((mem_deletion_iff other read _).mpr (.inl rfl))
  · rename_i different
    apply deletion_find_of_ne
    · simpa using different
    · exact ne_of_kind (by simp)
    · intro record _
      exact ne_of_kind (by simp)

theorem deletion_find_lease (other : String) :
    (runAll now server (deletion id read)).2.find now (leaseKey other) =
      if other = id then none else server.find now (leaseKey other) := by
  split
  · rename_i same
    subst same
    exact deletion_find_deleted _ _ _ _ ((mem_deletion_iff other read _).mpr (.inr (.inl rfl)))
  · rename_i different
    apply deletion_find_of_ne
    · exact ne_of_kind (by simp)
    · simpa using different
    · intro record _
      exact ne_of_kind (by simp)

theorem deletion_find_index (instanceID : String) :
    (∃ record, read = .ok record ∧ record.ownerInstanceID = instanceID ∧
        (runAll now server (deletion id read)).2.find now (instanceQueriesKey instanceID) =
          ((Write.sRem (instanceQueriesKey instanceID) id : Write Data).run now server).2.find
            now (instanceQueriesKey instanceID)) ∨
      ((∀ record, read = .ok record → record.ownerInstanceID ≠ instanceID) ∧
        (runAll now server (deletion id read)).2.find now (instanceQueriesKey instanceID) =
          server.find now (instanceQueriesKey instanceID)) := by
  by_cases owned : ∃ record, read = .ok record ∧ record.ownerInstanceID = instanceID
  · obtain ⟨record, found, rfl⟩ := owned
    exact .inl ⟨record, found, rfl, runAll_find_of_mem (deletion_keys id read)
      ((mem_deletion_iff id read _).mpr (.inr (.inr ⟨record, found, rfl⟩)))⟩
  · have foreign : ∀ record, read = .ok record → record.ownerInstanceID ≠ instanceID :=
      fun record found same => owned ⟨record, found, same⟩
    refine .inr ⟨foreign, ?_⟩
    apply deletion_find_of_ne
    · exact ne_of_kind (by simp)
    · exact ne_of_kind (by simp)
    · intro record found same
      exact foreign record found ((instanceQueriesKey_inj _ _).mp same).symm

theorem deletion_isText_index (instanceID : String) :
    (runAll now server (deletion id read)).2.isText now (instanceQueriesKey instanceID) =
      server.isText now (instanceQueriesKey instanceID) := by
  rcases deletion_find_index id read now server instanceID with ⟨_, _, _, found⟩ | ⟨_, found⟩
  · exact (Server.isText_congr _ found).trans (Write.sRem_isText ..)
  · exact Server.isText_congr _ found

theorem deletion_succeeds
    (set : ∀ record, read = .ok record →
      server.isText now (instanceQueriesKey record.ownerInstanceID) = false) :
    (runAll now server (deletion id read)).1 = false := by
  rw [← Bool.not_eq_true, runAll_failed_iff (deletion_keys id read)]
  rintro ⟨write, listed, failed⟩
  rcases (mem_deletion_iff id read write).mp listed with rfl | rfl | ⟨record, found, rfl⟩
  · cases failed
  · cases failed
  · rw [Write.sRem_failed, set record found] at failed
    contradiction

end

/-! ## Heartbeats -/

section
variable (instanceID : String) (now : Time) {ttl : Duration}

theorem heartbeatWrites_find_of_ne {ids : List String} (server : Server Data)
    (name : key ≠ instanceKey instanceID) (lease : ∀ id ∈ ids, key ≠ leaseKey id) (later : Time) :
    (runAll now server (heartbeatWrites instanceID ids ttl)).2.find later key =
      server.find later key := by
  apply runAll_find_of_notMem
  simp only [heartbeatWrites, map_cons, mem_cons, Write.key, map_map,
    mem_map, Function.comp_apply, not_or, not_exists, not_and]
  exact ⟨name, fun id member same => lease id member same.symm⟩

theorem leases_find (positive : 0 < wholeMilliseconds ttl) (ids : List String)
    (server : Server Data) (id : String) (member : id ∈ ids) :
    (runAll now server (ids.map fun id =>
        Write.set (leaseKey id) (Data.text instanceID) (.after (wholeMilliseconds ttl)))).2.find
          now (leaseKey id) =
      some (.text (.text instanceID) (some (now + wholeMilliseconds ttl))) := by
  induction ids generalizing server with
  | nil => contradiction
  | cons first rest ih =>
    simp only [map_cons, runAll]
    by_cases later : id ∈ rest
    · exact ih _ later
    · have same : id = first := by simpa [later] using member
      subst same
      rw [runAll_find_of_notMem]
      · exact Write.set_find now server fun ttl after => by cases after; exact positive
      · simpa [Write.key, Function.comp_def] using later

theorem heartbeatWrites_succeeds (server : Server Data) (ids : List String) (ttl : Duration) :
    (runAll now server (heartbeatWrites instanceID ids ttl)).1 = false := by
  unfold heartbeatWrites
  have sets : ∀ (writes : List (Write Data)) (server : Server Data),
      (∀ write ∈ writes, ∃ key value expire, write = .set key value expire) →
      (runAll now server writes).1 = false := by
    intro writes
    induction writes with
    | nil => exact fun _ _ => rfl
    | cons first _ ih =>
      intro server all
      obtain ⟨key, value, expire, rfl⟩ := all first (mem_cons_self ..)
      simp only [runAll, Write.run, Bool.false_or]
      exact ih _ fun write member => all write (mem_cons_of_mem _ member)
  apply sets
  simp only [mem_cons, mem_map]
  rintro write (rfl | ⟨_, _, rfl⟩)
  · exact ⟨_, _, _, rfl⟩
  · exact ⟨_, _, _, rfl⟩

end

end DbBridge.State.Redis
