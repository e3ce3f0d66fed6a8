import ZeroTrust.Db.Rows

/-!
# Saving as a transaction

What is left of a save when its SQLite calls fail in any pattern. The result of a step is not looked at,
and only the failure to prepare the statement is followed by a rollback.
-/

namespace ZeroTrust

/-- The databases have the same rows of a scan. -/
def SameRows (table : TableName) (scanId : Bytes) (db db' : Database) : Prop :=
  ∀ row : SqlRow, row.Of table scanId → (row ∈ db.rows ↔ row ∈ db'.rows)

/-- All or nothing: the transaction is over, and the rows of the scan are all the new ones or those that
were there before. -/
def SavedAtomically (table : TableName) (scanId : Bytes) (rows : List SqlRow) (conn conn' : Connection) : Prop :=
  conn'.transaction = none ∧ (SameRows table scanId conn'.stored (KeyedTable.empty.putAll rows) ∨
    SameRows table scanId conn'.stored conn.stored)

/-- All the new rows come to be stored: no old row of the scan has a key of its own, and the last new row
of every key is the last one of its key whose step succeeds, or was there and all those steps fail. -/
structure AllStored (table : TableName) (scanId : Bytes) (db : Database) (rows stored : List SqlRow) : Prop where
  replaced : ∀ row ∈ db.rows, row.Of table scanId → row.key ∈ rows.map SqlRow.key
  stores : ∀ row ∈ rows, lastWith SqlRow.key row.key rows = some row →
    lastWith SqlRow.key row.key stored = some row ∨
      lastWith SqlRow.key row.key stored = none ∧ row ∈ db.rows

/-- No step makes a difference: the last row of every key whose step succeeds was there before. -/
def NoneStored (db : Database) (stored : List SqlRow) : Prop :=
  ∀ row ∈ stored, lastWith SqlRow.key row.key stored = some row → row ∈ db.rows

/-- The patterns of failures that a save survives: no transaction is open, and `BEGIN` fails, or the
statement cannot be prepared and `ROLLBACK` works, or `COMMIT` works and the steps that fail do not
matter. -/
def SavePattern.Harmless (calls : SavePattern) (table : TableName) (scanId : Bytes) (rows : List SqlRow)
    (conn : Connection) : Prop :=
  conn.transaction = none ∧
    (calls.begins ≠ none ∨ calls.prepares = false ∧ calls.rollsBack = none ∨
      calls.prepares = true ∧ calls.commits = none ∧
        (AllStored table scanId conn.stored rows (storedRows calls.steps rows) ∨
          NoneStored conn.stored (storedRows calls.steps rows)))

variable {table : TableName} {scanId : Bytes} {db : Database} {rows stored : List SqlRow}

/-- Only rows that were to be saved are stored. -/
theorem mem_of_mem_storedRows {steps : ℕ → Bool} {row : SqlRow} (h : row ∈ storedRows steps rows) : row ∈ rows := by
  obtain ⟨⟨row', i⟩, hmem, rfl⟩ := List.mem_map.mp h
  exact List.fst_mem_of_mem_zipIdx (List.mem_of_mem_filter hmem)

/-- Steps that all succeed store all rows. -/
theorem storedRows_of_all {steps : ℕ → Bool} (h : ∀ i, steps i = true) (rows : List SqlRow) :
    storedRows steps rows = rows := by
  rw [storedRows, List.filter_eq_self.mpr fun entry _ => h entry.2, List.zipIdx_map_fst]

/-- The rows of a scan are the same when the same is found under its keys. -/
theorem sameRows_iff {db' : Database} :
    SameRows table scanId db db' ↔ ∀ k, k.1 = (table, bindText scanId) → db.find k = db'.find k :=
  KeyedTable.mem_iff_iff_find fun k : (TableName × SqlValue) × List SqlValue => k.1 = (table, bindText scanId)

/-- The outcome is that of a complete save alone exactly if all rows come to be stored. -/
theorem sameRows_new_iff (hrows : ∀ row ∈ rows, row.Of table scanId) (hstored : ∀ row ∈ stored, row ∈ rows) :
    SameRows table scanId (db.putAll stored) (KeyedTable.empty.putAll rows) ↔
      AllStored table scanId db rows stored := by
  rw [sameRows_iff]
  simp only [KeyedTable.find_putAll]
  constructor
  · intro h
    constructor
    · intro row hrow hof
      have hkey := h row.key hof
      by_contra hnew
      have hstorednone : lastWith SqlRow.key row.key stored = none := by
        rw [lastWith_eq_none]
        intro hmem
        obtain ⟨row', hrow', hkey'⟩ := List.mem_map.mp hmem
        exact hnew (hkey' ▸ List.mem_map_of_mem (hstored row' hrow'))
      rw [hstorednone, lastWith_eq_none.mpr hnew, KeyedTable.mem_rows.mp hrow] at hkey
      cases hkey
    · intro row hrow hlast
      have hkey := h row.key (hrows row hrow)
      rw [hlast, Option.some_or, Option.or_eq_some_iff] at hkey
      exact hkey.imp_right fun hkept => ⟨hkept.1, KeyedTable.mem_rows.mpr hkept.2⟩
  · intro h k hk
    change _ = (lastWith SqlRow.key k rows).or none
    rw [Option.or_none]
    cases hlast : lastWith SqlRow.key k rows with
    | none =>
      have hnew := lastWith_eq_none.mp hlast
      rw [Option.or_eq_none_iff, lastWith_eq_none, KeyedTable.find_eq_none]
      constructor
      · intro hmem
        obtain ⟨row, hrow, rfl⟩ := List.mem_map.mp hmem
        exact hnew (List.mem_map_of_mem (hstored row hrow))
      · intro hmem
        obtain ⟨row, hrow, rfl⟩ := List.mem_map.mp hmem
        exact hnew (h.replaced row hrow hk)
    | some row =>
      have hkey := key_of_lastWith hlast
      subst hkey
      rw [Option.or_eq_some_iff]
      exact (h.stores row (mem_of_lastWith hlast) hlast).imp_right
        fun hkept => ⟨hkept.1, KeyedTable.mem_rows.mp hkept.2⟩

/-- The outcome is what was there before exactly if no step makes a difference. -/
theorem sameRows_old_iff (hrows : ∀ row ∈ rows, row.Of table scanId) (hstored : ∀ row ∈ stored, row ∈ rows) :
    SameRows table scanId (db.putAll stored) db ↔ NoneStored db stored := by
  rw [sameRows_iff]
  simp only [KeyedTable.find_putAll]
  constructor
  · intro h row hrow hlast
    have hkey := h row.key (hrows row (hstored row hrow))
    rw [hlast, Option.some_or] at hkey
    exact KeyedTable.mem_rows.mpr hkey.symm
  · intro h k _
    cases hlast : lastWith SqlRow.key k stored with
    | none => rfl
    | some row =>
      have hkey := key_of_lastWith hlast
      subst hkey
      exact (KeyedTable.mem_rows.mp (h row (mem_of_lastWith hlast) hlast)).symm

variable {conn : Connection} {calls : SavePattern}

/-- While a transaction is open, a save fails and changes nothing. -/
theorem save_of_open (h : conn.transaction ≠ none) : (conn.save rows calls).2 = conn := by
  unfold Connection.save Connection.execBegin
  rw [if_pos (Option.isSome_iff_ne_none.mpr h)]
  rfl

/-- A save that cannot begin changes nothing. -/
theorem save_of_begins (hopen : conn.transaction = none) (h : calls.begins ≠ none) :
    (conn.save rows calls).2 = conn := by
  obtain ⟨message, hmessage⟩ := Option.ne_none_iff_exists'.mp h
  unfold Connection.save Connection.execBegin
  rw [hopen, hmessage]
  rfl

/-- A statement that cannot be prepared is followed by a rollback. -/
theorem save_of_prepares_eq_false (hopen : conn.transaction = none) (hbegin : calls.begins = none)
    (h : calls.prepares = false) :
    (conn.save rows calls).2 = ⟨conn.stored, if calls.rollsBack.isNone then none else some conn.stored⟩ := by
  unfold Connection.save Connection.execBegin
  rw [hopen, hbegin]
  simp only [Option.isSome_none, Bool.false_eq_true, if_false, h, Connection.execRollback, Option.getD_some]
  split_ifs
  · rfl
  · rfl

/-- A statement that is prepared stores what its steps store. -/
theorem save_of_prepares (hopen : conn.transaction = none) (hbegin : calls.begins = none)
    (h : calls.prepares = true) :
    (conn.save rows calls).2 = ⟨conn.stored.putAll (storedRows calls.steps rows),
      if calls.commits.isNone then none else some conn.stored⟩ := by
  unfold Connection.save Connection.execBegin
  rw [hopen, hbegin]
  simp only [Option.isSome_none, Bool.false_eq_true, if_false, h, if_true, Connection.execCommit]
  split_ifs
  · rfl
  · rfl

/-- A save is all or nothing exactly under the harmless patterns. -/
theorem savedAtomically_iff (hrows : ∀ row ∈ rows, row.Of table scanId) :
    SavedAtomically table scanId rows conn (conn.save rows calls).2 ↔ calls.Harmless table scanId rows conn := by
  by_cases hopen : conn.transaction = none
  · rw [SavePattern.Harmless, and_iff_right hopen]
    by_cases hbegin : calls.begins = none
    · rw [or_iff_right (not_not.mpr hbegin)]
      cases hprepares : calls.prepares with
      | false =>
        rw [save_of_prepares_eq_false hopen hbegin hprepares, or_iff_left (fun h => nomatch h.1)]
        constructor
        · intro h
          have hclosed := h.1
          dsimp only at hclosed
          split_ifs at hclosed with hrollback
          exact ⟨rfl, Option.isNone_iff_eq_none.mp hrollback⟩
        · rintro ⟨-, hrollback⟩
          rw [hrollback]
          exact ⟨rfl, .inr fun _ _ => Iff.rfl⟩
      | true =>
        rw [save_of_prepares hopen hbegin hprepares, or_iff_right (fun h => nomatch h.1), and_iff_right rfl,
          ← sameRows_new_iff hrows fun _ => mem_of_mem_storedRows,
          ← sameRows_old_iff hrows fun _ => mem_of_mem_storedRows]
        apply and_congr_left
        intro _
        cases calls.commits with
        | none => exact iff_of_true rfl rfl
        | some message => exact iff_of_false nofun nofun
    · rw [save_of_begins hopen hbegin]
      exact iff_of_true ⟨hopen, .inr fun _ _ => Iff.rfl⟩ (.inl hbegin)
  · rw [save_of_open hopen]
    exact iff_of_false (fun h => hopen h.1) fun h => hopen h.1

/-- The row of a port belongs to its scan. -/
theorem of_portRow (p : Port) : (portRow scanId p).Of .scanPorts scanId := rfl

/-- The row of a finding belongs to its scan. -/
theorem of_findingRow (f : Finding) (i : ℕ) : (findingRow scanId f i).Of .scanFindings scanId := rfl

/-- `save_ports` and `save_findings` are all or nothing exactly under the harmless patterns of failures. -/
theorem saves_atomic_iff (conn : Connection) (scanId : Bytes) (calls : SavePattern) :
    (∀ ports : List Port,
      SavedAtomically .scanPorts scanId (ports.map (portRow scanId)) conn (savePorts conn scanId ports calls).2 ↔
        calls.Harmless .scanPorts scanId (ports.map (portRow scanId)) conn) ∧
    ∀ findings : List Finding,
      SavedAtomically .scanFindings scanId (findings.zipIdx.map fun entry => findingRow scanId entry.1 entry.2)
          conn (saveFindings conn scanId findings calls).2 ↔
        calls.Harmless .scanFindings scanId (findings.zipIdx.map fun entry => findingRow scanId entry.1 entry.2)
          conn := by
  constructor
  · intro ports
    apply savedAtomically_iff
    intro row hrow
    obtain ⟨p, -, rfl⟩ := List.mem_map.mp hrow
    exact of_portRow p
  · intro findings
    apply savedAtomically_iff
    intro row hrow
    obtain ⟨⟨f, i⟩, -, rfl⟩ := List.mem_map.mp hrow
    exact of_findingRow f i

/-- SSH and HTTP on a new connection, with a second step that fails. -/
theorem save_ports_stores_one_of_two :
    ¬SavedAtomically .scanPorts [49] ([{ number := 22 }, { number := 80 }].map (portRow [49]))
      ⟨KeyedTable.empty, none⟩
      (savePorts ⟨KeyedTable.empty, none⟩ [49] [{ number := 22 }, { number := 80 }]
        ⟨⟨none, true, none, none⟩, fun i => i = 0⟩).2 := by
  rintro ⟨-, hnew | hold⟩
  · have h := (hnew (portRow [49] { number := 80 }) rfl).mpr (by decide)
    exact absurd h (by decide)
  · have h := (hold (portRow [49] { number := 22 }) rfl).mp (by decide)
    exact absurd h (by decide)

end ZeroTrust
