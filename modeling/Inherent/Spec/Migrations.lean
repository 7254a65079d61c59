import Inherent.Native.Migrations

/-!
# Migrations are applied once and in order

What any number of `run_migrations` calls, of one image or of several, do to a database in
any order of their statements and with any interruptions.
-/

namespace Inherent

open ProcessPool (Holds RelyGuarantee Extends StartsMeet Event)

/-- The steps of a runner, read off `MigrationRunner.advance`: the runner before, and the
    database and the runner after. -/
inductive MigrationStep (schemaPresent : List String → Bool) (db : MigrationDb)
    (peers : List MigrationRunner) : MigrationRunner → MigrationDb → MigrationRunner → Prop where
  | tableFound {files tx} (h : db.tracking.isSome) :
    MigrationStep schemaPresent db peers ⟨files, .ensureTrackingTable, tx⟩
      db ⟨files, .commitTrackingTable, tx⟩
  | tableCreated {files tx} :
    MigrationStep schemaPresent db peers ⟨files, .ensureTrackingTable, tx⟩
      db ⟨files, .commitTrackingTable, { tx with createsTable := true }⟩
  | tableCommitted {files tx} :
    MigrationStep schemaPresent db peers ⟨files, .commitTrackingTable, tx⟩
      (db.commit tx) ⟨files, .probeSchema, {}⟩
  | probed {files tx} :
    MigrationStep schemaPresent db peers ⟨files, .probeSchema, tx⟩
      db ⟨files, .countTracking (schemaPresent db.history), tx⟩
  | untracked {files tx} (h : db.recorded = []) :
    MigrationStep schemaPresent db peers ⟨files, .countTracking true, tx⟩
      db ⟨files, .backfill files, tx⟩
  | tracked {files tx present} (h : present = true → db.recorded ≠ []) :
    MigrationStep schemaPresent db peers ⟨files, .countTracking present, tx⟩
      db ⟨files, .lookUp files, tx⟩
  | rowKept {files path paths tx} (h : path ∈ db.recorded ∨ path ∈ tx.rows) :
    MigrationStep schemaPresent db peers ⟨files, .backfill (path :: paths), tx⟩
      db ⟨files, .backfill paths, tx⟩
  | rowAdded {files path paths tx} (hpeers : ∀ peer ∈ peers, path ∉ peer.tx.rows)
      (hdb : path ∉ db.recorded) (htx : path ∉ tx.rows) :
    MigrationStep schemaPresent db peers ⟨files, .backfill (path :: paths), tx⟩
      db ⟨files, .backfill paths, { tx with rows := tx.rows ++ [path] }⟩
  | backfilled {files tx} :
    MigrationStep schemaPresent db peers ⟨files, .backfill [], tx⟩
      (db.commit tx) ⟨files, .lookUp files, {}⟩
  | returned {files tx} :
    MigrationStep schemaPresent db peers ⟨files, .lookUp [], tx⟩ db ⟨files, .complete, {}⟩
  | skipped {files path paths tx} (h : path ∈ db.recorded ∨ path ∈ tx.rows) :
    MigrationStep schemaPresent db peers ⟨files, .lookUp (path :: paths), tx⟩
      db ⟨files, .lookUp paths, tx⟩
  | selected {files path paths tx} (hdb : path ∉ db.recorded) (htx : path ∉ tx.rows) :
    MigrationStep schemaPresent db peers ⟨files, .lookUp (path :: paths), tx⟩
      db ⟨files, .execute path paths, tx⟩
  | executed {files path paths tx} :
    MigrationStep schemaPresent db peers ⟨files, .execute path paths, tx⟩
      db ⟨files, .record path paths, { tx with sql := tx.sql ++ [path] }⟩
  | refused {files path paths tx} (h : path ∈ db.recorded ∨ path ∈ tx.rows) :
    MigrationStep schemaPresent db peers ⟨files, .record path paths, tx⟩ db ⟨files, .raised, {}⟩
  | inserted {files path paths tx} (hpeers : ∀ peer ∈ peers, path ∉ peer.tx.rows)
      (hdb : path ∉ db.recorded) (htx : path ∉ tx.rows) :
    MigrationStep schemaPresent db peers ⟨files, .record path paths, tx⟩
      db ⟨files, .commitFile path paths, { tx with rows := tx.rows ++ [path] }⟩
  | fileCommitted {files path paths tx} :
    MigrationStep schemaPresent db peers ⟨files, .commitFile path paths, tx⟩
      (db.commit tx) ⟨files, .lookUp paths, {}⟩

section

variable {schemaPresent : List String → Bool} {db db' : MigrationDb}
  {peers : List MigrationRunner} {r r' : MigrationRunner}

theorem heldByPeer_eq_false_iff {path : String} :
    heldByPeer peers path = false ↔ ∀ peer ∈ peers, path ∉ peer.tx.rows := by
  simp only [heldByPeer, List.any_eq_false, decide_eq_true_eq]

/-- Everything a step of a runner can do. -/
theorem migrationStep_of_advance (h : r.advance schemaPresent db peers = some (db', r')) :
    MigrationStep schemaPresent db peers r db' r' := by
  obtain ⟨files, point, tx⟩ := r
  cases point with
  | ensureTrackingTable =>
    by_cases htable : db.tracking.isSome
    · simp only [MigrationRunner.advance, htable, if_true, Option.some.injEq, Prod.mk.injEq] at h
      obtain ⟨rfl, rfl⟩ := h
      exact .tableFound htable
    · simp only [MigrationRunner.advance, htable] at h
      by_cases hpeer : peers.any (·.tx.createsTable)
      · simp [hpeer] at h
      · simp [hpeer] at h
        obtain ⟨rfl, rfl⟩ := h
        exact .tableCreated
  | commitTrackingTable =>
    simp only [MigrationRunner.advance, Option.some.injEq, Prod.mk.injEq] at h
    obtain ⟨rfl, rfl⟩ := h
    exact .tableCommitted
  | probeSchema =>
    simp only [MigrationRunner.advance, Option.some.injEq, Prod.mk.injEq] at h
    obtain ⟨rfl, rfl⟩ := h
    exact .probed
  | countTracking present =>
    by_cases hcount : present = true ∧ db.recorded = []
    · simp [MigrationRunner.advance, hcount] at h
      obtain ⟨rfl, rfl⟩ := h
      rw [hcount.1]
      exact .untracked hcount.2
    · have htracked : present = true → db.recorded ≠ [] := fun hp hr => hcount ⟨hp, hr⟩
      simp [MigrationRunner.advance, hcount] at h
      obtain ⟨rfl, rfl⟩ := h
      exact .tracked htracked
  | backfill paths =>
    cases paths with
    | nil =>
      simp only [MigrationRunner.advance, Option.some.injEq, Prod.mk.injEq] at h
      obtain ⟨rfl, rfl⟩ := h
      exact .backfilled
    | cons path paths =>
      cases hheld : heldByPeer peers path with
      | true => simp [MigrationRunner.advance, hheld] at h
      | false =>
        by_cases hseen : path ∈ db.recorded ∨ path ∈ tx.rows
        · simp [MigrationRunner.advance, hheld, hseen] at h
          obtain ⟨rfl, rfl⟩ := h
          exact .rowKept hseen
        · simp [MigrationRunner.advance, hheld, hseen] at h
          obtain ⟨rfl, rfl⟩ := h
          exact .rowAdded (heldByPeer_eq_false_iff.mp hheld) (not_or.mp hseen).1 (not_or.mp hseen).2
  | lookUp paths =>
    cases paths with
    | nil =>
      simp only [MigrationRunner.advance, Option.some.injEq, Prod.mk.injEq] at h
      obtain ⟨rfl, rfl⟩ := h
      exact .returned
    | cons path paths =>
      by_cases hseen : path ∈ db.recorded ∨ path ∈ tx.rows
      · simp [MigrationRunner.advance, hseen] at h
        obtain ⟨rfl, rfl⟩ := h
        exact .skipped hseen
      · simp [MigrationRunner.advance, hseen] at h
        obtain ⟨rfl, rfl⟩ := h
        exact .selected (not_or.mp hseen).1 (not_or.mp hseen).2
  | execute path paths =>
    simp only [MigrationRunner.advance, Option.some.injEq, Prod.mk.injEq] at h
    obtain ⟨rfl, rfl⟩ := h
    exact .executed
  | record path paths =>
    cases hheld : heldByPeer peers path with
    | true => simp [MigrationRunner.advance, hheld] at h
    | false =>
      by_cases hseen : path ∈ db.recorded ∨ path ∈ tx.rows
      · simp [MigrationRunner.advance, hheld, hseen] at h
        obtain ⟨rfl, rfl⟩ := h
        exact .refused hseen
      · simp [MigrationRunner.advance, hheld, hseen] at h
        obtain ⟨rfl, rfl⟩ := h
        exact .inserted (heldByPeer_eq_false_iff.mp hheld) (not_or.mp hseen).1 (not_or.mp hseen).2
  | commitFile path paths =>
    simp only [MigrationRunner.advance, Option.some.injEq, Prod.mk.injEq] at h
    obtain ⟨rfl, rfl⟩ := h
    exact .fileCommitted
  | complete => simp [MigrationRunner.advance] at h
  | raised => simp [MigrationRunner.advance] at h

end

/-! ## Locks

The rows of open transactions are disjoint from each other and from what is recorded. -/

/-- The uncommitted writes fit the point at which the runner is. -/
def MigrationRunner.TxFits (db : MigrationDb) (r : MigrationRunner) : Prop :=
  match r.point with
  | .ensureTrackingTable => r.tx = {}
  | .commitTrackingTable =>
    r.tx.sql = [] ∧ r.tx.rows = [] ∧ (db.tracking.isSome ∨ r.tx.createsTable)
  | .backfill _ => r.tx.sql = [] ∧ r.tx.createsTable = false ∧ db.tracking.isSome
  | .record path _ => r.tx = { sql := [path] } ∧ db.tracking.isSome
  | .commitFile path _ => r.tx = { sql := [path], rows := [path] } ∧ db.tracking.isSome
  | .complete | .raised => r.tx = {}
  | _ => r.tx = {} ∧ db.tracking.isSome

/-- The store: no file is recorded twice, the committed SQL is recorded and ran once, and
    none of it belongs to a file that was recorded before (`old`). -/
structure RecordsFit (old : List String) (db : MigrationDb) : Prop where
  recorded_nodup : db.recorded.Nodup
  history_nodup : db.history.Nodup
  old_recorded : ∀ f ∈ old, f ∈ db.recorded
  history_recorded : ∀ f ∈ db.history, f ∈ db.recorded
  history_new : ∀ f ∈ db.history, f ∉ old

/-- A runner: its rows are new, and its writes fit its point. -/
structure RunnerFits (db : MigrationDb) (r : MigrationRunner) : Prop where
  rows_nodup : r.tx.rows.Nodup
  rows_new : r.tx.rows.Disjoint db.recorded
  fits : r.TxFits db

/-- Two runners hold no row of one file. -/
def RowsApart (r r' : MigrationRunner) : Prop :=
  r.tx.rows.Disjoint r'.tx.rows

section

variable {schemaPresent : List String → Bool} {old : List String} {db db' : MigrationDb}
  {peers : List MigrationRunner} {r r' : MigrationRunner} {tx : MigrationTx}

/-- A commit into a database that has the table, or gets it, adds the rows. -/
theorem recorded_commit (h : db.tracking.isSome ∨ tx.createsTable) :
    (db.commit tx).recorded = db.recorded ++ tx.rows := by
  obtain ⟨history, tracking⟩ := db
  cases hc : tx.createsTable with
  | true => simp [MigrationDb.commit, MigrationDb.recorded, hc]
  | false =>
    cases tracking with
    | none => simp [hc] at h
    | some rows => simp [MigrationDb.commit, MigrationDb.recorded, hc]

theorem tracking_commit (h : db.tracking.isSome ∨ tx.createsTable) :
    (db.commit tx).tracking.isSome := by
  cases hc : tx.createsTable with
  | true => simp [MigrationDb.commit, hc]
  | false => simpa [MigrationDb.commit, hc] using h

@[simp] theorem history_commit : (db.commit tx).history = db.history ++ tx.sql := rfl

/-- A commit whose SQL is empty, or that of the one file it records. -/
theorem RecordsFit.commit (hdb : RecordsFit old db) (htable : db.tracking.isSome ∨ tx.createsTable)
    (hrows : tx.rows.Nodup) (hnew : tx.rows.Disjoint db.recorded)
    (hsql : tx.sql = [] ∨ ∃ path, tx.sql = [path] ∧ tx.rows = [path]) :
    RecordsFit old (db.commit tx) := by
  have hrec := recorded_commit htable
  have hgrow : ∀ f ∈ db.recorded, f ∈ (db.commit tx).recorded := fun f hf => by
    rw [hrec]; exact List.mem_append_left _ hf
  refine ⟨?_, ?_, fun f hf => hgrow f (hdb.old_recorded f hf), ?_, ?_⟩
  · rw [hrec]
    exact List.Nodup.append hdb.recorded_nodup hrows hnew.symm
  · obtain hnil | ⟨path, hpath, hrow⟩ := hsql
    · simpa [hnil] using hdb.history_nodup
    · -- the file is recorded by this very commit, so no earlier one ran its SQL
      have hfresh : path ∉ db.history := fun hmem =>
        hnew (by rw [hrow]; exact List.mem_singleton_self path) (hdb.history_recorded path hmem)
      rw [history_commit, hpath]
      exact List.Nodup.append hdb.history_nodup (List.nodup_singleton path)
        (List.disjoint_singleton.mpr hfresh)
  · intro f hf
    obtain hf | hf := List.mem_append.mp hf
    · exact hgrow f (hdb.history_recorded f hf)
    · obtain hnil | ⟨path, hpath, hrow⟩ := hsql
      · simp [hnil] at hf
      · rw [hrec, hrow, ← hpath]
        exact List.mem_append_right _ hf
  · intro f hf hold
    obtain hf | hf := List.mem_append.mp hf
    · exact hdb.history_new f hf hold
    · obtain hnil | ⟨path, hpath, hrow⟩ := hsql
      · simp [hnil] at hf
      · exact hnew (by rw [hrow, ← hpath]; exact hf) (hdb.old_recorded f hold)

/-- Another runner's commit leaves a runner in order. -/
theorem RunnerFits.commit (hr : RunnerFits db r) (htable : db.tracking.isSome ∨ tx.createsTable)
    (happ : tx.rows.Disjoint r.tx.rows) : RunnerFits (db.commit tx) r := by
  have hsome := tracking_commit htable
  refine ⟨hr.rows_nodup, ?_, ?_⟩
  · rw [recorded_commit htable, List.disjoint_append_right]
    exact ⟨hr.rows_new, happ.symm⟩
  · obtain ⟨-, -, hfits⟩ := hr
    obtain ⟨files, point, tx'⟩ := r
    cases point <;> simp_all [MigrationRunner.TxFits]

/-- A runner without uncommitted writes, at a point that allows it. -/
theorem runnerFits_of_empty (htx : r.tx = {}) (hfits : r.TxFits db) : RunnerFits db r := by
  refine ⟨?_, ?_, hfits⟩
  · rw [htx]; exact List.nodup_nil
  · rw [htx]; exact List.disjoint_nil_left _

theorem rowsApart_of_empty (htx : r.tx = {}) : RowsApart r r' := by
  rw [RowsApart, htx]
  exact List.disjoint_nil_left _

/-- The row of a new file joins the rows of its transaction. -/
theorem rows_append {path : String} (hrows : tx.rows.Nodup) (hnew : tx.rows.Disjoint db.recorded)
    (hdb : path ∉ db.recorded) (htx : path ∉ tx.rows) :
    (tx.rows ++ [path]).Nodup ∧ (tx.rows ++ [path]).Disjoint db.recorded := by
  constructor
  · exact List.Nodup.append hrows (List.nodup_singleton path) (List.disjoint_singleton.mpr htx)
  · exact List.disjoint_append_left.mpr ⟨hnew, List.singleton_disjoint.mpr hdb⟩

theorem rowsApart_append {files : List String} {point point' : MigrationPoint} {path : String}
    (happ : ∀ q ∈ peers, RowsApart ⟨files, point, tx⟩ q)
    (hpeers : ∀ peer ∈ peers, path ∉ peer.tx.rows) :
    ∀ q ∈ peers, RowsApart ⟨files, point', { tx with rows := tx.rows ++ [path] }⟩ q :=
  fun q hq => List.disjoint_append_left.mpr
    ⟨happ q hq, List.singleton_disjoint.mpr (hpeers q hq)⟩

theorem interrupt_of_complete (h : r.point = .complete) :
    (runMigrations schemaPresent).interrupt r = r := by
  show r.interrupt = r
  rw [MigrationRunner.interrupt, h]

/-- An interrupted call is over, and its transaction is rolled back. -/
theorem interrupt_of_ne (h : r.point ≠ .complete) :
    (runMigrations schemaPresent).interrupt r = ⟨r.sqlFiles, .raised, {}⟩ := by
  obtain ⟨files, point, tx⟩ := r
  show MigrationRunner.interrupt ⟨files, point, tx⟩ = _
  cases point with
  | complete => exact absurd rfl h
  | _ => rfl

theorem ne_complete_of_advance
    (h : (runMigrations schemaPresent).advance db peers r = some (db', r')) :
    r.point ≠ .complete := by
  intro hc
  have hstep : r.advance schemaPresent db peers = some (db', r') := h
  simp [MigrationRunner.advance, hc] at hstep

/-- A step keeps the locks: what one runner has to guarantee. -/
theorem locks_guaranteed :
    RelyGuarantee (runMigrations schemaPresent) (fun _ => True) (RecordsFit old) RunnerFits
      RowsApart where
  symm _ _ h := h.symm
  start db dir r _ _ hstart := by
    simp only [runMigrations, startMigrations] at hstart
    cases hfiles : dir.sqlFiles with
    | error e => simp [hfiles] at hstart
    | ok files =>
      simp only [hfiles, Option.some.injEq] at hstart
      subst hstart
      exact ⟨runnerFits_of_empty rfl rfl, fun _ _ => (rowsApart_of_empty rfl).symm⟩
  advance db peers r db' r' hdb hr hpeers happ hadv := by
    -- the commits keep every peer in order, since its rows are apart
    have hcommit : (db.tracking.isSome ∨ r.tx.createsTable) →
        ∀ q ∈ peers, RunnerFits (db.commit r.tx) q := fun htable q hq =>
      (hpeers q hq).commit htable (happ q hq)
    obtain ⟨hrows, hnew, hfits⟩ := hr
    cases migrationStep_of_advance hadv with
    | tableFound h =>
      have htx : _ = ({} : MigrationTx) := hfits
      subst htx
      exact ⟨hdb, ⟨hrows, hnew, rfl, rfl, Or.inl h⟩, hpeers, happ⟩
    | tableCreated =>
      have htx : _ = ({} : MigrationTx) := hfits
      subst htx
      exact ⟨hdb, ⟨hrows, hnew, rfl, rfl, Or.inr rfl⟩, hpeers, happ⟩
    | tableCommitted =>
      obtain ⟨hsql, -, htable⟩ := hfits
      exact ⟨hdb.commit htable hrows hnew (Or.inl hsql),
        runnerFits_of_empty rfl ⟨rfl, tracking_commit htable⟩, hcommit htable,
        fun _ _ => rowsApart_of_empty rfl⟩
    | probed => exact ⟨hdb, ⟨hrows, hnew, hfits⟩, hpeers, happ⟩
    | untracked _ =>
      obtain ⟨rfl, htable⟩ := hfits
      exact ⟨hdb, ⟨hrows, hnew, rfl, rfl, htable⟩, hpeers, happ⟩
    | tracked _ => exact ⟨hdb, ⟨hrows, hnew, hfits⟩, hpeers, happ⟩
    | rowKept _ => exact ⟨hdb, ⟨hrows, hnew, hfits⟩, hpeers, happ⟩
    | rowAdded hheld hpath htx =>
      obtain ⟨hrows', hnew'⟩ := rows_append hrows hnew hpath htx
      exact ⟨hdb, ⟨hrows', hnew', hfits⟩, hpeers, rowsApart_append happ hheld⟩
    | backfilled =>
      obtain ⟨hsql, -, htable⟩ := hfits
      exact ⟨hdb.commit (Or.inl htable) hrows hnew (Or.inl hsql),
        runnerFits_of_empty rfl ⟨rfl, tracking_commit (Or.inl htable)⟩, hcommit (Or.inl htable),
        fun _ _ => rowsApart_of_empty rfl⟩
    | returned =>
      exact ⟨hdb, runnerFits_of_empty rfl rfl, hpeers, fun _ _ => rowsApart_of_empty rfl⟩
    | skipped _ => exact ⟨hdb, ⟨hrows, hnew, hfits⟩, hpeers, happ⟩
    | selected _ _ => exact ⟨hdb, ⟨hrows, hnew, hfits⟩, hpeers, happ⟩
    | executed =>
      obtain ⟨rfl, htable⟩ := hfits
      exact ⟨hdb, ⟨hrows, hnew, rfl, htable⟩, hpeers, happ⟩
    | refused _ =>
      exact ⟨hdb, runnerFits_of_empty rfl rfl, hpeers, fun _ _ => rowsApart_of_empty rfl⟩
    | inserted hheld hpath htx =>
      obtain ⟨rfl, htable⟩ := hfits
      obtain ⟨hrows', hnew'⟩ := rows_append hrows hnew hpath htx
      exact ⟨hdb, ⟨hrows', hnew', rfl, htable⟩, hpeers, rowsApart_append happ hheld⟩
    | fileCommitted =>
      obtain ⟨rfl, htable⟩ := hfits
      exact ⟨hdb.commit (Or.inl htable) hrows hnew (Or.inr ⟨_, rfl, rfl⟩),
        runnerFits_of_empty rfl ⟨rfl, tracking_commit (Or.inl htable)⟩, hcommit (Or.inl htable),
        fun _ _ => rowsApart_of_empty rfl⟩
  interrupt db r hdb hr := by
    by_cases hc : r.point = .complete
    · rw [interrupt_of_complete hc]
      exact ⟨hr, fun _ h => h⟩
    · rw [interrupt_of_ne hc]
      exact ⟨runnerFits_of_empty rfl rfl, fun _ _ => rowsApart_of_empty rfl⟩
  lose db peers r db' r' _ _ hadv := by
    rw [interrupt_of_ne (ne_complete_of_advance hadv)]
    exact runnerFits_of_empty rfl rfl

/-- The invariant of the locks in every reachable state. -/
theorem locks_hold {tracking : Option (List String)}
    (hnodup : (MigrationDb.before tracking).recorded.Nodup)
    {es : List (Event MigrationsDir)} {s : ProcessPool.Pool MigrationDb MigrationRunner}
    (hrun : EventRun.exec (ProcessPool.step (runMigrations schemaPresent))
      ⟨.before tracking, []⟩ es = some s) :
    Holds (RecordsFit (MigrationDb.before tracking).recorded) RunnerFits RowsApart s := by
  have hbefore : RecordsFit (MigrationDb.before tracking).recorded (.before tracking) :=
    ⟨hnodup, List.nodup_nil, fun _ hf => hf, fun _ hf => absurd hf List.not_mem_nil,
      fun _ hf => absurd hf List.not_mem_nil⟩
  exact ProcessPool.exec_holds locks_guaranteed (ProcessPool.holds_of_no_procs hbefore)
    (fun _ _ => trivial) hrun

/-- In every run of any number of migration processes, of one image or of several and with
    interruptions anywhere, no migration's SQL is committed twice or without its row, and none
    of a file that was recorded before. -/
theorem migrations_apply_at_most_once (schemaPresent : List String → Bool)
    (tracking : Option (List String)) (hnodup : (MigrationDb.before tracking).recorded.Nodup)
    (es : List (Event MigrationsDir)) (s : ProcessPool.Pool MigrationDb MigrationRunner)
    (hrun : EventRun.exec (ProcessPool.step (runMigrations schemaPresent))
      ⟨.before tracking, []⟩ es = some s) :
    s.shared.history.Nodup ∧ s.shared.recorded.Nodup ∧
      (∀ f ∈ s.shared.history,
        f ∈ s.shared.recorded ∧ f ∉ (MigrationDb.before tracking).recorded) ∧
      ∀ f ∈ (MigrationDb.before tracking).recorded, f ∈ s.shared.recorded := by
  have hs := (locks_hold hnodup hrun).shared
  exact ⟨hs.history_nodup, hs.recorded_nodup,
    fun f hf => ⟨hs.history_recorded f hf, hs.history_new f hf⟩, hs.old_recorded⟩

/-- A directory with two migrations. -/
def twoMigrations : MigrationsDir where
  path := "scripts/migrations"
  entries := some ["000_base.sql", "001_users.sql", "README.md"]
  nodup := by rintro _ ⟨⟩; decide

theorem twoMigrations_sqlFiles :
    twoMigrations.sqlFiles = .ok ["000_base.sql", "001_users.sql"] := by
  have hfilter : ["000_base.sql", "001_users.sql", "README.md"].filter
      (fun name => ".sql".toList.isSuffixOf name.toList) = ["000_base.sql", "001_users.sql"] := by
    decide
  have hsort : (["000_base.sql", "001_users.sql", "README.md"].filter
      (fun name => ".sql".toList.isSuffixOf name.toList)).mergeSort (fun a b => a ≤ b) =
      ["000_base.sql", "001_users.sql"] := by
    rw [hfilter, List.mergeSort_of_pairwise (by decide)]
  show (if (List.mergeSort _ _).isEmpty = true then Except.error _ else Except.ok _) = _
  rw [hsort]
  rfl

theorem startMigrations_twoMigrations :
    startMigrations twoMigrations = some { sqlFiles := ["000_base.sql", "001_users.sql"] } := by
  rw [startMigrations, twoMigrations_sqlFiles]

/-- Two runners select the same file before either has committed; the second is refused. -/
def racingRunners : List (Event MigrationsDir) :=
  [.start twoMigrations, .start twoMigrations] ++ (List.replicate 6 (.advance 0) ++
    (List.replicate 6 (.advance 1) ++ ([.advance 0, .advance 0, .advance 1] ++
      List.replicate 5 (.advance 0))))

/-- The database once both migrations have been applied. -/
def migratedDb : MigrationDb :=
  ⟨["000_base.sql", "001_users.sql"], some ["000_base.sql", "001_users.sql"]⟩

/-- A runner that has executed the SQL of the first file. -/
def recordingRunner : MigrationRunner where
  sqlFiles := ["000_base.sql", "001_users.sql"]
  point := .record "000_base.sql" ["001_users.sql"]
  tx.sql := ["000_base.sql"]

theorem racingRunners_run :
    EventRun.exec (ProcessPool.step (runMigrations fun history => "000_base.sql" ∈ history))
      ⟨.before none, []⟩ racingRunners =
    some { shared := migratedDb
           procs := [⟨["000_base.sql", "001_users.sql"], .complete, {}⟩,
            ⟨["000_base.sql", "001_users.sql"], .raised, {}⟩] } := by
  have hstart : (runMigrations fun history => "000_base.sql" ∈ history).start twoMigrations =
      some { sqlFiles := ["000_base.sql", "001_users.sql"] } := startMigrations_twoMigrations
  have hstarted : EventRun.exec
      (ProcessPool.step (runMigrations fun history => "000_base.sql" ∈ history))
      ⟨.before none, []⟩ [.start twoMigrations, .start twoMigrations] =
      some ⟨.before none, [{ sqlFiles := ["000_base.sql", "001_users.sql"] },
        { sqlFiles := ["000_base.sql", "001_users.sql"] }]⟩ := by
    simp only [EventRun.exec, ProcessPool.step, hstart, Option.map_some, Option.bind_some,
      List.nil_append, List.cons_append]
  have hfirst : EventRun.exec
      (ProcessPool.step (runMigrations fun history => "000_base.sql" ∈ history))
      ⟨.before none, [{ sqlFiles := ["000_base.sql", "001_users.sql"] },
        { sqlFiles := ["000_base.sql", "001_users.sql"] }]⟩ (List.replicate 6 (.advance 0)) =
      some ⟨⟨[], some []⟩, [recordingRunner,
        { sqlFiles := ["000_base.sql", "001_users.sql"] }]⟩ := by
    decide +kernel
  have hsecond : EventRun.exec
      (ProcessPool.step (runMigrations fun history => "000_base.sql" ∈ history))
      ⟨⟨[], some []⟩, [recordingRunner, { sqlFiles := ["000_base.sql", "001_users.sql"] }]⟩
      (List.replicate 6 (.advance 1)) =
      some ⟨⟨[], some []⟩, [recordingRunner, recordingRunner]⟩ := by
    decide +kernel
  have hrefused : EventRun.exec
      (ProcessPool.step (runMigrations fun history => "000_base.sql" ∈ history))
      ⟨⟨[], some []⟩, [recordingRunner, recordingRunner]⟩
      [.advance 0, .advance 0, .advance 1] =
      some ⟨⟨["000_base.sql"], some ["000_base.sql"]⟩,
        [⟨["000_base.sql", "001_users.sql"], .lookUp ["001_users.sql"], {}⟩,
          ⟨["000_base.sql", "001_users.sql"], .raised, {}⟩]⟩ := by
    decide +kernel
  rw [racingRunners, EventRun.exec_append hstarted, EventRun.exec_append hfirst,
    EventRun.exec_append hsecond, EventRun.exec_append hrefused]
  decide +kernel

theorem migrations_apply_at_most_once_racing :
    migratedDb.history.Nodup ∧ migratedDb.recorded.Nodup ∧
      (∀ f ∈ migratedDb.history,
        f ∈ migratedDb.recorded ∧ f ∉ (MigrationDb.before none).recorded) ∧
      ∀ f ∈ (MigrationDb.before none).recorded, f ∈ migratedDb.recorded :=
  migrations_apply_at_most_once _ none List.nodup_nil racingRunners _ racingRunners_run

/-! ## Order -/

/-- All files before `rest` are recorded. -/
def CoveredUpTo (files : List String) (db : MigrationDb) (rest : List String) : Prop :=
  ∃ done, files = done ++ rest ∧ ∀ f ∈ done, f ∈ db.recorded

/-- The committed SQL is that of the first files not recorded before, and nothing else is
    recorded. -/
structure AppliedInOrder (files old : List String) (db : MigrationDb) : Prop where
  history_grows : db.history <+: files.filter (· ∉ old)
  recorded_iff : ∀ f, f ∈ db.recorded ↔ f ∈ old ∨ f ∈ db.history

/-- A runner never backfills, and everything before the file it is at is recorded. -/
def MigrationRunner.Follows (files : List String) (db : MigrationDb) (r : MigrationRunner) : Prop :=
  r.sqlFiles = files ∧
  match r.point with
  | .countTracking true => db.recorded ≠ []
  | .backfill _ => False
  | .lookUp rest => CoveredUpTo files db rest
  | .execute path rest | .record path rest | .commitFile path rest =>
    CoveredUpTo files db (path :: rest)
  | .complete => CoveredUpTo files db []
  | _ => True

theorem CoveredUpTo.mono {files rest : List String} (h : CoveredUpTo files db rest)
    (hgrow : ∀ f ∈ db.recorded, f ∈ db'.recorded) : CoveredUpTo files db' rest := by
  obtain ⟨done, hsplit, hdone⟩ := h
  exact ⟨done, hsplit, fun f hf => hgrow f (hdone f hf)⟩

/-- One more file is covered once it is recorded. -/
theorem CoveredUpTo.tail {files rest : List String} {path : String}
    (h : CoveredUpTo files db (path :: rest)) (hpath : path ∈ db.recorded) :
    CoveredUpTo files db rest := by
  obtain ⟨done, hsplit, hdone⟩ := h
  refine ⟨done ++ [path], by rw [hsplit, List.append_assoc]; rfl, fun f hf => ?_⟩
  obtain hf | hf := List.mem_append.mp hf
  · exact hdone f hf
  · rwa [List.mem_singleton.mp hf]

theorem MigrationRunner.Follows.mono {files : List String} (h : r.Follows files db)
    (hgrow : ∀ f ∈ db.recorded, f ∈ db'.recorded) : r.Follows files db' := by
  have hne : db.recorded ≠ [] → db'.recorded ≠ [] := by
    intro hne hnil
    obtain ⟨f, hf⟩ := List.exists_mem_of_ne_nil _ hne
    exact absurd (hgrow f hf) (by rw [hnil]; exact List.not_mem_nil)
  obtain ⟨files', point, tx'⟩ := r
  refine ⟨h.1, ?_⟩
  have hpoint := h.2
  cases point with
  | countTracking present =>
    cases present with
    | true => exact hne hpoint
    | false => trivial
  | backfill paths => exact hpoint
  | lookUp paths => exact hpoint.mono hgrow
  | execute path paths => exact hpoint.mono hgrow
  | record path paths => exact hpoint.mono hgrow
  | commitFile path paths => exact hpoint.mono hgrow
  | complete => exact hpoint.mono hgrow
  | ensureTrackingTable => trivial
  | commitTrackingTable => trivial
  | probeSchema => trivial
  | raised => trivial

/-- A prefix that has all of `done` but not the item after it is `done`. -/
theorem eq_of_prefix_of_next {α : Type*} {l done rest : List α} {a : α}
    (hpre : l <+: done ++ a :: rest) (hdone : ∀ x ∈ done, x ∈ l) (hnodup : done.Nodup)
    (ha : a ∉ l) : l = done := by
  have hle : l.length ≤ done.length := by
    by_contra hlt
    have hnext : done ++ [a] <+: l :=
      List.prefix_of_prefix_length_le ⟨rest, by simp⟩ hpre (by simp; omega)
    exact ha (hnext.subset (by simp))
  have hlen : done.length ≤ l.length := (hnodup.subperm hdone).length_le
  have hbegin : l <+: done :=
    List.prefix_of_prefix_length_le hpre (List.prefix_append done _) hle
  exact hbegin.eq_of_length (by omega)

/-- The commit of the file that is next. -/
theorem AppliedInOrder.commitFile {files rest : List String} {path : String} (hfiles : files.Nodup)
    (hdb : AppliedInOrder files old db) (hcovered : CoveredUpTo files db (path :: rest))
    (htable : db.tracking.isSome) (hpath : path ∉ db.recorded) :
    AppliedInOrder files old (db.commit { sql := [path], rows := [path] }) := by
  obtain ⟨done, hsplit, hdone⟩ := hcovered
  have hold : path ∉ old := fun h => hpath ((hdb.recorded_iff path).mpr (Or.inl h))
  have hhist : path ∉ db.history := fun h => hpath ((hdb.recorded_iff path).mpr (Or.inr h))
  have hfilter : files.filter (· ∉ old) =
      done.filter (· ∉ old) ++ path :: rest.filter (· ∉ old) := by
    rw [hsplit, List.filter_append, List.filter_cons_of_pos (by simpa using hold)]
  have hdoneNodup : (done.filter (· ∉ old)).Nodup :=
    ((List.sublist_append_left done _).nodup (hsplit ▸ hfiles)).filter _
  -- what has run is exactly what the files before this one needed
  have hhistory : db.history = done.filter (· ∉ old) := by
    refine eq_of_prefix_of_next (hfilter ▸ hdb.history_grows) (fun f hf => ?_) hdoneNodup hhist
    obtain ⟨hf, hnew⟩ := List.mem_filter.mp hf
    exact ((hdb.recorded_iff f).mp (hdone f hf)).resolve_left (by simpa using hnew)
  refine ⟨?_, fun f => ?_⟩
  · rw [history_commit, hhistory, hfilter]
    exact ⟨rest.filter (· ∉ old), by simp⟩
  · rw [recorded_commit (Or.inl htable), history_commit, List.mem_append, List.mem_append,
      hdb.recorded_iff, or_assoc]

/-- A commit without SQL and without rows changes nothing that is recorded. -/
theorem recorded_commit_of_empty (hrows : tx.rows = []) : (db.commit tx).recorded = db.recorded := by
  obtain ⟨history, tracking⟩ := db
  cases tracking <;> cases hc : tx.createsTable <;>
    simp [MigrationDb.commit, MigrationDb.recorded, hrows, hc]

theorem AppliedInOrder.commit_of_empty {files : List String} (hdb : AppliedInOrder files old db)
    (hsql : tx.sql = []) (hrows : tx.rows = []) : AppliedInOrder files old (db.commit tx) := by
  have hhist : (db.commit tx).history = db.history := by
    rw [history_commit, hsql, List.append_nil]
  exact ⟨hhist ▸ hdb.history_grows, fun f => by
    rw [recorded_commit_of_empty hrows, hhist, hdb.recorded_iff]⟩

/-- The processes of the run are of the image that ships `files`. -/
def Ships (files : List String) (dir : MigrationsDir) : Prop :=
  dir.sqlFiles = .ok files

theorem startMigrations_eq_some {dir : MigrationsDir} (h : startMigrations dir = some r) :
    dir.sqlFiles = .ok r.sqlFiles ∧ r = { sqlFiles := r.sqlFiles } := by
  unfold startMigrations at h
  cases hfiles : dir.sqlFiles with
  | error e => simp [hfiles] at h
  | ok files =>
    simp only [hfiles, Option.some.injEq] at h
    subst h
    exact ⟨rfl, rfl⟩

/-- `sorted` of a directory's names: in order and without repetition. -/
theorem sqlFiles_pairwise {dir : MigrationsDir} {files : List String}
    (h : dir.sqlFiles = .ok files) : files.Pairwise (· < ·) := by
  unfold MigrationsDir.sqlFiles at h
  cases hentries : dir.entries with
  | none => simp [hentries] at h
  | some names =>
    simp only [hentries] at h
    split at h
    · cases h
    · simp only [Except.ok.injEq] at h
      subst h
      have htrans : ∀ a b c : String, decide (a ≤ b) = true → decide (b ≤ c) = true →
          decide (a ≤ c) = true := fun a b c hab hbc =>
        decide_eq_true (le_trans (of_decide_eq_true hab) (of_decide_eq_true hbc))
      have htotal : ∀ a b : String, (decide (a ≤ b) || decide (b ≤ a)) = true := by
        intro a b
        simpa using le_total a b
      have hsorted : ((names.filter fun name => ".sql".toList.isSuffixOf name.toList).mergeSort
          fun a b : String => decide (a ≤ b)).Pairwise fun a b => decide (a ≤ b) = true :=
        List.pairwise_mergeSort htrans htotal _
      have hnodup := (List.mergeSort_perm (names.filter fun name =>
        ".sql".toList.isSuffixOf name.toList) (fun a b : String => decide (a ≤ b))).nodup_iff.mpr
        ((dir.nodup names hentries).filter _)
      exact hsorted.imp₂ (fun a b hab hne => lt_of_le_of_ne (of_decide_eq_true hab) hne) hnodup

theorem sqlFiles_nodup {dir : MigrationsDir} {files : List String}
    (h : dir.sqlFiles = .ok files) : files.Nodup :=
  (sqlFiles_pairwise h).imp fun hlt => ne_of_lt hlt

/-- A step of a runner of the image keeps the order, on a database whose schema is absent or
    of which something is recorded. -/
theorem order_guaranteed {files : List String} (hfiles : files.Nodup)
    (hfresh : schemaPresent [] = true → old ≠ []) :
    Extends (runMigrations schemaPresent) (Ships files) (RecordsFit old) RunnerFits RowsApart
      (AppliedInOrder files old) (fun db r => r.Follows files db) where
  start db dir r _ hships hstart := by
    obtain ⟨hr, hnew⟩ := startMigrations_eq_some hstart
    have : r.sqlFiles = files := by
      rw [Ships, hr] at hships
      exact Except.ok.inj hships
    rw [hnew, this]
    exact ⟨rfl, trivial⟩
  advance db peers r db' r' hfit hdb hr hfollows happ hadv := by
    obtain ⟨hfilesEq, hpoint⟩ := hfollows
    obtain ⟨hrows, hnew, hfits⟩ := hr
    -- `hfilesEq` is a fact about the runner before; each step keeps its files
    cases migrationStep_of_advance hadv with
    | tableFound _ => exact ⟨hdb, ⟨hfilesEq, trivial⟩, fun _ _ h => h⟩
    | tableCreated => exact ⟨hdb, ⟨hfilesEq, trivial⟩, fun _ _ h => h⟩
    | tableCommitted =>
      obtain ⟨hsql, hrowsNil, -⟩ := hfits
      refine ⟨hdb.commit_of_empty hsql hrowsNil, ⟨hfilesEq, trivial⟩, fun q _ hq => ?_⟩
      exact hq.mono fun f hf => by rwa [recorded_commit_of_empty hrowsNil]
    | probed =>
      refine ⟨hdb, ⟨hfilesEq, ?_⟩, fun _ _ h => h⟩
      cases hpresent : schemaPresent db.history with
      | false => trivial
      | true =>
        -- the schema is there, so something ran or something was recorded before
        intro hnil
        have hnone : ∀ f, f ∉ old ∧ f ∉ db.history := fun f => by
          rw [← not_or, ← hdb.recorded_iff, hnil]
          exact List.not_mem_nil
        have hhist : db.history = [] := List.eq_nil_iff_forall_not_mem.mpr fun f => (hnone f).2
        have hold : old = [] := List.eq_nil_iff_forall_not_mem.mpr fun f => (hnone f).1
        exact hfresh (hhist ▸ hpresent) hold
    | untracked h => exact absurd h hpoint
    | tracked _ =>
      exact ⟨hdb, ⟨hfilesEq, [], hfilesEq.symm, fun _ h => absurd h List.not_mem_nil⟩,
        fun _ _ h => h⟩
    | rowKept _ => exact hpoint.elim
    | rowAdded _ _ _ => exact hpoint.elim
    | backfilled => exact hpoint.elim
    | returned => exact ⟨hdb, ⟨hfilesEq, hpoint⟩, fun _ _ h => h⟩
    | skipped h =>
      obtain ⟨rfl, -⟩ := hfits
      exact ⟨hdb, ⟨hfilesEq, hpoint.tail (h.resolve_right List.not_mem_nil)⟩, fun _ _ h => h⟩
    | selected _ _ => exact ⟨hdb, ⟨hfilesEq, hpoint⟩, fun _ _ h => h⟩
    | executed => exact ⟨hdb, ⟨hfilesEq, hpoint⟩, fun _ _ h => h⟩
    | refused _ => exact ⟨hdb, ⟨hfilesEq, trivial⟩, fun _ _ h => h⟩
    | inserted _ _ _ => exact ⟨hdb, ⟨hfilesEq, hpoint⟩, fun _ _ h => h⟩
    | @fileCommitted _ path paths _ =>
      obtain ⟨rfl, htable⟩ := hfits
      have hpath : path ∉ db.recorded := hnew (List.mem_singleton_self path)
      have hgrow : ∀ f ∈ db.recorded,
          f ∈ (db.commit { sql := [path], rows := [path] }).recorded := fun f hf => by
        rw [recorded_commit (Or.inl htable)]; exact List.mem_append_left _ hf
      have hrecorded : path ∈ (db.commit { sql := [path], rows := [path] }).recorded := by
        rw [recorded_commit (Or.inl htable)]
        exact List.mem_append_right _ (List.mem_singleton_self path)
      exact ⟨hdb.commitFile hfiles hpoint htable hpath,
        ⟨hfilesEq, CoveredUpTo.tail (hpoint.mono hgrow) hrecorded⟩, fun _ _ h => h.mono hgrow⟩
  interrupt db r _ hfollows := by
    by_cases hc : r.point = .complete
    · rwa [interrupt_of_complete hc]
    · rw [interrupt_of_ne hc]
      exact ⟨hfollows.1, trivial⟩
  lose db peers r db' r' _ _ _ hfollows hadv := by
    rw [interrupt_of_ne (ne_complete_of_advance hadv)]
    exact ⟨hfollows.1, trivial⟩

/-- A run of one image's runners, on a database whose schema is absent or of which something
    is recorded, commits the SQL of the missing files one after the other in the order of
    their names: never one before another, whatever the order of the statements and the
    interruptions.  Nothing else is recorded, and a call that has returned left no file out. -/
theorem migrations_apply_in_order (schemaPresent : List String → Bool)
    (tracking : Option (List String)) (hnodup : (MigrationDb.before tracking).recorded.Nodup)
    (hfresh : schemaPresent [] = true → (MigrationDb.before tracking).recorded ≠ [])
    (dir : MigrationsDir) (files : List String) (hdir : dir.sqlFiles = .ok files)
    (es : List (Event MigrationsDir))
    (himage : ∀ d, Event.start d ∈ es → d.sqlFiles = .ok files)
    (s : ProcessPool.Pool MigrationDb MigrationRunner)
    (hrun : EventRun.exec (ProcessPool.step (runMigrations schemaPresent))
      ⟨.before tracking, []⟩ es = some s) :
    files.Pairwise (· < ·) ∧
      s.shared.history <+: files.filter (· ∉ (MigrationDb.before tracking).recorded) ∧
      (∀ f, f ∈ s.shared.recorded ↔
        f ∈ (MigrationDb.before tracking).recorded ∨ f ∈ s.shared.history) ∧
      ∀ r ∈ s.procs, r.point = .complete →
        s.shared.history = files.filter (· ∉ (MigrationDb.before tracking).recorded) := by
  have hfiles := sqlFiles_nodup hdir
  have hbefore : RecordsFit (MigrationDb.before tracking).recorded (.before tracking) ∧
      AppliedInOrder files (MigrationDb.before tracking).recorded (.before tracking) :=
    ⟨⟨hnodup, List.nodup_nil, fun _ hf => hf, fun _ hf => absurd hf List.not_mem_nil,
      fun _ hf => absurd hf List.not_mem_nil⟩,
      ⟨List.nil_prefix, fun f => (or_iff_left List.not_mem_nil).symm⟩⟩
  have hs := ProcessPool.exec_holds
    (locks_guaranteed.extend (fun _ _ => trivial) (order_guaranteed hfiles hfresh))
    (ProcessPool.holds_of_no_procs hbefore) himage hrun
  have horder := hs.shared.2
  refine ⟨sqlFiles_pairwise hdir, horder.history_grows, horder.recorded_iff, ?_⟩
  intro r hr hcomplete
  obtain ⟨-, hpoint⟩ := (hs.each r hr).2
  rw [hcomplete] at hpoint
  obtain ⟨done, hsplit, hdone⟩ := hpoint
  -- every missing file is recorded, so all of them are in the history
  refine horder.history_grows.eq_of_length_le ?_
  refine ((hfiles.filter _).subperm fun f hf => ?_).length_le
  obtain ⟨hf, hnew⟩ := List.mem_filter.mp hf
  rw [hsplit, List.append_nil] at hf
  exact ((horder.recorded_iff f).mp (hdone f hf)).resolve_left (by simpa using hnew)

theorem migrations_apply_in_order_racing :
    ["000_base.sql", "001_users.sql"].Pairwise (· < ·) ∧
      migratedDb.history <+: ["000_base.sql", "001_users.sql"].filter
        (· ∉ (MigrationDb.before none).recorded) ∧
      (∀ f, f ∈ migratedDb.recorded ↔
        f ∈ (MigrationDb.before none).recorded ∨ f ∈ migratedDb.history) ∧
      ∀ r ∈ [(⟨["000_base.sql", "001_users.sql"], .complete, {}⟩ : MigrationRunner),
          ⟨["000_base.sql", "001_users.sql"], .raised, {}⟩], r.point = .complete →
        migratedDb.history = ["000_base.sql", "001_users.sql"].filter
          (· ∉ (MigrationDb.before none).recorded) := by
  have himage : ∀ d, Event.start d ∈ racingRunners →
      d.sqlFiles = .ok ["000_base.sql", "001_users.sql"] := by
    intro d hd
    obtain rfl : d = twoMigrations := by simpa [racingRunners] using hd
    exact twoMigrations_sqlFiles
  exact migrations_apply_in_order (fun history => "000_base.sql" ∈ history) none List.nodup_nil
    (by decide) twoMigrations _ twoMigrations_sqlFiles racingRunners himage _ racingRunners_run

/-! ## A database from before tracking -/

/-- The store, for a file that every image ships: it never ran, and it is recorded as soon as
    anything is. -/
structure Spares (f : String) (db : MigrationDb) : Prop where
  not_ran : f ∉ db.history
  untouched : db.recorded = [] → db.history = []
  recorded : db.recorded = [] ∨ f ∈ db.recorded

/-- A runner, for a file that every image ships: past the backfill the file is recorded, and
    it is never the file whose SQL is executed. -/
def MigrationRunner.Skips (f : String) (db : MigrationDb) (r : MigrationRunner) : Prop :=
  f ∈ r.sqlFiles ∧ f ∉ r.tx.sql ∧
  match r.point with
  | .countTracking false => f ∈ db.recorded
  | .backfill rest => f ∈ db.recorded ∨ f ∈ r.tx.rows ∨ f ∈ rest
  | .lookUp _ => f ∈ db.recorded
  | .execute path _ | .record path _ | .commitFile path _ => f ∈ db.recorded ∧ path ≠ f
  | _ => True

theorem MigrationRunner.Skips.mono {f : String} (h : r.Skips f db)
    (hgrow : ∀ g ∈ db.recorded, g ∈ db'.recorded) : r.Skips f db' := by
  obtain ⟨files, point, tx'⟩ := r
  refine ⟨h.1, h.2.1, ?_⟩
  have hpoint := h.2.2
  cases point with
  | countTracking present =>
    cases present with
    | true => trivial
    | false => exact hgrow f hpoint
  | backfill paths => exact hpoint.imp_left (hgrow f)
  | lookUp paths => exact hgrow f hpoint
  | execute path paths => exact hpoint.imp_left (hgrow f)
  | record path paths => exact hpoint.imp_left (hgrow f)
  | commitFile path paths => exact hpoint.imp_left (hgrow f)
  | ensureTrackingTable => trivial
  | commitTrackingTable => trivial
  | probeSchema => trivial
  | complete => trivial
  | raised => trivial

/-- A commit after which the file is recorded. -/
theorem Spares.commit {f : String} (hdb : Spares f db) (hsql : f ∉ tx.sql)
    (hrec : f ∈ (db.commit tx).recorded) : Spares f (db.commit tx) := by
  refine ⟨?_, fun hnil => ?_, Or.inr hrec⟩
  · rw [history_commit, List.mem_append]
    exact not_or.mpr ⟨hdb.not_ran, hsql⟩
  · rw [hnil] at hrec
    exact absurd hrec List.not_mem_nil

/-- A step of a runner whose image ships the file keeps it from running. -/
theorem spare_guaranteed {f : String} (hschema : schemaPresent [] = true) :
    Extends (runMigrations schemaPresent)
      (fun dir => ∀ files, dir.sqlFiles = .ok files → f ∈ files) (RecordsFit old) RunnerFits
      RowsApart (Spares f) (fun db r => r.Skips f db) where
  start db dir r _ hships hstart := by
    obtain ⟨hr, hnew⟩ := startMigrations_eq_some hstart
    have hf := hships r.sqlFiles hr
    rw [hnew]
    exact ⟨hf, List.not_mem_nil, trivial⟩
  advance db peers r db' r' hfit hdb hr hskips happ hadv := by
    obtain ⟨hf, hsql, hpoint⟩ := hskips
    obtain ⟨-, -, hfits⟩ := hr
    cases migrationStep_of_advance hadv with
    | tableFound _ => exact ⟨hdb, ⟨hf, hsql, trivial⟩, fun _ _ h => h⟩
    | tableCreated => exact ⟨hdb, ⟨hf, hsql, trivial⟩, fun _ _ h => h⟩
    | @tableCommitted _ tx =>
      obtain ⟨hsqlNil, hrowsNil, -⟩ := hfits
      have hrec : (db.commit tx).recorded = db.recorded := recorded_commit_of_empty hrowsNil
      refine ⟨⟨?_, ?_, hrec ▸ hdb.recorded⟩, ⟨hf, List.not_mem_nil, trivial⟩, fun q _ hq =>
        hq.mono fun g hg => by rwa [hrec]⟩
      · rw [history_commit, hsqlNil, List.append_nil]
        exact hdb.not_ran
      · rw [history_commit, hsqlNil, List.append_nil, hrec]
        exact hdb.untouched
    | probed =>
      refine ⟨hdb, ⟨hf, hsql, ?_⟩, fun _ _ h => h⟩
      cases hpresent : schemaPresent db.history with
      | true => trivial
      | false =>
        -- the schema was there before, so some SQL ran and its file is recorded
        refine hdb.recorded.resolve_left fun hnil => ?_
        rw [hdb.untouched hnil, hschema] at hpresent
        cases hpresent
    | untracked _ => exact ⟨hdb, ⟨hf, hsql, Or.inr (Or.inr hf)⟩, fun _ _ h => h⟩
    | @tracked _ _ present h =>
      refine ⟨hdb, ⟨hf, hsql, ?_⟩, fun _ _ h => h⟩
      cases present with
      | true => exact hdb.recorded.resolve_left (h rfl)
      | false => exact hpoint
    | rowKept h =>
      refine ⟨hdb, ⟨hf, hsql, ?_⟩, fun _ _ h => h⟩
      obtain hrec | hrow | hrest := hpoint
      · exact Or.inl hrec
      · exact Or.inr (Or.inl hrow)
      · obtain rfl | hrest := List.mem_cons.mp hrest
        · exact h.imp_right Or.inl
        · exact Or.inr (Or.inr hrest)
    | rowAdded _ _ _ =>
      refine ⟨hdb, ⟨hf, hsql, ?_⟩, fun _ _ h => h⟩
      obtain hrec | hrow | hrest := hpoint
      · exact Or.inl hrec
      · exact Or.inr (Or.inl (List.mem_append_left _ hrow))
      · obtain rfl | hrest := List.mem_cons.mp hrest
        · exact Or.inr (Or.inl (List.mem_append_right _ (List.mem_singleton_self _)))
        · exact Or.inr (Or.inr hrest)
    | @backfilled _ tx =>
      obtain ⟨-, -, htable⟩ := hfits
      have hrec : (db.commit tx).recorded = db.recorded ++ tx.rows :=
        recorded_commit (Or.inl htable)
      have hmem : f ∈ (db.commit tx).recorded := by
        rw [hrec, List.mem_append]
        exact hpoint.imp_right fun h => h.resolve_right List.not_mem_nil
      exact ⟨hdb.commit hsql hmem, ⟨hf, List.not_mem_nil, hmem⟩, fun q _ hq =>
        hq.mono fun g hg => by rw [hrec]; exact List.mem_append_left _ hg⟩
    | returned => exact ⟨hdb, ⟨hf, List.not_mem_nil, trivial⟩, fun _ _ h => h⟩
    | skipped _ => exact ⟨hdb, ⟨hf, hsql, hpoint⟩, fun _ _ h => h⟩
    | selected hpath _ =>
      exact ⟨hdb, ⟨hf, hsql, hpoint, fun heq => hpath (heq ▸ hpoint)⟩, fun _ _ h => h⟩
    | executed =>
      refine ⟨hdb, ⟨hf, ?_, hpoint⟩, fun _ _ h => h⟩
      rw [List.mem_append, List.mem_singleton, not_or]
      exact ⟨hsql, fun heq => hpoint.2 heq.symm⟩
    | refused _ => exact ⟨hdb, ⟨hf, List.not_mem_nil, trivial⟩, fun _ _ h => h⟩
    | inserted _ _ _ => exact ⟨hdb, ⟨hf, hsql, hpoint⟩, fun _ _ h => h⟩
    | @fileCommitted _ path _ _ =>
      obtain ⟨rfl, htable⟩ := hfits
      have hgrow : ∀ g ∈ db.recorded,
          g ∈ (db.commit { sql := [path], rows := [path] }).recorded := fun g hg => by
        rw [recorded_commit (Or.inl htable)]; exact List.mem_append_left _ hg
      have hmem := hgrow f hpoint.1
      exact ⟨hdb.commit hsql hmem, ⟨hf, List.not_mem_nil, hmem⟩, fun q _ hq => hq.mono hgrow⟩
  interrupt db r _ hskips := by
    by_cases hc : r.point = .complete
    · rwa [interrupt_of_complete hc]
    · rw [interrupt_of_ne hc]
      exact ⟨hskips.1, List.not_mem_nil, trivial⟩
  lose db peers r db' r' _ _ _ hskips hadv := by
    rw [interrupt_of_ne (ne_complete_of_advance hadv)]
    exact ⟨hskips.1, List.not_mem_nil, trivial⟩

/-- On a database that has the schema but no record of a migration, a file that every image of
    the run ships is never executed, not even in a transaction that is rolled back, and it is
    recorded as soon as some runner has got past the backfill. -/
theorem pretracking_migrations_never_run (schemaPresent : List String → Bool)
    (tracking : Option (List String)) (hempty : (MigrationDb.before tracking).recorded = [])
    (hschema : schemaPresent [] = true) (f : String) (es : List (Event MigrationsDir))
    (hships : ∀ d, Event.start d ∈ es → ∀ files, d.sqlFiles = .ok files → f ∈ files)
    (s : ProcessPool.Pool MigrationDb MigrationRunner)
    (hrun : EventRun.exec (ProcessPool.step (runMigrations schemaPresent))
      ⟨.before tracking, []⟩ es = some s) :
    f ∉ s.shared.history ∧ (∀ r ∈ s.procs, f ∉ r.tx.sql) ∧
      ∀ r ∈ s.procs, ∀ rest, r.point = .lookUp rest → f ∈ s.shared.recorded := by
  have hbefore : RecordsFit (MigrationDb.before tracking).recorded (.before tracking) ∧
      Spares f (.before tracking) :=
    ⟨⟨hempty ▸ List.nodup_nil, List.nodup_nil, fun _ hf => hf,
      fun _ hf => absurd hf List.not_mem_nil, fun _ hf => absurd hf List.not_mem_nil⟩,
      ⟨List.not_mem_nil, fun _ => rfl, Or.inl hempty⟩⟩
  have hs := ProcessPool.exec_holds
    (locks_guaranteed.extend (fun _ _ => trivial) (spare_guaranteed hschema))
    (ProcessPool.holds_of_no_procs hbefore) hships hrun
  refine ⟨hs.shared.2.not_ran, fun r hr => (hs.each r hr).2.2.1, ?_⟩
  intro r hr rest hpoint
  have hskips := (hs.each r hr).2.2.2
  rwa [hpoint] at hskips

/-- One runner on a database from before tracking, up to its last look at `_migrations`. -/
def backfillingRunner : List (Event MigrationsDir) :=
  .start twoMigrations :: List.replicate 8 (.advance 0)

theorem backfillingRunner_run :
    EventRun.exec (ProcessPool.step (runMigrations fun _ => true)) ⟨.before (some []), []⟩
      backfillingRunner =
    some { shared := ⟨[], some ["000_base.sql", "001_users.sql"]⟩
           procs := [⟨["000_base.sql", "001_users.sql"], .lookUp ["001_users.sql"], {}⟩] } := by
  have hstart : (runMigrations fun _ => true).start twoMigrations =
      some { sqlFiles := ["000_base.sql", "001_users.sql"] } := startMigrations_twoMigrations
  simp only [backfillingRunner, EventRun.exec, ProcessPool.step, hstart, Option.map_some,
    Option.bind_some]
  decide +kernel

theorem pretracking_migrations_never_run_backfilling :
    "000_base.sql" ∉ ([] : List String) ∧
      (∀ r ∈ [(⟨["000_base.sql", "001_users.sql"], .lookUp ["001_users.sql"], {}⟩ :
        MigrationRunner)], "000_base.sql" ∉ r.tx.sql) ∧
      ∀ r ∈ [(⟨["000_base.sql", "001_users.sql"], .lookUp ["001_users.sql"], {}⟩ :
        MigrationRunner)], ∀ rest, r.point = .lookUp rest →
          "000_base.sql" ∈ (⟨[], some ["000_base.sql", "001_users.sql"]⟩ : MigrationDb).recorded := by
  have hships : ∀ d, Event.start d ∈ backfillingRunner → ∀ files, d.sqlFiles = .ok files →
      "000_base.sql" ∈ files := by
    intro d hd files hfiles
    obtain rfl : d = twoMigrations := by simpa [backfillingRunner] using hd
    rw [twoMigrations_sqlFiles, Except.ok.injEq] at hfiles
    rw [← hfiles]
    exact List.mem_cons_self
  exact pretracking_migrations_never_run (fun _ => true) (some []) rfl rfl "000_base.sql"
    backfillingRunner hships _ backfillingRunner_run

/-! ## A new start after an interruption -/

/-- No peer holds a row or creates the table. -/
def Quiet (peers : List MigrationRunner) : Prop :=
  ∀ peer ∈ peers, peer.tx = {}

theorem heldByPeer_of_quiet (hquiet : Quiet peers) (path : String) :
    heldByPeer peers path = false :=
  heldByPeer_eq_false_iff.mpr fun peer hpeer => by
    rw [hquiet peer hpeer]
    exact List.not_mem_nil

/-- A file that is not recorded, with no peer in the way: its SQL and its row are committed. -/
theorem alone_missing {files paths : List String} {path : String} (hquiet : Quiet peers)
    (hpath : path ∉ db.recorded) :
    (runMigrations schemaPresent).alone peers 4 db ⟨files, .lookUp (path :: paths), {}⟩ =
      some (db.commit { sql := [path], rows := [path] }, ⟨files, .lookUp paths, {}⟩) := by
  simp [ProcessPool.Program.alone, runMigrations, MigrationRunner.advance, hpath,
    heldByPeer_of_quiet hquiet]

/-- The loop of `_apply_pending` with no peer in the way runs the files that are missing. -/
theorem alone_lookUp (schemaPresent : List String → Bool) (files : List String)
    {rest : List String} (hquiet : Quiet peers) (hrest : rest.Nodup)
    (htable : db.tracking.isSome) :
    ∃ n db', (runMigrations schemaPresent).alone peers n db ⟨files, .lookUp rest, {}⟩ =
        some (db', ⟨files, .complete, {}⟩) ∧
      db'.history = db.history ++ rest.filter (· ∉ db.recorded) ∧
      db'.recorded = db.recorded ++ rest.filter (· ∉ db.recorded) := by
  induction rest generalizing db with
  | nil => exact ⟨1, db, rfl, by simp, by simp⟩
  | cons path paths ih =>
    obtain ⟨hnotin, hpaths⟩ := List.nodup_cons.mp hrest
    by_cases hpath : path ∈ db.recorded
    · obtain ⟨n, db', halone, hhist, hrec⟩ := ih hpaths htable
      have hskip : (runMigrations schemaPresent).advance db peers
          ⟨files, .lookUp (path :: paths), {}⟩ = some (db, ⟨files, .lookUp paths, {}⟩) := by
        simp [runMigrations, MigrationRunner.advance, hpath]
      refine ⟨n + 1, db', ProcessPool.alone_succ hskip halone, ?_, ?_⟩
      · rw [hhist, List.filter_cons_of_neg (by simpa using hpath)]
      · rw [hrec, List.filter_cons_of_neg (by simpa using hpath)]
    · let tx : MigrationTx := { sql := [path], rows := [path] }
      have hcommit : (db.commit tx).recorded = db.recorded ++ [path] :=
        recorded_commit (Or.inl htable)
      have htable' : (db.commit tx).tracking.isSome := tracking_commit (Or.inl htable)
      obtain ⟨n, db', halone, hhist, hrec⟩ := ih hpaths htable'
      -- the row just written is of none of the files to come
      have hfilter : paths.filter (· ∉ (db.commit tx).recorded) =
          paths.filter (· ∉ db.recorded) := by
        refine List.filter_congr fun g hg => ?_
        have hne : g ≠ path := fun heq => hnotin (heq ▸ hg)
        rw [hcommit]
        simp [hne]
      refine ⟨4 + n, db', ProcessPool.alone_add (alone_missing hquiet hpath) halone, ?_, ?_⟩
      · rw [hhist, hfilter, history_commit, List.filter_cons_of_pos (by simpa using hpath),
          List.append_assoc]
        rfl
      · rw [hrec, hfilter, hcommit, List.filter_cons_of_pos (by simpa using hpath),
          List.append_assoc]
        rfl

/-- A new call up to its loop, on a database that is not from before tracking. -/
theorem alone_until_loop (files : List String) (hquiet : Quiet peers)
    (hschema : schemaPresent db.history = true → db.recorded ≠ []) :
    ∃ db', (runMigrations schemaPresent).alone peers 4 db { sqlFiles := files } =
        some (db', ⟨files, .lookUp files, {}⟩) ∧
      db'.history = db.history ∧ db'.recorded = db.recorded ∧ db'.tracking.isSome := by
  have hcount : ¬ (schemaPresent db.history = true ∧ db.recorded = []) := fun h =>
    hschema h.1 h.2
  by_cases htable : db.tracking.isSome
  · have hhist : (db.commit {}).history = db.history := List.append_nil _
    have hrec : (db.commit {}).recorded = db.recorded := recorded_commit_of_empty rfl
    refine ⟨db.commit {}, ?_, hhist, hrec, tracking_commit (Or.inl htable)⟩
    simp [ProcessPool.Program.alone, runMigrations, MigrationRunner.advance, htable, hrec, hcount]
  · have hpeers : peers.any (·.tx.createsTable) = false := by
      rw [List.any_eq_false]
      intro peer hpeer
      simp [hquiet peer hpeer]
    have hhist : (db.commit { createsTable := true }).history = db.history := List.append_nil _
    have hrec : (db.commit { createsTable := true }).recorded = db.recorded :=
      recorded_commit_of_empty rfl
    refine ⟨db.commit { createsTable := true }, ?_, hhist, hrec, tracking_commit (Or.inr rfl)⟩
    simp [ProcessPool.Program.alone, runMigrations, MigrationRunner.advance, htable, hrec, hpeers,
      hcount]

/-- A runner whose process dies between the SQL of a file and its row. -/
def killedRunner : List (Event MigrationsDir) :=
  .start twoMigrations :: List.replicate 6 (.advance 0) ++ [.interrupt 0]

theorem killedRunner_run :
    EventRun.exec (ProcessPool.step (runMigrations fun history => "000_base.sql" ∈ history))
      ⟨.before none, []⟩ killedRunner =
    some { shared := ⟨[], some []⟩
           procs := [⟨["000_base.sql", "001_users.sql"], .raised, {}⟩] } := by
  have hstart : (runMigrations fun history => "000_base.sql" ∈ history).start twoMigrations =
      some { sqlFiles := ["000_base.sql", "001_users.sql"] } := startMigrations_twoMigrations
  simp only [killedRunner, List.cons_append, EventRun.exec, ProcessPool.step, hstart,
    Option.map_some, Option.bind_some]
  decide +kernel

end

end Inherent
