import Inherent.ForStd.ProcessPool

/-!
# Schema migrations

`run_migrations` of `services/migrations.py`, as processes over one database: any number of
them, of one image or of several, may be started at any time, and each may be stopped
between two statements.  A statement reads what has committed and what its own transaction
wrote; an `INSERT` into `_migrations` of a file name that another open transaction has
inserted waits for it, since the column is `UNIQUE`; a commit publishes all writes of a
transaction, a rollback none.
-/

namespace Inherent

/-- What `MIGRATIONS_DIR` names: its path, and the names of its entries when it is a
    directory. -/
structure MigrationsDir where
  path : String
  entries : Option (List String)
  nodup : ∀ names, entries = some names → names.Nodup

/-- The files that `run_migrations` works on, `sorted(migrations_dir.glob("*.sql"))`, or the
    `RuntimeError` it raises before it connects. -/
def MigrationsDir.sqlFiles (dir : MigrationsDir) : Except String (List String) :=
  match dir.entries with
  | none => .error s!"Migrations directory not found: {dir.path}"
  | some names =>
    let files := (names.filter fun name => ".sql".toList.isSuffixOf name.toList).mergeSort
      fun a b => a ≤ b
    if files.isEmpty then .error s!"No *.sql migrations found in {dir.path}" else .ok files

/-- What has committed: the files whose SQL ran, oldest first, and the file names in
    `_migrations` (`none` before the table exists). -/
structure MigrationDb where
  history : List String
  tracking : Option (List String)
  deriving DecidableEq, Repr

/-- The recorded file names. -/
def MigrationDb.recorded (db : MigrationDb) : List String :=
  db.tracking.getD []

/-- The uncommitted writes of a connection: the tracking table, SQL of migrations, and rows
    of `_migrations`. -/
structure MigrationTx where
  createsTable : Bool := false
  sql : List String := []
  rows : List String := []
  deriving DecidableEq, Repr

/-- `raw.commit()`. -/
def MigrationDb.commit (db : MigrationDb) (tx : MigrationTx) : MigrationDb where
  history := db.history ++ tx.sql
  tracking :=
    if tx.createsTable then some (db.recorded ++ tx.rows) else db.tracking.map (· ++ tx.rows)

/-- The statement a runner executes next, with the files its loop has left. -/
inductive MigrationPoint where
  /-- `CREATE TABLE IF NOT EXISTS` of `_ensure_tracking_table`. -/
  | ensureTrackingTable
  /-- Its `raw.commit()`. -/
  | commitTrackingTable
  /-- `SELECT to_regclass('public.processed_documents') IS NOT NULL`. -/
  | probeSchema
  /-- `SELECT COUNT(*) FROM _migrations`, after the probe. -/
  | countTracking (schemaPresent : Bool)
  /-- The `for` of `_backfill_if_pretracking`, and its commit after the last file. -/
  | backfill (paths : List String)
  /-- The `SELECT` of `_apply_pending`, and the end of `run_migrations` after the last file. -/
  | lookUp (paths : List String)
  /-- `cur.execute(sql)`. -/
  | execute (path : String) (paths : List String)
  /-- The `INSERT` that records the file. -/
  | record (path : String) (paths : List String)
  /-- The commit of the file's SQL with its row. -/
  | commitFile (path : String) (paths : List String)
  /-- `run_migrations` has returned. -/
  | complete
  /-- It has raised, or its process is gone. -/
  | raised
  deriving DecidableEq, Repr

/-- One call of `run_migrations`, with the open transaction of its connection. -/
structure MigrationRunner where
  sqlFiles : List String
  point : MigrationPoint := .ensureTrackingTable
  tx : MigrationTx := {}
  deriving DecidableEq, Repr

/-- Another open transaction has inserted the file name. -/
def heldByPeer (peers : List MigrationRunner) (path : String) : Bool :=
  peers.any fun peer => path ∈ peer.tx.rows

/-- The next statement of a runner, executed without an error other than the one of the
    `UNIQUE` column; `none` when the statement waits for a peer's transaction or nothing is
    left to execute.  `schemaPresent` says whether `public.processed_documents` exists once
    the SQL of the files given has run on the database. -/
def MigrationRunner.advance (schemaPresent : List String → Bool) (db : MigrationDb)
    (peers : List MigrationRunner) (r : MigrationRunner) :
    Option (MigrationDb × MigrationRunner) :=
  match r.point with
  | .ensureTrackingTable =>
    if db.tracking.isSome then some (db, { r with point := .commitTrackingTable })
    else if peers.any (·.tx.createsTable) then none
    else some (db, { r with point := .commitTrackingTable, tx.createsTable := true })
  | .commitTrackingTable => some (db.commit r.tx, { r with point := .probeSchema, tx := {} })
  | .probeSchema => some (db, { r with point := .countTracking (schemaPresent db.history) })
  | .countTracking present =>
    if present && db.recorded.length == 0 then
      some (db, { r with point := .backfill r.sqlFiles })
    else some (db, { r with point := .lookUp r.sqlFiles })
  | .backfill [] => some (db.commit r.tx, { r with point := .lookUp r.sqlFiles, tx := {} })
  | .backfill (path :: paths) =>
    if heldByPeer peers path then none
    -- `ON CONFLICT (filename) DO NOTHING`
    else if path ∈ db.recorded ∨ path ∈ r.tx.rows then
      some (db, { r with point := .backfill paths })
    else some (db, { r with point := .backfill paths, tx.rows := r.tx.rows ++ [path] })
  | .lookUp [] => some (db, { r with point := .complete, tx := {} })
  | .lookUp (path :: paths) =>
    if path ∈ db.recorded ∨ path ∈ r.tx.rows then some (db, { r with point := .lookUp paths })
    else some (db, { r with point := .execute path paths })
  | .execute path paths =>
    some (db, { r with point := .record path paths, tx.sql := r.tx.sql ++ [path] })
  | .record path paths =>
    if heldByPeer peers path then none
    -- the `UNIQUE` column refuses a second row: `raw.rollback()`, `raise`
    else if path ∈ db.recorded ∨ path ∈ r.tx.rows then
      some (db, { r with point := .raised, tx := {} })
    else some (db, { r with point := .commitFile path paths, tx.rows := r.tx.rows ++ [path] })
  | .commitFile _ paths => some (db.commit r.tx, { r with point := .lookUp paths, tx := {} })
  | .complete => none
  | .raised => none

/-- A statement raises, the file cannot be read, the reply to a commit is lost, or the process
    dies: what is uncommitted is rolled back.  A call that has returned is not changed. -/
def MigrationRunner.interrupt (r : MigrationRunner) : MigrationRunner :=
  match r.point with
  | .complete => r
  | _ => { r with point := .raised, tx := {} }

/-- A new call of `run_migrations`; one that raises before it connects does nothing. -/
def startMigrations (dir : MigrationsDir) : Option MigrationRunner :=
  match dir.sqlFiles with
  | .ok files => some { sqlFiles := files }
  | .error _ => none

/-- `run_migrations` as a program of a process pool over the database. -/
def runMigrations (schemaPresent : List String → Bool) :
    ProcessPool.Program MigrationDb MigrationRunner MigrationsDir where
  start := startMigrations
  advance := MigrationRunner.advance schemaPresent
  interrupt := MigrationRunner.interrupt

/-- A database before any of these calls, on which `recorded` files are recorded, if it has
    the table. -/
def MigrationDb.before (tracking : Option (List String)) : MigrationDb where
  history := []
  tracking := tracking

end Inherent
