import Inherent.ForStd.Run
import Inherent.ForStd.UniqueTable
import Inherent.Native.PyStr

/-!
# The embedding identity of a collection

The collection of a workspace carries the identity of the model that embedded its chunks in
its description (`inh_contracts/embedding/identity.py`).  The processes of the ingestion
service check or stamp it before they write (`WeaviateService`), each with a cache of the
collections it has checked; the public API writes vectors as well
(`SearchService.upsert_chunk_vector`).  `EMBEDDING_ADOPT_UNSTAMPED_COLLECTIONS` is off.
-/

namespace Inherent

/-- `EmbeddingIdentity` (`inh_contracts/embedding/provider.py`). -/
structure EmbeddingIdentity where
  modelId : String
  dimension : Nat
  deriving DecidableEq, Repr

/-- The errors of `resolve_identity`. -/
inductive EmbeddingIdentityError where
  | mismatch (persisted current : EmbeddingIdentity)
  | adoptionRequired (current : EmbeddingIdentity)
  deriving DecidableEq, Repr

/-- `resolve_identity`: the identity that should end up persisted. -/
def resolveIdentity (persisted : Option EmbeddingIdentity) (current : EmbeddingIdentity)
    (isEmpty : Option Bool) (allowAdoptUnstamped : Bool) :
    Except EmbeddingIdentityError EmbeddingIdentity :=
  match persisted with
  | none =>
    if isEmpty = some true then .ok current
    else if allowAdoptUnstamped then .ok current
    else .error (.adoptionRequired current)
  | some persisted =>
    if persisted.modelId ≠ current.modelId ∨ persisted.dimension ≠ current.dimension then
      .error (.mismatch persisted current)
    else .ok persisted

/-- A stored vector and the identity that produced it, none for the zero vector. -/
structure StoredVector where
  tenant : String
  objectId : String
  identity : Option EmbeddingIdentity
  deriving DecidableEq, Repr

/-- The vectors of a collection, under tenant and object id. -/
abbrev VectorTable := UniqueTable fun v : StoredVector => (v.tenant, v.objectId)

/-- A collection; `description` is what `decode_identity` reads from it. -/
structure WeaviateCollection where
  description : Option EmbeddingIdentity
  tenants : List String
  vectors : VectorTable
  deriving DecidableEq

/-- `embed_single`: a blank text has the zero vector, which no model produces. -/
def embedText (identity : EmbeddingIdentity) (text : String) : Option EmbeddingIdentity :=
  if PyStr.strip text.toList = [] then none else some identity

/-- A process of either service; `cached` says whether the collection is in its
    `_collection_cache`. -/
structure EmbeddingProcess where
  identity : EmbeddingIdentity
  cached : Bool := false
  deriving DecidableEq, Repr

/-- A write of vectors, each chunk as object id and content. -/
inductive VectorWrite where
  /-- `store_chunks_with_tenant`. -/
  | storeChunks (tenant : String) (chunks : List (String × String))
  /-- The ingestion service's `update_chunk`. -/
  | updateChunk (tenant : String) (chunk : String × String)
  /-- The public API's `upsert_chunk_vector`. -/
  | upsertChunk (tenant : String) (chunk : String × String) (create : Bool)
  deriving DecidableEq, Repr

/-- How far a call is. -/
inductive VectorCallPhase where
  | started
  /-- The collection exists, and its identity is read next. -/
  | existing
  /-- `collections.exists` was false, and the collection is created next. -/
  | missing
  /-- No identity is persisted, and the check for emptiness is next. -/
  | unstamped
  /-- The collection is adopted, and the stamp is next. -/
  | adopting
  /-- Nothing stands between the call and its write. -/
  | ready
  | returned
  | raised
  deriving DecidableEq, Repr

/-- A call of a write by a process. -/
structure VectorCall where
  process : Nat
  write : VectorWrite
  phase : VectorCallPhase := .started
  deriving DecidableEq, Repr

/-- The collection, the processes and their calls. -/
structure EmbeddingSystem where
  collection : Option WeaviateCollection
  processes : List EmbeddingProcess := []
  calls : List VectorCall := []
  deriving DecidableEq

/-- A step of a call. -/
inductive VectorStep where
  /-- The cache, and `collections.exists`. -/
  | lookUp
  /-- `_check_or_stamp_collection_identity` reads the description. -/
  | readIdentity
  /-- `_collection_is_empty`: false as well when the question fails. -/
  | checkEmpty (answered : Bool)
  /-- `config.update`. -/
  | stamp
  /-- `collections.create`. -/
  | create
  /-- `ensure_user_tenant`. -/
  | ensureTenant
  /-- The write of the objects: which of them land. -/
  | write (landed : List Bool)
  /-- The step that is next raises. -/
  | raise
  deriving DecidableEq, Repr

/-- What can happen; `k` is the number of a call. -/
inductive EmbeddingEvent where
  | startProcess (identity : EmbeddingIdentity)
  | startCall (process : Nat) (write : VectorWrite)
  | call (k : Nat) (e : VectorStep)
  deriving DecidableEq, Repr

namespace VectorWrite

def tenant : VectorWrite → String
  | storeChunks tenant _ => tenant
  | updateChunk tenant _ => tenant
  | upsertChunk tenant _ _ => tenant

def chunks : VectorWrite → List (String × String)
  | storeChunks _ chunks => chunks
  | updateChunk _ chunk => [chunk]
  | upsertChunk _ chunk _ => [chunk]

/-- A write that makes new objects, or one of objects that are there. -/
def Accepts (w : VectorWrite) (c : WeaviateCollection) : Prop :=
  w.tenant ∈ c.tenants ∧ match w with
    | storeChunks _ _ => True
    | updateChunk tenant chunk => c.vectors.Holds (tenant, chunk.1)
    | upsertChunk tenant chunk create =>
      if create then ¬ c.vectors.Holds (tenant, chunk.1) else c.vectors.Holds (tenant, chunk.1)

instance (w : VectorWrite) (c : WeaviateCollection) : Decidable (w.Accepts c) := by
  unfold Accepts
  cases w <;> infer_instance

/-- The vectors that a process writes. -/
def vectors (w : VectorWrite) (identity : EmbeddingIdentity) : List StoredVector :=
  w.chunks.map fun chunk =>
    { tenant := w.tenant, objectId := chunk.1, identity := embedText identity chunk.2 }

end VectorWrite

namespace EmbeddingSystem

/-- A step of a call of the process `p`: the collection, whether the process has it in its
    cache, and the phase after the step. -/
def callStep (collection : Option WeaviateCollection) (p : EmbeddingProcess) (c : VectorCall) :
    VectorStep → Option (Option WeaviateCollection × Bool × VectorCallPhase)
  | .lookUp =>
    if c.phase = .started then
      match c.write with
      | .storeChunks _ _ =>
        if p.cached then some (collection, p.cached, .ready)
        else some (collection, p.cached, if collection.isSome then .existing else .missing)
      | .updateChunk _ _ => some (collection, p.cached, if p.cached then .ready else .existing)
      -- the public API checks nothing
      | .upsertChunk _ _ _ => some (collection, p.cached, .ready)
    else none
  | .readIdentity =>
    if c.phase = .existing then
      match collection with
      | none => some (none, p.cached, .raised)
      | some col =>
        match col.description with
        | none => some (some col, p.cached, .unstamped)
        | some persisted =>
          match resolveIdentity (some persisted) p.identity none false with
          | .ok _ => some (some col, true, .ready)
          | .error _ => some (some col, p.cached, .raised)
    else none
  | .checkEmpty answered =>
    if c.phase = .unstamped then
      match collection with
      | none => some (none, p.cached, .raised)
      | some col =>
        match resolveIdentity none p.identity (some (answered && col.tenants.isEmpty)) false with
        | .ok _ => some (some col, p.cached, .adopting)
        | .error _ => some (some col, p.cached, .raised)
    else none
  | .stamp =>
    if c.phase = .adopting then
      match collection with
      | none => some (none, p.cached, .raised)
      | some col => some (some { col with description := some p.identity }, true, .ready)
    else none
  | .create =>
    if c.phase = .missing then
      match collection with
      | none =>
        some (some { description := some p.identity, tenants := [], vectors := .empty }, true,
          .ready)
      -- "already exists": the collection of another process is taken as checked
      | some col => some (some col, true, .ready)
    else none
  | .ensureTenant =>
    match c.phase, collection, c.write with
    | .ready, some col, .storeChunks tenant _ =>
      some (some { col with tenants := col.tenants.insert tenant }, p.cached, .ready)
    | _, _, _ => none
  | .write landed =>
    match c.phase, collection with
    | .ready, some col =>
      if c.write.Accepts col then
        let batch := (c.write.vectors p.identity).zip landed
        let written := batch.filterMap fun v => if v.2 then some v.1 else none
        some (some { col with vectors := col.vectors.putAll written }, p.cached, .returned)
      else some (some col, p.cached, .raised)
    | .ready, none => some (none, p.cached, .raised)
    | _, _ => none
  | .raise =>
    if c.phase = .returned ∨ c.phase = .raised then none
    else some (collection, p.cached, .raised)

/-- A call that has not ended may raise, which leaves the collection and the cache. -/
theorem callStep_raise {collection collection' : Option WeaviateCollection} {p : EmbeddingProcess}
    {c : VectorCall} {cached : Bool} {phase : VectorCallPhase}
    (h : callStep collection p c .raise = some (collection', cached, phase)) :
    some (collection, p.cached, VectorCallPhase.raised) = some (collection', cached, phase) := by
  simp only [callStep, Option.ite_none_left_eq_some] at h
  exact h.2

/-- One event. -/
def step (s : EmbeddingSystem) : EmbeddingEvent → Option EmbeddingSystem
  | .startProcess identity =>
    some { s with processes := s.processes ++ [{ identity := identity }] }
  | .startCall process write =>
    if process < s.processes.length then
      some { s with calls := s.calls ++ [{ process := process, write := write }] }
    else none
  | .call k e =>
    match s.calls[k]? with
    | none => none
    | some c =>
      match s.processes[c.process]? with
      | none => none
      | some p =>
        match callStep s.collection p c e with
        | none => none
        | some (collection, cached, phase) =>
          some
            { collection := collection
              processes := s.processes.set c.process { p with cached := cached }
              calls := s.calls.set k { c with phase := phase } }

end EmbeddingSystem

end Inherent
