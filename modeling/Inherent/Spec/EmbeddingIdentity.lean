import Inherent.Native.EmbeddingIdentity

/-!
# One identity for the vectors of a collection

A process of the ingestion service that has the collection in its cache, or is past the
check, embeds with the identity of the stamp, and a stamp stays as it is.  Three steps can
break this: a create that loses its race takes the collection unseen, an adoption stamps over
the stamp of another process, and the public API writes without a check.
-/

open EventRun

namespace Inherent

/-- The identity that a collection is stamped with. -/
def stampOf (collection : Option WeaviateCollection) : Option EmbeddingIdentity :=
  collection.bind WeaviateCollection.description

/-- Every vector that a model has produced was produced under the stamped identity. -/
def SameIdentity (collection : Option WeaviateCollection) : Prop :=
  ∀ col ∈ collection, ∀ v ∈ col.vectors.rows, ∀ identity ∈ v.identity,
    col.description = some identity

instance (collection : Option WeaviateCollection) : Decidable (SameIdentity collection) :=
  inferInstanceAs (Decidable (∀ col ∈ collection, ∀ v ∈ col.vectors.rows, _))

/-- The ingestion service writes only what it has checked. -/
def VectorWrite.checked : VectorWrite → Bool
  | storeChunks _ _ => true
  | updateChunk _ _ => true
  | upsertChunk _ _ _ => false

namespace EmbeddingSystem

/-- The step does not get past the identity of the collection: an adoption finds it still
    unstamped, a create that collides finds the identity of its own process, and so does the
    public API when it writes a vector of its model. -/
def StepGuarded (collection : Option WeaviateCollection) (p : EmbeddingProcess)
    (c : VectorCall) : VectorStep → Prop
  | .stamp => ∀ col ∈ collection, col.description = none ∨ col.description = some p.identity
  | .create => ∀ col ∈ collection, col.description = some p.identity
  | .write _ => c.write.checked = false → ∀ col ∈ collection, ∀ v ∈ c.write.vectors p.identity,
      v.identity = none ∨ col.description = some p.identity
  | _ => True

instance (collection : Option WeaviateCollection) (p : EmbeddingProcess) (c : VectorCall)
    (e : VectorStep) : Decidable (StepGuarded collection p c e) := by
  unfold StepGuarded
  split <;> infer_instance

/-- The event is no step of a call or is guarded. -/
def Guarded (s : EmbeddingSystem) : EmbeddingEvent → Prop
  | .call k e => ∀ c ∈ s.calls[k]?, ∀ p ∈ s.processes[c.process]?,
      StepGuarded s.collection p c e
  | _ => True

instance (s : EmbeddingSystem) (e : EmbeddingEvent) : Decidable (s.Guarded e) := by
  unfold Guarded
  split <;> infer_instance

end EmbeddingSystem

/-! ## One step of a call -/

/-- `resolve_identity` passes a persisted identity that is the current one. -/
theorem resolveIdentity_ok {persisted current i : EmbeddingIdentity} {isEmpty : Option Bool}
    {allowAdopt : Bool}
    (h : resolveIdentity (some persisted) current isEmpty allowAdopt = .ok i) :
    persisted = current := by
  simp only [resolveIdentity] at h
  split at h
  · cases h
  · rename_i hsame
    rw [not_or, not_not, not_not] at hsame
    cases persisted
    cases current
    simp_all

/-- An unstamped collection holds no vector of a model. -/
theorem SameIdentity.identity_eq_none {col : WeaviateCollection} (h : SameIdentity (some col))
    (hstamp : col.description = none) {v : StoredVector} (hv : v ∈ col.vectors.rows) :
    v.identity = none := by
  by_contra hne
  obtain ⟨identity, hidentity⟩ := Option.ne_none_iff_exists'.mp hne
  have hsome := h col rfl v hv identity hidentity
  rw [hstamp] at hsome
  cases hsome

/-- What a process writes carries its identity or is a zero vector. -/
theorem identity_of_mem_vectors {w : VectorWrite} {identity i : EmbeddingIdentity}
    {v : StoredVector} (hv : v ∈ w.vectors identity) (hi : v.identity = some i) :
    i = identity := by
  obtain ⟨chunk, -, rfl⟩ := List.mem_map.mp hv
  simp only [embedText] at hi
  split at hi
  · cases hi
  · exact (Option.some.inj hi).symm

namespace EmbeddingSystem

/-- What a step of a call keeps: the vectors have the stamped identity, a stamp stays, and a
    process that is past the check embeds with it. -/
structure Kept (collection collection' : Option WeaviateCollection) (identity : EmbeddingIdentity)
    (write : VectorWrite) (cached : Bool) (phase : VectorCallPhase) : Prop where
  same : SameIdentity collection'
  stamped : ∀ i, stampOf collection = some i → stampOf collection' = some i
  cached : cached = true → stampOf collection' = some identity
  ready : phase = .ready → write.checked = true → stampOf collection' = some identity

variable {collection collection' : Option WeaviateCollection} {p : EmbeddingProcess}
  {c : VectorCall} {e : VectorStep} {cached : Bool} {phase : VectorCallPhase}

/-- A step that leaves the collection. -/
theorem kept_of_same {cached' : Bool} {phase' : VectorCallPhase}
    (hstep : some (collection, cached', phase') = some (collection', cached, phase))
    (hsame : SameIdentity collection)
    (hcached : cached' = true → stampOf collection = some p.identity)
    (hready : phase' = .ready → c.write.checked = true →
      stampOf collection = some p.identity) :
    Kept collection collection' p.identity c.write cached phase := by
  simp only [Option.some.injEq, Prod.mk.injEq] at hstep
  obtain ⟨rfl, rfl, rfl⟩ := hstep
  exact ⟨hsame, fun _ h => h, hcached, hready⟩

/-- A call gets past the look-up when its process has the collection in the cache. -/
private theorem kept_lookUp (hsame : SameIdentity collection)
    (hcached : p.cached = true → stampOf collection = some p.identity)
    (hstep : callStep collection p c .lookUp = some (collection', cached, phase)) :
    Kept collection collection' p.identity c.write cached phase := by
  simp only [callStep, Option.ite_none_right_eq_some] at hstep
  obtain ⟨-, hstep⟩ := hstep
  split at hstep
  · -- a store of a collection in the cache is ready
    split at hstep
    · rename_i hp
      exact kept_of_same hstep hsame hcached fun _ _ => hcached hp
    · refine kept_of_same hstep hsame hcached ?_
      intro hphase
      split at hphase <;> cases hphase
  · refine kept_of_same hstep hsame hcached ?_
    intro hphase _
    split at hphase
    · rename_i hp
      exact hcached hp
    · cases hphase
  · rename_i hwrite
    refine kept_of_same hstep hsame hcached ?_
    intro _ hchecked
    rw [hwrite] at hchecked
    cases hchecked

/-- A persisted identity passes when it is that of the process. -/
private theorem kept_readIdentity (hsame : SameIdentity collection)
    (hcached : p.cached = true → stampOf collection = some p.identity)
    (hstep : callStep collection p c .readIdentity = some (collection', cached, phase)) :
    Kept collection collection' p.identity c.write cached phase := by
  simp only [callStep, Option.ite_none_right_eq_some] at hstep
  obtain ⟨-, hstep⟩ := hstep
  split at hstep
  · exact kept_of_same hstep hsame hcached (by simp)
  · rename_i col
    split at hstep
    · exact kept_of_same hstep hsame hcached (by simp)
    · rename_i persisted hpersisted
      split at hstep
      · rename_i hok
        -- the persisted identity has passed
        have hstamp : stampOf (some col) = some p.identity := by
          change col.description = some p.identity
          rw [hpersisted, resolveIdentity_ok hok]
        exact kept_of_same hstep hsame (fun _ => hstamp) fun _ _ => hstamp
      · exact kept_of_same hstep hsame hcached (by simp)

/-- The check for emptiness leaves the collection. -/
private theorem kept_checkEmpty {answered : Bool} (hsame : SameIdentity collection)
    (hcached : p.cached = true → stampOf collection = some p.identity)
    (hstep : callStep collection p c (.checkEmpty answered) = some (collection', cached, phase)) :
    Kept collection collection' p.identity c.write cached phase := by
  simp only [callStep, Option.ite_none_right_eq_some] at hstep
  obtain ⟨-, hstep⟩ := hstep
  split at hstep
  · exact kept_of_same hstep hsame hcached (by simp)
  · split at hstep <;> exact kept_of_same hstep hsame hcached (by simp)

/-- The stamp of an adoption. -/
private theorem kept_stamp (hsame : SameIdentity collection)
    (hcached : p.cached = true → stampOf collection = some p.identity)
    (hguard : StepGuarded collection p c .stamp)
    (hstep : callStep collection p c .stamp = some (collection', cached, phase)) :
    Kept collection collection' p.identity c.write cached phase := by
  simp only [callStep, Option.ite_none_right_eq_some] at hstep
  obtain ⟨-, hstep⟩ := hstep
  split at hstep
  · exact kept_of_same hstep hsame hcached (by simp)
  · rename_i col
    simp only [Option.some.injEq, Prod.mk.injEq] at hstep
    obtain ⟨rfl, rfl, rfl⟩ := hstep
    have hstamp := hguard col rfl
    refine ⟨?_, ?_, fun _ => rfl, fun _ _ => rfl⟩
    · intro col' hcol' v hv identity hidentity
      simp only [Option.mem_def, Option.some.injEq] at hcol'
      subst hcol'
      cases hstamp with
      | inl hnone =>
        rw [Option.mem_def, hsame.identity_eq_none hnone hv] at hidentity
        cases hidentity
      | inr hown => exact hown.symm.trans (hsame col rfl v hv identity hidentity)
    · intro i hi
      change col.description = some i at hi
      cases hstamp with
      | inl hnone =>
        rw [hnone] at hi
        cases hi
      | inr hown => exact hown.symm.trans hi

/-- A create makes the collection, or finds one with the identity of the process. -/
private theorem kept_create (hsame : SameIdentity collection)
    (hcached : p.cached = true → stampOf collection = some p.identity)
    (hguard : StepGuarded collection p c .create)
    (hstep : callStep collection p c .create = some (collection', cached, phase)) :
    Kept collection collection' p.identity c.write cached phase := by
  simp only [callStep, Option.ite_none_right_eq_some] at hstep
  obtain ⟨-, hstep⟩ := hstep
  split at hstep
  · simp only [Option.some.injEq, Prod.mk.injEq] at hstep
    obtain ⟨rfl, rfl, rfl⟩ := hstep
    refine ⟨?_, by simp [stampOf], fun _ => rfl, fun _ _ => rfl⟩
    intro col hcol v hv
    simp only [Option.mem_def, Option.some.injEq] at hcol
    subst hcol
    cases hv
  · rename_i col
    have hstamp : stampOf (some col) = some p.identity := hguard col rfl
    exact kept_of_same hstep hsame (fun _ => hstamp) fun _ _ => hstamp

/-- A new tenant has no vectors. -/
private theorem kept_ensureTenant (hsame : SameIdentity collection)
    (hcached : p.cached = true → stampOf collection = some p.identity)
    (hready : c.phase = .ready → c.write.checked = true →
      stampOf collection = some p.identity)
    (hstep : callStep collection p c .ensureTenant = some (collection', cached, phase)) :
    Kept collection collection' p.identity c.write cached phase := by
  simp only [callStep] at hstep
  split at hstep
  · rename_i col tenant chunks hphase hwrite
    simp only [Option.some.injEq, Prod.mk.injEq] at hstep
    obtain ⟨rfl, rfl, rfl⟩ := hstep
    refine ⟨?_, fun _ h => h, hcached, fun _ => hready hphase⟩
    intro col' hcol' v hv identity hidentity
    simp only [Option.mem_def, Option.some.injEq] at hcol'
    subst hcol'
    exact hsame col rfl v hv identity hidentity
  · cases hstep

/-- The write of the vectors. -/
private theorem kept_write {landed : List Bool} (hsame : SameIdentity collection)
    (hcached : p.cached = true → stampOf collection = some p.identity)
    (hready : c.phase = .ready → c.write.checked = true →
      stampOf collection = some p.identity)
    (hguard : StepGuarded collection p c (.write landed))
    (hstep : callStep collection p c (.write landed) = some (collection', cached, phase)) :
    Kept collection collection' p.identity c.write cached phase := by
  simp only [callStep] at hstep
  split at hstep
  · rename_i col hphase
    split at hstep
    · simp only [Option.some.injEq, Prod.mk.injEq] at hstep
      obtain ⟨rfl, rfl, rfl⟩ := hstep
      refine ⟨?_, fun _ h => h, hcached, by simp⟩
      intro col' hcol' v hv identity hidentity
      simp only [Option.mem_def, Option.some.injEq] at hcol'
      subst hcol'
      cases UniqueTable.mem_of_mem_putAll hv with
      | inr hold => exact hsame col rfl v hold.1 identity hidentity
      | inl hnew =>
        -- a written vector is one of the call
        obtain ⟨q, hq, hqv⟩ := List.mem_filterMap.mp hnew
        have hmem : v ∈ c.write.vectors p.identity := by
          simp only [Option.ite_none_right_eq_some, Option.some.injEq] at hqv
          exact hqv.2 ▸ (List.of_mem_zip hq).1
        rw [identity_of_mem_vectors hmem hidentity]
        cases hchecked : c.write.checked with
        | true => exact hready hphase hchecked
        | false =>
          cases hguard hchecked col rfl v hmem with
          | inl hzero =>
            rw [Option.mem_def, hzero] at hidentity
            cases hidentity
          | inr hown => exact hown
    · exact kept_of_same hstep hsame hcached (by simp)
  · exact kept_of_same hstep hsame hcached (by simp)
  · cases hstep

private theorem kept_raise (hsame : SameIdentity collection)
    (hcached : p.cached = true → stampOf collection = some p.identity)
    (hstep : callStep collection p c .raise = some (collection', cached, phase)) :
    Kept collection collection' p.identity c.write cached phase := by
  exact kept_of_same (callStep_raise hstep) hsame hcached (by simp)

/-- Every guarded step of a call. -/
theorem kept_callStep (hsame : SameIdentity collection)
    (hcached : p.cached = true → stampOf collection = some p.identity)
    (hready : c.phase = .ready → c.write.checked = true →
      stampOf collection = some p.identity)
    (hguard : StepGuarded collection p c e)
    (hstep : callStep collection p c e = some (collection', cached, phase)) :
    Kept collection collection' p.identity c.write cached phase := by
  cases e with
  | lookUp => exact kept_lookUp hsame hcached hstep
  | readIdentity => exact kept_readIdentity hsame hcached hstep
  | checkEmpty answered => exact kept_checkEmpty hsame hcached hstep
  | stamp => exact kept_stamp hsame hcached hguard hstep
  | create => exact kept_create hsame hcached hguard hstep
  | ensureTenant => exact kept_ensureTenant hsame hcached hready hstep
  | write landed => exact kept_write hsame hcached hready hguard hstep
  | raise => exact kept_raise hsame hcached hstep

/-! ## A run -/

/-- The invariant: one identity for the vectors, and every process that is past the check
    embeds with it. -/
structure Inv (s : EmbeddingSystem) : Prop where
  same : SameIdentity s.collection
  cached : ∀ p ∈ s.processes, p.cached = true → stampOf s.collection = some p.identity
  started : ∀ c ∈ s.calls, c.process < s.processes.length
  ready : ∀ c ∈ s.calls, c.phase = .ready → c.write.checked = true →
    ∀ p ∈ s.processes[c.process]?, stampOf s.collection = some p.identity

variable {s s' : EmbeddingSystem}

/-- A new process has checked nothing. -/
private theorem inv_startProcess (h : s.Inv) (identity : EmbeddingIdentity) :
    Inv { s with processes := s.processes ++ [{ identity := identity }] } where
  same := h.same
  cached p hp hcached := by
    cases List.mem_append.mp hp with
    | inl hp => exact h.cached p hp hcached
    | inr hp =>
      rw [List.mem_singleton.mp hp] at hcached
      cases hcached
  started c hc := by
    have hlt := h.started c hc
    simp only [List.length_append, List.length_singleton]
    omega
  ready c hc hphase hchecked p hp := by
    rw [List.getElem?_append_left (h.started c hc)] at hp
    exact h.ready c hc hphase hchecked p hp

/-- A new call is not ready. -/
private theorem inv_startCall (h : s.Inv) {process : Nat} (write : VectorWrite)
    (hprocess : process < s.processes.length) :
    Inv { s with calls := s.calls ++ [{ process := process, write := write }] } where
  same := h.same
  cached := h.cached
  started c hc := by
    cases List.mem_append.mp hc with
    | inl hc => exact h.started c hc
    | inr hc =>
      rw [List.mem_singleton.mp hc]
      exact hprocess
  ready c hc hphase := by
    cases List.mem_append.mp hc with
    | inl hc => exact h.ready c hc hphase
    | inr hc =>
      rw [List.mem_singleton.mp hc] at hphase
      cases hphase

/-- A step of a call that keeps the stamp keeps the invariant. -/
private theorem inv_call (h : s.Inv) {k : Nat} {c : VectorCall} {p : EmbeddingProcess}
    {collection : Option WeaviateCollection} {cached : Bool} {phase : VectorCallPhase}
    (hc : s.calls[k]? = some c) (hp : s.processes[c.process]? = some p)
    (hkept : Kept s.collection collection p.identity c.write cached phase) :
    Inv
      { collection := collection
        processes := s.processes.set c.process { p with cached := cached }
        calls := s.calls.set k { c with phase := phase } } where
  same := hkept.same
  cached q hq hcached := by
    cases List.mem_or_eq_of_mem_set hq with
    | inl hq => exact hkept.stamped _ (h.cached q hq hcached)
    | inr hq =>
      subst hq
      exact hkept.cached hcached
  started d hd := by
    rw [List.length_set]
    cases List.mem_or_eq_of_mem_set hd with
    | inl hd => exact h.started d hd
    | inr hd =>
      rw [hd]
      exact h.started c (List.mem_of_getElem? hc)
  ready d hd hphase hchecked q hq := by
    -- the process of a call keeps its identity
    have hidentity : ∃ q' ∈ s.processes[d.process]?, q'.identity = q.identity := by
      by_cases heq : d.process = c.process
      · obtain ⟨hlt, -⟩ := List.getElem?_eq_some_iff.mp hp
        rw [heq, List.getElem?_set_self hlt] at hq
        refine ⟨p, heq ▸ hp, ?_⟩
        rw [← Option.some.inj hq]
      · rw [List.getElem?_set_ne (Ne.symm heq)] at hq
        exact ⟨q, hq, rfl⟩
    obtain ⟨q', hq', hidentity⟩ := hidentity
    rw [← hidentity]
    cases List.mem_or_eq_of_mem_set hd with
    | inl hd => exact hkept.stamped _ (h.ready d hd hphase hchecked q' hq')
    | inr hd =>
      subst hd
      obtain rfl : p = q' := Option.some.inj (hp.symm.trans hq')
      exact hkept.ready hphase hchecked

/-- A guarded event keeps the invariant. -/
theorem inv_step {e : EmbeddingEvent} (h : s.Inv) (hguard : s.Guarded e)
    (hstep : s.step e = some s') : s'.Inv := by
  cases e with
  | startProcess identity =>
    simp only [step, Option.some.injEq] at hstep
    exact hstep ▸ inv_startProcess h identity
  | startCall process write =>
    simp only [step, Option.ite_none_right_eq_some, Option.some.injEq] at hstep
    obtain ⟨hprocess, rfl⟩ := hstep
    exact inv_startCall h write hprocess
  | call k e =>
    simp only [step] at hstep
    split at hstep
    · cases hstep
    · rename_i c hc
      split at hstep
      · cases hstep
      · rename_i p hp
        split at hstep
        · cases hstep
        · rename_i collection cached phase hcall
          simp only [Option.some.injEq] at hstep
          subst hstep
          have hmem := List.mem_of_getElem? hc
          exact inv_call h hc hp (kept_callStep h.same (h.cached p (List.mem_of_getElem? hp))
            (fun hphase hchecked => h.ready c hmem hphase hchecked p hp) (hguard c hc p hp)
            hcall)

/-- From a collection whose vectors have the stamped identity the run leaves one. -/
def KeepsIdentity (collection : Option WeaviateCollection) (events : List EmbeddingEvent) :
    Prop :=
  SameIdentity collection → ∀ s ∈ exec step { collection := collection } events,
    SameIdentity s.collection

instance (collection : Option WeaviateCollection) (events : List EmbeddingEvent) :
    Decidable (KeepsIdentity collection events) :=
  inferInstanceAs (Decidable (_ → ∀ s ∈ exec step { collection := collection } events, _))

/-- A guarded run, of any processes, keeps one identity for the vectors of a collection. -/
theorem keepsIdentity_of_guarded {collection : Option WeaviateCollection}
    {events : List EmbeddingEvent}
    (hguard : AllSteps step Guarded { collection := collection } events) :
    KeepsIdentity collection events := by
  intro hsame s hrun
  have hstart : Inv { collection := collection } := by
    refine ⟨hsame, ?_, ?_, ?_⟩
    · intro p hp
      cases hp
    · intro c hc
      cases hc
    · intro c hc
      cases hc
  have hinv : s.Inv := exec_invariant_of_allSteps
    (fun s e s' hs he hstep => inv_step hs he hstep) hstart hguard hrun
  exact hinv.same

/-- Two processes with one model: the first creates the collection and stores a chunk, and
    the second, which finds the collection, stores another. -/
theorem keepsIdentity_sameModel :
    KeepsIdentity none
      [.startProcess ⟨"model-a", 384⟩, .startProcess ⟨"model-a", 384⟩,
        .startCall 0 (.storeChunks "ada" [("chunk-0", "text")]), .call 0 .lookUp,
        .call 0 .create, .call 0 .ensureTenant, .call 0 (.write [true]),
        .startCall 1 (.storeChunks "ada" [("chunk-1", "text")]), .call 1 .lookUp,
        .call 1 .readIdentity, .call 1 .ensureTenant, .call 1 (.write [true])] :=
  keepsIdentity_of_guarded (by decide)

/-- The public API, with a model of its own, adds a chunk to a collection that the ingestion
    service has stamped. -/
theorem not_keepsIdentity_publicApi :
    ¬ KeepsIdentity none
      [.startProcess ⟨"model-a", 384⟩, .startProcess ⟨"model-b", 384⟩,
        .startCall 0 (.storeChunks "ada" [("chunk-0", "text")]), .call 0 .lookUp,
        .call 0 .create, .call 0 .ensureTenant, .call 0 (.write [true]),
        .startCall 1 (.upsertChunk "ada" ("chunk-1", "text") true), .call 1 .lookUp,
        .call 1 (.write [true])] := by
  decide

end EmbeddingSystem

end Inherent
