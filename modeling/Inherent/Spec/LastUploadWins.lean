import Inherent.ForStd.Run
import Inherent.Native.DocumentUpload
import Inherent.Spec.Store

/-!
# The last upload wins

Runs of one document are ordered by their start, uploads by their publication, and nothing
carries the order of the one over to the other.  Once every message is handled and the last
run has completed, the chunks and the storage path are those of the upload published last,
as long as no message is handled after a later one, publications come in the order of the
resets, and the fence refuses the runs that are not the last one.
-/

namespace Inherent

open EventRun

/-- What does not change in a run: the message it was started for and its input. -/
def UploadRun.origin (run : UploadRun) : Nat × DocumentIngestionInput := (run.messageNo, run.input)

namespace UploadSystem

/-- All uploads are published, all messages handled, and the last run has completed. -/
def Quiescent (s : UploadSystem) : Prop :=
  s.intake = [] ∧ s.pending = [] ∧ ∀ last ∈ s.runs.getLast?, last.status = .completed

/-- The document has the storage path and exactly the chunks of the message. -/
def StoredFor (c : UploadConfig) (s : UploadSystem) (m : DocumentUploadMessage) : Prop :=
  storedPath s.doc = some m.storagePath ∧
    HoldsExactly s.doc (c.extract (c.workflowInput m)).batch.chunks

instance (c : UploadConfig) (s : UploadSystem) (m : DocumentUploadMessage) :
    Decidable (StoredFor c s m) :=
  inferInstanceAs (Decidable (_ ∧ _))

/-- Once all is quiet, the document is that of the message published last. -/
def LastUploadWins (c : UploadConfig) (s : UploadSystem) : Prop :=
  s.Quiescent → ∀ m ∈ s.messages.getLast?, StoredFor c s m

/-- The last run has stored its document. -/
def LastStored (s : UploadSystem) : Prop := ∃ last ∈ s.runs.getLast?, last.stored = true

instance (s : UploadSystem) : Decidable s.LastStored := by
  unfold LastStored
  cases hlast : s.runs.getLast? with
  | none => exact isFalse (by simp)
  | some last => exact decidable_of_iff (last.stored = true) (by simp)

/-- What keeps the last upload the winner:
    * an upload is published while its reset of the row is the last one;
    * an upload whose reset is the last one does not fail to be published;
    * no message is handled after a message that was published later;
    * once the last run has stored, a commit of another run is refused by the fence. -/
def InOrder (s : UploadSystem) : UploadEvent → Prop
  | .publish k _ => ∀ u ∈ s.intake[k]?, storedPath s.doc = some u.s3Key
  | .publishFailed k _ => ∀ u ∈ s.intake[k]?, storedPath s.doc ≠ some u.s3Key
  | .handle i _ _ _ => ∀ run ∈ s.runs, run.messageNo ≤ i
  | .commit k _ _ _ => ∀ run ∈ s.runs[k]?, k + 1 ≠ s.runs.length → s.LastStored →
      ¬ isActiveRun run.workflowRunId s.doc
  | _ => True

instance (s : UploadSystem) (e : UploadEvent) : Decidable (s.InOrder e) := by
  cases e with
  | publish k timestamp => exact inferInstanceAs (Decidable (∀ u, u ∈ s.intake[k]? → _))
  | publishFailed k now => exact inferInstanceAs (Decidable (∀ u, u ∈ s.intake[k]? → _))
  | handle i runId now acked => exact inferInstanceAs (Decidable (∀ run, run ∈ s.runs → _))
  | commit k now tenantId processingTimeMs =>
    exact inferInstanceAs (Decidable (∀ run, run ∈ s.runs[k]? → _))
  | _ => exact isTrue trivial

/-! ## What one event does -/

/-- `s.Transition c e s'`: the event `e` can happen in `s` and leaves `s'`. -/
inductive Transition (c : UploadConfig) (s : UploadSystem) : UploadEvent → UploadSystem → Prop where
  | reset (u : DocumentUpload) (now : Timestamp) :
      Transition c s (.reset u now) { s with
        doc := some (createOrResetPendingDocument (u.resetCall now) s.doc)
        intake := s.intake ++ [u] }
  | published (k : Nat) (timestamp : String) (u : DocumentUpload) (hu : s.intake[k]? = some u) :
      Transition c s (.publish k timestamp) { s with
        intake := s.intake.eraseIdx k
        messages := s.messages ++ [u.message timestamp]
        pending := s.pending ++ [s.messages.length] }
  | publishFailed (k : Nat) (now : Timestamp) (u : DocumentUpload)
      (hu : s.intake[k]? = some u) : Transition c s (.publishFailed k now) { s with
        intake := s.intake.eraseIdx k
        doc := markDocumentFailed u.workspaceId "ingestion enqueue failed" now s.doc }
  | handled (i : Nat) (runId : RunId) (now : Timestamp) (acked : Bool)
      (m : DocumentUploadMessage) (run : UploadRun) (hm : s.messages[i]? = some m)
      (horigin : run.origin = (i, c.workflowInput m)) (hstatus : run.status = .running)
      (hstored : run.stored = false) :
      Transition c s (.handle i runId now acked) { s with
        runs := s.runs.map UploadRun.terminate ++ [run]
        pending := if acked then s.pending.erase i else s.pending }
  | claimed (k : Nat) (now : Timestamp) (run : UploadRun) (hr : s.runs[k]? = some run) :
      Transition c s (.claim k now)
        { s with doc := (createPendingDocument (run.pendingCall now) s.doc).1 }
  | statusSet (k : Nat) (status : DocumentStatus) (errorMessage : Option String)
      (now : Timestamp) (call : StatusCall) : Transition c s (.setStatus k status errorMessage now)
        { s with doc := (updateDocumentStatus call s.doc).1 }
  | stored (k : Nat) (now : Timestamp) (tenantId : Option Nat) (processingTimeMs : Nat)
      (run : UploadRun) (hr : s.runs[k]? = some run)
      (hactive : isActiveRun run.workflowRunId s.doc) :
      Transition c s (.commit k now tenantId processingTimeMs) { s with
        doc := (storeInPostgresql (run.storeInput c tenantId processingTimeMs) now
          (run.batch c).chunks s.doc).1
        runs := s.runs.set k { run with stored := true } }
  | fenced (k : Nat) (now : Timestamp) (tenantId : Option Nat) (processingTimeMs : Nat) :
      Transition c s (.commit k now tenantId processingTimeMs) s
  | closed (e : UploadEvent) (k : Nat) (run : UploadRun) (status : UploadRunStatus)
      (hr : s.runs[k]? = some run) (he : e = .complete k ∨ e = .fail k)
      (hstored : status = .completed → run.stored = true) :
      Transition c s e { s with runs := s.runs.set k { run with status := status } }

/-- Every step is one of the transitions. -/
theorem transition_of_step {c : UploadConfig} {s s' : UploadSystem} {e : UploadEvent}
    (h : s.step c e = some s') : s.Transition c e s' := by
  cases e with
  | reset u now =>
    simp only [step] at h
    split at h
    · obtain rfl := Option.some.inj h
      exact .reset u now
    · exact nomatch h
  | publish k timestamp =>
    simp only [step] at h
    split at h
    · rename_i u hu
      obtain rfl := Option.some.inj h
      exact .published k timestamp u hu
    · exact nomatch h
  | publishFailed k now =>
    simp only [step] at h
    split at h
    · rename_i u hu
      obtain rfl := Option.some.inj h
      exact .publishFailed k now u hu
    · exact nomatch h
  | handle i runId now acked =>
    simp only [step] at h
    split at h
    · rename_i m hm
      split at h
      · obtain rfl := Option.some.inj h
        exact .handled i runId now acked m _ hm rfl rfl rfl
      · exact nomatch h
    · exact nomatch h
  | claim k now =>
    simp only [step] at h
    split at h
    · rename_i run hr
      obtain rfl := Option.some.inj h
      exact .claimed k now run hr
    · exact nomatch h
  | setStatus k status errorMessage now =>
    simp only [step] at h
    split at h
    · split at h
      · obtain rfl := Option.some.inj h
        exact .statusSet k status errorMessage now _
      · exact nomatch h
    · exact nomatch h
  | commit k now tenantId processingTimeMs =>
    simp only [step] at h
    split at h
    · rename_i run hr
      obtain rfl := Option.some.inj h
      -- the fence lets the active run through
      by_cases hactive : isActiveRun run.workflowRunId s.doc
      · have hresult := storeInPostgresql_of_isActiveRun
          (run.storeInput c tenantId processingTimeMs) now (run.batch c).chunks s.doc hactive
        have hsuccess : (storeInPostgresql (run.storeInput c tenantId processingTimeMs) now
            (run.batch c).chunks s.doc).2.success = true := by rw [hresult]
        simp only [hsuccess, if_true]
        exact .stored k now tenantId processingTimeMs run hr hactive
      · have hresult := storeInPostgresql_of_not_isActiveRun
          (run.storeInput c tenantId processingTimeMs) now (run.batch c).chunks s.doc hactive
        simp only [hresult, StoreDocumentOutput.supersededByNewerRun, Bool.false_eq_true, if_false]
        exact .fenced k now tenantId processingTimeMs
    · exact nomatch h
  | complete k =>
    simp only [step] at h
    split at h
    · rename_i run hr
      split at h
      · rename_i hopen
        obtain rfl := Option.some.inj h
        exact .closed _ k run .completed hr (Or.inl rfl) fun _ => hopen.2
      · exact nomatch h
    · exact nomatch h
  | fail k =>
    simp only [step] at h
    split at h
    · rename_i run hr
      split at h
      · obtain rfl := Option.some.inj h
        exact .closed _ k run .failed hr (Or.inr rfl) nofun
      · exact nomatch h
    · exact nomatch h

/-! ## What holds along a run -/

/-- The path is that of the last message or of an upload in intake, the runs are those of
    their messages and in the order of the messages, every message that is not pending has
    one, and the chunks are those of the last run once it has stored. -/
structure Tracked (c : UploadConfig) (s : UploadSystem) : Prop where
  path : s.messages ≠ [] ∨ s.intake ≠ [] →
    (∃ m ∈ s.messages.getLast?, storedPath s.doc = some m.storagePath) ∨
      ∃ u ∈ s.intake, storedPath s.doc = some u.s3Key
  origins : ∀ o ∈ s.runs.map UploadRun.origin, ∃ m, s.messages[o.1]? = some m ∧
    o.2 = c.workflowInput m
  latest : ∀ last ∈ (s.runs.map UploadRun.origin).getLast?,
    ∀ o ∈ s.runs.map UploadRun.origin, o.1 ≤ last.1
  handled : ∀ i < s.messages.length,
    i ∈ s.pending ∨ ∃ o ∈ s.runs.map UploadRun.origin, o.1 = i
  stored : ∀ last ∈ s.runs.getLast?, last.stored = true →
    HoldsExactly s.doc (last.batch c).chunks
  completed : ∀ run ∈ s.runs, run.status = .completed → run.stored = true

/-- The row is there once a run is. -/
private theorem exists_path {c : UploadConfig} {s : UploadSystem} {k : Nat} {run : UploadRun}
    (h : Tracked c s) (hr : s.runs[k]? = some run) : ∃ path, storedPath s.doc = some path := by
  obtain ⟨m, hm, -⟩ := h.origins run.origin (List.mem_map_of_mem (List.mem_of_getElem? hr))
  rcases h.path (Or.inl (List.ne_nil_of_mem (List.mem_of_getElem? hm))) with
    ⟨m, -, hpath⟩ | ⟨u, -, hpath⟩ <;> exact ⟨_, hpath⟩

/-- An event that leaves the path, the uploads in intake and the messages alone. -/
private theorem path_of_eq {c : UploadConfig} {s s' : UploadSystem} (h : Tracked c s)
    (hpath : storedPath s'.doc = storedPath s.doc) (hintake : s'.intake = s.intake)
    (hmessages : s'.messages = s.messages) (hne : s'.messages ≠ [] ∨ s'.intake ≠ []) :
    (∃ m ∈ s'.messages.getLast?, storedPath s'.doc = some m.storagePath) ∨
      ∃ u ∈ s'.intake, storedPath s'.doc = some u.s3Key := by
  rw [hmessages, hintake] at hne ⊢
  rw [hpath]
  exact h.path hne

private theorem path_step {c : UploadConfig} {s s' : UploadSystem} {e : UploadEvent}
    (h : Tracked c s) (hord : s.InOrder e) (hstep : s.Transition c e s')
    (hne : s'.messages ≠ [] ∨ s'.intake ≠ []) :
    (∃ m ∈ s'.messages.getLast?, storedPath s'.doc = some m.storagePath) ∨
      ∃ u ∈ s'.intake, storedPath s'.doc = some u.s3Key := by
  cases hstep with
  | reset u now =>
    exact Or.inr ⟨u, List.mem_append_right _ List.mem_cons_self,
      storedPath_createOrResetPendingDocument _ _⟩
  | published k timestamp u hu =>
    exact Or.inl ⟨u.message timestamp, List.getLast?_concat, hord u hu⟩
  | publishFailed k now u hu =>
    have hnot := hord u hu
    have hbefore := h.path (Or.inr (List.ne_nil_of_mem (List.mem_of_getElem? hu)))
    rw [storedPath_markDocumentFailed]
    rcases hbefore with hlast | ⟨u', hu', hpath⟩
    · exact Or.inl hlast
    · -- the upload that set the path is another one, so it is still in intake
      refine Or.inr ⟨u', ?_, hpath⟩
      obtain ⟨i, hi⟩ := List.getElem?_of_mem hu'
      refine List.mem_eraseIdx_iff_getElem?.mpr ⟨i, ?_, hi⟩
      rintro rfl
      rw [hu] at hi
      obtain rfl := Option.some.inj hi
      exact hnot hpath
  | claimed k now run hr =>
    obtain ⟨path, hpath⟩ := exists_path h hr
    exact path_of_eq h ((storedPath_createPendingDocument hpath).trans hpath.symm) rfl rfl hne
  | statusSet k status errorMessage now call =>
    exact path_of_eq h (storedPath_updateDocumentStatus call s.doc) rfl rfl hne
  | stored k now tenantId processingTimeMs run hr hactive =>
    obtain ⟨path, hpath⟩ := exists_path h hr
    refine path_of_eq h ?_ rfl rfl hne
    rw [hpath]
    exact storedPath_storeInPostgresql hpath
  | _ => exact path_of_eq h rfl rfl rfl hne

/-! ### The runs and their messages -/

/-- A run that goes on keeps its origin. -/
private theorem origins_set {runs : List UploadRun} {k : Nat} {run run' : UploadRun}
    (hr : runs[k]? = some run) (horigin : run'.origin = run.origin) :
    (runs.set k run').map UploadRun.origin = runs.map UploadRun.origin := by
  rw [List.map_set, horigin]
  apply List.ext_getElem?
  intro i
  by_cases hi : k = i
  · subst hi
    have hlt := (List.getElem?_eq_some_iff.mp hr).1
    rw [List.getElem?_set_self (by rw [List.length_map]; exact hlt), List.getElem?_map, hr]
    rfl
  · rw [List.getElem?_set_ne hi]

private theorem origins_terminate (runs : List UploadRun) :
    (runs.map UploadRun.terminate).map UploadRun.origin = runs.map UploadRun.origin := by
  rw [List.map_map]
  apply List.map_congr_left
  intro run _
  unfold Function.comp UploadRun.terminate
  split <;> rfl

/-- Only the start of a run changes the origins. -/
private theorem origins_step {c : UploadConfig} {s s' : UploadSystem} {e : UploadEvent}
    (hstep : s.Transition c e s') :
    (s'.runs.map UploadRun.origin = s.runs.map UploadRun.origin ∧
        ∀ i ∈ s.pending, i ∈ s'.pending) ∨
      ∃ i runId now acked m, e = .handle i runId now acked ∧ s.messages[i]? = some m ∧
        s'.runs.map UploadRun.origin = s.runs.map UploadRun.origin ++ [(i, c.workflowInput m)] ∧
        s'.messages = s.messages ∧ ∀ j ∈ s.pending, j ≠ i → j ∈ s'.pending := by
  cases hstep with
  | published k timestamp u hu => exact Or.inl ⟨rfl, fun i hi => List.mem_append_left _ hi⟩
  | handled i runId now acked m run hm horigin hstatus hstored =>
    refine Or.inr ⟨i, runId, now, acked, m, rfl, hm, ?_, rfl, fun j hj hne => ?_⟩
    · -- `TERMINATE_EXISTING` closes an earlier run that is open; all keep their origins
      rw [List.map_append, origins_terminate, List.map_singleton, horigin]
    · show j ∈ if acked then s.pending.erase i else s.pending
      split
      · exact (List.mem_erase_of_ne hne).mpr hj
      · exact hj
  | stored k now tenantId processingTimeMs run hr hactive =>
    exact Or.inl ⟨origins_set hr rfl, fun i hi => hi⟩
  | closed e k run status hr he hstored => exact Or.inl ⟨origins_set hr rfl, fun i hi => hi⟩
  | _ => exact Or.inl ⟨rfl, fun i hi => hi⟩

/-- A message keeps its number. -/
private theorem messages_step {c : UploadConfig} {s s' : UploadSystem} {e : UploadEvent}
    (hstep : s.Transition c e s') :
    s'.messages = s.messages ∨
      ∃ m, s'.messages = s.messages ++ [m] ∧ s.messages.length ∈ s'.pending := by
  cases hstep with
  | published k timestamp u hu =>
    exact Or.inr ⟨u.message timestamp, rfl, List.mem_append_right _ List.mem_cons_self⟩
  | _ => exact Or.inl rfl

private theorem getElem?_messages_step {c : UploadConfig} {s s' : UploadSystem} {e : UploadEvent}
    {i : Nat} {m : DocumentUploadMessage} (hstep : s.Transition c e s')
    (h : s.messages[i]? = some m) : s'.messages[i]? = some m := by
  rcases messages_step hstep with heq | ⟨m', heq, -⟩
  · rw [heq]
    exact h
  · rw [heq, List.getElem?_append_left (List.getElem?_eq_some_iff.mp h).1]
    exact h

private theorem runs_step {c : UploadConfig} {s s' : UploadSystem} {e : UploadEvent}
    (h : Tracked c s) (hstep : s.Transition c e s') (o : Nat × DocumentIngestionInput)
    (ho : o ∈ s'.runs.map UploadRun.origin) :
    ∃ m, s'.messages[o.1]? = some m ∧ o.2 = c.workflowInput m := by
  have hold : o ∈ s.runs.map UploadRun.origin → ∃ m, s'.messages[o.1]? = some m ∧
      o.2 = c.workflowInput m := by
    intro ho
    obtain ⟨m, hm, hinput⟩ := h.origins o ho
    exact ⟨m, getElem?_messages_step hstep hm, hinput⟩
  rcases origins_step hstep with ⟨heq, -⟩ | ⟨i, -, -, -, m, -, hm, heq, -, -⟩
  · exact hold (heq ▸ ho)
  · rw [heq] at ho
    rcases List.mem_append.mp ho with ho | ho
    · exact hold ho
    · rw [List.mem_singleton.mp ho]
      exact ⟨m, getElem?_messages_step hstep hm, rfl⟩

private theorem latest_step {c : UploadConfig} {s s' : UploadSystem} {e : UploadEvent}
    (h : Tracked c s) (hord : s.InOrder e) (hstep : s.Transition c e s')
    (last : Nat × DocumentIngestionInput) (hlast : last ∈ (s'.runs.map UploadRun.origin).getLast?)
    (o : Nat × DocumentIngestionInput) (ho : o ∈ s'.runs.map UploadRun.origin) :
    o.1 ≤ last.1 := by
  rcases origins_step hstep with ⟨heq, -⟩ | ⟨i, runId, now, acked, m, rfl, -, heq, -, -⟩
  · rw [heq] at hlast ho
    exact h.latest last hlast o ho
  · -- the events are in order: no run before is for a message after that of the new run
    rw [heq] at hlast ho
    rw [List.getLast?_concat, Option.mem_some_iff] at hlast
    subst hlast
    rcases List.mem_append.mp ho with ho | ho
    · obtain ⟨run, hrun, rfl⟩ := List.mem_map.mp ho
      exact hord run hrun
    · exact Nat.le_of_eq (congrArg Prod.fst (List.mem_singleton.mp ho))

private theorem handled_step {c : UploadConfig} {s s' : UploadSystem} {e : UploadEvent}
    (h : Tracked c s) (hstep : s.Transition c e s') (i : Nat) (hi : i < s'.messages.length) :
    i ∈ s'.pending ∨ ∃ o ∈ s'.runs.map UploadRun.origin, o.1 = i := by
  -- a message that was there before
  have hold : i < s.messages.length →
      i ∈ s'.pending ∨ ∃ o ∈ s'.runs.map UploadRun.origin, o.1 = i := by
    intro hi
    rcases origins_step hstep with ⟨heq, hpending⟩ | ⟨j, _, _, _, m, rfl, _, heq, _, hpending⟩
    · rw [heq]
      exact (h.handled i hi).imp_left (hpending i)
    · rw [heq]
      by_cases hij : i = j
      · exact Or.inr ⟨_, List.mem_append_right _ List.mem_cons_self, hij.symm⟩
      · rcases h.handled i hi with hp | ⟨o, ho, hoi⟩
        · exact Or.inl (hpending i hp hij)
        · exact Or.inr ⟨o, List.mem_append_left _ ho, hoi⟩
  rcases messages_step hstep with heq | ⟨m, heq, hnew⟩
  · exact hold (heq ▸ hi)
  · rw [heq, List.length_append, List.length_singleton] at hi
    by_cases hlt : i < s.messages.length
    · exact hold hlt
    · obtain rfl : i = s.messages.length := by omega
      exact Or.inl hnew

/-! ### The chunks -/

private theorem completed_step {c : UploadConfig} {s s' : UploadSystem} {e : UploadEvent}
    (h : Tracked c s) (hstep : s.Transition c e s') (run : UploadRun) (hmem : run ∈ s'.runs)
    (hcompleted : run.status = .completed) : run.stored = true := by
  cases hstep with
  | handled i runId now acked m run' hm horigin hstatus hstored =>
    rcases List.mem_append.mp hmem with hmem | hmem
    · obtain ⟨before, hbefore, rfl⟩ := List.mem_map.mp hmem
      -- a run that was open is terminated now, so it is not one that has completed
      unfold UploadRun.terminate at hcompleted ⊢
      split at hcompleted
      · exact nomatch hcompleted
      · rename_i hclosed
        rw [if_neg hclosed]
        exact h.completed before hbefore hcompleted
    · rw [List.mem_singleton.mp hmem, hstatus] at hcompleted
      exact nomatch hcompleted
  | stored k now tenantId processingTimeMs run' hr hactive =>
    rcases List.mem_or_eq_of_mem_set hmem with hmem | rfl
    · exact h.completed run hmem hcompleted
    · rfl
  | closed e k run' status hr he hstored =>
    rcases List.mem_or_eq_of_mem_set hmem with hmem | rfl
    · exact h.completed run hmem hcompleted
    · exact hstored hcompleted
  | _ => exact h.completed run hmem hcompleted

/-- The last run after one run has gone on is that run or the last run before. -/
private theorem getLast?_set {runs : List UploadRun} {k : Nat} {run run' last : UploadRun}
    (hr : runs[k]? = some run) (hlast : (runs.set k run').getLast? = some last) :
    (k + 1 = runs.length ∧ last = run') ∨ (k + 1 ≠ runs.length ∧ runs.getLast? = some last) := by
  have hlt := (List.getElem?_eq_some_iff.mp hr).1
  rw [List.getLast?_eq_getElem?, List.length_set] at hlast
  by_cases hk : k + 1 = runs.length
  · have hk' : runs.length - 1 = k := by omega
    rw [hk', List.getElem?_set_self hlt] at hlast
    exact Or.inl ⟨hk, (Option.some.inj hlast).symm⟩
  · have hk' : k ≠ runs.length - 1 := by omega
    rw [List.getElem?_set_ne hk', ← List.getLast?_eq_getElem?] at hlast
    exact Or.inr ⟨hk, hlast⟩

/-- Events that leave the chunk rows alone. -/
private theorem holdsExactly_of_rows {doc doc' : Option Document} {chunks : List StagedChunk}
    (h : HoldsExactly doc chunks) (hrows : chunkRows doc' = chunkRows doc) :
    HoldsExactly doc' chunks := by
  unfold HoldsExactly
  rw [hrows]
  exact h

private theorem stored_step {c : UploadConfig} {s s' : UploadSystem} {e : UploadEvent}
    (h : Tracked c s) (hord : s.InOrder e) (hstep : s.Transition c e s') (last : UploadRun)
    (hlast : s'.runs.getLast? = some last) (hdone : last.stored = true) :
    HoldsExactly s'.doc (last.batch c).chunks := by
  cases hstep with
  | reset u now =>
    exact holdsExactly_of_rows (h.stored last hlast hdone)
      (chunkRows_createOrResetPendingDocument _ _)
  | publishFailed k now u hu =>
    exact holdsExactly_of_rows (h.stored last hlast hdone) (chunkRows_markDocumentFailed _ _ _ _)
  | handled i runId now acked m run hm horigin hstatus hstored =>
    -- the new run has stored nothing yet
    rw [List.getLast?_concat] at hlast
    obtain rfl := Option.some.inj hlast
    rw [hstored] at hdone
    exact nomatch hdone
  | claimed k now run hr =>
    exact holdsExactly_of_rows (h.stored last hlast hdone) (chunkRows_createPendingDocument _ _)
  | statusSet k status errorMessage now call =>
    exact holdsExactly_of_rows (h.stored last hlast hdone) (chunkRows_updateDocumentStatus _ _)
  | stored k now tenantId processingTimeMs run hr hactive =>
    rcases getLast?_set hr hlast with ⟨-, rfl⟩ | ⟨hk, hlast⟩
    · exact holdsExactly_replace (run.storeInput c tenantId processingTimeMs) now rfl
        hactive (run.batch c).indices
    · -- an earlier run that the fence lets through after the last one has stored is out of order
      exact absurd hactive (hord run hr hk ⟨last, hlast, hdone⟩)
  | closed e k run status hr he hstored =>
    rcases getLast?_set hr hlast with ⟨hk, rfl⟩ | ⟨-, hlast⟩
    · have hrun : s.runs.getLast? = some run := by
        rw [List.getLast?_eq_getElem?, ← hr]
        congr 1
        omega
      exact h.stored run hrun hdone
    · exact h.stored last hlast hdone
  | _ => exact h.stored last hlast hdone

private theorem tracked_step (c : UploadConfig) (s : UploadSystem) (e : UploadEvent)
    (s' : UploadSystem) (h : Tracked c s) (hord : s.InOrder e) (hstep : s.step c e = some s') :
    Tracked c s' := by
  have ht := transition_of_step hstep
  exact {
    path := path_step h hord ht
    origins := runs_step h ht
    latest := latest_step h hord ht
    handled := handled_step h ht
    stored := stored_step h hord ht
    completed := completed_step h ht }

private theorem tracked_start (c : UploadConfig) (documentId : String) :
    Tracked c { documentId := documentId } where
  path := fun hne => hne.elim (absurd rfl) (absurd rfl)
  origins := fun _ ho => absurd ho List.not_mem_nil
  latest := fun _ hlast => nomatch hlast
  handled := fun _ hi => absurd hi (Nat.not_lt_zero _)
  stored := fun _ hlast => nomatch hlast
  completed := fun _ hmem => absurd hmem List.not_mem_nil

/-! ## Every run -/

/-- In every run whose events are in order, once all uploads are published, all messages are
    handled and the last run has completed, the document is that of the message published
    last. -/
theorem lastUploadWins_of_inOrder (c : UploadConfig) (documentId : String)
    (es : List UploadEvent) (s : UploadSystem)
    (hrun : exec (step c) { documentId := documentId } es = some s)
    (hord : AllSteps (step c) InOrder { documentId := documentId } es) : LastUploadWins c s := by
  have h := exec_invariant_of_allSteps (tracked_step c) (tracked_start c documentId) hord hrun
  rintro ⟨hintake, hpending, hcompleted⟩ m hm
  have hlen : s.messages ≠ [] := by
    intro hnil
    rw [hnil] at hm
    exact nomatch hm
  have hpos : 0 < s.messages.length := List.length_pos_iff.mpr hlen
  refine ⟨?_, ?_⟩
  · rcases h.path (Or.inl hlen) with ⟨m', hm', hpath⟩ | ⟨u, hu, -⟩
    · obtain rfl := Option.mem_unique hm hm'
      exact hpath
    · rw [hintake] at hu
      exact absurd hu List.not_mem_nil
  · -- the last message has been handled, so the last run is one for it
    have hnone : s.messages.length - 1 ∉ s.pending := by
      rw [hpending]
      exact List.not_mem_nil
    obtain ⟨o, ho, hoi⟩ := (h.handled (s.messages.length - 1) (by omega)).resolve_left hnone
    obtain ⟨run, hrunmem, rfl⟩ := List.mem_map.mp ho
    obtain ⟨last, hlast⟩ : ∃ last, s.runs.getLast? = some last :=
      ⟨_, List.getLast?_eq_some_getLast (List.ne_nil_of_mem hrunmem)⟩
    have hlastmem := List.mem_of_getLast? hlast
    have horigin : last.origin ∈ (s.runs.map UploadRun.origin).getLast? := by
      rw [List.getLast?_map, hlast]
      rfl
    have hle := h.latest last.origin horigin run.origin ho
    obtain ⟨m', hm', hinput⟩ := h.origins last.origin (List.mem_map_of_mem hlastmem)
    have hlt := (List.getElem?_eq_some_iff.mp hm').1
    have hno : last.origin.1 = s.messages.length - 1 := by omega
    rw [hno, ← List.getLast?_eq_getElem?] at hm'
    obtain rfl := Option.mem_unique hm hm'
    have hstored := h.stored last hlast (h.completed last hlastmem (hcompleted last hlast))
    have hinput' : last.input = c.workflowInput m := hinput
    rw [← hinput']
    exact hstored

/-- Extraction gives one chunk, which names the file it is from. -/
def sampleConfig : UploadConfig where
  resolveTenantUserId := fun _ userId => userId
  extract := fun input =>
    { batch :=
        { chunks := [{ documentId := input.documentId, content := input.storagePath,
                       chunkIndex := 0, startChar := 0, endChar := 5, contentRisk := "none",
                       chunkingStrategy := "sentences" }]
          indices := by simp }
      textLength := 5 }

/-- An upload of the document under the key. -/
def sampleUpload (s3Key : String) : DocumentUpload where
  documentId := "doc"
  workspaceId := "ws"
  tenantUserId := "user"
  userId := "user"
  filename := "a.txt"
  s3Key := s3Key
  contentType := "text/plain"
  sizeBytes := 5
  bucket := "documents"
  storageUrl := ""
  contentHash := ⟨s3Key⟩

/-- The `k`-th run claims the document, stores it and completes. -/
def storeRun (k : Nat) (now : Timestamp) : List UploadEvent :=
  [.claim k now, .commit k now (some 1) 0, .complete k]

/-- Two uploads, each handled before the next one. -/
def uploadsInOrder : List UploadEvent :=
  ([.reset (sampleUpload "ws/first.txt") 1, .publish 0 "t1", .handle 0 "run1" 2 true] :
      List UploadEvent) ++
    storeRun 0 3 ++
    ([.reset (sampleUpload "ws/second.txt") 4, .publish 0 "t2", .handle 1 "run2" 5 true] :
      List UploadEvent) ++
    storeRun 1 6

theorem lastUploadWins_uploadsInOrder :
    ∃ s, exec (step sampleConfig) { documentId := "doc" } uploadsInOrder = some s ∧
      s.messages.length = 2 ∧ s.Quiescent ∧ LastUploadWins sampleConfig s :=
  ⟨_, rfl, rfl, ⟨rfl, rfl, by rintro _ ⟨⟩; rfl⟩,
    lastUploadWins_of_inOrder sampleConfig "doc" uploadsInOrder _ rfl (by decide)⟩

/-- The first handling of the first message fails, so the message stays pending; the second
    message is handled and its run completes; then the first message is reclaimed. -/
def reclaimedAfterNewer : List UploadEvent :=
  ([.reset (sampleUpload "ws/first.txt") 1, .publish 0 "t1",
    .reset (sampleUpload "ws/second.txt") 2, .publish 0 "t2", .handle 1 "run2" 3 true] :
      List UploadEvent) ++
    storeRun 0 4 ++ ([.handle 0 "run1" 5 true] : List UploadEvent) ++ storeRun 1 6

/-- The row names the second file and the chunks are those of the first. -/
theorem not_lastUploadWins_reclaimedAfterNewer :
    ¬ ∀ (c : UploadConfig) (documentId : String) (es : List UploadEvent) (s : UploadSystem),
      exec (step c) { documentId := documentId } es = some s → LastUploadWins c s := by
  intro h
  have hrun := h sampleConfig "doc" reclaimedAfterNewer _ rfl
  have hquiet := hrun ⟨rfl, rfl, by rintro _ ⟨⟩; rfl⟩ _ rfl
  revert hquiet
  decide

end UploadSystem

end Inherent
