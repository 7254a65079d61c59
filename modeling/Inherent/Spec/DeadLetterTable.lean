import Inherent.Native.DeadLetter

/-!
# The statements on `dead_letter_jobs`

What each statement does to the row with a given id and to its status.
-/

namespace Inherent

namespace DeadLetterTable

/-- The status of the job with the id. -/
def status? (t : DeadLetterTable) (jobId : Nat) : Option DeadLetterStatus :=
  (t.get jobId).map DeadLetterRow.status

theorem get_eq_some {t : DeadLetterTable} {jobId : Nat} {r : DeadLetterRow} :
    t.get jobId = some r ↔ r ∈ t.rows.rows ∧ r.id = jobId :=
  UniqueTable.find?_eq_some

/-- An update changes the row with the id by its function. -/
theorem get_update (t : DeadLetterTable) (f : DeadLetterRow → DeadLetterRow)
    (hf : ∀ r, (f r).id = r.id) (jobId : Nat) :
    (t.update f hf).get jobId = (t.get jobId).map f :=
  UniqueTable.find?_update hf

@[simp] theorem size_update (t : DeadLetterTable) (f : DeadLetterRow → DeadLetterRow)
    (hf : ∀ r, (f r).id = r.id) : (t.update f hf).rows.size = t.rows.size :=
  List.length_map ..

/-- An update that sets one status on one row. -/
private theorem status?_update_at {t : DeadLetterTable} {f : DeadLetterRow → DeadLetterRow}
    {hf : ∀ r, (f r).id = r.id} {jobId : Nat} {status : DeadLetterStatus}
    (hat : ∀ r, r.id = jobId → (f r).status = status)
    (hother : ∀ r, r.id ≠ jobId → (f r).status = r.status) (id : Nat) :
    (t.update f hf).status? id =
      if id = jobId then (t.status? id).map fun _ => status else t.status? id := by
  unfold status?
  rw [get_update]
  cases hget : t.get id with
  | none => simp
  | some r =>
    have hid : r.id = id := (get_eq_some.mp hget).2
    simp only [Option.map_some]
    -- the row that is found has the id
    split
    · rename_i heq
      rw [hat r (hid.trans heq)]
    · rename_i hne
      rw [hother r (fun h => hne (hid.symm.trans h))]

/-- `update_dead_letter_status` sets the status of its job. -/
theorem status?_updateStatus (t : DeadLetterTable) (jobId id : Nat) (status : DeadLetterStatus) :
    (t.updateStatus jobId status).status? id =
      if id = jobId then (t.status? id).map fun _ => status else t.status? id := by
  apply status?_update_at
  · intro r hr
    rw [if_pos hr]
  · intro r hr
    rw [if_neg hr]

/-- `increment_dead_letter_retry` sets the status of its job to `retrying`. -/
theorem status?_incrementRetry (t : DeadLetterTable) (jobId id : Nat) :
    (t.incrementRetry jobId).status? id =
      if id = jobId then (t.status? id).map fun _ => .retrying else t.status? id := by
  apply status?_update_at
  · intro r hr
    rw [if_pos hr]
  · intro r hr
    rw [if_neg hr]

/-- `resolve_dead_letter_jobs_for_document` changes only unresolved statuses. -/
theorem status?_resolveForDocument {t : DeadLetterTable} {documentId : String} {now : Timestamp}
    {id : Nat} {status : DeadLetterStatus} (h : t.status? id = some status)
    (hresolved : status.unresolved = false) :
    (t.resolveForDocument documentId now).status? id = some status := by
  obtain ⟨r, hget, rfl⟩ := Option.map_eq_some_iff.mp h
  unfold status? resolveForDocument
  rw [get_update, hget, Option.map_some, Option.map_some, if_neg]
  rintro ⟨-, hr⟩
  exact Bool.false_ne_true (hresolved.symm.trans hr)

/-- `add_dead_letter_job` changes no row that is there. -/
theorem get_add {t : DeadLetterTable} (c : AddDeadLetterCall) {id : Nat} {r : DeadLetterRow}
    (h : t.get id = some r) : (t.add c).1.get id = some r := by
  obtain ⟨hmem, hid⟩ := get_eq_some.mp h
  unfold add
  split
  · -- a row conflicts, and nothing is inserted
    exact h
  · exact get_eq_some.mpr ⟨UniqueTable.mem_insertAll_of_mem [_] hmem, hid⟩

/-- So it changes no status. -/
theorem status?_add {t : DeadLetterTable} (c : AddDeadLetterCall) {id : Nat}
    {status : DeadLetterStatus} (h : t.status? id = some status) :
    (t.add c).1.status? id = some status := by
  obtain ⟨r, hget, rfl⟩ := Option.map_eq_some_iff.mp h
  unfold status?
  rw [get_add c hget, Option.map_some]

/-- A second record of the same failure of the same run adds nothing. -/
theorem add_idempotent (t : DeadLetterTable) (c : AddDeadLetterCall)
    (hrun : c.workflowRunId.isSome = true) : ((t.add c).1.add c).1 = (t.add c).1 := by
  -- the first record leaves a row that conflicts with the second one
  have hconflict : ∃ r ∈ (t.add c).1.rows.rows, r.conflicts c = true := by
    unfold add
    split
    · rename_i r hfind
      exact ⟨r, List.mem_of_find?_eq_some hfind,
        List.find?_some (p := fun r : DeadLetterRow => r.conflicts c) hfind⟩
    · refine ⟨{ c with id := t.nextId }, ?_, by simp [DeadLetterRow.conflicts, hrun]⟩
      -- the new id is free, so the row is appended
      have hfree : ¬ t.rows.Holds t.nextId := by
        rw [UniqueTable.not_holds_iff]
        intro r hr heq
        have := t.fresh r hr
        omega
      rw [UniqueTable.rows_insertNew_of_not_holds hfree]
      exact List.mem_append_right _ List.mem_cons_self
  generalize (t.add c).1 = u at hconflict
  obtain ⟨r, hr, hc⟩ := hconflict
  unfold add
  split
  · rfl
  · rename_i hnone
    exact absurd hc (List.find?_eq_none.mp hnone r hr)

end DeadLetterTable

end Inherent
