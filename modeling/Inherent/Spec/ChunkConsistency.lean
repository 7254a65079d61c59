import Inherent.Native.ChunkUpdates

/-!
# Consistency of the two stores under updates

A call makes the row differ from the object until its vector write is applied or its
compensation takes the row back.  The invariant is that the two stores agree, or some call
that still has to do one of these wrote the content of the row.  It is lost in two ways: the
vector write of a content that the row no longer has is applied with no such call left, or a
compensation takes the row to a content that the object does not have.
-/

open EventRun

namespace Inherent

/-- The call still has to write the object, or to take the row back. -/
def UpdateCall.Owes (c : UpdateCall) : Prop :=
  match c.phase with
  | .written _ _ => c.request.isSome = true
  | .compensating _ _ _ => True
  | _ => False

instance (c : UpdateCall) : Decidable c.Owes := by
  unfold UpdateCall.Owes
  cases c.phase <;> infer_instance

/-- Some of the calls still has to settle the content. -/
def Awaited (calls : List UpdateCall) (content : Option String) : Prop :=
  ∃ c ∈ calls, c.Owes ∧ some c.content = content

instance (calls : List UpdateCall) (content : Option String) :
    Decidable (Awaited calls content) :=
  inferInstanceAs (Decidable (∃ c ∈ calls, c.Owes ∧ some c.content = content))

namespace ChunkUpdates

/-- A vector write is applied while the row has its content, or has a content that some call
    still has to settle; a compensation that takes effect finds its content in the object, or
    another call still has to settle it. -/
def InOrder (s : ChunkUpdates) : UpdateEvent → Prop
  | .call k .applyVector => ∀ c ∈ s.calls[k]?,
      s.stores.rowContent = some c.content ∨ Awaited s.calls s.stores.rowContent
  | .call k (.restore _ outcome) => ∀ c ∈ s.calls[k]?, ∀ prior ∈ c.phase.restores?,
      outcome.lands = true → s.stores.rowContent = some c.content →
        s.stores.objectContent = some prior.content ∨
          Awaited (s.calls.eraseIdx k) (some prior.content)
  | _ => True

instance (s : ChunkUpdates) (e : UpdateEvent) : Decidable (s.InOrder e) := by
  unfold InOrder
  split <;> infer_instance

end ChunkUpdates

/-! ## What the other calls still have to settle -/

theorem mem_iff_mem_eraseIdx {α : Type*} {l : List α} {k : Nat} {a : α} (h : l[k]? = some a)
    (b : α) : b ∈ l ↔ b ∈ l.eraseIdx k ∨ b = a := by
  rw [List.mem_eraseIdx_iff_getElem?, List.mem_iff_getElem?]
  constructor
  · intro hb
    obtain ⟨i, hi⟩ := hb
    by_cases hik : i = k
    · rw [hik, h] at hi
      exact Or.inr (Option.some.inj hi).symm
    · exact Or.inl ⟨i, hik, hi⟩
  · intro hb
    cases hb with
    | inl hb =>
      obtain ⟨i, -, hi⟩ := hb
      exact ⟨i, hi⟩
    | inr hb => exact ⟨k, hb ▸ h⟩

/-- A content is awaited from the call with the number `k` or from the others. -/
theorem awaited_iff {calls : List UpdateCall} {k : Nat} {c : UpdateCall}
    (h : calls[k]? = some c) (content : Option String) :
    Awaited calls content ↔
      Awaited (calls.eraseIdx k) content ∨ (c.Owes ∧ some c.content = content) := by
  constructor
  · intro hwait
    obtain ⟨d, hd, howes⟩ := hwait
    cases (mem_iff_mem_eraseIdx h d).mp hd with
    | inl hd => exact Or.inl ⟨d, hd, howes⟩
    | inr hd => exact Or.inr (hd ▸ howes)
  · intro hwait
    cases hwait with
    | inl hwait =>
      obtain ⟨d, hd, howes⟩ := hwait
      exact ⟨d, (mem_iff_mem_eraseIdx h d).mpr (Or.inl hd), howes⟩
    | inr howes => exact ⟨c, List.mem_of_getElem? h, howes⟩

/-- After a step of the call with the number `k` the other calls are the same. -/
theorem awaited_set_iff {calls : List UpdateCall} {k : Nat} {c c' : UpdateCall}
    (h : calls[k]? = some c) (content : Option String) :
    Awaited (calls.set k c') content ↔
      Awaited (calls.eraseIdx k) content ∨ (c'.Owes ∧ some c'.content = content) := by
  obtain ⟨hk, -⟩ := List.getElem?_eq_some_iff.mp h
  rw [awaited_iff (List.getElem?_set_self hk), List.eraseIdx_set_eq]

/-! ## The invariant -/

/-- A call and the row: a request has the content of the call, and so has the row that the
    call has written; the hash of the row is set once a call has written it. -/
structure UpdateCall.WellFormed (c : UpdateCall) (row : Option ChunkRecord) : Prop where
  request : ∀ o ∈ c.request, o.content = c.content
  updated : ∀ r ∈ c.phase.updated?, r.contentHash = some ⟨c.content⟩
  hashed : c.phase.updated?.isSome = true → ∀ r ∈ row, r.contentHash.isSome = true

/-- The stores agree, or some call still has to settle the content of the row. -/
def ChunkUpdates.Settles (s : ChunkUpdates) : Prop :=
  s.stores.Consistent ∨ Awaited s.calls s.stores.rowContent

/-- The invariant of the runs in order. -/
structure ChunkUpdates.Inv (s : ChunkUpdates) : Prop where
  wellFormed : ∀ c ∈ s.calls, c.WellFormed s.stores.row
  settles : s.Exhausted ∨ s.Settles

/-! ## What a step of a call does -/

/-- The phase after an attempt to restore the row. -/
def nextPhase (prior updated : ChunkRecord) (attempt : Nat) (outcome : WriteOutcome) :
    UpdatePhase :=
  if outcome = .applied then .raised false
  else if attempt < markFailedAttempts then .compensating prior updated (attempt + 1)
  else .raised true

/-- What a step of a call does to it and to the stores. -/
inductive UpdateCall.Steps (search : String → String → Bool) (c : UpdateCall)
    (stores : ChunkStores) : UpdateStep → UpdateCall → ChunkStores → Prop where
  /-- A step before the row is written. -/
  | quiet (e : UpdateStep) (phase : UpdatePhase) (hbefore : c.phase.updated? = none)
      (hended : c.phase.ended = false) (hafter : phase.updated? = none) :
      Steps search c stores e { c with phase := phase } stores
  | wrote (now : Timestamp) (prior : ChunkRecord) (hphase : c.phase = .read prior) :
      Steps search c stores (.updateRow now)
        { c with
          phase := .written prior (.written c.content now)
          request := some (upsertChunkVector search c.content (some ⟨c.content⟩) now) }
        { stores with row := some (.written c.content now) }
  | applied (o : ChunkObject) (hrequest : c.request = some o) :
      Steps search c stores .applyVector { c with request := none }
        { stores with object := some o }
  | succeeded (prior updated : ChunkRecord) (hphase : c.phase = .written prior updated)
      (hrequest : c.request = none) :
      Steps search c stores (.reply true) { c with phase := .returned true } stores
  | failed (prior updated : ChunkRecord) (hphase : c.phase = .written prior updated) :
      Steps search c stores (.reply false)
        { c with phase := .compensating prior updated 1 } stores
  | restored (now : Timestamp) (outcome : WriteOutcome) (prior updated : ChunkRecord)
      (attempt : Nat) (hphase : c.phase = .compensating prior updated attempt) :
      Steps search c stores (.restore now outcome)
        { c with phase := nextPhase prior updated attempt outcome }
        { stores with
          row := if outcome.lands then
              (updateDocumentChunk prior.content now updated.contentHash stores.row).1
            else stores.row }

section

variable {search : String → String → Bool} {c c' : UpdateCall} {stores stores' : ChunkStores}
  {e : UpdateStep}

/-- `update_document_chunk` writes the row or leaves it. -/
theorem updateDocumentChunk_cases (content : String) (now : Timestamp)
    (onlyIf : Option Sha256) (row : Option ChunkRecord) :
    updateDocumentChunk content now onlyIf row = (row, none) ∨
      updateDocumentChunk content now onlyIf row =
        (some (.written content now), some (.written content now)) := by
  cases row with
  | none => exact Or.inl rfl
  | some r =>
    simp only [updateDocumentChunk]
    split
    · exact Or.inr rfl
    · exact Or.inl rfl

theorem UpdateCall.steps_of_step (h : c.step search stores e = some (c', stores')) :
    c.Steps search stores e c' stores' := by
  unfold UpdateCall.step at h
  split at h
  case h_1 found hphase =>
    split at h
    · simp only [Option.some.injEq, Prod.mk.injEq] at h
      obtain ⟨rfl, rfl⟩ := h
      refine .quiet _ _ ?_ ?_ ?_
      · rw [hphase]; rfl
      · rw [hphase]; rfl
      · split <;> rfl
    · simp only [Option.some.injEq, Prod.mk.injEq] at h
      obtain ⟨rfl, rfl⟩ := h
      exact .quiet _ _ (by rw [hphase]; rfl) (by rw [hphase]; rfl) rfl
  case h_2 hphase =>
    simp only [Option.some.injEq, Prod.mk.injEq] at h
    obtain ⟨rfl, rfl⟩ := h
    exact .quiet _ _ (by rw [hphase]; rfl) (by rw [hphase]; rfl) rfl
  case h_3 prior hphase =>
    simp only [Option.some.injEq, Prod.mk.injEq] at h
    obtain ⟨rfl, rfl⟩ := h
    exact .quiet _ _ (by rw [hphase]; rfl) (by rw [hphase]; rfl) rfl
  case h_4 now prior hphase =>
    -- the conditional update misses the row, or writes it
    cases updateDocumentChunk_cases c.content now prior.contentHash stores.row with
    | inl hmiss =>
      simp only [hmiss, Option.some.injEq, Prod.mk.injEq] at h
      obtain ⟨rfl, rfl⟩ := h
      exact .quiet _ _ (by rw [hphase]; rfl) (by rw [hphase]; rfl) rfl
    | inr hhit =>
      simp only [hhit, Option.some.injEq, Prod.mk.injEq] at h
      obtain ⟨rfl, rfl⟩ := h
      exact .wrote now prior hphase
  case h_5 =>
    split at h
    · rename_i o _ hrequest hobject
      simp only [Option.some.injEq, Prod.mk.injEq] at h
      obtain ⟨rfl, rfl⟩ := h
      exact .applied o hrequest
    · cases h
  case h_6 ok prior updated hphase =>
    cases ok with
    | true =>
      simp only [↓reduceIte, Option.ite_none_right_eq_some, Option.some.injEq,
        Prod.mk.injEq] at h
      obtain ⟨hrequest, rfl, rfl⟩ := h
      exact .succeeded prior updated hphase hrequest
    | false =>
      simp only [Bool.false_eq_true, ↓reduceIte, Option.some.injEq, Prod.mk.injEq] at h
      obtain ⟨rfl, rfl⟩ := h
      exact .failed prior updated hphase
  case h_7 now outcome prior updated attempt hphase =>
    simp only [Option.some.injEq, Prod.mk.injEq] at h
    obtain ⟨rfl, rfl⟩ := h
    exact .restored now outcome prior updated attempt hphase
  case h_8 => cases h

/-- The row is as it was, or just written. -/
theorem UpdateCall.Steps.row_cases (h : c.Steps search stores e c' stores') :
    stores'.row = stores.row ∨ ∃ content now, stores'.row = some (.written content now) := by
  cases h with
  | quiet => exact Or.inl rfl
  | wrote now prior => exact Or.inr ⟨_, now, rfl⟩
  | applied => exact Or.inl rfl
  | succeeded => exact Or.inl rfl
  | failed => exact Or.inl rfl
  | restored now outcome prior updated attempt =>
    dsimp only
    split
    · cases updateDocumentChunk_cases prior.content now updated.contentHash stores.row with
      | inl hmiss => exact Or.inl (congrArg Prod.fst hmiss)
      | inr hhit => exact Or.inr ⟨_, now, congrArg Prod.fst hhit⟩
    · exact Or.inl rfl

/-- A write of the row by another call keeps a call well formed. -/
theorem UpdateCall.WellFormed.of_row {row row' : Option ChunkRecord} (h : c.WellFormed row)
    (hrow : row' = row ∨ ∃ content now, row' = some (.written content now)) :
    c.WellFormed row' := by
  cases hrow with
  | inl hrow => exact hrow ▸ h
  | inr hrow =>
    obtain ⟨content, now, rfl⟩ := hrow
    refine ⟨h.request, h.updated, ?_⟩
    intro _ r hr
    rw [← Option.some.inj hr]
    rfl

/-- A step keeps its own call well formed. -/
theorem UpdateCall.Steps.wellFormed (h : c.Steps search stores e c' stores')
    (hc : c.WellFormed stores.row) : c'.WellFormed stores'.row := by
  cases h with
  | quiet _ phase hbefore hended hafter =>
    refine ⟨hc.request, ?_, ?_⟩ <;> simp [hafter]
  | wrote now prior hphase =>
    refine ⟨?_, ?_, ?_⟩
    · simp [upsertChunkVector]
    · simp [UpdatePhase.updated?, ChunkRecord.written]
    · simp [ChunkRecord.written]
  | applied o hrequest =>
    exact ⟨by simp, hc.updated, hc.hashed⟩
  | succeeded prior updated hphase hrequest =>
    refine ⟨hc.request, ?_, ?_⟩ <;> simp [UpdatePhase.updated?]
  | failed prior updated hphase =>
    have hupdated := hc.updated
    have hhashed := hc.hashed
    rw [hphase] at hupdated hhashed
    exact ⟨hc.request, hupdated, hhashed⟩
  | restored now outcome prior updated attempt hphase =>
    have hstep : c.Steps search stores (.restore now outcome) _ _ :=
      .restored now outcome prior updated attempt hphase
    have hrow := hc.of_row hstep.row_cases
    have hupdated := hrow.updated
    have hhashed := hrow.hashed
    rw [hphase] at hupdated hhashed
    -- the next phase knows the same row or none
    have hphases : (nextPhase prior updated attempt outcome).updated? = some updated ∨
        (nextPhase prior updated attempt outcome).updated? = none := by
      unfold nextPhase
      split
      · exact Or.inr rfl
      · split
        · exact Or.inl rfl
        · exact Or.inr rfl
    refine ⟨hc.request, ?_, ?_⟩
    · intro r hr
      cases hphases with
      | inl hphases =>
        refine hupdated r ?_
        rwa [hphases] at hr
      | inr hphases => simp [hphases] at hr
    · intro _
      exact hhashed rfl

/-- A call that has exhausted its compensation stays so. -/
theorem UpdateCall.Steps.exhausted (h : c.Steps search stores e c' stores')
    (hc : c.phase = .raised true) : c'.phase = .raised true := by
  cases h with
  | quiet _ _ _ hended => simp [hc, UpdatePhase.ended] at hended
  | wrote _ _ hphase => simp [hc] at hphase
  | applied => exact hc
  | succeeded _ _ hphase => simp [hc] at hphase
  | failed _ _ hphase => simp [hc] at hphase
  | restored _ _ _ _ _ hphase => simp [hc] at hphase

end

/-! ## A run -/

namespace ChunkUpdates

variable {search : String → String → Bool} {s s' : ChunkUpdates} {k : Nat}
  {c c' : UpdateCall} {stores : ChunkStores} {e : UpdateStep}

/-- A step that leaves the stores, after which the call still owes what it owed. -/
theorem settles_of_same (h : s.Settles) (hc : s.calls[k]? = some c)
    (hcontent : c'.content = c.content) (howes : c.Owes → c'.Owes) :
    Settles ⟨s.stores, s.calls.set k c'⟩ := by
  refine h.imp_right fun hwait => ?_
  rw [awaited_set_iff hc, hcontent]
  exact ((awaited_iff hc _).mp hwait).imp_right fun hk => ⟨howes hk.1, hk.2⟩

/-- A compensation finds the row that the call has written exactly when the row has its
    content. -/
theorem updateDocumentChunk_restore {row : Option ChunkRecord} {updated : ChunkRecord}
    (hc : c.WellFormed row) (hupdated : c.phase.updated? = some updated) (content : String)
    (now : Timestamp) :
    (updateDocumentChunk content now updated.contentHash row).1 =
      if row.map ChunkRecord.content = some c.content then some (.written content now)
      else row := by
  have hhash := hc.updated updated hupdated
  have hhashed := hc.hashed (by rw [hupdated]; rfl)
  cases row with
  | none => rfl
  | some r =>
    obtain ⟨hash, hr⟩ := Option.isSome_iff_exists.mp (hhashed r rfl)
    have hrow := r.hash_eq hash hr
    simp only [updateDocumentChunk, hhash, hr, hrow, reduceCtorEq, false_or,
      Option.some.injEq, Sha256.mk.injEq, Option.map_some]
    split <;> rfl

/-- A step of a call in order keeps the invariant. -/
theorem settles_step (h : s.Inv) (hc : s.calls[k]? = some c)
    (hstep : c.Steps search s.stores e c' stores) (horder : s.InOrder (.call k e)) :
    Exhausted ⟨stores, s.calls.set k c'⟩ ∨ Settles ⟨stores, s.calls.set k c'⟩ := by
  have hmem := List.mem_of_getElem? hc
  obtain ⟨hk, -⟩ := List.getElem?_eq_some_iff.mp hc
  have hwf := h.wellFormed c hmem
  cases h.settles with
  | inl hex =>
    obtain ⟨d, hd, hraised⟩ := hex
    refine Or.inl ?_
    cases (mem_iff_mem_eraseIdx hc d).mp hd with
    | inl hd =>
      refine ⟨d, ?_, hraised⟩
      rw [mem_iff_mem_eraseIdx (List.getElem?_set_self hk), List.eraseIdx_set_eq]
      exact Or.inl hd
    | inr hd =>
      exact ⟨c', List.mem_set hk _, hstep.exhausted (hd ▸ hraised)⟩
  | inr hsettles =>
    cases hstep with
    | quiet _ phase hbefore hended hafter =>
      refine Or.inr (settles_of_same hsettles hc rfl ?_)
      intro howes
      -- nothing is owed before the row is written
      unfold UpdateCall.Owes at howes
      split at howes
      · simp_all [UpdatePhase.updated?]
      · simp_all [UpdatePhase.updated?]
      · exact howes.elim
    | wrote now prior hphase =>
      refine Or.inr (Or.inr ?_)
      rw [awaited_set_iff hc]
      exact Or.inr ⟨rfl, rfl⟩
    | applied o hrequest =>
      have ho : o.content = c.content := hwf.request o hrequest
      refine Or.inr ?_
      have hconsistent : s.stores.rowContent = some c.content →
          Settles ⟨{ s.stores with object := some o }, s.calls.set k { c with request := none }⟩ := by
        intro hrow
        refine Or.inl ?_
        change s.stores.rowContent = some o.content
        rw [ho, hrow]
      cases horder c hc with
      | inl hrow => exact hconsistent hrow
      | inr hwait =>
        cases (awaited_iff hc _).mp hwait with
        | inl hother =>
          refine Or.inr ?_
          rw [awaited_set_iff hc]
          exact Or.inl hother
        | inr hown => exact hconsistent hown.2.symm
    | succeeded prior updated hphase hrequest =>
      refine Or.inr (settles_of_same hsettles hc rfl ?_)
      intro howes
      simp [UpdateCall.Owes, hphase, hrequest] at howes
    | failed prior updated hphase =>
      exact Or.inr (settles_of_same hsettles hc rfl fun _ => trivial)
    | restored now outcome prior updated attempt hphase =>
      by_cases hlands : outcome.lands = true
      · have hupdated : c.phase.updated? = some updated := by
          rw [hphase]
          rfl
        have hrestore := updateDocumentChunk_restore hwf hupdated prior.content now
        simp only [hlands, ↓reduceIte, hrestore]
        refine Or.inr ?_
        by_cases hrow : s.stores.row.map ChunkRecord.content = some c.content
        · -- the restore takes effect, and its content is the object's or another call's
          rw [if_pos hrow]
          cases horder c hc prior (by rw [hphase]; rfl) hlands hrow with
          | inl hobject => exact Or.inl hobject.symm
          | inr hother =>
            refine Or.inr ?_
            rw [awaited_set_iff hc]
            exact Or.inl hother
        · -- a later update has won
          rw [if_neg hrow]
          refine hsettles.imp_right fun hwait => ?_
          rw [awaited_set_iff hc]
          cases (awaited_iff hc _).mp hwait with
          | inl hother => exact Or.inl hother
          | inr hown => exact absurd hown.2.symm hrow
      · have hne : outcome ≠ .applied := by
          intro houtcome
          exact hlands (houtcome ▸ rfl)
        rw [if_neg hlands]
        unfold nextPhase
        rw [if_neg hne]
        split
        · exact Or.inr (settles_of_same hsettles hc rfl fun _ => trivial)
        · exact Or.inl ⟨_, List.mem_set hk _, rfl⟩

/-- A new call owes nothing. -/
theorem inv_update (h : s.Inv) (content : String) :
    Inv { s with calls := s.calls ++ [{ content := content }] } where
  wellFormed d hd := by
    cases List.mem_append.mp hd with
    | inl hd => exact h.wellFormed d hd
    | inr hd =>
      rw [List.mem_singleton.mp hd]
      refine ⟨?_, ?_, ?_⟩ <;> simp [UpdatePhase.updated?]
  settles := by
    cases h.settles with
    | inl hex =>
      obtain ⟨d, hd, hraised⟩ := hex
      exact Or.inl ⟨d, List.mem_append_left _ hd, hraised⟩
    | inr hsettles =>
      refine Or.inr (hsettles.imp_right fun hwait => ?_)
      obtain ⟨d, hd, howes⟩ := hwait
      exact ⟨d, List.mem_append_left _ hd, howes⟩

/-- An event in order keeps the invariant. -/
theorem inv_step {e : UpdateEvent} (h : s.Inv) (horder : s.InOrder e)
    (hstep : s.step search e = some s') : s'.Inv := by
  cases e with
  | update content =>
    simp only [step, Option.some.injEq] at hstep
    exact hstep ▸ inv_update h content
  | call k e =>
    simp only [step] at hstep
    split at hstep
    · cases hstep
    · rename_i c hc
      split at hstep
      · cases hstep
      · rename_i c' stores hcall
        simp only [Option.some.injEq] at hstep
        subst hstep
        have hsteps := UpdateCall.steps_of_step hcall
        refine ⟨?_, settles_step h hc hsteps horder⟩
        intro d hd
        cases List.mem_or_eq_of_mem_set hd with
        | inl hd => exact (h.wellFormed d hd).of_row hsteps.row_cases
        | inr hd => exact hd ▸ hsteps.wellFormed (h.wellFormed c (List.mem_of_getElem? hc))

/-- The calls that have ended owe nothing. -/
theorem not_awaited_of_done (hdone : s.Done) (content : Option String) :
    ¬ Awaited s.calls content := by
  intro hwait
  obtain ⟨d, hd, howes, -⟩ := hwait
  have hended := hdone d hd
  unfold UpdateCall.Owes at howes
  split at howes <;> simp_all [UpdatePhase.ended]

/-- From stores that agree the run leaves stores that agree once every call has ended, unless
    a compensation was exhausted. -/
def KeepsConsistent (search : String → String → Bool) (stores : ChunkStores)
    (events : List UpdateEvent) : Prop :=
  stores.Consistent → ∀ s ∈ exec (step search) { stores := stores } events,
    s.Done → s.stores.Consistent ∨ s.Exhausted

instance (search : String → String → Bool) (stores : ChunkStores) (events : List UpdateEvent) :
    Decidable (KeepsConsistent search stores events) :=
  inferInstanceAs (Decidable (_ → ∀ s ∈ exec (step search) { stores := stores } events, _))

/-- A run in order, of any number of updates, keeps the stores consistent. -/
theorem keepsConsistent_of_inOrder {search : String → String → Bool} {stores : ChunkStores}
    {events : List UpdateEvent}
    (horder : AllSteps (step search) InOrder { stores := stores } events) :
    KeepsConsistent search stores events := by
  intro hstores s hrun hdone
  have hstart : Inv { stores := stores } := by
    refine ⟨?_, Or.inr (Or.inl hstores)⟩
    intro c hc
    cases hc
  have hinv : s.Inv := exec_invariant_of_allSteps
    (fun s e s' hs he hstep => inv_step hs he hstep) hstart horder hrun
  cases hinv.settles with
  | inl hex => exact Or.inr hex
  | inr hsettles => exact Or.inl (hsettles.resolve_right (not_awaited_of_done hdone _))

/-- A chunk whose two stores hold the text. -/
def storesOf (search : String → String → Bool) (content : String) : ChunkStores where
  row := some (.written content 0)
  object := some (upsertChunkVector search content (some ⟨content⟩) 0)

/-- Two updates overlap: the vector of the first is written after the row of the second, which
    fails and takes the row back. -/
theorem keepsConsistent_overlapping :
    KeepsConsistent (fun _ _ => false) (storesOf (fun _ _ => false) "a")
      [.update "b", .update "c", .call 0 (.readPrior true), .call 0 (.updateRow 1),
        .call 1 (.readPrior true), .call 1 (.updateRow 2), .call 0 .applyVector,
        .call 0 (.reply true), .call 1 (.reply false), .call 1 (.restore 3 .applied)] :=
  keepsConsistent_of_inOrder (by decide)

/-- The vector write of an update is applied, and its answer times out: the row is taken back
    and the object is not. -/
theorem not_keepsConsistent_timeout :
    ¬ KeepsConsistent (fun _ _ => false) (storesOf (fun _ _ => false) "a")
      [.update "b", .call 0 (.readPrior true), .call 0 (.updateRow 1), .call 0 .applyVector,
        .call 0 (.reply false), .call 0 (.restore 2 .applied)] := by
  decide

end ChunkUpdates

end Inherent
