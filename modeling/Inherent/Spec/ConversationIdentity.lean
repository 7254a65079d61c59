import Inherent.Native.ConversationTrigger

/-!
# Ids of conversations

`conversation_workflow_id` joins a workspace id and an external id with a `-` that both may
contain.  Two conversations get one id when a part of the text after a `-` can move from the
external id of one to the workspace id of the other, and for no other reason.
-/

open EventRun

namespace Inherent

/-- A conversation, as the intake names it. -/
structure ConversationKey where
  workspaceId : String
  externalId : String
  deriving DecidableEq, Repr

namespace ConversationKey

/-- `conversation_workflow_id`. -/
def workflowId (c : ConversationKey) : String :=
  conversationWorkflowId c.workspaceId c.externalId

/-- `conversation_document_id`. -/
def documentId (c : ConversationKey) : String :=
  conversationDocumentId c.workspaceId c.externalId

/-- The workspace id of `d` is that of `c`, a `-` and a text with which the external id of `c`
    begins, before a `-` and the external id of `d`. -/
def Shifts (c d : ConversationKey) : Prop :=
  ∃ moved : String, d.workspaceId = c.workspaceId ++ "-" ++ moved ∧
    c.externalId = moved ++ "-" ++ d.externalId

/-- Different conversations have different ids. -/
def IdsApart (c d : ConversationKey) : Prop :=
  c ≠ d → c.workflowId ≠ d.workflowId ∧ c.documentId ≠ d.documentId

end ConversationKey

/-! ## Two texts joined by a separator -/

/-- Two joined texts are equal when their parts are, or when a part after a separator has
    moved from one side to the other. -/
theorem append_cons_eq_iff {α : Type*} {sep : α} {w e w' e' : List α} :
    w ++ sep :: e = w' ++ sep :: e' ↔
      (w = w' ∧ e = e') ∨ (∃ s, w' = w ++ sep :: s ∧ e = s ++ sep :: e') ∨
        ∃ s, w = w' ++ sep :: s ∧ e' = s ++ sep :: e := by
  constructor
  · intro h
    cases List.append_eq_append_iff.mp h with
    | inl h =>
      obtain ⟨s, hw, he⟩ := h
      -- the two separators are the same one, or there is a piece between them
      cases s with
      | nil =>
        rw [List.append_nil] at hw
        rw [List.nil_append] at he
        exact Or.inl ⟨hw.symm, (List.cons.inj he).2⟩
      | cons x s =>
        rw [List.cons_append, List.cons.injEq] at he
        obtain ⟨rfl, he⟩ := he
        exact Or.inr (Or.inl ⟨s, hw, he⟩)
    | inr h =>
      obtain ⟨s, hw, he⟩ := h
      cases s with
      | nil =>
        rw [List.append_nil] at hw
        rw [List.nil_append] at he
        exact Or.inl ⟨hw, (List.cons.inj he).2.symm⟩
      | cons x s =>
        rw [List.cons_append, List.cons.injEq] at he
        obtain ⟨rfl, he⟩ := he
        exact Or.inr (Or.inr ⟨s, hw, he⟩)
  · rintro (⟨rfl, rfl⟩ | ⟨s, rfl, rfl⟩ | ⟨s, rfl, rfl⟩)
    · rfl
    · simp
    · simp

namespace ConversationKey

variable {c d : ConversationKey}

/-- `Shifts` on the characters of the ids. -/
theorem shifts_iff_toList : c.Shifts d ↔
    ∃ s, d.workspaceId.toList = c.workspaceId.toList ++ '-' :: s ∧
      c.externalId.toList = s ++ '-' :: d.externalId.toList := by
  constructor
  · rintro ⟨moved, hw, he⟩
    refine ⟨moved.toList, ?_, ?_⟩
    · simp [hw]
    · simp [he]
  · rintro ⟨s, hw, he⟩
    refine ⟨String.ofList s, ?_, ?_⟩
    · apply String.toList_injective
      simp [hw]
    · apply String.toList_injective
      simp [he]

/-- When two conversations have one id. -/
theorem workflowId_eq_iff : c.workflowId = d.workflowId ↔ c = d ∨ c.Shifts d ∨ d.Shifts c := by
  have hchars : c.workflowId = d.workflowId ↔
      c.workspaceId.toList ++ '-' :: c.externalId.toList =
        d.workspaceId.toList ++ '-' :: d.externalId.toList := by
    rw [← String.toList_inj]
    simp [workflowId, conversationWorkflowId]
  have hkey : c = d ↔ c.workspaceId.toList = d.workspaceId.toList ∧
      c.externalId.toList = d.externalId.toList := by
    rw [String.toList_inj, String.toList_inj]
    cases c
    cases d
    simp
  rw [hchars, append_cons_eq_iff, hkey, shifts_iff_toList, shifts_iff_toList]

theorem not_shifts_self : ¬ c.Shifts c := by
  rintro ⟨moved, hw, -⟩
  have hlen := congrArg String.length hw
  have hdash : "-".length = 1 := rfl
  rw [String.length_append, String.length_append, hdash] at hlen
  omega

/-- The ids tell two conversations apart exactly when neither shifts to the other. -/
theorem idsApart_iff : IdsApart c d ↔ ¬ c.Shifts d ∧ ¬ d.Shifts c := by
  have hid : c.workflowId ≠ d.workflowId ∧ c.documentId ≠ d.documentId ↔
      ¬ (c = d ∨ c.Shifts d ∨ d.Shifts c) := by
    rw [← workflowId_eq_iff]
    exact and_self_iff
  rw [IdsApart, hid]
  constructor
  · intro h
    have hne : c.Shifts d ∨ d.Shifts c → c ≠ d := by
      rintro hshift rfl
      exact not_shifts_self (or_self_iff.mp hshift)
    refine ⟨fun hs => ?_, fun hs => ?_⟩
    · exact h (hne (Or.inl hs)) (Or.inr (Or.inl hs))
    · exact h (hne (Or.inr hs)) (Or.inr (Or.inr hs))
  · rintro ⟨h₁, h₂⟩ hne (heq | hs | hs)
    · exact hne heq
    · exact h₁ hs
    · exact h₂ hs

/-- The conversation "a-b" of the workspace "team" and the conversation "b" of "team-a". -/
theorem not_idsApart_team : ¬ IdsApart ⟨"team", "a-b"⟩ ⟨"team-a", "b"⟩ := by
  intro h
  have hne : ({ workspaceId := "team", externalId := "a-b" } : ConversationKey) ≠
      { workspaceId := "team-a", externalId := "b" } := by decide
  exact (h hne).1 (by decide)

end ConversationKey

/-! ## The executions -/

/-- The conversation that a message belongs to. -/
def ConversationTurnMessage.key (message : ConversationTurnMessage) : ConversationKey where
  workspaceId := message.workspaceId
  externalId := message.externalId

/-- The conversation that an execution was started for. -/
def ConversationExecution.key (run : ConversationExecution) : ConversationKey where
  workspaceId := run.input.workspaceId
  externalId := run.input.externalId

namespace ConversationTrigger

/-- No execution was signalled a turn of another conversation, and no two conversations share
    a document. -/
def Apart (s : ConversationTrigger) : Prop :=
  (∀ run ∈ s.runs, ∀ m ∈ run.messages, m.key = run.key) ∧
    ∀ run ∈ s.runs, ∀ run' ∈ s.runs, run.key ≠ run'.key → run.documentId ≠ run'.documentId

/-- What is known of an execution, when all conversations delivered so far are in `K`: its
    messages have the workflow id of its own conversation. -/
structure RunOf (K : ConversationKey → Prop) (run : ConversationExecution) : Prop where
  workflowId : run.workflowId = run.key.workflowId
  known : K run.key
  messages : ∀ m ∈ run.messages, K m.key ∧ m.key.workflowId = run.key.workflowId

variable {settings : ConversationSettings} {s s' : ConversationTrigger} {e : TriggerEvent}
  {K : ConversationKey → Prop}

/-- An execution after a delivery: one that got the message, a new one, or one from before. -/
theorem mem_signalWithStart {runs : List ConversationExecution} {workflowId : String}
    {input : ConversationMemoryInput} {m : ConversationTurnMessage} {run : ConversationExecution}
    (h : run ∈ signalWithStart runs workflowId input m) :
    run ∈ runs ∨ run = { workflowId := workflowId, input := input, messages := [m] } ∨
      ∃ run₀ ∈ runs, run₀.workflowId = workflowId ∧
        run = { run₀ with messages := run₀.messages ++ [m] } := by
  induction runs with
  | nil => exact Or.inr (Or.inl (List.mem_singleton.mp h))
  | cons first rest ih =>
    simp only [signalWithStart] at h
    split at h
    · rename_i hmatch
      cases List.mem_cons.mp h with
      | inl h => exact Or.inr (Or.inr ⟨first, List.mem_cons_self, hmatch.1, h⟩)
      | inr h => exact Or.inl (List.mem_cons_of_mem _ h)
    · cases List.mem_cons.mp h with
      | inl h => exact Or.inl (h ▸ List.mem_cons_self)
      | inr h =>
        rcases ih h with h | h | ⟨run₀, hmem, hid, h⟩
        · exact Or.inl (List.mem_cons_of_mem _ h)
        · exact Or.inr (Or.inl h)
        · exact Or.inr (Or.inr ⟨run₀, List.mem_cons_of_mem _ hmem, hid, h⟩)

/-- The message is with some execution after its delivery. -/
theorem exists_mem_signalWithStart (runs : List ConversationExecution) (workflowId : String)
    (input : ConversationMemoryInput) (m : ConversationTurnMessage) :
    ∃ run ∈ signalWithStart runs workflowId input m, m ∈ run.messages := by
  induction runs with
  | nil => exact ⟨_, List.mem_singleton.mpr rfl, List.mem_singleton.mpr rfl⟩
  | cons first rest ih =>
    simp only [signalWithStart]
    split
    · exact ⟨_, List.mem_cons_self, List.mem_append_right _ (List.mem_singleton.mpr rfl)⟩
    · obtain ⟨run, hrun, hm⟩ := ih
      exact ⟨run, List.mem_cons_of_mem _ hrun, hm⟩

/-- A delivery takes no message away. -/
theorem exists_mem_signalWithStart_of_mem {runs : List ConversationExecution}
    {workflowId : String} {input : ConversationMemoryInput} {m m' : ConversationTurnMessage}
    (h : ∃ run ∈ runs, m' ∈ run.messages) :
    ∃ run ∈ signalWithStart runs workflowId input m, m' ∈ run.messages := by
  obtain ⟨run, hrun, hm'⟩ := h
  induction runs with
  | nil => cases hrun
  | cons first rest ih =>
    simp only [signalWithStart]
    split
    · cases List.mem_cons.mp hrun with
      | inl hrun =>
        subst hrun
        exact ⟨_, List.mem_cons_self, List.mem_append_left _ hm'⟩
      | inr hrun => exact ⟨run, List.mem_cons_of_mem _ hrun, hm'⟩
    · cases List.mem_cons.mp hrun with
      | inl hrun => exact ⟨run, hrun ▸ List.mem_cons_self, hm'⟩
      | inr hrun =>
        obtain ⟨run', hrun', hm'⟩ := ih hrun
        exact ⟨run', List.mem_cons_of_mem _ hrun', hm'⟩

/-- The event delivers only conversations of `K`. -/
def Delivers (K : ConversationKey → Prop) : TriggerEvent → Prop
  | .deliver m => m.valid = true → K m.key
  | .close _ => True

/-- What an event keeps of the executions. -/
theorem runOf_step (h : ∀ run ∈ s.runs, RunOf K run) (he : Delivers K e)
    (hstep : s.step settings e = some s') : ∀ run ∈ s'.runs, RunOf K run := by
  cases e with
  | deliver m =>
    simp only [step, triggerTurnAsync, Option.some.injEq] at hstep
    subst hstep
    split
    · rename_i hvalid
      intro run hrun
      have hm : K m.key := he hvalid
      rcases mem_signalWithStart hrun with hrun | rfl | ⟨run₀, hrun₀, hid, rfl⟩
      · exact h run hrun
      · refine ⟨rfl, hm, ?_⟩
        intro m' hm'
        obtain rfl := List.mem_singleton.mp hm'
        exact ⟨hm, rfl⟩
      · have hrun₀ := h run₀ hrun₀
        refine ⟨hrun₀.workflowId, hrun₀.known, ?_⟩
        intro m' hm'
        cases List.mem_append.mp hm' with
        | inl hm' => exact hrun₀.messages m' hm'
        | inr hm' =>
          obtain rfl := List.mem_singleton.mp hm'
          -- the open execution was found by the id of the message
          exact ⟨hm, hid.symm.trans hrun₀.workflowId⟩
    · exact h
  | close k =>
    simp only [step] at hstep
    split at hstep
    · cases hstep
    · rename_i run₀ hrun₀
      simp only [Option.some.injEq] at hstep
      subst hstep
      intro run hrun
      cases List.mem_or_eq_of_mem_set hrun with
      | inl hrun => exact h run hrun
      | inr hrun =>
        subst hrun
        have hrun₀ := h run₀ (List.mem_of_getElem? hrun₀)
        exact ⟨hrun₀.workflowId, hrun₀.known, hrun₀.messages⟩

/-- A message stays with an execution. -/
theorem exists_mem_step {m : ConversationTurnMessage} (h : ∃ run ∈ s.runs, m ∈ run.messages)
    (hstep : s.step settings e = some s') : ∃ run ∈ s'.runs, m ∈ run.messages := by
  cases e with
  | deliver m' =>
    simp only [step, triggerTurnAsync, Option.some.injEq] at hstep
    subst hstep
    split
    · exact exists_mem_signalWithStart_of_mem h
    · exact h
  | close k =>
    simp only [step] at hstep
    split at hstep
    · cases hstep
    · rename_i run₀ hrun₀
      simp only [Option.some.injEq] at hstep
      subst hstep
      obtain ⟨run, hrun, hm⟩ := h
      obtain ⟨i, hi, rfl⟩ := List.mem_iff_getElem.mp hrun
      by_cases hik : i = k
      · subst hik
        rw [List.getElem?_eq_getElem hi, Option.some.injEq] at hrun₀
        subst hrun₀
        exact ⟨_, List.mem_set hi _, hm⟩
      · refine ⟨s.runs[i], ?_, hm⟩
        rw [List.mem_iff_getElem]
        refine ⟨i, by rwa [List.length_set], ?_⟩
        rw [List.getElem_set_ne (Ne.symm hik)]

/-- Every valid message that is delivered is with some execution at the end. -/
theorem exists_mem_of_delivered {events : List TriggerEvent} {m : ConversationTurnMessage}
    (hm : .deliver m ∈ events) (hvalid : m.valid = true)
    (hrun : exec (step settings) s events = some s') : ∃ run ∈ s'.runs, m ∈ run.messages := by
  obtain ⟨before, after, rfl⟩ := List.append_of_mem hm
  obtain ⟨t, -, hrest⟩ := exec_append_eq_some.mp hrun
  obtain ⟨u, hu, hafter⟩ := exec_cons_eq_some.mp hrest
  have hdelivered : ∃ run ∈ u.runs, m ∈ run.messages := by
    simp only [step, triggerTurnAsync, hvalid, if_true, Option.some.injEq] at hu
    subst hu
    exact exists_mem_signalWithStart t.runs _ _ m
  exact exec_invariant (fun _ _ _ h hstep => exists_mem_step h hstep) hdelivered hafter

/-- The conversations that valid messages of the events belong to. -/
def delivered (events : List TriggerEvent) (c : ConversationKey) : Prop :=
  ∃ m, .deliver m ∈ events ∧ m.valid = true ∧ m.key = c

/-- Turns and documents of different conversations are kept apart, in every order of
    deliveries and closings, exactly when no delivered conversation shifts to another. -/
theorem apart_iff {events : List TriggerEvent}
    (hrun : exec (step settings) {} events = some s) :
    s.Apart ↔ ∀ c d, delivered events c → delivered events d → ¬ c.Shifts d := by
  have hstart : ∀ run ∈ ({} : ConversationTrigger).runs, RunOf (delivered events) run := by
    intro run hrun
    cases hrun
  have hruns : ∀ run ∈ s.runs, RunOf (delivered events) run := by
    -- every message of a run has been delivered
    have hknown : AllSteps (step settings) (fun _ e => Delivers (delivered events) e) {} events := by
      refine allSteps_of_forall_mem ?_ _
      intro e he
      cases e with
      | deliver m => exact fun hvalid => ⟨m, he, hvalid, rfl⟩
      | close k => trivial
    exact exec_invariant_of_allSteps (fun _ _ _ h he hstep => runOf_step h he hstep) hstart
      hknown hrun
  constructor
  · rintro ⟨hmessages, hdocuments⟩ c d ⟨m, hm, hvalid, rfl⟩ ⟨m', hm', hvalid', rfl⟩ hshift
    obtain ⟨run, hrun₁, hmem⟩ := exists_mem_of_delivered hm hvalid hrun
    obtain ⟨run', hrun₂, hmem'⟩ := exists_mem_of_delivered hm' hvalid' hrun
    rw [hmessages run hrun₁ m hmem, hmessages run' hrun₂ m' hmem'] at hshift
    -- keys that shift into each other are different
    have hne : run.key ≠ run'.key := by
      intro heq
      rw [heq] at hshift
      exact ConversationKey.not_shifts_self hshift
    exact hdocuments run hrun₁ run' hrun₂ hne
      (ConversationKey.workflowId_eq_iff.mpr (Or.inr (Or.inl hshift)))
  · intro hshifts
    have hapart : ∀ c d, delivered events c → delivered events d →
        c.workflowId = d.workflowId → c = d := by
      intro c d hc hd hid
      rcases ConversationKey.workflowId_eq_iff.mp hid with heq | hs | hs
      · exact heq
      · exact absurd hs (hshifts c d hc hd)
      · exact absurd hs (hshifts d c hd hc)
    refine ⟨?_, ?_⟩
    · intro run hrun m hm
      obtain ⟨hknown, hid⟩ := (hruns run hrun).messages m hm
      exact hapart _ _ hknown (hruns run hrun).known hid
    · intro run hrun run' hrun' hne hid
      exact hne (hapart _ _ (hruns run hrun).known (hruns run' hrun').known hid)

end ConversationTrigger

end Inherent
