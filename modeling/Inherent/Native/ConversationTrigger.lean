import Inherent.Native.Conversation
import Inherent.ForStd.Run

/-!
# Delivery of conversation turns

A turn on its way to its workflow: `intake_turns` of the public API publishes one message for
each turn, and `trigger_turn_async` of the ingestion service hands every message to the open
run with the id of its conversation, or starts one.
-/

namespace Inherent

/-- `ConversationTurnIn` (`models/conversation.py`). -/
structure ConversationTurnIn where
  turnId : String
  role : String
  text : String
  ts : String
  client : Option String := none
  deriving DecidableEq, Repr

/-- What `ConversationTurnMessage` (`inh_contracts/events.py`) carries of a turn. -/
structure ConversationTurnMessage where
  eventType : String := "conversation.turn"
  workspaceId : String
  userId : String
  uploadedBy : Option String := none
  externalId : String
  turnId : String
  role : String
  text : String
  ts : String
  client : Option String := none
  deriving DecidableEq, Repr

/-- The checks of `ConversationTurnMessage(**message)`. -/
def ConversationTurnMessage.valid (message : ConversationTurnMessage) : Bool :=
  message.eventType == "conversation.turn" && ["user", "assistant"].contains message.role &&
    message.text != "" && message.uploadedBy.all (·.length ≤ 500)

/-- `intake_turns`: one message for each turn, in order.  `published` of them get to the MQ;
    the next one raises. -/
def intakeTurns (workspaceId userId tenantUserId externalId : String)
    (turns : List ConversationTurnIn) (published : Nat) : List ConversationTurnMessage :=
  (turns.take published).map fun turn =>
    { workspaceId := workspaceId
      userId := tenantUserId
      uploadedBy := some userId
      externalId := externalId
      turnId := turn.turnId
      role := turn.role
      text := turn.text
      ts := turn.ts
      client := turn.client }

/-- The settings that a run is started with. -/
structure ConversationSettings where
  conversationFlushCharThreshold : Nat := 4000
  conversationFlushIdleSeconds : Nat := 90
  conversationContinueAsNewTurns : Nat := 500
  conversationIdleFinalizeHours : Nat := 24

/-- An execution of `ConversationMemoryWorkflow` (its `continue_as_new` runs count as one): its
    input and the messages whose turns it was signalled, in order. -/
structure ConversationExecution where
  workflowId : String
  input : ConversationMemoryInput
  messages : List ConversationTurnMessage
  closed : Bool := false
  deriving DecidableEq, Repr

/-- The `ConversationTurnSignal` of a message. -/
def ConversationTurnMessage.signal (message : ConversationTurnMessage) :
    ConversationTurnSignal where
  turnId := message.turnId
  role := message.role
  text := message.text
  ts := message.ts
  userId := message.userId
  client := message.client

/-- The signals that an execution got. -/
def ConversationExecution.signals (run : ConversationExecution) : List ConversationTurnSignal :=
  run.messages.map ConversationTurnMessage.signal

/-- The document that the execution appends to. -/
def ConversationExecution.documentId (run : ConversationExecution) : String :=
  conversationDocumentId run.input.workspaceId run.input.externalId

/-- What happens to the executions: a message is delivered, or one closes. -/
inductive TriggerEvent where
  | deliver (message : ConversationTurnMessage)
  | close (k : Nat)

/-- The executions of the Temporal namespace. -/
structure ConversationTrigger where
  runs : List ConversationExecution := []
  deriving DecidableEq, Repr

namespace ConversationTrigger

/-- The input of the execution that a message starts. -/
def startInput (settings : ConversationSettings) (message : ConversationTurnMessage) :
    ConversationMemoryInput where
  workspaceId := message.workspaceId
  externalId := message.externalId
  userId := message.userId
  flushCharThreshold := settings.conversationFlushCharThreshold
  flushIdleSeconds := settings.conversationFlushIdleSeconds
  continueAsNewTurns := settings.conversationContinueAsNewTurns
  idleFinalizeSeconds := settings.conversationIdleFinalizeHours * 3600

/-- `start_workflow` with `start_signal` and `USE_EXISTING`: the open execution with the id
    gets the message, or a new one is started with it. -/
def signalWithStart (runs : List ConversationExecution) (workflowId : String)
    (input : ConversationMemoryInput) (message : ConversationTurnMessage) :
    List ConversationExecution :=
  match runs with
  | [] => [{ workflowId := workflowId, input := input, messages := [message] }]
  | run :: rest =>
    if run.workflowId = workflowId ∧ run.closed = false then
      { run with messages := run.messages ++ [message] } :: rest
    else run :: signalWithStart rest workflowId input message

/-- `trigger_turn_async`: a message that does not validate is dropped. -/
def triggerTurnAsync (settings : ConversationSettings) (s : ConversationTrigger)
    (message : ConversationTurnMessage) : ConversationTrigger × String :=
  if message.valid then
    let workflowId := conversationWorkflowId message.workspaceId message.externalId
    ({ runs := signalWithStart s.runs workflowId (startInput settings message) message },
      workflowId)
  else (s, "")

/-- The executions after an event. -/
def step (settings : ConversationSettings) (s : ConversationTrigger) :
    TriggerEvent → Option ConversationTrigger
  | .deliver message => some (s.triggerTurnAsync settings message).1
  | .close k =>
    match s.runs[k]? with
    | none => none
    | some run => some { runs := s.runs.set k { run with closed := true } }

end ConversationTrigger

end Inherent
