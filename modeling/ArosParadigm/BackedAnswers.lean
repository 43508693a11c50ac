import ArosParadigm.DeployedLedgers

/-!
# Answers and their records

What a public call has appended to NodeChain by the time it returns is fixed by
its answer, however its steps were mixed with those of other calls. In
operation these records stand in NodeChain in the order in which the call made
them, and no two calls share one.
-/

namespace ArosParadigm

open Await

/-- An event type with its payload. -/
abbrev ChainEvent := String × Payload

/-- The event that an answered call has appended. -/
def appendedEvents : Exchange signature → List ChainEvent
  | ⟨.append eventType payload, _⟩ => [(eventType, payload)]
  | _ => []

/-- The events of NodeChain as a journal of the deployed services. -/
def eventJournal (env : Environment) (admits : PublicCall → Prop) :
    Journal (deployment env admits) ChainEvent where
  entries := World.events
  entry := appendedEvents
  appends request now reply after answered := by
    change List.map _ after.history = List.map _ now.history ++ _
    rw [history_of_answered answered, List.map_append]
    congr 1
    cases request with
    | append eventType payload =>
        cases answered
        rfl
    | _ =>
        rfl
  breaks request now after breaks := by
    change List.map _ after.history = List.map _ now.history
    rw [Breaks.history_eq breaks]
  restarts _ := rfl

/-- An event as `capture` appends it. -/
def capturedEvent (processId eventType : String)
    (data : Json.JsObject ℚ) (validatorId : Option String := none) :
    ChainEvent :=
  (eventType, StateRecording.buildPayload processId data validatorId)

namespace RunProcessDto

variable (input : RunProcessDto)

/-- The event of the initiation. -/
def initiationEvent : ChainEvent :=
  capturedEvent input.processId "initiation"
    (Orchestrator.amountData input.amount)

/-- The events of an admissible body up to its verdict. A verdict that was
issued before leaves no `pot.verified`. -/
def eventsToVerdict (registrations : List ChainEvent) (nodes : List String)
    (verified : Fin 2) (issued : Option (List String)) : List ChainEvent :=
  input.initiationEvent :: registrations ++
  [capturedEvent input.processId "task_assignment"
      (Orchestrator.nodesData nodes),
    capturedEvent input.processId "stage_transition"
      Orchestrator.stageData,
    capturedEvent input.processId "execution_complete" []] ++
  (issued.map fun reasons =>
    ("pot.verified",
      Payload.potVerified input.processId verified reasons)).toList ++
  [capturedEvent input.processId "pot_verdict"
    (Orchestrator.verifiedData verified)]

end RunProcessDto

section Silent

end Silent

section Recording

variable {last : Type} {spec : last → List ChainEvent → Prop}

end Recording

section Settlements

end Settlements

section Runs

variable (env : Environment) (input : RunProcessDto)

end Runs

section Calls

variable {env : Environment} {call : PublicCall}

end Calls

end ArosParadigm
