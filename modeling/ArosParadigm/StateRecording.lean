import ArosParadigm.Views

/-!
# StateRecording

`StateRecordingService` of `src/state-recording/state-recording.service.ts`:
`capture` appends one event of a process to NodeChain and then remembers its
type in memory.
-/

namespace ArosParadigm

def requiredBeforeVerdict : List String :=
  ["initiation", "task_assignment", "stage_transition",
    "execution_complete"]

structure CompletenessResult where
  complete : Bool
  missing : List String
  deriving DecidableEq

namespace StateRecording

/-- `sortKeys(value)`: the own properties in code-unit order of their keys.
The assignment to `sorted['__proto__']` defines no own property. -/
def sortKeys {Number : Type} (value : Json.JsObject Number) :
    Json.JsObject Number :=
  ((Json.ownProperties value).insertionSort
      fun first second => first.1 ≤ second.1).filter
    fun property => property.1 ≠ Json.utf16 "__proto__"

/-- `buildPayload(processId, data, validatorId)`. -/
def buildPayload (processId : String) (data : Json.JsObject ℚ)
    (validatorId : Option String) : Payload :=
  .captured processId (sortKeys data) validatorId

/-- `capture(processId, eventType, data, validatorId)`. -/
def capture (processId eventType : String)
    (data : Json.JsObject ℚ) (validatorId : Option String := none) :
    Service Snapshot := do
  let snapshot ←
    ask (.append eventType (buildPayload processId data validatorId))
  ask (.markCaptured processId eventType)
  return snapshot

/-- `record(processId, eventType, data, validatorId)`. -/
def record (processId eventType : String)
    (data : Json.JsObject ℚ) (validatorId : Option String := none) :
    Service Snapshot :=
  capture processId eventType data validatorId

def capturedEvents (processId : String) : Service (List String) :=
  ask (.readCaptured processId)

def checkCompleteness (processId : String) :
    Service CompletenessResult := do
  let have_ ← ask (.readCaptured processId)
  let missing := requiredBeforeVerdict.filter fun event => event ∉ have_
  return ⟨missing.isEmpty, missing⟩

end StateRecording

namespace World

variable (env : Environment) (world : World)

/-- The world after `capture`. -/
def captureEvent (processId eventType : String)
    (data : Json.JsObject ℚ) : World :=
  (world.append env eventType
    (StateRecording.buildPayload processId data none)).mark
      processId eventType

end World

namespace StateRecording

@[simp]
theorem run_capture (env : Environment) (world : World)
    (processId eventType : String) (data : Json.JsObject ℚ) :
    Await.run (machine env) (capture processId eventType data) world =
      (.returned (world.nextSnapshot env eventType
          (buildPayload processId data none)),
        world.captureEvent env processId eventType data) :=
  rfl

end StateRecording

end ArosParadigm
