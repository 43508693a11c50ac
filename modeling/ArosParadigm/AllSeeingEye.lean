import ArosParadigm.ArosCoin
import ArosParadigm.Pot

/-!
# All-Seeing Eye

`AllSeeingEyeService` of `src/all-seeing-eye/all-seeing-eye.service.ts`: it
reads and compares, and writes to its own hash-linked ledger only.
-/

namespace ArosParadigm.AllSeeingEye

variable (env : Environment)

/-- `log(eventType, layer, description)`. -/
def log (eventType layer description : String) :
    Service OversightLogEntry :=
  ask (.logOversight eventType layer description)

def compareSupply (observed : SupplyView) : Service Bool := do
  let consistent : Bool := observed.totalSupply = observed.retained
  if !consistent then
    let _ ← log "anomaly_detected" "token_management"
      ("supply drift: totalSupply=" ++ env.numberText observed.totalSupply ++
        " retained=" ++ env.numberText observed.retained)
  return consistent

def verifyChain : Service ReconstructResult := do
  let result ← Pot.reconstruct env
  if !result.ok then
    let _ ← log "anomaly_detected" "ledger_anchoring"
      ("nodechain integrity break at sequenceId=" ++
        (match result.brokenAt with
          | some sequenceId => toString sequenceId
          | none => "undefined"))
  return result

def getLog : Service (List OversightLogEntry) :=
  ask .listOversight

/-- How `verifyLog` reads an entry. -/
def reading : HashChain.Reading OversightLogEntry String where
  previous := OversightLogEntry.prevHash
  stored := OversightLogEntry.hash
  digest := fun entry expected =>
    env.sha256 (entry.eventType ++ entry.layer ++ entry.description ++
      expected ++ toString entry.timestamp)

def verifyLog : Service ReconstructResult := do
  let entries ← getLog
  match HashChain.firstBroken (reading env) "GENESIS" entries with
  | none => return ⟨true, none⟩
  | some broken => return ⟨false, some broken.id⟩

/-! ## Running alone -/

section Alone

variable {env} {world : World}

@[simp]
theorem run_log (eventType layer description : String) :
    Await.run (machine env) (log eventType layer description) world =
      (.returned (world.nextOversight env eventType layer description),
        world.log env eventType layer description) :=
  rfl

/-- The description of a supply drift. -/
def driftText (env : Environment) (observed : SupplyView) : String :=
  "supply drift: totalSupply=" ++ env.numberText observed.totalSupply ++
    " retained=" ++ env.numberText observed.retained

/-- The world after `compareSupply`. -/
def comparedWorld (env : Environment) (world : World)
    (observed : SupplyView) : World :=
  if observed.totalSupply = observed.retained then world
  else world.log env "anomaly_detected" "token_management"
    (driftText env observed)

theorem run_compareSupply (observed : SupplyView) :
    Await.run (machine env) (compareSupply env observed) world =
      (.returned (decide (observed.totalSupply = observed.retained)),
        comparedWorld env world observed) := by
  unfold compareSupply comparedWorld
  by_cases consistent : observed.totalSupply = observed.retained
  · simp [consistent]
  · simp only [consistent, decide_false, Bool.not_false, if_true,
      if_false]
    rfl

/-- What `verifyLog` answers over given entries. -/
def verifiedLog (env : Environment) (entries : List OversightLogEntry) :
    ReconstructResult :=
  match HashChain.firstBroken (reading env) "GENESIS" entries with
  | none => ⟨true, none⟩
  | some broken => ⟨false, some broken.id⟩

theorem run_verifyLog :
    Await.run (machine env) (verifyLog env) world =
      (.returned (verifiedLog env world.oversight), world) := by
  unfold verifyLog getLog verifiedLog
  rw [Await.run_bind_of_returned (run_listOversight env world)]
  cases HashChain.firstBroken (reading env) "GENESIS" world.oversight <;>
    rfl

end Alone

end ArosParadigm.AllSeeingEye
