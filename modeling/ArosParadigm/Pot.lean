import ArosParadigm.StateRecording

/-!
# PoT

`PotService` of `src/pot/pot.service.ts`: the verdict on a process is computed
once from the events captured for it and from the state of NodeChain, recorded
on NodeChain, and stored.
-/

namespace ArosParadigm

structure VerifyResult where
  verified : Fin 2
  reasons : List String
  snapshotSequenceId : ℕ
  deriving DecidableEq

/-- The four criteria of a verdict. -/
structure CriteriaResult where
  admissibleContext : Bool
  fullStageSequence : Bool
  statesRecordedInNodechain : Bool
  completionPerRules : Bool
  deriving DecidableEq

namespace Pot

variable (env : Environment)

def reconstruct : Service ReconstructResult := do
  let snapshots ← ask .listSnapshots
  return NodeChain.reconstruct env.hasher snapshots

/-- `criteriaResult` for a captured set and a chain state. -/
def criteriaResult (captured : List String) (chainOk : Bool) :
    CriteriaResult where
  admissibleContext := "initiation" ∈ captured
  fullStageSequence :=
    "task_assignment" ∈ captured ∧ "stage_transition" ∈ captured
  statesRecordedInNodechain := chainOk ∧ 0 < captured.length
  completionPerRules := "execution_complete" ∈ captured

/-- `Object.values(criteriaResult).every(Boolean) ? 1 : 0`. -/
def verifiedOf (criteria : CriteriaResult) : Fin 2 :=
  if criteria.admissibleContext && criteria.fullStageSequence &&
      criteria.statesRecordedInNodechain &&
      criteria.completionPerRules then 1 else 0

/-- `failureReasons(criteriaResult, captured)`. -/
def failureReasons (criteria : CriteriaResult) (captured : List String) :
    List String :=
  (requiredBeforeVerdict.filter fun event => event ∉ captured).map
      (fun event => "missing_event:" ++ event) ++
    if !criteria.statesRecordedInNodechain && 0 < captured.length then
      ["states_recorded_in_nodechain"]
    else
      []

/-- `verify(processId)`. -/
def verify (processId : String) : Service VerifyResult := do
  match ← ask (.findVerdict processId) with
  | some existing =>
      return ⟨existing.verified, existing.reasons,
        existing.snapshotSequenceId⟩
  | none =>
      let captured ← StateRecording.capturedEvents processId
      let chain ← reconstruct env
      let criteria := criteriaResult captured chain.ok
      let verified := verifiedOf criteria
      let reasons := failureReasons criteria captured
      let snapshot ←
        ask (.append "pot.verified"
          (.potVerified processId verified reasons))
      let timestamp ← ask .tick
      ask (.saveVerdict
        ⟨processId, verified, reasons, timestamp, snapshot.sequenceId⟩)
      return ⟨verified, reasons, snapshot.sequenceId⟩

def getVerdict (processId : String) : Service (Option PotVerdict) :=
  ask (.findVerdict processId)

def list : Service (List PotVerdict) :=
  ask .listVerdicts

/-! ## Running alone -/

/-- The verdict that a first `verify` computes. -/
def verdictOf (world : World) (processId : String) :
    Fin 2 × List String :=
  let criteria := criteriaResult (world.captured processId)
    (NodeChain.reconstruct env.hasher world.history).ok
  (verifiedOf criteria,
    failureReasons criteria (world.captured processId))

/-- The payload that a first `verify` appends. -/
def verdictPayload (world : World) (processId : String) : Payload :=
  .potVerified processId (verdictOf env world processId).1
    (verdictOf env world processId).2

/-- The row that a first `verify` stores. -/
def newVerdict (world : World) (processId : String) : PotVerdict where
  processId := processId
  verified := (verdictOf env world processId).1
  reasons := (verdictOf env world processId).2
  timestamp := world.clock + 2
  snapshotSequenceId := (world.nextSnapshot env "pot.verified"
    (verdictPayload env world processId)).sequenceId

/-- The world after a first `verify`. -/
def verifiedWorld (world : World) (processId : String) : World :=
  ((world.append env "pot.verified"
    (verdictPayload env world processId)).tick).saveVerdict
      (newVerdict env world processId)

theorem run_verify_of_some {world : World} {processId : String}
    {existing : PotVerdict}
    (found : world.verdicts.find? processId = some existing) :
    Await.run (machine env) (verify env processId) world =
      (.returned ⟨existing.verified, existing.reasons,
        existing.snapshotSequenceId⟩, world) := by
  rw [verify, Await.run_bind_of_returned (run_findVerdict env world _),
    found]
  rfl

theorem run_verify_of_none {world : World} {processId : String}
    (missing : world.verdicts.find? processId = none) :
    Await.run (machine env) (verify env processId) world =
      (.returned ⟨(newVerdict env world processId).verified,
          (newVerdict env world processId).reasons,
          (newVerdict env world processId).snapshotSequenceId⟩,
        verifiedWorld env world processId) := by
  rw [verify, Await.run_bind_of_returned (run_findVerdict env world _),
    missing]
  rfl

/-- The stored verdict, or the one that a first `verify` stores. -/
def verdictRow (world : World) (processId : String) : PotVerdict :=
  (world.verdicts.find? processId).getD (newVerdict env world processId)

def verifyResult (world : World) (processId : String) : VerifyResult :=
  ⟨(verdictRow env world processId).verified,
    (verdictRow env world processId).reasons,
    (verdictRow env world processId).snapshotSequenceId⟩

def verifyWorld (world : World) (processId : String) : World :=
  match world.verdicts.find? processId with
  | some _ => world
  | none => verifiedWorld env world processId

theorem run_verify (world : World) (processId : String) :
    Await.run (machine env) (verify env processId) world =
      (.returned (verifyResult env world processId),
        verifyWorld env world processId) := by
  unfold verifyResult verifyWorld verdictRow
  cases found : world.verdicts.find? processId with
  | some existing =>
      exact run_verify_of_some env found
  | none =>
      exact run_verify_of_none env found

theorem verdictRow_processId (world : World) (processId : String) :
    (verdictRow env world processId).processId = processId := by
  unfold verdictRow
  cases found : world.verdicts.find? processId with
  | some existing =>
      exact Keyed.Table.key_of_find? found
  | none =>
      rfl

theorem verdicts_verifyWorld (world : World) (processId : String) :
    (verifyWorld env world processId).verdicts =
      world.verdicts.save (verdictRow env world processId) := by
  unfold verifyWorld verdictRow
  cases found : world.verdicts.find? processId with
  | some existing =>
      exact (Keyed.Table.save_of_find? found).symm
  | none =>
      rfl

theorem verifiedOf_eq_one_iff (criteria : CriteriaResult) :
    verifiedOf criteria = 1 ↔
      criteria.admissibleContext = true ∧
        criteria.fullStageSequence = true ∧
        criteria.statesRecordedInNodechain = true ∧
        criteria.completionPerRules = true := by
  rcases criteria with ⟨context, sequence, recorded, completion⟩
  revert context sequence recorded completion
  decide

theorem verifiedOf_of_complete {captured : List String} {chainOk : Bool}
    (complete : ∀ event ∈ requiredBeforeVerdict, event ∈ captured)
    (intact : chainOk = true) :
    verifiedOf (criteriaResult captured chainOk) = 1 := by
  have initiated := complete "initiation" (by decide)
  have assigned := complete "task_assignment" (by decide)
  have staged := complete "stage_transition" (by decide)
  have executed := complete "execution_complete" (by decide)
  have some_event : 0 < captured.length := List.length_pos_of_mem initiated
  simp [criteriaResult, verifiedOf, intact, initiated, assigned, staged,
    executed, some_event]

theorem complete_of_verifiedOf {captured : List String} {chainOk : Bool}
    (confirmed : verifiedOf (criteriaResult captured chainOk) = 1) :
    (∀ event ∈ requiredBeforeVerdict, event ∈ captured) ∧
      failureReasons (criteriaResult captured chainOk) captured = [] := by
  obtain ⟨initiated, sequence, recorded, executed⟩ :=
    (verifiedOf_eq_one_iff _).mp confirmed
  simp only [criteriaResult, decide_eq_true_eq] at initiated sequence
  simp only [criteriaResult, decide_eq_true_eq] at recorded executed
  constructor
  · simp [requiredBeforeVerdict, initiated, sequence, executed]
  · simp [failureReasons, criteriaResult, requiredBeforeVerdict,
      initiated, sequence, executed, recorded]

end Pot

end ArosParadigm
