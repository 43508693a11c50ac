import ArosParadigm.AllSeeingEye
import ArosParadigm.Commission
import ArosParadigm.Emission
import ArosParadigm.Release

/-!
# Orchestrator

`OrchestratorService` of `src/orchestrator/orchestrator.service.ts`: one
process run through its whole lifecycle, epoch finalization, and the two read
requests.
-/

namespace ArosParadigm

structure RunProcessDto where
  processId : String
  amount : ℚ
  type : String
  admissible : Bool
  nodeIds : Option (List String)
  epoch : Option ℚ
  amountPositive : 0 < amount
  nodeIdsNotEmpty : nodeIds ≠ some []

inductive RunReason where
  | inadmissible
  | unverified
  deriving DecidableEq

structure RunProcessResult where
  processId : String
  verified : Fin 2
  reason : Option RunReason
  minted : ℚ
  fee : ℚ
  supplyAfter : ℚ
  reserveIndex : ℚ
  assignedNodes : List String
  events : List String
  deriving DecidableEq

structure MetricsSnapshot where
  totalSupply : ℚ
  earnedRetained : ℚ
  reserveIndex : ℚ
  verifiedProcessCount : ℕ
  currentEpoch : ℚ
  epochPool : ℚ
  nodeChainLength : ℕ
  releaseActive : Bool
  deriving DecidableEq

structure ProcessEvent where
  eventType : String
  sequenceId : ℕ
  timestamp : ℕ
  deriving DecidableEq

/-- The answer of `getProcess`. -/
structure ProcessView where
  processId : String
  verdict : Option (Fin 2 × List String)
  events : List ProcessEvent
  deriving DecidableEq

namespace Orchestrator

variable (env : Environment)

def defaultNodes : List (String × String) :=
  [("node-1", "validator"), ("node-2", "router"), ("node-3", "recorder")]

def defaultEpoch : ℚ := 1

def amountData (amount : ℚ) : Json.JsObject ℚ :=
  [(Json.utf16 "amount", .number amount)]

def nodesData (nodes : List String) : Json.JsObject ℚ :=
  [(Json.utf16 "nodes",
    .array (nodes.map fun node => .string (Json.utf16 node)))]

def stageData : Json.JsObject ℚ :=
  [(Json.utf16 "stage", .string (Json.utf16 "execute"))]

def verifiedData (verified : Fin 2) : Json.JsObject ℚ :=
  [(Json.utf16 "verified", .number (verified.val : ℚ))]

def mintedData (minted : ℚ) : Json.JsObject ℚ :=
  [(Json.utf16 "minted", .number minted)]

def statusData (status : String) : Json.JsObject ℚ :=
  [(Json.utf16 "status", .string (Json.utf16 status))]

/-- The loop that registers the default roster. -/
def registerNodes : List (String × String) → Service Unit
  | [] => return ()
  | (id, type) :: rest => do
      let _ ← Nodes.register id type
      registerNodes rest

/-- The registry, filled with the default roster when it is empty. -/
def registeredNodes : Service (List NodeEntity) := do
  let registered ← Nodes.list
  if registered = [] then
    registerNodes defaultNodes
    Nodes.list
  else
    return registered

def resolveAssignedNodes (explicit : Option (List String)) :
    Service (List String) := do
  match explicit with
  | some (first :: rest) => return first :: rest
  | _ =>
      let registered ← registeredNodes
      return (registered.filter fun node =>
        node.status = .active).map NodeEntity.id

/-- The loop that records the work of the assigned nodes. -/
def recordExecutions : List String → Service Unit
  | [] => return ()
  | nodeId :: rest => do
      let _ ← Nodes.recordExecution nodeId true
      recordExecutions rest

def terminate (processId : String) (verified : Fin 2)
    (reason : RunReason) (minted fee : ℚ) (assignedNodes : List String)
    (events : List String) : Service RunProcessResult := do
  let reserveIndex ← Reserve.reserveIndex env
  let supplyAfter ← ArosCoin.totalSupply
  return ⟨processId, verified, some reason, minted, fee, supplyAfter,
    reserveIndex, assignedNodes, events⟩

def eventsToVerdict : List String :=
  ["initiation", "task_assignment", "stage_transition",
    "execution_complete", "pot.verified", "pot_verdict"]

/-- Steps 1 to 5 for an admissible body, after the initiation: assignment,
execution, work, and the verdict. -/
def executeAndVerify (processId : String)
    (nodeIds : Option (List String)) :
    Service (List String × VerifyResult) := do
  -- Step 3: node assignment.
  let assignedNodes ← resolveAssignedNodes nodeIds
  let _ ← StateRecording.capture processId "task_assignment"
    (nodesData assignedNodes)
  let _ ← AllSeeingEye.log "task_assignment" "processing"
    ("assigned to " ++ toString assignedNodes.length ++ " nodes")
  -- Step 4: execution.
  let _ ← StateRecording.capture processId "stage_transition" stageData
  let _ ← StateRecording.capture processId "execution_complete" []
  recordExecutions assignedNodes
  -- Step 5: PoT verify.
  let verdict ← Pot.verify env processId
  let _ ← StateRecording.capture processId "pot_verdict"
    (verifiedData verdict.verified)
  let _ ← AllSeeingEye.log "pot_verdict" "processing"
    ("process " ++ processId ++ " verified=" ++
      toString verdict.verified.val)
  return (assignedNodes, verdict)

/-- The branch of an unverified process. -/
def rejectUnverified (processId : String) (assignedNodes : List String) :
    Service RunProcessResult := do
  let _ ← StateRecording.capture processId "final_status"
    (statusData "rejected")
  let reserveIndex ← Reserve.reserveIndex env
  let supplyAfter ← ArosCoin.totalSupply
  let view ← ArosCoin.supplyView
  let _ ← AllSeeingEye.compareSupply env view
  return ⟨processId, 0, some .unverified, 0, 0, supplyAfter,
    reserveIndex, assignedNodes, eventsToVerdict ++ ["final_status"]⟩

/-- Steps 6 to 9 for a verified process: mint, accrue, burn, final record. -/
def settle (processId : String) (amount epoch : ℚ)
    (assignedNodes : List String) : Service RunProcessResult := do
  -- Step 6: emission.
  let minted ← Emission.mint processId amount
  let _ ← StateRecording.capture processId "emission" (mintedData minted)
  let _ ← AllSeeingEye.log "mint" "token_management"
    ("minted " ++ env.numberText minted ++ " for " ++ processId)
  -- Step 7: fee accrual.
  let fee := Commission.computeFee amount
  let participants :=
    assignedNodes.map fun nodeId => Participation.mk processId nodeId
  let _ ← Commission.accrue epoch fee participants
  let burned ← Emission.burn processId minted
  let _ ← AllSeeingEye.log "burn" "token_management"
    ("burned " ++ env.numberText burned ++ " for " ++ processId)
  -- Step 8: reserve update.
  let reserveIndex ← Reserve.reserveIndex env
  -- Step 9: final record.
  let _ ← StateRecording.capture processId "final_status"
    (statusData "done")
  let _ ← AllSeeingEye.log "final_status" "ledger_anchoring"
    ("process " ++ processId ++ " finalized")
  let view ← ArosCoin.supplyView
  let _ ← AllSeeingEye.compareSupply env view
  let supplyAfter ← ArosCoin.totalSupply
  return ⟨processId, 1, none, minted, fee, supplyAfter, reserveIndex,
    assignedNodes,
    eventsToVerdict ++
      ["emission.minted", "emission", "emission.burned", "final_status"]⟩

def runProcess (input : RunProcessDto) : Service RunProcessResult := do
  let epoch := input.epoch.getD defaultEpoch
  -- Step 1: initiation.
  let _ ← StateRecording.capture input.processId "initiation"
    (amountData input.amount)
  let _ ← AllSeeingEye.log "initiation" "processing"
    ("process " ++ input.processId ++ " initiated (amount " ++
      env.numberText input.amount ++ ")")
  -- Step 2: admissibility.
  if !input.admissible then
    let _ ← AllSeeingEye.log "anomaly_detected" "processing"
      ("process " ++ input.processId ++ " inadmissible — rejected")
    terminate env input.processId 0 .inadmissible 0 0 [] ["initiation"]
  else
    let (assignedNodes, verdict) ←
      executeAndVerify env input.processId input.nodeIds
    if verdict.verified ≠ 1 then
      rejectUnverified env input.processId assignedNodes
    else
      settle env input.processId input.amount epoch assignedNodes

def finalizeEpoch (epoch : ℚ := defaultEpoch) :
    Service FinalizeResult := do
  let result ← Commission.finalizeEpoch env epoch
  let _ ← AllSeeingEye.log "commission_distribution" "token_management"
    ("epoch " ++ env.numberText epoch ++ ": paid " ++
      env.numberText result.paid ++ ", margin " ++
      env.numberText result.operationalMargin ++ ", reconciled=" ++
      toString result.reconciled)
  let view ← ArosCoin.supplyView
  let _ ← AllSeeingEye.compareSupply env view
  return result

def getProcess (processId : String) : Service ProcessView := do
  let verdict ← Pot.getVerdict processId
  let history ← ask .listSnapshots
  let events :=
    (history.filter fun snapshot =>
      snapshot.payload.processId? = some processId).map fun snapshot =>
        ProcessEvent.mk snapshot.eventType snapshot.sequenceId
          snapshot.timestamp
  return ⟨processId,
    verdict.map fun row => (row.verified, row.reasons), events⟩

/-- `metrics(epoch)`. The seven reads of `Promise.all` are taken one after
another: they write nothing but the two default rows. -/
def metrics (epoch : ℚ := defaultEpoch) : Service MetricsSnapshot := do
  let totalSupply ← ArosCoin.totalSupply
  let earnedRetained ← ArosCoin.retained
  let reserveIndex ← Reserve.reserveIndex env
  let verdicts ← Pot.list
  let epochRow ← Commission.getEpoch epoch
  let history ← ask .listSnapshots
  let releaseActive ← Release.isActive
  return {
    totalSupply := totalSupply
    earnedRetained := earnedRetained
    reserveIndex := reserveIndex
    verifiedProcessCount :=
      (verdicts.filter fun row => row.verified = 1).length
    currentEpoch := epoch
    epochPool := (epochRow.map Epoch.totalFees).getD 0
    nodeChainLength := history.length
    releaseActive := releaseActive }

/-! ## Running alone -/

section Stages

open Await

variable {env : Environment} {world : World}

/-- The world after the registration of several nodes. -/
def enrolledWorld (env : Environment) (world : World)
    (roster : List (String × String)) : World :=
  roster.foldl (fun world node => Nodes.registered env world node.1 node.2)
    world

/-- The world after the resolution of the assigned nodes. -/
def rosterWorld (env : Environment) (world : World) :
    Option (List String) → World
  | some (_ :: _) => world
  | _ =>
      if world.nodes.rows = [] then
        enrolledWorld env world defaultNodes
      else
        world

def assignedNodes (env : Environment) (world : World) :
    Option (List String) → List String
  | some (first :: rest) => first :: rest
  | _ =>
      ((rosterWorld env world none).nodes.rows.filter fun node =>
        node.status = .active).map NodeEntity.id

theorem run_registerNodes (roster : List (String × String)) :
    run (machine env) (registerNodes roster) world =
      (.returned (), enrolledWorld env world roster) := by
  induction roster generalizing world with
  | nil =>
      rfl
  | cons node rest inductionHypothesis =>
      rw [registerNodes, run_bind_of_returned (Nodes.run_register _ _),
        inductionHypothesis]
      rfl

theorem run_registeredNodes :
    run (machine env) registeredNodes world =
      (.returned (rosterWorld env world none).nodes.rows,
        rosterWorld env world none) := by
  rw [registeredNodes, run_bind_of_returned Nodes.run_list]
  unfold rosterWorld
  split
  · rw [run_bind_of_returned (run_registerNodes defaultNodes),
      Nodes.run_list]
  · rfl

theorem run_resolveAssignedNodes (explicit : Option (List String)) :
    run (machine env) (resolveAssignedNodes explicit) world =
      (.returned (assignedNodes env world explicit),
        rosterWorld env world explicit) := by
  unfold resolveAssignedNodes
  rcases explicit with _ | (_ | ⟨first, rest⟩)
  · rw [run_bind_of_returned run_registeredNodes]
    rfl
  · rw [run_bind_of_returned run_registeredNodes]
    rfl
  · rfl

/-- The world after the work of the nodes up to the first that is not
registered. -/
def workedWorld (world : World) : List String → World
  | [] => world
  | id :: rest =>
      match world.nodes.find? id with
      | some node =>
          workedWorld (world.saveNode (Nodes.worked node true)) rest
      | none => world

/-- How the recording of the work ends. -/
def workOutcome (world : World) (ids : List String) :
    Outcome ServiceError Unit :=
  match ids.find? fun id => (world.nodes.find? id).isNone with
  | some id => .threw (Nodes.notRegistered id)
  | none => .returned ()

theorem isNone_find?_work {id : String} {node : NodeEntity}
    (found : world.nodes.find? id = some node) (other : String) :
    ((world.saveNode (Nodes.worked node true)).nodes.find? other).isNone =
      (world.nodes.find? other).isNone := by
  have key : (Nodes.worked node true).id = id :=
    (Nodes.worked_id node true).trans (Keyed.Table.key_of_find? found)
  by_cases same : id = other
  · subst same
    rw [World.saveNode_nodes, Keyed.Table.find?_save, if_pos key, found]
    rfl
  · rw [World.saveNode_nodes, Keyed.Table.find?_save, key, if_neg same]

theorem run_recordExecutions (ids : List String) :
    run (machine env) (recordExecutions ids) world =
      (workOutcome world ids, workedWorld world ids) := by
  induction ids generalizing world with
  | nil =>
      rfl
  | cons id rest inductionHypothesis =>
      unfold workOutcome
      rw [recordExecutions, workedWorld, List.find?_cons]
      cases found : world.nodes.find? id with
      | none =>
          rw [run_bind_of_threw
            (Nodes.run_recordExecution_of_none found true)]
          rfl
      | some node =>
          rw [run_bind_of_returned
            (Nodes.run_recordExecution_of_some found true),
            inductionHypothesis]
          simp only [workOutcome, isNone_find?_work found]
          rfl

theorem workedWorld_eq (world : World) (ids : List String) :
    ∃ nodes, workedWorld world ids = { world with nodes := nodes } := by
  induction ids generalizing world with
  | nil =>
      exact ⟨_, rfl⟩
  | cons id rest inductionHypothesis =>
      rw [workedWorld]
      cases found : world.nodes.find? id with
      | none =>
          exact ⟨_, rfl⟩
      | some node =>
          exact inductionHypothesis _

/-- The world after the initiation of a process. -/
def initiatedWorld (env : Environment) (world : World)
    (body : RunProcessDto) : World :=
  (world.captureEvent env body.processId "initiation"
    (amountData body.amount)).log env "initiation" "processing"
      ("process " ++ body.processId ++ " initiated (amount " ++
        env.numberText body.amount ++ ")")

/-- The world after the records of assignment and execution. -/
def preparedWorld (env : Environment) (world : World)
    (processId : String) (nodes : List String) : World :=
  (((world.captureEvent env processId "task_assignment"
    (nodesData nodes)).log env "task_assignment" "processing"
      ("assigned to " ++ toString nodes.length ++ " nodes")).captureEvent
        env processId "stage_transition" stageData).captureEvent
          env processId "execution_complete" []

/-- The world before the verdict. -/
def executedWorld (env : Environment) (world : World)
    (processId : String) (explicit : Option (List String)) : World :=
  workedWorld
    (preparedWorld env (rosterWorld env world explicit) processId
      (assignedNodes env world explicit))
    (assignedNodes env world explicit)

/-- The world after the record of the verdict. -/
def judgedWorld (env : Environment) (world : World)
    (processId : String) (verified : Fin 2) : World :=
  (world.captureEvent env processId "pot_verdict"
    (verifiedData verified)).log env "pot_verdict" "processing"
      ("process " ++ processId ++ " verified=" ++ toString verified.val)

/-- Every explicitly assigned node is registered. -/
def Registered (world : World) (explicit : Option (List String)) : Prop :=
  ∀ id ∈ explicit.getD [], (world.nodes.find? id).isSome

instance (explicit : Option (List String)) :
    Decidable (Registered world explicit) :=
  inferInstanceAs (Decidable (∀ id ∈ _, _))

theorem workOutcome_of_registered {ids : List String}
    (registered : ∀ id ∈ ids, (world.nodes.find? id).isSome) :
    workOutcome world ids = .returned () := by
  have nothing :
      (ids.find? fun id => (world.nodes.find? id).isNone) = none := by
    rw [List.find?_eq_none]
    intro id member
    simpa [Option.ne_none_iff_isSome] using registered id member
  rw [workOutcome, nothing]

variable (world) in
theorem workOutcome_of_missing {ids : List String} {id : String}
    (member : id ∈ ids) (missing : world.nodes.find? id = none) :
    ∃ first, workOutcome world ids =
      .threw (Nodes.notRegistered first) := by
  have present :
      (ids.find? fun id => (world.nodes.find? id).isNone).isSome := by
    rw [List.find?_isSome]
    exact ⟨id, member, by simp [missing]⟩
  obtain ⟨first, found⟩ := Option.isSome_iff_exists.mp present
  exact ⟨first, by rw [workOutcome, found]⟩

variable (env) in
/-- The assigned nodes are in the registry exactly when the explicit ones
are. -/
theorem registered_assignedNodes_iff (explicit : Option (List String)) :
    (∀ id ∈ assignedNodes env world explicit,
      ((rosterWorld env world explicit).nodes.find? id).isSome) ↔
      Registered world explicit := by
  have implicit : ∀ id ∈ assignedNodes env world none,
      ((rosterWorld env world none).nodes.find? id).isSome := by
    intro id member
    obtain ⟨node, listed, equal⟩ := List.mem_map.mp member
    have row := (List.mem_filter.mp listed).1
    rw [← equal, Keyed.Table.find?_of_mem row]
    rfl
  rcases explicit with _ | (_ | ⟨first, rest⟩)
  · exact ⟨fun _ id member => by simp at member, fun _ => implicit⟩
  · exact ⟨fun _ id member => by simp at member, fun _ => implicit⟩
  · exact Iff.rfl

variable (env world) in
theorem run_executeAndVerify_of_unregistered (processId : String)
    {explicit : Option (List String)}
    (unregistered : ¬ Registered world explicit) :
    ∃ id, run (machine env) (executeAndVerify env processId explicit)
        world =
      (.threw (Nodes.notRegistered id),
        executedWorld env world processId explicit) := by
  rw [← registered_assignedNodes_iff env] at unregistered
  simp only [not_forall] at unregistered
  obtain ⟨id, member, missing⟩ := unregistered
  obtain ⟨first, worked⟩ :=
    workOutcome_of_missing
      (preparedWorld env (rosterWorld env world explicit) processId
        (assignedNodes env world explicit))
      member (Option.not_isSome_iff_eq_none.mp missing)
  refine ⟨first, ?_⟩
  rw [executeAndVerify,
    run_bind_of_returned (run_resolveAssignedNodes explicit),
    run_bind_of_returned (StateRecording.run_capture env _ _ _ _),
    run_bind_of_returned (AllSeeingEye.run_log _ _ _),
    run_bind_of_returned (StateRecording.run_capture env _ _ _ _),
    run_bind_of_returned (StateRecording.run_capture env _ _ _ _)]
  apply run_bind_of_threw
  rw [run_recordExecutions]
  exact congrArg (fun outcome => (outcome, _)) worked

theorem run_executeAndVerify {processId : String}
    {explicit : Option (List String)} {verdict : VerifyResult}
    {after : World} (registered : Registered world explicit)
    (verified :
      run (machine env) (Pot.verify env processId)
          (executedWorld env world processId explicit) =
        (.returned verdict, after)) :
    run (machine env) (executeAndVerify env processId explicit) world =
      (.returned (assignedNodes env world explicit, verdict),
        judgedWorld env after processId verdict.verified) := by
  have worked :
      run (machine env)
          (recordExecutions (assignedNodes env world explicit))
          (preparedWorld env (rosterWorld env world explicit) processId
            (assignedNodes env world explicit)) =
        (.returned (), executedWorld env world processId explicit) := by
    rw [run_recordExecutions, workOutcome_of_registered]
    · rfl
    · exact (registered_assignedNodes_iff env explicit).mpr registered
  rw [executeAndVerify,
    run_bind_of_returned (run_resolveAssignedNodes explicit),
    run_bind_of_returned (StateRecording.run_capture env _ _ _ _),
    run_bind_of_returned (AllSeeingEye.run_log _ _ _),
    run_bind_of_returned (StateRecording.run_capture env _ _ _ _),
    run_bind_of_returned (StateRecording.run_capture env _ _ _ _)]
  exact (run_bind_of_returned worked).trans
    ((run_bind_of_returned verified).trans rfl)

theorem settled_rosterWorld (explicit : Option (List String)) :
    (rosterWorld env world explicit).Settled ↔ world.Settled := by
  unfold rosterWorld
  split
  · exact Iff.rfl
  · split <;> exact Iff.rfl

theorem settled_executedWorld (processId : String)
    (explicit : Option (List String)) :
    (executedWorld env world processId explicit).Settled ↔
      world.Settled := by
  unfold executedWorld
  obtain ⟨nodes, worked⟩ := workedWorld_eq
    (preparedWorld env (rosterWorld env world explicit) processId
      (assignedNodes env world explicit))
    (assignedNodes env world explicit)
  rw [worked]
  exact settled_rosterWorld explicit

end Stages

section Ends

open Await

variable {env : Environment} {world : World}

/-- The world after the comparison of the supply of the ledger row. -/
def observedWorld (env : Environment) (world : World) : World :=
  AllSeeingEye.comparedWorld env (world.withLedger world.ledgerRow)
    ⟨(world.ledgerRow.processMinted - world.ledgerRow.processBurned) +
      world.ledgerRow.earnedRetained, world.ledgerRow.earnedRetained⟩

/-- The world after the branch of an unverified process. -/
def rejectedWorld (env : Environment) (world : World)
    (processId : String) : World :=
  observedWorld env (world.captureEvent env processId "final_status"
    (statusData "rejected"))

/-- The world after the mint of a verified process and its records. -/
def emittedWorld (env : Environment) (world : World)
    (processId : String) (amount : ℚ) : World :=
  ((Emission.mintedWorld env world processId amount).captureEvent env
    processId "emission" (mintedData amount)).log env "mint"
      "token_management"
      ("minted " ++ env.numberText amount ++ " for " ++ processId)

/-- The world after the fee and the burn of a verified process. -/
def balancedWorld (env : Environment) (world : World)
    (processId : String) (amount epoch : ℚ) (nodes : List String) :
    World :=
  (Emission.burnedWorld env
    (Commission.accruedWorld world epoch (Commission.computeFee amount)
      (nodes.map fun nodeId => ⟨processId, nodeId⟩))
    processId amount).log env "burn" "token_management"
      ("burned " ++ env.numberText amount ++ " for " ++ processId)

/-- The world after the final record of a verified process. -/
def recordedWorld (env : Environment) (world : World)
    (processId : String) (amount epoch : ℚ) (nodes : List String) :
    World :=
  ((balancedWorld env (emittedWorld env world processId amount)
    processId amount epoch nodes).captureEvent env processId
      "final_status" (statusData "done")).log env "final_status"
        "ledger_anchoring" ("process " ++ processId ++ " finalized")

/-- The world after the branch of a verified process. -/
def settledWorld (env : Environment) (world : World)
    (processId : String) (amount epoch : ℚ) (nodes : List String) :
    World :=
  observedWorld env
    (recordedWorld env world processId amount epoch nodes)

theorem settled_observedWorld :
    (observedWorld env world).Settled := by
  unfold observedWorld AllSeeingEye.comparedWorld
  split
  · exact World.settled_withLedger _ _
  · rw [World.settled_log]
    exact World.settled_withLedger _ _

/-- The comparison has read the row already. -/
theorem withLedger_observedWorld :
    (observedWorld env world).withLedger
      (observedWorld env world).ledgerRow = observedWorld env world := by
  unfold observedWorld AllSeeingEye.comparedWorld
  split <;> rfl

/-- The total supply in the ledger row. -/
def supplyOf (world : World) : ℚ :=
  (world.ledgerRow.processMinted - world.ledgerRow.processBurned) +
    world.ledgerRow.earnedRetained

/-- The reserve index of the chain. -/
def indexOf (env : Environment) (world : World) : ℚ :=
  env.log10 (1 + (world.history.map Reserve.volumeOf).sum)

variable (env) in
theorem run_terminate_eq (settled : world.Settled) (processId : String)
    (verified : Fin 2) (reason : RunReason) (minted fee : ℚ)
    (nodes events : List String) :
    run (machine env)
        (terminate env processId verified reason minted fee nodes
          events) world =
      (.returned ⟨processId, verified, some reason, minted, fee,
          supplyOf world, indexOf env world, nodes, events⟩,
        world.withLedger world.ledgerRow) := by
  rw [terminate, run_bind_of_returned (Reserve.run_reserveIndex env _),
    run_bind_of_returned (ArosCoin.run_totalSupply settled)]
  rfl

variable (env) in
theorem run_rejectUnverified (settled : world.Settled)
    (processId : String) (nodes : List String) :
    ∃ supplyAfter reserveIndex,
      run (machine env) (rejectUnverified env processId nodes) world =
        (.returned ⟨processId, 0, some .unverified, 0, 0, supplyAfter,
            reserveIndex, nodes, eventsToVerdict ++ ["final_status"]⟩,
          rejectedWorld env world processId) := by
  have captured : (world.captureEvent env processId "final_status"
      (statusData "rejected")).Settled := settled
  apply Exists.intro
  apply Exists.intro
  rw [rejectUnverified,
    run_bind_of_returned (StateRecording.run_capture env _ _ _ _),
    run_bind_of_returned (Reserve.run_reserveIndex env _),
    run_bind_of_returned (ArosCoin.run_totalSupply captured),
    run_bind_of_returned
      (ArosCoin.run_supplyView (World.settled_withLedger _ _)),
    run_bind_of_returned (AllSeeingEye.run_compareSupply _)]
  rfl

variable (env) in
theorem run_settle_eq {processId : String} (settled : world.Settled)
    (authorized :
      Emission.authorizes (world.verdicts.find? processId) = true)
    (amount epoch : ℚ) (nodes : List String) :
    run (machine env) (settle env processId amount epoch nodes) world =
      (.returned ⟨processId, 1, none, amount,
          Commission.computeFee amount,
          supplyOf (settledWorld env world processId amount epoch nodes),
          indexOf env (balancedWorld env
            (emittedWorld env world processId amount) processId amount
            epoch nodes),
          nodes, eventsToVerdict ++ ["emission.minted", "emission",
            "emission.burned", "final_status"]⟩,
        settledWorld env world processId amount epoch nodes) := by
  have minted :
      (Emission.mintedWorld env world processId amount).Settled := by
    simp [Emission.mintedWorld]
  have emitted : (Commission.accruedWorld
      (emittedWorld env world processId amount) epoch
      (Commission.computeFee amount)
      (nodes.map fun nodeId => ⟨processId, nodeId⟩)).Settled := by
    unfold Commission.accruedWorld Commission.openedWorld
    split <;> exact minted
  have recorded : (recordedWorld env world processId amount epoch
      nodes).Settled := by
    simp [recordedWorld, balancedWorld, Emission.burnedWorld,
      World.captureEvent]
  rw [settle, run_bind_of_returned
      (Emission.run_mint settled authorized amount),
    run_bind_of_returned (StateRecording.run_capture env _ _ _ _),
    run_bind_of_returned (AllSeeingEye.run_log _ _ _)]
  simp only
  rw [run_bind_of_returned (Commission.run_accrue _ _ _)]
  refine (run_bind_of_returned
    (Emission.run_burn emitted processId amount)).trans ?_
  rw [run_bind_of_returned (AllSeeingEye.run_log _ _ _),
    run_bind_of_returned (Reserve.run_reserveIndex env _),
    run_bind_of_returned (StateRecording.run_capture env _ _ _ _),
    run_bind_of_returned (AllSeeingEye.run_log _ _ _)]
  refine (run_bind_of_returned
    (ArosCoin.run_supplyView recorded)).trans ?_
  rw [run_bind_of_returned (AllSeeingEye.run_compareSupply _)]
  refine (run_bind_of_returned
    (ArosCoin.run_totalSupply settled_observedWorld)).trans ?_
  rw [withLedger_observedWorld]
  rfl

end Ends

theorem thousand_pos : (0 : ℚ) < 1000 := by
  decide

theorem none_ne_some_nil : (none : Option (List String)) ≠ some [] :=
  nofun

/-- A body with or without an explicit list of nodes. -/
def transferBody (processId : String) (nodeIds : Option (List String))
    (notEmpty : nodeIds ≠ some [] := by decide) : RunProcessDto where
  processId := processId
  amount := 1000
  type := "transfer"
  admissible := true
  nodeIds := nodeIds
  epoch := none
  amountPositive := thousand_pos
  nodeIdsNotEmpty := notEmpty

/-- The world after a first process on the default nodes. -/
def servedWorld : World :=
  (Await.run (machine .plain)
    (runProcess .plain (transferBody "p-0" none))
    .initial).2

end Orchestrator

end ArosParadigm
