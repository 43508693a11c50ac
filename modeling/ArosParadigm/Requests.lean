import ArosParadigm.Orchestrator

/-!
# Requests

The requests of the two controllers of `src/orchestrator`, how each is
answered when nothing else runs, and the runs in which requests are answered
one after another.
-/

namespace ArosParadigm

/-- The requests of the two controllers. -/
inductive Request where
  | runProcess (body : RunProcessDto)
  | finalizeEpoch (epoch : ℚ)
  | metrics (epoch : ℚ)
  | getProcess (processId : String)

/-- The answers to the requests. -/
inductive Response where
  | run (result : RunProcessResult)
  | finalized (result : FinalizeResult)
  | metrics (result : MetricsSnapshot)
  | process (result : ProcessView)
  deriving DecidableEq

def Request.handler (env : Environment) : Request → Service Response
  | .runProcess body => do
      let result ← Orchestrator.runProcess env body
      return .run result
  | .finalizeEpoch epoch => do
      let result ← Orchestrator.finalizeEpoch env epoch
      return .finalized result
  | .metrics epoch => do
      let result ← Orchestrator.metrics env epoch
      return .metrics result
  | .getProcess processId => do
      let result ← Orchestrator.getProcess processId
      return .process result

/-- Answer a request when nothing else runs. -/
def Request.handle (env : Environment) (request : Request)
    (world : World) : Await.Outcome ServiceError Response × World :=
  Await.run (machine env) (request.handler env) world

/-- The fee that a verified run returns. -/
def feeReturned : Await.Outcome ServiceError Response → ℚ
  | .returned (.run result) =>
      if result.verified = 1 then result.fee else 0
  | _ => 0

namespace Orchestrator

section Whole

open Await

variable {env : Environment} {world : World}

/-- The world in which the verdict on an admissible body is asked for. -/
def requestedWorld (env : Environment) (world : World)
    (body : RunProcessDto) : World :=
  executedWorld env (initiatedWorld env world body) body.processId
    body.nodeIds

/-- The verdict on an admissible body. -/
def verdictOn (env : Environment) (world : World) (body : RunProcessDto) :
    PotVerdict :=
  Pot.verdictRow env (requestedWorld env world body) body.processId

/-- The world in which the verdict on an admissible body is recorded. -/
def verdictWorld (env : Environment) (world : World)
    (body : RunProcessDto) : World :=
  judgedWorld env
    (Pot.verifyWorld env (requestedWorld env world body) body.processId)
    body.processId (verdictOn env world body).verified

/-- The assigned nodes of an admissible body. -/
def bodyNodes (env : Environment) (world : World)
    (body : RunProcessDto) : List String :=
  assignedNodes env (initiatedWorld env world body) body.nodeIds

/-- The world after an inadmissible body. -/
def inadmissibleWorld (env : Environment) (world : World)
    (body : RunProcessDto) : World :=
  let observed := (initiatedWorld env world body).log env
    "anomaly_detected" "processing"
    ("process " ++ body.processId ++ " inadmissible — rejected")
  observed.withLedger observed.ledgerRow

variable (env) in
theorem returned_runProcess_of_inadmissible {body : RunProcessDto}
    (settled : world.Settled) (inadmissible : body.admissible = false) :
    run (machine env) (runProcess env body) world =
      (.returned ⟨body.processId, 0, some .inadmissible, 0, 0,
          supplyOf (initiatedWorld env world body),
          indexOf env (initiatedWorld env world body), [],
          ["initiation"]⟩,
        inadmissibleWorld env world body) := by
  have observed : ((initiatedWorld env world body).log env
      "anomaly_detected" "processing" ("process " ++ body.processId ++
        " inadmissible — rejected")).Settled :=
    settled
  refine Eq.trans ?_ (run_terminate_eq env observed body.processId 0
    .inadmissible 0 0 [] ["initiation"])
  simp only [runProcess, inadmissible]
  rfl

variable (env) in
theorem answer_runProcess_of_inadmissible {body : RunProcessDto}
    (settled : world.Settled) (inadmissible : body.admissible = false) :
    ∃ supplyAfter reserveIndex,
      run (machine env) (runProcess env body) world =
        (.returned ⟨body.processId, 0, some .inadmissible, 0, 0,
            supplyAfter, reserveIndex, [], ["initiation"]⟩,
          inadmissibleWorld env world body) :=
  ⟨_, _, returned_runProcess_of_inadmissible env settled inadmissible⟩

private theorem run_runProcess_of_admissible {body : RunProcessDto}
    (admissible : body.admissible = true) :
    run (machine env) (runProcess env body) world =
      run (machine env) (do
        let (assignedNodes, verdict) ←
          executeAndVerify env body.processId body.nodeIds
        if verdict.verified ≠ 1 then
          rejectUnverified env body.processId assignedNodes
        else
          settle env body.processId body.amount
            (body.epoch.getD defaultEpoch) assignedNodes)
        (initiatedWorld env world body) := by
  rw [runProcess]
  simp only [admissible, Bool.not_true, Bool.false_eq_true, if_false]
  rw [run_bind_of_returned (StateRecording.run_capture env _ _ _ _),
    run_bind_of_returned (AllSeeingEye.run_log _ _ _)]
  rfl

theorem run_executeAndVerify_body {body : RunProcessDto}
    (registered : Registered world body.nodeIds) :
    run (machine env)
        (executeAndVerify env body.processId body.nodeIds)
        (initiatedWorld env world body) =
      (.returned (bodyNodes env world body,
          Pot.verifyResult env (requestedWorld env world body)
            body.processId),
        verdictWorld env world body) :=
  run_executeAndVerify registered
    (Pot.run_verify env (requestedWorld env world body) body.processId)

variable (env) in
theorem settled_verdictWorld (body : RunProcessDto) :
    (verdictWorld env world body).Settled ↔ world.Settled := by
  have requested :
      (requestedWorld env world body).Settled ↔ world.Settled :=
    settled_executedWorld _ _
  unfold verdictWorld Pot.verifyWorld
  split <;> exact requested

variable (env) in
/-- The first assigned node without a row stops the run. -/
theorem threw_runProcess_of_unregistered {body : RunProcessDto}
    (admissible : body.admissible = true) {id : String}
    (first : (bodyNodes env world body).find? (fun id =>
      ((rosterWorld env (initiatedWorld env world body)
        body.nodeIds).nodes.find? id).isNone) = some id) :
    run (machine env) (runProcess env body) world =
      (.threw (Nodes.notRegistered id),
        requestedWorld env world body) := by
  have worked : workOutcome
      (preparedWorld env (rosterWorld env (initiatedWorld env world body)
        body.nodeIds) body.processId (bodyNodes env world body))
      (bodyNodes env world body) = .threw (Nodes.notRegistered id) := by
    unfold workOutcome
    have same : (bodyNodes env world body).find? (fun id =>
        ((preparedWorld env (rosterWorld env
          (initiatedWorld env world body) body.nodeIds) body.processId
            (bodyNodes env world body)).nodes.find? id).isNone) =
          some id :=
      first
    rw [same]
  rw [run_runProcess_of_admissible admissible]
  apply run_bind_of_threw
  rw [executeAndVerify,
    run_bind_of_returned (run_resolveAssignedNodes body.nodeIds),
    run_bind_of_returned (StateRecording.run_capture env _ _ _ _),
    run_bind_of_returned (AllSeeingEye.run_log _ _ _),
    run_bind_of_returned (StateRecording.run_capture env _ _ _ _),
    run_bind_of_returned (StateRecording.run_capture env _ _ _ _)]
  apply run_bind_of_threw
  rw [run_recordExecutions]
  exact congrArg (fun outcome => (outcome, _)) worked

variable (env) in
theorem run_runProcess_of_unregistered {body : RunProcessDto}
    (admissible : body.admissible = true)
    (unregistered : ¬ Registered world body.nodeIds) :
    ∃ id, run (machine env) (runProcess env body) world =
      (.threw (Nodes.notRegistered id),
        requestedWorld env world body) := by
  obtain ⟨id, threw⟩ :=
    run_executeAndVerify_of_unregistered env
      (initiatedWorld env world body) body.processId unregistered
  refine ⟨id, ?_⟩
  rw [run_runProcess_of_admissible admissible]
  exact run_bind_of_threw threw

variable (env) in
theorem answer_runProcess_of_unverified {body : RunProcessDto}
    (settled : world.Settled) (admissible : body.admissible = true)
    (registered : Registered world body.nodeIds)
    (unverified : (verdictOn env world body).verified ≠ 1) :
    ∃ supplyAfter reserveIndex,
      run (machine env) (runProcess env body) world =
        (.returned ⟨body.processId, 0, some .unverified, 0, 0,
            supplyAfter, reserveIndex, bodyNodes env world body,
            eventsToVerdict ++ ["final_status"]⟩,
          rejectedWorld env (verdictWorld env world body)
            body.processId) := by
  obtain ⟨supplyAfter, reserveIndex, rejected⟩ :=
    run_rejectUnverified env
      ((settled_verdictWorld env body).mpr settled)
      body.processId (bodyNodes env world body)
  refine ⟨supplyAfter, reserveIndex, Eq.trans ?_ rejected⟩
  rw [run_runProcess_of_admissible admissible,
    run_bind_of_returned (run_executeAndVerify_body registered)]
  exact congrArg (run (machine env) · (verdictWorld env world body))
    (if_pos unverified)

theorem authorizes_verdictWorld {body : RunProcessDto}
    (verified : (verdictOn env world body).verified = 1) :
    Emission.authorizes ((verdictWorld env world body).verdicts.find?
      body.processId) = true := by
  have stored : (verdictWorld env world body).verdicts.find?
      body.processId = some (verdictOn env world body) := by
    refine (congrArg (Keyed.Table.find? · body.processId)
      (Pot.verdicts_verifyWorld env (requestedWorld env world body)
        body.processId)).trans ?_
    rw [Keyed.Table.find?_save,
      if_pos (Pot.verdictRow_processId env _ _)]
    rfl
  simpa [Emission.authorizes, stored] using verified

variable (env) in
theorem returned_runProcess_of_verified {body : RunProcessDto}
    (settled : world.Settled) (admissible : body.admissible = true)
    (registered : Registered world body.nodeIds)
    (verified : (verdictOn env world body).verified = 1) :
    run (machine env) (runProcess env body) world =
      let epoch := body.epoch.getD defaultEpoch
      let nodes := bodyNodes env world body
      let judged := verdictWorld env world body
      let after := settledWorld env judged body.processId body.amount
        epoch nodes
      (.returned ⟨body.processId, 1, none, body.amount,
          Commission.computeFee body.amount, supplyOf after,
          indexOf env (balancedWorld env
            (emittedWorld env judged body.processId body.amount)
            body.processId body.amount epoch nodes),
          nodes, eventsToVerdict ++ ["emission.minted", "emission",
            "emission.burned", "final_status"]⟩,
        after) := by
  have emitted :=
    run_settle_eq env ((settled_verdictWorld env body).mpr settled)
      (authorizes_verdictWorld verified)
      body.amount (body.epoch.getD defaultEpoch)
      (bodyNodes env world body)
  refine Eq.trans ?_ emitted
  rw [run_runProcess_of_admissible admissible,
    run_bind_of_returned (run_executeAndVerify_body registered)]
  exact congrArg (run (machine env) · (verdictWorld env world body))
    (if_neg (not_not_intro verified))

variable (env) in
theorem answer_runProcess_of_verified {body : RunProcessDto}
    (settled : world.Settled) (admissible : body.admissible = true)
    (registered : Registered world body.nodeIds)
    (verified : (verdictOn env world body).verified = 1) :
    ∃ supplyAfter reserveIndex,
      run (machine env) (runProcess env body) world =
        (.returned ⟨body.processId, 1, none, body.amount,
            Commission.computeFee body.amount, supplyAfter, reserveIndex,
            bodyNodes env world body,
            eventsToVerdict ++ ["emission.minted", "emission",
              "emission.burned", "final_status"]⟩,
          settledWorld env (verdictWorld env world body) body.processId
            body.amount (body.epoch.getD defaultEpoch)
            (bodyNodes env world body)) :=
  ⟨_, _, returned_runProcess_of_verified env settled admissible registered
    verified⟩

/-- The first process of `servedWorld` is answered. -/
theorem exists_returned_servedWorld :
    ∃ result, run (machine .plain)
      (runProcess .plain (transferBody "p-0" none)) .initial =
        (.returned result, servedWorld) := by
  obtain ⟨_, _, answered⟩ := answer_runProcess_of_verified .plain
    World.settled_initial
    (rfl : (transferBody "p-0" none).admissible = true)
    (by decide +kernel) (by decide +kernel)
  exact ⟨_, answered.trans
    (Prod.ext rfl (congrArg Prod.snd answered).symm)⟩

/-- The description of a distribution. -/
def distributionText (env : Environment) (epoch : ℚ)
    (result : FinalizeResult) : String :=
  "epoch " ++ env.numberText epoch ++ ": paid " ++
    env.numberText result.paid ++ ", margin " ++
    env.numberText result.operationalMargin ++ ", reconciled=" ++
    toString result.reconciled

/-- The world after the answer of a finalization. -/
def reportedWorld (env : Environment) (world : World) (epoch : ℚ)
    (result : FinalizeResult) : World :=
  observedWorld env (world.log env "commission_distribution"
    "token_management" (distributionText env epoch result))

theorem run_finalizeEpoch_of_threw {epoch : ℚ} {reason : ServiceError}
    {after : World}
    (threw : run (machine env) (Commission.finalizeEpoch env epoch)
      world = (.threw reason, after)) :
    run (machine env) (finalizeEpoch env epoch) world =
      (.threw reason, after) := by
  rw [finalizeEpoch, run_bind_of_threw threw]

theorem run_finalizeEpoch_of_returned {epoch : ℚ}
    {result : FinalizeResult} {after : World} (settled : after.Settled)
    (returned : run (machine env) (Commission.finalizeEpoch env epoch)
      world = (.returned result, after)) :
    run (machine env) (finalizeEpoch env epoch) world =
      (.returned result, reportedWorld env after epoch result) := by
  have logged : (after.log env "commission_distribution"
      "token_management" (distributionText env epoch result)).Settled :=
    settled
  rw [finalizeEpoch, run_bind_of_returned returned,
    run_bind_of_returned (AllSeeingEye.run_log _ _ _)]
  refine (run_bind_of_returned
    (ArosCoin.run_supplyView logged)).trans ?_
  rw [run_bind_of_returned (AllSeeingEye.run_compareSupply _)]
  rfl

variable (env world) in
theorem run_getProcess (processId : String) :
    ∃ result, run (machine env) (getProcess processId) world =
      (.returned result, world) :=
  ⟨_, rfl⟩

variable (env) in
theorem run_metrics_eq (settled : world.Settled) (epoch : ℚ) :
    run (machine env) (metrics env epoch) world =
      (.returned
          { totalSupply := supplyOf world
            earnedRetained := world.ledgerRow.earnedRetained
            reserveIndex := indexOf env world
            verifiedProcessCount :=
              (world.verdicts.rows.filter fun row =>
                row.verified = 1).length
            currentEpoch := epoch
            epochPool := ((world.epochs.find? epoch).map
              Epoch.totalFees).getD 0
            nodeChainLength := world.history.length
            releaseActive :=
              (world.phase.getD ReleasePhase.inactive).active },
        Release.phasedWorld (world.withLedger world.ledgerRow)) := by
  have again :
      (world.withLedger world.ledgerRow).Settled :=
    World.settled_withLedger _ _
  rw [metrics, run_bind_of_returned (ArosCoin.run_totalSupply settled),
    run_bind_of_returned (ArosCoin.run_retained again),
    run_bind_of_returned (Reserve.run_reserveIndex env _),
    run_bind_of_returned (show run (machine env) Pot.list _ = _ from rfl)]
  refine (run_bind_of_returned
    (run_findEpoch env (world.withLedger world.ledgerRow) epoch)).trans ?_
  rw [run_bind_of_returned (run_listSnapshots env _)]
  exact run_bind_of_returned Release.run_isActive

variable (env) in
theorem run_metrics (settled : world.Settled) (epoch : ℚ) :
    ∃ result, run (machine env) (metrics env epoch) world =
      (.returned result,
        Release.phasedWorld (world.withLedger world.ledgerRow)) :=
  ⟨_, run_metrics_eq env settled epoch⟩

end Whole

end Orchestrator

/-! ## Every way to answer a request -/

open Orchestrator

/-- How a request is answered when nothing else runs. -/
inductive Answers (env : Environment) (world : World) :
    Request → Await.Outcome ServiceError Response → World → Prop
  | inadmissible {body : RunProcessDto} (supplyAfter reserveIndex : ℚ)
      (inadmissible : body.admissible = false) :
      Answers env world (.runProcess body)
        (.returned (.run ⟨body.processId, 0, some .inadmissible, 0, 0,
          supplyAfter, reserveIndex, [], ["initiation"]⟩))
        (inadmissibleWorld env world body)
  | unregistered {body : RunProcessDto} (id : String)
      (admissible : body.admissible = true)
      (unregistered : ¬ Registered world body.nodeIds) :
      Answers env world (.runProcess body)
        (.threw (Nodes.notRegistered id)) (requestedWorld env world body)
  | unverified {body : RunProcessDto} (supplyAfter reserveIndex : ℚ)
      (admissible : body.admissible = true)
      (registered : Registered world body.nodeIds)
      (unverified : (verdictOn env world body).verified ≠ 1) :
      Answers env world (.runProcess body)
        (.returned (.run ⟨body.processId, 0, some .unverified, 0, 0,
          supplyAfter, reserveIndex, bodyNodes env world body,
          eventsToVerdict ++ ["final_status"]⟩))
        (rejectedWorld env (verdictWorld env world body) body.processId)
  | verified {body : RunProcessDto} (supplyAfter reserveIndex : ℚ)
      (admissible : body.admissible = true)
      (registered : Registered world body.nodeIds)
      (verified : (verdictOn env world body).verified = 1) :
      Answers env world (.runProcess body)
        (.returned (.run ⟨body.processId, 1, none, body.amount,
          Commission.computeFee body.amount, supplyAfter, reserveIndex,
          bodyNodes env world body,
          eventsToVerdict ++ ["emission.minted", "emission",
            "emission.burned", "final_status"]⟩))
        (settledWorld env (verdictWorld env world body) body.processId
          body.amount (body.epoch.getD defaultEpoch)
          (bodyNodes env world body))
  | missing {epoch : ℚ} (missing : world.epochs.find? epoch = none) :
      Answers env world (.finalizeEpoch epoch)
        (.threw (Commission.epochMissing env epoch)) world
  | closed {epoch : ℚ} (row : Epoch)
      (found : world.epochs.find? epoch = some row)
      (closed : row.status ≠ .opened) :
      Answers env world (.finalizeEpoch epoch)
        (.returned (.finalized (Commission.toResult row)))
        (reportedWorld env world epoch (Commission.toResult row))
  | unpayable {epoch : ℚ} (row : Epoch) (id : String)
      (found : world.epochs.find? epoch = some row)
      (isOpen : row.status = .opened)
      (weighed : Commission.weigh world (world.participations epoch) [] =
        .error id) :
      Answers env world (.finalizeEpoch epoch)
        (.threw (Nodes.notRegistered id)) world
  | distributed {epoch : ℚ} (row : Epoch) (weights : Commission.Weights)
      (found : world.epochs.find? epoch = some row)
      (isOpen : row.status = .opened)
      (weighed : Commission.weigh world (world.participations epoch) [] =
        .ok weights) :
      Answers env world (.finalizeEpoch epoch)
        (.returned (.finalized
          (Commission.finalizedResult row epoch weights)))
        (reportedWorld env
          (Commission.finalizedWorld env world row epoch weights) epoch
          (Commission.finalizedResult row epoch weights))
  | metrics {epoch : ℚ} (result : MetricsSnapshot) :
      Answers env world (.metrics epoch) (.returned (.metrics result))
        (Release.phasedWorld (world.withLedger world.ledgerRow))
  | process {processId : String} (result : ProcessView) :
      Answers env world (.getProcess processId)
        (.returned (.process result)) world

namespace Request

open Await

variable {env : Environment} {world : World}

theorem handle_of_returned {result answer : Type}
    {program : Service result} {value : result} {after : World}
    (wrap : result → answer)
    (returned : run (machine env) program world =
      (.returned value, after)) :
    run (machine env) (do let value ← program; return wrap value) world =
      (.returned (wrap value), after) := by
  rw [run_bind_of_returned returned, run_pure]

theorem handle_of_threw {result answer : Type}
    {program : Service result} {reason : ServiceError} {after : World}
    (wrap : result → answer)
    (threw : run (machine env) program world = (.threw reason, after)) :
    run (machine env) (do let value ← program; return wrap value) world =
      (.threw reason, after) :=
  run_bind_of_threw threw

private theorem answers_runProcess (settled : world.Settled)
    (body : RunProcessDto) :
    ∃ outcome after,
      (runProcess body).handle env world = (outcome, after) ∧
        Answers env world (.runProcess body) outcome after := by
  rcases Bool.eq_false_or_eq_true body.admissible with
    admissible | inadmissible
  · by_cases registered : Registered world body.nodeIds
    · by_cases verified : (verdictOn env world body).verified = 1
      · obtain ⟨supplyAfter, reserveIndex, returned⟩ :=
          answer_runProcess_of_verified env settled admissible registered
            verified
        exact ⟨_, _, handle_of_returned Response.run returned,
          .verified supplyAfter reserveIndex admissible registered
            verified⟩
      · obtain ⟨supplyAfter, reserveIndex, returned⟩ :=
          answer_runProcess_of_unverified env settled admissible
            registered verified
        exact ⟨_, _, handle_of_returned Response.run returned,
          .unverified supplyAfter reserveIndex admissible registered
            verified⟩
    · obtain ⟨id, threw⟩ :=
        run_runProcess_of_unregistered env admissible registered
      exact ⟨_, _, handle_of_threw Response.run threw,
        .unregistered id admissible registered⟩
  · obtain ⟨supplyAfter, reserveIndex, returned⟩ :=
      answer_runProcess_of_inadmissible env settled inadmissible
    exact ⟨_, _, handle_of_returned Response.run returned,
      .inadmissible supplyAfter reserveIndex inadmissible⟩

private theorem answers_finalizeEpoch (settled : world.Settled)
    (epoch : ℚ) :
    ∃ outcome after,
      (finalizeEpoch epoch).handle env world = (outcome, after) ∧
        Answers env world (.finalizeEpoch epoch) outcome after := by
  cases found : world.epochs.find? epoch with
  | none =>
      exact ⟨_, _, handle_of_threw Response.finalized
        (run_finalizeEpoch_of_threw
          (Commission.run_finalizeEpoch_of_none env found)),
        .missing found⟩
  | some row =>
      by_cases isOpen : row.status = .opened
      · cases weighed : Commission.weigh world
            (world.participations epoch) [] with
        | error id =>
            exact ⟨_, _, handle_of_threw Response.finalized
              (run_finalizeEpoch_of_threw
                (Commission.run_finalizeEpoch_of_error env found isOpen
                  weighed)),
              .unpayable row id found isOpen weighed⟩
        | ok weights =>
            have finalized : (Commission.finalizedWorld env world row
                epoch weights).Settled :=
              Commission.settled_payWorld settled _
            exact ⟨_, _, handle_of_returned Response.finalized
              (run_finalizeEpoch_of_returned finalized
                (Commission.run_finalizeEpoch_of_ok env settled found
                  isOpen weighed)),
              .distributed row weights found isOpen weighed⟩
      · exact ⟨_, _, handle_of_returned Response.finalized
          (run_finalizeEpoch_of_returned settled
            (Commission.run_finalizeEpoch_of_closed env found isOpen)),
          .closed row found isOpen⟩

/-- A request is answered in one of these ways. -/
theorem answers (settled : world.Settled) (request : Request) :
    Answers env world request (request.handle env world).1
      (request.handle env world).2 := by
  have answered : ∃ outcome after,
      request.handle env world = (outcome, after) ∧
        Answers env world request outcome after := by
    cases request with
    | runProcess body =>
        exact answers_runProcess settled body
    | finalizeEpoch epoch =>
        exact answers_finalizeEpoch settled epoch
    | metrics epoch =>
        obtain ⟨result, returned⟩ := run_metrics env settled epoch
        exact ⟨_, _, handle_of_returned Response.metrics returned,
          .metrics result⟩
    | getProcess processId =>
        obtain ⟨result, returned⟩ := run_getProcess env world processId
        exact ⟨_, _, handle_of_returned Response.process returned,
          .process result⟩
  obtain ⟨outcome, after, handled, answers⟩ := answered
  rw [handled]
  exact answers

end Request

end ArosParadigm
