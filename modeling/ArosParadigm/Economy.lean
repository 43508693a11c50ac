import ArosParadigm.Library.Mealy
import ArosParadigm.Settlement

/-!
# The economy of the endpoints

What the two controllers are for, seen from their callers: a machine without
weights, reputations, hashes, clocks or ledgers. Every admissible process of
registered nodes is confirmed, every epoch pays three quarters of its fees to
its participants, each as often as it took part, and the rest is the reserve's.
-/

namespace ArosParadigm

open Await

/-- What a caller is shown: the answers without times. -/
inductive Reply where
  | run (result : RunProcessResult)
  | finalized (result : FinalizeResult)
  | metrics (result : MetricsSnapshot)
  | process (processId : String) (verdict : Option (Fin 2 × List String))
      (events : List (String × ℕ))
  deriving DecidableEq

/-- An answer without times. -/
def Response.reply : Response → Reply
  | .run result => .run result
  | .finalized result => .finalized result
  | .metrics result => .metrics result
  | .process view => .process view.processId view.verdict
      (view.events.map fun event => (event.eventType, event.sequenceId))

/-- How a request ends, without times. -/
def replyOf : Outcome ServiceError Response → Outcome ServiceError Reply
  | .returned response => .returned response.reply
  | .threw reason => .threw reason
  | .blocked => .blocked

@[ext]
structure Economy where
  /-- The registered nodes. -/
  roster : List String
  /-- The confirmed processes. -/
  approved : List String
  epochs : ℚ → Option EpochFigures
  /-- The node of every participation. -/
  shares : ℚ → Multiset String
  retained : ℚ
  volume : ℚ
  /-- The type and the process of every snapshot. -/
  chain : List (String × Option String)

namespace Economy

variable (env : Environment)

/-- Nothing has happened. -/
def initial : Economy where
  roster := []
  approved := []
  epochs := fun _ => none
  shares := fun _ => 0
  retained := 0
  volume := 0
  chain := []

/-- Snapshots of a process. -/
def record (economy : Economy) (processId : String)
    (eventTypes : List String) : Economy :=
  { economy with
    chain := economy.chain ++ eventTypes.map fun eventType =>
      (eventType, some processId) }

/-- Snapshots without a process. -/
def note (economy : Economy) (eventTypes : List String) : Economy :=
  { economy with
    chain := economy.chain ++ eventTypes.map fun eventType =>
      (eventType, none) }

/-- The body names its nodes. -/
def isExplicit : Option (List String) → Bool
  | some (_ :: _) => true
  | _ => false

/-- The registered nodes, and the default ones where a body needs them. -/
def staff (economy : Economy) (explicit : Option (List String)) : Economy :=
  if !isExplicit explicit ∧ economy.roster = [] then
    { economy with
      roster := Orchestrator.defaultNodes.map Prod.fst }.note
        (Orchestrator.defaultNodes.map fun _ => "node.registered")
  else
    economy

def assigned (economy : Economy) : Option (List String) → List String
  | some (first :: rest) => first :: rest
  | _ => economy.roster

def index (economy : Economy) : ℚ :=
  env.log10 (1 + economy.volume)

/-- Confirm a process: its verdict, its value, its fee, its participations. -/
def confirm (economy : Economy) (body : RunProcessDto)
    (nodes : List String) : Economy :=
  let epoch := Accounts.epochOf body
  let isNew := body.processId ∉ economy.approved
  { economy.record body.processId
      ((if isNew then ["pot.verified"] else []) ++
        ["pot_verdict", "emission.minted", "emission", "emission.burned",
          "final_status"]) with
    approved :=
      if isNew then economy.approved ++ [body.processId]
      else economy.approved
    epochs := Function.update economy.epochs epoch
      (some (Accounts.accrued (economy.epochs epoch)
        (body.amount * Commission.feeRate)))
    shares := Function.update economy.shares epoch
      (economy.shares epoch + nodes)
    volume := economy.volume + body.amount }

/-- A process as far as its execution. -/
def execute (economy : Economy) (body : RunProcessDto) : Economy :=
  ((economy.record body.processId ["initiation"]).staff
    body.nodeIds).record body.processId
      ["task_assignment", "stage_transition", "execution_complete"]

/-- Answer `runProcess`. -/
def serve (economy : Economy) (body : RunProcessDto) :
    Outcome ServiceError Reply × Economy :=
  if body.admissible then
    let executed := economy.execute body
    let nodes := executed.assigned body.nodeIds
    match nodes.find? fun nodeId => nodeId ∉ executed.roster with
    | some nodeId => (.threw (Nodes.notRegistered nodeId), executed)
    | none =>
        let confirmed := executed.confirm body nodes
        (.returned (.run ⟨body.processId, 1, none, body.amount,
            body.amount * Commission.feeRate, confirmed.retained,
            confirmed.index env, nodes,
            Orchestrator.eventsToVerdict ++ ["emission.minted", "emission",
              "emission.burned", "final_status"]⟩),
          confirmed)
  else
    let initiated := economy.record body.processId ["initiation"]
    (.returned (.run ⟨body.processId, 0, some .inadmissible, 0, 0,
        initiated.retained, initiated.index env, [], ["initiation"]⟩),
      initiated)

/-- What the participants of an epoch are paid. -/
def payments (shares : Multiset String) (total : ℚ) :
    List DistributionEntry :=
  (shares.toFinset.sort Commission.ByCodeUnits).map fun nodeId =>
    ⟨nodeId, (shares.count nodeId : ℚ) / shares.card * (total * (3 / 4)),
      Commission.reasonWork⟩

def distribution (shares : Multiset String) (total : ℚ) :
    List DistributionEntry :=
  payments shares total ++
    [⟨Commission.marginRecipient, total / 4, Commission.reasonMargin⟩]

/-- Pay out an open epoch. -/
def close (economy : Economy) (epoch : ℚ) (figures : EpochFigures) :
    Economy :=
  let shares := economy.shares epoch
  let total := figures.totalFees
  { economy.note ((payments shares total).map (fun _ =>
      "node.payment.received") ++
        ["reserve.afc.accrual", "commission.epoch.finalized"]) with
    epochs := Function.update economy.epochs epoch (some
      { figures with
        status := .finalized
        operationalMargin := total / 4
        distributionLog := distribution shares total })
    shares := Function.update economy.shares epoch 0
    retained := economy.retained + total * (3 / 4)
    volume := economy.volume + total / 4 }

/-- What is answered for an epoch that is not open. -/
def report (epoch : ℚ) (figures : EpochFigures) : FinalizeResult :=
  let paid :=
    ((figures.distributionLog.filter fun entry =>
      entry.reason ≠ Commission.reasonMargin).map
        DistributionEntry.amount).sum
  { epochNumber := epoch
    distributionLog := figures.distributionLog
    operationalMargin := figures.operationalMargin
    paid := paid
    totalFees := figures.totalFees
    reconciled := Commission.isReconciled paid figures.operationalMargin
      figures.totalFees }

/-- Answer `finalizeEpoch`. -/
def finalize (economy : Economy) (epoch : ℚ) :
    Outcome ServiceError Reply × Economy :=
  match economy.epochs epoch with
  | none => (.threw (Commission.epochMissing env epoch), economy)
  | some figures =>
      if figures.status = .opened then
        let total := figures.totalFees
        (.returned (.finalized ⟨epoch,
            distribution (economy.shares epoch) total, total / 4,
            total * (3 / 4), total, true⟩),
          economy.close epoch figures)
      else
        (.returned (.finalized (report epoch figures)), economy)

/-- Answer `metrics`. -/
def measure (economy : Economy) (epoch : ℚ) : MetricsSnapshot where
  totalSupply := economy.retained
  earnedRetained := economy.retained
  reserveIndex := economy.index env
  verifiedProcessCount := economy.approved.length
  currentEpoch := epoch
  epochPool := ((economy.epochs epoch).map EpochFigures.totalFees).getD 0
  nodeChainLength := economy.chain.length
  releaseActive := false

/-- The snapshots of a process, numbered from 1 along the chain. -/
def eventsOf (economy : Economy) (processId : String) :
    List (String × ℕ) :=
  (economy.chain.zipIdx 1).filterMap fun entry =>
    if entry.1.2 = some processId then some (entry.1.1, entry.2) else none

/-- Answer `getProcess`. -/
def present (economy : Economy) (processId : String) : Reply :=
  .process processId
    (if processId ∈ economy.approved then some (1, []) else none)
    (economy.eventsOf processId)

def answer (economy : Economy) :
    Request → Outcome ServiceError Reply × Economy
  | .runProcess body => economy.serve env body
  | .finalizeEpoch epoch => economy.finalize env epoch
  | .metrics epoch =>
      (.returned (.metrics (economy.measure env epoch)), economy)
  | .getProcess processId =>
      (.returned (economy.present processId), economy)

def machine : Mealy.Machine Economy Request (Outcome ServiceError Reply) :=
  ⟨answer env⟩

end Economy

end ArosParadigm
