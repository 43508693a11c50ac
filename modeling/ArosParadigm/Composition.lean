import ArosParadigm.Deployment
import ArosParadigm.Footprint

/-!
# How the public methods are put together

Every public method is a sequence of calls that anybody may make at any time,
of reads of the ledger row, and of the few methods that write a record under a
condition of their own. What holds of these parts and is kept by sequencing
holds of every method.
-/

namespace ArosParadigm

open Await

/-- The payloads that only one method appends, each under its condition. -/
def Payload.IsOwned : Payload → Prop
  | potVerified .. => True
  | emissionMinted .. => True
  | epochFinalized .. => True
  | releaseActivated .. => True
  | _ => False

/-- The alarm that `verifyChain` raises about NodeChain. -/
def IsChainAlarm (eventType layer : String) : Prop :=
  eventType = "anomaly_detected" ∧ layer = "ledger_anchoring"

/-- The calls that anybody may make at any time. -/
def Call.IsFree : Call → Prop
  | .append _ payload => ¬ payload.IsOwned
  | .saveVerdict _ => False
  | .saveEpoch _ => False
  | .saveNode row => ∃ id type, row = Nodes.freshNode id type
  | .savePhase row => row = .inactive
  | .logOversight eventType layer _ => ¬ IsChainAlarm eventType layer
  | .markCaptured .. => False
  | .claimInitialization => False
  | .settleInitialization _ => False
  | .awaitInitialization => False
  | _ => True

variable (env : Environment) (sent : Call → Prop)

/-- A method made of free calls, of calls that the caller has sent as they
are, of reads of the ledger row, and of the methods with a condition. -/
inductive Assembled : {result : Type} → Service result → Prop
  | pure {result : Type} (value : result) :
      Assembled (Pure.pure value : Service result)
  | fail {result : Type} (reason : ServiceError)
      (thrown : reason ≠ .tooManyLateEntries) :
      Assembled (Program.fail reason : Service result)
  | ask {request : Call} (isFree : request.IsFree) :
      Assembled (ArosParadigm.ask request)
  | passed {request : Call} (isSent : sent request) :
      Assembled (ask request)
  | ledger : Assembled ArosCoin.ledger
  | capture (processId eventType : String) (data : Json.JsObject ℚ)
      (validatorId : Option String) :
      Assembled (StateRecording.capture processId eventType data
        validatorId)
  | verify (processId : String) : Assembled (Pot.verify env processId)
  | mint (processId : String) (amount : ℚ) :
      Assembled (Emission.mint processId amount)
  | recordExecution (id : String) (success : Bool) :
      Assembled (Nodes.recordExecution id success)
  | accrue (epochNumber fee : ℚ) (participants : List Participation) :
      Assembled (Commission.accrue epochNumber fee participants)
  | payEpoch (epochNumber : ℚ) :
      Assembled (Commission.finalizeEpoch env epochNumber)
  | activate (threshold target processVolume24h : ℚ) :
      Assembled (Release.activate env threshold target processVolume24h)
  | verifyChain : Assembled (AllSeeingEye.verifyChain env)
  | bind {first second : Type} {program : Service first}
      {continuation : first → Service second}
      (begins : Assembled program)
      (continues : ∀ value, Assembled (continuation value)) :
      Assembled (program >>= continuation)

namespace Assembled

variable {env sent}

/-- A free call and what follows it. -/
theorem ask_bind {request : Call} {result : Type}
    {continuation : request.Reply → Service result}
    (isFree : request.IsFree)
    (continues : ∀ reply, Assembled env sent (continuation reply)) :
    Assembled env sent (ArosParadigm.ask request >>= continuation) :=
  .bind (.ask isFree) continues

/-- A figure read off the ledger row. -/
theorem figure {result : Type} (read : ArosCoinLedger → result) :
    Assembled env sent
      (ArosCoin.ledger >>= fun row => Pure.pure (read row)) :=
  .bind .ledger fun _ => .pure _

/-- A change of the ledger row. -/
theorem update (change : ArosCoinLedger → ArosCoinLedger) :
    Assembled env sent (ArosCoin.ledger >>= fun row =>
      ArosParadigm.ask (.saveLedger (change row))) :=
  .bind .ledger fun _ => .ask trivial

theorem reconstruct : Assembled env sent (Pot.reconstruct env) :=
  .ask_bind trivial fun _ => .pure _

/-- An entry of an event other than an anomaly. -/
theorem log {eventType : String} (layer description : String)
    (ordinary : eventType ≠ "anomaly_detected") :
    Assembled env sent (AllSeeingEye.log eventType layer description) :=
  .ask fun isAlarm => ordinary isAlarm.1

/-- An anomaly of a layer other than the ledgers. -/
theorem anomaly {layer : String} (description : String)
    (elsewhere : layer ≠ "ledger_anchoring") :
    Assembled env sent
      (AllSeeingEye.log "anomaly_detected" layer description) :=
  .ask fun isAlarm => elsewhere isAlarm.2

theorem requireNode (id : String) :
    Assembled env sent (Nodes.requireNode id) := by
  refine .ask_bind trivial fun node => ?_
  cases node with
  | some row =>
      exact .pure _
  | none =>
      exact .fail _ nofun

theorem register (id type : String) :
    Assembled env sent (Nodes.register id type) :=
  .ask_bind ⟨id, type, rfl⟩ fun _ => .ask_bind not_false fun _ => .pure _

theorem currentWeight (id : String) :
    Assembled env sent (Nodes.currentWeight id) :=
  .bind (.requireNode id) fun _ => .pure _

theorem receivePayment (id : String) (amount : ℚ) :
    Assembled env sent (Nodes.receivePayment id amount) :=
  .bind (.requireNode id) fun _ => .ask_bind not_false fun _ => .pure _

theorem reserveIndex : Assembled env sent (Reserve.reserveIndex env) :=
  .bind (.ask_bind trivial fun _ => .pure _) fun _ => .pure _

theorem totalSupply : Assembled env sent ArosCoin.totalSupply :=
  .figure _

theorem supplyView : Assembled env sent ArosCoin.supplyView :=
  .figure _

theorem compareSupply (observed : SupplyView) :
    Assembled env sent (AllSeeingEye.compareSupply env observed) := by
  by_cases consistent : observed.totalSupply = observed.retained
  · simp only [AllSeeingEye.compareSupply, consistent, decide_true,
      Bool.not_true, Bool.false_eq_true, if_false]
    exact .pure _
  · simp only [AllSeeingEye.compareSupply, consistent, decide_false,
      Bool.not_false, if_true]
    exact .bind (.anomaly _ (by decide)) fun _ => .pure _

theorem burn (processId : String) (amount : ℚ) :
    Assembled env sent (Emission.burn processId amount) :=
  .bind (.update _) fun _ => .ask_bind not_false fun _ => .pure _

theorem emit (processId : String) (amount : ℚ) :
    Assembled env sent (Emission.emit processId amount) := by
  refine .ask_bind trivial fun verdict => ?_
  cases Emission.authorizes verdict with
  | true =>
      exact .bind (.mint _ _) fun _ => .bind (.burn _ _) fun _ => .pure _
  | false =>
      exact .pure _

theorem registerNodes (roster : List (String × String)) :
    Assembled env sent (Orchestrator.registerNodes roster) := by
  induction roster with
  | nil =>
      exact .pure _
  | cons node rest inductionHypothesis =>
      exact .bind (.register node.1 node.2) fun _ => inductionHypothesis

theorem resolveAssignedNodes (explicit : Option (List String)) :
    Assembled env sent (Orchestrator.resolveAssignedNodes explicit) := by
  have registered :
      Assembled env sent Orchestrator.registeredNodes := by
    refine .ask_bind trivial fun nodes => ?_
    by_cases isEmpty : nodes = []
    · rw [if_pos isEmpty]
      exact .bind (.registerNodes _) fun _ => .ask trivial
    · rw [if_neg isEmpty]
      exact .pure _
  rcases explicit with _ | _ | ⟨first, rest⟩
  · exact .bind registered fun _ => .pure _
  · exact .bind registered fun _ => .pure _
  · exact .pure _

theorem recordExecutions (ids : List String) :
    Assembled env sent (Orchestrator.recordExecutions ids) := by
  induction ids with
  | nil =>
      exact .pure _
  | cons id rest inductionHypothesis =>
      exact .bind (.recordExecution id true) fun _ => inductionHypothesis

theorem executeAndVerify (processId : String)
    (nodeIds : Option (List String)) :
    Assembled env sent
      (Orchestrator.executeAndVerify env processId nodeIds) := by
  refine .bind (.resolveAssignedNodes nodeIds) fun nodes => ?_
  refine .bind (.capture _ _ _ _) fun _ => ?_
  refine .bind (.log _ _ (by decide)) fun _ => ?_
  refine .bind (.capture _ _ _ _) fun _ => ?_
  refine .bind (.capture _ _ _ _) fun _ => ?_
  refine .bind (.recordExecutions nodes) fun _ => ?_
  refine .bind (.verify processId) fun verdict => ?_
  refine .bind (.capture _ _ _ _) fun _ => ?_
  exact .bind (.log _ _ (by decide)) fun _ => .pure _

theorem rejectUnverified (processId : String) (nodes : List String) :
    Assembled env sent
      (Orchestrator.rejectUnverified env processId nodes) := by
  refine .bind (.capture _ _ _ _) fun _ => ?_
  refine .bind .reserveIndex fun _ => ?_
  refine .bind .totalSupply fun _ => ?_
  refine .bind .supplyView fun view => ?_
  exact .bind (.compareSupply view) fun _ => .pure _

theorem settle (processId : String) (amount epoch : ℚ)
    (nodes : List String) :
    Assembled env sent
      (Orchestrator.settle env processId amount epoch nodes) := by
  refine .bind (.mint _ _) fun minted => ?_
  refine .bind (.capture _ _ _ _) fun _ => ?_
  refine .bind (.log _ _ (by decide)) fun _ => ?_
  refine .bind (.accrue _ _ _) fun _ => ?_
  refine .bind (.burn _ _) fun burned => ?_
  refine .bind (.log _ _ (by decide)) fun _ => ?_
  refine .bind .reserveIndex fun _ => ?_
  refine .bind (.capture _ _ _ _) fun _ => ?_
  refine .bind (.log _ _ (by decide)) fun _ => ?_
  refine .bind .supplyView fun view => ?_
  refine .bind (.compareSupply view) fun _ => ?_
  exact .bind .totalSupply fun _ => .pure _

theorem runProcess (input : RunProcessDto) :
    Assembled env sent (Orchestrator.runProcess env input) := by
  refine .bind (.capture _ _ _ _) fun _ => ?_
  refine .bind (.log _ _ (by decide)) fun _ => ?_
  cases input.admissible with
  | false =>
      refine .bind (.anomaly _ (by decide)) fun _ => ?_
      refine .bind .reserveIndex fun _ => ?_
      exact .bind .totalSupply fun _ => .pure _
  | true =>
      refine .bind (.executeAndVerify _ _) fun answer => ?_
      obtain ⟨nodes, verdict⟩ := answer
      dsimp only
      by_cases confirmed : verdict.verified = 1
      · rw [if_neg (not_not.mpr confirmed)]
        exact .settle _ _ _ _
      · rw [if_pos confirmed]
        exact .rejectUnverified _ _

theorem finalizeEpoch (epoch : ℚ) :
    Assembled env sent (Orchestrator.finalizeEpoch env epoch) := by
  refine .bind (.payEpoch epoch) fun result => ?_
  refine .bind (.log _ _ (by decide)) fun _ => ?_
  refine .bind .supplyView fun view => ?_
  exact .bind (.compareSupply view) fun _ => .pure _

theorem phase : Assembled env sent Release.phase := by
  refine .ask_bind trivial fun row => ?_
  cases row with
  | some existing =>
      exact .pure _
  | none =>
      exact .ask_bind rfl fun _ => .pure _

theorem isActive : Assembled env sent Release.isActive :=
  .bind .phase fun _ => .pure _

theorem metrics (epoch : ℚ) :
    Assembled env sent (Orchestrator.metrics env epoch) := by
  refine .bind .totalSupply fun _ => ?_
  refine .bind (.figure _) fun _ => ?_
  refine .bind .reserveIndex fun _ => ?_
  refine .ask_bind trivial fun _ => ?_
  refine .ask_bind trivial fun _ => ?_
  refine .ask_bind trivial fun _ => ?_
  exact .bind .isActive fun _ => .pure _

theorem getProcess (processId : String) :
    Assembled env sent (Orchestrator.getProcess processId) :=
  .ask_bind trivial fun _ => .ask_bind trivial fun _ => .pure _

theorem velocity (processVolume24h : ℚ) :
    Assembled env sent (Release.velocity processVolume24h) := by
  refine .bind .totalSupply fun circulatingSupply => ?_
  by_cases isEmpty : circulatingSupply ≤ 0
  · rw [if_pos isEmpty]
    exact .pure _
  · rw [if_neg isEmpty]
    exact .pure _

theorem check (threshold target volume : ℚ) :
    Assembled env sent (Release.check env threshold target volume) :=
  .bind .reserveIndex fun _ => .bind (.velocity _) fun _ => .pure _

end Assembled

/-! ## Weights -/

namespace Commission

/-- Whatever it reads, `confirmedWeights` lists every node once. -/
theorem nodup_confirmedWeights (env : Environment) (epochNumber : ℚ)
    (past : List (Exchange signature)) :
    Obeys (fun _ _ => True)
      (fun weights _ => (weights.map Prod.fst).Nodup)
      (confirmedWeights env epochNumber) past := by
  have loop : ∀ (reference rounds index : ℕ)
      (cache : List (String × Bool)) (weights : Weights)
      (past : List (Exchange signature)),
      (weights.map Prod.fst).Nodup →
        Obeys (fun _ _ => True)
          (fun weights _ => (weights.map Prod.fst).Nodup)
          (weightLoop reference rounds index cache weights) past := by
    intro reference rounds
    induction rounds with
    | zero =>
        exact fun _ _ _ _ _ => trivial
    | succ rounds inductionHypothesis =>
        intro index cache weights past unique
        refine .perform_bind trivial fun entry => ?_
        cases entry with
        | none =>
            exact unique
        | some entry =>
            refine (obeys_of_forall (fun _ _ => trivial)
              (confirmedVerdict cache entry.processId)).bind ?_
            rintro ⟨isConfirmed, nextCache⟩ later -
            cases isConfirmed with
            | false =>
                exact inductionHypothesis _ _ _ _ unique
            | true =>
                refine (obeys_of_forall (fun _ _ => trivial)
                  (Nodes.currentWeight entry.nodeId)).bind ?_
                rintro weight last -
                exact inductionHypothesis _ _ _ _
                  (Keyed.nodup_upsert Prod.fst _ unique)
  refine .perform_bind trivial fun array => ?_
  cases array with
  | none =>
      exact List.nodup_nil
  | some array =>
      exact loop _ _ _ _ _ _ List.nodup_nil

end Commission

/-- The calls that a caller sends as they are. -/
def PublicCall.Sends : PublicCall → Call → Prop
  | .inl (.append eventType payload) =>
      fun request => request = .append eventType payload
  | .inr (.log eventType layer description) =>
      fun request => request = .logOversight eventType layer description
  | _ => fun _ => False

/-- Every method is put together in this way. -/
theorem Method.assembled (method : Method) :
    Assembled env (PublicCall.Sends (.inl method))
      (method.handler env) := by
  cases method with
  | append eventType payload =>
      exact .passed rfl
  | latest =>
      exact .ask_bind trivial fun _ => .pure _
  | getBySequence sequenceId =>
      exact .ask_bind trivial fun _ => .pure _
  | listSnapshots =>
      exact .ask trivial
  | reconstruct =>
      exact .reconstruct
  | capture processId eventType data validatorId =>
      exact .capture _ _ _ _
  | record processId eventType data validatorId =>
      exact .capture _ _ _ _
  | capturedEvents processId =>
      exact .ask trivial
  | checkCompleteness processId =>
      exact .ask_bind trivial fun _ => .pure _
  | verify processId =>
      exact .verify _
  | getVerdict processId =>
      exact .ask trivial
  | listVerdicts =>
      exact .ask trivial
  | recordMint amount =>
      exact .update _
  | recordBurn amount =>
      exact .update _
  | recordEarned amount =>
      exact .update _
  | totalSupply =>
      exact .totalSupply
  | processNet =>
      exact .figure _
  | retained =>
      exact .figure _
  | supplySnapshot =>
      exact .bind .ledger fun _ => .ask_bind trivial fun _ => .pure _
  | supplyView =>
      exact .supplyView
  | mint processId amount =>
      exact .mint _ _
  | burn processId amount =>
      exact .burn _ _
  | emit processId amount =>
      exact .emit _ _
  | emissionSupply =>
      exact .totalSupply
  | register id type =>
      exact .register _ _
  | listNodes =>
      exact .ask trivial
  | getNode id =>
      exact .ask trivial
  | recordExecution id success =>
      exact .recordExecution _ _
  | currentWeight id =>
      exact .currentWeight _
  | receivePayment id amount =>
      exact .receivePayment _ _
  | accrue epochNumber fee participants =>
      exact .accrue _ _ _
  | payEpoch epochNumber =>
      exact .payEpoch _
  | getEpoch epochNumber =>
      exact .ask trivial
  | listEpochs =>
      exact .ask_bind trivial fun _ => .pure _
  | totalProcessVolume =>
      exact .ask_bind trivial fun _ => .pure _
  | totalAfcReserve =>
      exact .ask_bind trivial fun _ => .pure _
  | addAfcAccrual amount =>
      exact .ask_bind not_false fun _ => .pure _
  | reserveIndex =>
      exact .reserveIndex
  | internalPrice base =>
      exact .bind .reserveIndex fun _ => .pure _
  | velocity processVolume24h =>
      exact .velocity _
  | check threshold target processVolume24h =>
      exact .check _ _ _
  | activate threshold target processVolume24h =>
      exact .activate _ _ _
  | isActive =>
      exact .isActive
  | runProcess input =>
      exact .runProcess input
  | finalizeEpoch epoch =>
      exact .finalizeEpoch epoch
  | metrics epoch =>
      exact .metrics epoch
  | getProcess processId =>
      exact .getProcess processId
  | compareSupply observed =>
      exact .compareSupply observed
  | verifyChain =>
      exact .verifyChain

/-- Every observer is put together in this way. -/
theorem Observer.assembled (observer : Observer) :
    Assembled env (PublicCall.Sends (.inr observer))
      (observer.handler env) := by
  cases observer with
  | log eventType layer description =>
      exact .passed rfl
  | compareSupply observed =>
      exact .compareSupply observed
  | verifyChain =>
      exact .verifyChain
  | verifyLog =>
      refine .ask_bind trivial fun entries => ?_
      cases HashChain.firstBroken (AllSeeingEye.reading env) "GENESIS"
        entries with
      | none =>
          exact .pure _
      | some broken =>
          exact .pure _
  | getLog =>
      exact .ask trivial
  | metrics epoch =>
      exact .metrics epoch
  | getProcess processId =>
      exact .getProcess processId

/-- Every public call is put together in this way. -/
theorem PublicCall.assembled (call : PublicCall) :
    Assembled env call.Sends (call.program env) := by
  cases call with
  | inl method =>
      exact .bind (method.assembled env) fun _ => .pure _
  | inr observer =>
      exact .bind (observer.assembled env) fun _ => .pure _

end ArosParadigm
