import ArosParadigm.Library.Faults
import ArosParadigm.Orchestrator

/-!
# Footprints

The stages of a process that write neither the row of the ledger nor a
verdict, and that append nothing but captured events and registrations.
-/

namespace ArosParadigm

open Await

/-- The calls that leave the ledger row, the verdicts and the value events
alone. -/
def Bystander : Call → Prop
  | .append _ (.captured ..) => True
  | .append _ (.nodeRegistered ..) => True
  | .append .. => False
  | .saveVerdict _ => False
  | .saveLedger _ => False
  | _ => True

/-- The bystanders that leave the epochs alone too. -/
def Onlooker : Call → Prop
  | .findEpoch _ => False
  | .saveEpoch _ => False
  | request => Bystander request

namespace Onlooker

theorem strict_ask {request : Call} (onlooker : Onlooker request) :
    Strict Onlooker (ask request) :=
  strict_perform onlooker _

theorem strict_capture (processId eventType : String)
    (data : Json.JsObject ℚ) (validatorId : Option String) :
    Strict Onlooker (StateRecording.capture processId eventType data
      validatorId) := by
  refine strict_bind (strict_ask trivial) fun _ => ?_
  exact strict_bind (strict_ask trivial) fun _ => trivial

theorem strict_log (eventType layer description : String) :
    Strict Onlooker (AllSeeingEye.log eventType layer description) :=
  strict_ask trivial

theorem strict_compareSupply (env : Environment) (observed : SupplyView) :
    Strict Onlooker (AllSeeingEye.compareSupply env observed) := by
  by_cases consistent : observed.totalSupply = observed.retained
  · simp only [AllSeeingEye.compareSupply, consistent, decide_true,
      Bool.not_true, Bool.false_eq_true, if_false]
    trivial
  · simp only [AllSeeingEye.compareSupply, consistent, decide_false,
      Bool.not_false, if_true]
    exact strict_bind (strict_log _ _ _) fun _ => trivial

theorem strict_reserveIndex (env : Environment) :
    Strict Onlooker (Reserve.reserveIndex env) := by
  refine strict_bind ?_ fun _ => trivial
  exact strict_bind (strict_ask trivial) fun _ => trivial

theorem strict_requireNode (id : String) :
    Strict Onlooker (Nodes.requireNode id) := by
  refine strict_bind (strict_ask trivial) fun node => ?_
  cases node <;> trivial

theorem strict_registerNodes (roster : List (String × String)) :
    Strict Onlooker (Orchestrator.registerNodes roster) := by
  induction roster with
  | nil =>
      trivial
  | cons node rest inductionHypothesis =>
      refine strict_bind ?_ fun _ => inductionHypothesis
      refine strict_bind (strict_ask trivial) fun _ => ?_
      exact strict_bind (strict_ask trivial) fun _ => trivial

theorem strict_resolveAssignedNodes (explicit : Option (List String)) :
    Strict Onlooker (Orchestrator.resolveAssignedNodes explicit) := by
  have registered : Strict Onlooker Orchestrator.registeredNodes := by
    refine strict_bind (strict_ask trivial) fun nodes => ?_
    split
    · exact strict_bind (strict_registerNodes _) fun _ => strict_ask trivial
    · trivial
  rcases explicit with _ | (_ | ⟨first, rest⟩)
  · exact strict_bind registered fun _ => trivial
  · exact strict_bind registered fun _ => trivial
  · trivial

theorem strict_recordExecutions (ids : List String) :
    Strict Onlooker (Orchestrator.recordExecutions ids) := by
  induction ids with
  | nil =>
      trivial
  | cons id rest inductionHypothesis =>
      refine strict_bind ?_ fun _ => inductionHypothesis
      refine strict_bind (strict_requireNode id) fun _ => ?_
      exact strict_bind (strict_ask trivial) fun _ => trivial

end Onlooker

theorem bystander_of_onlooker {result : Type} {program : Service result}
    (strict : Strict Onlooker program) : Strict Bystander program := by
  refine strict.weaken fun request onlooker => ?_
  cases request <;> first
    | exact onlooker
    | trivial

namespace Bystander

theorem strict_ask {request : Call} (bystander : Bystander request) :
    Strict Bystander (ask request) :=
  strict_perform bystander _

theorem strict_accrue (epochNumber fee : ℚ)
    (participants : List Participation) :
    Strict Bystander (Commission.accrue epochNumber fee participants) := by
  have openEpoch : Strict Bystander (Commission.openEpoch epochNumber) := by
    refine strict_bind (strict_ask trivial) fun row => ?_
    cases row with
    | none =>
        exact strict_bind (strict_ask trivial) fun _ => trivial
    | some stored =>
        trivial
  refine strict_bind openEpoch fun _ => ?_
  refine strict_bind (strict_ask trivial) fun _ => ?_
  exact strict_bind (strict_ask trivial) fun _ => trivial

end Bystander

namespace Commission

/-- The calls of `confirmedWeights`. -/
theorem strict_confirmedWeights (env : Environment)
    {permitted : Call → Prop}
    (reads : ∀ epochNumber, permitted (.readParticipation epochNumber))
    (entries : ∀ reference index,
      permitted (.readParticipationAt reference index))
    (verdicts : ∀ processId, permitted (.findVerdict processId))
    (nodes : ∀ id, permitted (.findNode id)) (epochNumber : ℚ) :
    Strict permitted (confirmedWeights env epochNumber) := by
  have asks : ∀ {request : Call}, permitted request →
      Strict permitted (ask request) :=
    fun allowed => strict_perform allowed _
  have verdict : ∀ cache processId,
      Strict permitted (confirmedVerdict cache processId) := by
    intro cache processId
    unfold confirmedVerdict
    cases cache.lookup processId with
    | some stored =>
        trivial
    | none =>
        exact strict_bind (asks (verdicts _)) fun _ => trivial
  have weight : ∀ id, Strict permitted (Nodes.currentWeight id) := by
    intro id
    refine strict_bind (strict_bind (asks (nodes id)) fun node => ?_)
      fun _ => trivial
    cases node <;> trivial
  have loop : ∀ reference rounds index cache weights,
      Strict permitted
        (weightLoop reference rounds index cache weights) := by
    intro reference rounds
    induction rounds with
    | zero =>
        intro index cache weights
        trivial
    | succ rounds inductionHypothesis =>
        intro index cache weights
        refine strict_bind (asks (entries _ _)) fun entry => ?_
        cases entry with
        | none =>
            trivial
        | some entry =>
            refine strict_bind (verdict _ _) fun answer => ?_
            obtain ⟨isConfirmed, nextCache⟩ := answer
            cases isConfirmed with
            | false =>
                exact inductionHypothesis _ _ _
            | true =>
                exact strict_bind (weight _) fun _ =>
                  inductionHypothesis _ _ _
  refine strict_bind (asks (reads _)) fun array => ?_
  cases array with
  | none =>
      trivial
  | some array =>
      exact loop _ _ _ _ _

end Commission

namespace Orchestrator

variable (env : Environment)

/-- The steps of a verified process between its mint and its burn. -/
def consolidate (processId : String) (amount epoch minted : ℚ)
    (assignedNodes : List String) : Service Unit := do
  let _ ← StateRecording.capture processId "emission" (mintedData minted)
  let _ ← AllSeeingEye.log "mint" "token_management"
    ("minted " ++ env.numberText minted ++ " for " ++ processId)
  let _ ← Commission.accrue epoch (Commission.computeFee amount)
    (assignedNodes.map fun nodeId => Participation.mk processId nodeId)
  return ()

/-- The steps of a verified process after its burn. -/
def finish (processId : String) (amount minted burned : ℚ)
    (assignedNodes : List String) : Service RunProcessResult := do
  let _ ← AllSeeingEye.log "burn" "token_management"
    ("burned " ++ env.numberText burned ++ " for " ++ processId)
  let reserveIndex ← Reserve.reserveIndex env
  let _ ← StateRecording.capture processId "final_status"
    (statusData "done")
  let _ ← AllSeeingEye.log "final_status" "ledger_anchoring"
    ("process " ++ processId ++ " finalized")
  let view ← ArosCoin.supplyView
  let _ ← AllSeeingEye.compareSupply env view
  let supplyAfter ← ArosCoin.totalSupply
  return ⟨processId, 1, none, minted, Commission.computeFee amount,
    supplyAfter, reserveIndex, assignedNodes,
    eventsToVerdict ++
      ["emission.minted", "emission", "emission.burned", "final_status"]⟩

theorem settle_eq (processId : String) (amount epoch : ℚ)
    (assignedNodes : List String) :
    settle env processId amount epoch assignedNodes =
      Emission.mint processId amount >>= fun minted =>
        consolidate env processId amount epoch minted assignedNodes >>=
          fun _ => Emission.burn processId minted >>= fun burned =>
            finish env processId amount minted burned assignedNodes := by
  simp only [settle, consolidate, finish, bind_assoc, pure_bind]

theorem strict_consolidate (processId : String) (amount epoch minted : ℚ)
    (assignedNodes : List String) :
    Strict Bystander (consolidate env processId amount epoch minted
      assignedNodes) := by
  refine strict_bind (bystander_of_onlooker
    (Onlooker.strict_capture _ _ _ _)) fun _ => ?_
  refine strict_bind (bystander_of_onlooker
    (Onlooker.strict_log _ _ _)) fun _ => ?_
  exact strict_bind (Bystander.strict_accrue _ _ _) fun _ => trivial

end Orchestrator

/-! ## Properties that a method has from its parts -/

/-- The events of a finalization. -/
def Payload.IsSettlement : Payload → Prop
  | .paymentReceived .. => True
  | .afcAccrual _ => True
  | .epochFinalized .. => True
  | _ => False

/-- A property that a method has when its parts have it and leave the epochs
alone. -/
structure Watches (holds : (result : Type) → Service result → Prop) :
    Prop where
  bind : ∀ {first second : Type} {program : Service first}
    {continuation : first → Service second}, holds first program →
      (∀ value, holds second (continuation value)) →
      holds second (program >>= continuation)
  onlooker : ∀ {result : Type} {program : Service result},
    Strict Onlooker program → holds result program
  ledger : holds ArosCoinLedger ArosCoin.ledger

namespace Watches

variable {holds : (result : Type) → Service result → Prop}

theorem pure (watches : Watches holds) {result : Type} (value : result) :
    holds result (pure value) :=
  @onlooker holds watches result (Pure.pure value) trivial

theorem ofLedger (watches : Watches holds) {result : Type}
    (figure : ArosCoinLedger → result) :
    holds result (ArosCoin.ledger >>= fun row => Pure.pure (figure row)) :=
  watches.bind watches.ledger fun _ => watches.pure _

theorem rejectUnverified (watches : Watches holds) (env : Environment)
    (processId : String) (nodes : List String) :
    holds RunProcessResult
      (Orchestrator.rejectUnverified env processId nodes) := by
  refine watches.bind (watches.onlooker
    (Onlooker.strict_capture _ _ _ _)) fun _ => ?_
  refine watches.bind (watches.onlooker
    (Onlooker.strict_reserveIndex env)) fun _ => ?_
  refine watches.bind (watches.ofLedger _) fun _ => ?_
  refine watches.bind (watches.ofLedger _) fun view => ?_
  refine watches.bind (watches.onlooker
    (Onlooker.strict_compareSupply env view)) fun _ => ?_
  exact watches.pure _

theorem finish (watches : Watches holds) (env : Environment)
    (processId : String) (amount minted burned : ℚ)
    (nodes : List String) :
    holds RunProcessResult
      (Orchestrator.finish env processId amount minted burned nodes) := by
  refine watches.bind (watches.onlooker
    (Onlooker.strict_log _ _ _)) fun _ => ?_
  refine watches.bind (watches.onlooker
    (Onlooker.strict_reserveIndex env)) fun _ => ?_
  refine watches.bind (watches.onlooker
    (Onlooker.strict_capture _ _ _ _)) fun _ => ?_
  refine watches.bind (watches.onlooker
    (Onlooker.strict_log _ _ _)) fun _ => ?_
  refine watches.bind (watches.ofLedger _) fun view => ?_
  refine watches.bind (watches.onlooker
    (Onlooker.strict_compareSupply env view)) fun _ => ?_
  exact watches.bind (watches.ofLedger _) fun _ => watches.pure _

theorem runProcess_of_inadmissible (watches : Watches holds)
    (env : Environment) {body : RunProcessDto}
    (inadmissible : body.admissible = false) :
    holds RunProcessResult (Orchestrator.runProcess env body) := by
  simp only [Orchestrator.runProcess, inadmissible, Bool.not_false,
    if_true]
  refine watches.bind (watches.onlooker
    (Onlooker.strict_capture _ _ _ _)) fun _ => ?_
  refine watches.bind (watches.onlooker
    (Onlooker.strict_ask trivial)) fun _ => ?_
  refine watches.bind (watches.onlooker
    (Onlooker.strict_ask trivial)) fun _ => ?_
  refine watches.bind (watches.onlooker
    (Onlooker.strict_reserveIndex env)) fun _ => ?_
  exact watches.bind (watches.ofLedger _) fun _ => watches.pure _

theorem getProcess (watches : Watches holds) (processId : String) :
    holds ProcessView (Orchestrator.getProcess processId) :=
  watches.bind (watches.onlooker
    (Onlooker.strict_ask trivial)) fun _ =>
    watches.bind (watches.onlooker
    (Onlooker.strict_ask trivial)) fun _ => watches.pure _

end Watches

/-- A property that a method has when its parts have it. -/
structure Carries (holds : (result : Type) → Service result → Prop) :
    Prop where
  bind : ∀ {first second : Type} {program : Service first}
    {continuation : first → Service second}, holds first program →
      (∀ value, holds second (continuation value)) →
      holds second (program >>= continuation)
  bystander : ∀ {result : Type} {program : Service result},
    Strict Bystander program → holds result program
  ledger : holds ArosCoinLedger ArosCoin.ledger

namespace Carries

variable {holds : (result : Type) → Service result → Prop}

theorem pure (carries : Carries holds) {result : Type} (value : result) :
    holds result (pure value) :=
  @bystander holds carries result (Pure.pure value) trivial

theorem watches (carries : Carries holds) : Watches holds where
  bind := carries.bind
  onlooker strict := carries.bystander (bystander_of_onlooker strict)
  ledger := carries.ledger

theorem fail (carries : Carries holds) {result : Type}
    (reason : ServiceError) : holds result (.fail reason) :=
  @bystander holds carries result (.fail reason) trivial

theorem payNodes (carries : Carries holds)
    (appends : ∀ eventType (payload : Payload), payload.IsSettlement →
      holds Snapshot (ArosParadigm.ask (.append eventType payload)))
    (earned : ∀ amount, holds Unit (ArosCoin.recordEarned amount))
    (weights : Commission.Weights) (distributable totalWeight : ℚ)
    (ids : List String) (log : List DistributionEntry) (paid : ℚ) :
    holds _ (Commission.payNodes weights distributable totalWeight ids
      log paid) := by
  induction ids generalizing log paid with
  | nil =>
      exact carries.pure _
  | cons id rest inductionHypothesis =>
      refine carries.bind ?_ fun _ => ?_
      · refine carries.bind (carries.watches.onlooker
          (Onlooker.strict_requireNode id)) fun _ => ?_
        exact carries.bind (appends _ _ trivial) fun _ => carries.pure _
      · exact carries.bind (earned _) fun _ => inductionHypothesis _ _

theorem finalizeCommission (carries : Carries holds)
    (appends : ∀ eventType (payload : Payload), payload.IsSettlement →
      holds Snapshot (ArosParadigm.ask (.append eventType payload)))
    (earned : ∀ amount, holds Unit (ArosCoin.recordEarned amount))
    (env : Environment) (epoch : ℚ) :
    holds FinalizeResult (Commission.finalizeEpoch env epoch) := by
  refine carries.bind ?_ fun row => ?_
  · refine carries.bind (carries.bystander
    (Bystander.strict_ask trivial)) fun row => ?_
    cases row with
    | some stored =>
        exact carries.pure _
    | none =>
        exact carries.fail _
  split
  · exact carries.pure _
  refine carries.bind (carries.bystander
    (Commission.strict_confirmedWeights env (fun _ => trivial)
      (fun _ _ => trivial) (fun _ => trivial) (fun _ => trivial) epoch))
    fun weights => ?_
  refine carries.bind ?_ fun paid => ?_
  · unfold Commission.payOut
    simp only
    split
    · exact carries.payNodes appends earned _ _ _ _ _ _
    · exact carries.pure _
  refine carries.bind (carries.bind (appends _ _ trivial)
    fun _ => carries.pure _) fun _ => ?_
  refine carries.bind (carries.bystander
    (Bystander.strict_ask trivial)) fun _ => ?_
  refine carries.bind (carries.bystander
    (Bystander.strict_ask trivial)) fun _ => ?_
  refine carries.bind (appends _ _ trivial) fun _ => ?_
  exact carries.bind (carries.bystander
    (Bystander.strict_ask trivial)) fun _ => carries.pure _

theorem finalizeEpoch (carries : Carries holds)
    (appends : ∀ eventType (payload : Payload), payload.IsSettlement →
      holds Snapshot (ArosParadigm.ask (.append eventType payload)))
    (earned : ∀ amount, holds Unit (ArosCoin.recordEarned amount))
    (env : Environment) (epoch : ℚ) :
    holds FinalizeResult (Orchestrator.finalizeEpoch env epoch) := by
  refine carries.bind (carries.finalizeCommission appends earned env epoch)
    fun _ => ?_
  refine carries.bind (carries.bystander
    (Bystander.strict_ask trivial)) fun _ => ?_
  refine carries.bind (carries.watches.ofLedger _) fun view => ?_
  refine carries.bind (carries.watches.onlooker
    (Onlooker.strict_compareSupply env view)) fun _ => ?_
  exact carries.pure _

theorem metrics (carries : Carries holds) (env : Environment)
    (epoch : ℚ) :
    holds MetricsSnapshot (Orchestrator.metrics env epoch) := by
  refine carries.bind (carries.watches.ofLedger _) fun _ => ?_
  refine carries.bind (carries.watches.ofLedger _) fun _ => ?_
  refine carries.bind (carries.watches.onlooker
    (Onlooker.strict_reserveIndex env)) fun _ => ?_
  refine carries.bind (carries.bystander
    (Bystander.strict_ask trivial)) fun _ => ?_
  refine carries.bind (carries.bystander
    (Bystander.strict_ask trivial)) fun _ => ?_
  refine carries.bind (carries.bystander
    (Bystander.strict_ask trivial)) fun _ => ?_
  refine carries.bind (carries.bind ?_ fun _ => carries.pure _)
    fun _ => carries.pure _
  refine carries.bind (carries.bystander
    (Bystander.strict_ask trivial)) fun row => ?_
  cases row with
  | none =>
      exact carries.bind (carries.bystander
    (Bystander.strict_ask trivial)) fun _ => carries.pure _
  | some stored =>
      exact carries.pure _

end Carries

namespace Orchestrator

variable (env : Environment)

/-- The steps of an admissible process before its verdict. -/
def prologue (input : RunProcessDto) : Service (List String) := do
  let _ ← StateRecording.capture input.processId "initiation"
    (amountData input.amount)
  let _ ← AllSeeingEye.log "initiation" "processing"
    ("process " ++ input.processId ++ " initiated (amount " ++
      env.numberText input.amount ++ ")")
  let assignedNodes ← resolveAssignedNodes input.nodeIds
  let _ ← StateRecording.capture input.processId "task_assignment"
    (nodesData assignedNodes)
  let _ ← AllSeeingEye.log "task_assignment" "processing"
    ("assigned to " ++ toString assignedNodes.length ++ " nodes")
  let _ ← StateRecording.capture input.processId "stage_transition"
    stageData
  let _ ← StateRecording.capture input.processId "execution_complete" []
  recordExecutions assignedNodes
  return assignedNodes

/-- The record of the verdict. -/
def recordVerdict (processId : String) (verdict : VerifyResult) :
    Service Unit := do
  let _ ← StateRecording.capture processId "pot_verdict"
    (verifiedData verdict.verified)
  let _ ← AllSeeingEye.log "pot_verdict" "processing"
    ("process " ++ processId ++ " verified=" ++
      toString verdict.verified.val)
  return ()

/-- The steps of an admissible process after its verdict. -/
def epilogue (input : RunProcessDto) (assignedNodes : List String)
    (verdict : VerifyResult) : Service RunProcessResult := do
  recordVerdict input.processId verdict
  if verdict.verified ≠ 1 then
    rejectUnverified env input.processId assignedNodes
  else
    settle env input.processId input.amount
      (input.epoch.getD defaultEpoch) assignedNodes

theorem runProcess_eq_of_admissible {input : RunProcessDto}
    (admissible : input.admissible = true) :
    runProcess env input = prologue env input >>= fun assignedNodes =>
      Pot.verify env input.processId >>= fun verdict =>
        epilogue env input assignedNodes verdict := by
  simp only [runProcess, prologue, epilogue, recordVerdict,
    executeAndVerify, admissible, Bool.not_true, Bool.false_eq_true,
    if_false, bind_assoc, pure_bind]

theorem strict_prologue (input : RunProcessDto) :
    Strict Onlooker (prologue env input) := by
  refine strict_bind (Onlooker.strict_capture _ _ _ _) fun _ => ?_
  refine strict_bind (Onlooker.strict_log _ _ _) fun _ => ?_
  refine strict_bind (Onlooker.strict_resolveAssignedNodes _) fun _ => ?_
  refine strict_bind (Onlooker.strict_capture _ _ _ _) fun _ => ?_
  refine strict_bind (Onlooker.strict_log _ _ _) fun _ => ?_
  refine strict_bind (Onlooker.strict_capture _ _ _ _) fun _ => ?_
  refine strict_bind (Onlooker.strict_capture _ _ _ _) fun _ => ?_
  exact strict_bind (Onlooker.strict_recordExecutions _) fun _ => trivial

theorem strict_recordVerdict (processId : String)
    (verdict : VerifyResult) :
    Strict Onlooker (recordVerdict processId verdict) := by
  refine strict_bind (Onlooker.strict_capture _ _ _ _) fun _ => ?_
  exact strict_bind (Onlooker.strict_log _ _ _) fun _ => trivial

end Orchestrator

end ArosParadigm
