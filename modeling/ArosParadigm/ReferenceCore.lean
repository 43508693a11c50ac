import ArosParadigm.NodeChain
import ArosParadigm.Library.Json.Value
import ArosParadigm.Store

/-!
# The reference core

`reference/ast-core/src`: the classes that the production services mirror,
as one state and the two methods of `AST`. The Eye, `Release` and the
timestamps are left out: no method here reads them.
-/

namespace ArosParadigm.Reference

/-- The texts that are hashed. `stringify` is the text of
`{ sequenceId, eventType, processId, data }`. -/
structure Environment where
  sha256 : String → String
  stringify : ℕ → String → String → Json.JsObject ℚ → String

/-- An environment for runs on fixed inputs. -/
def Environment.plain : Environment where
  sha256 := id
  stringify := fun _ _ _ _ => "\x7b\x7d"

inductive NodeType where
  | validator
  | router
  | recorder
  deriving DecidableEq

structure ProcessRequest where
  id : String
  amount : ℚ
  type : String
  admissible : Bool

structure ExecutionSnapshot where
  sequenceId : ℕ
  hash : String
  prevHash : String
  validatorId : Option String
  eventType : String
  processId : String
  data : Json.JsObject ℚ

structure NodeMetrics where
  uptime : ℚ
  successes : ℕ
  total : ℕ
  deriving DecidableEq

structure NodeEntity where
  id : String
  type : NodeType
  metrics : NodeMetrics
  status : NodeStatus
  reputation : ℚ
  weight : ℚ
  earned : ℚ
  deriving DecidableEq

structure CriteriaResult where
  admissibleContext : Bool
  fullStageSequence : Bool
  statesRecordedInNodechain : Bool
  completionPerRules : Bool
  deriving DecidableEq

structure PoTVerdict where
  processId : String
  verified : Bool
  criteriaResult : CriteriaResult
  linkedSnapshot : ℕ
  deriving DecidableEq

structure ArosCoin where
  processMinted : ℚ
  processBurned : ℚ
  earnedRetained : ℚ
  deriving DecidableEq

structure Commission where
  pool : ℚ
  contributions : List (String × ℚ)
  deriving DecidableEq

inductive RunReason where
  | inadmissible
  | unverified
  deriving DecidableEq

/-- What `runProcess` returns; a run without value has no `minted` and no
`fee`. -/
structure RunResult where
  processId : String
  verified : Bool
  reason : Option RunReason
  minted : Option ℚ
  fee : Option ℚ
  deriving DecidableEq

/-- One entry of a distribution. -/
structure Payment where
  nodeId : String
  payment : ℚ
  deriving DecidableEq

/-- What `finalizeEpoch` returns. -/
structure EpochResult where
  distributionLog : List Payment
  margin : ℚ
  paid : ℚ
  total : ℚ
  reconciled : Bool
  deriving DecidableEq

/-- The fields of `AST` that its two methods read. -/
structure AST where
  chain : List ExecutionSnapshot
  captured : String → List String
  verdicts : String → Option PoTVerdict
  coin : ArosCoin
  commission : Commission
  /-- `Reserve.totalProcessVolume`. -/
  reserve : ℚ
  /-- `Nodes.registry` in insertion order. -/
  nodes : List NodeEntity

variable (env : Environment)

/-- `recordState(eventType, processId, data, validatorId)`. -/
def recordState (snapshots : List ExecutionSnapshot)
    (eventType processId : String) (data : Json.JsObject ℚ)
    (validatorId : Option String) : List ExecutionSnapshot :=
  let sequenceId := snapshots.length
  let prevHash := (snapshots.getLast?.map
    ExecutionSnapshot.hash).getD "GENESIS"
  snapshots ++
    [{ sequenceId := sequenceId
       hash := env.sha256
        (env.stringify sequenceId eventType processId data ++ prevHash ++
          toString sequenceId)
       prevHash := prevHash
       validatorId := validatorId
       eventType := eventType
       processId := processId
       data := data }]

/-- The loop of `reconstruct()` from an index on. -/
def reconstructFrom : ℕ → String → List ExecutionSnapshot →
    ReconstructResult
  | _, _, [] => ⟨true, none⟩
  | index, prevHash, snapshot :: rest =>
      let expected := env.sha256
        (env.stringify snapshot.sequenceId snapshot.eventType
          snapshot.processId snapshot.data ++ prevHash ++
            toString snapshot.sequenceId)
      if snapshot.prevHash ≠ prevHash ∨ snapshot.hash ≠ expected then
        ⟨false, some index⟩
      else
        reconstructFrom (index + 1) snapshot.hash rest

def reconstruct (snapshots : List ExecutionSnapshot) :
    ReconstructResult :=
  reconstructFrom env 0 "GENESIS" snapshots

/-- `capture(processId, eventType, data)`. -/
def AST.capture (ast : AST) (processId eventType : String)
    (data : Json.JsObject ℚ) : AST :=
  { ast with
    chain := recordState env ast.chain eventType processId data none
    captured := Function.update ast.captured processId
      (if eventType ∈ ast.captured processId then ast.captured processId
      else ast.captured processId ++ [eventType]) }

def criteriaResult (request : ProcessRequest) (captured : List String)
    (chainOk : Bool) : CriteriaResult where
  admissibleContext := request.admissible
  fullStageSequence :=
    ["initiation", "task_assignment", "stage_transition"].all fun event =>
      event ∈ captured
  statesRecordedInNodechain := chainOk && 0 < captured.length
  completionPerRules := "execution_complete" ∈ captured

/-- `Object.values(criteriaResult).every(Boolean)`. -/
def CriteriaResult.every (criteria : CriteriaResult) : Bool :=
  criteria.admissibleContext && criteria.fullStageSequence &&
    criteria.statesRecordedInNodechain && criteria.completionPerRules

/-- `verify(p, captured, chainOk, linkedSnapshot)`. -/
def AST.verify (ast : AST) (request : ProcessRequest)
    (captured : List String) (chainOk : Bool) (linkedSnapshot : ℕ) :
    PoTVerdict × AST :=
  match ast.verdicts request.id with
  | some existing => (existing, ast)
  | none =>
      let criteria := criteriaResult request captured chainOk
      let verdict : PoTVerdict :=
        ⟨request.id, criteria.every, criteria, linkedSnapshot⟩
      (verdict, { ast with
        verdicts := Function.update ast.verdicts request.id
          (some verdict) })

def AST.authorizeEmission (ast : AST) (processId : String) : Bool :=
  (ast.verdicts processId).any PoTVerdict.verified

/-- `mint(processId, amount, authorized)`. -/
def mint (coin : ArosCoin) (processId : String) (amount : ℚ)
    (authorized : Bool) : Except String (ℚ × ArosCoin) :=
  if !authorized then
    .error ("14.1 violation: mint refused for " ++ processId ++
      " — no PoT confirmation")
  else
    .ok (amount,
      { coin with processMinted := coin.processMinted + amount })

/-- `burn(processId, amount)`. -/
def burn (coin : ArosCoin) (amount : ℚ) : ℚ × ArosCoin :=
  (amount, { coin with processBurned := coin.processBurned + amount })

def ArosCoin.recordEarned (coin : ArosCoin) (amount : ℚ) : ArosCoin :=
  { coin with earnedRetained := coin.earnedRetained + amount }

def feeRate : ℚ := 5 / 1000

def marginRate : ℚ := 25 / 100

/-- `computeFee(amount, overloadRate)`. -/
def computeFee (amount : ℚ) (overloadRate : ℚ := 0) : ℚ :=
  amount * feeRate * (1 + overloadRate)

/-- `accrue(processId, fee)`. -/
def Commission.accrue (commission : Commission) (processId : String)
    (fee : ℚ) : Commission :=
  ⟨commission.pool + fee, commission.contributions ++ [(processId, fee)]⟩

/-- The payment loop of `finalizeEpoch`: the nodes with their new `earned`,
the tallies, the variable `paid` and the log. -/
def payNodes (distributable totalWeight : ℚ) :
    List NodeEntity → ArosCoin → ℚ → List Payment →
      List NodeEntity × ArosCoin × ℚ × List Payment
  | [], coin, paid, log => ([], coin, paid, log)
  | node :: rest, coin, paid, log =>
      let payment := (node.weight * distributable) / totalWeight
      let (nodes, later) := payNodes distributable totalWeight rest
        (coin.recordEarned payment) (paid + payment)
        (log ++ [⟨node.id, payment⟩])
      ({ node with earned := node.earned + payment } :: nodes, later)

def totalWeight (nodes : List NodeEntity) : ℚ :=
  let sum := (nodes.map NodeEntity.weight).sum
  if sum = 0 then 1 else sum

def Commission.finalizeEpoch (commission : Commission)
    (nodes : List NodeEntity) (coin : ArosCoin) :
    EpochResult × Commission × List NodeEntity × ArosCoin :=
  let distributable := commission.pool * (1 - marginRate)
  let margin := commission.pool * marginRate
  let (paidNodes, paidCoin, paid, distributionLog) :=
    payNodes distributable (totalWeight nodes) nodes coin 0 []
  let reconciled : Bool :=
    |paid + margin - commission.pool| < 1 / 1000000000
  (⟨distributionLog, margin, paid, commission.pool, reconciled⟩,
    { commission with pool := 0 }, paidNodes, paidCoin)

/-- The node that `register` creates. -/
def freshNode (id : String) (type : NodeType) (uptime : ℚ := 99 / 100) :
    NodeEntity where
  id := id
  type := type
  metrics := ⟨uptime, 0, 0⟩
  status := .active
  reputation := 0
  weight := 0
  earned := 0

/-- The node after one unit of work. -/
def worked (node : NodeEntity) (success : Bool) : NodeEntity :=
  let total := node.metrics.total + 1
  let successes :=
    if success then node.metrics.successes + 1
    else node.metrics.successes
  let reputation := (successes / total : ℚ) * node.metrics.uptime
  { node with
    metrics := { node.metrics with total := total, successes := successes }
    reputation := reputation
    weight := reputation * total }

def recordWork (nodes : List NodeEntity) (id : String) (success : Bool) :
    List NodeEntity :=
  nodes.map fun node => if node.id = id then worked node success else node

/-- `register(id, type, uptime)`. -/
def register (nodes : List NodeEntity) (id : String) (type : NodeType)
    (uptime : ℚ := 99 / 100) : List NodeEntity :=
  Keyed.upsert NodeEntity.id (freshNode id type uptime) nodes

/-- The node after a penalty. -/
def penalized (node : NodeEntity) : NodeEntity :=
  { node with
    reputation := node.reputation * (1 / 2)
    weight := node.weight * (1 / 2)
    status := .penalized }

def penalize (nodes : List NodeEntity) (id : String) : List NodeEntity :=
  nodes.map fun node => if node.id = id then penalized node else node

def AST.initial : AST where
  chain := []
  captured := fun _ => []
  verdicts := fun _ => none
  coin := ⟨0, 0, 0⟩
  commission := ⟨0, []⟩
  reserve := 0
  nodes := [freshNode "node-1" .validator, freshNode "node-2" .router,
    freshNode "node-3" .recorder]

def amountData (amount : ℚ) : Json.JsObject ℚ :=
  [(Json.utf16 "amount", .number amount)]

def nodesData (nodes : List NodeEntity) : Json.JsObject ℚ :=
  [(Json.utf16 "nodes",
    .array (nodes.map fun node => .string (Json.utf16 node.id)))]

def stageData : Json.JsObject ℚ :=
  [(Json.utf16 "stage", .string (Json.utf16 "execute"))]

def verifiedData (verified : Bool) : Json.JsObject ℚ :=
  [(Json.utf16 "verified", .boolean verified)]

def mintedData (minted : ℚ) : Json.JsObject ℚ :=
  [(Json.utf16 "minted", .number minted)]

def burnedData (burned : ℚ) : Json.JsObject ℚ :=
  [(Json.utf16 "burned", .number burned)]

def statusData (status : String) : Json.JsObject ℚ :=
  [(Json.utf16 "status", .string (Json.utf16 status))]

/-- The nodes with `status === 'active'`. -/
def AST.assigned (ast : AST) : List NodeEntity :=
  ast.nodes.filter fun node => node.status = .active

/-- Assignment and execution of an admissible request. -/
def AST.execute (ast : AST) (request : ProcessRequest) : AST :=
  let assigned := ast.assigned
  let ast := ast.capture env request.id "task_assignment"
    (nodesData assigned)
  let ast := ast.capture env request.id "stage_transition" stageData
  let ast := ast.capture env request.id "execution_complete" []
  { ast with
    nodes := assigned.foldl
      (fun nodes node => recordWork nodes node.id true) ast.nodes }

/-- The verdict on an executed request. -/
def AST.judge (ast : AST) (request : ProcessRequest) :
    PoTVerdict × AST :=
  let chainOk := (reconstruct env ast.chain).ok
  let (verdict, ast) := ast.verify request (ast.captured request.id)
    chainOk (ast.chain.length - 1)
  (verdict, ast.capture env request.id "pot_verdict"
    (verifiedData verdict.verified))

/-- Emission, fee, reserve, burn and final record of a verified request. -/
def AST.settle (ast : AST) (request : ProcessRequest) :
    Except String RunResult × AST :=
  match mint ast.coin request.id request.amount
      (ast.authorizeEmission request.id) with
  | .error reason => (.error reason, ast)
  | .ok (minted, coin) =>
      let ast := { ast with coin := coin }
      let ast := ast.capture env request.id "emission"
        (mintedData minted)
      let fee := computeFee request.amount
      let ast :=
        { ast with
          commission := ast.commission.accrue request.id fee
          reserve := ast.reserve + request.amount }
      let (burned, coin) := burn ast.coin minted
      let ast := { ast with coin := coin }
      let ast := ast.capture env request.id "emission_burn"
        (burnedData burned)
      let ast := ast.capture env request.id "final_status"
        (statusData "done")
      (.ok ⟨request.id, true, none, some minted, some fee⟩, ast)

def AST.runProcess (ast : AST) (request : ProcessRequest) :
    Except String RunResult × AST :=
  let ast := ast.capture env request.id "initiation"
    (amountData request.amount)
  if !request.admissible then
    (.ok ⟨request.id, false, some .inadmissible, none, none⟩, ast)
  else
    let (verdict, ast) := (ast.execute env request).judge env request
    if !verdict.verified then
      (.ok ⟨request.id, false, some .unverified, none, none⟩, ast)
    else
      ast.settle env request

def AST.finalizeEpoch (ast : AST) : EpochResult × AST :=
  let (result, commission, nodes, coin) :=
    ast.commission.finalizeEpoch ast.nodes ast.coin
  (result, { ast with
    commission := commission, nodes := nodes, coin := coin })

/-! ## The chain stays intact -/

/-- How `reconstruct` reads a snapshot. -/
def reading : HashChain.Reading ExecutionSnapshot String where
  previous := ExecutionSnapshot.prevHash
  stored := ExecutionSnapshot.hash
  digest := fun snapshot expected => env.sha256
    (env.stringify snapshot.sequenceId snapshot.eventType
      snapshot.processId snapshot.data ++ expected ++
        toString snapshot.sequenceId)

/-- `reconstruct()` answers `ok: true`. -/
def AST.Intact (ast : AST) : Prop :=
  HashChain.Linked (reading env) "GENESIS" ast.chain

variable {env}

theorem reconstructFrom_ok_iff (snapshots : List ExecutionSnapshot)
    (index : ℕ) (prevHash : String) :
    (reconstructFrom env index prevHash snapshots).ok = true ↔
      HashChain.Linked (reading env) prevHash snapshots := by
  induction snapshots generalizing index prevHash with
  | nil =>
      simp [reconstructFrom, HashChain.Linked]
  | cons snapshot rest inductionHypothesis =>
      rw [reconstructFrom, HashChain.Linked]
      split
      · next broken =>
          refine ⟨fun intact => absurd intact Bool.false_ne_true, ?_⟩
          rintro ⟨named, carried, _⟩
          exact broken.elim (absurd named) (absurd carried)
      · next fits =>
          obtain ⟨named, carried⟩ := not_or.mp fits
          rw [inductionHypothesis]
          exact ⟨fun linked =>
              ⟨not_not.mp named, not_not.mp carried, linked⟩,
            fun linked => linked.2.2⟩

theorem AST.Intact.reconstruct {ast : AST} (intact : ast.Intact env) :
    (Reference.reconstruct env ast.chain).ok = true :=
  (reconstructFrom_ok_iff _ _ _).mpr intact

theorem AST.Intact.capture {ast : AST} (intact : ast.Intact env)
    (processId eventType : String) (data : Json.JsObject ℚ) :
    (ast.capture env processId eventType data).Intact env :=
  HashChain.Linked.append_singleton intact rfl rfl

theorem mem_captured_capture {ast : AST}
    (processId eventType tested : String) (data : Json.JsObject ℚ) :
    tested ∈ (ast.capture env processId eventType data).captured
        processId ↔
      tested = eventType ∨ tested ∈ ast.captured processId := by
  have updated : (ast.capture env processId eventType data).captured
      processId = if eventType ∈ ast.captured processId then
        ast.captured processId
      else ast.captured processId ++ [eventType] :=
    Function.update_self ..
  rw [updated]
  split
  · next present =>
      constructor
      · exact Or.inr
      · rintro (equal | member)
        · exact equal ▸ present
        · exact member
  · rw [List.mem_append, List.mem_singleton, or_comm]

section Runs

variable {ast : AST} {request : ProcessRequest}

theorem runProcess_of_inadmissible
    (inadmissible : request.admissible = false) :
    ast.runProcess env request =
      (.ok ⟨request.id, false, some .inadmissible, none, none⟩,
        ast.capture env request.id "initiation"
          (amountData request.amount)) := by
  unfold AST.runProcess
  simp [inadmissible]

/-- The state in which the verdict on an admissible request is asked for. -/
def executed (env : Environment) (ast : AST) (request : ProcessRequest) :
    AST :=
  (ast.capture env request.id "initiation"
    (amountData request.amount)).execute env request

theorem intact_executed (intact : ast.Intact env) :
    (executed env ast request).Intact env :=
  ((((intact.capture _ _ _).capture _ _ _).capture _ _ _).capture _ _ _)

/-- A first verdict on an admissible request is positive. -/
theorem every_executed (intact : ast.Intact env)
    (admissible : request.admissible = true) :
    (criteriaResult request
      ((executed env ast request).captured request.id)
      (reconstruct env (executed env ast request).chain).ok).every =
        true := by
  have staged : ∀ event,
      event ∈ (executed env ast request).captured request.id ↔
        event = "execution_complete" ∨ event = "stage_transition" ∨
          event = "task_assignment" ∨ event = "initiation" ∨
          event ∈ ast.captured request.id := by
    intro event
    change event ∈ (AST.capture env _ request.id "execution_complete"
      []).captured request.id ↔ _
    rw [mem_captured_capture, mem_captured_capture,
      mem_captured_capture, mem_captured_capture]
  have some_event : 0 <
      ((executed env ast request).captured request.id).length :=
    List.length_pos_of_mem ((staged "initiation").mpr (by simp))
  simp [CriteriaResult.every, criteriaResult, admissible, staged,
    (@intact_executed env ast request intact).reconstruct,
    some_event]

/-- What a first run of an admissible request does. -/
structure Settled (env : Environment) (ast after : AST)
    (request : ProcessRequest) : Prop where
  intact : after.Intact env
  verdicts : ∀ id, id ≠ request.id → after.verdicts id = ast.verdicts id
  coin : after.coin =
    { ast.coin with
      processMinted := ast.coin.processMinted + request.amount
      processBurned := ast.coin.processBurned + request.amount }
  pool : after.commission.pool =
    ast.commission.pool + computeFee request.amount
  reserve : after.reserve = ast.reserve + request.amount
  nodes : after.nodes = ast.assigned.foldl
    (fun nodes node => recordWork nodes node.id true) ast.nodes

def firstVerdict (env : Environment) (ast : AST)
    (request : ProcessRequest) : PoTVerdict :=
  let criteria := criteriaResult request (ast.captured request.id)
    (reconstruct env ast.chain).ok
  ⟨request.id, criteria.every, criteria, ast.chain.length - 1⟩

theorem judge_of_fresh (fresh : ast.verdicts request.id = none) :
    ast.judge env request =
      (firstVerdict env ast request,
        AST.capture env
          { ast with
            verdicts := Function.update ast.verdicts request.id
              (some (firstVerdict env ast request)) }
          request.id "pot_verdict"
          (verifiedData (firstVerdict env ast request).verified)) := by
  unfold AST.judge AST.verify
  rw [fresh]
  rfl

theorem settle_of_authorized
    (authorized : ast.authorizeEmission request.id = true) :
    ∃ after, ast.settle env request =
        (.ok ⟨request.id, true, none, some request.amount,
          some (computeFee request.amount)⟩, after) ∧
      (ast.Intact env → after.Intact env) ∧
      after.verdicts = ast.verdicts ∧
      after.coin =
        { ast.coin with
          processMinted := ast.coin.processMinted + request.amount
          processBurned := ast.coin.processBurned + request.amount } ∧
      after.commission.pool =
        ast.commission.pool + computeFee request.amount ∧
      after.reserve = ast.reserve + request.amount ∧
      after.nodes = ast.nodes := by
  unfold AST.settle mint
  rw [authorized]
  refine ⟨_, rfl, ?_, rfl, rfl, rfl, rfl, rfl⟩
  intro intact
  exact ((AST.Intact.capture intact _ _ _).capture _ _ _).capture _ _ _

theorem runProcess_of_fresh (intact : ast.Intact env)
    (admissible : request.admissible = true)
    (fresh : ast.verdicts request.id = none) :
    ∃ after, Settled env ast after request ∧
      ast.runProcess env request =
        (.ok ⟨request.id, true, none, some request.amount,
          some (computeFee request.amount)⟩, after) := by
  have stillFresh :
      (executed env ast request).verdicts request.id = none :=
    fresh
  have judged := @judge_of_fresh env _ _ stillFresh
  have positive : (firstVerdict env (executed env ast request)
      request).verified = true :=
    every_executed intact admissible
  generalize firstVerdict env (executed env ast request) request =
    verdict at judged positive
  rw [positive] at judged
  have authorized : (AST.capture env
      { executed env ast request with
        verdicts := Function.update
          (executed env ast request).verdicts request.id
          (some verdict) } request.id "pot_verdict"
      (verifiedData true)).authorizeEmission request.id = true := by
    simp [AST.authorizeEmission, AST.capture, positive]
  obtain ⟨after, settled, kept, verdicts, coin, pool, reserve, nodes⟩ :=
    @settle_of_authorized env _ _ authorized
  refine ⟨after, ⟨?_, ?_, coin, pool, reserve, nodes⟩, ?_⟩
  · exact kept (AST.Intact.capture (intact_executed intact) _ _ _)
  · intro id other
    rw [verdicts]
    exact Function.update_of_ne other _ _
  · unfold AST.runProcess
    simp only [admissible, Bool.not_true, Bool.false_eq_true, if_false]
    change (let (verdict, ast) :=
        (executed env ast request).judge env request
      if !verdict.verified then _ else ast.settle env request) = _
    rw [judged]
    simp only [positive, Bool.not_true, Bool.false_eq_true, if_false]
    exact settled

end Runs

/-- The payment loop adds up. -/
theorem payNodes_eq (distributable totalWeight : ℚ)
    (nodes : List NodeEntity) (coin : ArosCoin) (paid : ℚ)
    (log : List Payment) :
    let payment := fun node : NodeEntity =>
      (node.weight * distributable) / totalWeight
    payNodes distributable totalWeight nodes coin paid log =
      (nodes.map fun node =>
          { node with earned := node.earned + payment node },
        { coin with
          earnedRetained :=
            coin.earnedRetained + (nodes.map payment).sum },
        paid + (nodes.map payment).sum,
        log ++ nodes.map fun node => ⟨node.id, payment node⟩) := by
  intro payment
  induction nodes generalizing coin paid log with
  | nil =>
      simp [payNodes]
  | cons node rest inductionHypothesis =>
      rw [payNodes, inductionHypothesis]
      simp [ArosCoin.recordEarned, payment, add_assoc]

theorem foldl_recordWork (assigned nodes : List NodeEntity)
    (unique : (assigned.map NodeEntity.id).Nodup) :
    assigned.foldl (fun nodes node => recordWork nodes node.id true)
        nodes =
      nodes.map fun node =>
        if node.id ∈ assigned.map NodeEntity.id then worked node true
        else node := by
  induction assigned generalizing nodes with
  | nil =>
      simp
  | cons head rest inductionHypothesis =>
      obtain ⟨fresh, restUnique⟩ := List.nodup_cons.mp unique
      rw [List.foldl_cons, inductionHypothesis _ restUnique, recordWork,
        List.map_map]
      apply List.map_congr_left
      intro node _
      rw [Function.comp_apply]
      by_cases here : node.id = head.id
      · have id : (worked node true).id = head.id := here
        rw [if_pos here, id, if_neg fresh, if_pos (by simp [here])]
      · simp [here]

end ArosParadigm.Reference
