import ArosParadigm.ArosCoin
import ArosParadigm.Nodes
import ArosParadigm.Pot
import ArosParadigm.Reserve
import Mathlib.Algebra.Order.AbsoluteValue.Basic
import Mathlib.Tactic.Linarith

/-!
# Commission

`CommissionService` of `src/commission/commission.service.ts`: fees are
accrued into the row of an epoch, participations are remembered in memory, and
`finalizeEpoch` pays nodes by the weight of their confirmed participations.
-/

namespace ArosParadigm

structure FinalizeResult where
  epochNumber : ℚ
  distributionLog : List DistributionEntry
  operationalMargin : ℚ
  paid : ℚ
  totalFees : ℚ
  reconciled : Bool
  deriving DecidableEq

namespace Commission

variable (env : Environment)

def feeRate : ℚ := 5 / 1000

def marginRate : ℚ := 25 / 100

def reconcileEpsilon : ℚ := 1 / 1000000000

def marginRecipient : String := "AFC_RESERVE"

def reasonWork : String := "work_weight"

def reasonMargin : String := "afc_reserve"

/-- `computeFee(amount, overloadRate)`. -/
def computeFee (amount : ℚ) (overloadRate : ℚ := 0) : ℚ :=
  amount * feeRate * (1 + overloadRate)

theorem computeFee_pos {amount : ℚ} (positive : 0 < amount) :
    0 < computeFee amount := by
  unfold computeFee feeRate
  linarith

/-- The row that `openEpoch` creates. -/
def freshEpoch (epochNumber : ℚ) (startTime : ℕ) : Epoch where
  epochNumber := epochNumber
  startTime := startTime
  endTime := 0
  totalFees := 0
  distributionLog := []
  status := .opened
  operationalMargin := 0

/-- `openEpoch(epochNumber)`: the stored row whatever its status, else a fresh
one. -/
def openEpoch (epochNumber : ℚ) : Service Epoch := do
  match ← ask (.findEpoch epochNumber) with
  | some existing => return existing
  | none =>
      let startTime ← ask .tick
      return freshEpoch epochNumber startTime

def epochMissing (epochNumber : ℚ) : ServiceError :=
  .notFound ("Epoch " ++ env.numberText epochNumber ++ " does not exist")

def requireEpoch (epochNumber : ℚ) : Service Epoch := do
  match ← ask (.findEpoch epochNumber) with
  | some epoch => return epoch
  | none => .fail (epochMissing env epochNumber)

/-- `accrue(epochNumber, fee, participants)`. -/
def accrue (epochNumber fee : ℚ) (participants : List Participation) :
    Service Epoch := do
  let epoch ← openEpoch epochNumber
  let saved := { epoch with totalFees := epoch.totalFees + fee }
  ask (.saveEpoch saved)
  ask (.pushParticipation epochNumber participants)
  return saved

/-- `|paid + margin - total| < RECONCILE_EPSILON`. -/
def isReconciled (paid margin total : ℚ) : Bool :=
  |paid + margin - total| < reconcileEpsilon

def toResult (epoch : Epoch) : FinalizeResult :=
  let paid :=
    ((epoch.distributionLog.filter fun entry =>
      entry.reason ≠ reasonMargin).map DistributionEntry.amount).sum
  { epochNumber := epoch.epochNumber
    distributionLog := epoch.distributionLog
    operationalMargin := epoch.operationalMargin
    paid := paid
    totalFees := epoch.totalFees
    reconciled :=
      isReconciled paid epoch.operationalMargin epoch.totalFees }

/-- A `Map<string, number>` in insertion order. -/
abbrev Weights := List (String × ℚ)

/-- `weights.get(nodeId)`. -/
def weightOf (weights : Weights) (nodeId : String) : Option ℚ :=
  weights.lookup nodeId

/-- `weights.set(nodeId, (weights.get(nodeId) ?? 0) + weight)`. -/
def addWeight (weights : Weights) (nodeId : String) (weight : ℚ) :
    Weights :=
  Keyed.upsert Prod.fst
    (nodeId, (weightOf weights nodeId).getD 0 + weight) weights

/-- The verdict of a process, from the cache or from the store. -/
def confirmedVerdict (cache : List (String × Bool)) (processId : String) :
    Service (Bool × List (String × Bool)) := do
  match cache.lookup processId with
  | some confirmed => return (confirmed, cache)
  | none =>
      let verdict ← Pot.getVerdict processId
      let confirmed : Bool := verdict.any fun row => row.verified = 1
      return (confirmed, (processId, confirmed) :: cache)

/-- The loop of `confirmedWeights` from an index on. The array is read again
in every round, since other calls may push to it in the meantime. -/
def weightLoop (reference : ℕ) :
    ℕ → ℕ → List (String × Bool) → Weights → Service Weights
  | 0, _, _, _ => .fail .tooManyLateEntries
  | rounds + 1, index, cache, weights => do
      match ← ask (.readParticipationAt reference index) with
      | none => return weights
      | some entry =>
          let (confirmed, cache) ← confirmedVerdict cache entry.processId
          if confirmed then
            let weight ← Nodes.currentWeight entry.nodeId
            weightLoop reference rounds (index + 1) cache
              (addWeight weights entry.nodeId weight)
          else
            weightLoop reference rounds (index + 1) cache weights

def confirmedWeights (epochNumber : ℚ) : Service Weights := do
  match ← ask (.readParticipation epochNumber) with
  | none => return []
  | some (reference, length) =>
      weightLoop reference (length + env.lateEntries + 1) 0 [] []

/-- `[...keys].sort()`: ascending UTF-16 order. -/
def sortedIds (ids : List String) : List String :=
  ids.insertionSort fun first second =>
    Json.utf16 first ≤ Json.utf16 second

def paymentOf (weights : Weights) (distributable totalWeight : ℚ)
    (nodeId : String) : ℚ :=
  ((weightOf weights nodeId).getD 0 * distributable) / totalWeight

/-- The payment loop of `finalizeEpoch`, with the variables `paid` and
`distributionLog`. -/
def payNodes (weights : Weights) (distributable totalWeight : ℚ) :
    List String → List DistributionEntry → ℚ →
      Service (List DistributionEntry × ℚ)
  | [], distributionLog, paid => return (distributionLog, paid)
  | nodeId :: rest, distributionLog, paid => do
      let amount := paymentOf weights distributable totalWeight nodeId
      Nodes.receivePayment nodeId amount
      ArosCoin.recordEarned amount
      payNodes weights distributable totalWeight rest
        (distributionLog ++ [⟨nodeId, amount, reasonWork⟩]) (paid + amount)

/-- The payments of `finalizeEpoch`: none without a positive total weight. -/
def payOut (weights : Weights) (total : ℚ) :
    Service (List DistributionEntry × ℚ) :=
  let totalWeight := (weights.map Prod.snd).sum
  let distributable := total * (1 - marginRate)
  if 0 < totalWeight then
    payNodes weights distributable totalWeight
      (sortedIds (weights.map Prod.fst)) [] 0
  else
    return ([], 0)

def finalizeEpoch (epochNumber : ℚ) : Service FinalizeResult := do
  let epoch ← requireEpoch env epochNumber
  if epoch.status ≠ .opened then
    return toResult epoch
  let weights ← confirmedWeights env epochNumber
  let total := epoch.totalFees
  let (payments, paid) ← payOut weights total
  let allocatedMargin := total - paid
  Reserve.addAfcAccrual allocatedMargin
  let distributionLog :=
    payments ++ [⟨marginRecipient, allocatedMargin, reasonMargin⟩]
  let endTime ← ask .tick
  ask (.saveEpoch
    { epoch with
      distributionLog := distributionLog
      operationalMargin := allocatedMargin
      status := .finalized
      endTime := endTime })
  let reconciled := isReconciled paid allocatedMargin total
  let _ ← ask (.append "commission.epoch.finalized"
    (.epochFinalized epochNumber total allocatedMargin paid reconciled
      distributionLog))
  ask (.deleteParticipation epochNumber)
  return ⟨epochNumber, distributionLog, allocatedMargin, paid, total,
    reconciled⟩

def getEpoch (epochNumber : ℚ) : Service (Option Epoch) :=
  ask (.findEpoch epochNumber)

/-- `list()`: every epoch in ascending order. -/
def list : Service (List Epoch) := do
  let rows ← ask .listEpochs
  return rows.insertionSort fun first second =>
    first.epochNumber ≤ second.epochNumber

/-! ## Running alone -/

section Accrual

open Await

variable {env : Environment} {world : World}

/-- The row that an accrual starts from. -/
def accruedRow (world : World) (epochNumber : ℚ) : Epoch :=
  (world.epochs.find? epochNumber).getD
    (freshEpoch epochNumber (world.clock + 1))

/-- The world after the row of an accrual is at hand. -/
def openedWorld (world : World) (epochNumber : ℚ) : World :=
  if (world.epochs.find? epochNumber).isSome then world else world.tick

def accruedWorld (world : World) (epochNumber fee : ℚ)
    (participants : List Participation) : World :=
  ((openedWorld world epochNumber).saveEpoch
    { accruedRow world epochNumber with
      totalFees := (accruedRow world epochNumber).totalFees + fee }).push
    epochNumber participants

theorem run_openEpoch (epochNumber : ℚ) :
    run (machine env) (openEpoch epochNumber) world =
      (.returned (accruedRow world epochNumber),
        openedWorld world epochNumber) := by
  rw [openEpoch, run_bind_of_returned (run_findEpoch env world _)]
  unfold accruedRow openedWorld
  cases world.epochs.find? epochNumber <;> rfl

theorem run_accrue (epochNumber fee : ℚ)
    (participants : List Participation) :
    run (machine env) (accrue epochNumber fee participants) world =
      (.returned { accruedRow world epochNumber with
          totalFees := (accruedRow world epochNumber).totalFees + fee },
        accruedWorld world epochNumber fee participants) := by
  rw [accrue, run_bind_of_returned (run_openEpoch epochNumber)]
  rfl

end Accrual

section Weights

open Await

variable {env : Environment} {world : World}

/-- The stored verdict of the process is `verified === 1`. -/
def confirmed (world : World) (processId : String) : Bool :=
  (world.verdicts.find? processId).any fun row => row.verified = 1

/-- The loop of `confirmedWeights` as a function of the entries; the error is
the first confirmed node that is not registered. -/
def weigh (world : World) :
    List Participation → Weights → Except String Weights
  | [], weights => .ok weights
  | entry :: rest, weights =>
      if confirmed world entry.processId then
        match world.nodes.find? entry.nodeId with
        | some node =>
            weigh world rest (addWeight weights entry.nodeId node.weight)
        | none => .error entry.nodeId
      else
        weigh world rest weights

/-- How `confirmedWeights` ends. -/
def weighOutcome (world : World) (entries : List Participation)
    (weights : Weights) : Outcome ServiceError Weights :=
  match weigh world entries weights with
  | .ok final => .returned final
  | .error id => .threw (Nodes.notRegistered id)

/-- A cache holds verdicts of the store. -/
def CacheAgrees (world : World) (cache : List (String × Bool)) : Prop :=
  ∀ processId stored,
    cache.lookup processId = some stored →
      stored = confirmed world processId

variable (env) in
theorem run_confirmedVerdict {cache : List (String × Bool)}
    (agrees : CacheAgrees world cache) (processId : String) :
    ∃ nextCache, CacheAgrees world nextCache ∧
      run (machine env) (confirmedVerdict cache processId) world =
        (.returned (confirmed world processId, nextCache), world) := by
  unfold confirmedVerdict
  cases hit : cache.lookup processId with
  | some stored =>
      refine ⟨cache, agrees, ?_⟩
      rw [← agrees processId stored hit]
      rfl
  | none =>
      refine ⟨(processId, confirmed world processId) :: cache, ?_, rfl⟩
      intro asked stored found
      by_cases same : asked = processId
      · subst same
        simpa using found.symm
      · apply agrees asked stored
        have other : (asked == processId) = false := by
          simpa using same
        simpa only [List.lookup_cons, other] using found

theorem run_weightLoop (reference : ℕ) (rest : List Participation) :
    ∀ (rounds index : ℕ) (cache : List (String × Bool))
      (weights : Weights),
      (world.entries reference).drop index = rest →
      rest.length < rounds →
      CacheAgrees world cache →
      run (machine env) (weightLoop reference rounds index cache weights)
          world =
        (weighOutcome world rest weights, world) := by
  induction rest with
  | nil =>
      intro rounds index cache weights dropped enough agrees
      obtain ⟨rounds, rfl⟩ : ∃ fewer, rounds = fewer + 1 :=
        ⟨rounds - 1, by simp at enough; omega⟩
      have ended : (world.entries reference)[index]? = none := by
        rw [List.getElem?_eq_none_iff]
        exact List.drop_eq_nil_iff.mp dropped
      rw [weightLoop,
        run_bind_of_returned (run_readParticipationAt env world _ _), ended]
      rfl
  | cons entry rest inductionHypothesis =>
      intro rounds index cache weights dropped enough agrees
      obtain ⟨rounds, rfl⟩ : ∃ fewer, rounds = fewer + 1 :=
        ⟨rounds - 1, by simp at enough; omega⟩
      have present : (world.entries reference)[index]? = some entry := by
        have head := congrArg List.head? dropped
        simpa [List.head?_drop] using head
      have droppedRest :
          (world.entries reference).drop (index + 1) = rest := by
        have tail := congrArg List.tail dropped
        simpa [List.tail_drop] using tail
      have fewer : rest.length < rounds := by
        simpa using enough
      obtain ⟨nextCache, nextAgrees, verdict⟩ :=
        run_confirmedVerdict env agrees entry.processId
      rw [weightLoop,
        run_bind_of_returned (run_readParticipationAt env world _ _),
        present]
      simp only
      rw [run_bind_of_returned verdict]
      unfold weighOutcome
      rw [weigh]
      cases isConfirmed : confirmed world entry.processId with
      | false =>
          exact inductionHypothesis rounds (index + 1) nextCache weights
            droppedRest fewer nextAgrees
      | true =>
          simp only [if_true]
          cases found : world.nodes.find? entry.nodeId with
          | none =>
              rw [run_bind_of_threw
                (Nodes.run_currentWeight_of_none found)]
          | some node =>
              rw [run_bind_of_returned
                (Nodes.run_currentWeight_of_some found)]
              exact inductionHypothesis rounds (index + 1) nextCache _
                droppedRest fewer nextAgrees

theorem run_confirmedWeights (epochNumber : ℚ) :
    run (machine env) (confirmedWeights env epochNumber) world =
      (weighOutcome world (world.participations epochNumber) [],
        world) := by
  rw [confirmedWeights,
    run_bind_of_returned (run_readParticipation env world _)]
  unfold World.participations
  cases world.participation epochNumber with
  | none =>
      rfl
  | some reference =>
      exact run_weightLoop reference _ _ 0 [] [] rfl
        (Nat.lt_succ_of_le (Nat.le_add_right _ _))
        (by intro _ _ found; simp at found)

/-- The nodes of computed weights are registered. -/
theorem registered_of_weigh {entries : List Participation}
    {weights final : Weights}
    (weighed : weigh world entries weights = .ok final)
    (known : ∀ id ∈ weights.map Prod.fst,
      (world.nodes.find? id).isSome) :
    ∀ id ∈ final.map Prod.fst, (world.nodes.find? id).isSome := by
  induction entries generalizing weights with
  | nil =>
      cases weighed
      exact known
  | cons entry rest inductionHypothesis =>
      rw [weigh] at weighed
      split at weighed
      · split at weighed
        · next node found =>
            apply inductionHypothesis weighed
            intro id member
            rcases (Keyed.mem_map_upsert Prod.fst _ _ id).mp member with
              equal | old
            · subst equal
              simp [found]
            · exact known id old
        · cases weighed
      · exact inductionHypothesis weighed known

/-- Every node of computed weights is listed once. -/
theorem nodup_of_weigh {entries : List Participation}
    {weights final : Weights}
    (weighed : weigh world entries weights = .ok final)
    (unique : (weights.map Prod.fst).Nodup) :
    (final.map Prod.fst).Nodup := by
  induction entries generalizing weights with
  | nil =>
      cases weighed
      exact unique
  | cons entry rest inductionHypothesis =>
      rw [weigh] at weighed
      split at weighed
      · split at weighed
        · exact inductionHypothesis weighed
            (Keyed.nodup_upsert Prod.fst _ unique)
        · cases weighed
      · exact inductionHypothesis weighed unique

end Weights

section Finalization

open Await

variable {env : Environment} {world : World}

def nodeWeight (world : World) (nodeId : String) : ℚ :=
  ((world.nodes.find? nodeId).map NodeEntity.weight).getD 0

/-- The node entries of a distribution. -/
def payments (weights : Weights) (total : ℚ) : List DistributionEntry :=
  if 0 < (weights.map Prod.snd).sum then
    (sortedIds (weights.map Prod.fst)).map fun nodeId =>
      ⟨nodeId, paymentOf weights (total * (1 - marginRate))
        (weights.map Prod.snd).sum nodeId, reasonWork⟩
  else
    []

def paidOf (weights : Weights) (total : ℚ) : ℚ :=
  ((payments weights total).map DistributionEntry.amount).sum

/-- The whole distribution log. -/
def distributionOf (weights : Weights) (total : ℚ) :
    List DistributionEntry :=
  payments weights total ++
    [⟨marginRecipient, total - paidOf weights total, reasonMargin⟩]

/-- The world after the payment of one entry. -/
def payOne (env : Environment) (world : World)
    (entry : DistributionEntry) : World :=
  let received := world.append env "node.payment.received"
    (.paymentReceived entry.nodeId entry.amount
      (nodeWeight world entry.nodeId))
  received.withLedger
    { received.ledgerRow with
      earnedRetained := received.ledgerRow.earnedRetained + entry.amount }

/-- The world after the payment loop. -/
def payWorld (env : Environment) (world : World)
    (entries : List DistributionEntry) : World :=
  entries.foldl (payOne env) world

/-- Payments touch the chain, the ledger row and the clock only. -/
theorem payWorld_eq (env : Environment)
    (entries : List DistributionEntry) (world : World) :
    ∃ snapshots ledger clock initialization,
      payWorld env world entries =
        { world with
          snapshots := snapshots
          ledger := ledger
          clock := clock
          initialization := initialization } := by
  induction entries generalizing world with
  | nil =>
      exact ⟨_, _, _, _, rfl⟩
  | cons entry rest inductionHypothesis =>
      obtain ⟨snapshots, ledger, clock, initialization, equal⟩ :=
        inductionHypothesis (payOne env world entry)
      exact ⟨snapshots, ledger, clock, initialization, equal⟩

@[simp]
theorem payWorld_verdicts (entries : List DistributionEntry) :
    (payWorld env world entries).verdicts = world.verdicts := by
  obtain ⟨_, _, _, _, equal⟩ := payWorld_eq env entries world
  rw [equal]

@[simp]
theorem payWorld_epochs (entries : List DistributionEntry) :
    (payWorld env world entries).epochs = world.epochs := by
  obtain ⟨_, _, _, _, equal⟩ := payWorld_eq env entries world
  rw [equal]

@[simp]
theorem payWorld_nodes (entries : List DistributionEntry) :
    (payWorld env world entries).nodes = world.nodes := by
  obtain ⟨_, _, _, _, equal⟩ := payWorld_eq env entries world
  rw [equal]

@[simp]
theorem payWorld_oversight (entries : List DistributionEntry) :
    (payWorld env world entries).oversight = world.oversight := by
  obtain ⟨_, _, _, _, equal⟩ := payWorld_eq env entries world
  rw [equal]

@[simp]
theorem payWorld_captured (entries : List DistributionEntry) :
    (payWorld env world entries).captured = world.captured := by
  obtain ⟨_, _, _, _, equal⟩ := payWorld_eq env entries world
  rw [equal]

theorem settled_payWorld (settled : world.Settled)
    (entries : List DistributionEntry) :
    (payWorld env world entries).Settled := by
  induction entries generalizing world with
  | nil =>
      exact settled
  | cons entry rest inductionHypothesis =>
      exact inductionHypothesis (World.settled_withLedger _ _)

/-- The receipts of a payment loop. -/
theorem events_payWorld (entries : List DistributionEntry) :
    (payWorld env world entries).events =
      world.events ++ entries.map fun entry =>
        ("node.payment.received",
          Payload.paymentReceived entry.nodeId entry.amount
            (nodeWeight world entry.nodeId)) := by
  induction entries generalizing world with
  | nil =>
      simp [payWorld]
  | cons entry rest inductionHypothesis =>
      have step := @inductionHypothesis (payOne env world entry)
      simp only [payWorld, List.foldl_cons] at step ⊢
      rw [step]
      simp [payOne, World.events, nodeWeight]

/-- Payments add their sum to `earnedRetained`. -/
theorem ledgerRow_payWorld (entries : List DistributionEntry) :
    (payWorld env world entries).ledgerRow =
      { world.ledgerRow with
        earnedRetained := world.ledgerRow.earnedRetained +
          (entries.map DistributionEntry.amount).sum } := by
  induction entries generalizing world with
  | nil =>
      simp [payWorld]
  | cons entry rest inductionHypothesis =>
      have step := @inductionHypothesis (payOne env world entry)
      simp only [payWorld, List.foldl_cons] at step ⊢
      rw [step]
      simp [payOne, World.ledgerRow, add_assoc]

theorem run_payNodes {weights : Weights} {distributable totalWeight : ℚ}
    (ids : List String) (log : List DistributionEntry) (paid : ℚ)
    (settled : world.Settled)
    (known : ∀ id ∈ ids, (world.nodes.find? id).isSome) :
    run (machine env)
        (payNodes weights distributable totalWeight ids log paid) world =
      let entries := ids.map fun nodeId =>
        DistributionEntry.mk nodeId
          (paymentOf weights distributable totalWeight nodeId) reasonWork
      (.returned (log ++ entries,
          paid + (entries.map DistributionEntry.amount).sum),
        payWorld env world entries) := by
  induction ids generalizing log paid world with
  | nil =>
      simp [payNodes, payWorld]
  | cons id rest inductionHypothesis =>
      obtain ⟨node, found⟩ :=
        Option.isSome_iff_exists.mp (known id List.mem_cons_self)
      have received :=
        Nodes.run_receivePayment_of_some env found
          (paymentOf weights distributable totalWeight id)
      have receivedSettled :
          (world.append env "node.payment.received" (.paymentReceived id
            (paymentOf weights distributable totalWeight id)
            node.weight)).Settled :=
        settled
      have earned := ArosCoin.run_recordEarned env receivedSettled
        (paymentOf weights distributable totalWeight id)
      have weight : nodeWeight world id = node.weight := by
        simp [nodeWeight, found]
      rw [payNodes, run_bind_of_returned received,
        run_bind_of_returned earned, inductionHypothesis]
      · simp [payWorld, payOne, weight, add_assoc]
      · exact World.settled_withLedger _ _
      · intro other member
        exact known other (List.mem_cons_of_mem id member)

theorem run_payOut {weights : Weights} {total : ℚ}
    (settled : world.Settled)
    (known : ∀ id ∈ weights.map Prod.fst,
      (world.nodes.find? id).isSome) :
    run (machine env) (payOut weights total) world =
      (.returned (payments weights total, paidOf weights total),
        payWorld env world (payments weights total)) := by
  unfold payOut paidOf payments
  simp only
  split
  · rw [run_payNodes _ _ _ settled]
    · simp
    · intro id member
      apply known
      simpa [sortedIds] using member
  · rfl

/-- A payment loop that returns pays nothing or starts in a settled
world. -/
theorem settled_of_run_payNodes {weights : Weights}
    {distributable totalWeight : ℚ} {ids : List String}
    {log : List DistributionEntry} {paid : ℚ}
    {value : List DistributionEntry × ℚ} {after : World}
    (returned : run (machine env)
      (payNodes weights distributable totalWeight ids log paid) world =
        (.returned value, after)) :
    ids = [] ∨ world.Settled := by
  cases ids with
  | nil =>
      exact Or.inl rfl
  | cons id rest =>
      right
      obtain ⟨_, received, payment, onward⟩ :=
        exists_of_run_bind returned
      obtain ⟨_, _, earned, _⟩ := exists_of_run_bind onward
      obtain ⟨_, _, ledger, _⟩ := exists_of_run_bind earned
      have settled := ArosCoin.settled_of_run_ledger ledger
      cases found : world.nodes.find? id with
      | none =>
          rw [Nodes.run_receivePayment_of_none found] at payment
          cases payment
      | some node =>
          rw [Nodes.run_receivePayment_of_some env found] at payment
          cases payment
          exact settled

/-- Payments that return are the payments of the weights. -/
theorem run_payOut_of_returned {weights : Weights} {total : ℚ}
    (known : ∀ id ∈ weights.map Prod.fst,
      (world.nodes.find? id).isSome)
    {value : List DistributionEntry × ℚ} {after : World}
    (returned : run (machine env) (payOut weights total) world =
      (.returned value, after)) :
    run (machine env) (payOut weights total) world =
      (.returned (payments weights total, paidOf weights total),
        payWorld env world (payments weights total)) := by
  by_cases settled : world.Settled
  · exact run_payOut settled known
  · have nothing : payments weights total = [] := by
      unfold payOut at returned
      unfold payments
      simp only at returned
      split at returned
      · next positive =>
          rcases settled_of_run_payNodes returned with empty | settledNow
          · simp [empty]
          · exact absurd settledNow settled
      · next notPositive =>
          simp [notPositive]
    have noIds : 0 < (weights.map Prod.snd).sum →
        sortedIds (weights.map Prod.fst) = [] := by
      intro positive
      simpa [payments, positive] using nothing
    unfold paidOf
    rw [nothing]
    unfold payOut
    simp only
    split
    · next positive =>
        rw [noIds positive]
        rfl
    · rfl

def finalizedRow (row : Epoch) (weights : Weights) (endTime : ℕ) :
    Epoch :=
  { row with
    distributionLog := distributionOf weights row.totalFees
    operationalMargin := row.totalFees - paidOf weights row.totalFees
    status := .finalized
    endTime := endTime }

def finalizedResult (row : Epoch) (epochNumber : ℚ) (weights : Weights) :
    FinalizeResult where
  epochNumber := epochNumber
  distributionLog := distributionOf weights row.totalFees
  operationalMargin := row.totalFees - paidOf weights row.totalFees
  paid := paidOf weights row.totalFees
  totalFees := row.totalFees
  reconciled := isReconciled (paidOf weights row.totalFees)
    (row.totalFees - paidOf weights row.totalFees) row.totalFees

def finalizedPayload (row : Epoch) (epochNumber : ℚ)
    (weights : Weights) : Payload :=
  let result := finalizedResult row epochNumber weights
  .epochFinalized result.epochNumber result.totalFees
    result.operationalMargin result.paid result.reconciled
    result.distributionLog

def finalizedWorld (env : Environment) (world : World) (row : Epoch)
    (epochNumber : ℚ) (weights : Weights) : World :=
  let paid := payWorld env world (payments weights row.totalFees)
  let accrued := paid.append env "reserve.afc.accrual"
    (.afcAccrual (row.totalFees - paidOf weights row.totalFees))
  let stored := accrued.tick.saveEpoch
    (finalizedRow row weights (accrued.clock + 1))
  (stored.append env "commission.epoch.finalized"
    (finalizedPayload row epochNumber weights)).forget epochNumber

variable (env) in
theorem run_finalizeEpoch_of_none {epochNumber : ℚ}
    (missing : world.epochs.find? epochNumber = none) :
    run (machine env) (finalizeEpoch env epochNumber) world =
      (.threw (epochMissing env epochNumber), world) := by
  have required :
      run (machine env) (requireEpoch env epochNumber) world =
        (.threw (epochMissing env epochNumber), world) := by
    rw [requireEpoch, run_bind_of_returned (run_findEpoch env world _),
      missing]
    rfl
  rw [finalizeEpoch, run_bind_of_threw required]

theorem run_requireEpoch {epochNumber : ℚ} {row : Epoch}
    (found : world.epochs.find? epochNumber = some row) :
    run (machine env) (requireEpoch env epochNumber) world =
      (.returned row, world) := by
  rw [requireEpoch, run_bind_of_returned (run_findEpoch env world _),
    found]
  rfl

variable (env) in
theorem run_finalizeEpoch_of_closed {epochNumber : ℚ} {row : Epoch}
    (found : world.epochs.find? epochNumber = some row)
    (closed : row.status ≠ .opened) :
    run (machine env) (finalizeEpoch env epochNumber) world =
      (.returned (toResult row), world) := by
  rw [finalizeEpoch, run_bind_of_returned (run_requireEpoch found)]
  simp [closed]

variable (env) in
theorem run_finalizeEpoch_of_error {epochNumber : ℚ} {row : Epoch}
    {id : String}
    (found : world.epochs.find? epochNumber = some row)
    (isOpen : row.status = .opened)
    (weighed :
      weigh world (world.participations epochNumber) [] = .error id) :
    run (machine env) (finalizeEpoch env epochNumber) world =
      (.threw (Nodes.notRegistered id), world) := by
  have weights :
      run (machine env) (confirmedWeights env epochNumber) world =
        (.threw (Nodes.notRegistered id), world) := by
    rw [run_confirmedWeights, weighOutcome, weighed]
  rw [finalizeEpoch, run_bind_of_returned (run_requireEpoch found)]
  simp only [isOpen, ne_eq, not_true_eq_false, if_false]
  exact run_bind_of_threw weights

variable (env) in
private theorem run_finalizeEpoch_of_payOut {epochNumber : ℚ}
    {row : Epoch} {weights : Weights}
    (found : world.epochs.find? epochNumber = some row)
    (isOpen : row.status = .opened)
    (weighed :
      weigh world (world.participations epochNumber) [] = .ok weights)
    (paid : run (machine env) (payOut weights row.totalFees) world =
      (.returned (payments weights row.totalFees,
          paidOf weights row.totalFees),
        payWorld env world (payments weights row.totalFees))) :
    run (machine env) (finalizeEpoch env epochNumber) world =
      (.returned (finalizedResult row epochNumber weights),
        finalizedWorld env world row epochNumber weights) := by
  have computed :
      run (machine env) (confirmedWeights env epochNumber) world =
        (.returned weights, world) := by
    rw [run_confirmedWeights, weighOutcome, weighed]
  rw [finalizeEpoch, run_bind_of_returned (run_requireEpoch found)]
  simp only [isOpen, ne_eq, not_true_eq_false, if_false]
  rw [run_bind_of_returned computed, run_bind_of_returned paid]
  rfl

variable (env) in
theorem run_finalizeEpoch_of_ok {epochNumber : ℚ} {row : Epoch}
    {weights : Weights} (settled : world.Settled)
    (found : world.epochs.find? epochNumber = some row)
    (isOpen : row.status = .opened)
    (weighed :
      weigh world (world.participations epochNumber) [] = .ok weights) :
    run (machine env) (finalizeEpoch env epochNumber) world =
      (.returned (finalizedResult row epochNumber weights),
        finalizedWorld env world row epochNumber weights) :=
  run_finalizeEpoch_of_payOut env found isOpen weighed
    (run_payOut settled (registered_of_weigh weighed (by simp)))

theorem finalized_of_run_finalizeEpoch {epochNumber : ℚ} {row : Epoch}
    (found : world.epochs.find? epochNumber = some row)
    (isOpen : row.status = .opened) {value : FinalizeResult}
    {after : World}
    (returned : run (machine env) (finalizeEpoch env epochNumber) world =
      (.returned value, after)) :
    ∃ weights,
      weigh world (world.participations epochNumber) [] = .ok weights ∧
        value = finalizedResult row epochNumber weights ∧
        after = finalizedWorld env world row epochNumber weights := by
  cases weighed :
      weigh world (world.participations epochNumber) [] with
  | error id =>
      rw [run_finalizeEpoch_of_error env found isOpen weighed] at returned
      cases returned
  | ok weights =>
      have computed :
          run (machine env) (confirmedWeights env epochNumber) world =
            (.returned weights, world) := by
        rw [run_confirmedWeights, weighOutcome, weighed]
      have tail := returned
      rw [finalizeEpoch, run_bind_of_returned (run_requireEpoch found)]
        at tail
      simp only [isOpen, ne_eq, not_true_eq_false, if_false] at tail
      rw [run_bind_of_returned computed] at tail
      obtain ⟨_, _, paid, _⟩ := exists_of_run_bind tail
      have known : ∀ id ∈ weights.map Prod.fst,
          (world.nodes.find? id).isSome :=
        registered_of_weigh weighed (by simp)
      rw [run_finalizeEpoch_of_payOut env found isOpen weighed
        (run_payOut_of_returned known paid)] at returned
      cases returned
      exact ⟨weights, rfl, rfl, rfl⟩

end Finalization

end Commission

end ArosParadigm
