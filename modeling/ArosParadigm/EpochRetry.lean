import ArosParadigm.EpochRace
import ArosParadigm.EpochSettlement
import ArosParadigm.Footprint
import ArosParadigm.StoreFaults

/-!
# Retried finalizations

A call of a finalization throws, and the finalization is called again and
returns. Both calls together settle the epoch once exactly if the first one
has appended nothing.
-/

namespace ArosParadigm.EpochRetry

open Await Commission EpochRace EpochSettlement

/-- Over two calls every worker is paid once, three quarters of the pool are
earned, and the accrual and the finalization are recorded once. -/
structure SettledOnce (epochNumber : ℚ) (row : Epoch)
    (before after : World) (added : List (String × Payload)) : Prop where
  extended : after.events = before.events ++ added
  received : ∀ nodeId ∈ workers before epochNumber,
    added.countP (isReceipt nodeId) = 1
  earned : after.ledgerRow.earnedRetained =
    before.ledgerRow.earnedRetained + 3 / 4 * row.totalFees
  accrued : added.countP isAccrual = 1
  finalized : added.countP (isFinalization epochNumber) = 1

section Faultless

variable {env : Environment}

/-- A call that returns has met no fault. -/
def Faultless (env : Environment) (result : Type)
    (program : Service result) : Prop :=
  ∀ world trace value after,
    Attempt env program world trace (.returned value) after →
      run (machine env) program world = (.returned value, after)

theorem faultless_bind {first second : Type} {program : Service first}
    {continuation : first → Service second}
    (early : Faultless env first program)
    (late : ∀ value, Faultless env second (continuation value)) :
    Faultless env second (program >>= continuation) := by
  intro world trace value after attempt
  rcases attempt.bind_cases with
    ⟨middle, between, _, _, opened, onward, _⟩ |
    ⟨_, _, isOutcome⟩ | ⟨_, isOutcome⟩
  · rw [run_bind_of_returned (early _ _ _ _ opened)]
    exact late middle _ _ _ _ onward
  · cases isOutcome
  · cases isOutcome

theorem faultless_of_strict {permitted : Call → Prop} {result : Type}
    {program : Service result} (strict : Strict permitted program) :
    Faultless env result program :=
  fun _ _ _ _ attempt => attempt.run_of_strict strict

private theorem faultless_ledger :
    Faultless env ArosCoinLedger ArosCoin.ledger := by
  have strict_asks : ∀ {request : Call},
      Strict (fun _ => True) (ask request) :=
    fun {_} => strict_perform trivial _
  have kept : Strict (fun _ => True) ArosCoin.promiseKept := by
    refine strict_bind strict_asks fun promise => ?_
    cases promise <;> trivial
  have creates : Strict (fun _ => True) ArosCoin.createLedger := by
    refine strict_bind strict_asks fun existing => ?_
    split
    · exact strict_bind strict_asks fun _ => strict_asks
    · exact strict_asks
  have made : Faultless env Unit
      ((ArosCoin.createLedger.rescue fun _ =>
        ask (.settleInitialization .rejected)) >>= fun _ =>
          ArosCoin.promiseKept) := by
    intro world trace value after attempt
    rcases attempt.bind_cases with
      ⟨_, between, _, _, rescued, onward, _⟩ |
      ⟨_, _, isOutcome⟩ | ⟨_, isOutcome⟩
    · rcases rescued.rescue_cases with ⟨created, _⟩ |
        ⟨_, failed, _, _, _, handled, _⟩
      · rw [run_bind_of_returned (FaultyRun.run_rescue_of_returned
          (created.run_of_strict creates))]
        exact onward.run_of_strict kept
      · have settled := handled.run_of_strict strict_asks
        cases settled
        have awaited := onward.run_of_strict kept
        cases awaited
    · cases isOutcome
    · cases isOutcome
  have ensured : Faultless env Unit ArosCoin.ensureLedger := by
    rw [ArosCoin.ensureLedger_eq]
    refine faultless_bind (faultless_of_strict strict_asks)
      fun claimed => ?_
    split
    · exact made
    · exact faultless_of_strict kept
  refine faultless_bind ensured fun _ =>
    @faultless_of_strict _ (fun _ => True) _ _ ?_
  refine strict_bind strict_asks fun row => ?_
  cases row <;> trivial

private theorem carries_faultless : Carries (Faultless env) where
  bind := faultless_bind
  bystander := faultless_of_strict
  ledger := faultless_ledger

/-- A finalization that returns has met no fault. -/
theorem faultless_finalizeEpoch (epochNumber : ℚ) :
    Faultless env FinalizeResult
      (Commission.finalizeEpoch env epochNumber) := by
  have asks : ∀ request : Call,
      Faultless env request.Reply (ask request) := by
    intro request
    exact faultless_of_strict
      (@strict_perform signature _ (fun _ => True) request trivial _)
  apply carries_faultless.finalizeCommission
  · intro eventType payload _
    exact asks (.append eventType payload)
  · intro amount
    exact faultless_bind faultless_ledger fun _ => asks (.saveLedger _)

end Faultless

/-- The calls that only read. -/
def Reading : Call → Prop
  | .findVerdict _ => True
  | .findEpoch _ => True
  | .findNode _ => True
  | .readParticipation _ => True
  | .readParticipationAt .. => True
  | _ => False

/-- The calls of a finalization up to the save of the row. -/
def Paying : Call → Prop
  | .append _ (.paymentReceived ..) => True
  | .append _ (.afcAccrual _) => True
  | .append .. => False
  | .saveVerdict _ => False
  | .saveEpoch _ => False
  | .saveNode _ => False
  | .pushParticipation .. => False
  | .deleteParticipation _ => False
  | _ => True

/-- Nothing has been appended. -/
def Unrecorded (trace : List Call) : Prop :=
  ∀ eventType payload, Call.append eventType payload ∉ trace

/-- A finalization that has paid the node and that has not saved the row. -/
structure Underway (epochNumber : ℚ) (nodeId : String)
    (start world : World) : Prop where
  nodes : world.nodes = start.nodes
  verdicts : world.verdicts = start.verdicts
  epochs : world.epochs = start.epochs
  entries : world.participations epochNumber =
    start.participations epochNumber
  begun : start.events.countP (isReceipt nodeId) + 1 ≤
    world.events.countP (isReceipt nodeId)
  unfinished : world.events.countP (isFinalization epochNumber) =
    start.events.countP (isFinalization epochNumber)

/-- A finalization that has saved the row and has not recorded it. -/
structure Unreported (epochNumber : ℚ) (start world : World) : Prop where
  closed : ∃ row, world.epochs.find? epochNumber = some row ∧
    row.status ≠ .opened
  unfinished : world.events.countP (isFinalization epochNumber) =
    start.events.countP (isFinalization epochNumber)

section Throwing

variable {env : Environment} {start world after : World}
variable {epochNumber : ℚ} {nodeId : String} {trace : List Call}

theorem reading_cases {result : Type} {program : Service result}
    (strict : Strict Reading program)
    {outcome : Outcome ServiceError result}
    (attempt : Attempt env program world trace outcome after) :
    after = world ∧ Unrecorded trace := by
  have kept : ∀ request, Reading request → ∀ before reply next,
      machine env request before = some (reply, next) →
        world = before → world = next := by
    intro request reading before reply next answered same
    cases request <;> first
      | exact reading.elim
      | cases answered
        exact same
  have broke : ∀ request, Reading request → ∀ before next,
      Breaks request before next → world = before → world = next := by
    intro request reading before next breaks same
    cases breaks with
    | unchanged =>
        exact same
    | ticked stamps =>
        cases request <;> first
          | exact reading.elim
          | exact stamps.elim
    | numbered observes =>
        cases request <;> first
          | exact reading.elim
          | exact observes.elim
  have same := FaultyRun.invariant kept broke strict.uses attempt rfl
  refine ⟨same.symm, ?_⟩
  intro eventType payload member
  exact FaultyRun.permitted_of_mem strict.uses attempt _ member

theorem Unrecorded.append {front rest : List Call}
    (early : Unrecorded front) (late : Unrecorded rest) :
    Unrecorded (front ++ rest) := by
  intro eventType payload member
  rcases List.mem_append.mp member with inFront | inRest
  · exact early _ _ inFront
  · exact late _ _ inRest

theorem Unrecorded.of_append {front rest : List Call}
    (unrecorded : Unrecorded (front ++ rest)) : Unrecorded rest :=
  fun eventType payload member =>
    unrecorded eventType payload (List.mem_append_right front member)

/-- Reads before a sequence that throws. -/
theorem reading_bind_cases {first second : Type} {program : Service first}
    {continuation : first → Service second} {value : first}
    {reason : ServiceError} (strict : Strict Reading program)
    (returns : run (machine env) program world =
      (.returned value, world))
    (attempt : Attempt env (program >>= continuation) world trace
      (.threw reason) after) :
    after = world ∧ Unrecorded trace ∨
      ∃ front rest, Unrecorded front ∧ trace = front ++ rest ∧
        Attempt env (continuation value) world rest (.threw reason)
          after := by
  rcases attempt.bind_cases with
    ⟨answer, between, front, rest, opened, onward, rfl⟩ |
    ⟨_, opened, _⟩ | ⟨_, isOutcome⟩
  · obtain ⟨rfl, unrecorded⟩ := reading_cases strict opened
    have returned := opened.run_of_strict strict
    rw [returns] at returned
    cases returned
    exact Or.inr ⟨front, rest, unrecorded, rfl, onward⟩
  · exact Or.inl (reading_cases strict opened)
  · cases isOutcome

private theorem Underway.step
    (underway : Underway epochNumber nodeId start world) {request : Call}
    (paying : Paying request) {reply : request.Reply}
    (answered : machine env request world = some (reply, after)) :
    Underway epochNumber nodeId start after := by
  cases request with
  | append eventType payload =>
      cases answered
      have other : isFinalization epochNumber (eventType, payload) =
          false := by
        unfold isFinalization
        split
        · next number _ _ _ _ _ same =>
            cases same
            exact paying.elim
        · rfl
      refine { underway with begun := ?_, unfinished := ?_ }
      · have begun := underway.begun
        simp only [World.events, World.history_append, List.map_append,
          List.countP_append] at begun ⊢
        omega
      · have unfinished := underway.unfinished
        simp only [World.events, World.history_append, List.map_append,
          List.countP_append, List.map_cons, List.map_nil,
          World.nextSnapshot_eventType, World.nextSnapshot_payload,
          List.countP_singleton, other] at unfinished ⊢
        simpa using unfinished
  | claimInitialization =>
      obtain ⟨_, rfl⟩ := eq_of_claimInitialization answered
      exact { underway with }
  | awaitInitialization =>
      obtain rfl := eq_of_awaitInitialization answered
      exact underway
  | saveVerdict | saveEpoch | saveNode | pushParticipation
  | deleteParticipation =>
      exact paying.elim
  | _ =>
      cases answered
      exact { underway with }

theorem Underway.of_attempt {result : Type} {program : Service result}
    (uses : Uses Paying program) {outcome : Outcome ServiceError result}
    (attempt : Attempt env program world trace outcome after)
    (underway : Underway epochNumber nodeId start world) :
    Underway epochNumber nodeId start after := by
  have kept : ∀ request, Paying request → ∀ before reply next,
      machine env request before = some (reply, next) →
        Underway epochNumber nodeId start before →
          Underway epochNumber nodeId start next := by
    intro request paying before reply next answered holds
    exact holds.step paying answered
  have ticked : ∀ before, Underway epochNumber nodeId start before →
      Underway epochNumber nodeId start before.tick :=
    fun _ holds => { holds with }
  have drawn : ∀ before, Underway epochNumber nodeId start before →
      Underway epochNumber nodeId start before.drawId :=
    fun _ holds => { holds with }
  exact Attempt.keeps kept ticked drawn uses attempt underway

private theorem uses_ask {request : Call} (paying : Paying request) :
    Uses Paying (ask request) :=
  uses_perform paying _

private theorem uses_recordEarned (amount : ℚ) :
    Uses Paying (ArosCoin.recordEarned amount) :=
  uses_bind (ArosCoin.uses_ledger trivial (fun _ => trivial) trivial
    trivial trivial) fun _ => uses_ask trivial

private theorem uses_payNodes (weights : Weights)
    (distributable totalWeight : ℚ) (ids : List String)
    (log : List DistributionEntry) (paid : ℚ) :
    Uses Paying (payNodes weights distributable totalWeight ids log
      paid) := by
  induction ids generalizing log paid with
  | nil =>
      trivial
  | cons id rest inductionHypothesis =>
      refine uses_bind ?_ fun _ => ?_
      · refine uses_bind (uses_bind (uses_ask trivial) fun node => ?_)
          fun _ => uses_bind (uses_ask trivial) fun _ => trivial
        cases node <;> trivial
      · exact uses_bind (uses_recordEarned _) fun _ =>
          inductionHypothesis _ _

private theorem underway_of_receipt (amount weight : ℚ) :
    Underway epochNumber nodeId start
      (start.append env "node.payment.received"
        (.paymentReceived nodeId amount weight)) := by
  constructor
  · rfl
  · rfl
  · rfl
  · rfl
  · simp [World.events, isReceipt]
  · simp [World.events, isFinalization]

private theorem payNodes_cases {weights : Weights}
    {distributable totalWeight : ℚ} {rest : List String}
    {log : List DistributionEntry} {paid : ℚ}
    {outcome : Outcome ServiceError (List DistributionEntry × ℚ)}
    (known : (start.nodes.find? nodeId).isSome)
    (attempt : Attempt env (payNodes weights distributable totalWeight
      (nodeId :: rest) log paid) start trace outcome after) :
    (after = start ∨ after = start.tick) ∧ Unrecorded trace ∧
        (∀ answer, outcome ≠ .returned answer) ∨
      ¬ Unrecorded trace ∧ Underway epochNumber nodeId start after := by
  obtain ⟨node, found⟩ := Option.isSome_iff_exists.mp known
  obtain rfl : node.id = nodeId := Keyed.Table.key_of_find? found
  rw [payNodes, Nodes.receivePayment, Nodes.requireNode] at attempt
  simp only [bind_assoc, pure_bind] at attempt
  have answered : machine env (.findNode node.id) start =
      some (start.nodes.find? node.id, start) :=
    rfl
  rcases Attempt.ask_bind_cases answered attempt with
    ⟨read, checked, rfl⟩ | ⟨breaks, rfl, rfl⟩
  swap
  · refine Or.inl ⟨breaks.eq_or_tick id, ?_, ?_⟩
    · intro eventType payload member
      cases member
    · intro answer returned
      cases returned
  rw [found] at checked
  simp only [pure_bind] at checked
  rcases Attempt.ask_bind_cases rfl checked with
    ⟨paid, onward, rfl⟩ | ⟨breaks, rfl, rfl⟩
  · refine Or.inr ⟨?_, ?_⟩
    · intro unrecorded
      exact unrecorded _ _ (.tail _ (.head _))
    · exact (underway_of_receipt _ _).of_attempt
        (uses_bind (uses_recordEarned _) fun _ =>
          uses_payNodes _ _ _ _ _ _) onward
  · refine Or.inl ⟨breaks.eq_or_tick id, ?_, ?_⟩
    · intro eventType payload member
      cases List.mem_singleton.mp member
    · intro answer returned
      cases returned

/-- The steps of a finalization after its payments. -/
def closing (epochNumber : ℚ) (row : Epoch)
    (paid : List DistributionEntry × ℚ) : Service FinalizeResult := do
  let allocatedMargin := row.totalFees - paid.2
  Reserve.addAfcAccrual allocatedMargin
  let distributionLog :=
    paid.1 ++ [⟨marginRecipient, allocatedMargin, reasonMargin⟩]
  let endTime ← ask .tick
  ask (.saveEpoch
    { row with
      distributionLog := distributionLog
      operationalMargin := allocatedMargin
      status := .finalized
      endTime := endTime })
  let reconciled := isReconciled paid.2 allocatedMargin row.totalFees
  let _ ← ask (.append "commission.epoch.finalized"
    (.epochFinalized epochNumber row.totalFees allocatedMargin paid.2
      reconciled distributionLog))
  ask (.deleteParticipation epochNumber)
  return ⟨epochNumber, distributionLog, allocatedMargin, paid.2,
    row.totalFees, reconciled⟩

variable (env) in
theorem finalizeEpoch_eq_closing (epochNumber : ℚ) :
    Commission.finalizeEpoch env epochNumber =
      requireEpoch env epochNumber >>= fun row =>
        if row.status ≠ .opened then return toResult row
        else confirmedWeights env epochNumber >>= fun weights =>
          payOut weights row.totalFees >>= closing epochNumber row :=
  rfl

private theorem Unreported.tick
    (unreported : Unreported epochNumber start world) :
    Unreported epochNumber start world.tick :=
  { unreported with }

private theorem unreported_of_saved {row : Epoch}
    (key : row.epochNumber = epochNumber)
    (isClosed : row.status ≠ .opened)
    (underway : Underway epochNumber nodeId start world) :
    Unreported epochNumber start (world.saveEpoch row) := by
  refine ⟨⟨row, ?_, isClosed⟩, underway.unfinished⟩
  rw [World.saveEpoch_epochs, Keyed.Table.find?_save, if_pos key]

private theorem closing_cases {row : Epoch}
    {paid : List DistributionEntry × ℚ} {reason : ServiceError}
    (key : row.epochNumber = epochNumber)
    (attempt : Attempt env (closing epochNumber row paid) world trace
      (.threw reason) after)
    (underway : Underway epochNumber nodeId start world) :
    Underway epochNumber nodeId start after ∨
      Unreported epochNumber start after := by
  have ticked : ∀ {next : World} {request : Call} {broken : World},
      Underway epochNumber nodeId start next →
        Breaks request next broken →
          Underway epochNumber nodeId start broken := by
    intro next request broken holds breaks
    rcases breaks.eq_or_drawn with rfl | rfl | rfl
    · exact holds
    · exact { holds with }
    · exact { holds with }
  simp only [closing, Reserve.addAfcAccrual, bind_assoc, pure_bind]
    at attempt
  rcases Attempt.ask_bind_cases rfl attempt with
    ⟨_, accrued, _⟩ | ⟨breaks, _⟩
  swap
  · exact Or.inl (ticked underway breaks)
  have accruedUnderway : Underway epochNumber nodeId start
      (world.append env "reserve.afc.accrual"
        (.afcAccrual (row.totalFees - paid.2))) :=
    underway.step (by trivial : Paying (.append "reserve.afc.accrual"
      (.afcAccrual (row.totalFees - paid.2)))) rfl
  have stampedUnderway : Underway epochNumber nodeId start
      (world.append env "reserve.afc.accrual"
        (.afcAccrual (row.totalFees - paid.2))).tick :=
    { accruedUnderway with }
  obtain ⟨_, stamped, _⟩ := Attempt.of_memory_bind id rfl accrued
  rcases Attempt.ask_bind_cases rfl stamped with
    ⟨_, saved, _⟩ | ⟨breaks, _⟩
  swap
  · exact Or.inl (ticked stampedUnderway breaks)
  rcases Attempt.ask_bind_cases rfl saved with
    ⟨_, reported, _⟩ | ⟨breaks, _⟩
  · obtain ⟨_, finished, _⟩ := Attempt.of_memory_bind id rfl reported
    cases finished
  · right
    rcases breaks.eq_or_tick id with rfl | rfl
    · exact unreported_of_saved key nofun stampedUnderway
    · apply Unreported.tick
      exact unreported_of_saved key nofun stampedUnderway

private theorem strict_requireEpoch :
    Strict Reading (requireEpoch env epochNumber) := by
  refine strict_bind (strict_perform trivial _) fun stored => ?_
  cases stored <;> trivial

private theorem strict_weights :
    Strict Reading (confirmedWeights env epochNumber) :=
  strict_confirmedWeights env (fun _ => trivial) (fun _ _ => trivial)
    (fun _ => trivial) (fun _ => trivial) epochNumber

/-- A finalization of an open epoch that throws has appended nothing, or it
has paid the first node, or it has closed the row. -/
theorem threw_cases {row : Epoch} {weights : Weights} {first : String}
    {others : List String} {reason : ServiceError}
    (found : start.epochs.find? epochNumber = some row)
    (isOpen : row.status = .opened)
    (weighed :
      weigh start (start.participations epochNumber) [] = .ok weights)
    (positive : 0 < (weights.map Prod.snd).sum)
    (sorted : sortedIds (weights.map Prod.fst) = first :: others)
    (attempt : Attempt env (Commission.finalizeEpoch env epochNumber)
      start trace (.threw reason) after) :
    (after = start ∨ after = start.tick) ∧ Unrecorded trace ∨
      ¬ Unrecorded trace ∧
        (Underway epochNumber first start after ∨
          Unreported epochNumber start after) := by
  rw [finalizeEpoch_eq_closing] at attempt
  have untouched : ∀ {front : List Call},
      after = start ∧ Unrecorded front →
        (after = start ∨ after = start.tick) ∧ Unrecorded front :=
    fun same => ⟨Or.inl same.1, same.2⟩
  rcases reading_bind_cases strict_requireEpoch (run_requireEpoch found)
      attempt with
    same | ⟨front, rest, required, rfl, opened⟩
  · exact Or.inl (untouched same)
  simp only [isOpen, ne_eq, not_true_eq_false, if_false] at opened
  have computed : run (machine env) (confirmedWeights env epochNumber)
      start = (.returned weights, start) := by
    rw [run_confirmedWeights, weighOutcome, weighed]
  rcases reading_bind_cases strict_weights computed opened with
    ⟨same, unrecorded⟩ | ⟨middle, last, unweighed, rfl, paying⟩
  · exact Or.inl ⟨Or.inl same, required.append unrecorded⟩
  have known : (start.nodes.find? first).isSome := by
    apply registered_of_weigh weighed (by simp)
    have member : first ∈ sortedIds (weights.map Prod.fst) := by
      rw [sorted]
      exact List.mem_cons_self
    simpa [sortedIds] using member
  unfold payOut at paying
  simp only [if_pos positive, sorted] at paying
  rcases paying.bind_cases with
    ⟨paid, between, payTrace, closeTrace, payments, closes, rfl⟩ |
    ⟨_, payments, _⟩ | ⟨_, isOutcome⟩
  · rcases payNodes_cases known payments with ⟨_, _, never⟩ |
      ⟨recorded, underway⟩
    · exact absurd rfl (never _)
    refine Or.inr ⟨?_, closing_cases
      (Keyed.Table.key_of_find? found) closes underway⟩
    intro unrecorded
    apply recorded
    intro eventType payload member
    exact unrecorded.of_append.of_append _ _
      (List.mem_append_left closeTrace member)
  · rcases payNodes_cases known payments with ⟨same, unpaid, _⟩ |
      ⟨recorded, underway⟩
    · exact Or.inl ⟨same, required.append (unweighed.append unpaid)⟩
    · refine Or.inr ⟨?_, Or.inl underway⟩
      intro unrecorded
      exact recorded unrecorded.of_append.of_append
  · cases isOutcome

end Throwing

/-! ## The retry -/

section Retrying

variable {env : Environment} {start world after : World}
variable {epochNumber : ℚ} {nodeId : String} {row : Epoch}

private theorem Underway.confirmedEntries_eq
    (underway : Underway epochNumber nodeId start world) :
    confirmedEntries world epochNumber =
      confirmedEntries start epochNumber := by
  have same : confirmed world = confirmed start := by
    funext processId
    rw [confirmed, confirmed, underway.verdicts]
  rw [confirmedEntries, confirmedEntries, underway.entries, same]

private theorem Underway.weigh_eq
    (underway : Underway epochNumber nodeId start world)
    (entries : List Participation) (weights : Weights) :
    weigh world entries weights = weigh start entries weights := by
  have same : confirmed world = confirmed start := by
    funext processId
    rw [confirmed, confirmed, underway.verdicts]
  induction entries generalizing weights with
  | nil =>
      rfl
  | cons entry rest inductionHypothesis =>
      rw [weigh, weigh, same, underway.nodes]
      split
      · split
        · exact inductionHypothesis _
        · rfl
      · exact inductionHypothesis _

private theorem Underway.workers_eq
    (underway : Underway epochNumber nodeId start world) :
    workers world epochNumber = workers start epochNumber := by
  rw [workers, workers, underway.confirmedEntries_eq]

private theorem Underway.totalWork_eq
    (underway : Underway epochNumber nodeId start world) :
    totalWork world epochNumber = totalWork start epochNumber := by
  have weight : nodeWeight world = nodeWeight start := by
    funext id
    rw [nodeWeight, nodeWeight, underway.nodes]
  rw [totalWork, totalWork, underway.workers_eq]
  apply Finset.sum_congr rfl
  intro id _
  rw [workWeight, workWeight, underway.confirmedEntries_eq, weight]

/-- A finalization of a worked epoch that returns settles it once. -/
theorem settledOnce_of_run
    (found : start.epochs.find? epochNumber = some row)
    (isOpen : row.status = .opened)
    (worked : 0 < totalWork start epochNumber) {value : FinalizeResult}
    (returned : run (machine env)
      (Commission.finalizeEpoch env epochNumber) start =
        (.returned value, after)) :
    ∃ added, SettledOnce epochNumber row start after added := by
  obtain ⟨weights, weighed, -, rfl⟩ :=
    finalized_of_run_finalizeEpoch found isOpen returned
  refine ⟨receiptsOf start (payments weights row.totalFees) ++ _,
    events_finalizedWorld row weights, ?_, ?_, ?_, ?_⟩
  · intro id member
    rw [List.countP_append, countP_isReceipt]
    have entry : id ∈ (payments weights row.totalFees).map
        DistributionEntry.nodeId := by
      rw [totalWork_eq] at worked
      rw [payments_eq_dues weighed, dues, if_pos worked]
      simpa [List.map_map, Function.comp_def, ← EpochSettlement.workers_eq]
        using member
    have unique := nodup_payments (nodup_of_weigh weighed (by simp))
      row.totalFees
    rw [List.count_eq_one_of_mem unique entry]
    simp [isReceipt]
  · rw [ledgerRow_finalizedWorld]
    change start.ledgerRow.earnedRetained + paidOf weights row.totalFees =
      _
    rw [paidOf_of_pos weighed worked, marginRate]
    ring
  · rw [List.countP_append, countP_receiptsOf (fun _ _ _ => rfl)]
    simp [isAccrual]
  · rw [List.countP_append, countP_receiptsOf (fun _ _ _ => rfl)]
    simp [isFinalization, finalizedPayload, finalizedResult]

private theorem mem_workers_of_sorted {weights : Weights} {first : String}
    {others : List String}
    (weighed :
      weigh world (world.participations epochNumber) [] = .ok weights)
    (sorted : sortedIds (weights.map Prod.fst) = first :: others) :
    first ∈ workers world epochNumber := by
  rw [EpochSettlement.workers_eq, ← toFinset_keys weighed,
    List.mem_toFinset]
  have member : first ∈ sortedIds (weights.map Prod.fst) := by
    rw [sorted]
    exact List.mem_cons_self
  simpa [sortedIds] using member

/-- A finalization with a node that is not registered throws before it has
appended anything, and again. -/
private theorem ok_of_retried {middle : World} {trace again : List Call}
    {reason : ServiceError} {value : FinalizeResult}
    (found : world.epochs.find? epochNumber = some row)
    (isOpen : row.status = .opened)
    (threw : Attempt env (Commission.finalizeEpoch env epochNumber) world
      trace (.threw reason) middle)
    (retried : Attempt env (Commission.finalizeEpoch env epochNumber)
      middle again (.returned value) after) :
    ∃ weights,
      weigh world (world.participations epochNumber) [] = .ok weights := by
  cases weighed : weigh world (world.participations epochNumber) [] with
  | ok weights =>
      exact ⟨weights, rfl⟩
  | error id =>
      exfalso
      have stays : middle = world := by
        rw [finalizeEpoch_eq_closing] at threw
        rcases reading_bind_cases strict_requireEpoch
          (run_requireEpoch found) threw with
          ⟨same, _⟩ | ⟨_, _, _, _, opened⟩
        · exact same
        simp only [isOpen, ne_eq, not_true_eq_false, if_false] at opened
        rcases opened.bind_cases with
          ⟨weights, _, _, _, computed, _⟩ | ⟨_, failed, _⟩ |
          ⟨_, isOutcome⟩
        · have returned := computed.run_of_strict strict_weights
          rw [run_confirmedWeights, weighOutcome, weighed] at returned
          cases returned
        · exact (reading_cases strict_weights failed).1
        · cases isOutcome
      subst stays
      have returned := faultless_finalizeEpoch epochNumber _ _ _ _ retried
      rw [run_finalizeEpoch_of_error env found isOpen weighed] at returned
      cases returned

/-- A finalization of an open epoch that throws and is then called again and
returns has settled the epoch once exactly when the first call has appended
nothing. -/
theorem settled_once_iff (env : Environment) {middle : World}
    {trace again : List Call} {reason : ServiceError}
    {value : FinalizeResult}
    (found : world.epochs.find? epochNumber = some row)
    (isOpen : row.status = .opened)
    (worked : 0 < totalWork world epochNumber)
    (threw : Attempt env (Commission.finalizeEpoch env epochNumber) world
      trace (.threw reason) middle)
    (retried : Attempt env (Commission.finalizeEpoch env epochNumber)
      middle again (.returned value) after) :
    (∃ added, SettledOnce epochNumber row world after added) ↔
      ∀ eventType payload, Call.append eventType payload ∉ trace := by
  obtain ⟨weights, weighed⟩ := ok_of_retried found isOpen threw retried
  have returned := faultless_finalizeEpoch epochNumber _ _ _ _ retried
  have positive : 0 < (weights.map Prod.snd).sum := by
    rw [sum_weights weighed, ← EpochSettlement.totalWork_eq]
    exact worked
  obtain ⟨first, others, sorted⟩ :
      ∃ first others, sortedIds (weights.map Prod.fst) =
        first :: others := by
    apply List.exists_cons_of_ne_nil
    intro empty
    have nothing : weights = [] := by
      have same := List.perm_insertionSort (fun first second =>
        Json.utf16 first ≤ Json.utf16 second) (weights.map Prod.fst)
      rw [sortedIds] at empty
      rw [empty] at same
      exact List.map_eq_nil_iff.mp same.symm.eq_nil
    rw [nothing] at positive
    exact absurd positive (lt_irrefl 0)
  rcases threw_cases found isOpen weighed positive sorted threw with
    ⟨same, unrecorded⟩ | ⟨recorded, underway | unreported⟩
  · refine iff_of_true ?_ unrecorded
    rcases same with rfl | rfl
    · exact settledOnce_of_run found isOpen worked returned
    · obtain ⟨added, once⟩ :=
        @settledOnce_of_run env world.tick after epochNumber row found
          isOpen worked value returned
      exact ⟨added, once.extended, once.received, once.earned,
        once.accrued, once.finalized⟩
  · refine iff_of_false ?_ recorded
    rintro ⟨added, once⟩
    have stillFound : middle.epochs.find? epochNumber = some row := by
      rw [underway.epochs, found]
    have stillWorked : 0 < totalWork middle epochNumber := by
      rw [underway.totalWork_eq]
      exact worked
    obtain ⟨later, again⟩ :=
      settledOnce_of_run stillFound isOpen stillWorked returned
    have worker := mem_workers_of_sorted weighed sorted
    have total := congrArg (List.countP (isReceipt first)) once.extended
    have more := congrArg (List.countP (isReceipt first)) again.extended
    rw [List.countP_append, once.received first worker] at total
    rw [← underway.workers_eq] at worker
    rw [List.countP_append, again.received first worker] at more
    have begun := underway.begun
    omega
  · refine iff_of_false ?_ recorded
    rintro ⟨added, once⟩
    obtain ⟨stored, closed, isClosed⟩ := unreported.closed
    rw [run_finalizeEpoch_of_closed env closed isClosed] at returned
    cases returned
    have total := congrArg (List.countP (isFinalization epochNumber))
      once.extended
    rw [List.countP_append, once.finalized, unreported.unfinished]
      at total
    omega

/-- The world after the append of a first payment. -/
def receivedWorld (env : Environment) (world : World) (row : Epoch)
    (weights : Weights) (node : NodeEntity) : World :=
  world.append env "node.payment.received" (.paymentReceived node.id
    (paymentOf weights (row.totalFees * (1 - marginRate))
      (weights.map Prod.snd).sum node.id) node.weight)

/-- The world in which the tally of a first payment is to be saved. -/
def untalliedWorld (env : Environment) (world : World) (row : Epoch)
    (weights : Weights) (node : NodeEntity) : World :=
  (receivedWorld env world row weights node).withLedger world.ledgerRow

variable (env) in
/-- The save of the first tally may throw. -/
theorem exists_attempt_of_rejected_tally {weights : Weights}
    {node : NodeEntity} {others : List String} (settled : start.Settled)
    (found : start.epochs.find? epochNumber = some row)
    (isOpen : row.status = .opened)
    (weighed :
      weigh start (start.participations epochNumber) [] = .ok weights)
    (positive : 0 < (weights.map Prod.snd).sum)
    (sorted : sortedIds (weights.map Prod.fst) = node.id :: others)
    (known : start.nodes.find? node.id = some node) :
    ∃ trace, Attempt env (Commission.finalizeEpoch env epochNumber) start
      trace (.threw .storeRejected)
      (untalliedWorld env start row weights node) := by
  have computed : run (machine env) (confirmedWeights env epochNumber)
      start = (.returned weights, start) := by
    rw [run_confirmedWeights, weighOutcome, weighed]
  have received := Nodes.run_receivePayment_of_some env known
    (paymentOf weights (row.totalFees * (1 - marginRate))
      (weights.map Prod.snd).sum node.id)
  have unsaved : ∀ amount, ∃ trace, Attempt env
      (ArosCoin.recordEarned amount)
      (receivedWorld env start row weights node) trace
      (.threw .storeRejected)
      (untalliedWorld env start row weights node) := by
    intro amount
    have read := @ArosCoin.run_ledger env
      (receivedWorld env start row weights node) settled
    refine FaultyRun.exists_bind_of_run read ?_
    exact ⟨[], .rejected (.unchanged (by trivial) _) (.fail _ _)⟩
  rw [finalizeEpoch_eq_closing]
  refine FaultyRun.exists_bind_of_run (run_requireEpoch found) ?_
  simp only [isOpen, ne_eq, not_true_eq_false, if_false]
  refine FaultyRun.exists_bind_of_run computed ?_
  unfold payOut
  simp only [if_pos positive, sorted, payNodes, bind_assoc]
  refine FaultyRun.exists_bind_of_run received ?_
  obtain ⟨trace, threw⟩ := unsaved (paymentOf weights
    (row.totalFees * (1 - marginRate)) (weights.map Prod.snd).sum node.id)
  exact ⟨trace, threw.bind_of_threw⟩

variable (env) in
/-- A retry after the first tally has thrown pays the first node again. -/
theorem exists_repeated_payment {weights : Weights} {node : NodeEntity}
    {others : List String} (settled : start.Settled)
    (found : start.epochs.find? epochNumber = some row)
    (isOpen : row.status = .opened)
    (weighed :
      weigh start (start.participations epochNumber) [] = .ok weights)
    (positive : 0 < (weights.map Prod.snd).sum)
    (sorted : sortedIds (weights.map Prod.fst) = node.id :: others)
    (known : start.nodes.find? node.id = some node) :
    ∃ trace middle again value after,
      Attempt env (Commission.finalizeEpoch env epochNumber) start trace
          (.threw .storeRejected) middle ∧
        Attempt env (Commission.finalizeEpoch env epochNumber) middle again
          (.returned value) after ∧
        start.events.countP (isReceipt node.id) + 2 ≤
          after.events.countP (isReceipt node.id) := by
  obtain ⟨trace, threw⟩ := exists_attempt_of_rejected_tally env settled
    found isOpen weighed positive sorted known
  have receipt := @underway_of_receipt env start epochNumber node.id
    (paymentOf weights (row.totalFees * (1 - marginRate))
      (weights.map Prod.snd).sum node.id) node.weight
  have underway : Underway epochNumber node.id start
      (untalliedWorld env start row weights node) :=
    { receipt with }
  have stillFound : (untalliedWorld env start row weights
      node).epochs.find? epochNumber = some row :=
    found
  have stillWeighed : weigh (untalliedWorld env start row weights node)
      ((untalliedWorld env start row weights node).participations
        epochNumber) [] = .ok weights := by
    rw [underway.weigh_eq, underway.entries, weighed]
  have stillSettled : (untalliedWorld env start row weights
      node).Settled :=
    World.settled_withLedger _ _
  have returned := run_finalizeEpoch_of_ok env stillSettled stillFound
    isOpen stillWeighed
  have ⟨again, retried⟩ := @FaultyRun.of_run signature ServiceError
    FinalizeResult World (machine env) Breaks
    (Commission.finalizeEpoch env epochNumber)
    (untalliedWorld env start row weights node)
  rw [returned] at retried
  refine ⟨trace, _, again, _, _, threw, retried, ?_⟩
  have worked : 0 < totalWork (untalliedWorld env start row weights node)
      epochNumber := by
    rw [underway.totalWork_eq, EpochSettlement.totalWork_eq,
      ← sum_weights weighed]
    exact positive
  obtain ⟨added, once⟩ :=
    settledOnce_of_run stillFound isOpen worked returned
  have worker : node.id ∈ workers start epochNumber :=
    mem_workers_of_sorted weighed sorted
  rw [← underway.workers_eq] at worker
  rw [once.extended, List.countP_append, once.received _ worker]
  have begun := underway.begun
  omega

end Retrying

/-- One confirmed participation of `node-1` and five units of fees. -/
abbrev recorded : World :=
  Restart.worldAfter .plain Restart.recordedOperations

private theorem recorded_row :
    ∃ row, recorded.epochs.find? 1 = some row ∧
      row.status = .opened ∧ row.totalFees = 5 := by
  have present : (recorded.epochs.find? 1).any (fun row =>
      row.status = .opened ∧ row.totalFees = 5) = true := by
    decide +kernel
  rw [Option.any_eq_true_iff_get] at present
  obtain ⟨exists_, facts⟩ := present
  rw [decide_eq_true_eq] at facts
  exact ⟨_, (Option.some_get exists_).symm, facts⟩

private theorem recorded_weights :
    weigh recorded (recorded.participations 1) [] =
      .ok [("node-1", 1)] := by
  decide +kernel

private theorem recorded_worked : 0 < totalWork recorded 1 := by
  decide +kernel

/-- A retry after a read that throws. -/
theorem retry_after_rejected_read :
    ∃ row value after added,
      run (machine .plain) (Commission.finalizeEpoch .plain 1) recorded =
          (.returned value, after) ∧
        SettledOnce 1 row recorded after added := by
  obtain ⟨row, found, isOpen, _⟩ := recorded_row
  have recoverable :=
    Restart.recoverable_worldAfter .plain Restart.recordedOperations
  have returned := run_finalizeEpoch_of_ok .plain recoverable.settled
    found isOpen recorded_weights
  have ⟨again, retried⟩ := @FaultyRun.of_run signature ServiceError
    FinalizeResult World (machine .plain) Breaks
    (Commission.finalizeEpoch .plain 1) recorded
  rw [returned] at retried
  have threw : Attempt .plain (Commission.finalizeEpoch .plain 1) recorded
      [] (.threw .storeRejected) recorded :=
    .rejected (.unchanged (by trivial) _) (.fail _ _)
  obtain ⟨added, once⟩ := (settled_once_iff .plain found isOpen
    recorded_worked threw retried).mpr nofun
  exact ⟨row, _, _, added, returned, once⟩

/-- A retry after a tally that throws pays `node-1` a second time. -/
theorem retry_pays_again :
    ∃ row trace middle again value after,
      recorded.epochs.find? 1 = some row ∧ row.status = .opened ∧
        0 < totalWork recorded 1 ∧
        Attempt .plain (Commission.finalizeEpoch .plain 1) recorded trace
          (.threw .storeRejected) middle ∧
        Attempt .plain (Commission.finalizeEpoch .plain 1) middle again
          (.returned value) after ∧
        2 ≤ after.events.countP (isReceipt "node-1") ∧
        ¬∃ added, SettledOnce 1 row recorded after added := by
  obtain ⟨row, found, isOpen, fees⟩ := recorded_row
  have settled := (Restart.recoverable_worldAfter .plain
    Restart.recordedOperations).settled
  have known : (recorded.nodes.find? "node-1").isSome := by
    decide +kernel
  obtain ⟨node, isNode⟩ := Option.isSome_iff_exists.mp known
  have key : node.id = "node-1" := Keyed.Table.key_of_find? isNode
  have sorted : sortedIds ([("node-1", (1 : ℚ))].map Prod.fst) =
      node.id :: [] := by
    rw [key]
    rfl
  have positive : 0 < ([("node-1", (1 : ℚ))].map Prod.snd).sum := by
    decide +kernel
  obtain ⟨trace, middle, again, value, after, threw, retried, more⟩ :=
    exists_repeated_payment .plain settled found isOpen recorded_weights
      positive sorted (by rwa [key])
  rw [key] at more
  change recorded.events.countP (isReceipt "node-1") + 2 ≤ _ at more
  refine ⟨row, trace, middle, again, value, after, found, isOpen,
    recorded_worked, threw, retried, by omega, ?_⟩
  rintro ⟨added, once⟩
  have worker : "node-1" ∈ workers recorded 1 := by
    decide +kernel
  rw [once.extended, List.countP_append, once.received _ worker] at more
  omega

end ArosParadigm.EpochRetry
