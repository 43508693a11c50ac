import ArosParadigm.Orchestrator
import ArosParadigm.Library.Interleaving
import ArosParadigm.Library.Rejection

/-!
# Concurrent finalizations

`finalizeEpoch` reads the status of an epoch first and writes it after the
last payment. A second call that reads in between pays the epoch again. When
every call reads the row before all others have started or after the row is
finalized, the epoch is paid once.
-/

namespace ArosParadigm.EpochRace

open Await

section Brittle

variable {env : Environment}

private theorem brittle_ask (request : Call) :
    Brittle (machine env) (ask request) :=
  @brittle_perform signature _ _ _ .storeRejected request

private theorem brittle_promiseKept :
    Brittle (machine env) ArosCoin.promiseKept := by
  apply (brittle_ask .awaitInitialization).bind
  intro promise
  cases promise <;> trivial

private theorem doomed_settleRejected (now : World) :
    Doomed (machine env)
      (ask (.settleInitialization .rejected) >>= fun _ =>
        ArosCoin.promiseKept) now := by
  apply doomed_perform_bind
  intro _ failed answered
  cases answered
  apply doomed_perform_bind
  intro promise after answered
  cases answered
  trivial

private theorem brittle_ensureLedger :
    Brittle (machine env) ArosCoin.ensureLedger := by
  have settled : Brittle (machine env)
      (((ask (.settleInitialization .fulfilled)).rescue fun _ =>
        ask (.settleInitialization .rejected)) >>= fun _ =>
          ArosCoin.promiseKept) :=
    ⟨fun _ => brittle_promiseKept, doomed_settleRejected⟩
  rw [ArosCoin.ensureLedger_eq]
  apply (brittle_ask .claimInitialization).bind
  intro claimed
  cases claimed with
  | false =>
      exact brittle_promiseKept
  | true =>
      refine ⟨?_, doomed_settleRejected⟩
      intro existing
      cases existing with
      | some row =>
          exact settled
      | none =>
          exact ⟨fun _ => settled, doomed_settleRejected⟩

private theorem brittle_recordEarned (amount : ℚ) :
    Brittle (machine env) (ArosCoin.recordEarned amount) := by
  have ledger : Brittle (machine env) ArosCoin.ledger := by
    apply brittle_ensureLedger.bind
    intro _
    apply (brittle_ask .findLedger).bind
    intro row
    cases row <;> trivial
  exact ledger.bind fun _ => brittle_ask _

private theorem brittle_requireNode (nodeId : String) :
    Brittle (machine env) (Nodes.requireNode nodeId) := by
  apply (brittle_ask (.findNode nodeId)).bind
  intro row
  cases row <;> trivial

private theorem brittle_weightLoop (reference rounds index : ℕ)
    (cache : List (String × Bool)) (weights : Commission.Weights) :
    Brittle (machine env)
      (Commission.weightLoop reference rounds index cache weights) := by
  induction rounds generalizing index cache weights with
  | zero =>
      trivial
  | succ rounds inductionHypothesis =>
      apply (brittle_ask (.readParticipationAt reference index)).bind
      intro entry
      cases entry with
      | none =>
          trivial
      | some entry =>
          have verdict : Brittle (machine env)
              (Commission.confirmedVerdict cache entry.processId) := by
            unfold Commission.confirmedVerdict
            cases cache.lookup entry.processId with
            | some confirmed =>
                trivial
            | none =>
                exact (brittle_ask _).bind fun _ => trivial
          apply verdict.bind
          rintro ⟨confirmed, cache⟩
          cases confirmed with
          | false =>
              exact inductionHypothesis _ _ _
          | true =>
              have weight : Brittle (machine env)
                  (Nodes.currentWeight entry.nodeId) :=
                (brittle_requireNode _).bind fun _ => trivial
              exact weight.bind fun _ => inductionHypothesis _ _ _

private theorem brittle_payNodes (weights : Commission.Weights)
    (distributable totalWeight : ℚ) (nodeIds : List String)
    (log : List DistributionEntry) (paid : ℚ) :
    Brittle (machine env)
      (Commission.payNodes weights distributable totalWeight nodeIds log
        paid) := by
  induction nodeIds generalizing log paid with
  | nil =>
      trivial
  | cons nodeId rest inductionHypothesis =>
      have payment : ∀ amount, Brittle (machine env)
          (Nodes.receivePayment nodeId amount) :=
        fun amount => (brittle_requireNode _).bind fun _ =>
          (brittle_ask _).bind fun _ => trivial
      exact (payment _).bind fun _ =>
        (brittle_recordEarned _).bind fun _ => inductionHypothesis _ _

/-- No finalization returns after one of its calls has been rejected. -/
theorem brittle_finalizeEpoch (epochNumber : ℚ) :
    Brittle (machine env)
      (Commission.finalizeEpoch env epochNumber) := by
  have required : Brittle (machine env)
      (Commission.requireEpoch env epochNumber) := by
    apply (brittle_ask (.findEpoch epochNumber)).bind
    intro row
    cases row <;> trivial
  have weighed : Brittle (machine env)
      (Commission.confirmedWeights env epochNumber) := by
    apply (brittle_ask (.readParticipation epochNumber)).bind
    intro found
    cases found with
    | none =>
        trivial
    | some array =>
        exact brittle_weightLoop _ _ _ _ _
  have paid : ∀ weights total, Brittle (machine env)
      (Commission.payOut weights total) := by
    intro weights total
    unfold Commission.payOut
    simp only
    split
    · exact brittle_payNodes _ _ _ _ _ _
    · trivial
  apply required.bind
  intro row
  simp only
  split
  · trivial
  apply weighed.bind
  intro weights
  apply (paid weights row.totalFees).bind
  rintro ⟨payments, paid⟩
  exact (brittle_ask _).bind fun _ => (brittle_ask _).bind fun _ =>
    (brittle_ask _).bind fun _ => (brittle_ask _).bind fun _ =>
      (brittle_ask _).bind fun _ => trivial

end Brittle

/-- Concurrent calls of `CommissionService.finalizeEpoch`. -/
abbrev Calls := Pool signature ServiceError FinalizeResult World

/-- One call of `finalizeEpoch` and `others` more. -/
def launch (env : Environment) (start : World) (epochNumber : ℚ)
    (others : ℕ) : Calls :=
  Pool.fresh start
    (List.replicate (others + 1) (Commission.finalizeEpoch env epochNumber))

/-- The epoch is stored and not open any more. -/
def Closed (epochNumber : ℚ) (world : World) : Prop :=
  (world.epochs.find? epochNumber).any fun row =>
    row.status ≠ .opened

instance (epochNumber : ℚ) : DecidablePred (Closed epochNumber) :=
  fun _ => inferInstanceAs (Decidable (_ = true))

/-- A call starts before all others or after the epoch is closed. -/
def Exclusive (epochNumber : ℚ) (calls : Calls) : Move → Prop
  | .answer index =>
      (∃ thread ∈ calls.threads[index]?, thread.past ≠ []) ∨
        (∀ thread ∈ calls.threads, thread.past = []) ∨
        Closed epochNumber calls.state
  | .reject _ => True

instance (epochNumber : ℚ) (calls : Calls) :
    DecidablePred (Exclusive epochNumber calls)
  | .answer index => inferInstanceAs (Decidable
      ((∃ thread ∈ calls.threads[index]?, thread.past ≠ []) ∨
        (∀ thread ∈ calls.threads, thread.past = []) ∨
        Closed epochNumber calls.state))
  | .reject _ => .isTrue trivial

def Opened (epochNumber : ℚ) (start : World) : Prop :=
  ∃ row, start.epochs.find? epochNumber = some row ∧
    row.status = .opened

def isFinalization (epochNumber : ℚ) : String × Payload → Bool
  | ("commission.epoch.finalized", .epochFinalized number ..) =>
      number = epochNumber
  | _ => false

/-- The event is a payment to the node. -/
def isReceipt (nodeId : String) : String × Payload → Bool
  | ("node.payment.received", .paymentReceived receiver ..) =>
      receiver = nodeId
  | _ => false

def isAccrual : String × Payload → Bool
  | ("reserve.afc.accrual", .afcAccrual _) => true
  | _ => false

/-- What the calls add to the chain and to `earnedRetained` is one payout of
the epoch. -/
structure PaidOnce (epochNumber : ℚ) (start after : World)
    (added : List (String × Payload)) : Prop where
  extended : after.events = start.events ++ added
  finalized : added.countP (isFinalization epochNumber) = 1
  received : ∀ nodeId, added.countP (isReceipt nodeId) ≤ 1
  accrued : added.countP isAccrual = 1
  earned : ∃ event ∈ added, isFinalization epochNumber event ∧
    ∃ paid, event.2.paid? = some paid ∧
      after.ledgerRow.earnedRetained =
        start.ledgerRow.earnedRetained + paid

section Payout

open Commission

variable {env : Environment} {start : World} {epochNumber : ℚ}

theorem events_finalizedWorld (row : Epoch) (weights : Weights) :
    (finalizedWorld env start row epochNumber weights).events =
      start.events ++ (((payments weights row.totalFees).map fun entry =>
        ("node.payment.received", Payload.paymentReceived entry.nodeId
          entry.amount (nodeWeight start entry.nodeId))) ++
        [("reserve.afc.accrual",
            .afcAccrual (row.totalFees - paidOf weights row.totalFees)),
          ("commission.epoch.finalized",
            finalizedPayload row epochNumber weights)]) := by
  have paid := @events_payWorld env start
    (payments weights row.totalFees)
  simp only [World.events] at paid ⊢
  simp [finalizedWorld, paid]

theorem ledgerRow_finalizedWorld (row : Epoch)
    (weights : Weights) :
    (finalizedWorld env start row epochNumber weights).ledgerRow =
      { start.ledgerRow with
        earnedRetained := start.ledgerRow.earnedRetained +
          paidOf weights row.totalFees } := by
  exact ledgerRow_payWorld (payments weights row.totalFees)

/-- A distribution has one entry for each node. -/
theorem nodup_payments {weights : Weights}
    (unique : (weights.map Prod.fst).Nodup) (total : ℚ) :
    ((payments weights total).map DistributionEntry.nodeId).Nodup := by
  unfold payments
  split
  · have same : (sortedIds (weights.map Prod.fst)).map
        (DistributionEntry.nodeId ∘ fun nodeId =>
          ⟨nodeId, paymentOf weights (total * (1 - marginRate))
            (weights.map Prod.snd).sum nodeId, reasonWork⟩) =
        sortedIds (weights.map Prod.fst) :=
      List.map_id _
    rw [List.map_map, same]
    exact (List.perm_insertionSort _ _).nodup_iff.mpr unique
  · exact List.nodup_nil

/-- The receipts of a list of entries. -/
def receiptsOf (start : World) (entries : List DistributionEntry) :
    List (String × Payload) :=
  entries.map fun entry => ("node.payment.received",
    .paymentReceived entry.nodeId entry.amount
      (nodeWeight start entry.nodeId))

theorem countP_receiptsOf {selects : String × Payload → Bool}
    (ignores : ∀ nodeId amount weight,
      selects ("node.payment.received",
        .paymentReceived nodeId amount weight) = false)
    (entries : List DistributionEntry) :
    (receiptsOf start entries).countP selects = 0 := by
  rw [List.countP_eq_zero]
  intro event member
  obtain ⟨entry, _, rfl⟩ := List.mem_map.mp member
  simp [ignores]

theorem countP_isReceipt (nodeId : String)
    (entries : List DistributionEntry) :
    (receiptsOf start entries).countP (isReceipt nodeId) =
      (entries.map DistributionEntry.nodeId).count nodeId := by
  rw [receiptsOf, List.countP_map, List.count, List.countP_map]
  rfl

/-- A finalization of an open epoch that returns is one payout. -/
theorem paidOnce_of_run {row : Epoch}
    (found : start.epochs.find? epochNumber = some row)
    (isOpen : row.status = .opened) {value : FinalizeResult}
    {after : World}
    (returned : run (machine env) (finalizeEpoch env epochNumber) start =
      (.returned value, after)) :
    ∃ added, PaidOnce epochNumber start after added := by
  obtain ⟨weights, weighed, -, rfl⟩ :=
    finalized_of_run_finalizeEpoch found isOpen returned
  have unique := nodup_payments (nodup_of_weigh weighed (by simp))
    row.totalFees
  refine ⟨receiptsOf start (payments weights row.totalFees) ++ _,
    events_finalizedWorld row weights, ?_, ?_, ?_, ?_⟩
  · rw [List.countP_append, countP_receiptsOf (fun _ _ _ => rfl)]
    simp [isFinalization, finalizedPayload, finalizedResult]
  · intro nodeId
    rw [List.countP_append, countP_isReceipt]
    simpa [isReceipt] using List.nodup_iff_count_le_one.mp unique nodeId
  · rw [List.countP_append, countP_receiptsOf (fun _ _ _ => rfl)]
    simp [isAccrual]
  · refine ⟨_, List.mem_append_right _
      (List.mem_cons_of_mem _ List.mem_cons_self), ?_, _, rfl, ?_⟩
    · simp [isFinalization, finalizedPayload, finalizedResult]
    · rw [ledgerRow_finalizedWorld]
      rfl

end Payout

/-! ## The race -/

section Race

variable {env : Environment} {start : World} {epochNumber : ℚ}

private theorem finalizeEpoch_eq (env : Environment) (epochNumber : ℚ) :
    ∃ next, Commission.finalizeEpoch env epochNumber =
        .call (.findEpoch epochNumber) next (.fail .storeRejected) ∧
      ∀ row : Epoch, row.status ≠ .opened →
        next (some row) = .done (Commission.toResult row) := by
  refine ⟨_, rfl, ?_⟩
  intro row closed
  exact if_pos closed

/-- A thread that has not started or has come to its end. -/
inductive Idle (env : Environment) (epochNumber : ℚ) :
    Thread signature ServiceError FinalizeResult → Prop
  | waiting : Idle env epochNumber
      ⟨[], Commission.finalizeEpoch env epochNumber⟩
  | failed (past : List (Exchange signature)) (reason : ServiceError) :
      Idle env epochNumber ⟨past, .fail reason⟩
  | returned (past : List (Exchange signature))
      (value : FinalizeResult) :
      Idle env epochNumber ⟨past, .done value⟩

/-- The worker is on the course of a run alone from `start`, or it will not
return. -/
def OnCourse (env : Environment) (start : World) (epochNumber : ℚ)
    (rest : Service FinalizeResult) (now : World) : Prop :=
  (run (machine env) rest now =
      run (machine env) (Commission.finalizeEpoch env epochNumber) start ∧
    Brittle (machine env) rest) ∨
  Doomed (machine env) rest now

/-- Either no call has started, or all but one are idle. -/
inductive Course (env : Environment) (start : World) (epochNumber : ℚ) :
    Calls → Prop
  | waiting {calls : Calls} (same : calls.state = start)
      (unstarted : ∀ thread ∈ calls.threads, thread.past = [] ∧
        ∀ value, thread.rest ≠ .done value)
      (idle : ∀ thread ∈ calls.threads, Idle env epochNumber thread) :
      Course env start epochNumber calls
  | paying {calls : Calls} (index : ℕ)
      (worker : Thread signature ServiceError FinalizeResult)
      (isWorker : calls.threads[index]? = some worker)
      (started : worker.past ≠ [])
      (idle : ∀ other thread, other ≠ index →
        calls.threads[other]? = some thread → Idle env epochNumber thread)
      (course : OnCourse env start epochNumber worker.rest calls.state) :
      Course env start epochNumber calls

theorem course_launch (others : ℕ) :
    Course env start epochNumber
      (launch env start epochNumber others) := by
  have fresh : ∀ thread ∈
      (launch env start epochNumber others).threads,
      thread = ⟨[], Commission.finalizeEpoch env epochNumber⟩ := by
    intro thread member
    obtain ⟨program, present, rfl⟩ := List.mem_map.mp member
    rw [List.eq_of_mem_replicate present]
  refine .waiting rfl ?_ ?_
  · intro thread member
    cases fresh thread member
    exact ⟨rfl, nofun⟩
  · intro thread member
    cases fresh thread member
    exact .waiting

private theorem OnCourse.step {request : Call} {next : request.Reply → Service FinalizeResult}
    {rejected : Service FinalizeResult} {now after : World}
    {reply : request.Reply}
    (course : OnCourse env start epochNumber
      (.call request next rejected) now)
    (answered : machine env request now = some (reply, after)) :
    OnCourse env start epochNumber (next reply) after := by
  rcases course with ⟨same, brittle⟩ | doomed
  · refine Or.inl ⟨?_, brittle.1 reply⟩
    rw [← same]
    simp only [run, answered]
  · exact Or.inr (doomed.1 reply after answered)

private theorem OnCourse.reject {request : Call}
    {next : request.Reply → Service FinalizeResult}
    {rejected : Service FinalizeResult} {now : World}
    (course : OnCourse env start epochNumber
      (.call request next rejected) now) :
    OnCourse env start epochNumber rejected now := by
  rcases course with ⟨_, brittle⟩ | doomed
  · exact Or.inr (brittle.2 now)
  · exact Or.inr doomed.2

private theorem Idle.at_call {past : List (Exchange signature)}
    {request : Call} {next : request.Reply → Service FinalizeResult}
    {rejected : Service FinalizeResult}
    (idle : Idle env epochNumber ⟨past, .call request next rejected⟩) :
    past = [] ∧ (Program.call request next rejected : Service _) =
      Commission.finalizeEpoch env epochNumber := by
  generalize isRest : (Program.call request next rejected :
    Service FinalizeResult) = rest at idle
  cases idle with
  | waiting =>
      exact ⟨rfl, rfl⟩
  | failed =>
      cases isRest
  | returned =>
      cases isRest

/-- The first read changes nothing. It ends the call when the epoch is
closed, and it takes the course of a run alone. -/
private theorem Idle.step {past : List (Exchange signature)}
    {request : Call} {next : request.Reply → Service FinalizeResult}
    {rejected : Service FinalizeResult} {now after : World}
    {reply : request.Reply}
    (idle : Idle env epochNumber ⟨past, .call request next rejected⟩)
    (answered : machine env request now = some (reply, after)) :
    after = now ∧
      (Closed epochNumber now → Idle env epochNumber
        ⟨⟨request, reply⟩ :: past, next reply⟩) ∧
      OnCourse env now epochNumber (next reply) now := by
  obtain ⟨-, isFirst⟩ := idle.at_call
  have course : OnCourse env now epochNumber
      (.call request next rejected) now :=
    Or.inl ⟨by rw [isFirst],
      by rw [isFirst]; exact brittle_finalizeEpoch epochNumber⟩
  obtain ⟨nextOf, isCall, closedNext⟩ :=
    finalizeEpoch_eq env epochNumber
  rw [isCall] at isFirst
  cases isFirst
  have onward := course.step answered
  cases answered
  refine ⟨rfl, ?_, onward⟩
  intro closed
  unfold Closed at closed
  cases found : now.epochs.find? epochNumber with
  | none =>
      simp [found] at closed
  | some row =>
      rw [found] at closed
      rw [closedNext row (by simpa using closed)]
      exact .returned _ _

private theorem Idle.reject {past : List (Exchange signature)}
    {request : Call} {next : request.Reply → Service FinalizeResult}
    {rejected : Service FinalizeResult}
    (idle : Idle env epochNumber
      ⟨past, .call request next rejected⟩) :
    past = [] ∧ rejected = .fail .storeRejected := by
  obtain ⟨unstarted, isFirst⟩ := idle.at_call
  obtain ⟨nextOf, isCall, -⟩ := finalizeEpoch_eq env epochNumber
  rw [isCall] at isFirst
  cases isFirst
  exact ⟨unstarted, rfl⟩

section Moves

variable {calls : Calls} {index : ℕ} {past : List (Exchange signature)}
variable {request : Call}
variable {nextOf : request.Reply → Service FinalizeResult}
variable {rejected : Service FinalizeResult} {reply : request.Reply}
variable {after : World}

private theorem Course.answer
    (course : Course env start epochNumber calls)
    (exclusive : Exclusive epochNumber calls (.answer index))
    (found : calls.threads[index]? =
      some ⟨past, .call request nextOf rejected⟩)
    (answered : machine env request calls.state = some (reply, after)) :
    Course env start epochNumber
      ⟨after, calls.threads.set index
        ⟨⟨request, reply⟩ :: past, nextOf reply⟩⟩ := by
  obtain ⟨bound, _⟩ := List.getElem?_eq_some_iff.mp found
  cases course with
  | waiting same _ idle =>
      subst same
      obtain ⟨rfl, -, onward⟩ :=
        (idle _ (List.mem_of_getElem? found)).step answered
      refine .paying index _ (List.getElem?_set_self bound) nofun ?_
        onward
      apply Pool.forall_set_self
      intro other thread _ present
      exact idle thread (List.mem_of_getElem? present)
  | paying worked worker isWorker started idle onCourse =>
      by_cases isOwn : index = worked
      · -- The worker goes on.
        subst isOwn
        cases isWorker.symm.trans found
        exact .paying index _ (List.getElem?_set_self bound) nofun
          (Pool.forall_set_self idle) (onCourse.step answered)
      · -- Another call reads the row of a closed epoch.
        have atFirstRead := idle index _ isOwn found
        obtain ⟨unstarted, -⟩ := atFirstRead.at_call
        have closed : Closed epochNumber calls.state := by
          rcases exclusive with
            ⟨thread, isThread, entered⟩ | all | closed
          · cases found.symm.trans isThread
            exact absurd unstarted entered
          · exact absurd (all worker (List.mem_of_getElem? isWorker))
              started
          · exact closed
        obtain ⟨rfl, returned, -⟩ := atFirstRead.step answered
        have kept : (calls.threads.set index
            ⟨⟨request, reply⟩ :: past, nextOf reply⟩)[worked]? =
              some worker := by
          rw [List.getElem?_set_ne isOwn, isWorker]
        exact .paying worked worker kept started
          (Pool.forall_set_other idle (returned closed)) onCourse

private theorem Course.reject
    (course : Course env start epochNumber calls)
    (found : calls.threads[index]? =
      some ⟨past, .call request nextOf rejected⟩) :
    Course env start epochNumber
      ⟨calls.state, calls.threads.set index ⟨past, rejected⟩⟩ := by
  obtain ⟨bound, _⟩ := List.getElem?_eq_some_iff.mp found
  cases course with
  | waiting same unstarted idle =>
      obtain ⟨rfl, rfl⟩ :=
        (idle _ (List.mem_of_getElem? found)).reject
      refine .waiting same ?_ ?_
      · intro thread member
        rcases List.mem_or_eq_of_mem_set member with old | rfl
        · exact unstarted thread old
        · exact ⟨rfl, nofun⟩
      · intro thread member
        rcases List.mem_or_eq_of_mem_set member with old | rfl
        · exact idle thread old
        · exact .failed _ _
  | paying worked worker isWorker started idle onCourse =>
      by_cases isOwn : index = worked
      · subst isOwn
        cases isWorker.symm.trans found
        exact .paying index _ (List.getElem?_set_self bound) started
          (Pool.forall_set_self idle) onCourse.reject
      · obtain ⟨-, rfl⟩ := (idle index _ isOwn found).reject
        have kept : (calls.threads.set index
            ⟨past, .fail .storeRejected⟩)[worked]? =
              some worker := by
          rw [List.getElem?_set_ne isOwn, isWorker]
        exact .paying worked worker kept started
          (Pool.forall_set_other idle (.failed _ _)) onCourse

end Moves

/-- The step lemma: an exclusive move keeps the course. -/
theorem Course.move {calls next : Calls} {move : Move}
    (course : Course env start epochNumber calls)
    (exclusive : Exclusive epochNumber calls move)
    (moved : calls.move (machine env) move = some next) :
    Course env start epochNumber next := by
  cases move with
  | answer index =>
      obtain ⟨past, request, nextOf, rejected, reply, after, found,
        answered, rfl⟩ := Pool.exists_of_move_answer moved
      exact course.answer exclusive found answered
  | reject index =>
      obtain ⟨past, request, nextOf, rejected, found, rfl⟩ :=
        Pool.exists_of_move_reject moved
      exact course.reject found

/-- The run lemma: exclusive moves stay on course. -/
theorem course_of_reaches {others : ℕ} {calls : Calls}
    (reached : Reaches (machine env) (Exclusive epochNumber)
      (launch env start epochNumber others) calls) :
    Course env start epochNumber calls ∧
      calls.threads.length = others + 1 := by
  induction reached with
  | refl =>
      exact ⟨course_launch others, by simp [launch, Pool.fresh]⟩
  | tail move _ exclusive moved inductionHypothesis =>
      obtain ⟨course, length⟩ := inductionHypothesis
      refine ⟨course.move exclusive moved, ?_⟩
      rw [← length]
      cases move with
      | answer index =>
          obtain ⟨_, _, _, _, _, _, _, _, rfl⟩ :=
            Pool.exists_of_move_answer moved
          exact List.length_set
      | reject index =>
          obtain ⟨_, _, _, _, _, rfl⟩ :=
            Pool.exists_of_move_reject moved
          exact List.length_set

/-- Concurrent calls pay an open epoch once in the schedules in which every
call starts before all others or after the epoch is closed. -/
theorem epoch_paid_once {others : ℕ} (opened : Opened epochNumber start)
    {calls : Calls}
    (reached : Reaches (machine env) (Exclusive epochNumber)
      (launch env start epochNumber others) calls)
    (returned : calls.Returned) :
    ∃ added, PaidOnce epochNumber start calls.state added := by
  obtain ⟨row, found, isOpen⟩ := opened
  obtain ⟨course, length⟩ := course_of_reaches reached
  cases course with
  | waiting _ unstarted _ =>
      have present : calls.threads[0] ∈ calls.threads :=
        List.getElem_mem (by omega)
      obtain ⟨value, done⟩ := returned _ present
      exact absurd done ((unstarted _ present).2 value)
  | paying _ worker isWorker _ _ onCourse =>
      obtain ⟨value, done⟩ :=
        returned worker (List.mem_of_getElem? isWorker)
      rw [done] at onCourse
      rcases onCourse with ⟨same, -⟩ | doomed
      · exact paidOnce_of_run found isOpen same.symm
      · exact doomed.elim

end Race

theorem opened_servedWorld : Opened 1 Orchestrator.servedWorld := by
  have isOpen : (Orchestrator.servedWorld.epochs.find? 1).any
      (fun row => row.status = .opened) = true := by
    decide +kernel
  rw [Option.any_eq_true_iff_get] at isOpen
  obtain ⟨present, status⟩ := isOpen
  exact ⟨_, (Option.some_get present).symm, by simpa using status⟩

/-- Two calls that take turns, the second one waiting at its first read. -/
def orderedCalls : Calls :=
  (launch .plain Orchestrator.servedWorld 1 1).play (machine .plain)
    (Exclusive 1) ((List.replicate 40 [0, 1]).flatten.map .answer)

theorem paidOnce_orderedCalls :
    ∃ added,
      PaidOnce 1 Orchestrator.servedWorld orderedCalls.state added :=
  epoch_paid_once opened_servedWorld (reaches_play _ .refl)
    (by decide +kernel)

/-- Two calls that take turns from the first read on. -/
def racingCalls : Calls :=
  (launch .plain Orchestrator.servedWorld 1 1).play (machine .plain)
    (fun _ _ => True) ((List.replicate 40 [0, 1]).flatten.map .answer)

/-- Two calls that both read an open epoch pay it twice. -/
theorem racing_calls_pay_twice :
    Opened 1 Orchestrator.servedWorld ∧
      Reaches (machine .plain) (fun _ _ => True)
        (launch .plain Orchestrator.servedWorld 1 1) racingCalls ∧
      racingCalls.Returned ∧
      ¬∃ added,
        PaidOnce 1 Orchestrator.servedWorld racingCalls.state added := by
  refine ⟨opened_servedWorld, reaches_play _ .refl, by decide +kernel, ?_⟩
  rintro ⟨added, once⟩
  have twice : racingCalls.state.events.countP (isFinalization 1) =
      Orchestrator.servedWorld.events.countP (isFinalization 1) + 2 := by
    decide +kernel
  rw [once.extended, List.countP_append, once.finalized] at twice
  omega

end ArosParadigm.EpochRace
