import ArosParadigm.Requests

/-!
# Books

The part of a world in which value is accounted for: the value events of
NodeChain, the row of the ledger, the verdicts, the epochs, and the supply
drifts that the oversight log holds. A request leaves the books as they are,
settles one process, or distributes one epoch.
-/

namespace ArosParadigm

/-- The event types that move value or account for it. -/
def valueTypes : List String :=
  ["emission.minted", "emission.burned", "node.payment.received",
    "reserve.afc.accrual", "commission.epoch.finalized"]

/-- The entries of `compareSupply`. -/
def OversightLogEntry.isDrift (entry : OversightLogEntry) : Bool :=
  entry.eventType = "anomaly_detected" && entry.layer = "token_management"

/-- Where value is accounted for. -/
structure Books where
  value : List (String × Payload)
  ledger : ArosCoinLedger
  verdicts : Keyed.Table PotVerdict.processId
  epochs : Keyed.Table Epoch.epochNumber
  drift : List OversightLogEntry

namespace World

/-- The books of a world. -/
def books (world : World) : Books where
  value := world.events.filter fun event => event.1 ∈ valueTypes
  ledger := world.ledgerRow
  verdicts := world.verdicts
  epochs := world.epochs
  drift := world.oversight.filter OversightLogEntry.isDrift

section Calls

variable (env : Environment) (world : World)

theorem books_append_of_mem {eventType : String} (payload : Payload)
    (isValue : eventType ∈ valueTypes) :
    (world.append env eventType payload).books =
      { world.books with
        value := world.books.value ++ [(eventType, payload)] } := by
  simp [books, events, ledgerRow, isValue]

theorem books_append_of_not_mem {eventType : String} (payload : Payload)
    (noValue : eventType ∉ valueTypes) :
    (world.append env eventType payload).books = world.books := by
  simp [books, events, ledgerRow, noValue]

theorem books_captureEvent {processId eventType : String}
    (data : Json.JsObject ℚ) (noValue : eventType ∉ valueTypes) :
    (world.captureEvent env processId eventType data).books =
      world.books :=
  books_append_of_not_mem env world _ noValue

theorem books_log {eventType layer : String} (description : String)
    (noDrift : eventType ≠ "anomaly_detected" ∨
      layer ≠ "token_management") :
    (world.log env eventType layer description).books = world.books := by
  have other : (world.nextOversight env eventType layer
      description).isDrift = false := by
    rw [OversightLogEntry.isDrift, Bool.and_eq_false_iff]
    simpa [nextOversight] using noDrift
  simp [books, events, ledgerRow, other]

@[simp]
theorem books_saveNode (row : NodeEntity) :
    (world.saveNode row).books = world.books :=
  rfl

@[simp]
theorem books_savePhase (row : ReleasePhase) :
    (world.savePhase row).books = world.books :=
  rfl

@[simp]
theorem books_tick : world.tick.books = world.books :=
  rfl

@[simp]
theorem books_push (epochNumber : ℚ) (entries : List Participation) :
    (world.push epochNumber entries).books = world.books :=
  rfl

@[simp]
theorem books_forget (epochNumber : ℚ) :
    (world.forget epochNumber).books = world.books :=
  rfl

@[simp]
theorem books_withLedger (row : ArosCoinLedger) :
    (world.withLedger row).books = { world.books with ledger := row } :=
  rfl

@[simp]
theorem books_saveEpoch (row : Epoch) :
    (world.saveEpoch row).books =
      { world.books with epochs := world.epochs.save row } :=
  rfl

@[simp]
theorem books_saveVerdict (row : PotVerdict) :
    (world.saveVerdict row).books =
      { world.books with verdicts := world.verdicts.save row } :=
  rfl

theorem books_withLedger_self :
    (world.withLedger world.ledgerRow).books = world.books :=
  rfl

end Calls

end World

/-! ## The steps of the books -/

namespace Books

/-- Every mint has been burned. -/
def Netted (books : Books) : Prop :=
  books.ledger.processMinted = books.ledger.processBurned

/-- Settle a process: one mint, one fee, one burn. -/
def settle (books : Books) (body : RunProcessDto) (verdict : PotVerdict)
    (startTime : ℕ) : Books :=
  let epoch := body.epoch.getD Orchestrator.defaultEpoch
  let row := (books.epochs.find? epoch).getD
    (Commission.freshEpoch epoch startTime)
  { value := books.value ++
      [("emission.minted", .emissionMinted body.processId body.amount),
        ("emission.burned", .emissionBurned body.processId body.amount)]
    ledger :=
      { books.ledger with
        processMinted := books.ledger.processMinted + body.amount
        processBurned := books.ledger.processBurned + body.amount }
    verdicts := books.verdicts.save verdict
    epochs := books.epochs.save
      { row with
        totalFees :=
          row.totalFees + Commission.computeFee body.amount }
    drift := books.drift }

/-- Distribute the pool of an epoch by the weights of its nodes. -/
def distribute (books : Books) (row : Epoch) (epochNumber : ℚ)
    (weights : Commission.Weights) (weight : String → ℚ)
    (endTime : ℕ) : Books :=
  let entries := Commission.payments weights row.totalFees
  let paid := Commission.paidOf weights row.totalFees
  { books with
    value := books.value ++
      entries.map (fun entry => ("node.payment.received",
        .paymentReceived entry.nodeId entry.amount
          (weight entry.nodeId))) ++
      [("reserve.afc.accrual", .afcAccrual (row.totalFees - paid)),
        ("commission.epoch.finalized",
          Commission.finalizedPayload row epochNumber weights)]
    ledger :=
      { books.ledger with
        earnedRetained := books.ledger.earnedRetained + paid }
    epochs :=
      books.epochs.save (Commission.finalizedRow row weights endTime) }

end Books

namespace Orchestrator

variable {env : Environment} {world : World}

theorem books_enrolledWorld (roster : List (String × String)) :
    (enrolledWorld env world roster).books = world.books := by
  induction roster generalizing world with
  | nil =>
      rfl
  | cons node rest inductionHypothesis =>
      refine inductionHypothesis.trans ?_
      exact World.books_append_of_not_mem env
        (world.saveNode (Nodes.freshNode node.1 node.2)) _ (by decide)

theorem books_rosterWorld (explicit : Option (List String)) :
    (rosterWorld env world explicit).books = world.books := by
  unfold rosterWorld
  split
  · rfl
  · split
    · exact books_enrolledWorld _
    · rfl

theorem books_workedWorld (ids : List String) :
    (workedWorld world ids).books = world.books := by
  obtain ⟨nodes, worked⟩ := workedWorld_eq world ids
  rw [worked]
  rfl

theorem books_initiatedWorld (body : RunProcessDto) :
    (initiatedWorld env world body).books = world.books := by
  rw [initiatedWorld, World.books_log _ _ _ (by decide),
    World.books_captureEvent _ _ _ (by decide)]

theorem books_executedWorld (processId : String)
    (explicit : Option (List String)) :
    (executedWorld env world processId explicit).books = world.books := by
  rw [executedWorld, books_workedWorld, preparedWorld,
    World.books_captureEvent _ _ _ (by decide),
    World.books_captureEvent _ _ _ (by decide),
    World.books_log _ _ _ (by decide),
    World.books_captureEvent _ _ _ (by decide), books_rosterWorld]

variable (env world) in
theorem books_requestedWorld (body : RunProcessDto) :
    (requestedWorld env world body).books = world.books :=
  (books_executedWorld _ _).trans (books_initiatedWorld body)

theorem books_judgedWorld (processId : String) (verified : Fin 2) :
    (judgedWorld env world processId verified).books = world.books := by
  rw [judgedWorld, World.books_log _ _ _ (by decide),
    World.books_captureEvent _ _ _ (by decide)]

theorem books_inadmissibleWorld (body : RunProcessDto) :
    (inadmissibleWorld env world body).books = world.books := by
  rw [inadmissibleWorld, World.books_withLedger_self,
    World.books_log _ _ _ (by decide), books_initiatedWorld]

/-- No drift is recorded while minted and burned agree. -/
theorem books_observedWorld (netted : world.books.Netted) :
    (observedWorld env world).books = world.books := by
  have consistent :
      world.ledgerRow.processMinted = world.ledgerRow.processBurned :=
    netted
  unfold observedWorld AllSeeingEye.comparedWorld
  rw [if_pos (by simp [consistent])]
  rfl

theorem books_rejectedWorld (processId : String)
    (netted : world.books.Netted) :
    (rejectedWorld env world processId).books = world.books := by
  have captured : (world.captureEvent env processId "final_status"
      (statusData "rejected")).books = world.books :=
    World.books_captureEvent _ _ _ (by decide)
  rw [rejectedWorld, books_observedWorld (by rwa [captured]), captured]

theorem mem_captured_captureEvent (processId eventType tested : String)
    (data : Json.JsObject ℚ) :
    tested ∈ (world.captureEvent env processId eventType data).captured
        processId ↔
      tested = eventType ∨ tested ∈ world.captured processId := by
  simp only [World.captureEvent, World.mark_captured,
    World.append_captured, Function.update_self]
  split
  · next present =>
      constructor
      · exact Or.inr
      · rintro (equal | member)
        · exact equal ▸ present
        · exact member
  · rw [List.mem_append, List.mem_singleton, or_comm]

@[simp]
theorem captured_rosterWorld (explicit : Option (List String)) :
    (rosterWorld env world explicit).captured = world.captured := by
  unfold rosterWorld
  split
  · rfl
  · split <;> rfl

theorem captured_workedWorld (ids : List String) :
    (workedWorld world ids).captured = world.captured := by
  obtain ⟨nodes, worked⟩ := workedWorld_eq world ids
  rw [worked]

theorem history_workedWorld (ids : List String) :
    (workedWorld world ids).history = world.history := by
  obtain ⟨nodes, worked⟩ := workedWorld_eq world ids
  rw [worked]
  rfl

/-- When the verdict is asked for, the record is complete. -/
theorem complete_requestedWorld (body : RunProcessDto) :
    ∀ event ∈ requiredBeforeVerdict,
      event ∈ (requestedWorld env world body).captured
        body.processId := by
  have staged : ∀ event,
      event ∈ (requestedWorld env world body).captured
          body.processId ↔
        event = "execution_complete" ∨ event = "stage_transition" ∨
          event = "task_assignment" ∨ event = "initiation" ∨
          event ∈ world.captured body.processId := by
    intro event
    rw [requestedWorld, executedWorld, captured_workedWorld,
      preparedWorld, mem_captured_captureEvent,
      mem_captured_captureEvent, World.log_captured,
      mem_captured_captureEvent, captured_rosterWorld, initiatedWorld,
      World.log_captured, mem_captured_captureEvent]
  intro event member
  simp only [requiredBeforeVerdict, List.mem_cons, List.not_mem_nil,
    or_false] at member
  rw [staged]
  tauto

theorem intact_enrolledWorld (intact : world.Intact env)
    (roster : List (String × String)) :
    (enrolledWorld env world roster).Intact env := by
  induction roster generalizing world with
  | nil =>
      exact intact
  | cons node rest inductionHypothesis =>
      apply inductionHypothesis
      exact World.Intact.append (intact.of_history rfl) _ _

theorem intact_rosterWorld (intact : world.Intact env)
    (explicit : Option (List String)) :
    (rosterWorld env world explicit).Intact env := by
  unfold rosterWorld
  split
  · exact intact
  · split
    · exact intact_enrolledWorld intact _
    · exact intact

theorem intact_captureEvent (intact : world.Intact env)
    (processId eventType : String) (data : Json.JsObject ℚ) :
    (world.captureEvent env processId eventType data).Intact env :=
  (intact.append eventType _).of_history rfl

theorem intact_requestedWorld (intact : world.Intact env)
    (body : RunProcessDto) :
    (requestedWorld env world body).Intact env := by
  have initiated : (initiatedWorld env world body).Intact env :=
    (intact_captureEvent intact _ _ _).of_history rfl
  have assigned := intact_captureEvent
    (intact_rosterWorld initiated body.nodeIds) body.processId
    "task_assignment" (nodesData (bodyNodes env world body))
  have logged : ((World.captureEvent env (rosterWorld env
      (initiatedWorld env world body) body.nodeIds) body.processId
      "task_assignment" (nodesData (bodyNodes env world body))).log env
      "task_assignment" "processing" ("assigned to " ++
        toString (bodyNodes env world body).length ++ " nodes")).Intact
        env :=
    assigned.of_history rfl
  have prepared := intact_captureEvent
    (intact_captureEvent logged body.processId "stage_transition"
      stageData) body.processId "execution_complete" []
  exact prepared.of_history (history_workedWorld _)

theorem verdicts_requestedWorld (body : RunProcessDto) :
    (requestedWorld env world body).verdicts = world.verdicts :=
  congrArg Books.verdicts (books_requestedWorld env world body)

variable (env) in
/-- A stored verdict is the answer. -/
theorem verdictOn_of_stored {body : RunProcessDto} {row : PotVerdict}
    (stored : world.verdicts.find? body.processId = some row) :
    verdictOn env world body = row := by
  rw [verdictOn, Pot.verdictRow, verdicts_requestedWorld, stored]
  rfl

/-- On an intact chain only a stored verdict is unverified. -/
theorem stored_of_unverified {body : RunProcessDto}
    (intact : world.Intact env)
    (unverified : (verdictOn env world body).verified ≠ 1) :
    world.verdicts.find? body.processId =
      some (verdictOn env world body) := by
  unfold verdictOn Pot.verdictRow at unverified ⊢
  rw [verdicts_requestedWorld] at unverified ⊢
  cases found : world.verdicts.find? body.processId with
  | none =>
      rw [found] at unverified
      exact absurd (Pot.verifiedOf_of_complete
        (complete_requestedWorld body)
        (intact_requestedWorld intact body).reconstruct) unverified
  | some row =>
      rfl

/-- Asking for the verdict changes the table of verdicts only. -/
theorem books_verdictWorld (body : RunProcessDto) :
    (verdictWorld env world body).books =
      { world.books with
        verdicts :=
          world.verdicts.save (verdictOn env world body) } := by
  have requested :=
    books_requestedWorld env world body
  have others : (Pot.verifyWorld env (requestedWorld env world body)
      body.processId).books =
      { (requestedWorld env world body).books with
        verdicts := (Pot.verifyWorld env (requestedWorld env world body)
          body.processId).verdicts } := by
    unfold Pot.verifyWorld
    split
    · rfl
    · rw [Pot.verifiedWorld, World.books_saveVerdict, World.books_tick,
        World.books_append_of_not_mem _ _ _ (by decide)]
      rfl
  rw [verdictWorld, books_judgedWorld, others,
    Pot.verdicts_verifyWorld, requested, verdicts_requestedWorld]
  rfl

theorem books_mintedWorld (processId : String) (amount : ℚ) :
    (Emission.mintedWorld env world processId amount).books =
      { world.books with
        value := world.books.value ++
          [("emission.minted", .emissionMinted processId amount)]
        ledger := { world.books.ledger with
          processMinted :=
            world.books.ledger.processMinted + amount } } :=
  World.books_append_of_mem _ _ _ (by decide)

theorem books_burnedWorld (processId : String) (amount : ℚ) :
    (Emission.burnedWorld env world processId amount).books =
      { world.books with
        value := world.books.value ++
          [("emission.burned", .emissionBurned processId amount)]
        ledger := { world.books.ledger with
          processBurned :=
            world.books.ledger.processBurned + amount } } :=
  World.books_append_of_mem _ _ _ (by decide)

theorem books_accruedWorld (epochNumber fee : ℚ)
    (participants : List Participation) :
    (Commission.accruedWorld world epochNumber fee participants).books =
      { world.books with
        epochs := world.books.epochs.save
          { Commission.accruedRow world epochNumber with
            totalFees :=
              (Commission.accruedRow world epochNumber).totalFees +
                fee } } := by
  unfold Commission.accruedWorld Commission.openedWorld
  split <;> rfl

theorem books_emittedWorld (processId : String) (amount : ℚ) :
    (emittedWorld env world processId amount).books =
      (Emission.mintedWorld env world processId amount).books := by
  rw [emittedWorld, World.books_log _ _ _ (by decide),
    World.books_captureEvent _ _ _ (by decide)]

variable (env) in
/-- The branch of a verified process settles it. -/
theorem books_settledWorld (body : RunProcessDto)
    (netted : world.books.Netted) (nodes : List String) :
    ∃ startTime,
      (settledWorld env (verdictWorld env world body) body.processId
        body.amount (body.epoch.getD defaultEpoch) nodes).books =
        world.books.settle body (verdictOn env world body)
          startTime := by
  have emitted : (emittedWorld env (verdictWorld env world body)
      body.processId body.amount).books =
      { world.books with
        value := world.books.value ++
          [("emission.minted",
            .emissionMinted body.processId body.amount)]
        ledger := { world.books.ledger with
          processMinted :=
            world.books.ledger.processMinted + body.amount }
        verdicts :=
          world.verdicts.save (verdictOn env world body) } := by
    rw [books_emittedWorld, books_mintedWorld, books_verdictWorld]
  have epochs : (emittedWorld env (verdictWorld env world body)
      body.processId body.amount).epochs = world.epochs :=
    congrArg Books.epochs emitted
  have recorded : (recordedWorld env (verdictWorld env world body)
      body.processId body.amount (body.epoch.getD defaultEpoch)
      nodes).books =
      world.books.settle body (verdictOn env world body)
        ((emittedWorld env (verdictWorld env world body)
          body.processId body.amount).clock + 1) := by
    rw [recordedWorld, World.books_log _ _ _ (by decide),
      World.books_captureEvent _ _ _ (by decide), balancedWorld,
      World.books_log _ _ _ (by decide), books_burnedWorld,
      books_accruedWorld, emitted, Commission.accruedRow, epochs,
      Books.settle]
    simp only [List.append_assoc, List.cons_append, List.nil_append]
    rfl
  refine ⟨_, Eq.trans ?_ recorded⟩
  rw [settledWorld, books_observedWorld]
  rw [recorded]
  exact congrArg (· + body.amount) netted

end Orchestrator

namespace Commission

variable {env : Environment} {world : World}

theorem books_payWorld (entries : List DistributionEntry) :
    (payWorld env world entries).books =
      { world.books with
        value := world.books.value ++
          entries.map fun entry => ("node.payment.received",
            .paymentReceived entry.nodeId entry.amount
              (nodeWeight world entry.nodeId))
        ledger := { world.books.ledger with
          earnedRetained := world.books.ledger.earnedRetained +
            (entries.map DistributionEntry.amount).sum } } := by
  have receipts : (entries.map fun entry =>
      ("node.payment.received", Payload.paymentReceived entry.nodeId
        entry.amount (nodeWeight world entry.nodeId))).filter
        (fun event => event.1 ∈ valueTypes) =
      entries.map fun entry =>
        ("node.payment.received", Payload.paymentReceived entry.nodeId
          entry.amount (nodeWeight world entry.nodeId)) := by
    rw [List.filter_eq_self]
    intro event member
    obtain ⟨entry, _, rfl⟩ := List.mem_map.mp member
    simp [valueTypes]
  simp only [World.books, events_payWorld, ledgerRow_payWorld,
    payWorld_verdicts, payWorld_epochs, payWorld_oversight,
    List.filter_append, receipts]

variable (env world) in
/-- A finalization distributes the pool of the epoch. -/
theorem books_finalizedWorld (row : Epoch) (epochNumber : ℚ)
    (weights : Weights) :
    ∃ endTime,
      (finalizedWorld env world row epochNumber weights).books =
        world.books.distribute row epochNumber weights
          (nodeWeight world) endTime := by
  apply Exists.intro
  rw [finalizedWorld, World.books_forget, World.books_append_of_mem _ _ _ (by decide),
    World.books_saveEpoch, World.books_tick,
    World.books_append_of_mem _ _ _ (by decide), books_payWorld,
    Books.distribute]
  simp only [List.append_assoc, List.cons_append, List.nil_append,
    World.tick_epochs, World.append_epochs, payWorld_epochs]
  rfl

end Commission

end ArosParadigm
