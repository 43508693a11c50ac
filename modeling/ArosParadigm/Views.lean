import ArosParadigm.Store

/-!
# Running the calls alone

What one call does to a world when nothing else runs, and the views of a world
in which the results about sequential runs are stated: the history of
NodeChain, its events, and the row of the ledger.
-/

namespace ArosParadigm

open Await

section Answers

variable (env : Environment) (world : World)

@[simp]
theorem run_append (eventType : String) (payload : Payload) :
    run (machine env) (ask (.append eventType payload)) world =
      (.returned (world.nextSnapshot env eventType payload),
        world.append env eventType payload) :=
  rfl

@[simp]
theorem run_listSnapshots :
    run (machine env) (ask .listSnapshots) world =
      (.returned world.history, world) :=
  rfl

@[simp]
theorem run_findVerdict (processId : String) :
    run (machine env) (ask (.findVerdict processId)) world =
      (.returned (world.verdicts.find? processId), world) :=
  rfl

@[simp]
theorem run_saveVerdict (row : PotVerdict) :
    run (machine env) (ask (.saveVerdict row)) world =
      (.returned (), world.saveVerdict row) :=
  rfl

@[simp]
theorem run_listVerdicts :
    run (machine env) (ask .listVerdicts) world =
      (.returned world.verdicts.rows, world) :=
  rfl

@[simp]
theorem run_saveLedger (row : ArosCoinLedger) :
    run (machine env) (ask (.saveLedger row)) world =
      (.returned (), world.saveLedger row) :=
  rfl

@[simp]
theorem run_findEpoch (epochNumber : ℚ) :
    run (machine env) (ask (.findEpoch epochNumber)) world =
      (.returned (world.epochs.find? epochNumber), world) :=
  rfl

@[simp]
theorem run_saveEpoch (row : Epoch) :
    run (machine env) (ask (.saveEpoch row)) world =
      (.returned (), world.saveEpoch row) :=
  rfl

@[simp]
theorem run_listEpochs :
    run (machine env) (ask .listEpochs) world =
      (.returned world.epochs.rows, world) :=
  rfl

@[simp]
theorem run_findNode (id : String) :
    run (machine env) (ask (.findNode id)) world =
      (.returned (world.nodes.find? id), world) :=
  rfl

@[simp]
theorem run_saveNode (row : NodeEntity) :
    run (machine env) (ask (.saveNode row)) world =
      (.returned (), world.saveNode row) :=
  rfl

@[simp]
theorem run_listNodes :
    run (machine env) (ask .listNodes) world =
      (.returned world.nodes.rows, world) :=
  rfl

@[simp]
theorem run_findPhase :
    run (machine env) (ask .findPhase) world =
      (.returned world.phase, world) :=
  rfl

@[simp]
theorem run_savePhase (row : ReleasePhase) :
    run (machine env) (ask (.savePhase row)) world =
      (.returned (), world.savePhase row) :=
  rfl

@[simp]
theorem run_logOversight (eventType layer description : String) :
    run (machine env) (ask (.logOversight eventType layer description))
        world =
      (.returned (world.nextOversight env eventType layer description),
        world.log env eventType layer description) :=
  rfl

@[simp]
theorem run_listOversight :
    run (machine env) (ask .listOversight) world =
      (.returned world.oversight, world) :=
  rfl

@[simp]
theorem run_tick :
    run (machine env) (ask .tick) world =
      (.returned (world.clock + 1), world.tick) :=
  rfl

/-- A claim of the initialization changes the initialization only. -/
theorem eq_of_claimInitialization {env : Environment}
    {world after : World} {reply : Call.Reply .claimInitialization}
    (answered : machine env .claimInitialization world =
      some (reply, after)) :
    ∃ initialization,
      after = { world with initialization := initialization } := by
  simp only [machine] at answered
  split at answered
  · cases answered
    exact ⟨_, rfl⟩
  · cases answered
    exact ⟨_, rfl⟩

/-- Whoever awaits the initialization changes nothing. -/
theorem eq_of_awaitInitialization {env : Environment}
    {world after : World} {reply : Call.Reply .awaitInitialization}
    (answered : machine env .awaitInitialization world =
      some (reply, after)) : after = world := by
  simp only [machine] at answered
  split at answered
  · cases answered
  · cases answered
    rfl
  · cases answered

@[simp]
theorem run_markCaptured (processId eventType : String) :
    run (machine env) (ask (.markCaptured processId eventType)) world =
      (.returned (), world.mark processId eventType) :=
  rfl

@[simp]
theorem run_readCaptured (processId : String) :
    run (machine env) (ask (.readCaptured processId)) world =
      (.returned (world.captured processId), world) :=
  rfl

@[simp]
theorem run_pushParticipation (epochNumber : ℚ)
    (entries : List Participation) :
    run (machine env) (ask (.pushParticipation epochNumber entries))
        world =
      (.returned (), world.push epochNumber entries) :=
  rfl

@[simp]
theorem run_readParticipation (epochNumber : ℚ) :
    run (machine env) (ask (.readParticipation epochNumber)) world =
      (.returned ((world.participation epochNumber).map fun reference =>
        (reference, (world.entries reference).length)), world) :=
  rfl

@[simp]
theorem run_readParticipationAt (reference index : ℕ) :
    run (machine env) (ask (.readParticipationAt reference index)) world =
      (.returned (world.entries reference)[index]?, world) :=
  rfl

@[simp]
theorem run_deleteParticipation (epochNumber : ℚ) :
    run (machine env) (ask (.deleteParticipation epochNumber)) world =
      (.returned (), world.forget epochNumber) :=
  rfl

end Answers

/-! ## The history -/

namespace World

variable (env : Environment) (world : World)

@[simp]
theorem history_append (eventType : String) (payload : Payload) :
    (world.append env eventType payload).history =
      world.history ++ [world.nextSnapshot env eventType payload] :=
  NodeChain.list_append env.hasher (.same Payload) world.snapshots
    eventType payload (world.clock + 1)

/-- A new snapshot has the largest sequence number. -/
theorem lt_nextSnapshot {snapshot : Snapshot} (eventType : String)
    (payload : Payload) (member : snapshot ∈ world.history) :
    snapshot.sequenceId <
      (world.nextSnapshot env eventType payload).sequenceId := by
  obtain ⟨row, sorted, equal⟩ := List.mem_map.mp member
  have stored : row ∈ world.snapshots.rows := by
    simpa using sorted
  rw [← equal]
  exact NodeChain.lt_nextRow env.hasher (.same Payload) world.snapshots
    eventType payload (world.clock + 1) stored

@[simp]
theorem nextSnapshot_eventType (eventType : String) (payload : Payload) :
    (world.nextSnapshot env eventType payload).eventType = eventType :=
  rfl

@[simp]
theorem nextSnapshot_payload (eventType : String) (payload : Payload) :
    (world.nextSnapshot env eventType payload).payload = payload :=
  rfl

@[simp]
theorem history_log (eventType layer description : String) :
    (world.log env eventType layer description).history = world.history :=
  rfl

@[simp]
theorem history_saveVerdict (row : PotVerdict) :
    (world.saveVerdict row).history = world.history :=
  rfl

@[simp]
theorem history_saveLedger (row : ArosCoinLedger) :
    (world.saveLedger row).history = world.history :=
  rfl

@[simp]
theorem history_saveEpoch (row : Epoch) :
    (world.saveEpoch row).history = world.history :=
  rfl

@[simp]
theorem history_saveNode (row : NodeEntity) :
    (world.saveNode row).history = world.history :=
  rfl

@[simp]
theorem history_savePhase (row : ReleasePhase) :
    (world.savePhase row).history = world.history :=
  rfl

@[simp]
theorem history_tick : world.tick.history = world.history :=
  rfl

@[simp]
theorem history_withInitialization (promise : Promise) :
    (world.withInitialization promise).history = world.history :=
  rfl

@[simp]
theorem history_mark (processId eventType : String) :
    (world.mark processId eventType).history = world.history :=
  rfl

@[simp]
theorem history_push (epochNumber : ℚ) (entries : List Participation) :
    (world.push epochNumber entries).history = world.history :=
  rfl

@[simp]
theorem history_forget (epochNumber : ℚ) :
    (world.forget epochNumber).history = world.history :=
  rfl

@[simp]
theorem history_restart : world.restart.history = world.history :=
  rfl

/-- The history as event types with payloads. -/
abbrev events : List (String × Payload) :=
  world.history.map fun snapshot => (snapshot.eventType, snapshot.payload)

/-- `reconstruct()` answers `ok: true`. -/
def Intact : Prop :=
  HashChain.Linked (NodeChain.reading env.hasher) "" world.history

variable {env world}

theorem Intact.reconstruct (intact : world.Intact env) :
    (NodeChain.reconstruct env.hasher world.history).ok = true :=
  (NodeChain.reconstruct_ok_iff env.hasher world.history).mpr intact

theorem Intact.append (intact : world.Intact env) (eventType : String)
    (payload : Payload) :
    (world.append env eventType payload).Intact env :=
  NodeChain.linked_append env.hasher (.same Payload) world.snapshots
    eventType payload (world.clock + 1) (fun _ _ => rfl) intact

theorem Intact.of_history {after : World} (intact : world.Intact env)
    (same : after.history = world.history) : after.Intact env := by
  unfold Intact
  rwa [same]

theorem intact_initial : initial.Intact env :=
  trivial

/-- No call breaks the hash chain. -/
theorem Intact.step (intact : world.Intact env) (request : Call)
    {reply : request.Reply} {after : World}
    (answered : machine env request world = some (reply, after)) :
    after.Intact env := by
  cases request with
  | append eventType payload =>
      cases answered
      exact intact.append eventType payload
  | claimInitialization =>
      obtain ⟨_, rfl⟩ := eq_of_claimInitialization answered
      exact intact.of_history rfl
  | awaitInitialization =>
      obtain rfl := eq_of_awaitInitialization answered
      exact intact
  | _ =>
      cases answered
      exact intact.of_history rfl

/-- No program breaks the hash chain. -/
theorem Intact.run {result : Type} (intact : world.Intact env)
    (program : Service result) :
    (Await.run (machine env) program world).2.Intact env :=
  run_invariant
    (fun request _ _ _ _ answered before => before.step request answered)
    (uses_true program) intact

variable (env world)

/-- The row of the ledger, or the row that a first access creates. -/
abbrev ledgerRow : ArosCoinLedger :=
  world.ledger.getD ⟨0, 0, 0⟩

/-- The world after an access to the ledger that leaves the row `row`. -/
@[simps]
def withLedger (row : ArosCoinLedger) : World :=
  { world with ledger := some row, initialization := some .fulfilled }

@[simp]
theorem history_withLedger (row : ArosCoinLedger) :
    (world.withLedger row).history = world.history :=
  rfl

/-- No call is in the middle of creating the ledger row. -/
def Settled : Prop :=
  world.initialization = none ∨
    world.initialization = some .fulfilled ∧ world.ledger ≠ none

theorem settled_initial : initial.Settled :=
  Or.inl rfl

theorem settled_restart : world.restart.Settled :=
  Or.inl rfl

@[simp]
theorem settled_append (eventType : String) (payload : Payload) :
    (world.append env eventType payload).Settled ↔ world.Settled :=
  Iff.rfl

@[simp]
theorem settled_log (eventType layer description : String) :
    (world.log env eventType layer description).Settled ↔ world.Settled :=
  Iff.rfl

@[simp]
theorem settled_saveVerdict (row : PotVerdict) :
    (world.saveVerdict row).Settled ↔ world.Settled :=
  Iff.rfl

@[simp]
theorem settled_saveEpoch (row : Epoch) :
    (world.saveEpoch row).Settled ↔ world.Settled :=
  Iff.rfl

@[simp]
theorem settled_saveNode (row : NodeEntity) :
    (world.saveNode row).Settled ↔ world.Settled :=
  Iff.rfl

@[simp]
theorem settled_savePhase (row : ReleasePhase) :
    (world.savePhase row).Settled ↔ world.Settled :=
  Iff.rfl

@[simp]
theorem settled_tick : world.tick.Settled ↔ world.Settled :=
  Iff.rfl

@[simp]
theorem settled_mark (processId eventType : String) :
    (world.mark processId eventType).Settled ↔ world.Settled :=
  Iff.rfl

@[simp]
theorem settled_push (epochNumber : ℚ) (entries : List Participation) :
    (world.push epochNumber entries).Settled ↔ world.Settled :=
  Iff.rfl

@[simp]
theorem settled_forget (epochNumber : ℚ) :
    (world.forget epochNumber).Settled ↔ world.Settled :=
  Iff.rfl

@[simp]
theorem settled_withLedger (row : ArosCoinLedger) :
    (world.withLedger row).Settled :=
  Or.inr ⟨rfl, by simp⟩

end World

end ArosParadigm
