import ArosParadigm.Sessions

/-!
# Recorded time

`ClockService` counts up from its initial value in memory, and its ticks are
stored in tables that outlive it. A restart begins the count again, so the
records stay in the order of time exactly when no tick is drawn after a
restart that follows a drawn tick.
-/

namespace ArosParadigm.RecordedTime

open Await

/-- What happens to the services: a request is answered, or they are built
again over the same database. -/
inductive Occurrence where
  | request (request : Request)
  | restart

/-- The world after one occurrence. -/
def Occurrence.perform (env : Environment) (world : World) :
    Occurrence → World
  | .request asked => (asked.handle env world).2
  | .restart => world.restart

/-- The world after a run. -/
def worldAfter (env : Environment) (world : World)
    (run : List Occurrence) : World :=
  run.foldl (Occurrence.perform env) world

/-- The records of a world are in the order of time. -/
structure MovesForward (world : World) : Prop where
  snapshots : ∀ first ∈ world.history, ∀ second ∈ world.history,
    first.sequenceId < second.sequenceId →
      first.timestamp < second.timestamp
  oversight : ∀ first ∈ world.oversight, ∀ second ∈ world.oversight,
    first.id < second.id → first.timestamp < second.timestamp
  once : ∀ snapshot ∈ world.history, ∀ entry ∈ world.oversight,
    snapshot.timestamp ≠ entry.timestamp
  epochs : ∀ row ∈ world.epochs.rows, row.status = .finalized →
    row.startTime < row.endTime

/-- The request draws a tick: every `runProcess`, and `finalizeEpoch` of an
epoch that has a row. -/
def DrawsTick (world : World) : Request → Prop
  | .runProcess _ => True
  | .finalizeEpoch epoch => (world.epochs.find? epoch).isSome
  | .metrics _ => False
  | .getProcess _ => False

/-- Some request of the run draws a tick. -/
def Draws (env : Environment) : World → List Occurrence → Prop
  | _, [] => False
  | world, .restart :: rest => Draws env world.restart rest
  | world, .request request :: rest =>
      DrawsTick world request ∨
        Draws env (request.handle env world).2 rest

/-- No tick is drawn after a restart that follows a drawn tick. -/
def NeverRewound (env : Environment) (run : List Occurrence) : Prop :=
  ∀ before after, run = before ++ .restart :: after →
    Draws env .initial before →
      ¬ Draws env (worldAfter env .initial before).restart after

section Runs

variable {env : Environment} {world : World}

theorem worldAfter_append (first second : List Occurrence) :
    worldAfter env world (first ++ second) =
      worldAfter env (worldAfter env world first) second :=
  List.foldl_append

theorem draws_append (first second : List Occurrence) :
    Draws env world (first ++ second) ↔
      Draws env world first ∨
        Draws env (worldAfter env world first) second := by
  induction first generalizing world with
  | nil =>
      simp [Draws, worldAfter]
  | cons occurrence rest inductionHypothesis =>
      cases occurrence with
      | restart =>
          exact inductionHypothesis
      | request request =>
          simp only [List.cons_append, Draws, inductionHypothesis,
            or_assoc]
          rfl

theorem sound_restart (sound : Sound env world) :
    Sound env world.restart :=
  ⟨sound.intact, world.settled_restart, sound.netted⟩

theorem sound_worldAfter (sound : Sound env world)
    (run : List Occurrence) : Sound env (worldAfter env world run) := by
  induction run generalizing world with
  | nil =>
      exact sound
  | cons occurrence rest inductionHypothesis =>
      cases occurrence with
      | request request =>
          exact inductionHypothesis (sound.handle request)
      | restart =>
          exact inductionHypothesis (sound_restart sound)

end Runs

/-- Every recorded tick has been drawn from the clock, in the order of the
records. -/
structure OnTime (world : World) : Prop extends MovesForward world where
  ids : ∀ entry ∈ world.oversight, entry.id ≤ world.oversightSequence
  stamped : ∀ snapshot ∈ world.history, snapshot.timestamp ≤ world.clock
  observed : ∀ entry ∈ world.oversight, entry.timestamp ≤ world.clock
  opened : ∀ row ∈ world.epochs.rows, row.startTime ≤ world.clock

namespace OnTime

variable {env : Environment} {world : World}

/-- A world with the records of a world that is on time, under a clock that
has not gone back. -/
theorem of_same (onTime : OnTime world) {after : World}
    (history : after.history = world.history)
    (oversight : after.oversight = world.oversight)
    (sequence : after.oversightSequence = world.oversightSequence)
    (epochs : after.epochs = world.epochs)
    (later : world.clock ≤ after.clock) : OnTime after where
  snapshots := by
    rw [history]
    exact onTime.snapshots
  oversight := by
    rw [oversight]
    exact onTime.oversight
  once := by
    rw [history, oversight]
    exact onTime.once
  epochs := by
    rw [epochs]
    exact onTime.epochs
  ids := by
    rw [oversight, sequence]
    exact onTime.ids
  stamped := by
    rw [history]
    exact fun snapshot member =>
      (onTime.stamped snapshot member).trans later
  observed := by
    rw [oversight]
    exact fun entry member => (onTime.observed entry member).trans later
  opened := by
    rw [epochs]
    exact fun row member => (onTime.opened row member).trans later

theorem append (onTime : OnTime world) (env : Environment)
    (eventType : String) (payload : Payload) :
    OnTime (world.append env eventType payload) := by
  have newest : ∀ snapshot ∈ world.history,
      snapshot.timestamp < world.clock + 1 :=
    fun snapshot member =>
      Nat.lt_succ_of_le (onTime.stamped snapshot member)
  refine ⟨⟨?_, onTime.oversight, ?_, onTime.epochs⟩, onTime.ids, ?_, ?_,
    ?_⟩
  · intro first firstMember second secondMember ordered
    rw [World.history_append, List.mem_append, List.mem_singleton]
      at firstMember secondMember
    rcases firstMember with firstOld | rfl
    · rcases secondMember with secondOld | rfl
      · exact onTime.snapshots first firstOld second secondOld ordered
      · exact newest first firstOld
    · rcases secondMember with secondOld | rfl
      · have before :=
          world.lt_nextSnapshot env eventType payload secondOld
        omega
      · omega
  · intro snapshot member entry entryMember
    rw [World.history_append, List.mem_append, List.mem_singleton]
      at member
    rcases member with old | rfl
    · exact onTime.once snapshot old entry entryMember
    · have before := onTime.observed entry entryMember
      exact Nat.ne_of_gt (Nat.lt_succ_of_le before)
  · intro snapshot member
    rw [World.history_append, List.mem_append, List.mem_singleton]
      at member
    rcases member with old | rfl
    · exact Nat.le_of_lt (newest snapshot old)
    · exact Nat.le_refl _
  · exact fun entry member =>
      Nat.le_succ_of_le (onTime.observed entry member)
  · exact fun row member =>
      Nat.le_succ_of_le (onTime.opened row member)

theorem log (onTime : OnTime world) (env : Environment)
    (eventType layer description : String) :
    OnTime (world.log env eventType layer description) := by
  have newest : ∀ entry ∈ world.oversight,
      entry.timestamp < world.clock + 1 :=
    fun entry member => Nat.lt_succ_of_le (onTime.observed entry member)
  have numbered : (world.nextOversight env eventType layer
      description).id = world.oversightSequence + 1 :=
    rfl
  refine ⟨⟨onTime.snapshots, ?_, ?_, onTime.epochs⟩, ?_, ?_, ?_, ?_⟩
  · intro first firstMember second secondMember ordered
    rw [World.log_oversight, List.mem_append, List.mem_singleton]
      at firstMember secondMember
    rcases firstMember with firstOld | rfl
    · rcases secondMember with secondOld | rfl
      · exact onTime.oversight first firstOld second secondOld ordered
      · exact newest first firstOld
    · rcases secondMember with secondOld | rfl
      · have before := onTime.ids second secondOld
        omega
      · omega
  · intro snapshot member entry entryMember
    rw [World.log_oversight, List.mem_append, List.mem_singleton]
      at entryMember
    rcases entryMember with old | rfl
    · exact onTime.once snapshot member entry old
    · have before := onTime.stamped snapshot member
      exact Nat.ne_of_lt (Nat.lt_succ_of_le before)
  · intro entry member
    rw [World.log_oversight, List.mem_append, List.mem_singleton]
      at member
    rcases member with old | rfl
    · exact Nat.le_succ_of_le (onTime.ids entry old)
    · exact Nat.le_refl _
  · exact fun snapshot member =>
      Nat.le_succ_of_le (onTime.stamped snapshot member)
  · intro entry member
    rw [World.log_oversight, List.mem_append, List.mem_singleton]
      at member
    rcases member with old | rfl
    · exact Nat.le_of_lt (newest entry old)
    · exact Nat.le_refl _
  · exact fun row member =>
      Nat.le_succ_of_le (onTime.opened row member)

theorem saveEpoch (onTime : OnTime world) (row : Epoch)
    (begun : row.startTime ≤ world.clock)
    (ended : row.status = .finalized → row.startTime < row.endTime) :
    OnTime (world.saveEpoch row) := by
  refine ⟨⟨onTime.snapshots, onTime.oversight, onTime.once, ?_⟩,
    onTime.ids, onTime.stamped, onTime.observed, ?_⟩
  · intro stored member finalized
    rcases Keyed.Table.mem_rows_save member with rfl | ⟨old, _⟩
    · exact ended finalized
    · exact onTime.epochs stored old finalized
  · intro stored member
    rcases Keyed.Table.mem_rows_save member with rfl | ⟨old, _⟩
    · exact begun
    · exact onTime.opened stored old

theorem mark (onTime : OnTime world) (processId eventType : String) :
    OnTime (world.mark processId eventType) :=
  onTime.of_same rfl rfl rfl rfl (Nat.le_refl _)

theorem captureEvent (onTime : OnTime world) (env : Environment)
    (processId eventType : String) (data : Json.JsObject ℚ) :
    OnTime (world.captureEvent env processId eventType data) :=
  (onTime.append env eventType _).mark processId eventType

theorem tick (onTime : OnTime world) : OnTime world.tick :=
  onTime.of_same rfl rfl rfl rfl (Nat.le_succ _)

theorem push (onTime : OnTime world) (epochNumber : ℚ)
    (entries : List Participation) :
    OnTime (world.push epochNumber entries) :=
  onTime.of_same rfl rfl rfl rfl (Nat.le_refl _)

theorem forget (onTime : OnTime world) (epochNumber : ℚ) :
    OnTime (world.forget epochNumber) :=
  onTime.of_same rfl rfl rfl rfl (Nat.le_refl _)

theorem withLedger (onTime : OnTime world) (row : ArosCoinLedger) :
    OnTime (world.withLedger row) :=
  onTime.of_same rfl rfl rfl rfl (Nat.le_refl _)

theorem enrolledWorld (onTime : OnTime world) (env : Environment)
    (roster : List (String × String)) :
    OnTime (Orchestrator.enrolledWorld env world roster) := by
  induction roster generalizing world with
  | nil =>
      exact onTime
  | cons node rest inductionHypothesis =>
      apply inductionHypothesis
      apply append
      exact onTime.of_same rfl rfl rfl rfl (Nat.le_refl _)

theorem rosterWorld (onTime : OnTime world) (env : Environment)
    (explicit : Option (List String)) :
    OnTime (Orchestrator.rosterWorld env world explicit) := by
  unfold Orchestrator.rosterWorld
  split
  · exact onTime
  · split
    · exact onTime.enrolledWorld env _
    · exact onTime

theorem requestedWorld (onTime : OnTime world) (env : Environment)
    (body : RunProcessDto) :
    OnTime (Orchestrator.requestedWorld env world body) := by
  have initiated :
      OnTime (Orchestrator.initiatedWorld env world body) :=
    (onTime.captureEvent env _ _ _).log env _ _ _
  have prepared := ((((initiated.rosterWorld env
    body.nodeIds).captureEvent env body.processId "task_assignment"
      (Orchestrator.nodesData (Orchestrator.bodyNodes env world
        body))).log env "task_assignment" "processing"
          ("assigned to " ++ toString (Orchestrator.bodyNodes env world
            body).length ++ " nodes")).captureEvent env body.processId
              "stage_transition" Orchestrator.stageData).captureEvent env
                body.processId "execution_complete" []
  obtain ⟨nodes, worked⟩ := Orchestrator.workedWorld_eq
    (Orchestrator.preparedWorld env
      (Orchestrator.rosterWorld env
        (Orchestrator.initiatedWorld env world body) body.nodeIds)
      body.processId (Orchestrator.bodyNodes env world body))
    (Orchestrator.bodyNodes env world body)
  unfold Orchestrator.requestedWorld Orchestrator.executedWorld
  exact worked ▸ prepared.of_same rfl rfl rfl rfl (Nat.le_refl _)

theorem verdictWorld (onTime : OnTime world) (env : Environment)
    (body : RunProcessDto) :
    OnTime (Orchestrator.verdictWorld env world body) := by
  have requested := onTime.requestedWorld env body
  apply log
  apply captureEvent
  unfold Pot.verifyWorld
  split
  · exact requested
  · exact (requested.append env _ _).of_same rfl rfl rfl rfl
      (Nat.le_succ _)

theorem observedWorld (onTime : OnTime world) (env : Environment) :
    OnTime (Orchestrator.observedWorld env world) := by
  unfold Orchestrator.observedWorld AllSeeingEye.comparedWorld
  split
  · exact onTime.withLedger _
  · exact (onTime.withLedger _).log env _ _ _

theorem accruedWorld (onTime : OnTime world) (epochNumber fee : ℚ)
    (participants : List Participation) :
    OnTime (Commission.accruedWorld world epochNumber fee
      participants) := by
  have opened : OnTime (Commission.openedWorld world epochNumber) := by
    unfold Commission.openedWorld
    split
    · exact onTime
    · exact onTime.tick
  apply push
  apply opened.saveEpoch
  · unfold Commission.accruedRow Commission.openedWorld
    cases found : world.epochs.find? epochNumber with
    | none =>
        exact Nat.le_refl _
    | some row =>
        exact onTime.opened row (Keyed.Table.mem_of_find? found)
  · unfold Commission.accruedRow
    cases found : world.epochs.find? epochNumber with
    | none =>
        intro finalized
        cases finalized
    | some row =>
        exact onTime.epochs row (Keyed.Table.mem_of_find? found)

theorem settledWorld (onTime : OnTime world) (env : Environment)
    (processId : String) (amount epoch : ℚ) (nodes : List String) :
    OnTime (Orchestrator.settledWorld env world processId amount epoch
      nodes) := by
  have emitted :
      OnTime (Orchestrator.emittedWorld env world processId amount) :=
    (((onTime.withLedger _).append env _ _).captureEvent env _ _ _).log
      env _ _ _
  have balanced :
      OnTime (Orchestrator.balancedWorld env
        (Orchestrator.emittedWorld env world processId amount) processId
        amount epoch nodes) :=
    (((emitted.accruedWorld _ _ _).withLedger _).append env _ _).log
      env _ _ _
  exact ((balanced.captureEvent env _ _ _).log env _ _ _).observedWorld
    env

theorem payWorld (onTime : OnTime world) (env : Environment)
    (entries : List DistributionEntry) :
    OnTime (Commission.payWorld env world entries) := by
  induction entries generalizing world with
  | nil =>
      exact onTime
  | cons entry rest inductionHypothesis =>
      exact inductionHypothesis ((onTime.append env _ _).withLedger _)

theorem finalizedWorld (onTime : OnTime world) (env : Environment)
    {epochNumber : ℚ} {row : Epoch}
    (found : world.epochs.find? epochNumber = some row)
    (weights : Commission.Weights) :
    OnTime (Commission.finalizedWorld env world row epochNumber
      weights) := by
  have accrued := (onTime.payWorld env
    (Commission.payments weights row.totalFees)).append env
      "reserve.afc.accrual" (.afcAccrual
        (row.totalFees - Commission.paidOf weights row.totalFees))
  have stored : row ∈ ((Commission.payWorld env world
      (Commission.payments weights row.totalFees)).append env
        "reserve.afc.accrual" (.afcAccrual (row.totalFees -
          Commission.paidOf weights row.totalFees))).epochs.rows := by
    rw [World.append_epochs, Commission.payWorld_epochs]
    exact Keyed.Table.mem_of_find? found
  have begun := accrued.opened row stored
  exact ((accrued.tick.saveEpoch (Commission.finalizedRow row weights _)
    (Nat.le_succ_of_le begun)
    fun _ => Nat.lt_succ_of_le begun).append env _ _).forget epochNumber

/-- Every request of one service instance is on time. -/
theorem handle (onTime : OnTime world) (sound : Sound env world)
    (request : Request) : OnTime (request.handle env world).2 := by
  have answered : Answers env world request _ _ :=
    request.answers sound.settled
  generalize (request.handle env world).1 = outcome,
    (request.handle env world).2 = after at answered ⊢
  cases answered with
  | inadmissible =>
      exact (((onTime.captureEvent env _ _ _).log env _ _ _).log env _ _
        _).withLedger _
  | unregistered =>
      exact onTime.requestedWorld env _
  | unverified =>
      exact ((onTime.verdictWorld env _).captureEvent env _ _
        _).observedWorld env
  | verified =>
      exact (onTime.verdictWorld env _).settledWorld env _ _ _ _
  | missing =>
      exact onTime
  | closed =>
      exact (onTime.log env _ _ _).observedWorld env
  | unpayable =>
      exact onTime
  | distributed row weights found isOpen weighed =>
      exact ((onTime.finalizedWorld env found weights).log env _ _
        _).observedWorld env
  | metrics =>
      unfold Release.phasedWorld
      split
      · exact onTime.withLedger _
      · exact (onTime.withLedger world.ledgerRow).of_same rfl rfl rfl rfl
          (Nat.le_refl _)
  | process =>
      exact onTime

end OnTime

/-- The records are the same, under the same clock. -/
structure Untouched (world after : World) : Prop where
  history : after.history = world.history
  oversight : after.oversight = world.oversight
  sequence : after.oversightSequence = world.oversightSequence
  epochs : after.epochs = world.epochs
  clock : after.clock = world.clock
  participation : after.participation = world.participation

/-- A request that draws no tick leaves the records alone. -/
theorem untouched_handle {env : Environment} {world : World}
    (sound : Sound env world) {request : Request}
    (still : ¬ DrawsTick world request) :
    Untouched world (request.handle env world).2 := by
  have answered : Answers env world request _ _ :=
    request.answers sound.settled
  generalize (request.handle env world).1 = outcome,
    (request.handle env world).2 = after at answered ⊢
  cases answered with
  | inadmissible | unregistered | unverified | verified =>
      exact absurd trivial still
  | missing | process =>
      exact ⟨rfl, rfl, rfl, rfl, rfl, rfl⟩
  | closed row found closed =>
      exact absurd (by simp [DrawsTick, found]) still
  | unpayable row id found isOpen weighed =>
      exact ⟨rfl, rfl, rfl, rfl, rfl, rfl⟩
  | distributed row weights found isOpen weighed =>
      exact absurd (by simp [DrawsTick, found]) still
  | metrics =>
      unfold Release.phasedWorld
      split <;> exact ⟨rfl, rfl, rfl, rfl, rfl, rfl⟩

/-- The clock and the participations of freshly built services. -/
structure Rewound (world : World) : Prop where
  clock : world.clock = World.initial.clock
  participation : world.participation = World.initial.participation

theorem rewound_restart (world : World) : Rewound world.restart :=
  ⟨rfl, rfl⟩

section Stillness

variable {env : Environment} {world after later : World}

theorem Untouched.trans (first : Untouched world after)
    (second : Untouched after later) : Untouched world later :=
  ⟨second.history.trans first.history,
    second.oversight.trans first.oversight,
    second.sequence.trans first.sequence,
    second.epochs.trans first.epochs, second.clock.trans first.clock,
    second.participation.trans first.participation⟩

theorem Rewound.of_untouched (rewound : Rewound world)
    (untouched : Untouched world after) : Rewound after :=
  ⟨untouched.clock.trans rewound.clock,
    untouched.participation.trans rewound.participation⟩

theorem Rewound.untouched_restart (rewound : Rewound world) :
    Untouched world world.restart :=
  ⟨rfl, rfl, rfl, rfl, rewound.clock.symm, rewound.participation.symm⟩

/-- A run that draws no tick leaves the records alone. -/
theorem untouched_worldAfter (sound : Sound env world)
    (rewound : Rewound world) {run : List Occurrence}
    (still : ¬ Draws env world run) :
    Untouched world (worldAfter env world run) := by
  induction run generalizing world with
  | nil =>
      exact ⟨rfl, rfl, rfl, rfl, rfl, rfl⟩
  | cons occurrence rest inductionHypothesis =>
      cases occurrence with
      | restart =>
          exact rewound.untouched_restart.trans
            (inductionHypothesis (sound_restart sound)
              (rewound_restart world) still)
      | request asked =>
          obtain ⟨stillNow, stillLater⟩ := not_or.mp still
          have first := untouched_handle sound stillNow
          exact first.trans (inductionHypothesis (sound.handle asked)
            (rewound.of_untouched first) stillLater)

theorem MovesForward.of_same (forward : MovesForward world)
    (history : after.history = world.history)
    (oversight : after.oversight = world.oversight)
    (epochs : after.epochs = world.epochs) : MovesForward after where
  snapshots := by
    rw [history]
    exact forward.snapshots
  oversight := by
    rw [oversight]
    exact forward.oversight
  once := by
    rw [history, oversight]
    exact forward.once
  epochs := by
    rw [epochs]
    exact forward.epochs

theorem onTime_initial : OnTime World.initial where
  snapshots := List.forall_mem_nil _
  oversight := List.forall_mem_nil _
  once := List.forall_mem_nil _
  epochs := List.forall_mem_nil _
  ids := List.forall_mem_nil _
  stamped := List.forall_mem_nil _
  observed := List.forall_mem_nil _
  opened := List.forall_mem_nil _

end Stillness

/-! ## Runs that never go back -/

section Forward

variable {env : Environment}

theorem neverRewound_of_append {first second : List Occurrence}
    (never : NeverRewound env (first ++ second)) :
    NeverRewound env first := by
  intro before after split drawn draws
  apply never before (after ++ second)
  · rw [split]
    simp
  · exact drawn
  · rw [draws_append]
    exact Or.inl draws

/-- A run that is on time, or one that has been restarted after a tick. -/
private theorem onTime_or_restarted (run : List Occurrence)
    (never : NeverRewound env run) :
    OnTime (worldAfter env .initial run) ∨
      MovesForward (worldAfter env .initial run) ∧
        ∃ before after, run = before ++ .restart :: after ∧
          Draws env .initial before := by
  induction run using List.reverseRecOn with
  | nil =>
      exact Or.inl onTime_initial
  | append_singleton earlier occurrence inductionHypothesis =>
      have sound : Sound env (worldAfter env .initial earlier) :=
        sound_worldAfter sound_initial earlier
      rw [worldAfter_append]
      rcases inductionHypothesis (neverRewound_of_append never) with
        onTime | ⟨forward, before, after, rfl, drawn⟩
      · cases occurrence with
        | request asked =>
            exact Or.inl (onTime.handle sound asked)
        | restart =>
            by_cases drawn : Draws env .initial earlier
            · exact Or.inr ⟨onTime.toMovesForward.of_same rfl rfl rfl,
                earlier, [], rfl, drawn⟩
            · -- Nothing has been recorded yet.
              have untouched : Untouched World.initial
                  (worldAfter env .initial earlier) :=
                untouched_worldAfter sound_initial ⟨rfl, rfl⟩ drawn
              exact Or.inl (onTime_initial.of_same untouched.history
                untouched.oversight untouched.sequence untouched.epochs
                (Nat.le_refl _))
      · have again : before ++ .restart :: after ++ [occurrence] =
            before ++ .restart :: (after ++ [occurrence]) := by
          simp
        refine Or.inr ⟨?_, before, after ++ [occurrence], again, drawn⟩
        cases occurrence with
        | restart =>
            exact forward.of_same rfl rfl rfl
        | request asked =>
            have still := never before _ again drawn
            rw [draws_append, not_or] at still
            have same : worldAfter env .initial
                (before ++ .restart :: after) =
                worldAfter env (worldAfter env .initial before).restart
                  after :=
              worldAfter_append before _
            rw [same] at sound forward ⊢
            have untouched := untouched_handle sound
              (not_or.mp still.2).1
            exact forward.of_same untouched.history untouched.oversight
              untouched.epochs

end Forward

section Rewinding

variable {env : Environment} {world : World}

/-- Snapshots and oversight entries are only added. -/
structure Extends (world after : World) : Prop where
  history : world.history <+: after.history
  oversight : world.oversight <+: after.oversight

theorem extends_of_same {after : World}
    (history : after.history = world.history)
    (oversight : after.oversight = world.oversight) :
    Extends world after :=
  ⟨history ▸ List.prefix_refl _, oversight ▸ List.prefix_refl _⟩

theorem Extends.trans {first second third : World}
    (earlier : Extends first second) (later : Extends second third) :
    Extends first third :=
  ⟨earlier.history.trans later.history,
    earlier.oversight.trans later.oversight⟩

theorem extends_append (env : Environment) (world : World)
    (eventType : String) (payload : Payload) :
    Extends world (world.append env eventType payload) := by
  refine ⟨?_, List.prefix_refl _⟩
  rw [World.history_append]
  exact List.prefix_append _ _

theorem extends_log (env : Environment) (world : World)
    (eventType layer description : String) :
    Extends world (world.log env eventType layer description) :=
  ⟨List.prefix_refl _, List.prefix_append _ _⟩

private theorem extends_machine (request : Call) (before : World)
    (reply : request.Reply) (after : World)
    (answered : machine env request before = some (reply, after)) :
    Extends before after := by
  cases request with
  | append eventType payload =>
      cases answered
      exact extends_append env before eventType payload
  | logOversight eventType layer description =>
      cases answered
      exact extends_log env before eventType layer description
  | claimInitialization =>
      obtain ⟨_, rfl⟩ := eq_of_claimInitialization answered
      exact extends_of_same rfl rfl
  | awaitInitialization =>
      obtain rfl := eq_of_awaitInitialization answered
      exact extends_of_same rfl rfl
  | _ =>
      cases answered
      exact extends_of_same rfl rfl

theorem extends_run {result : Type} (program : Service result) :
    Extends world (Await.run (machine env) program world).2 :=
  run_invariant
    (fun request _ before reply after answered kept =>
      Extends.trans kept
        (extends_machine request before reply after answered))
    (uses_true program) (extends_of_same rfl rfl)

private theorem extends_reportedWorld (epoch : ℚ)
    (result : FinalizeResult) :
    Extends (world.log env "commission_distribution" "token_management"
        (Orchestrator.distributionText env epoch result))
      (Orchestrator.reportedWorld env world epoch result) := by
  unfold Orchestrator.reportedWorld Orchestrator.observedWorld
    AllSeeingEye.comparedWorld
  split
  · exact extends_of_same rfl rfl
  · exact ⟨List.prefix_refl _, List.prefix_append _ _⟩

/-- A finalization that pays nobody begins with the accrual. -/
private theorem extends_finalizedWorld (row : Epoch) (epoch : ℚ) :
    Extends (world.append env "reserve.afc.accrual" (.afcAccrual
        (row.totalFees - Commission.paidOf [] row.totalFees)))
      (Commission.finalizedWorld env world row epoch []) := by
  have unpaid : Commission.payments [] row.totalFees = [] := by
    simp [Commission.payments]
  have same : Commission.payWorld env world
      (Commission.payments [] row.totalFees) = world := by
    rw [unpaid]
    rfl
  have accrued := extends_append env
    ((world.append env "reserve.afc.accrual" (.afcAccrual
      (row.totalFees - Commission.paidOf [] row.totalFees))).tick.saveEpoch
        (Commission.finalizedRow row [] (world.clock + 2)))
    "commission.epoch.finalized" (Commission.finalizedPayload row epoch [])
  unfold Commission.finalizedWorld
  rw [same]
  exact ⟨accrued.history, accrued.oversight⟩

theorem extends_worldAfter (run : List Occurrence) :
    Extends world (worldAfter env world run) := by
  induction run generalizing world with
  | nil =>
      exact extends_of_same rfl rfl
  | cons occurrence rest inductionHypothesis =>
      cases occurrence with
      | restart =>
          have built : Extends world world.restart :=
            extends_of_same rfl rfl
          exact built.trans inductionHypothesis
      | request asked =>
          have handled : Extends world (asked.handle env world).2 :=
            extends_run _
          exact handled.trans inductionHypothesis

/-- The first tick of a service instance has been recorded: in a new
snapshot, or in the observation of an epoch that was there. -/
def FirstRecorded (world after : World) : Prop :=
  (∃ snapshot, world.history ++ [snapshot] <+: after.history ∧
    (∀ earlier ∈ world.history,
      earlier.sequenceId < snapshot.sequenceId) ∧
    snapshot.timestamp = World.initial.clock + 1) ∨
  world.epochs.rows ≠ [] ∧
    ∃ entry ∈ after.oversight, entry.timestamp = World.initial.clock + 1

theorem FirstRecorded.extends {after later : World}
    (recorded : FirstRecorded world after) (more : Extends after later) :
    FirstRecorded world later := by
  rcases recorded with ⟨snapshot, added, largest, stamp⟩ |
    ⟨present, entry, member, stamp⟩
  · exact Or.inl ⟨snapshot, added.trans more.history, largest, stamp⟩
  · exact Or.inr ⟨present, entry, more.oversight.subset member, stamp⟩

private theorem firstRecorded_append (rewound : Rewound world)
    (eventType : String) (payload : Payload) :
    FirstRecorded world (world.append env eventType payload) := by
  refine Or.inl ⟨world.nextSnapshot env eventType payload, ?_, ?_, ?_⟩
  · exact ⟨[], by rw [List.append_nil, World.history_append]⟩
  · exact fun earlier member =>
      world.lt_nextSnapshot env eventType payload member
  · exact congrArg (· + 1) rewound.clock

private theorem firstRecorded_handle (sound : Sound env world)
    (rewound : Rewound world) {request : Request}
    (draws : DrawsTick world request) :
    FirstRecorded world (request.handle env world).2 := by
  cases request with
  | runProcess body =>
      have initiation : ∃ rest : Service Response,
          (Request.runProcess body).handle env world =
            Await.run (machine env) rest
              (world.append env "initiation"
                (StateRecording.buildPayload body.processId
                  (Orchestrator.amountData body.amount) none)) :=
        ⟨_, rfl⟩
      obtain ⟨rest, handled⟩ := initiation
      rw [handled]
      exact (firstRecorded_append rewound _ _).extends (extends_run rest)
  | finalizeEpoch epoch =>
      have answered : Answers env world (.finalizeEpoch epoch) _ _ :=
        Request.answers sound.settled _
      generalize ((Request.finalizeEpoch epoch).handle env world).1 =
          outcome,
        ((Request.finalizeEpoch epoch).handle env world).2 = after
        at answered ⊢
      have nothing : world.participations epoch = [] := by
        unfold World.participations
        rw [rewound.participation]
        rfl
      cases answered with
      | missing missing =>
          simp [DrawsTick, missing] at draws
      | closed row found closed =>
          have more := @extends_reportedWorld env world epoch
            (Commission.toResult row)
          refine Or.inr ⟨?_, world.nextOversight env
            "commission_distribution" "token_management"
            (Orchestrator.distributionText env epoch
              (Commission.toResult row)), ?_, ?_⟩
          · exact List.ne_nil_of_mem (Keyed.Table.mem_of_find? found)
          · apply more.oversight.subset
            simp
          · exact congrArg (· + 1) rewound.clock
      | unpayable row id found isOpen weighed =>
          rw [nothing] at weighed
          cases weighed
      | distributed row weights found isOpen weighed =>
          rw [nothing] at weighed
          cases weighed
          have accrued : FirstRecorded world (world.append env
              "reserve.afc.accrual" (.afcAccrual
                (row.totalFees - Commission.paidOf [] row.totalFees))) :=
            firstRecorded_append rewound _ _
          exact accrued.extends ((extends_finalizedWorld row epoch).trans
            ((extends_log env _ _ _ _).trans
              (extends_reportedWorld epoch _)))
  | metrics epoch =>
      exact draws.elim
  | getProcess processId =>
      exact draws.elim

/-- A run of freshly built services that draws a tick records the first one. -/
private theorem firstRecorded_worldAfter (sound : Sound env world)
    (rewound : Rewound world) {run : List Occurrence}
    (draws : Draws env world run) :
    FirstRecorded world (worldAfter env world run) := by
  induction run generalizing world with
  | nil =>
      exact draws.elim
  | cons occurrence rest inductionHypothesis =>
      cases occurrence with
      | restart =>
          exact inductionHypothesis (sound_restart sound)
            (rewound_restart world) draws
      | request asked =>
          by_cases now : DrawsTick world asked
          · exact (firstRecorded_handle sound rewound now).extends
              (extends_worldAfter rest)
          · have untouched := untouched_handle sound now
            have later := inductionHypothesis (sound.handle asked)
              (rewound.of_untouched untouched)
              (draws.resolve_left now)
            unfold FirstRecorded at later ⊢
            rw [untouched.history, untouched.epochs] at later
            exact later

/-- The tick of a run before a restart is recorded again after it. -/
private theorem not_movesForward_of_rewound
    {before after : List Occurrence}
    (drawn : Draws env .initial before)
    (draws : Draws env (worldAfter env .initial before).restart after) :
    ¬ MovesForward (worldAfter env
      (worldAfter env .initial before).restart after) := by
  intro forward
  have sound : Sound env (worldAfter env .initial before) :=
    sound_worldAfter sound_initial before
  have atFirst : FirstRecorded World.initial
      (worldAfter env .initial before) :=
    firstRecorded_worldAfter sound_initial ⟨rfl, rfl⟩ drawn
  have again : FirstRecorded (worldAfter env .initial before) _ :=
    firstRecorded_worldAfter (sound_restart sound)
      (rewound_restart _) draws
  have built : Extends (worldAfter env .initial before)
      (worldAfter env .initial before).restart :=
    extends_of_same rfl rfl
  have kept := built.trans (@extends_worldAfter env _ after)
  rcases atFirst with ⟨snapshot, added, _, stamp⟩ | ⟨present, _⟩
  · have early : snapshot ∈ (worldAfter env .initial before).history :=
      added.subset (by simp)
    rcases again with ⟨other, more, largest, sameStamp⟩ |
      ⟨_, entry, member, sameStamp⟩
    · have late := more.subset (List.mem_append_right _
        (List.mem_singleton_self other))
      have ordered := forward.snapshots snapshot
        (kept.history.subset early) other late (largest snapshot early)
      omega
    · exact forward.once snapshot (kept.history.subset early) entry member
        (stamp.trans sameStamp.symm)
  · exact absurd rfl present

end Rewinding

/-- The records of a run are in the order of time exactly when no tick is
drawn after a restart that follows a drawn tick. -/
theorem movesForward_iff (env : Environment) (run : List Occurrence) :
    MovesForward (worldAfter env .initial run) ↔ NeverRewound env run := by
  constructor
  · rintro forward before after rfl drawn draws
    rw [worldAfter_append] at forward
    exact not_movesForward_of_rewound drawn draws forward
  · intro never
    rcases onTime_or_restarted run never with onTime | ⟨forward, _⟩
    · exact onTime.toMovesForward
    · exact forward

/-- One process before a restart and one after it. -/
def restartedRun : List Occurrence :=
  [.request (.runProcess (Orchestrator.transferBody "p-1" none
      Orchestrator.none_ne_some_nil)), .restart,
    .request (.runProcess (Orchestrator.transferBody "p-2" none
      Orchestrator.none_ne_some_nil))]

/-- The initiation of the second process bears the tick of the first. -/
theorem time_recorded_twice :
    ¬ MovesForward (worldAfter .plain .initial restartedRun) := by
  intro forward
  have twice : ∃ first ∈ (worldAfter .plain .initial restartedRun).history,
      ∃ second ∈ (worldAfter .plain .initial restartedRun).history,
        first.sequenceId < second.sequenceId ∧
          ¬ first.timestamp < second.timestamp := by
    decide +kernel
  obtain ⟨first, firstMember, second, secondMember, ordered, not_later⟩ :=
    twice
  exact not_later
    (forward.snapshots first firstMember second secondMember ordered)

end ArosParadigm.RecordedTime
