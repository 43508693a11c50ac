import ArosParadigm.Release
import ArosParadigm.Emission
import ArosParadigm.Commission

/-!
# The record of the release

The phase row and the chain tell the same story: there is no
`release.activated` snapshot while the phase is inactive, and exactly one,
with the metrics of that moment, from the activation on.
-/

namespace ArosParadigm

open Await

namespace World

variable (world : World)

/-- The phase row is active. -/
def isActive : Bool :=
  world.phase.any ReleasePhase.active

def activations : List Snapshot :=
  world.history.filter fun snapshot =>
    snapshot.eventType = "release.activated"

def supply : ℚ :=
  (world.ledgerRow.processMinted - world.ledgerRow.processBurned) +
    world.ledgerRow.earnedRetained

def reserveIndex (env : Environment) : ℚ :=
  env.log10 (1 + (world.history.map Reserve.volumeOf).sum)

/-- The velocity derived from the ledger. -/
def velocity (processVolume24h : ℚ) : ℚ :=
  if world.supply ≤ 0 then 0 else processVolume24h / world.supply

end World

/-- A step that adds no activation, and at most creates the phase row. -/
structure Quiet (world after : World) : Prop where
  settled : after.Settled
  phase : after.phase = world.phase ∨
    world.phase = none ∧ after.phase = some .inactive
  history : ∃ rest, after.history = world.history ++ rest ∧
    ∀ snapshot ∈ rest, snapshot.eventType ≠ "release.activated"

namespace Quiet

variable {world after later : World}

theorem refl (settled : world.Settled) : Quiet world world := by
  refine ⟨settled, Or.inl rfl, [], (List.append_nil _).symm, ?_⟩
  intro snapshot member
  cases member

/-- A step that leaves chain and phase as they are. -/
theorem same (quiet : Quiet world after) (settled : later.Settled)
    (phase : later.phase = after.phase)
    (history : later.history = after.history) : Quiet world later :=
  ⟨settled, phase ▸ quiet.phase, history ▸ quiet.history⟩

theorem append (quiet : Quiet world after) (env : Environment)
    {eventType : String} (other : eventType ≠ "release.activated")
    (payload : Payload) :
    Quiet world (after.append env eventType payload) := by
  obtain ⟨settled, phase, rest, history, silent⟩ := quiet
  refine ⟨settled, phase,
    rest ++ [after.nextSnapshot env eventType payload], ?_, ?_⟩
  · rw [World.history_append, history, List.append_assoc]
  · intro snapshot member
    rcases List.mem_append.mp member with old | new
    · exact silent snapshot old
    · rw [List.mem_singleton.mp new]
      exact other

theorem withLedger (quiet : Quiet world after) (row : ArosCoinLedger) :
    Quiet world (after.withLedger row) :=
  quiet.same (World.settled_withLedger _ _) rfl rfl

theorem phasedWorld (quiet : Quiet world after) :
    Quiet world (Release.phasedWorld after) := by
  obtain ⟨settled, phase, history⟩ := quiet
  unfold Release.phasedWorld
  cases stored : after.phase with
  | some row =>
      rw [Option.isSome_some, if_pos rfl]
      exact ⟨settled, phase, history⟩
  | none =>
      rw [Option.isSome_none, if_neg Bool.false_ne_true]
      refine ⟨settled, Or.inr ⟨?_, rfl⟩, history⟩
      rcases phase with kept | ⟨_, created⟩
      · rw [← kept, stored]
      · rw [stored] at created
        cases created

theorem payWorld (quiet : Quiet world after) (env : Environment)
    (entries : List DistributionEntry) :
    Quiet world (Commission.payWorld env after entries) := by
  unfold Commission.payWorld
  induction entries generalizing after with
  | nil =>
      exact quiet
  | cons entry rest inductionHypothesis =>
      exact inductionHypothesis
        ((quiet.append env (by decide) _).withLedger _)

/-- What the world shows of the activation. -/
theorem isActive (quiet : Quiet world after) :
    after.isActive = world.isActive := by
  unfold World.isActive
  rcases quiet.phase with same | ⟨missing, created⟩
  · rw [same]
  · rw [missing, created]
    rfl

theorem phase_of_active (quiet : Quiet world after)
    (active : world.isActive = true) : after.phase = world.phase := by
  rcases quiet.phase with same | ⟨missing, _⟩
  · exact same
  · rw [World.isActive, missing] at active
    cases active

theorem activations (quiet : Quiet world after) :
    after.activations = world.activations := by
  obtain ⟨rest, history, silent⟩ := quiet.history
  have nothing : rest.filter (fun snapshot =>
      snapshot.eventType = "release.activated") = [] := by
    rw [List.filter_eq_nil_iff]
    intro snapshot member
    simpa using silent snapshot member
  unfold World.activations
  rw [history, List.filter_append, nothing, List.append_nil]

end Quiet

namespace Release

variable {env : Environment} {world : World}

theorem run_velocity (settled : world.Settled) (processVolume24h : ℚ) :
    run (machine env) (velocity processVolume24h) world =
      (.returned (world.velocity processVolume24h),
        world.withLedger world.ledgerRow) := by
  rw [velocity, run_bind_of_returned (ArosCoin.run_totalSupply settled)]
  change run (machine env) (if world.supply ≤ 0 then pure 0
    else pure (processVolume24h / world.supply)) _ = _
  unfold World.velocity
  split
  · rfl
  · rfl

/-- What `check` answers. -/
def checked (env : Environment) (world : World)
    (threshold target processVolume24h : ℚ) : MaturityCheck :=
  ⟨threshold < world.reserveIndex env ∧
      target < world.velocity processVolume24h,
    world.reserveIndex env, world.velocity processVolume24h⟩

theorem run_check (settled : world.Settled)
    (threshold target processVolume24h : ℚ) :
    run (machine env) (check env threshold target processVolume24h)
        world =
      (.returned (checked env world threshold target processVolume24h),
        world.withLedger world.ledgerRow) := by
  rw [check, run_bind_of_returned (Reserve.run_reserveIndex env world),
    run_bind_of_returned (run_velocity settled processVolume24h)]
  rfl

/-- The world after an activation. -/
def activatedWorld (env : Environment) (world : World)
    (threshold target processVolume24h : ℚ) : World :=
  let read := phasedWorld (world.withLedger world.ledgerRow)
  (read.tick.append env "release.activated"
    (.releaseActivated (world.reserveIndex env)
      (world.velocity processVolume24h) threshold target)).savePhase
    { world.phase.getD .inactive with
      active := true
      activatedAt := some (read.clock + 1)
      reserveIndexAtActivation := some (world.reserveIndex env)
      velocityAtActivation := some (world.velocity processVolume24h) }

theorem settled_activatedWorld {threshold target processVolume24h : ℚ}
    (settled : world.Settled) :
    (activatedWorld env world threshold target
      processVolume24h).Settled := by
  have read : Quiet world
      (phasedWorld (world.withLedger world.ledgerRow)) :=
    ((Quiet.refl settled).withLedger _).phasedWorld
  exact read.settled

/-- Only a mature check of an inactive phase activates. -/
theorem run_activate (settled : world.Settled)
    (threshold target processVolume24h : ℚ) :
    (run (machine env)
        (activate env threshold target processVolume24h) world).2 =
      if world.isActive = false ∧
          threshold < world.reserveIndex env ∧
          target < world.velocity processVolume24h then
        activatedWorld env world threshold target processVolume24h
      else
        phasedWorld (world.withLedger world.ledgerRow) := by
  have active : (world.phase.getD .inactive).active = world.isActive := by
    unfold World.isActive
    cases world.phase <;> rfl
  rw [activate, run_bind_of_returned (run_check settled threshold target
    processVolume24h), run_bind_of_returned run_phase]
  change (run (machine env) (if (world.phase.getD .inactive).active then _
    else if !(checked env world threshold target
      processVolume24h).mature then _ else _) _).2 = _
  rw [active]
  cases isActive : world.isActive with
  | true =>
      simp only [Bool.true_eq_false, false_and, if_false, if_true]
      rfl
  | false =>
      by_cases mature : threshold < world.reserveIndex env ∧
          target < world.velocity processVolume24h
      · have isMature : (checked env world threshold target
            processVolume24h).mature = true := by
          simpa [checked] using mature
        simp only [isMature, mature, Bool.false_eq_true, if_false,
          Bool.not_true, and_self, if_true]
        rfl
      · have immature : (checked env world threshold target
            processVolume24h).mature = false := by
          simpa [checked] using mature
        simp only [immature, mature, Bool.false_eq_true, if_false,
          Bool.not_false, and_false, if_true]
        rfl

end Release

inductive EconomyOperation where
  | activate (threshold target processVolume24h : ℚ)
  | check (threshold target processVolume24h : ℚ)
  | isActive
  | recordMint (amount : ℚ)
  | recordBurn (amount : ℚ)
  | recordEarned (amount : ℚ)
  | mint (processId : String) (amount : ℚ)
  | burn (processId : String) (amount : ℚ)
  | emit (processId : String) (amount : ℚ)
  | accrue (epochNumber fee : ℚ) (participants : List Participation)
  | finalizeEpoch (epochNumber : ℚ)
  | getEpoch (epochNumber : ℚ)
  | register (id type : String)
  | capture (processId eventType : String) (data : Json.JsObject ℚ)
      (other : eventType ≠ "release.activated")
  | verify (processId : String)

/-- The world after an operation. -/
def EconomyOperation.perform (env : Environment) (world : World) :
    EconomyOperation → World
  | .activate threshold target processVolume24h =>
      (run (machine env) (Release.activate env threshold target
        processVolume24h) world).2
  | .check threshold target processVolume24h =>
      (run (machine env) (Release.check env threshold target
        processVolume24h) world).2
  | .isActive => (run (machine env) Release.isActive world).2
  | .recordMint amount =>
      (run (machine env) (ArosCoin.recordMint amount) world).2
  | .recordBurn amount =>
      (run (machine env) (ArosCoin.recordBurn amount) world).2
  | .recordEarned amount =>
      (run (machine env) (ArosCoin.recordEarned amount) world).2
  | .mint processId amount =>
      (run (machine env) (Emission.mint processId amount) world).2
  | .burn processId amount =>
      (run (machine env) (Emission.burn processId amount) world).2
  | .emit processId amount =>
      (run (machine env) (Emission.emit processId amount) world).2
  | .accrue epochNumber fee participants =>
      (run (machine env) (Commission.accrue epochNumber fee
        participants) world).2
  | .finalizeEpoch epochNumber =>
      (run (machine env) (Commission.finalizeEpoch env epochNumber)
        world).2
  | .getEpoch epochNumber =>
      (run (machine env) (Commission.getEpoch epochNumber) world).2
  | .register id type =>
      (run (machine env) (Nodes.register id type) world).2
  | .capture processId eventType data _ =>
      (run (machine env) (StateRecording.capture processId eventType data)
        world).2
  | .verify processId =>
      (run (machine env) (Pot.verify env processId) world).2

/-- The world after the operations, from an empty store. -/
def economyAfter (env : Environment)
    (operations : List EconomyOperation) : World :=
  operations.foldl (EconomyOperation.perform env) World.initial

theorem economyAfter_append_singleton (env : Environment)
    (operations : List EconomyOperation) (operation : EconomyOperation) :
    economyAfter env (operations ++ [operation]) =
      operation.perform env (economyAfter env operations) :=
  List.foldl_append

section Steps

variable {env : Environment} {world : World}

private theorem quiet_emit (settled : world.Settled) (processId : String)
    (amount : ℚ) :
    Quiet world (run (machine env) (Emission.mint processId amount)
        world).2 ∧
      Quiet world (run (machine env) (Emission.emit processId amount)
        world).2 := by
  cases authorized : Emission.authorizes
      (world.verdicts.find? processId) with
  | true =>
      have minted : Quiet world
          (Emission.mintedWorld env world processId amount) :=
        ((Quiet.refl settled).withLedger _).append env (by decide) _
      rw [Emission.run_mint settled authorized,
        Emission.run_emit settled authorized]
      exact ⟨minted, (minted.withLedger _).append env (by decide) _⟩
  | false =>
      rw [Emission.run_mint_refused authorized,
        Emission.run_emit_refused authorized]
      exact ⟨Quiet.refl settled, Quiet.refl settled⟩

private theorem quiet_accrue (settled : world.Settled)
    (epochNumber fee : ℚ) (participants : List Participation) :
    Quiet world (run (machine env) (Commission.accrue epochNumber fee
      participants) world).2 := by
  have opened : Quiet world
      (Commission.openedWorld world epochNumber) := by
    unfold Commission.openedWorld
    split
    · exact Quiet.refl settled
    · exact (Quiet.refl settled).same settled rfl rfl
  rw [Commission.run_accrue]
  exact opened.same opened.settled rfl rfl

/-- `finalizeEpoch` has stored the row, and not yet appended it. -/
private def storedWorld (env : Environment) (world : World)
    (row : Epoch) (weights : Commission.Weights) : World :=
  let paid := Commission.payWorld env world
    (Commission.payments weights row.totalFees)
  let accrued := paid.append env "reserve.afc.accrual"
    (.afcAccrual (row.totalFees -
      Commission.paidOf weights row.totalFees))
  accrued.tick.saveEpoch
    (Commission.finalizedRow row weights (accrued.clock + 1))

private theorem quiet_finalizeEpoch (settled : world.Settled)
    (epochNumber : ℚ) :
    Quiet world (run (machine env)
      (Commission.finalizeEpoch env epochNumber) world).2 := by
  cases found : world.epochs.find? epochNumber with
  | none =>
      rw [Commission.run_finalizeEpoch_of_none env found]
      exact Quiet.refl settled
  | some row =>
      by_cases isOpen : row.status = .opened
      swap
      · rw [Commission.run_finalizeEpoch_of_closed env found isOpen]
        exact Quiet.refl settled
      cases weighed : Commission.weigh world
          (world.participations epochNumber) [] with
      | error id =>
          rw [Commission.run_finalizeEpoch_of_error env found isOpen
            weighed]
          exact Quiet.refl settled
      | ok weights =>
          rw [Commission.run_finalizeEpoch_of_ok env settled found isOpen
            weighed]
          have paid : Quiet world (Commission.payWorld env world
              (Commission.payments weights row.totalFees)) :=
            (Quiet.refl settled).payWorld env _
          have accrued := paid.append env
            (by decide : "reserve.afc.accrual" ≠ "release.activated")
            (.afcAccrual (row.totalFees -
              Commission.paidOf weights row.totalFees))
          have stored : Quiet world (storedWorld env world row weights) :=
            accrued.same accrued.settled rfl rfl
          have finalized := stored.append env
            (by decide : "commission.epoch.finalized" ≠
              "release.activated")
            (Commission.finalizedPayload row epochNumber weights)
          exact finalized.same finalized.settled rfl rfl

private theorem quiet_verify (settled : world.Settled)
    (processId : String) :
    Quiet world (run (machine env) (Pot.verify env processId) world).2 := by
  rw [Pot.run_verify]
  unfold Pot.verifyWorld
  cases world.verdicts.find? processId with
  | some existing =>
      exact Quiet.refl settled
  | none =>
      have judged : Quiet world (world.append env "pot.verified"
          (Pot.verdictPayload env world processId)) :=
        (Quiet.refl settled).append env (by decide) _
      exact judged.same judged.settled rfl rfl

/-- An operation leaves the record alone, or it is the activation. -/
theorem EconomyOperation.quiet_or_activates (settled : world.Settled)
    (operation : EconomyOperation) :
    Quiet world (operation.perform env world) ∨
      ∃ threshold target processVolume24h,
        operation = .activate threshold target processVolume24h ∧
        world.isActive = false ∧
        threshold < world.reserveIndex env ∧
        target < world.velocity processVolume24h ∧
        operation.perform env world =
          Release.activatedWorld env world threshold target
            processVolume24h := by
  have unchanged := Quiet.refl settled
  cases operation with
  | activate threshold target processVolume24h =>
      have performed : (EconomyOperation.activate threshold target
          processVolume24h).perform env world = _ :=
        Release.run_activate settled threshold target processVolume24h
      by_cases mature : world.isActive = false ∧
          threshold < world.reserveIndex env ∧
          target < world.velocity processVolume24h
      · rw [if_pos mature] at performed
        exact Or.inr ⟨threshold, target, processVolume24h, rfl, mature.1,
          mature.2.1, mature.2.2, performed⟩
      · rw [if_neg mature] at performed
        rw [performed]
        exact Or.inl (unchanged.withLedger _).phasedWorld
  | check threshold target processVolume24h =>
      refine Or.inl ?_
      change Quiet world (run (machine env) (Release.check env threshold
        target processVolume24h) world).2
      rw [Release.run_check settled]
      exact unchanged.withLedger _
  | isActive =>
      refine Or.inl ?_
      change Quiet world (run (machine env) Release.isActive world).2
      rw [Release.run_isActive]
      exact unchanged.phasedWorld
  | recordMint amount =>
      refine Or.inl ?_
      change Quiet world (run (machine env) (ArosCoin.recordMint amount)
        world).2
      rw [ArosCoin.run_recordMint settled]
      exact unchanged.withLedger _
  | recordBurn amount =>
      refine Or.inl ?_
      change Quiet world (run (machine env) (ArosCoin.recordBurn amount)
        world).2
      rw [ArosCoin.run_recordBurn settled]
      exact unchanged.withLedger _
  | recordEarned amount =>
      refine Or.inl ?_
      change Quiet world (run (machine env) (ArosCoin.recordEarned amount)
        world).2
      rw [ArosCoin.run_recordEarned env settled]
      exact unchanged.withLedger _
  | mint processId amount =>
      exact Or.inl (quiet_emit settled processId amount).1
  | burn processId amount =>
      refine Or.inl ?_
      change Quiet world (run (machine env) (Emission.burn processId
        amount) world).2
      rw [Emission.run_burn settled]
      exact (unchanged.withLedger _).append env (by decide) _
  | emit processId amount =>
      exact Or.inl (quiet_emit settled processId amount).2
  | accrue epochNumber fee participants =>
      exact Or.inl (quiet_accrue settled epochNumber fee participants)
  | finalizeEpoch epochNumber =>
      exact Or.inl (quiet_finalizeEpoch settled epochNumber)
  | getEpoch epochNumber =>
      exact Or.inl unchanged
  | register id type =>
      have stored : Quiet world (world.saveNode
          (Nodes.freshNode id type)) :=
        unchanged.same settled rfl rfl
      exact Or.inl (stored.append env (by decide) _)
  | capture processId eventType data other =>
      have appended := unchanged.append env other
        (StateRecording.buildPayload processId data none)
      exact Or.inl (appended.same appended.settled rfl rfl)
  | verify processId =>
      exact Or.inl (quiet_verify settled processId)

end Steps

/-! ## The activation -/

/-- What an activation in the world `before` has left in `world`. -/
structure Activated (env : Environment) (before : World)
    (threshold target processVolume24h : ℚ) (world : World) : Prop where
  inactive : before.isActive = false
  history : ∃ snapshot rest,
    world.history = before.history ++ snapshot :: rest ∧
    world.activations = [snapshot] ∧
    snapshot.payload = .releaseActivated (before.reserveIndex env)
      (before.velocity processVolume24h) threshold target
  row : ∃ row, world.phase = some row ∧ row.active = true ∧
    row.reserveIndexAtActivation = some (before.reserveIndex env) ∧
    row.velocityAtActivation = some (before.velocity processVolume24h)
  reserveIndex : threshold < before.reserveIndex env
  velocity : target < before.velocity processVolume24h
  supply : 0 ≤ target → 0 < before.supply

namespace Activated

variable {env : Environment} {before world after : World}
variable {threshold target processVolume24h : ℚ}

theorem isActive (activated : Activated env before threshold target
    processVolume24h world) : world.isActive = true := by
  rcases activated.row with ⟨row, stored, active, _⟩
  rw [World.isActive, stored]
  exact active

/-- Later steps keep it. -/
theorem quiet (activated : Activated env before threshold target
      processVolume24h world)
    (quiet : Quiet world after) :
    Activated env before threshold target processVolume24h after := by
  have samePhase := quiet.phase_of_active activated.isActive
  have sameActivations := quiet.activations
  rcases activated with
    ⟨inactive, ⟨snapshot, rest, history, once, payload⟩, row,
      reserveIndex, velocity, supply⟩
  rcases quiet.history with ⟨more, extended, _⟩
  refine ⟨inactive, ⟨snapshot, rest ++ more, ?_, ?_, payload⟩, ?_,
    reserveIndex, velocity, supply⟩
  · rw [extended, history, List.append_assoc, List.cons_append]
  · rw [sameActivations, once]
  · rw [samePhase]
    exact row

private theorem supply_pos (faster : target <
      before.velocity processVolume24h)
    (nonnegative : 0 ≤ target) : 0 < before.supply := by
  by_contra empty
  have still : before.velocity processVolume24h = 0 :=
    if_pos (not_lt.mp empty)
  rw [still] at faster
  exact absurd nonnegative (not_le.mpr faster)

private theorem history_read : (Release.phasedWorld
    (before.withLedger before.ledgerRow)).history = before.history := by
  unfold Release.phasedWorld
  split
  · rfl
  · rfl

/-- The activation itself. -/
theorem of_activates (inactive : before.isActive = false)
    (none : before.activations = [])
    (reserveIndex : threshold < before.reserveIndex env)
    (velocity : target < before.velocity processVolume24h) :
    Activated env before threshold target processVolume24h
      (Release.activatedWorld env before threshold target
        processVolume24h) := by
  have history : (Release.activatedWorld env before threshold target
        processVolume24h).history =
      before.history ++ [(Release.phasedWorld (before.withLedger
        before.ledgerRow)).tick.nextSnapshot env "release.activated"
          (.releaseActivated (before.reserveIndex env)
            (before.velocity processVolume24h) threshold target)] := by
    unfold Release.activatedWorld
    rw [World.history_savePhase, World.history_append,
      World.history_tick, history_read]
  refine ⟨inactive, ⟨_, [], history, ?_, rfl⟩, ⟨_, rfl, rfl, rfl, rfl⟩,
    reserveIndex, velocity, supply_pos velocity⟩
  rw [World.activations, history, List.filter_append]
  change before.activations ++ _ = _
  rw [none]
  rfl

end Activated

/-- The phase is inactive and nothing is recorded, or one of the operations
has activated it. -/
private theorem recorded (env : Environment)
    (operations : List EconomyOperation) :
    (economyAfter env operations).Settled ∧
      ((economyAfter env operations).isActive = false ∧
          (economyAfter env operations).activations = [] ∨
        ∃ earlier threshold target processVolume24h later,
          operations = earlier ++
            .activate threshold target processVolume24h :: later ∧
          Activated env (economyAfter env earlier) threshold target
            processVolume24h (economyAfter env operations)) := by
  induction operations using List.reverseRecOn with
  | nil =>
      exact ⟨World.settled_initial, Or.inl ⟨rfl, rfl⟩⟩
  | append_singleton operations operation inductionHypothesis =>
      rcases inductionHypothesis with ⟨settled, record⟩
      rw [economyAfter_append_singleton]
      rcases @EconomyOperation.quiet_or_activates env _ settled operation with
        quiet | ⟨threshold, target, processVolume24h, rfl, inactive,
          reserveIndex, velocity, performed⟩
      · refine ⟨quiet.settled, ?_⟩
        rcases record with ⟨inactive, none⟩ |
          ⟨earlier, threshold, target, processVolume24h, later, rfl,
            activated⟩
        · refine Or.inl ⟨?_, ?_⟩
          · rw [quiet.isActive, inactive]
          · rw [quiet.activations, none]
        · refine Or.inr ⟨earlier, threshold, target, processVolume24h,
            later ++ [operation], ?_, activated.quiet quiet⟩
          rw [List.append_assoc, List.cons_append]
      · rcases record with ⟨_, none⟩ | ⟨_, _, _, _, _, _, activated⟩
        · have activated := @Activated.of_activates env _ _ _ _ inactive
            none reserveIndex velocity
          rw [performed]
          exact ⟨Release.settled_activatedWorld settled,
            Or.inr ⟨operations, threshold, target, processVolume24h, [],
              rfl, activated⟩⟩
        · rw [activated.isActive] at inactive
          cases inactive

private theorem phase_stays (env : Environment)
    (operations later : List EconomyOperation)
    (active : (economyAfter env operations).isActive = true) :
    (economyAfter env (operations ++ later)).phase =
        (economyAfter env operations).phase ∧
      (economyAfter env (operations ++ later)).isActive = true := by
  induction later using List.reverseRecOn with
  | nil =>
      rw [List.append_nil]
      exact ⟨rfl, active⟩
  | append_singleton later operation inductionHypothesis =>
      rcases inductionHypothesis with ⟨same, still⟩
      have settled := (recorded env (operations ++ later)).1
      rw [← List.append_assoc, economyAfter_append_singleton]
      rcases @EconomyOperation.quiet_or_activates env _ settled operation with
        quiet | ⟨_, _, _, _, inactive, _⟩
      · rw [quiet.phase_of_active still, quiet.isActive]
        exact ⟨same, still⟩
      · rw [still] at inactive
        cases inactive

/-- The phase is active exactly when the chain holds one record of it, the
record and the row hold the metrics of the prefix and the ledger it was
activated on, and they stay as they are. -/
theorem release_recorded (env : Environment)
    (operations : List EconomyOperation) :
    ((economyAfter env operations).isActive = true ↔
      ∃ snapshot,
        (economyAfter env operations).activations = [snapshot]) ∧
    ((economyAfter env operations).isActive = false →
      (economyAfter env operations).activations = []) ∧
    ((economyAfter env operations).isActive = true →
      ∃ earlier threshold target processVolume24h later,
        operations = earlier ++
          .activate threshold target processVolume24h :: later ∧
        Activated env (economyAfter env earlier) threshold target
          processVolume24h (economyAfter env operations)) ∧
    ∀ later, (economyAfter env operations).isActive = true →
      (economyAfter env (operations ++ later)).phase =
        (economyAfter env operations).phase := by
  refine ⟨?_, ?_, ?_, fun later active =>
    (phase_stays env operations later active).1⟩
  · rcases (recorded env operations).2 with ⟨inactive, none⟩ |
      ⟨_, _, _, _, _, _, activated⟩
    · rw [inactive, none]
      constructor
      · intro contradiction
        cases contradiction
      · rintro ⟨_, contradiction⟩
        cases contradiction
    · rcases activated.history with ⟨snapshot, _, _, once, _⟩
      exact ⟨fun _ => ⟨snapshot, once⟩, fun _ => activated.isActive⟩
  · intro inactive
    rcases (recorded env operations).2 with ⟨_, none⟩ |
      ⟨_, _, _, _, _, _, activated⟩
    · exact none
    · rw [activated.isActive] at inactive
      cases inactive
  · intro active
    rcases (recorded env operations).2 with ⟨inactive, _⟩ | activation
    · rw [inactive] at active
      cases active
    · exact activation

/-- A run that activates, and then fails to activate again. -/
example : (economyAfter .plain [.recordEarned 1, .activate (-1) 1 5,
    .activate (-1) 1 5]).activations.length = 1 := by
  decide +kernel

end ArosParadigm
