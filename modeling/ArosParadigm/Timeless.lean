import ArosParadigm.Library.Relational
import ArosParadigm.Release
import ArosParadigm.ArosCoin

/-!
# Records without their times

The clock is shared by everything that runs, so whoever runs in between moves
the times that others record. Two worlds have the same records when nothing
but such times, the oversight ledger, and default rows that a read creates
keeps them apart. No call of a service can tell such worlds from each other,
except by asking for the time.
-/

namespace ArosParadigm

open Await

/-- The snapshot but for its `timestamp`. -/
def ExecutionSnapshot.timeless {Payload Text : Type}
    (snapshot : ExecutionSnapshot Payload Text) :
    ExecutionSnapshot Payload Text :=
  { snapshot with timestamp := 0 }

/-- The row but for its `timestamp`. -/
def PotVerdict.timeless (row : PotVerdict) : PotVerdict :=
  { row with timestamp := 0 }

/-- The row but for its `startTime` and `endTime`. -/
def Epoch.timeless (row : Epoch) : Epoch :=
  { row with startTime := 0, endTime := 0 }

/-- The row but for the value of `activatedAt`. -/
def ReleasePhase.timeless (row : ReleasePhase) : ReleasePhase :=
  { row with activatedAt := row.activatedAt.map fun _ => 0 }

/-- Optional rows with the same view are both missing or both there. -/
theorem cases_of_map_eq {Row View : Type} {see : Row → View}
    {left right : Option Row} (same : left.map see = right.map see) :
    left = none ∧ right = none ∨
      ∃ row other, left = some row ∧ right = some other ∧
        see row = see other := by
  cases left with
  | none =>
      exact Or.inl ⟨rfl, Option.map_eq_none_iff.mp same.symm⟩
  | some row =>
      rcases Option.map_eq_some_iff.mp same.symm with
        ⟨other, there, equal⟩
      exact Or.inr ⟨row, other, rfl, there, equal.symm⟩

namespace World

/-- The records agree but for their times, and a missing default row counts
as the row. -/
structure SameRecords (left right : World) : Prop where
  settledLeft : left.Settled
  settledRight : right.Settled
  history : left.history.map ExecutionSnapshot.timeless =
    right.history.map ExecutionSnapshot.timeless
  verdicts : left.verdicts.rows.map PotVerdict.timeless =
    right.verdicts.rows.map PotVerdict.timeless
  ledger : left.ledgerRow = right.ledgerRow
  epochs : left.epochs.rows.map Epoch.timeless =
    right.epochs.rows.map Epoch.timeless
  nodes : left.nodes = right.nodes
  phase : (left.phase.getD .inactive).timeless =
    (right.phase.getD .inactive).timeless
  captured : left.captured = right.captured
  participation : left.participation = right.participation
  arrays : left.arrays = right.arrays

namespace SameRecords

variable {env : Environment} {left right : World}

theorem refl {world : World} (settled : world.Settled) :
    world.SameRecords world where
  settledLeft := settled
  settledRight := settled
  history := rfl
  verdicts := rfl
  ledger := rfl
  epochs := rfl
  nodes := rfl
  phase := rfl
  captured := rfl
  participation := rfl
  arrays := rfl

theorem symm (same : left.SameRecords right) :
    right.SameRecords left where
  settledLeft := same.settledRight
  settledRight := same.settledLeft
  history := same.history.symm
  verdicts := same.verdicts.symm
  ledger := same.ledger.symm
  epochs := same.epochs.symm
  nodes := same.nodes.symm
  phase := same.phase.symm
  captured := same.captured.symm
  participation := same.participation.symm
  arrays := same.arrays.symm

theorem find?_verdicts (same : left.SameRecords right)
    (processId : String) :
    (left.verdicts.find? processId).map PotVerdict.timeless =
      (right.verdicts.find? processId).map PotVerdict.timeless := by
  have shown : ∀ row : PotVerdict,
      row.timeless.processId = row.processId := fun _ => rfl
  rw [Keyed.Table.map_find? shown, Keyed.Table.map_find? shown,
    same.verdicts]

theorem find?_epochs (same : left.SameRecords right)
    (epochNumber : ℚ) :
    (left.epochs.find? epochNumber).map Epoch.timeless =
      (right.epochs.find? epochNumber).map Epoch.timeless := by
  have shown : ∀ row : Epoch,
      row.timeless.epochNumber = row.epochNumber := fun _ => rfl
  rw [Keyed.Table.map_find? shown, Keyed.Table.map_find? shown,
    same.epochs]

theorem entries (same : left.SameRecords right) (reference : ℕ) :
    left.entries reference = right.entries reference := by
  unfold World.entries
  rw [same.arrays]

/-- The next snapshot takes its place and its link from the last one, and
its hash from these and the payload. -/
theorem nextSnapshot (same : left.SameRecords right) (eventType : String)
    (payload : Payload) :
    (left.nextSnapshot env eventType payload).timeless =
      (right.nextSnapshot env eventType payload).timeless := by
  have heads : (NodeChain.head? left.snapshots).map
        ExecutionSnapshot.timeless =
      (NodeChain.head? right.snapshots).map
        ExecutionSnapshot.timeless := by
    have last := congrArg List.getLast? same.history
    unfold World.history at last
    rw [List.getLast?_map, List.getLast?_map, NodeChain.getLast?_list,
      NodeChain.getLast?_list, Option.map_map, Option.map_map] at last
    exact last
  unfold World.nextSnapshot NodeChain.nextRow
  rcases cases_of_map_eq heads with ⟨first, second⟩ |
    ⟨head, other, first, second, equal⟩
  · rw [first, second]
    rfl
  · have sequenceId : head.sequenceId = other.sequenceId :=
      congrArg (fun row => row.sequenceId) equal
    have hash : head.hash = other.hash :=
      congrArg (fun row => row.hash) equal
    rw [first, second]
    simp only [ExecutionSnapshot.timeless, sequenceId, hash]

theorem append (same : left.SameRecords right) (eventType : String)
    (payload : Payload) :
    (left.append env eventType payload).SameRecords
      (right.append env eventType payload) :=
  { same with
    history := by
      rw [history_append, history_append, List.map_append,
        List.map_append, same.history, List.map_singleton,
        List.map_singleton, same.nextSnapshot] }

theorem saveVerdict (same : left.SameRecords right) {row other : PotVerdict}
    (rows : row.timeless = other.timeless) :
    (left.saveVerdict row).SameRecords (right.saveVerdict other) :=
  { same with
    verdicts := by
      have shown : ∀ row : PotVerdict,
          row.timeless.processId = row.processId := fun _ => rfl
      rw [saveVerdict_verdicts, saveVerdict_verdicts,
        Keyed.Table.map_rows_save shown, Keyed.Table.map_rows_save shown,
        rows, same.verdicts] }

theorem saveEpoch (same : left.SameRecords right) {row other : Epoch}
    (rows : row.timeless = other.timeless) :
    (left.saveEpoch row).SameRecords (right.saveEpoch other) :=
  { same with
    epochs := by
      have shown : ∀ row : Epoch,
          row.timeless.epochNumber = row.epochNumber := fun _ => rfl
      rw [saveEpoch_epochs, saveEpoch_epochs,
        Keyed.Table.map_rows_save shown, Keyed.Table.map_rows_save shown,
        rows, same.epochs] }

theorem saveNode (same : left.SameRecords right) (row : NodeEntity) :
    (left.saveNode row).SameRecords (right.saveNode row) :=
  { same with nodes := congrArg (fun nodes => nodes.save row) same.nodes }

theorem savePhase (same : left.SameRecords right)
    {row other : ReleasePhase} (rows : row.timeless = other.timeless) :
    (left.savePhase row).SameRecords (right.savePhase other) :=
  { same with phase := rows }

theorem withLedger (same : left.SameRecords right)
    (row : ArosCoinLedger) :
    (left.withLedger row).SameRecords (right.withLedger row) :=
  { same with
    settledLeft := settled_withLedger _ _
    settledRight := settled_withLedger _ _
    ledger := rfl }

theorem saveLedger (same : left.SameRecords right)
    (row : ArosCoinLedger) :
    (left.saveLedger row).SameRecords (right.saveLedger row) :=
  { same with
    settledLeft := same.settledLeft.imp_right fun made => ⟨made.1, nofun⟩
    settledRight := same.settledRight.imp_right fun made =>
      ⟨made.1, nofun⟩
    ledger := rfl }

theorem mark (same : left.SameRecords right)
    (processId eventType : String) :
    (left.mark processId eventType).SameRecords
      (right.mark processId eventType) :=
  { same with
    captured := by
      unfold World.mark
      rw [same.captured] }

theorem push (same : left.SameRecords right) (epochNumber : ℚ)
    (entries : List Participation) :
    (left.push epochNumber entries).SameRecords
      (right.push epochNumber entries) :=
  { same with
    participation := by
      unfold World.push
      rw [same.participation, same.arrays]
    arrays := by
      rw [push_arrays, push_arrays, same.participation, same.arrays] }

theorem forget (same : left.SameRecords right) (epochNumber : ℚ) :
    (left.forget epochNumber).SameRecords (right.forget epochNumber) :=
  { same with
    participation := by
      unfold World.forget
      rw [same.participation] }

theorem log (same : left.SameRecords right)
    (eventType layer description : String) :
    (left.log env eventType layer description).SameRecords
      (right.log env eventType layer description) :=
  { same with }

theorem log_left (same : left.SameRecords right)
    (eventType layer description : String) :
    (left.log env eventType layer description).SameRecords right :=
  { same with }

theorem withLedger_left (same : left.SameRecords right) :
    (left.withLedger left.ledgerRow).SameRecords right :=
  { same with
    settledLeft := settled_withLedger _ _
    ledger := same.ledger }

theorem phasedWorld_left (same : left.SameRecords right) :
    (Release.phasedWorld left).SameRecords right := by
  unfold Release.phasedWorld
  cases stored : left.phase with
  | some row =>
      exact same
  | none =>
      have missing : (left.phase.getD .inactive).timeless =
          ReleasePhase.inactive.timeless := by
        rw [stored]
        rfl
      exact { same with phase := missing.symm.trans same.phase }

end SameRecords

end World

/-! ## Calls -/

/-- The methods end alike in worlds with the same records. -/
abbrev TimelessAlike (env : Environment) {first second : Type}
    (related : first → second → Prop) (left : Service first)
    (right : Service second) : Prop :=
  Alike (machine env) World.SameRecords related left right

section Calls

variable (env : Environment)

theorem alike_append (eventType : String) (payload : Payload) :
    TimelessAlike env
      (fun snapshot other => snapshot.timeless = other.timeless)
      (ask (.append eventType payload))
      (ask (.append eventType payload)) :=
  fun _ _ same =>
    ⟨same.nextSnapshot eventType payload, same.append eventType payload⟩

theorem alike_listSnapshots :
    TimelessAlike env
      (fun history other => history.map ExecutionSnapshot.timeless =
        other.map ExecutionSnapshot.timeless)
      (ask .listSnapshots) (ask .listSnapshots) :=
  fun _ _ same => ⟨same.history, same⟩

theorem alike_findVerdict (processId : String) :
    TimelessAlike env
      (fun row other => row.map PotVerdict.timeless =
        other.map PotVerdict.timeless)
      (ask (.findVerdict processId)) (ask (.findVerdict processId)) :=
  fun _ _ same => ⟨same.find?_verdicts processId, same⟩

theorem alike_saveVerdict {row other : PotVerdict}
    (rows : row.timeless = other.timeless) :
    TimelessAlike env Eq (ask (.saveVerdict row))
      (ask (.saveVerdict other)) :=
  fun _ _ same => ⟨rfl, same.saveVerdict rows⟩

theorem alike_listVerdicts :
    TimelessAlike env
      (fun rows others => rows.map PotVerdict.timeless =
        others.map PotVerdict.timeless)
      (ask .listVerdicts) (ask .listVerdicts) :=
  fun _ _ same => ⟨same.verdicts, same⟩

theorem alike_saveLedger (row : ArosCoinLedger) :
    TimelessAlike env Eq (ask (.saveLedger row))
      (ask (.saveLedger row)) :=
  fun _ _ same => ⟨rfl, same.saveLedger row⟩

theorem alike_findEpoch (epochNumber : ℚ) :
    TimelessAlike env
      (fun row other => row.map Epoch.timeless =
        other.map Epoch.timeless)
      (ask (.findEpoch epochNumber)) (ask (.findEpoch epochNumber)) :=
  fun _ _ same => ⟨same.find?_epochs epochNumber, same⟩

theorem alike_saveEpoch {row other : Epoch}
    (rows : row.timeless = other.timeless) :
    TimelessAlike env Eq (ask (.saveEpoch row))
      (ask (.saveEpoch other)) :=
  fun _ _ same => ⟨rfl, same.saveEpoch rows⟩

theorem alike_listEpochs :
    TimelessAlike env
      (fun rows others => rows.map Epoch.timeless =
        others.map Epoch.timeless)
      (ask .listEpochs) (ask .listEpochs) :=
  fun _ _ same => ⟨same.epochs, same⟩

theorem alike_findNode (id : String) :
    TimelessAlike env Eq (ask (.findNode id))
      (ask (.findNode id)) := by
  intro left right same
  rw [run_findNode, run_findNode, same.nodes]
  exact ⟨rfl, same⟩

theorem alike_saveNode (row : NodeEntity) :
    TimelessAlike env Eq (ask (.saveNode row)) (ask (.saveNode row)) :=
  fun _ _ same => ⟨rfl, same.saveNode row⟩

theorem alike_listNodes :
    TimelessAlike env Eq (ask .listNodes) (ask .listNodes) :=
  fun _ _ same => ⟨congrArg Keyed.Table.rows same.nodes, same⟩

theorem alike_savePhase {row other : ReleasePhase}
    (rows : row.timeless = other.timeless) :
    TimelessAlike env Eq (ask (.savePhase row))
      (ask (.savePhase other)) :=
  fun _ _ same => ⟨rfl, same.savePhase rows⟩

/-- Nothing is known about the times of two clocks. -/
theorem alike_tick :
    TimelessAlike env (fun _ _ => True) (ask .tick) (ask .tick) :=
  fun _ _ same => ⟨trivial, { same with }⟩

theorem alike_markCaptured (processId eventType : String) :
    TimelessAlike env Eq (ask (.markCaptured processId eventType))
      (ask (.markCaptured processId eventType)) :=
  fun _ _ same => ⟨rfl, same.mark processId eventType⟩

theorem alike_readCaptured (processId : String) :
    TimelessAlike env Eq (ask (.readCaptured processId))
      (ask (.readCaptured processId)) :=
  fun _ _ same => ⟨congrFun same.captured processId, same⟩

theorem alike_pushParticipation (epochNumber : ℚ)
    (entries : List Participation) :
    TimelessAlike env Eq (ask (.pushParticipation epochNumber entries))
      (ask (.pushParticipation epochNumber entries)) :=
  fun _ _ same => ⟨rfl, same.push epochNumber entries⟩

theorem alike_readParticipation (epochNumber : ℚ) :
    TimelessAlike env Eq (ask (.readParticipation epochNumber))
      (ask (.readParticipation epochNumber)) := by
  intro left right same
  have remembered : (left.participation epochNumber).map
        (fun reference => (reference, (left.entries reference).length)) =
      (right.participation epochNumber).map
        fun reference => (reference, (right.entries reference).length) := by
    simp only [same.participation, same.entries]
  exact ⟨remembered, same⟩

theorem alike_readParticipationAt (reference index : ℕ) :
    TimelessAlike env Eq (ask (.readParticipationAt reference index))
      (ask (.readParticipationAt reference index)) :=
  fun _ _ same =>
    ⟨congrArg (fun entries => entries[index]?) (same.entries reference),
      same⟩

theorem alike_deleteParticipation (epochNumber : ℚ) :
    TimelessAlike env Eq (ask (.deleteParticipation epochNumber))
      (ask (.deleteParticipation epochNumber)) :=
  fun _ _ same => ⟨rfl, same.forget epochNumber⟩

/-- The row is the same whether the read creates it or finds it. -/
theorem alike_ledger :
    TimelessAlike env Eq ArosCoin.ledger ArosCoin.ledger := by
  intro left right same
  rw [ArosCoin.run_ledger same.settledLeft,
    ArosCoin.run_ledger same.settledRight, same.ledger]
  exact ⟨rfl, same.withLedger _⟩

/-- The phase is the same whether the read creates its row or finds it. -/
theorem alike_phase :
    TimelessAlike env (fun row other => row.timeless = other.timeless)
      Release.phase Release.phase := by
  intro left right same
  rw [Release.run_phase, Release.run_phase]
  exact ⟨same.phase, same.phasedWorld_left.symm.phasedWorld_left.symm⟩

end Calls

end ArosParadigm
