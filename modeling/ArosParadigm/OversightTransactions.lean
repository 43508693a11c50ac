import ArosParadigm.AllSeeingEye
import ArosParadigm.Library.Interleaving
import ArosParadigm.Library.ReadCommitted
import ArosParadigm.Library.Rearrangement

/-!
# Concurrent observations

`AllSeeingEyeService.log` statement by statement: the transaction reads the
head, inserts an entry that names it, and commits. At READ COMMITTED two
transactions can read the same head, and then one of the two entries breaks
the chain. When no head is read during another transaction, the ledger stays
verifiable and holds every observation once.
-/

namespace ArosParadigm.OversightTransactions

open Await Keyed ReadCommitted

/-- The table `oversight_log_entries`, keyed by `id`. -/
abbrev OversightTable := Table OversightLogEntry.id

/-- `ORDER BY entry.id ASC` compares two entries. -/
abbrev Before (first second : OversightLogEntry) : Prop :=
  first.id ≤ second.id

/-- The entries in the order in which `getLog()` reads them. -/
def ordered (table : OversightTable) : List OversightLogEntry :=
  table.rows.insertionSort Before

/-- The head that `log` reads: descending order, first row. -/
def head? (table : OversightTable) : Option OversightLogEntry :=
  (ordered table).getLast?

/-- The database with the sequence behind the column `id`, and the clock of
the process. -/
structure State where
  database : Database OversightLogEntry.id
  sequence : ℕ
  /-- `ClockService.t`. -/
  clock : ℕ

/-- The calls of `log`; an insert gives the row for the assigned `id`. -/
inductive LogCall
  | readHead (owner : ℕ)
  | now
  | insert (owner : ℕ) (row : ℕ → OversightLogEntry)
  | commit (owner : ℕ)
  | rollback (owner : ℕ)

/-- The calls of `log` and their replies. -/
@[reducible]
def logSignature : Signature where
  Call := LogCall
  Reply
    | .readHead _ => Option OversightLogEntry
    | .now => ℕ
    | .insert .. => OversightLogEntry
    | .commit _ => Unit
    | .rollback _ => Unit

/-- One step of the store. The sequence goes on also when a transaction is
rolled back. -/
def logMachine : Machine logSignature State
  | .readHead owner, state =>
      some (head? (state.database.visible owner), state)
  | .now, state =>
      some (state.clock + 1, { state with clock := state.clock + 1 })
  | .insert owner row, state =>
      let entry := row (state.sequence + 1)
      some (entry, { state with
        database := state.database.write owner entry
        sequence := state.sequence + 1 })
  | .commit owner, state =>
      some ((), { state with database := state.database.commit owner })
  | .rollback owner, state =>
      some ((), { state with database := state.database.rollback owner })

abbrev Method := Program logSignature ServiceError

/-- Await a call of a transaction. -/
def query (request : LogCall) : Method (logSignature.Reply request) :=
  @Program.perform logSignature _ .storeRejected request

/-- The arguments of `log`. -/
structure Observation where
  eventType : String
  layer : String
  description : String
  deriving DecidableEq

def observationOf (entry : OversightLogEntry) : Observation :=
  ⟨entry.eventType, entry.layer, entry.description⟩

/-- `head ? head.hash : 'GENESIS'`. -/
def prevHashOf : Option OversightLogEntry → String
  | some head => head.hash
  | none => "GENESIS"

/-- The entry that `log` inserts. -/
def nextEntry (env : Environment) (observation : Observation)
    (prevHash : String) (timestamp id : ℕ) : OversightLogEntry where
  id := id
  eventType := observation.eventType
  layer := observation.layer
  description := observation.description
  hash := env.sha256 (observation.eventType ++ observation.layer ++
    observation.description ++ prevHash ++ toString timestamp)
  prevHash := prevHash
  timestamp := timestamp
  signature := ""

def logBody (env : Environment) (owner : ℕ) (observation : Observation) :
    Method OversightLogEntry := do
  let head ← query (.readHead owner)
  let timestamp ← query .now
  let entry ← query (.insert owner
    (nextEntry env observation (prevHashOf head) timestamp))
  query (.commit owner)
  return entry

/-- `log(eventType, layer, description)` as the transaction `owner`: a failed
body is rolled back. -/
def log (env : Environment) (owner : ℕ) (observation : Observation) :
    Method OversightLogEntry :=
  (logBody env owner observation).rescue fun reason => do
    query (.rollback owner)
    .fail reason

/-- Concurrent calls of `log`. -/
abbrev Logs :=
  Pool logSignature ServiceError OversightLogEntry State

/-- Calls that have not started, over the committed ledger. -/
def launch (env : Environment) (start : OversightTable)
    (sequence clock : ℕ) (observations : List Observation) : Logs :=
  Pool.fresh ⟨⟨start, []⟩, sequence, clock⟩
    (observations.mapIdx (log env))

def IsHeadRead : LogCall → Prop
  | .readHead _ => True
  | _ => False

instance : DecidablePred IsHeadRead := fun request => by
  cases request <;> unfold IsHeadRead <;> infer_instance

/-- The thread has read the head, and its transaction has not ended. -/
def Busy : Thread logSignature ServiceError OversightLogEntry → Prop
  | ⟨past, .call ..⟩ => ∃ exchange ∈ past, IsHeadRead exchange.request
  | _ => False

instance : DecidablePred Busy
  | ⟨past, .call ..⟩ => inferInstanceAs (Decidable
      (∃ exchange ∈ past, IsHeadRead exchange.request))
  | ⟨_, .done _⟩ => .isFalse id
  | ⟨_, .fail _⟩ => .isFalse id

def AwaitsHead :
    Option (Thread logSignature ServiceError OversightLogEntry) → Prop
  | some ⟨_, .call request _ _⟩ => IsHeadRead request
  | _ => False

instance : DecidablePred AwaitsHead
  | some ⟨_, .call request _ _⟩ =>
      inferInstanceAs (Decidable (IsHeadRead request))
  | some ⟨_, .done _⟩ => .isFalse id
  | some ⟨_, .fail _⟩ => .isFalse id
  | none => .isFalse id

/-- No head is read between the head read and the end of another
transaction. -/
def Exclusive (logs : Logs) : Move → Prop
  | .answer index =>
      AwaitsHead logs.threads[index]? →
        ∀ thread ∈ logs.threads, ¬ Busy thread
  | .reject _ => True

instance (logs : Logs) : DecidablePred (Exclusive logs)
  | .answer index => inferInstanceAs (Decidable
      (AwaitsHead logs.threads[index]? →
        ∀ thread ∈ logs.threads, ¬ Busy thread))
  | .reject _ => .isTrue trivial

def verifyLog (env : Environment) (logs : Logs) : ReconstructResult :=
  AllSeeingEye.verifiedLog env (ordered logs.state.database.committed)

/-- The ledger passes its audit, and once all calls have returned it holds
every observation once beside those it had. -/
structure Verifiable (env : Environment) (start : OversightTable)
    (observations : List Observation) (logs : Logs) : Prop where
  audited : verifyLog env logs = ⟨true, none⟩
  present : logs.Returned →
    ((ordered logs.state.database.committed).map observationOf).Perm
      ((ordered start).map observationOf ++ observations)

/-- The observation of a call that has returned. -/
def recordedBy
    (thread : Thread logSignature ServiceError OversightLogEntry) :
    Option Observation :=
  match thread.rest with
  | .done entry => some (observationOf entry)
  | _ => none

section Stages

variable (env : Environment) (owner : ℕ) (observation : Observation)

/-- The rollback of a failed transaction. -/
def rollingBack : Method OversightLogEntry :=
  .call (.rollback owner) (fun _ => .fail .storeRejected)
    (.fail .storeRejected)

/-- The commit of an entry. -/
def committing (entry : OversightLogEntry) : Method OversightLogEntry :=
  .call (.commit owner) (fun _ => .done entry) (rollingBack owner)

def inserting (prevHash : String) (timestamp : ℕ) :
    Method OversightLogEntry :=
  .call (.insert owner (nextEntry env observation prevHash timestamp))
    (committing owner) (rollingBack owner)

/-- A transaction after its head read. -/
def stamping (head : Option OversightLogEntry) :
    Method OversightLogEntry :=
  .call .now (inserting env owner observation (prevHashOf head))
    (rollingBack owner)

theorem log_eq :
    log env owner observation =
      .call (.readHead owner) (stamping env owner observation)
        (rollingBack owner) :=
  rfl

/-- A call outside of its transaction, or one that is rolled back. -/
inductive Resting (state : State) : Method OversightLogEntry → Prop
  | waiting (unwritten : state.database.own owner = []) :
      Resting state (log env owner observation)
  | returned (entry : OversightLogEntry)
      (same : observationOf entry = observation) :
      Resting state (.done entry)
  | aborting : Resting state (rollingBack owner)
  | failed (reason : ServiceError) : Resting state (.fail reason)

/-- A call between its head read and its commit. -/
inductive Writing (state : State) : Method OversightLogEntry → Prop
  | stamping (unwritten : state.database.own owner = []) :
      Writing state
        (stamping env owner observation (head? state.database.committed))
  | inserting (unwritten : state.database.own owner = [])
      (timestamp : ℕ) :
      Writing state (inserting env owner observation
        (prevHashOf (head? state.database.committed)) timestamp)
  | committing (timestamp id : ℕ)
      (written : state.database.own owner =
        [nextEntry env observation
          (prevHashOf (head? state.database.committed)) timestamp id])
      (above : ∀ row ∈ state.database.committed.rows, row.id < id)
      (issued : id ≤ state.sequence) :
      Writing state (committing owner (nextEntry env observation
        (prevHashOf (head? state.database.committed)) timestamp id))

end Stages

section Steps

variable {env : Environment} {owner : ℕ} {observation : Observation}
variable {now after : State} {rest rejected : Method OversightLogEntry}
variable {request : LogCall}
variable {next : logSignature.Reply request → Method OversightLogEntry}
variable {reply : logSignature.Reply request}

/-- What a transaction leaves to the others. -/
structure Spares (owner : ℕ) (before after : State) : Prop where
  committed : after.database.committed = before.database.committed
  own : ∀ other, other ≠ owner →
    after.database.own other = before.database.own other
  sequence : before.sequence ≤ after.sequence

theorem Resting.later
    (resting : Resting env owner observation now rest)
    (own : after.database.own owner = now.database.own owner) :
    Resting env owner observation after rest := by
  cases resting with
  | waiting unwritten =>
      exact .waiting (own.trans unwritten)
  | returned entry same =>
      exact .returned entry same
  | aborting =>
      exact .aborting
  | failed reason =>
      exact .failed reason

/-- A transaction does not depend on the others while they commit
nothing. -/
theorem Writing.later {other : ℕ}
    (writing : Writing env owner observation now rest)
    (spares : Spares other now after) (different : owner ≠ other) :
    Writing env owner observation after rest := by
  obtain ⟨committed, own, sequence⟩ := spares
  have sameOwn := own owner different
  cases writing with
  | stamping unwritten =>
      rw [← committed]
      exact .stamping (sameOwn.trans unwritten)
  | inserting unwritten timestamp =>
      rw [← committed]
      exact .inserting (sameOwn.trans unwritten) timestamp
  | committing timestamp id written above issued =>
      rw [← committed] at written above ⊢
      exact .committing timestamp id (sameOwn.trans written) above
        (issued.trans sequence)

theorem Writing.exists_call
    (writing : Writing env owner observation now rest) :
    ∃ request next rejected, rest = .call request next rejected := by
  cases writing with
  | stamping =>
      exact ⟨_, _, _, rfl⟩
  | inserting =>
      exact ⟨_, _, _, rfl⟩
  | committing =>
      exact ⟨_, _, _, rfl⟩

theorem Resting.step
    (resting : Resting env owner observation now
      (.call request next rejected))
    (answered : logMachine request now = some (reply, after)) :
    Spares owner now after ∧
      (IsHeadRead request ∧
          Writing env owner observation after (next reply) ∨
        next reply = .fail .storeRejected) := by
  generalize isRest : Program.call request next rejected = rest at resting
  cases resting with
  | waiting unwritten =>
      rw [log_eq] at isRest
      cases isRest
      cases answered
      have visible : now.database.visible owner =
          now.database.committed := by
        rw [Database.visible, unwritten]
        rfl
      refine ⟨⟨rfl, fun _ _ => rfl, le_refl _⟩, Or.inl ⟨trivial, ?_⟩⟩
      rw [visible]
      exact .stamping unwritten
  | returned =>
      cases isRest
  | aborting =>
      cases isRest
      cases answered
      refine ⟨⟨rfl, ?_, le_refl _⟩, Or.inr rfl⟩
      exact fun other different => Database.own_rollback_of_ne different
  | failed =>
      cases isRest

theorem Writing.step
    (writing : Writing env owner observation now
      (.call request next rejected))
    (below : ∀ row ∈ now.database.committed.rows,
      row.id ≤ now.sequence)
    (answered : logMachine request now = some (reply, after)) :
    Spares owner now after ∧
        Writing env owner observation after (next reply) ∨
      (∀ other, other ≠ owner →
          after.database.own other = now.database.own other) ∧
        after.sequence = now.sequence ∧
        ∃ timestamp id,
          (∀ row ∈ now.database.committed.rows, row.id < id) ∧
          id ≤ now.sequence ∧
          after.database.committed =
            now.database.committed.save (nextEntry env observation
              (prevHashOf (head? now.database.committed)) timestamp
              id) ∧
          next reply = .done (nextEntry env observation
            (prevHashOf (head? now.database.committed)) timestamp
            id) := by
  generalize isRest : Program.call request next rejected = rest at writing
  cases writing with
  | stamping unwritten =>
      cases isRest
      cases answered
      refine Or.inl ⟨⟨rfl, fun _ _ => rfl, le_refl _⟩, ?_⟩
      apply Writing.inserting
      exact unwritten
  | inserting unwritten timestamp =>
      cases isRest
      cases answered
      refine Or.inl ⟨⟨rfl, ?_, Nat.le_succ _⟩, ?_⟩
      · exact fun other different => Database.own_write_of_ne different
      · refine .committing timestamp (now.sequence + 1) ?_ ?_ (le_refl _)
        · rw [Database.own_write_self, unwritten]
          rfl
        · intro row member
          have bound := below row member
          omega
  | committing timestamp id written above issued =>
      cases isRest
      cases answered
      refine Or.inr ⟨?_, rfl, timestamp, id, above, issued, ?_, rfl⟩
      · exact fun other different => Database.own_commit_of_ne different
      · rw [Database.commit_committed, Database.visible, written]
        rfl

theorem resting_of_rejected {past : List (Exchange logSignature)}
    (stage : Resting env owner observation now
        (.call request next rejected) ∨
      Writing env owner observation now (.call request next rejected)) :
    Resting env owner observation now rejected ∧
      recordedBy ⟨past, rejected⟩ = none := by
  generalize isRest : Program.call request next rejected = rest at stage
  rcases stage with resting | writing
  · cases resting with
    | waiting =>
        rw [log_eq] at isRest
        cases isRest
        exact ⟨.aborting, rfl⟩
    | returned =>
        cases isRest
    | aborting =>
        cases isRest
        exact ⟨.failed _, rfl⟩
    | failed =>
        cases isRest
  · cases writing <;> cases isRest <;> exact ⟨.aborting, rfl⟩

end Steps

section Ledger

variable {env : Environment} {table : OversightTable}

abbrev Linked (env : Environment) (table : OversightTable) : Prop :=
  HashChain.Linked (AllSeeingEye.reading env) "GENESIS" (ordered table)

theorem verifiedLog_eq_iff (entries : List OversightLogEntry) :
    AllSeeingEye.verifiedLog env entries = ⟨true, none⟩ ↔
      HashChain.Linked (AllSeeingEye.reading env) "GENESIS"
        entries := by
  rw [← HashChain.firstBroken_eq_none_iff]
  unfold AllSeeingEye.verifiedLog
  cases HashChain.firstBroken (AllSeeingEye.reading env) "GENESIS"
      entries with
  | none =>
      simp
  | some broken =>
      simp

/-- An entry with a larger `id` comes last. -/
theorem ordered_save {entry : OversightLogEntry}
    (above : ∀ row ∈ table.rows, row.id < entry.id) :
    ordered (table.save entry) = ordered table ++ [entry] := by
  unfold ordered
  rw [Table.rows_save_of_fresh,
    Rearrangement.insertionSort_append_last]
  · intro row member
    exact Nat.le_of_lt (above row member)
  · intro row member
    exact Nat.ne_of_lt (above row member)

theorem prevHashOf_head? (env : Environment) (table : OversightTable) :
    prevHashOf (head? table) =
      HashChain.tip (AllSeeingEye.reading env) "GENESIS"
        (ordered table) := by
  unfold HashChain.tip head?
  cases (ordered table).getLast? <;> rfl

theorem linked_save (linked : Linked env table)
    (observation : Observation) (timestamp : ℕ) {id : ℕ}
    (above : ∀ row ∈ table.rows, row.id < id) :
    Linked env (table.save (nextEntry env observation
      (prevHashOf (head? table)) timestamp id)) := by
  unfold Linked
  rw [ordered_save above]
  apply linked.append_singleton
  · exact prevHashOf_head? env table
  · rw [← prevHashOf_head? env table]
    rfl

end Ledger

/-! ## The course of the calls -/

/-- The ledger is linked and holds what has been observed, and at most one
call is in its transaction. -/
structure Course (env : Environment) (start : OversightTable)
    (observations : List Observation) (logs : Logs) : Prop where
  linked : Linked env logs.state.database.committed
  below : ∀ row ∈ logs.state.database.committed.rows,
    row.id ≤ logs.state.sequence
  recorded :
    ((ordered logs.state.database.committed).map observationOf).Perm
      ((ordered start).map observationOf ++
        logs.threads.filterMap recordedBy)
  length : logs.threads.length = observations.length
  stages : ∃ worker, ∀ (index : ℕ)
    (thread : Thread logSignature ServiceError OversightLogEntry)
    (observation : Observation), logs.threads[index]? = some thread →
      observations[index]? = some observation →
        Resting env index observation logs.state thread.rest ∨
          index = worker ∧ Busy thread ∧
            Writing env index observation logs.state thread.rest

section Course

variable {env : Environment} {start : OversightTable}
variable {observations : List Observation} {logs next : Logs}

theorem course_launch {sequence : ℕ} (clock : ℕ)
    (linked : Linked env start)
    (below : ∀ row ∈ start.rows, row.id ≤ sequence) :
    Course env start observations
      (launch env start sequence clock observations) := by
  have unrecorded : (launch env start sequence clock
      observations).threads.filterMap recordedBy = [] := by
    apply List.filterMap_eq_nil_iff.mpr
    intro thread member
    obtain ⟨program, present, rfl⟩ := List.mem_map.mp member
    obtain ⟨index, bound, rfl⟩ := List.mem_mapIdx.mp present
    rfl
  refine ⟨linked, below, ?_, ?_, 0, ?_⟩
  · rw [unrecorded, List.append_nil]
    exact List.Perm.refl _
  · simp [launch, Pool.fresh]
  · intro index thread observation found isObservation
    simp only [launch, Pool.fresh, List.getElem?_map,
      List.getElem?_mapIdx, isObservation] at found
    cases found
    exact Or.inl (.waiting rfl)

section Moves

variable {index : ℕ} {past : List (Exchange logSignature)}
variable {request : LogCall}
variable {nextOf : logSignature.Reply request → Method OversightLogEntry}
variable {rejected : Method OversightLogEntry}
variable {reply : logSignature.Reply request} {after : State}

private theorem recorded_set
    (found : logs.threads[index]? =
      some ⟨past, .call request nextOf rejected⟩)
    (moved : Thread logSignature ServiceError OversightLogEntry) :
    ((logs.threads.set index moved).filterMap recordedBy).Perm
      (logs.threads.filterMap recordedBy ++
        (recordedBy moved).toList) := by
  have replaced :=
    Rearrangement.filterMap_set_perm recordedBy found moved
  simpa [recordedBy] using replaced

private theorem Course.set
    (course : Course env start observations logs)
    (found : logs.threads[index]? =
      some ⟨past, .call request nextOf rejected⟩)
    (spares : Spares index logs.state after)
    {moved : Thread logSignature ServiceError OversightLogEntry}
    (unrecorded : recordedBy moved = none)
    (stages : ∃ worker, ∀ (other : ℕ)
      (thread : Thread logSignature ServiceError OversightLogEntry)
      (observation : Observation),
      (logs.threads.set index moved)[other]? = some thread →
        observations[other]? = some observation →
          Resting env other observation after thread.rest ∨
            other = worker ∧ Busy thread ∧
              Writing env other observation after thread.rest) :
    Course env start observations
      ⟨after, logs.threads.set index moved⟩ := by
  obtain ⟨linked, below, recorded, length, _⟩ := course
  have grown := recorded_set found moved
  rw [unrecorded, Option.toList_none, List.append_nil] at grown
  refine ⟨?_, ?_, ?_, ?_, stages⟩
  · rw [spares.committed]
    exact linked
  · rw [spares.committed]
    exact fun row member => (below row member).trans spares.sequence
  · rw [spares.committed]
    exact recorded.trans (grown.symm.append_left _)
  · rw [List.length_set]
    exact length

/-- The stages after a step of one call, from its own stage and those of the
others. -/
private theorem stages_set {worker : ℕ}
    {moved : Thread logSignature ServiceError OversightLogEntry}
    (own : ∀ observation, observations[index]? = some observation →
      Resting env index observation after moved.rest ∨
        index = worker ∧ Busy moved ∧
          Writing env index observation after moved.rest)
    (others : ∀ (other : ℕ)
      (thread : Thread logSignature ServiceError OversightLogEntry)
      (observation : Observation), other ≠ index →
      logs.threads[other]? = some thread →
        observations[other]? = some observation →
          Resting env other observation after thread.rest ∨
            other = worker ∧ Busy thread ∧
              Writing env other observation after thread.rest) :
    ∃ worker, ∀ (other : ℕ)
      (thread : Thread logSignature ServiceError OversightLogEntry)
      (observation : Observation),
      (logs.threads.set index moved)[other]? = some thread →
        observations[other]? = some observation →
          Resting env other observation after thread.rest ∨
            other = worker ∧ Busy thread ∧
              Writing env other observation after thread.rest := by
  refine ⟨worker, ?_⟩
  intro other thread tested present isTested
  rcases Pool.getElem?_set_cases present with
    ⟨rfl, rfl⟩ | ⟨different, old⟩
  · exact own tested isTested
  · exact others other thread tested different old isTested

private theorem Course.commit
    (course : Course env start observations logs)
    {observation : Observation}
    (isObservation : observations[index]? = some observation)
    (found : logs.threads[index]? =
      some ⟨past, .call request nextOf rejected⟩)
    (others : ∀ (other : ℕ)
      (thread : Thread logSignature ServiceError OversightLogEntry)
      (tested : Observation), other ≠ index →
      logs.threads[other]? = some thread →
        observations[other]? = some tested →
          Resting env other tested logs.state thread.rest)
    (own : ∀ other, other ≠ index →
      after.database.own other = logs.state.database.own other)
    (sequence : after.sequence = logs.state.sequence)
    {timestamp id : ℕ}
    (above : ∀ row ∈ logs.state.database.committed.rows, row.id < id)
    (issued : id ≤ logs.state.sequence)
    (committed : after.database.committed =
      logs.state.database.committed.save (nextEntry env observation
        (prevHashOf (head? logs.state.database.committed)) timestamp id))
    (isDone : nextOf reply = .done (nextEntry env observation
      (prevHashOf (head? logs.state.database.committed)) timestamp
      id)) :
    Course env start observations
      ⟨after, logs.threads.set index
        ⟨⟨request, reply⟩ :: past, nextOf reply⟩⟩ := by
  have isRecorded : recordedBy
      ⟨⟨request, reply⟩ :: past, nextOf reply⟩ = some observation := by
    rw [isDone]
    rfl
  have grown := recorded_set found
    ⟨⟨request, reply⟩ :: past, nextOf reply⟩
  rw [isRecorded] at grown
  constructor
  · rw [committed]
    exact linked_save course.linked observation timestamp above
  · rw [committed]
    intro row stored
    rcases Table.mem_rows_save stored with rfl | ⟨old, _⟩
    · exact sequence ▸ issued
    · exact sequence ▸ course.below row old
  · rw [committed, ordered_save above, List.map_append]
    have added := course.recorded.append_right [observation]
    rw [List.append_assoc] at added
    exact added.trans (grown.symm.append_left _)
  · rw [List.length_set]
    exact course.length
  · apply @stages_set env observations logs index after index
    · intro tested isTested
      cases isObservation.symm.trans isTested
      rw [isDone]
      exact Or.inl (.returned _ rfl)
    · intro other thread tested different old isTested
      have rests := others other thread tested different old isTested
      exact Or.inl (rests.later (own other different))

private theorem Course.answer
    (course : Course env start observations logs)
    (alone : Exclusive logs (.answer index))
    (found : logs.threads[index]? =
      some ⟨past, .call request nextOf rejected⟩)
    (answered : logMachine request logs.state = some (reply, after)) :
    Course env start observations
      ⟨after, logs.threads.set index
        ⟨⟨request, reply⟩ :: past, nextOf reply⟩⟩ := by
  obtain ⟨bound, _⟩ := List.getElem?_eq_some_iff.mp found
  obtain ⟨worker, stages⟩ := course.stages
  have inside : index < observations.length := course.length ▸ bound
  obtain ⟨observation, isObservation⟩ :
      ∃ observation, observations[index]? = some observation :=
    ⟨_, List.getElem?_eq_getElem inside⟩
  rcases stages index _ _ found isObservation with
    resting | ⟨isWorker, ⟨exchange, member, isHead⟩, writing⟩
  · obtain ⟨spares, ⟨isHead, writing⟩ | failed⟩ := resting.step answered
    · -- The call reads the head, and no other one is in its transaction.
      obtain ⟨later, nextLater, rejectedLater, isCall⟩ :=
        writing.exists_call
      have awaits : AwaitsHead logs.threads[index]? := by
        rw [found]
        exact isHead
      have unrecorded : recordedBy
          ⟨⟨request, reply⟩ :: past, nextOf reply⟩ = none := by
        rw [isCall]
        rfl
      apply course.set found spares unrecorded
      apply @stages_set env observations logs index after index
      · intro tested isTested
        cases isObservation.symm.trans isTested
        refine Or.inr ⟨rfl, ?_, writing⟩
        rw [isCall]
        exact ⟨_, List.mem_cons_self, isHead⟩
      · intro other thread tested different old isTested
        rcases stages other thread tested old isTested with
          rests | ⟨_, busy, _⟩
        · exact Or.inl (rests.later (spares.own other different))
        · exact absurd busy
            (alone awaits thread (List.mem_of_getElem? old))
    · have unrecorded : recordedBy
          ⟨⟨request, reply⟩ :: past, nextOf reply⟩ = none := by
        rw [failed]
        rfl
      apply course.set found spares unrecorded
      apply @stages_set env observations logs index after worker
      · intro tested isTested
        rw [failed]
        exact Or.inl (.failed _)
      · intro other thread tested different old isTested
        rcases stages other thread tested old isTested with
          rests | ⟨same, busy, writes⟩
        · exact Or.inl (rests.later (spares.own other different))
        · exact Or.inr ⟨same, busy, writes.later spares different⟩
  · subst isWorker
    have others : ∀ (other : ℕ)
        (thread : Thread logSignature ServiceError OversightLogEntry)
        (tested : Observation), other ≠ index →
        logs.threads[other]? = some thread →
          observations[other]? = some tested →
            Resting env other tested logs.state thread.rest := by
      intro other thread tested different old isTested
      rcases stages other thread tested old isTested with
        rests | ⟨same, _⟩
      · exact rests
      · exact absurd same different
    rcases writing.step course.below answered with
      ⟨spares, stays⟩ |
      ⟨own, sequence, timestamp, id, above, issued, committed, isDone⟩
    · obtain ⟨later, nextLater, rejectedLater, isCall⟩ :=
        stays.exists_call
      have unrecorded : recordedBy
          ⟨⟨request, reply⟩ :: past, nextOf reply⟩ = none := by
        rw [isCall]
        rfl
      apply course.set found spares unrecorded
      apply @stages_set env observations logs index after index
      · intro tested isTested
        cases isObservation.symm.trans isTested
        refine Or.inr ⟨rfl, ?_, stays⟩
        rw [isCall]
        exact ⟨exchange, List.mem_cons_of_mem _ member, isHead⟩
      · intro other thread tested different old isTested
        have rests := others other thread tested different old isTested
        exact Or.inl (rests.later (spares.own other different))
    · exact course.commit isObservation found others own sequence above
        issued committed isDone

private theorem Course.reject
    (course : Course env start observations logs)
    (found : logs.threads[index]? =
      some ⟨past, .call request nextOf rejected⟩) :
    Course env start observations
      ⟨logs.state, logs.threads.set index ⟨past, rejected⟩⟩ := by
  obtain ⟨bound, _⟩ := List.getElem?_eq_some_iff.mp found
  obtain ⟨worker, stages⟩ := course.stages
  have inside : index < observations.length := course.length ▸ bound
  obtain ⟨observation, isObservation⟩ :
      ∃ observation, observations[index]? = some observation :=
    ⟨_, List.getElem?_eq_getElem inside⟩
  have stage := stages index _ _ found isObservation
  obtain ⟨resting, unrecorded⟩ : Resting env index observation logs.state
      rejected ∧ recordedBy ⟨past, rejected⟩ = none := by
    rcases stage with resting | ⟨_, _, writing⟩
    · exact resting_of_rejected (Or.inl resting)
    · exact resting_of_rejected (Or.inr writing)
  have spares : Spares index logs.state logs.state :=
    ⟨rfl, fun _ _ => rfl, le_refl _⟩
  apply course.set found spares unrecorded
  apply @stages_set env observations logs index logs.state worker
  · intro tested isTested
    cases isObservation.symm.trans isTested
    exact Or.inl resting
  · exact fun other thread tested _ => stages other thread tested

end Moves

/-- The step lemma: a move with exclusive head reads keeps the course. -/
theorem Course.move {move : Move}
    (course : Course env start observations logs)
    (alone : Exclusive logs move)
    (moved : logs.move logMachine move = some next) :
    Course env start observations next := by
  cases move with
  | answer index =>
      obtain ⟨past, request, nextOf, rejected, reply, after, found,
        answered, rfl⟩ := Pool.exists_of_move_answer moved
      exact course.answer alone found answered
  | reject index =>
      obtain ⟨past, request, nextOf, rejected, found, rfl⟩ :=
        Pool.exists_of_move_reject moved
      exact course.reject found

private theorem Course.recorded_of_returned
    (course : Course env start observations logs)
    (returned : logs.Returned) :
    logs.threads.filterMap recordedBy = observations := by
  obtain ⟨worker, stages⟩ := course.stages
  have each : logs.threads.map recordedBy = observations.map some := by
    apply List.ext_getElem
    · simpa using course.length
    intro index bound inside
    rw [List.length_map] at bound inside
    have found : logs.threads[index]? = some logs.threads[index] :=
      List.getElem?_eq_getElem bound
    have isObservation : observations[index]? =
        some observations[index] :=
      List.getElem?_eq_getElem inside
    obtain ⟨entry, isDone⟩ :=
      returned _ (List.mem_of_getElem? found)
    rw [List.getElem_map, List.getElem_map, recordedBy, isDone]
    rcases stages index _ _ found isObservation with
      resting | ⟨_, _, writing⟩
    · rw [isDone] at resting
      cases resting with
      | returned _ same =>
          exact congrArg some same
    · obtain ⟨_, _, _, isCall⟩ := writing.exists_call
      cases isDone.symm.trans isCall
  have selected := congrArg (List.filterMap id) each
  simpa [List.filterMap_map] using selected

end Course

/-- Concurrent observations keep the ledger verifiable, and record every
observation once, in the schedules in which no head is read during another
transaction. -/
theorem ledger_verifiable {env : Environment} {start : OversightTable}
    {sequence clock : ℕ} {observations : List Observation} {logs : Logs}
    (audited : AllSeeingEye.verifiedLog env (ordered start) =
      ⟨true, none⟩)
    (below : ∀ row ∈ start.rows, row.id ≤ sequence)
    (reached : Reaches logMachine Exclusive
      (launch env start sequence clock observations) logs) :
    Verifiable env start observations logs := by
  have linked := (verifiedLog_eq_iff _).mp audited
  have course : Course env start observations logs := by
    induction reached with
    | refl =>
        exact course_launch clock linked below
    | tail move _ alone moved inductionHypothesis =>
        exact inductionHypothesis.move alone moved
  refine ⟨(verifiedLog_eq_iff _).mpr course.linked, ?_⟩
  intro returned
  have recorded := course.recorded
  rw [course.recorded_of_returned returned] at recorded
  exact recorded

def twoObservations : List Observation :=
  [⟨"heartbeat", "supervisory", "first"⟩,
    ⟨"heartbeat", "supervisory", "second"⟩]

/-- One call after the other. -/
def orderedLogs : Logs :=
  (launch .plain .empty 0 0 twoObservations).play logMachine Exclusive
    ([0, 0, 0, 0, 1, 1, 1, 1].map .answer)

theorem verifiable_orderedLogs :
    orderedLogs.Returned ∧
      Verifiable .plain .empty twoObservations orderedLogs := by
  have below : ∀ row ∈ (Table.empty : OversightTable).rows,
      row.id ≤ 0 :=
    List.forall_mem_nil _
  exact ⟨by decide +kernel,
    ledger_verifiable (by decide +kernel) below (reaches_play _ .refl)⟩

/-- Both calls read the head of the empty ledger. -/
def racingLogs : Logs :=
  (launch .plain .empty 0 0 twoObservations).play logMachine
    (fun _ _ => True) ([0, 1, 0, 1, 0, 1, 0, 1].map .answer)

/-- Both calls return, and the second entry breaks the chain. -/
theorem racing_logs_break_ledger :
    Reaches logMachine (fun _ _ => True)
        (launch .plain .empty 0 0 twoObservations) racingLogs ∧
      racingLogs.Returned ∧
      verifyLog .plain racingLogs = ⟨false, some 2⟩ := by
  refine ⟨reaches_play _ .refl, ?_⟩
  decide +kernel

end ArosParadigm.OversightTransactions
