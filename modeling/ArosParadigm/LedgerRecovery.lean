import ArosParadigm.ArosCoin
import ArosParadigm.Library.Interleaving
import ArosParadigm.StoreFaults

/-!
# The ledger row under failures of the store

Operations of `ArosCoinService` run concurrently on one row that the first of
them creates. The promise of that creation is kept for good, also when it was
rejected. When no call of the creation fails, an operation fails only at a
call of its own, the row is created at most once, and an operation that fails
has left the tallies as they were.
-/

namespace ArosParadigm.LedgerRecovery

open Await ArosCoin

inductive Operation where
  | recordMint (amount : ℚ)
  | recordBurn (amount : ℚ)
  | recordEarned (amount : ℚ)
  | totalSupply
  | retained
  | supplyView

/-- What an operation returns. -/
inductive Answer where
  | recorded
  | figure (value : ℚ)
  | view (value : SupplyView)

def Operation.program : Operation → Service Answer
  | .recordMint amount => do
      ArosCoin.recordMint amount
      return .recorded
  | .recordBurn amount => do
      ArosCoin.recordBurn amount
      return .recorded
  | .recordEarned amount => do
      ArosCoin.recordEarned amount
      return .recorded
  | .totalSupply => do
      let value ← ArosCoin.totalSupply
      return .figure value
  | .retained => do
      let value ← ArosCoin.retained
      return .figure value
  | .supplyView => do
      let value ← ArosCoin.supplyView
      return .view value

abbrev Operations := Pool signature ServiceError Answer World

/-- The operations before their first steps. -/
def launch (start : World) (operations : List Operation) : Operations :=
  Pool.fresh start (operations.map Operation.program)

/-- The call made the promise of the creation. -/
def hasClaimed : Exchange signature → Bool
  | ⟨.claimInitialization, claimed⟩ => claimed
  | _ => false

/-- The call has found no row. -/
def hasMissed : Exchange signature → Bool
  | ⟨.findLedger, found⟩ => found.isNone
  | _ => false

def hasSaved : Exchange signature → Bool
  | ⟨.saveLedger _, _⟩ => true
  | _ => false

def inCreation : List (Exchange signature) → Bool
  | [claim] => hasClaimed claim
  | [missing, claim] => hasMissed missing && hasClaimed claim
  | _ => false

/-- How often the row was saved where none had been found. -/
def creations : List (Exchange signature) → ℕ
  | save :: found :: past =>
      (if hasSaved save && hasMissed found then 1 else 0) +
        creations (found :: past)
  | _ => 0

def StoreFails (pool : Operations) : Move → Prop
  | .answer _ => True
  | .reject index =>
      ∀ past request next rejected,
        pool.threads[index]? = some ⟨past, .call request next rejected⟩ →
          request.Persists

/-- A call on the store may fail, but not in the creation of the row. -/
def SparesCreation (pool : Operations) : Move → Prop
  | .answer _ => True
  | .reject index =>
      ∀ past request next rejected,
        pool.threads[index]? = some ⟨past, .call request next rejected⟩ →
          request.Persists ∧ inCreation past = false

/-- After the moves, an operation without a rejected call has not failed and
returns in the end, the row has been created at most once, and the tallies
change with the last call of an operation that returns. -/
structure Recovers (env : Environment) (moves : List Move)
    (pool : Operations) : Prop where
  unfailed : ∀ index thread, pool.threads[index]? = some thread →
    .reject index ∉ moves → ∀ reason, thread.rest ≠ .fail reason
  returned : (∀ index, pool.move (machine env) (.answer index) = none) →
    ∀ index thread, pool.threads[index]? = some thread →
      .reject index ∉ moves → ∃ value, thread.rest = .done value
  created : (pool.threads.map fun thread => creations thread.past).sum ≤ 1
  tallies : ∀ index next,
    pool.move (machine env) (.answer index) = some next →
      next.state.ledgerRow ≠ pool.state.ledgerRow →
        ∃ past value, next.threads[index]? = some ⟨past, .done value⟩

def saving (row : ArosCoinLedger) : Service Answer :=
  .call (.saveLedger row) (fun _ => .done .recorded) (.fail .storeRejected)

/-- The rest of an operation that has read the row. -/
def finishing (row : ArosCoinLedger) : Operation → Service Answer
  | .recordMint amount =>
      saving { row with processMinted := row.processMinted + amount }
  | .recordBurn amount =>
      saving { row with processBurned := row.processBurned + amount }
  | .recordEarned amount =>
      saving { row with earnedRetained := row.earnedRetained + amount }
  | .totalSupply =>
      .done (.figure
        ((row.processMinted - row.processBurned) + row.earnedRetained))
  | .retained => .done (.figure row.earnedRetained)
  | .supplyView =>
      .done (.view
        ⟨(row.processMinted - row.processBurned) + row.earnedRetained,
          row.earnedRetained⟩)

/-- The rest of an operation whose promise is fulfilled. -/
def reading (operation : Operation) : Service Answer :=
  .call .findLedger
    (fun
      | some row => finishing row operation
      | none => .fail .entityNotFound)
    (.fail .storeRejected)

/-- The rest of an operation that awaits the promise. -/
def waiting (operation : Operation) : Service Answer :=
  .call .awaitInitialization
    (fun
      | .fulfilled => reading operation
      | _ => .fail .storeRejected)
    (.fail .storeRejected)

/-- The rest of an operation whose creation has failed. -/
def refusing (operation : Operation) : Service Answer :=
  .call (.settleInitialization .rejected) (fun _ => waiting operation)
    (.fail .storeRejected)

/-- The rest of an operation whose creation is done. -/
def settling (operation : Operation) : Service Answer :=
  .call (.settleInitialization .fulfilled) (fun _ => waiting operation)
    (refusing operation)

def creating (operation : Operation) : Service Answer :=
  .call (.saveLedger .zero) (fun _ => settling operation)
    (refusing operation)

/-- The rest of the operation that made the promise. -/
def looking (operation : Operation) : Service Answer :=
  .call .findLedger
    (fun existing =>
      if existing.isNone then creating operation else settling operation)
    (refusing operation)

theorem program_eq (operation : Operation) :
    operation.program =
      .call .claimInitialization
        (fun claimed =>
          if claimed then looking operation else waiting operation)
        (.fail .storeRejected) := by
  have found : ledger = ensureLedger >>= fun _ =>
      ask .findLedger >>= fun stored =>
        stored.elim (.fail .entityNotFound) Program.done := by
    rw [ledger]
    congr 1
    funext _
    change Program.call _ _ _ = Program.call _ _ _
    congr 1
    funext stored
    cases stored <;> rfl
  have reads : ((ask .findLedger >>= fun stored =>
      stored.elim (.fail .entityNotFound) Program.done) >>= fun row =>
        finishing row operation) = reading operation := by
    change Program.call _ _ _ = Program.call _ _ _
    congr 1
    funext stored
    cases stored <;> rfl
  have waits : (promiseKept >>= fun _ => reading operation) =
      waiting operation := by
    change Program.call _ _ _ = Program.call _ _ _
    congr 1
    funext promise
    cases promise <;> rfl
  have finishes : operation.program =
      ledger >>= fun row => finishing row operation := by
    cases operation <;> exact bind_assoc _ _ _
  have whole : (ledger >>= fun row => finishing row operation) =
      ensureLedger >>= fun _ => reading operation := by
    rw [found, bind_assoc, reads]
  rw [finishes, whole, ensureLedger_eq, bind_assoc]
  change Program.call _ _ _ = Program.call _ _ _
  congr 1
  funext claimed
  cases claimed with
  | false =>
      exact waits
  | true =>
      change ((createLedger.rescue _ >>= fun _ => promiseKept) >>= _) =
        looking operation
      rw [bind_assoc, waits]
      change Program.call _ _ _ = Program.call _ _ _
      congr 1
      funext existing
      cases existing <;> rfl

/-! ## Where the operations stand -/

/-- A thread that runs an operation. -/
abbrev Running := Thread signature ServiceError Answer

/-- An operation that has left the row alone so far. -/
inductive Aside (operation : Operation) : Running → Prop
  | starting : Aside operation ⟨[], operation.program⟩
  | waiting :
      Aside operation
        ⟨[⟨.claimInitialization, false⟩], waiting operation⟩

inductive Creating (world : World) (operation : Operation) :
    Running → Prop
  | looking :
      Creating world operation
        ⟨[⟨.claimInitialization, true⟩], looking operation⟩
  | creating (missing : world.ledger = none) :
      Creating world operation
        ⟨[⟨.findLedger, none⟩, ⟨.claimInitialization, true⟩],
          creating operation⟩
  | settling {past : List (Exchange signature)}
      (present : world.ledger ≠ none) (once : creations past ≤ 1) :
      Creating world operation ⟨past, settling operation⟩

/-- An operation once the row is there; it has failed at a call of its own
only. -/
inductive Served (operation : Operation) (rejected : Prop) :
    Running → Prop
  | starting : Served operation rejected ⟨[], operation.program⟩
  | waiting (past : List (Exchange signature)) :
      Served operation rejected ⟨past, waiting operation⟩
  | reading (past : List (Exchange signature)) :
      Served operation rejected ⟨past, reading operation⟩
  | saving {past : List (Exchange signature)} (found row : ArosCoinLedger) :
      Served operation rejected
        ⟨⟨.findLedger, some found⟩ :: past, saving row⟩
  | returned (past : List (Exchange signature)) (value : Answer) :
      Served operation rejected ⟨past, .done value⟩
  | failed (past : List (Exchange signature)) (reason : ServiceError)
      (own : rejected) :
      Served operation rejected ⟨past, .fail reason⟩

/-- How far the creation of the row has come. -/
inductive Phase (moves : List Move) (creator : ℕ) (pool : Operations) :
    Prop
  | unclaimed (unclaimed : pool.state.initialization = none)
      (each : ∀ (index : ℕ) (thread : Running),
        pool.threads[index]? = some thread →
          ∃ operation : Operation, thread = ⟨[], operation.program⟩)
  | pending (isPending : pool.state.initialization = some .pending)
      (creates : ∃ operation thread,
        pool.threads[creator]? = some thread ∧
          Creating pool.state operation thread)
      (aside : ∀ index thread, index ≠ creator →
        pool.threads[index]? = some thread →
          ∃ operation, Aside operation thread)
  | served (fulfilled : pool.state.initialization = some .fulfilled)
      (present : pool.state.ledger ≠ none)
      (each : ∀ index thread, pool.threads[index]? = some thread →
        ∃ operation, Served operation (.reject index ∈ moves) thread)
      (once : ∀ index thread, pool.threads[index]? = some thread →
        creations thread.past ≤ if index = creator then 1 else 0)

theorem Aside.served {operation : Operation} {rejected : Prop}
    {thread : Running} (aside : Aside operation thread) :
    Served operation rejected thread := by
  cases aside with
  | starting =>
      exact .starting
  | waiting =>
      exact .waiting _

theorem Aside.creations_eq_zero {operation : Operation}
    {thread : Running} (aside : Aside operation thread) :
    creations thread.past = 0 := by
  cases aside <;> rfl

theorem Creating.creations_le_one {world : World} {operation : Operation}
    {thread : Running} (creating : Creating world operation thread) :
    creations thread.past ≤ 1 := by
  cases creating with
  | looking =>
      exact Nat.zero_le 1
  | creating =>
      exact Nat.zero_le 1
  | settling _ once =>
      exact once

theorem Served.weaken {operation : Operation} {rejected later : Prop}
    {thread : Running} (implies : rejected → later)
    (served : Served operation rejected thread) :
    Served operation later thread := by
  cases served with
  | starting =>
      exact .starting
  | waiting past =>
      exact .waiting past
  | reading past =>
      exact .reading past
  | saving found row =>
      exact .saving found row
  | returned past value =>
      exact .returned past value
  | failed past reason own =>
      exact .failed past reason (implies own)

theorem creations_cons {exchange : Exchange signature}
    (unsaved : hasSaved exchange = false)
    (past : List (Exchange signature)) :
    creations (exchange :: past) = creations past := by
  cases past with
  | nil =>
      rfl
  | cons found earlier =>
      simp [creations, unsaved]

theorem creations_cons_found (exchange : Exchange signature)
    (found : ArosCoinLedger) (past : List (Exchange signature)) :
    creations (exchange :: ⟨.findLedger, some found⟩ :: past) =
      creations (⟨.findLedger, some found⟩ :: past) := by
  simp [creations, hasMissed]

section Steps

variable {env : Environment} {moves : List Move} {creator index : ℕ}
variable {pool : Operations} {past : List (Exchange signature)}
variable {request : Call} {nextOf : request.Reply → Service Answer}
variable {rejected : Service Answer} {reply : request.Reply}
variable {after : World}

private theorem Served.answer {operation : Operation} {own : Prop}
    (served : Served operation own ⟨past, .call request nextOf rejected⟩)
    (fulfilled : pool.state.initialization = some .fulfilled)
    (present : pool.state.ledger ≠ none)
    (answered : machine env request pool.state = some (reply, after)) :
    after.initialization = some .fulfilled ∧ after.ledger ≠ none ∧
      Served operation own ⟨⟨request, reply⟩ :: past, nextOf reply⟩ ∧
      creations (⟨request, reply⟩ :: past) = creations past ∧
      (after.ledgerRow = pool.state.ledgerRow ∨
        ∃ value, nextOf reply = .done value) := by
  generalize same :
    (⟨past, .call request nextOf rejected⟩ : Running) = thread at served
  cases served with
  | starting =>
      rw [program_eq] at same
      cases same
      simp only [machine, fulfilled] at answered
      cases answered
      exact ⟨fulfilled, present, .waiting _, creations_cons rfl _,
        Or.inl rfl⟩
  | waiting past =>
      cases same
      simp only [machine, fulfilled] at answered
      cases answered
      exact ⟨fulfilled, present, .reading _, creations_cons rfl _,
        Or.inl rfl⟩
  | reading past =>
      cases same
      cases stored : pool.state.ledger with
      | none =>
          exact absurd stored present
      | some row =>
          simp only [machine, stored] at answered
          cases answered
          refine ⟨fulfilled, present, ?_, creations_cons rfl _,
            Or.inl rfl⟩
          cases operation with
          | recordMint amount =>
              exact .saving row _
          | recordBurn amount =>
              exact .saving row _
          | recordEarned amount =>
              exact .saving row _
          | totalSupply =>
              exact .returned _ _
          | retained =>
              exact .returned _ _
          | supplyView =>
              exact .returned _ _
  | saving found row =>
      cases same
      cases answered
      exact ⟨fulfilled, by simp, .returned _ _,
        creations_cons_found _ _ _, Or.inr ⟨_, rfl⟩⟩
  | returned past value =>
      cases same
  | failed past reason isOwn =>
      cases same

private theorem Aside.answer {operation : Operation}
    (aside : Aside operation ⟨past, .call request nextOf rejected⟩)
    (isPending : pool.state.initialization = some .pending)
    (answered : machine env request pool.state = some (reply, after)) :
    after = pool.state ∧
      Aside operation ⟨⟨request, reply⟩ :: past, nextOf reply⟩ := by
  generalize same :
    (⟨past, .call request nextOf rejected⟩ : Running) = thread at aside
  cases aside with
  | starting =>
      rw [program_eq] at same
      cases same
      simp only [machine, isPending] at answered
      cases answered
      exact ⟨rfl, .waiting⟩
  | waiting =>
      cases same
      simp only [machine, isPending] at answered
      cases answered

/-- A step of the operation that creates the row keeps it creating, or
fulfills the promise. -/
private theorem Creating.answer {operation : Operation}
    (creating : Creating pool.state operation
      ⟨past, .call request nextOf rejected⟩)
    (isPending : pool.state.initialization = some .pending)
    (answered : machine env request pool.state = some (reply, after)) :
    after.ledgerRow = pool.state.ledgerRow ∧
      (after.initialization = some .pending ∧
          Creating after operation
            ⟨⟨request, reply⟩ :: past, nextOf reply⟩ ∨
        after.initialization = some .fulfilled ∧ after.ledger ≠ none ∧
          nextOf reply = waiting operation ∧
          creations (⟨request, reply⟩ :: past) ≤ 1) := by
  generalize same :
    (⟨past, .call request nextOf rejected⟩ : Running) = thread at creating
  cases creating with
  | looking =>
      cases same
      cases stored : pool.state.ledger with
      | none =>
          simp only [machine, stored] at answered
          cases answered
          exact ⟨rfl, Or.inl ⟨isPending, .creating stored⟩⟩
      | some row =>
          have present : pool.state.ledger ≠ none := by
            rw [stored]
            exact Option.some_ne_none row
          simp only [machine, stored] at answered
          cases answered
          exact ⟨rfl, Or.inl ⟨isPending,
            .settling present (Nat.zero_le 1)⟩⟩
  | creating missing =>
      cases same
      cases answered
      refine ⟨?_, Or.inl ⟨isPending, .settling (by simp) le_rfl⟩⟩
      unfold World.ledgerRow
      rw [missing]
      rfl
  | settling present once =>
      cases same
      cases answered
      exact ⟨rfl, Or.inr ⟨rfl, present, rfl,
        (creations_cons rfl _).trans_le once⟩⟩

private theorem Phase.answer (phase : Phase moves creator pool)
    (found : pool.threads[index]? =
      some ⟨past, .call request nextOf rejected⟩)
    (answered : machine env request pool.state = some (reply, after)) :
    (∃ creator, Phase (moves ++ [.answer index]) creator
      ⟨after, pool.threads.set index
        ⟨⟨request, reply⟩ :: past, nextOf reply⟩⟩) ∧
      (after.ledgerRow = pool.state.ledgerRow ∨
        ∃ value, nextOf reply = .done value) := by
  obtain ⟨bound, _⟩ := List.getElem?_eq_some_iff.mp found
  have kept : ∀ other, Move.reject other ∈ moves →
      Move.reject other ∈ moves ++ [.answer index] :=
    fun other member => List.mem_append_left _ member
  cases phase with
  | unclaimed unclaimed each =>
      obtain ⟨operation, same⟩ := each index _ found
      rw [program_eq] at same
      cases same
      simp only [machine, unclaimed] at answered
      cases answered
      refine ⟨⟨index, .pending rfl
        ⟨operation, _, List.getElem?_set_self bound, .looking⟩ ?_⟩,
        Or.inl rfl⟩
      apply Pool.forall_set_self
      intro other thread _ present
      obtain ⟨another, rfl⟩ := each other thread present
      exact ⟨another, .starting⟩
  | pending isPending creates aside =>
      by_cases isCreator : index = creator
      · subst isCreator
        obtain ⟨operation, thread, isThread, creating⟩ := creates
        cases found.symm.trans isThread
        obtain ⟨sameRow, ⟨stillPending, onward⟩ |
          ⟨fulfilled, present, isWaiting, once⟩⟩ :=
            creating.answer isPending answered
        · exact ⟨⟨index, .pending stillPending
            ⟨operation, _, List.getElem?_set_self bound, onward⟩
            (Pool.forall_set_self aside)⟩, Or.inl sameRow⟩
        · refine ⟨⟨index, .served fulfilled present ?_ ?_⟩,
            Or.inl sameRow⟩
          · apply Pool.forall_set
            · intro other thread different earlier
              obtain ⟨another, stays⟩ :=
                aside other thread different earlier
              exact ⟨another, stays.served⟩
            · rw [isWaiting]
              exact ⟨operation, .waiting _⟩
          · apply Pool.forall_set
            · intro other thread different earlier
              obtain ⟨another, stays⟩ :=
                aside other thread different earlier
              rw [stays.creations_eq_zero]
              exact Nat.zero_le _
            · rw [if_pos rfl]
              exact once
      · obtain ⟨operation, stays⟩ := aside index _ isCreator found
        obtain ⟨rfl, onward⟩ := stays.answer isPending answered
        obtain ⟨creatorOf, thread, isThread, creating⟩ := creates
        have stillThere : (pool.threads.set index
            ⟨⟨request, reply⟩ :: past, nextOf reply⟩)[creator]? =
              some thread :=
          (List.getElem?_set_ne isCreator).trans isThread
        exact ⟨⟨creator, .pending isPending
          ⟨creatorOf, thread, stillThere, creating⟩
          (Pool.forall_set_other aside ⟨operation, onward⟩)⟩, Or.inl rfl⟩
  | served fulfilled present each once =>
      obtain ⟨operation, isServed⟩ := each index _ found
      obtain ⟨stillFulfilled, stillPresent, onward, sameCreations, row⟩ :=
        isServed.answer fulfilled present answered
      refine ⟨⟨creator, .served stillFulfilled stillPresent ?_ ?_⟩, row⟩
      · apply Pool.forall_set
        · intro other thread _ earlier
          obtain ⟨another, stays⟩ := each other thread earlier
          exact ⟨another, stays.weaken (kept other)⟩
        · exact ⟨operation, onward.weaken (kept index)⟩
      · apply Pool.forall_set
        · intro other thread _ earlier
          exact once other thread earlier
        · exact sameCreations.trans_le (once index _ found)

private theorem Served.reject {operation : Operation} {own : Prop}
    (served : Served operation own ⟨past, .call request nextOf rejected⟩)
    (persists : request.Persists) :
    rejected = .fail .storeRejected := by
  generalize same :
    (⟨past, .call request nextOf rejected⟩ : Running) = thread at served
  cases served with
  | starting =>
      rw [program_eq] at same
      cases same
      exact persists.elim
  | waiting past =>
      cases same
      exact persists.elim
  | reading past =>
      cases same
      rfl
  | saving found row =>
      cases same
      rfl
  | returned past value =>
      cases same
  | failed past reason isOwn =>
      cases same

private theorem Creating.unrejected {operation : Operation}
    (creating : Creating pool.state operation
      ⟨past, .call request nextOf rejected⟩)
    (persists : request.Persists) : inCreation past = true := by
  generalize same :
    (⟨past, .call request nextOf rejected⟩ : Running) = thread at creating
  cases creating with
  | looking =>
      cases same
      rfl
  | creating missing =>
      cases same
      rfl
  | settling present once =>
      cases same
      exact persists.elim

private theorem Phase.reject (phase : Phase moves creator pool)
    (spares : SparesCreation pool (.reject index))
    (found : pool.threads[index]? =
      some ⟨past, .call request nextOf rejected⟩) :
    Phase (moves ++ [.reject index]) creator
      ⟨pool.state, pool.threads.set index ⟨past, rejected⟩⟩ := by
  obtain ⟨persists, outside⟩ := spares _ _ _ _ found
  cases phase with
  | unclaimed unclaimed each =>
      obtain ⟨operation, same⟩ := each index _ found
      rw [program_eq] at same
      cases same
      exact persists.elim
  | pending isPending creates aside =>
      by_cases isCreator : index = creator
      · subst isCreator
        obtain ⟨operation, thread, isThread, creating⟩ := creates
        cases found.symm.trans isThread
        rw [creating.unrejected persists] at outside
        cases outside
      · obtain ⟨operation, stays⟩ := aside index _ isCreator found
        generalize same : (⟨past, .call request nextOf rejected⟩ :
          Running) = thread at stays
        cases stays with
        | starting =>
            rw [program_eq] at same
            cases same
            exact persists.elim
        | waiting =>
            cases same
            exact persists.elim
  | served fulfilled present each once =>
      obtain ⟨operation, isServed⟩ := each index _ found
      have failed := isServed.reject persists
      refine .served fulfilled present ?_ ?_
      · apply Pool.forall_set
        · intro other thread _ earlier
          obtain ⟨another, stays⟩ := each other thread earlier
          exact ⟨another, stays.weaken
            fun member => List.mem_append_left _ member⟩
        · rw [failed]
          exact ⟨operation, .failed _ _
            (List.mem_append_right _ List.mem_cons_self)⟩
      · apply Pool.forall_set
        · intro other thread _ earlier
          exact once other thread earlier
        · have same := once index _ found
          exact same

end Steps

section Runs

variable {env : Environment} {start : World} {operations : List Operation}
variable {moves : List Move} {pool : Operations}

theorem phase_launch (unclaimed : start.initialization = none) :
    Phase [] 0 (launch start operations) := by
  refine .unclaimed unclaimed ?_
  apply Pool.forall_fresh
  intro program member
  obtain ⟨operation, _, rfl⟩ := List.mem_map.mp member
  exact ⟨operation, rfl⟩

theorem phase_of_follows (unclaimed : start.initialization = none)
    (followed : Follows (machine env) SparesCreation
      (launch start operations) moves pool) :
    ∃ creator, Phase moves creator pool := by
  induction followed with
  | refl =>
      exact ⟨0, phase_launch unclaimed⟩
  | tail move _ allowed moved inductionHypothesis =>
      obtain ⟨creator, phase⟩ := inductionHypothesis
      cases move with
      | answer index =>
          obtain ⟨past, request, nextOf, rejected, reply, after, found,
            answered, rfl⟩ := Pool.exists_of_move_answer moved
          exact (phase.answer found answered).1
      | reject index =>
          obtain ⟨past, request, nextOf, rejected, found, rfl⟩ :=
            Pool.exists_of_move_reject moved
          exact ⟨creator, phase.reject allowed found⟩

private theorem sum_le_one (counts : List ℕ) (creator : ℕ)
    (bound : ∀ index count, counts[index]? = some count →
      count ≤ if index = creator then 1 else 0) : counts.sum ≤ 1 := by
  induction counts generalizing creator with
  | nil =>
      exact Nat.zero_le 1
  | cons count rest inductionHypothesis =>
      have first := bound 0 count rfl
      rw [List.sum_cons]
      cases creator with
      | zero =>
          have nothing : rest.sum = 0 := by
            apply List.sum_eq_zero
            intro later member
            obtain ⟨index, found⟩ := List.mem_iff_getElem?.mp member
            have none := bound (index + 1) later found
            simpa using none
          simp only [if_true] at first
          omega
      | succ creator =>
          have rest := inductionHypothesis creator (by
            intro index later found
            have one := bound (index + 1) later found
            simpa using one)
          simp at first
          omega

theorem Phase.creations_le {creator : ℕ} (phase : Phase moves creator pool) :
    (pool.threads.map fun thread => creations thread.past).sum ≤ 1 := by
  apply sum_le_one _ creator
  intro index count found
  rw [List.getElem?_map, Option.map_eq_some_iff] at found
  obtain ⟨thread, isThread, rfl⟩ := found
  cases phase with
  | unclaimed unclaimed each =>
      obtain ⟨operation, rfl⟩ := each index thread isThread
      exact Nat.zero_le _
  | pending isPending creates aside =>
      by_cases isCreator : index = creator
      · subst isCreator
        obtain ⟨operation, creating, isCreating, place⟩ := creates
        cases isThread.symm.trans isCreating
        rw [if_pos rfl]
        exact place.creations_le_one
      · obtain ⟨operation, stays⟩ := aside index thread isCreator isThread
        rw [stays.creations_eq_zero]
        exact Nat.zero_le _
  | served fulfilled present each once =>
      exact once index thread isThread

private theorem move_answer {index : ℕ}
    {past : List (Exchange signature)} {request : Call}
    {nextOf : request.Reply → Service Answer} {rejected : Service Answer}
    {reply : request.Reply} {after : World}
    (found : pool.threads[index]? =
      some ⟨past, .call request nextOf rejected⟩)
    (answered : machine env request pool.state = some (reply, after)) :
    pool.move (machine env) (.answer index) ≠ none := by
  simp only [Pool.move, found, answered]
  exact Option.some_ne_none _

/-- Once no call can be answered, the row is there and every operation has
returned, or failed at a call of its own. -/
theorem Phase.ended {creator : ℕ} (phase : Phase moves creator pool)
    (quiet : ∀ index, pool.move (machine env) (.answer index) = none)
    {index : ℕ} {thread : Running}
    (found : pool.threads[index]? = some thread) :
    (∃ value, thread.rest = .done value) ∨ .reject index ∈ moves := by
  cases phase with
  | unclaimed unclaimed each =>
      obtain ⟨operation, rfl⟩ := each index thread found
      rw [program_eq] at found
      have answered : machine env .claimInitialization pool.state =
          some (true, pool.state.withInitialization .pending) := by
        simp only [machine, unclaimed]
      exact absurd (quiet index) (move_answer found answered)
  | pending isPending creates aside =>
      obtain ⟨operation, creating, isCreating, place⟩ := creates
      cases place with
      | looking =>
          exact absurd (quiet creator) (@move_answer env _ _ _ .findLedger
            _ _ _ _ isCreating rfl)
      | creating missing =>
          exact absurd (quiet creator) (@move_answer env _ _ _
            (.saveLedger .zero) _ _ _ _ isCreating rfl)
      | settling present once =>
          exact absurd (quiet creator) (@move_answer env _ _ _
            (.settleInitialization .fulfilled) _ _ _ _ isCreating rfl)
  | served fulfilled present each once =>
      obtain ⟨operation, place⟩ := each index thread found
      cases place with
      | starting =>
          rw [program_eq] at found
          have answered : machine env .claimInitialization pool.state =
              some (false, pool.state) := by
            simp only [machine, fulfilled]
          exact absurd (quiet index) (move_answer found answered)
      | waiting past =>
          have answered : machine env .awaitInitialization pool.state =
              some (.fulfilled, pool.state) := by
            simp only [machine, fulfilled]
          exact absurd (quiet index) (move_answer found answered)
      | reading past =>
          exact absurd (quiet index) (@move_answer env _ _ _ .findLedger
            _ _ _ _ found rfl)
      | saving row saved =>
          exact absurd (quiet index) (@move_answer env _ _ _
            (.saveLedger saved) _ _ _ _ found rfl)
      | returned past value =>
          exact Or.inl ⟨value, rfl⟩
      | failed past reason own =>
          exact Or.inr own

theorem Phase.own_of_failed {creator : ℕ} (phase : Phase moves creator pool)
    {index : ℕ} {thread : Running}
    (found : pool.threads[index]? = some thread) {reason : ServiceError}
    (failed : thread.rest = .fail reason) : .reject index ∈ moves := by
  cases phase with
  | unclaimed unclaimed each =>
      obtain ⟨operation, rfl⟩ := each index thread found
      rw [program_eq] at failed
      cases failed
  | pending isPending creates aside =>
      by_cases isCreator : index = creator
      · subst isCreator
        obtain ⟨operation, creating, isCreating, place⟩ := creates
        cases found.symm.trans isCreating
        cases place with
        | looking =>
            cases failed
        | creating missing =>
            cases failed
        | settling present once =>
            cases failed
      · obtain ⟨operation, stays⟩ := aside index thread isCreator found
        cases stays with
        | starting =>
            rw [program_eq] at failed
            cases failed
        | waiting =>
            cases failed
  | served fulfilled present each once =>
      obtain ⟨operation, place⟩ := each index thread found
      cases place with
      | starting =>
          rw [program_eq] at failed
          cases failed
      | waiting past =>
          cases failed
      | reading past =>
          cases failed
      | saving row saved =>
          cases failed
      | returned past value =>
          cases failed
      | failed past cause own =>
          exact own

/-- The ledger recovers in every run in which no call of the creation of the
row fails. -/
theorem recovers_of_sparesCreation (unclaimed : start.initialization = none)
    (followed : Follows (machine env) SparesCreation
      (launch start operations) moves pool) :
    Recovers env moves pool := by
  obtain ⟨creator, phase⟩ := phase_of_follows unclaimed followed
  refine ⟨?_, ?_, phase.creations_le, ?_⟩
  · intro index thread found spared reason failed
    exact spared (phase.own_of_failed found failed)
  · intro quiet index thread found spared
    exact (phase.ended quiet found).resolve_right spared
  · intro index next moved changed
    obtain ⟨past, request, nextOf, rejected, reply, after, found, answered,
      rfl⟩ := Pool.exists_of_move_answer moved
    obtain ⟨bound, _⟩ := List.getElem?_eq_some_iff.mp found
    obtain ⟨_, same | ⟨value, done⟩⟩ := phase.answer found answered
    · exact absurd same changed
    · rw [done]
      exact ⟨_, value, List.getElem?_set_self bound⟩

end Runs

/-- Two operations that create the row, and a read that fails after it. -/
def sparedMoves : List Move :=
  [.answer 0, .answer 1, .answer 0, .answer 0, .answer 0, .answer 1,
    .reject 1, .answer 0, .answer 0, .answer 0]

theorem recovers_sparedMoves :
    ∃ pool, Follows (machine .plain) SparesCreation
        (launch .initial [.recordMint 5, .totalSupply]) sparedMoves pool ∧
      Recovers .plain sparedMoves pool := by
  have start : Follows (machine .plain) SparesCreation
      (launch .initial [.recordMint 5, .totalSupply]) [] _ := .refl
  have claimed := start.tail (.answer 0) trivial rfl
  have joined := claimed.tail (.answer 1) trivial rfl
  have missed := joined.tail (.answer 0) trivial rfl
  have created := missed.tail (.answer 0) trivial rfl
  have settled := created.tail (.answer 0) trivial rfl
  have passed := settled.tail (.answer 1) trivial rfl
  have failed := passed.tail (.reject 1) (by
    intro past request next rejected found
    cases found
    exact ⟨trivial, rfl⟩) rfl
  have kept := failed.tail (.answer 0) trivial rfl
  have read := kept.tail (.answer 0) trivial rfl
  have saved := read.tail (.answer 0) trivial rfl
  exact ⟨_, saved, recovers_of_sparesCreation rfl saved⟩

/-- Two operations of which the first fails to create the row. -/
def brokenMoves : List Move :=
  [.answer 0, .reject 0, .answer 0, .answer 0, .answer 1, .answer 1]

/-- The rejected promise is kept, and the second operation fails though no
call of its own did. -/
theorem rejection_is_kept :
    ∃ pool, Follows (machine .plain) StoreFails
        (launch .initial [.totalSupply, .totalSupply]) brokenMoves pool ∧
      .reject 1 ∉ brokenMoves ∧ ¬Recovers .plain brokenMoves pool := by
  have start : Follows (machine .plain) StoreFails
      (launch .initial [.totalSupply, .totalSupply]) [] _ := .refl
  have claimed := start.tail (.answer 0) trivial rfl
  have broken := claimed.tail (.reject 0) (by
    intro past request next rejected found
    cases found
    trivial) rfl
  have settled := broken.tail (.answer 0) trivial rfl
  have failed := settled.tail (.answer 0) trivial rfl
  have joined := failed.tail (.answer 1) trivial rfl
  have last := joined.tail (.answer 1) trivial rfl
  refine ⟨_, last, by decide, ?_⟩
  intro recovers
  exact recovers.unfailed 1 _ rfl (by decide) _ rfl

end ArosParadigm.LedgerRecovery
