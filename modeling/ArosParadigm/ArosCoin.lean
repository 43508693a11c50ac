import ArosParadigm.Views

/-!
# ArosCoin

`ArosCoinService` of `src/aroscoin/aroscoin.service.ts`: three running tallies
in one row, each updated by a read and a save, and the figures derived from
them. The row is created on first access; concurrent first accesses wait for
the one promise `initialization`.
-/

namespace ArosParadigm

structure SupplySnapshot where
  processMinted : ℚ
  processBurned : ℚ
  earnedRetained : ℚ
  timestamp : ℕ
  deriving DecidableEq

/-- The observation that `AllSeeingEyeService.compareSupply` takes. -/
structure SupplyView where
  totalSupply : ℚ
  retained : ℚ
  deriving DecidableEq

/-- The row that `ensureLedger` creates. -/
def ArosCoinLedger.zero : ArosCoinLedger :=
  ⟨0, 0, 0⟩

namespace ArosCoin

/-- The asynchronous function whose promise is `initialization`. -/
def createLedger : Service Unit := do
  let existing ← ask .findLedger
  if existing.isNone then
    ask (.saveLedger ArosCoinLedger.zero)
  ask (.settleInitialization .fulfilled)

/-- `ensureLedger()`. The first caller makes the promise; every caller awaits
it. -/
def ensureLedger : Service Unit := do
  if ← ask .claimInitialization then
    createLedger.rescue fun _ => ask (.settleInitialization .rejected)
  match ← ask .awaitInitialization with
  | .fulfilled => return ()
  | _ => .fail .storeRejected

/-- The end of `ensureLedger`, which every caller comes to. -/
def promiseKept : Service Unit := do
  match ← ask .awaitInitialization with
  | .fulfilled => return ()
  | _ => .fail .storeRejected

theorem ensureLedger_eq :
    ensureLedger = ask .claimInitialization >>= fun claimed =>
      if claimed then
        (createLedger.rescue fun _ =>
          ask (.settleInitialization .rejected)) >>= fun _ => promiseKept
      else promiseKept := by
  unfold ensureLedger promiseKept
  congr 1

def ledger : Service ArosCoinLedger := do
  ensureLedger
  match ← ask .findLedger with
  | some row => return row
  | none => .fail .entityNotFound

/-- The calls of `ledger()`. -/
theorem uses_ledger {permitted : Call → Prop}
    (claims : permitted .claimInitialization)
    (settles : ∀ outcome, permitted (.settleInitialization outcome))
    (awaits : permitted .awaitInitialization)
    (finds : permitted .findLedger)
    (saves : permitted (.saveLedger .zero)) :
    Await.Uses permitted ledger := by
  have asks : ∀ {request : Call}, permitted request →
      Await.Uses permitted (ask request) :=
    fun allowed => Await.uses_perform allowed _
  have create : Await.Uses permitted createLedger := by
    refine Await.uses_bind (asks finds) fun existing => ?_
    split
    · exact Await.uses_bind (asks saves) fun _ => asks (settles _)
    · exact asks (settles _)
  have kept : Await.Uses permitted promiseKept := by
    refine Await.uses_bind (asks awaits) fun promise => ?_
    cases promise <;> trivial
  have ensured : Await.Uses permitted ensureLedger := by
    rw [ensureLedger_eq]
    refine Await.uses_bind (asks claims) fun claimed => ?_
    split
    · exact Await.uses_bind
        (Await.uses_rescue create fun _ => asks (settles _)) fun _ => kept
    · exact kept
  refine Await.uses_bind ensured fun _ => ?_
  refine Await.uses_bind (asks finds) fun row => ?_
  cases row <;> trivial

def recordMint (amount : ℚ) : Service Unit := do
  let row ← ledger
  ask (.saveLedger { row with processMinted := row.processMinted + amount })

/-- `recordBurn(amount)`. -/
def recordBurn (amount : ℚ) : Service Unit := do
  let row ← ledger
  ask (.saveLedger { row with processBurned := row.processBurned + amount })

/-- `recordEarned(amount)`. -/
def recordEarned (amount : ℚ) : Service Unit := do
  let row ← ledger
  ask (.saveLedger
    { row with earnedRetained := row.earnedRetained + amount })

def totalSupply : Service ℚ := do
  let row ← ledger
  return (row.processMinted - row.processBurned) + row.earnedRetained

def processNet : Service ℚ := do
  let row ← ledger
  return row.processMinted - row.processBurned

def retained : Service ℚ := do
  let row ← ledger
  return row.earnedRetained

def snapshot : Service SupplySnapshot := do
  let row ← ledger
  let timestamp ← ask .tick
  return ⟨row.processMinted, row.processBurned, row.earnedRetained,
    timestamp⟩

def supplyView : Service SupplyView := do
  let row ← ledger
  return ⟨(row.processMinted - row.processBurned) + row.earnedRetained,
    row.earnedRetained⟩

/-! ## Running alone -/

section Alone

open Await

variable {env : Environment} {world : World}

/-- A read of the row creates it when it is missing. -/
theorem run_ledger (settled : world.Settled) :
    run (machine env) ledger world =
      (.returned world.ledgerRow,
        world.withLedger world.ledgerRow) := by
  rcases world with
    ⟨_, _, row, _, _, _, _, _, _, _, _, _, initialization⟩
  rcases settled with fresh | ⟨made, present⟩
  · cases fresh
    cases row <;> rfl
  · cases made
    cases row with
    | none =>
        exact absurd rfl present
    | some stored =>
        rfl

/-- A read of the row returns in settled worlds only. -/
theorem settled_of_run_ledger {row : ArosCoinLedger} {after : World}
    (returned : run (machine env) ledger world =
      (.returned row, after)) :
    world.Settled := by
  rcases world with
    ⟨_, _, stored, _, _, _, _, _, _, _, _, _, initialization⟩
  cases initialization with
  | none =>
      exact Or.inl rfl
  | some promise =>
      cases promise with
      | pending =>
          cases returned
      | rejected =>
          cases returned
      | fulfilled =>
          cases stored with
          | none =>
              cases returned
          | some _ =>
              exact Or.inr ⟨rfl, nofun⟩

theorem run_recordMint (settled : world.Settled) (amount : ℚ) :
    run (machine env) (recordMint amount) world =
      (.returned (), world.withLedger
        { world.ledgerRow with
          processMinted := world.ledgerRow.processMinted + amount }) := by
  rw [recordMint, run_bind_of_returned (run_ledger settled)]
  rfl

theorem run_recordBurn (settled : world.Settled) (amount : ℚ) :
    run (machine env) (recordBurn amount) world =
      (.returned (), world.withLedger
        { world.ledgerRow with
          processBurned := world.ledgerRow.processBurned + amount }) := by
  rw [recordBurn, run_bind_of_returned (run_ledger settled)]
  rfl

variable (env) in
theorem run_recordEarned (settled : world.Settled) (amount : ℚ) :
    run (machine env) (recordEarned amount) world =
      (.returned (), world.withLedger
        { world.ledgerRow with
          earnedRetained :=
            world.ledgerRow.earnedRetained + amount }) := by
  rw [recordEarned, run_bind_of_returned (run_ledger settled)]
  rfl

theorem run_totalSupply (settled : world.Settled) :
    run (machine env) totalSupply world =
      (.returned ((world.ledgerRow.processMinted -
          world.ledgerRow.processBurned) +
          world.ledgerRow.earnedRetained),
        world.withLedger world.ledgerRow) := by
  rw [totalSupply, run_bind_of_returned (run_ledger settled)]
  rfl

theorem run_retained (settled : world.Settled) :
    run (machine env) retained world =
      (.returned world.ledgerRow.earnedRetained,
        world.withLedger world.ledgerRow) := by
  rw [retained, run_bind_of_returned (run_ledger settled)]
  rfl

theorem run_supplyView (settled : world.Settled) :
    run (machine env) supplyView world =
      (.returned ⟨(world.ledgerRow.processMinted -
          world.ledgerRow.processBurned) +
          world.ledgerRow.earnedRetained,
          world.ledgerRow.earnedRetained⟩,
        world.withLedger world.ledgerRow) := by
  rw [supplyView, run_bind_of_returned (run_ledger settled)]
  rfl

end Alone

end ArosCoin

end ArosParadigm
