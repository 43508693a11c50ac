import ArosParadigm.ArosCoin
import ArosParadigm.Pot

/-!
# Emission

`EmissionService` of `src/emission/emission.service.ts`: the only minter.
Minting reads the stored verdict and proceeds only when it is `verified === 1`.
-/

namespace ArosParadigm

structure EmitResult where
  authorized : Bool
  minted : ℚ
  burned : ℚ
  processId : String
  deriving DecidableEq

/-- The result of `EmissionService.calculate`. -/
structure EmissionFormula where
  emission : ℚ
  commission : ℚ
  nodeShare : ℚ
  afcShare : ℚ
  net : ℚ
  deriving DecidableEq

namespace Emission

def emissionRefused (processId : String) : ServiceError :=
  .refused ("emission refused for " ++ processId ++
    ": no PoT confirmation (verified === 1 required)")

/-- `verdict && verdict.verified === 1`. -/
def authorizes (verdict : Option PotVerdict) : Bool :=
  verdict.any fun row => row.verified = 1

/-- `mint(processId, amount)`. -/
def mint (processId : String) (amount : ℚ) : Service ℚ := do
  let verdict ← Pot.getVerdict processId
  if authorizes verdict then
    ArosCoin.recordMint amount
    let _ ← ask (.append "emission.minted"
      (.emissionMinted processId amount))
    return amount
  else
    .fail (emissionRefused processId)

/-- `burn(processId, amount)`. -/
def burn (processId : String) (amount : ℚ) : Service ℚ := do
  ArosCoin.recordBurn amount
  let _ ← ask (.append "emission.burned"
    (.emissionBurned processId amount))
  return amount

/-- `emit(processId, amount)`. -/
def emit (processId : String) (amount : ℚ) : Service EmitResult := do
  let verdict ← Pot.getVerdict processId
  if authorizes verdict then
    let minted ← mint processId amount
    let burned ← burn processId minted
    return ⟨true, minted, burned, processId⟩
  else
    return ⟨false, 0, 0, processId⟩

def totalSupply : Service ℚ :=
  ArosCoin.totalSupply

/-- `calculate(txAmount, commissionRate)`. -/
def calculate (txAmount : ℚ) (commissionRate : ℚ := 5 / 1000) :
    EmissionFormula :=
  let commission := txAmount * commissionRate
  { emission := txAmount
    commission := commission
    nodeShare := commission * (3 / 4)
    afcShare := commission * (1 / 4)
    net := 0 }

/-! ## Running alone -/

section Alone

open Await

variable {env : Environment} {world : World}

def mintedWorld (env : Environment) (world : World) (processId : String)
    (amount : ℚ) : World :=
  (world.withLedger
    { world.ledgerRow with
      processMinted := world.ledgerRow.processMinted + amount }).append
    env "emission.minted" (.emissionMinted processId amount)

/-- The world after a burn. -/
def burnedWorld (env : Environment) (world : World) (processId : String)
    (amount : ℚ) : World :=
  (world.withLedger
    { world.ledgerRow with
      processBurned := world.ledgerRow.processBurned + amount }).append
    env "emission.burned" (.emissionBurned processId amount)

@[simp]
theorem run_getVerdict (processId : String) :
    run (machine env) (Pot.getVerdict processId) world =
      (.returned (world.verdicts.find? processId), world) :=
  rfl

theorem run_mint {processId : String} (settled : world.Settled)
    (authorized :
      authorizes (world.verdicts.find? processId) = true) (amount : ℚ) :
    run (machine env) (mint processId amount) world =
      (.returned amount, mintedWorld env world processId amount) := by
  rw [mint, run_bind_of_returned (run_getVerdict processId),
    if_pos authorized,
    run_bind_of_returned (ArosCoin.run_recordMint settled amount)]
  rfl

theorem run_mint_refused {processId : String}
    (refused : authorizes (world.verdicts.find? processId) = false)
    (amount : ℚ) :
    run (machine env) (mint processId amount) world =
      (.threw (emissionRefused processId), world) := by
  rw [mint, run_bind_of_returned (run_getVerdict processId), refused]
  rfl

theorem run_burn (settled : world.Settled) (processId : String)
    (amount : ℚ) :
    run (machine env) (burn processId amount) world =
      (.returned amount, burnedWorld env world processId amount) := by
  rw [burn, run_bind_of_returned (ArosCoin.run_recordBurn settled amount)]
  rfl

theorem run_emit {processId : String} (settled : world.Settled)
    (authorized :
      authorizes (world.verdicts.find? processId) = true) (amount : ℚ) :
    run (machine env) (emit processId amount) world =
      (.returned ⟨true, amount, amount, processId⟩,
        burnedWorld env (mintedWorld env world processId amount) processId
          amount) := by
  have minted : (mintedWorld env world processId amount).Settled := by
    simp [mintedWorld]
  rw [emit, run_bind_of_returned (run_getVerdict processId),
    if_pos authorized,
    run_bind_of_returned (run_mint settled authorized amount),
    run_bind_of_returned (run_burn minted processId amount)]
  rfl

theorem run_emit_refused {processId : String}
    (refused : authorizes (world.verdicts.find? processId) = false)
    (amount : ℚ) :
    run (machine env) (emit processId amount) world =
      (.returned ⟨false, 0, 0, processId⟩, world) := by
  rw [emit, run_bind_of_returned (run_getVerdict processId), refused]
  rfl

end Alone

end Emission

end ArosParadigm
