import ArosParadigm.ArosCoin
import ArosParadigm.Reserve

/-!
# Release

`ReleaseService` of `src/release/release.service.ts`: the one-time transition
to broader circulation behind a capitalization and an activity condition.
-/

namespace ArosParadigm

structure MaturityCheck where
  mature : Bool
  reserveIndex : ℚ
  velocity : ℚ
  deriving DecidableEq

structure ActivateResult where
  activated : Bool
  active : Bool
  reserveIndex : ℚ
  velocity : ℚ
  deriving DecidableEq

/-- The row that `phase` creates. -/
def ReleasePhase.inactive : ReleasePhase :=
  ⟨false, none, none, none⟩

namespace Release

variable (env : Environment)

def phase : Service ReleasePhase := do
  match ← ask .findPhase with
  | some existing => return existing
  | none =>
      ask (.savePhase ReleasePhase.inactive)
      return ReleasePhase.inactive

/-- `velocity(processVolume24h)`. -/
def velocity (processVolume24h : ℚ) : Service ℚ := do
  let circulatingSupply ← ArosCoin.totalSupply
  if circulatingSupply ≤ 0 then
    return 0
  else
    return processVolume24h / circulatingSupply

/-- `check(threshold, target, processVolume24h)`. -/
def check (threshold target processVolume24h : ℚ) :
    Service MaturityCheck := do
  let reserveIndex ← Reserve.reserveIndex env
  let velocity ← velocity processVolume24h
  return ⟨threshold < reserveIndex ∧ target < velocity, reserveIndex,
    velocity⟩

/-- `activate(threshold, target, processVolume24h)`. -/
def activate (threshold target processVolume24h : ℚ) :
    Service ActivateResult := do
  let check ← check env threshold target processVolume24h
  let row ← phase
  if row.active then
    return ⟨false, true, check.reserveIndex, check.velocity⟩
  else if !check.mature then
    return ⟨false, false, check.reserveIndex, check.velocity⟩
  else
    let activatedAt ← ask .tick
    let _ ← ask (.append "release.activated"
      (.releaseActivated check.reserveIndex check.velocity threshold
        target))
    ask (.savePhase
      { row with
        active := true
        activatedAt := some activatedAt
        reserveIndexAtActivation := some check.reserveIndex
        velocityAtActivation := some check.velocity })
    return ⟨true, true, check.reserveIndex, check.velocity⟩

def isActive : Service Bool := do
  let row ← phase
  return row.active

/-! ## Running alone -/

def phasedWorld (world : World) : World :=
  if world.phase.isSome then world
  else world.savePhase ReleasePhase.inactive

section Alone

open Await

variable {env : Environment} {world : World}

theorem run_phase :
    run (machine env) phase world =
      (.returned (world.phase.getD .inactive), phasedWorld world) := by
  rw [phase, run_bind_of_returned (run_findPhase env world)]
  unfold phasedWorld
  cases world.phase <;> rfl

theorem run_isActive :
    run (machine env) isActive world =
      (.returned (world.phase.getD ReleasePhase.inactive).active,
        phasedWorld world) := by
  rw [isActive, run_bind_of_returned run_phase]
  rfl

end Alone

end Release

end ArosParadigm
