import ArosParadigm.Views

/-!
# Reserve

`ReserveService` of `src/reserve/reserve.service.ts`: figures recomputed from
the NodeChain history on every read, and the audit record of AFC accruals.
-/

namespace ArosParadigm.Reserve

variable (env : Environment)

/-- What one snapshot adds to `totalProcessVolume`. -/
def volumeOf (snapshot : Snapshot) : ℚ :=
  if snapshot.eventType = "emission.minted" then
    snapshot.payload.minted?.getD 0
  else if snapshot.eventType = "commission.epoch.finalized" then
    let margin := snapshot.payload.operationalMargin?.getD 0
    if 0 < margin then margin else 0
  else
    0

/-- What one snapshot adds to `totalAfcReserve`. -/
def afcOf (snapshot : Snapshot) : ℚ :=
  if snapshot.eventType = "reserve.afc.accrual" then
    snapshot.payload.amount?.getD 0
  else
    0

def totalProcessVolume : Service ℚ := do
  let history ← ask .listSnapshots
  return (history.map volumeOf).sum

def totalAfcReserve : Service ℚ := do
  let history ← ask .listSnapshots
  return (history.map afcOf).sum

def addAfcAccrual (amount : ℚ) : Service Unit := do
  let _ ← ask (.append "reserve.afc.accrual" (.afcAccrual amount))
  return ()

def reserveIndex : Service ℚ := do
  let volume ← totalProcessVolume
  return env.log10 (1 + volume)

/-- `internalPrice(base)`. -/
def internalPrice (base : ℚ) : Service ℚ := do
  let index ← reserveIndex env
  return base * index

/-! ## Running alone -/

@[simp]
theorem run_reserveIndex (world : World) :
    Await.run (machine env) (reserveIndex env) world =
      (.returned (env.log10 (1 + (world.history.map volumeOf).sum)),
        world) :=
  rfl

@[simp]
theorem run_addAfcAccrual (world : World) (amount : ℚ) :
    Await.run (machine env) (addAfcAccrual amount) world =
      (.returned (), world.append env "reserve.afc.accrual"
        (.afcAccrual amount)) :=
  rfl

end ArosParadigm.Reserve
