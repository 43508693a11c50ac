import ArosParadigm.Settlement
import Mathlib.Algebra.Order.Floor.Semiring
import Mathlib.Data.Nat.Log
import Mathlib.Data.Rat.Floor
import Mathlib.Order.Monotone.Basic

/-!
# The reserve is audited

The margin of a distribution is written three times: as an AFC accrual, in the
snapshot of the finalized epoch, and in the row of the epoch. All three add up
to the same reserve, and no request lets the process volume shrink.
-/

namespace ArosParadigm

open Await

def Epoch.closedMargin (row : Epoch) : ℚ :=
  if row.status = .finalized then row.operationalMargin else 0

theorem sum_closedMargin (rows : List Epoch) :
    (rows.map Epoch.closedMargin).sum =
      ((rows.filter fun row => row.status = .finalized).map
        Epoch.operationalMargin).sum := by
  induction rows with
  | nil =>
      rfl
  | cons row rest inductionHypothesis =>
      by_cases closed : row.status = .finalized
      · simp [Epoch.closedMargin, closed, ← inductionHypothesis]
      · simp [Epoch.closedMargin, closed, ← inductionHypothesis]

/-- The three records of the margins agree, and the volume is what was minted
and what was kept. -/
structure Books.Audited (books : Books) : Prop where
  accruals : sumOf "reserve.afc.accrual" Payload.amount? books.value =
    sumOf "commission.epoch.finalized" Payload.operationalMargin?
      books.value
  rows : sumOf "commission.epoch.finalized" Payload.operationalMargin?
      books.value = (books.epochs.rows.map Epoch.closedMargin).sum
  volume : (books.value.map volumeOfEvent).sum =
    sumOf "emission.minted" Payload.minted? books.value +
      sumOf "commission.epoch.finalized" Payload.operationalMargin?
        books.value

namespace Books.Audited

variable {books : Books}

theorem initial : World.initial.books.Audited := by
  constructor
  · rfl
  · rfl
  · exact (add_zero 0).symm

/-- A settlement adds its amount, and no margin. -/
theorem settle (audited : books.Audited) (body : RunProcessDto)
    (verdict : PotVerdict) (startTime : ℕ) :
    (books.settle body verdict startTime).Audited := by
  obtain ⟨accruals, rows, volume⟩ := audited
  have margins : sumOf "commission.epoch.finalized"
      Payload.operationalMargin?
        (books.settle body verdict startTime).value =
      sumOf "commission.epoch.finalized" Payload.operationalMargin?
        books.value := by
    simp [Books.settle, sumOf]
  constructor
  · rw [margins, ← accruals]
    simp [Books.settle, sumOf]
  · rw [margins, rows]
    -- The saved row has the status and the margin of the stored one.
    generalize isRow : (books.epochs.find?
      (body.epoch.getD Orchestrator.defaultEpoch)).getD
        (Commission.freshEpoch (body.epoch.getD
          Orchestrator.defaultEpoch) startTime) = row
    have saved : (books.settle body verdict startTime).epochs =
        books.epochs.save { row with
          totalFees :=
            row.totalFees + Commission.computeFee body.amount } := by
      rw [← isRow]
      rfl
    have change := Keyed.Table.sum_save Epoch.closedMargin books.epochs
      { row with
        totalFees := row.totalFees + Commission.computeFee body.amount }
    have same : ((books.epochs.find? row.epochNumber).map
        Epoch.closedMargin).getD 0 = row.closedMargin := by
      cases stored : books.epochs.find?
          (body.epoch.getD Orchestrator.defaultEpoch) with
      | none =>
          rw [stored] at isRow
          subst isRow
          rw [Option.getD_none]
          change Option.getD (Option.map _ (books.epochs.find?
            (body.epoch.getD Orchestrator.defaultEpoch))) 0 = _
          rw [stored]
          rfl
      | some other =>
          rw [stored] at isRow
          subst isRow
          rw [Option.getD_some, Keyed.Table.key_of_find? stored, stored]
          rfl
    have margin : Epoch.closedMargin { row with
        totalFees := row.totalFees + Commission.computeFee body.amount } =
          row.closedMargin :=
      rfl
    rw [saved]
    change _ + Option.getD (Option.map _ (books.epochs.find?
      row.epochNumber)) 0 = _ at change
    rw [same, margin] at change
    linarith
  · rw [margins]
    have minted : sumOf "emission.minted" Payload.minted?
        (books.settle body verdict startTime).value =
          sumOf "emission.minted" Payload.minted? books.value +
            body.amount := by
      simp [Books.settle, sumOf, Payload.minted?]
    have grown : ((books.settle body verdict startTime).value.map
        volumeOfEvent).sum =
          (books.value.map volumeOfEvent).sum + body.amount := by
      simp [Books.settle, volumeOfEvent, Payload.minted?]
    rw [minted, grown, volume]
    ring

/-- A distribution records a margin that is not negative three times. -/
theorem distribute (audited : books.Audited) {row : Epoch}
    {epoch : ℚ} (found : books.epochs.find? epoch = some row)
    (isOpen : row.status = .opened) {weights : Commission.Weights}
    (kept : 0 ≤ row.totalFees - Commission.paidOf weights row.totalFees)
    (weight : String → ℚ) (endTime : ℕ) :
    (books.distribute row epoch weights weight endTime).Audited := by
  obtain ⟨accruals, rows, volume⟩ := audited
  have margins : sumOf "commission.epoch.finalized"
      Payload.operationalMargin?
        (books.distribute row epoch weights weight endTime).value =
      sumOf "commission.epoch.finalized" Payload.operationalMargin?
        books.value +
          (row.totalFees - Commission.paidOf weights row.totalFees) := by
    simp only [Books.distribute, sumOf_append,
      sumOf_receipts_of_ne "commission.epoch.finalized" (by decide)]
    simp [sumOf, Commission.finalizedPayload,
      Commission.finalizedResult, Payload.operationalMargin?]
  constructor
  · rw [margins, ← accruals]
    simp only [Books.distribute, sumOf_append,
      sumOf_receipts_of_ne "reserve.afc.accrual" (by decide)]
    simp [sumOf, Payload.amount?]
  · have change := Keyed.Table.sum_save Epoch.closedMargin books.epochs
      (Commission.finalizedRow row weights endTime)
    have key : (Commission.finalizedRow row weights endTime).epochNumber =
        epoch :=
      (Keyed.Table.key_of_find? found : row.epochNumber = epoch)
    have before : row.closedMargin = 0 := by
      simp [Epoch.closedMargin, isOpen]
    have after : (Commission.finalizedRow row weights
        endTime).closedMargin =
          row.totalFees - Commission.paidOf weights row.totalFees :=
      if_pos rfl
    rw [key, found, Option.map_some, Option.getD_some, before, after,
      add_zero] at change
    rw [margins, rows]
    exact change.symm
  · have minted : sumOf "emission.minted" Payload.minted?
        (books.distribute row epoch weights weight endTime).value =
          sumOf "emission.minted" Payload.minted? books.value := by
      simp only [Books.distribute, sumOf_append,
        sumOf_receipts_of_ne "emission.minted" (by decide)]
      simp [sumOf]
    have grown := Request.sum_volume_distribute books row epoch weights
      weight endTime
    have margin : (let margin :=
          row.totalFees - Commission.paidOf weights row.totalFees
        if 0 < margin then margin else 0) =
          row.totalFees - Commission.paidOf weights row.totalFees := by
      by_cases positive :
        0 < row.totalFees - Commission.paidOf weights row.totalFees
      · exact if_pos positive
      · exact (if_neg positive).trans
          (le_antisymm kept (not_lt.mp positive))
    rw [grown, margin, minted, margins, volume]
    ring

end Books.Audited

/-! ## Sessions -/

/-- A distribution keeps a quarter of the fees of its epoch. -/
theorem margin_of_distributed {world after : World} {epoch : ℚ}
    {row : Epoch} {weights : Commission.Weights} {endTime : ℕ}
    (healthy : world.accounts.Healthy)
    (found : world.epochs.find? epoch = some row)
    (isOpen : row.status = .opened)
    (changed : after.books = world.books.distribute row epoch weights
      (Commission.nodeWeight world) endTime)
    (finalized : after.accounts = world.accounts.finalize epoch) :
    row.totalFees - Commission.paidOf weights row.totalFees =
      row.totalFees * (1 / 4) := by
  have figures : world.accounts.epochs epoch = some row.figures := by
    simp [World.accounts, found]
  have key : (Commission.finalizedRow row weights endTime).epochNumber =
      epoch :=
    (Keyed.Table.key_of_find? found : row.epochNumber = epoch)
  have stored : after.epochs.find? epoch =
      some (Commission.finalizedRow row weights endTime) := by
    have epochs : after.epochs = world.epochs.save
        (Commission.finalizedRow row weights endTime) :=
      congrArg Books.epochs changed
    rw [epochs, Keyed.Table.find?_save, if_pos key]
  have closed : after.accounts.epochs epoch =
      (world.accounts.close epoch row.figures).epochs epoch := by
    rw [finalized, Accounts.finalize, figures]
    exact congrArg (fun accounts => Accounts.epochs accounts epoch)
      (if_pos isOpen)
  rw [Accounts.epochs_close, Function.update_self] at closed
  change (after.epochs.find? epoch).map Epoch.figures = _ at closed
  rw [stored] at closed
  have margin := congrArg EpochFigures.operationalMargin
    (Option.some.inj closed)
  have paid := healthy.paid_of_open figures isOpen
  change row.totalFees - Commission.paidOf weights row.totalFees =
    row.totalFees - world.accounts.paid epoch row.totalFees at margin
  change world.accounts.paid epoch row.totalFees = _ at paid
  rw [margin, paid]
  change row.totalFees - row.totalFees * (3 / 4) = _
  ring

theorem Session.audited (env : Environment) (requests : List Request) :
    (of env requests).world.books.Audited := by
  induction requests using List.reverseRecOn with
  | nil =>
      exact Books.Audited.initial
  | append_singleton requests request inductionHypothesis =>
      have reliable := Session.reliable env requests
      have accounts := (reliable.accounts_handle request).1
      obtain ⟨step, _⟩ := request.bookStep reliable.sound
      rw [of_append_singleton]
      change (request.handle env
        (of env requests).world).2.books.Audited
      cases step with
      | idle unsettled same free =>
          rw [same]
          exact inductionHypothesis
      | settled verdict startTime settles subject verified changed fee =>
          rw [changed]
          exact inductionHypothesis.settle _ verdict startTime
      | distributed row weights endTime found isOpen changed free =>
          have margin := margin_of_distributed reliable.healthy found
            isOpen changed accounts
          have figures : (of env requests).world.accounts.epochs _ =
              some row.figures :=
            congrArg (Option.map Epoch.figures) found
          have fees := (reliable.healthy.pooled _ _ figures isOpen).1
          change 0 < row.totalFees at fees
          rw [changed]
          refine inductionHypothesis.distribute found isOpen ?_ _ endTime
          rw [margin]
          linarith

theorem Accounts.volume_le_act (accounts : Accounts) (request : Request) :
    accounts.volume ≤ (accounts.act request).volume := by
  cases request with
  | runProcess body =>
      change _ ≤ (accounts.serve body).volume
      unfold Accounts.serve
      split
      · exact le_add_of_nonneg_right body.amountPositive.le
      · split
        · exact le_rfl
        · exact le_rfl
  | finalizeEpoch epoch =>
      change _ ≤ (accounts.finalize epoch).volume
      unfold Accounts.finalize
      split
      · split
        · apply le_add_of_nonneg_right
          split
          · next positive =>
              exact positive.le
          · exact le_rfl
        · exact le_rfl
      · exact le_rfl
  | metrics epoch =>
      exact le_rfl
  | getProcess processId =>
      exact le_rfl

namespace Session

theorem volume_le_append (env : Environment)
    (earlier later : List Request) :
    (of env earlier).world.volume ≤
      (of env (earlier ++ later)).world.volume := by
  induction later using List.reverseRecOn with
  | nil =>
      rw [List.append_nil]
  | append_singleton later request inductionHypothesis =>
      have reliable := Session.reliable env (earlier ++ later)
      have accounts := (reliable.accounts_handle request).1
      rw [← List.append_assoc, of_append_singleton]
      refine inductionHypothesis.trans ?_
      change World.volume _ ≤
        (request.handle env (of env (earlier ++ later)).world).2.volume
      have grown := Accounts.volume_le_act
        (of env (earlier ++ later)).world.accounts request
      rw [← accounts] at grown
      exact grown

theorem volume_nonneg (env : Environment) (requests : List Request) :
    0 ≤ (of env requests).world.volume :=
  volume_le_append env [] requests

end Session

/-- The three reads of the reserve return these figures, and the records
that they could be read from agree with them. -/
structure ReserveAudited (env : Environment) (world : World)
    (afc volume index : ℚ) : Prop where
  readsAfc : run (machine env) Reserve.totalAfcReserve world =
    (.returned afc, world)
  readsVolume : run (machine env) Reserve.totalProcessVolume world =
    (.returned volume, world)
  readsIndex : run (machine env) (Reserve.reserveIndex env) world =
    (.returned index, world)
  snapshots : afc = sumOf "commission.epoch.finalized"
    Payload.operationalMargin? world.events
  rows : afc = ((world.epochs.rows.filter fun row =>
    row.status = .finalized).map Epoch.operationalMargin).sum
  split : volume =
    sumOf "emission.minted" Payload.minted? world.events + afc

private theorem sum_afcOf (world : World) :
    (world.history.map Reserve.afcOf).sum =
      sumOf "reserve.afc.accrual" Payload.amount? world.events := by
  unfold World.events
  induction world.history with
  | nil =>
      rfl
  | cons snapshot rest inductionHypothesis =>
      by_cases accrual : snapshot.eventType = "reserve.afc.accrual"
      · simp [sumOf, Reserve.afcOf, accrual, inductionHypothesis]
      · simp [sumOf, Reserve.afcOf, accrual, inductionHypothesis]

theorem Session.reserveAudited (env : Environment)
    (requests : List Request) :
    ReserveAudited env (of env requests).world
      ((of env requests).world.history.map Reserve.afcOf).sum
      (of env requests).world.volume
      (env.log10 (1 + (of env requests).world.volume)) := by
  obtain ⟨accruals, rows, volume⟩ := Session.audited env requests
  rw [sumOf_books _ (by decide), sumOf_books _ (by decide)] at accruals
  rw [sumOf_books _ (by decide)] at rows
  rw [sumOf_books _ (by decide), sumOf_books _ (by decide),
    ← World.volume_eq_books] at volume
  refine ⟨rfl, rfl, rfl, ?_, ?_, ?_⟩
  · rw [sum_afcOf, accruals]
  · rw [sum_afcOf, accruals, rows]
    exact sum_closedMargin _
  · rw [sum_afcOf, accruals, volume]

/-- After every request the accruals, the snapshots and the rows hold the
same reserve, the volume is what was minted and what was kept, and neither
volume nor index is smaller than after an earlier request. -/
theorem reserve_audited_of_session (env : Environment)
    (growing : MonotoneOn env.log10 (Set.Ici 1))
    (earlier later : List Request) :
    ∃ afc volume index,
      ReserveAudited env (Session.of env (earlier ++ later)).world
          afc volume index ∧
        ∃ pastAfc pastVolume pastIndex,
          ReserveAudited env (Session.of env earlier).world
              pastAfc pastVolume pastIndex ∧
            pastVolume ≤ volume ∧ pastIndex ≤ index := by
  have grown := Session.volume_le_append env earlier later
  have nonneg := Session.volume_nonneg env earlier
  refine ⟨_, _, _, Session.reserveAudited env (earlier ++ later),
    _, _, _, Session.reserveAudited env earlier, grown, ?_⟩
  refine growing ?_ ?_ ?_
  · change (1 : ℚ) ≤ _
    linarith
  · change (1 : ℚ) ≤ _
    linarith
  · linarith

def roundBody (processId : String) (amount epoch : ℚ)
    (positive : 0 < amount := by decide) : RunProcessDto where
  processId := processId
  amount := amount
  type := "transfer"
  admissible := true
  nodeIds := none
  epoch := some epoch
  amountPositive := positive
  nodeIdsNotEmpty := Orchestrator.none_ne_some_nil

/-- A first run, into an epoch that stays open. -/
def firstRound : List Request :=
  [.runProcess (roundBody "p-1" 9 2)]

/-- A run whose epoch is finalized with a margin of one, and a last run. -/
def nextRounds : List Request :=
  [.runProcess (roundBody "p-2" 800 1), .finalizeEpoch 1,
    .runProcess (roundBody "p-3" 189 2)]

/-- The index is one after a volume of 9, and three after one of 999. -/
theorem round_volumes_audited :
    ∃ afc volume index,
      ReserveAudited .plain (Session.of .plain
          (firstRound ++ nextRounds)).world afc volume index ∧
        ∃ pastAfc pastVolume pastIndex,
          ReserveAudited .plain (Session.of .plain firstRound).world
              pastAfc pastVolume pastIndex ∧
            pastVolume ≤ volume ∧ pastIndex ≤ index := by
  apply reserve_audited_of_session
  intro first _ second _ below
  exact Nat.cast_le.mpr (Nat.log_mono_right (Nat.floor_mono below))

example :
    let world := (Session.of .plain (firstRound ++ nextRounds)).world
    (run (machine .plain) Reserve.totalAfcReserve world).1 = .returned 1 ∧
      (run (machine .plain) Reserve.totalProcessVolume world).1 =
        .returned 999 ∧
      (run (machine .plain) (Reserve.reserveIndex .plain) world).1 =
        .returned 3 := by
  decide +kernel

end ArosParadigm
