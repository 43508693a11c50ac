import ArosParadigm.Sessions
import Mathlib.Tactic.Linarith

/-!
# Fees are conserved

`openEpoch` returns the stored row whatever its status, so a fee can be
accrued into an epoch that has been distributed, and no later finalization
distributes it. Fees are conserved exactly in the sessions that settle no
process into a finalized epoch.
-/

namespace ArosParadigm

/-- The amounts of a distribution log. -/
def Epoch.distributed (row : Epoch) : ℚ :=
  (row.distributionLog.map DistributionEntry.amount).sum

def Epoch.openFees (row : Epoch) : ℚ :=
  if row.status = .opened then row.totalFees else 0

theorem Epoch.openFees_of_opened {row : Epoch}
    (isOpen : row.status = .opened) : row.openFees = row.totalFees :=
  if_pos isOpen

theorem sum_openFees (rows : List Epoch) :
    (rows.map Epoch.openFees).sum =
      ((rows.filter fun row => row.status = .opened).map
        Epoch.totalFees).sum := by
  induction rows with
  | nil =>
      rfl
  | cons row rest inductionHypothesis =>
      by_cases isOpen : row.status = .opened
      · simp [Epoch.openFees, isOpen, ← inductionHypothesis]
      · simp [Epoch.openFees, isOpen, ← inductionHypothesis]

theorem Commission.sum_distributionOf (weights : Commission.Weights)
    (total : ℚ) :
    ((Commission.distributionOf weights total).map
      DistributionEntry.amount).sum = total := by
  simp [Commission.distributionOf, Commission.paidOf]

namespace Session

/-- The fees that the verified runs of a session returned. -/
def fees (session : Session) : ℚ :=
  (session.log.map fun entry => feeReturned entry.outcome).sum

/-- Every fee is distributed or waits in an open epoch, and every finalized
epoch has distributed its fees. -/
structure FeesConserved (session : Session) : Prop where
  finalized : ∀ row ∈ session.world.epochs.rows,
    row.status = .finalized → row.distributed = row.totalFees
  balance : session.fees =
    sumOf "commission.epoch.finalized" Payload.distributed?
        session.world.events +
      ((session.world.epochs.rows.filter fun row =>
        row.status = .opened).map Epoch.totalFees).sum

/-- A body is settled into an epoch that is not finalized. -/
def UnfinalizedEpoch (world : World) (request : Request) : Prop :=
  ∀ body, request = .runProcess body → Settles world body →
    ∀ row, world.epochs.find?
        (body.epoch.getD Orchestrator.defaultEpoch) = some row →
      row.status ≠ .finalized

end Session

/-! ## The books of conserved fees -/

structure Books.FeesHeld (books : Books) (fees : ℚ) : Prop where
  finalized : ∀ row ∈ books.epochs.rows,
    row.status = .finalized → row.distributed = row.totalFees
  unarchived : ∀ row ∈ books.epochs.rows, row.status ≠ .archived
  balance : fees =
    sumOf "commission.epoch.finalized" Payload.distributed?
        books.value +
      (books.epochs.rows.map Epoch.openFees).sum

namespace Books.FeesHeld

variable {books : Books} {fees : ℚ}

theorem initial : World.initial.books.FeesHeld 0 := by
  constructor
  · intro row member
    cases member
  · intro row member
    cases member
  · simp [World.books, World.events, World.initial, World.history, sumOf,
      NodeChain.list]

private theorem openRow (held : books.FeesHeld fees) {epoch : ℚ}
    (unfinalized : ∀ row, books.epochs.find? epoch = some row →
      row.status ≠ .finalized) (startTime : ℕ) {row : Epoch}
    (isRow : row = (books.epochs.find? epoch).getD
      (Commission.freshEpoch epoch startTime)) :
    row.epochNumber = epoch ∧ row.status = .opened ∧
      ((books.epochs.find? epoch).map Epoch.openFees).getD 0 =
        row.totalFees := by
  subst isRow
  cases found : books.epochs.find? epoch with
  | none =>
      exact ⟨rfl, rfl, rfl⟩
  | some stored =>
      have isOpen : stored.status = .opened := by
        cases status : stored.status with
        | opened =>
            rfl
        | finalized =>
            exact absurd status (unfinalized stored found)
        | archived =>
            exact absurd status (held.unarchived stored
              (Keyed.Table.mem_of_find? found))
      exact ⟨Keyed.Table.key_of_find? found, isOpen,
        by simp [Epoch.openFees, isOpen]⟩

/-- A settlement into an open epoch adds its fee to the pool. -/
theorem settle (held : books.FeesHeld fees) {body : RunProcessDto}
    (verdict : PotVerdict) (startTime : ℕ)
    (unfinalized : ∀ row, books.epochs.find?
        (body.epoch.getD Orchestrator.defaultEpoch) = some row →
      row.status ≠ .finalized) :
    (books.settle body verdict startTime).FeesHeld
      (fees + Commission.computeFee body.amount) := by
  obtain ⟨row, isRow⟩ : ∃ row, row = (books.epochs.find?
      (body.epoch.getD Orchestrator.defaultEpoch)).getD
      (Commission.freshEpoch
        (body.epoch.getD Orchestrator.defaultEpoch) startTime) :=
    ⟨_, rfl⟩
  obtain ⟨key, isOpen, pool⟩ :=
    openRow held unfinalized startTime isRow
  obtain ⟨saved, isSaved⟩ : ∃ saved, saved = { row with
      totalFees := row.totalFees + Commission.computeFee body.amount } :=
    ⟨_, rfl⟩
  have epochs : (books.settle body verdict startTime).epochs =
      books.epochs.save saved := by
    rw [isSaved, isRow]
    rfl
  have savedOpen : saved.status = .opened := by
    rw [isSaved]
    exact isOpen
  have savedKey : saved.epochNumber =
      body.epoch.getD Orchestrator.defaultEpoch := by
    rw [isSaved]
    exact key
  have savedFees : saved.totalFees =
      row.totalFees + Commission.computeFee body.amount := by
    rw [isSaved]
  have change := Keyed.Table.sum_save Epoch.openFees books.epochs saved
  rw [savedKey, pool, Epoch.openFees_of_opened savedOpen,
    savedFees] at change
  obtain ⟨finalized, unarchived, balance⟩ := held
  refine ⟨?_, ?_, ?_⟩
  · intro tested member
    rw [epochs] at member
    rcases Keyed.Table.mem_rows_save member with rfl | ⟨old, _⟩
    · intro closed
      rw [savedOpen] at closed
      cases closed
    · exact finalized tested old
  · intro tested member
    rw [epochs] at member
    rcases Keyed.Table.mem_rows_save member with rfl | ⟨old, _⟩
    · simp [savedOpen]
    · exact unarchived tested old
  · have emitted : sumOf "commission.epoch.finalized"
        Payload.distributed?
        (books.settle body verdict startTime).value =
        sumOf "commission.epoch.finalized" Payload.distributed?
          books.value := by
      simp [Books.settle, sumOf]
    rw [emitted, epochs, balance]
    linarith

/-- A distribution moves the pool of an epoch out of it. -/
theorem distribute (held : books.FeesHeld fees) {epoch : ℚ} {row : Epoch}
    (found : books.epochs.find? epoch = some row)
    (isOpen : row.status = .opened) (weights : Commission.Weights)
    (weight : String → ℚ) (endTime : ℕ) :
    (books.distribute row epoch weights weight endTime).FeesHeld
      fees := by
  obtain ⟨saved, isSaved⟩ : ∃ saved,
      saved = Commission.finalizedRow row weights endTime :=
    ⟨_, rfl⟩
  have epochs : (books.distribute row epoch weights weight
      endTime).epochs = books.epochs.save saved := by
    rw [isSaved]
    rfl
  have savedKey : saved.epochNumber = epoch := by
    rw [isSaved]
    exact (show row.epochNumber = epoch from
      Keyed.Table.key_of_find? found)
  have savedClosed : saved.status = .finalized := by
    rw [isSaved]
    rfl
  have change := Keyed.Table.sum_save Epoch.openFees books.epochs saved
  rw [savedKey, found, Option.map_some, Option.getD_some,
    Epoch.openFees_of_opened isOpen,
    show saved.openFees = 0 by simp [Epoch.openFees, savedClosed]]
    at change
  obtain ⟨finalized, unarchived, balance⟩ := held
  refine ⟨?_, ?_, ?_⟩
  · intro tested member
    rw [epochs] at member
    rcases Keyed.Table.mem_rows_save member with rfl | ⟨old, _⟩
    · intro _
      rw [isSaved]
      exact Commission.sum_distributionOf weights row.totalFees
    · exact finalized tested old
  · intro tested member
    rw [epochs] at member
    rcases Keyed.Table.mem_rows_save member with rfl | ⟨old, _⟩
    · simp [savedClosed]
    · exact unarchived tested old
  · have moved : sumOf "commission.epoch.finalized" Payload.distributed?
        (books.distribute row epoch weights weight endTime).value =
        sumOf "commission.epoch.finalized" Payload.distributed?
          books.value + row.totalFees := by
      simp [Books.distribute, sumOf, List.filter_map,
        Function.comp_def, Payload.distributed?,
        Commission.finalizedPayload, Commission.finalizedResult,
        Commission.sum_distributionOf]
    rw [moved, epochs, balance]
    linarith

end Books.FeesHeld

namespace Session

variable {env : Environment} {session : Session} {request : Request}

theorem fees_serve :
    (serve env session request).fees =
      session.fees +
        feeReturned (request.handle env session.world).1 := by
  simp [fees, serve]

theorem feesHeld_of_meets (env : Environment) (requests : List Request)
    (meets : (of env requests).Meets UnfinalizedEpoch) :
    (of env requests).world.books.FeesHeld (of env requests).fees := by
  revert meets
  apply Session.induction (motive := fun session =>
    session.Meets UnfinalizedEpoch →
      session.world.books.FeesHeld session.fees)
  · intro _
    exact Books.FeesHeld.initial
  · intro session request sound inductionHypothesis meets
    obtain ⟨earlier, permitted⟩ := meets_serve.mp meets
    have held := inductionHypothesis earlier
    obtain ⟨step, _⟩ := request.bookStep sound
    rw [fees_serve]
    change (request.handle env session.world).2.books.FeesHeld _
    cases step with
    | idle unsettled same free =>
        rw [same, free, add_zero]
        exact held
    | settled verdict startTime settles subject verified changed fee =>
        rw [changed, fee]
        exact held.settle verdict startTime (permitted _ rfl settles)
    | distributed row weights endTime found isOpen changed free =>
        rw [changed, free, add_zero]
        exact held.distribute found isOpen weights _ endTime

/-- Some finalized epoch holds more fees than it has distributed. -/
def FeeLost (books : Books) : Prop :=
  ∃ epoch row, books.epochs.find? epoch = some row ∧
    row.status = .finalized ∧ row.distributed < row.totalFees

private theorem feeLost_settle {books : Books} {epoch : ℚ} {row : Epoch}
    (found : books.epochs.find? epoch = some row)
    (closed : row.status = .finalized)
    (held : row.distributed ≤ row.totalFees) (body : RunProcessDto)
    (verdict : PotVerdict) (startTime : ℕ)
    (grows : row.distributed < row.totalFees ∨
      body.epoch.getD Orchestrator.defaultEpoch = epoch) :
    FeeLost (books.settle body verdict startTime) := by
  by_cases own : body.epoch.getD Orchestrator.defaultEpoch = epoch
  · have key : row.epochNumber = epoch :=
      Keyed.Table.key_of_find? found
    have epochs : (books.settle body verdict startTime).epochs =
        books.epochs.save { row with
          totalFees :=
            row.totalFees + Commission.computeFee body.amount } := by
      simp only [Books.settle, own, found, Option.getD_some]
    refine ⟨epoch, { row with
      totalFees := row.totalFees + Commission.computeFee body.amount },
      ?_, closed, ?_⟩
    · rw [epochs, Keyed.Table.find?_save, if_pos key]
    · have positive := Commission.computeFee_pos body.amountPositive
      change row.distributed < row.totalFees + _
      linarith
  · have less : row.distributed < row.totalFees :=
      grows.resolve_right own
    refine ⟨epoch, row, ?_, closed, less⟩
    refine Eq.trans (Keyed.Table.find?_save_of_ne _ ?_) found
    cases stored : books.epochs.find?
        (body.epoch.getD Orchestrator.defaultEpoch) with
    | none =>
        exact own
    | some other =>
        rw [Option.getD_some]
        exact (Keyed.Table.key_of_find? stored).symm ▸ own

theorem FeeLost.serve (sound : Sound env session.world)
    (lost : FeeLost session.world.books) :
    FeeLost (serve env session request).world.books := by
  obtain ⟨epoch, row, found, closed, less⟩ := lost
  obtain ⟨step, _⟩ := request.bookStep sound
  change FeeLost (request.handle env session.world).2.books
  cases step with
  | idle unsettled same free =>
      rw [same]
      exact ⟨epoch, row, found, closed, less⟩
  | @settled body _ verdict startTime settles subject verified changed
      fee =>
      rw [changed]
      exact feeLost_settle found closed less.le body verdict startTime
        (Or.inl less)
  | @distributed finalizing _ other weights endTime otherFound isOpen
      changed free =>
      rw [changed]
      refine ⟨epoch, row, ?_, closed, less⟩
      refine Eq.trans (Keyed.Table.find?_save_of_ne _ ?_) found
      intro equal
      have key : other.epochNumber = finalizing :=
        Keyed.Table.key_of_find? otherFound
      have same : finalizing = epoch := key.symm.trans equal
      rw [same] at otherFound
      cases Option.some.inj (otherFound.symm.trans found)
      rw [closed] at isOpen
      cases isOpen

theorem feeLost_of_not_meets (env : Environment)
    (requests : List Request)
    (violates : ¬ (of env requests).Meets UnfinalizedEpoch) :
    FeeLost (of env requests).world.books := by
  induction requests using List.reverseRecOn with
  | nil =>
      exact absurd (by simp [Meets, of, start]) violates
  | append_singleton requests request inductionHypothesis =>
      have isSound := Session.sound env requests
      rw [of_append_singleton] at violates ⊢
      by_cases earlier : (of env requests).Meets UnfinalizedEpoch
      · have reopened :
            ¬ UnfinalizedEpoch (of env requests).world request :=
          fun permitted => violates (meets_serve.mpr
            ⟨earlier, permitted⟩)
        simp only [UnfinalizedEpoch, not_forall, not_not] at reopened
        obtain ⟨body, rfl, settles, row, found, closed⟩ := reopened
        have held := (feesHeld_of_meets env requests earlier).finalized
          row (Keyed.Table.mem_of_find? found) closed
        obtain ⟨step, _⟩ :=
          (Request.runProcess body).bookStep isSound
        change FeeLost ((Request.runProcess body).handle env
          (of env requests).world).2.books
        cases step with
        | idle unsettled same free =>
            exact absurd settles (unsettled body rfl)
        | settled verdict startTime _ subject verified changed fee =>
            rw [changed]
            exact feeLost_settle found closed held.le body verdict
              startTime (Or.inr rfl)
      · exact (inductionHypothesis earlier).serve isSound

/-- Fees are conserved exactly when no process is settled into a finalized
epoch. -/
theorem feesConserved_iff_unfinalized (env : Environment)
    (requests : List Request) :
    (of env requests).FeesConserved ↔
      (of env requests).Meets UnfinalizedEpoch := by
  constructor
  · intro conserved
    by_contra violates
    obtain ⟨epoch, row, found, closed, less⟩ :=
      feeLost_of_not_meets env requests violates
    exact less.ne (conserved.finalized row
      (Keyed.Table.mem_of_find? found) closed)
  · intro meets
    obtain ⟨finalized, _, balance⟩ := feesHeld_of_meets env requests meets
    rw [sumOf_books _ (by decide), sum_openFees] at balance
    exact ⟨finalized, balance⟩

def lateBody (processId : String) : RunProcessDto where
  processId := processId
  amount := 1000
  type := "transfer"
  admissible := true
  nodeIds := none
  epoch := none
  amountPositive := Orchestrator.thousand_pos
  nodeIdsNotEmpty := Orchestrator.none_ne_some_nil

/-- A run after the finalization of its epoch loses its fee. -/
theorem late_run_loses_fee :
    ¬ ∀ (env : Environment) (requests : List Request),
      (of env requests).FeesConserved := by
  intro conserved
  have finalized := (conserved .plain
    [.runProcess (lateBody "p-1"), .finalizeEpoch 1,
      .runProcess (lateBody "p-2")]).finalized
  exact absurd finalized (by decide +kernel)

end Session

end ArosParadigm
