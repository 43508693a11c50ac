import ArosParadigm.Sessions

/-!
# The supply is derivable from NodeChain

The three tallies of the ledger row are sums over NodeChain, what is minted
has been burned, and the All-Seeing Eye records no drift.
-/

namespace ArosParadigm

open Await

/-- The tallies agree with the value events, and no drift is recorded. -/
structure Books.Tallied (books : Books) : Prop where
  minted : books.ledger.processMinted =
    sumOf "emission.minted" Payload.minted? books.value
  burned : books.ledger.processBurned =
    sumOf "emission.burned" Payload.burned? books.value
  received : books.ledger.earnedRetained =
    sumOf "node.payment.received" Payload.amount? books.value
  paid : books.ledger.earnedRetained =
    sumOf "commission.epoch.finalized" Payload.paid? books.value
  noDrift : books.drift = []

namespace Books.Tallied

variable {books : Books}

theorem initial : World.initial.books.Tallied := by
  constructor <;> rfl

theorem settle (tallied : books.Tallied) (body : RunProcessDto)
    (verdict : PotVerdict) (startTime : ℕ) :
    (books.settle body verdict startTime).Tallied := by
  obtain ⟨minted, burned, received, paid, noDrift⟩ := tallied
  constructor
  · simp [Books.settle, minted, sumOf, Payload.minted?]
  · simp [Books.settle, burned, sumOf, Payload.burned?]
  · simp [Books.settle, received, sumOf]
  · simp [Books.settle, paid, sumOf]
  · exact noDrift

theorem distribute (tallied : books.Tallied) (row : Epoch)
    (epochNumber : ℚ) (weights : Commission.Weights)
    (weight : String → ℚ) (endTime : ℕ) :
    (books.distribute row epochNumber weights weight endTime).Tallied := by
  obtain ⟨minted, burned, received, paid, noDrift⟩ := tallied
  constructor
  · simp only [Books.distribute, sumOf_append,
      sumOf_receipts_of_ne "emission.minted" (by decide)]
    simp [minted, sumOf]
  · simp only [Books.distribute, sumOf_append,
      sumOf_receipts_of_ne "emission.burned" (by decide)]
    simp [burned, sumOf]
  · simp only [Books.distribute, sumOf_append, sumOf_receipts]
    rw [received]
    simp [sumOf, Commission.paidOf]
  · simp only [Books.distribute, sumOf_append,
      sumOf_receipts_of_ne "commission.epoch.finalized"
        (by decide)]
    rw [paid]
    simp [sumOf, Commission.finalizedPayload, Payload.paid?,
      Commission.finalizedResult]
  · exact noDrift

theorem session (env : Environment) (requests : List Request) :
    (Session.of env requests).world.books.Tallied := by
  apply Session.induction
    (motive := fun session => session.world.books.Tallied) initial
  intro session request sound tallied
  obtain ⟨step, _⟩ := request.bookStep sound
  change (request.handle env session.world).2.books.Tallied
  cases step with
  | idle unsettled same free =>
      rw [same]
      exact tallied
  | settled verdict startTime settles subject verified changed fee =>
      rw [changed]
      exact tallied.settle _ verdict startTime
  | distributed row weights endTime found isOpen changed free =>
      rw [changed]
      exact tallied.distribute row _ weights _ endTime

end Books.Tallied

/-- Every figure of the ledger row is recomputed from NodeChain, the process
tally nets out, and no drift was ever recorded. -/
structure SupplyDerivable (env : Environment) (world : World) :
    Prop where
  minted : world.ledgerRow.processMinted =
    sumOf "emission.minted" Payload.minted? world.events
  burned : world.ledgerRow.processBurned =
    sumOf "emission.burned" Payload.burned? world.events
  received : world.ledgerRow.earnedRetained =
    sumOf "node.payment.received" Payload.amount? world.events
  paid : world.ledgerRow.earnedRetained =
    sumOf "commission.epoch.finalized" Payload.paid? world.events
  netted : world.ledgerRow.processMinted = world.ledgerRow.processBurned
  supply : ∃ figure,
    (run (machine env) ArosCoin.totalSupply world).1 = .returned figure ∧
      (run (machine env) ArosCoin.retained world).1 = .returned figure
  noDrift : ∀ entry ∈ world.oversight,
    ¬ (entry.eventType = "anomaly_detected" ∧
      entry.layer = "token_management")

/-- After every request of every session the supply is derivable. -/
theorem supply_derivable_of_session (env : Environment)
    (requests : List Request) :
    SupplyDerivable env (Session.of env requests).world := by
  have tallied := Books.Tallied.session env requests
  have sound := Session.sound env requests
  generalize (Session.of env requests).world = world at tallied sound
  have netted : world.ledgerRow.processMinted =
      world.ledgerRow.processBurned :=
    sound.netted
  refine ⟨?_, ?_, ?_, ?_, netted, ?_, ?_⟩
  · exact tallied.minted.trans (sumOf_books world (by decide) _)
  · exact tallied.burned.trans (sumOf_books world (by decide) _)
  · exact tallied.received.trans (sumOf_books world (by decide) _)
  · exact tallied.paid.trans (sumOf_books world (by decide) _)
  · refine ⟨world.ledgerRow.earnedRetained, ?_, ?_⟩
    · rw [ArosCoin.run_totalSupply sound.settled, netted, sub_self,
        zero_add]
    · rw [ArosCoin.run_retained sound.settled]
  · rintro entry member ⟨anomaly, layer⟩
    have drift : entry ∈ world.books.drift :=
      List.mem_filter.mpr ⟨member, by
        simp [OversightLogEntry.isDrift, anomaly, layer]⟩
    rw [tallied.noDrift] at drift
    cases drift

end ArosParadigm
