import ArosParadigm.Sessions

/-!
# One emission per process

`verify` answers a stored verdict again and `mint` only reads it, so a process
is settled as often as it is requested. Emission happens once per process
exactly in the sessions that settle no process with a stored verdict.
-/

namespace ArosParadigm

def ofProcess (eventType processId : String)
    (events : List (String × Payload)) : List (String × Payload) :=
  events.filter fun event =>
    event.1 = eventType && event.2.processId? = some processId

theorem ofProcess_books (world : World) {eventType : String}
    (isValue : eventType ∈ valueTypes) (processId : String) :
    ofProcess eventType processId world.books.value =
      ofProcess eventType processId world.events := by
  simp only [ofProcess, World.books, List.filter_filter]
  apply List.filter_congr
  intro event _
  by_cases equal : event.1 = eventType
  · simp [equal, isValue]
  · simp [equal]

def Request.isRunOf (processId : String) : Request → Bool
  | .runProcess body => body.processId = processId
  | _ => false

namespace Session

/-- What one request added to `processMinted`. -/
def mintedBy (entry : Answered) : ℚ :=
  entry.after.ledgerRow.processMinted -
    entry.before.ledgerRow.processMinted

/-- What was added to `processMinted` on behalf of a process. -/
def mintedFor (session : Session) (processId : String) : ℚ :=
  ((session.log.filter fun entry =>
    entry.request.isRunOf processId).map mintedBy).sum

/-- One mint, one burn, and no more added than the amount of one run. -/
structure EmittedOnce (session : Session) (processId : String) :
    Prop where
  minted : (ofProcess "emission.minted" processId
    session.world.events).length ≤ 1
  burned : (ofProcess "emission.burned" processId
    session.world.events).length ≤ 1
  added : session.mintedFor processId = 0 ∨
    ∃ entry ∈ session.log, ∃ body,
      entry.request = .runProcess body ∧ body.processId = processId ∧
        session.mintedFor processId ≤ body.amount

/-- A body is settled only while its process has no verdict. -/
def FirstSettlement (world : World) (request : Request) : Prop :=
  ∀ body, request = .runProcess body → Settles world body →
    world.verdicts.find? body.processId = none

/-- What a process without a verdict and one with a verdict have emitted. -/
structure EmissionRecord (session : Session) (processId : String) :
    Prop where
  without : session.world.verdicts.find? processId = none →
    ofProcess "emission.minted" processId session.world.books.value = [] ∧
      ofProcess "emission.burned" processId
        session.world.books.value = [] ∧
      session.mintedFor processId = 0
  once : session.world.verdicts.find? processId ≠ none →
    (ofProcess "emission.minted" processId
        session.world.books.value).length = 1 ∧
      (ofProcess "emission.burned" processId
        session.world.books.value).length = 1 ∧
      ∃ entry ∈ session.log, ∃ body,
        entry.request = .runProcess body ∧ body.processId = processId ∧
          session.mintedFor processId = body.amount

section Steps

variable {env : Environment} {session : Session} {request : Request}

variable (env session request) in
theorem mintedFor_serve (processId : String) :
    (serve env session request).mintedFor processId =
      session.mintedFor processId +
        if request.isRunOf processId then
          (request.handle env session.world).2.ledgerRow.processMinted -
            session.world.ledgerRow.processMinted
        else 0 := by
  unfold mintedFor serve
  simp only [List.filter_append, List.map_append, List.sum_append]
  by_cases about : request.isRunOf processId = true
  · simp [about, mintedBy]
  · simp [about]

theorem EmissionRecord.idle {processId : String}
    (record : session.EmissionRecord processId)
    (same : (request.handle env session.world).2.books =
      session.world.books) :
    (serve env session request).EmissionRecord processId := by
  have ledger : (request.handle env session.world).2.ledgerRow =
      session.world.ledgerRow :=
    congrArg Books.ledger same
  have verdicts : (request.handle env session.world).2.verdicts =
      session.world.verdicts :=
    congrArg Books.verdicts same
  have amount : (serve env session request).mintedFor processId =
      session.mintedFor processId := by
    rw [mintedFor_serve, ledger]
    simp
  obtain ⟨without, once⟩ := record
  constructor
  · intro missing
    rw [amount]
    simp only [serve, same, verdicts] at missing ⊢
    exact without missing
  · intro present
    rw [amount]
    simp only [serve, same, verdicts] at present ⊢
    obtain ⟨minted, burned, entry, member, found⟩ := once present
    exact ⟨minted, burned, entry,
      List.mem_append_left _ member, found⟩

theorem ofProcess_settle (books : Books) (body : RunProcessDto)
    (verdict : PotVerdict) (startTime : ℕ) (processId : String) :
    ofProcess "emission.minted" processId
        (books.settle body verdict startTime).value =
      ofProcess "emission.minted" processId books.value ++
        (if body.processId = processId then
          [("emission.minted",
            .emissionMinted body.processId body.amount)]
        else []) ∧
      ofProcess "emission.burned" processId
        (books.settle body verdict startTime).value =
      ofProcess "emission.burned" processId books.value ++
        (if body.processId = processId then
          [("emission.burned",
            .emissionBurned body.processId body.amount)]
        else []) := by
  by_cases own : body.processId = processId
  · simp [ofProcess, Books.settle, Payload.processId?, own]
  · simp [ofProcess, Books.settle, Payload.processId?, own]

theorem ofProcess_distribute (books : Books) (row : Epoch)
    (epochNumber : ℚ) (weights : Commission.Weights)
    (weight : String → ℚ) (endTime : ℕ) {eventType : String}
    (emits : eventType = "emission.minted" ∨
      eventType = "emission.burned") (processId : String) :
    ofProcess eventType processId (books.distribute row epochNumber
        weights weight endTime).value =
      ofProcess eventType processId books.value := by
  rcases emits with rfl | rfl <;>
    simp [ofProcess, Books.distribute, List.filter_map,
      Function.comp_def]

theorem EmissionRecord.settled {processId : String}
    {body : RunProcessDto} {verdict : PotVerdict} {startTime : ℕ}
    (record : session.EmissionRecord processId)
    (first : session.world.verdicts.find? body.processId = none)
    (subject : verdict.processId = body.processId)
    (changed : ((Request.runProcess body).handle env
      session.world).2.books =
        session.world.books.settle body verdict startTime) :
    (serve env session (.runProcess body)).EmissionRecord processId := by
  have ledger : ((Request.runProcess body).handle env
      session.world).2.ledgerRow.processMinted =
      session.world.ledgerRow.processMinted + body.amount :=
    congrArg (fun books => books.ledger.processMinted) changed
  have verdicts : ((Request.runProcess body).handle env
      session.world).2.verdicts = session.world.verdicts.save verdict :=
    congrArg Books.verdicts changed
  have added := mintedFor_serve env session (.runProcess body) processId
  rw [ledger, add_sub_cancel_left, Request.isRunOf] at added
  obtain ⟨mints, burns⟩ :=
    ofProcess_settle session.world.books body verdict startTime processId
  obtain ⟨without, once⟩ := record
  by_cases own : body.processId = processId
  · subst own
    obtain ⟨noMint, noBurn, nothing⟩ := without first
    rw [if_pos (by simp), nothing, zero_add] at added
    rw [if_pos rfl, noMint, List.nil_append] at mints
    rw [if_pos rfl, noBurn, List.nil_append] at burns
    constructor
    · intro missing
      simp only [serve, verdicts, ← subject,
        Keyed.Table.find?_save_self] at missing
      cases missing
    · intro _
      simp only [serve, changed, mints, burns]
      refine ⟨rfl, rfl, _, List.mem_append_right _
        (List.mem_singleton_self _), body, rfl, rfl, added⟩
  · rw [if_neg (by simpa using own), add_zero] at added
    rw [if_neg own, List.append_nil] at mints burns
    have kept : (session.world.verdicts.save verdict).find? processId =
        session.world.verdicts.find? processId :=
      Keyed.Table.find?_save_of_ne _ (by rwa [subject])
    constructor
    · intro missing
      simp only [serve, verdicts, kept] at missing
      simp only [added]
      simp only [serve, changed, mints, burns]
      exact without missing
    · intro present
      simp only [serve, verdicts, kept] at present
      obtain ⟨minted, burned, entry, member, found⟩ := once present
      simp only [added]
      simp only [serve, changed, mints, burns]
      exact ⟨minted, burned, entry, List.mem_append_left _ member,
        found⟩

theorem EmissionRecord.distributed {processId : String} {epoch : ℚ}
    {row : Epoch} {weights : Commission.Weights}
    {weight : String → ℚ} {endTime : ℕ}
    (record : session.EmissionRecord processId)
    (changed : ((Request.finalizeEpoch epoch).handle env
      session.world).2.books =
        session.world.books.distribute row epoch weights weight
          endTime) :
    (serve env session (.finalizeEpoch epoch)).EmissionRecord
      processId := by
  have verdicts : ((Request.finalizeEpoch epoch).handle env
      session.world).2.verdicts = session.world.verdicts :=
    congrArg Books.verdicts changed
  have added := mintedFor_serve env session (.finalizeEpoch epoch) processId
  rw [if_neg (by simp [Request.isRunOf]), add_zero] at added
  have mints := ofProcess_distribute session.world.books row epoch
    weights weight endTime (Or.inl rfl) processId
  have burns := ofProcess_distribute session.world.books row epoch
    weights weight endTime (Or.inr rfl) processId
  obtain ⟨without, once⟩ := record
  constructor
  · intro missing
    simp only [serve, verdicts] at missing
    simp only [added]
    simp only [serve, changed, mints, burns]
    exact without missing
  · intro present
    simp only [serve, verdicts] at present
    obtain ⟨minted, burned, entry, member, found⟩ := once present
    simp only [added]
    simp only [serve, changed, mints, burns]
    exact ⟨minted, burned, entry, List.mem_append_left _ member, found⟩

theorem emissionRecord_of_meets (env : Environment)
    (requests : List Request)
    (meets : (of env requests).Meets FirstSettlement)
    (processId : String) :
    (of env requests).EmissionRecord processId := by
  revert meets
  apply Session.induction (motive := fun session =>
    session.Meets FirstSettlement → session.EmissionRecord processId)
  · intro _
    exact ⟨fun _ => ⟨rfl, rfl, rfl⟩, fun present => absurd rfl present⟩
  · intro session request sound inductionHypothesis meets
    obtain ⟨earlier, permitted⟩ := meets_serve.mp meets
    have record := inductionHypothesis earlier
    obtain ⟨step, _⟩ := request.bookStep sound
    cases step with
    | idle unsettled same free =>
        exact record.idle same
    | settled verdict startTime settles subject verified changed fee =>
        exact record.settled (permitted _ rfl settles) subject changed
    | distributed row weights endTime found isOpen changed free =>
        exact record.distributed changed

/-- Value events are never removed. -/
theorem length_ofProcess_serve (sound : Sound env session.world)
    (processId : String) :
    (ofProcess "emission.minted" processId
        session.world.books.value).length ≤
      (ofProcess "emission.minted" processId
        (serve env session request).world.books.value).length := by
  obtain ⟨step, _⟩ := request.bookStep sound
  change _ ≤ (ofProcess "emission.minted" processId
    (request.handle env session.world).2.books.value).length
  cases step with
  | idle unsettled same free =>
      rw [same]
  | settled verdict startTime settles subject verified changed fee =>
      rw [changed, (ofProcess_settle _ _ _ _ _).1, List.length_append]
      exact Nat.le_add_right _ _
  | distributed row weights endTime found isOpen changed free =>
      rw [changed, ofProcess_distribute _ _ _ _ _ _ (Or.inl rfl)]

theorem two_mints_of_not_meets (env : Environment)
    (requests : List Request)
    (violates : ¬ (of env requests).Meets FirstSettlement) :
    ∃ processId, 2 ≤ (ofProcess "emission.minted" processId
      (of env requests).world.books.value).length := by
  induction requests using List.reverseRecOn with
  | nil =>
      exact absurd (by simp [Meets, of, start]) violates
  | append_singleton requests request inductionHypothesis =>
      have isSound := Session.sound env requests
      rw [of_append_singleton] at violates ⊢
      by_cases earlier : (of env requests).Meets FirstSettlement
      · have second :
            ¬ FirstSettlement (of env requests).world request :=
          fun permitted => violates (meets_serve.mpr
            ⟨earlier, permitted⟩)
        simp only [FirstSettlement, not_forall] at second
        obtain ⟨body, rfl, settles, present⟩ := second
        obtain ⟨step, _⟩ :=
          (Request.runProcess body).bookStep isSound
        have once := ((emissionRecord_of_meets env requests earlier
          body.processId).once present).1
        refine ⟨body.processId, ?_⟩
        change 2 ≤ (ofProcess "emission.minted" body.processId
          ((Request.runProcess body).handle env
            (of env requests).world).2.books.value).length
        cases step with
        | idle unsettled same free =>
            exact absurd settles (unsettled body rfl)
        | settled verdict startTime _ subject verified changed fee =>
            rw [changed, (ofProcess_settle _ _ _ _ _).1, if_pos rfl,
              List.length_append, once]
            exact Nat.le_refl 2
      · obtain ⟨processId, twice⟩ := inductionHypothesis earlier
        exact ⟨processId, twice.trans
          (length_ofProcess_serve isSound processId)⟩

end Steps

/-! ## Emission once -/

/-- Emission happens once per process exactly when no process with a stored
verdict is settled. -/
theorem emittedOnce_iff_first_settlements (env : Environment)
    (requests : List Request) :
    (∀ processId, (of env requests).EmittedOnce processId) ↔
      (of env requests).Meets FirstSettlement := by
  constructor
  · intro once
    by_contra violates
    obtain ⟨processId, twice⟩ :=
      two_mints_of_not_meets env requests violates
    have minted := (once processId).minted
    rw [← ofProcess_books _ (by decide)] at minted
    omega
  · intro meets processId
    obtain ⟨without, once⟩ :=
      emissionRecord_of_meets env requests meets processId
    by_cases present :
      (of env requests).world.verdicts.find? processId = none
    · obtain ⟨noMint, noBurn, nothing⟩ := without present
      rw [ofProcess_books _ (by decide)] at noMint noBurn
      exact ⟨by simp [noMint], by simp [noBurn], Or.inl nothing⟩
    · obtain ⟨minted, burned, entry, member, body, run, own, amount⟩ :=
        once present
      rw [ofProcess_books _ (by decide)] at minted burned
      exact ⟨minted.le, burned.le,
        Or.inr ⟨entry, member, body, run, own, amount.le⟩⟩

def resubmittedBody : RunProcessDto where
  processId := "p-1"
  amount := 1000
  type := "transfer"
  admissible := true
  nodeIds := none
  epoch := none
  amountPositive := Orchestrator.thousand_pos
  nodeIdsNotEmpty := Orchestrator.none_ne_some_nil

/-- The same body, requested twice, mints twice. -/
theorem resubmission_mints_twice :
    ¬ ∀ (env : Environment) (requests : List Request)
      (processId : String),
      (of env requests).EmittedOnce processId := by
  intro once
  have minted := (once .plain
    [.runProcess resubmittedBody, .runProcess resubmittedBody]
    "p-1").minted
  exact absurd minted (by decide +kernel)

end Session

end ArosParadigm
