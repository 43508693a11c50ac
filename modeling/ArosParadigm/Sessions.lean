import ArosParadigm.Books

/-!
# Sessions

Requests answered one after another from an empty store. Every request is one
step of the books, and what holds of every session is proved from these steps.

In a session every call on the store succeeds. The tables of the model take
every key, while the source's columns hold integer epochs and identifiers of up
to 128 characters: a session is about such requests only, and what a rejected
row leaves behind is the subject of the modules on store faults.
-/

namespace ArosParadigm

open Await

/-- An admissible body with registered nodes whose process has no verdict or
a positive one: it will be settled. -/
def Settles (world : World) (body : RunProcessDto) : Prop :=
  body.admissible = true ∧
    Orchestrator.Registered world body.nodeIds ∧
    ∀ row ∈ world.verdicts.find? body.processId, row.verified = 1

instance (world : World) (body : RunProcessDto) :
    Decidable (Settles world body) :=
  inferInstanceAs (Decidable (_ ∧ _ ∧ _))

/-- What holds between requests. -/
structure Sound (env : Environment) (world : World) : Prop where
  intact : world.Intact env
  settled : world.Settled
  netted : world.books.Netted

/-- What a request does to the books: nothing, one settlement, or one
distribution. -/
inductive BookStep (env : Environment) (world : World) :
    Request → Await.Outcome ServiceError Response × World → Prop
  | idle {request answer}
      (unsettled : ∀ body, request = .runProcess body →
        ¬ Settles world body)
      (same : answer.2.books = world.books)
      (free : feeReturned answer.1 = 0) :
      BookStep env world request answer
  | settled {body answer} (verdict : PotVerdict) (startTime : ℕ)
      (settles : Settles world body)
      (subject : verdict.processId = body.processId)
      (verified : verdict.verified = 1)
      (changed : answer.2.books =
        world.books.settle body verdict startTime)
      (fee : feeReturned answer.1 = Commission.computeFee body.amount) :
      BookStep env world (.runProcess body) answer
  | distributed {epoch answer} (row : Epoch)
      (weights : Commission.Weights) (endTime : ℕ)
      (found : world.epochs.find? epoch = some row)
      (isOpen : row.status = .opened)
      (changed : answer.2.books = world.books.distribute row epoch
        weights (Commission.nodeWeight world) endTime)
      (free : feeReturned answer.1 = 0) :
      BookStep env world (.finalizeEpoch epoch) answer

namespace Request

variable {env : Environment} {world : World}

theorem books_reportedWorld {epoch : ℚ}
    {result : FinalizeResult} (netted : world.books.Netted) :
    (Orchestrator.reportedWorld env world epoch result).books =
      world.books := by
  have logged : (world.log env "commission_distribution"
      "token_management" (Orchestrator.distributionText env epoch
        result)).books = world.books :=
    World.books_log _ _ _ (by decide)
  rw [Orchestrator.reportedWorld,
    Orchestrator.books_observedWorld (by rwa [logged]), logged]

theorem bookStep (sound : Sound env world) (request : Request) :
    BookStep env world request (request.handle env world) ∧
      (request.handle env world).2.Settled := by
  have answered : Answers env world request _ _ :=
    request.answers sound.settled
  generalize request.handle env world = answer at answered ⊢
  obtain ⟨outcome, after⟩ := answer
  simp only at answered
  cases answered with
  | @inadmissible body supplyAfter reserveIndex inadmissible =>
      refine ⟨.idle ?_ (Orchestrator.books_inadmissibleWorld body) ?_,
        World.settled_withLedger _ _⟩
      · rintro _ ⟨⟩ settles
        exact absurd settles.1 (by simp [inadmissible])
      · simp [feeReturned]
  | unregistered id admissible unregistered =>
      refine ⟨.idle ?_ (Orchestrator.books_requestedWorld env world _)
        rfl, (Orchestrator.settled_executedWorld _ _).mpr sound.settled⟩
      rintro _ ⟨⟩ settles
      exact unregistered settles.2.1
  | @unverified body supplyAfter reserveIndex admissible registered
      unverified =>
      have stored :=
        Orchestrator.stored_of_unverified sound.intact unverified
      have judged : (Orchestrator.verdictWorld env world body).books =
          world.books := by
        rw [Orchestrator.books_verdictWorld,
          Keyed.Table.save_of_find? stored]
        rfl
      refine ⟨.idle ?_ ?_ ?_, Orchestrator.settled_observedWorld⟩
      · rintro _ ⟨⟩ settles
        exact unverified (settles.2.2 _ stored)
      · refine (Orchestrator.books_rejectedWorld _ ?_).trans judged
        rw [judged]
        exact sound.netted
      · simp [feeReturned]
  | @verified body supplyAfter reserveIndex admissible registered
      verified =>
      obtain ⟨startTime, changed⟩ :=
        Orchestrator.books_settledWorld env body sound.netted
          (Orchestrator.bodyNodes env world body)
      refine ⟨.settled _ startTime ⟨admissible, registered, ?_⟩
        (Pot.verdictRow_processId env _ _) verified changed ?_,
        Orchestrator.settled_observedWorld⟩
      · intro row stored
        rwa [← Orchestrator.verdictOn_of_stored env stored]
      · simp [feeReturned]
  | missing missing =>
      exact ⟨.idle (by simp) rfl rfl, sound.settled⟩
  | closed row found closed =>
      exact ⟨.idle (by simp) (books_reportedWorld sound.netted) rfl,
        Orchestrator.settled_observedWorld⟩
  | unpayable row id found isOpen weighed =>
      exact ⟨.idle (by simp) rfl rfl, sound.settled⟩
  | @distributed epoch row weights found isOpen weighed =>
      obtain ⟨endTime, changed⟩ :=
        Commission.books_finalizedWorld env world row epoch weights
      have netted : (Commission.finalizedWorld env world row epoch
          weights).books.Netted := by
        rw [changed]
        exact sound.netted
      exact ⟨.distributed row weights endTime found isOpen
        ((books_reportedWorld netted).trans changed) rfl,
        Orchestrator.settled_observedWorld⟩
  | metrics result =>
      have same : (Release.phasedWorld
          (world.withLedger world.ledgerRow)).books = world.books := by
        unfold Release.phasedWorld
        split <;> rfl
      refine ⟨.idle (by simp) same rfl, ?_⟩
      unfold Release.phasedWorld
      split
      · exact World.settled_withLedger _ _
      · exact (World.settled_savePhase _ _).mpr
          (World.settled_withLedger _ _)
  | process result =>
      exact ⟨.idle (by simp) rfl rfl, sound.settled⟩

end Request

theorem sound_initial {env : Environment} : Sound env World.initial :=
  ⟨World.intact_initial, World.settled_initial, rfl⟩

theorem Sound.handle {env : Environment} {world : World}
    (sound : Sound env world) (request : Request) :
    Sound env (request.handle env world).2 := by
  obtain ⟨step, settled⟩ := request.bookStep sound
  refine ⟨sound.intact.run _, settled, ?_⟩
  cases step with
  | idle unsettled same free =>
      rw [same]
      exact sound.netted
  | settled verdict startTime settles subject verified changed fee =>
      rw [changed]
      exact congrArg (· + _) sound.netted
  | distributed row weights endTime found isOpen changed free =>
      rw [changed]
      exact sound.netted

/-! ## Runs of requests -/

structure Answered where
  request : Request
  before : World
  outcome : Outcome ServiceError Response
  after : World

/-- The requests answered so far, and the world they have led to. -/
structure Session where
  log : List Answered
  world : World

namespace Session

variable {env : Environment}

/-- No request has been answered. -/
def start : Session :=
  ⟨[], World.initial⟩

/-- Answer one more request. -/
def serve (env : Environment) (session : Session) (request : Request) :
    Session :=
  let answer := request.handle env session.world
  ⟨session.log ++ [⟨request, session.world, answer.1, answer.2⟩],
    answer.2⟩

/-- The session that answers the given requests. -/
def of (env : Environment) (requests : List Request) : Session :=
  requests.foldl (serve env) start

/-- Every request was permitted in the world that it was answered in. -/
def Meets (permitted : World → Request → Prop) (session : Session) :
    Prop :=
  ∀ entry ∈ session.log, permitted entry.before entry.request

theorem of_append_singleton (requests : List Request)
    (request : Request) :
    of env (requests ++ [request]) = serve env (of env requests) request :=
  List.foldl_append

theorem meets_serve {permitted : World → Request → Prop}
    {session : Session} {request : Request} :
    (serve env session request).Meets permitted ↔
      session.Meets permitted ∧ permitted session.world request := by
  simp only [Meets, serve, List.mem_append, List.mem_singleton]
  constructor
  · intro meets
    exact ⟨fun entry member => meets entry (Or.inl member),
      meets _ (Or.inr rfl)⟩
  · rintro ⟨earlier, last⟩ entry (member | rfl)
    · exact earlier entry member
    · exact last

theorem induction {motive : Session → Prop} (atStart : motive start)
    (step : ∀ session request, Sound env session.world →
      motive session → motive (serve env session request))
    (requests : List Request) : motive (of env requests) := by
  have both : Sound env (of env requests).world ∧
      motive (of env requests) := by
    induction requests using List.reverseRecOn with
    | nil =>
        exact ⟨sound_initial, atStart⟩
    | append_singleton requests request inductionHypothesis =>
        obtain ⟨sound, holds⟩ := inductionHypothesis
        rw [of_append_singleton]
        exact ⟨sound.handle request, step _ _ sound holds⟩
  exact both.2

variable (env) in
theorem sound (requests : List Request) :
    Sound env (of env requests).world := by
  apply induction (motive := fun session => Sound env session.world)
    sound_initial
  intro session request sound _
  exact sound.handle request

end Session

/-- What the field adds up to over the events of a type. -/
def sumOf (eventType : String) (field : Payload → Option ℚ)
    (events : List (String × Payload)) : ℚ :=
  ((events.filter fun event => event.1 = eventType).map fun event =>
    (field event.2).getD 0).sum

@[simp]
theorem sumOf_append (eventType : String) (field : Payload → Option ℚ)
    (first second : List (String × Payload)) :
    sumOf eventType field (first ++ second) =
      sumOf eventType field first + sumOf eventType field second := by
  simp [sumOf]

theorem sumOf_receipts (entries : List DistributionEntry)
    (weight : String → ℚ) :
    sumOf "node.payment.received" Payload.amount?
        (entries.map fun entry => ("node.payment.received",
          .paymentReceived entry.nodeId entry.amount
            (weight entry.nodeId))) =
      (entries.map DistributionEntry.amount).sum := by
  simp [sumOf, List.filter_map, Function.comp_def, Payload.amount?]

theorem sumOf_receipts_of_ne (eventType : String)
    (other : eventType ≠ "node.payment.received")
    (field : Payload → Option ℚ) (entries : List DistributionEntry)
    (weight : String → ℚ) :
    sumOf eventType field
        (entries.map fun entry => ("node.payment.received",
          .paymentReceived entry.nodeId entry.amount
            (weight entry.nodeId))) = 0 := by
  simp [sumOf, List.filter_map, Function.comp_def, other.symm]

theorem sumOf_books (world : World) {eventType : String}
    (isValue : eventType ∈ valueTypes) (field : Payload → Option ℚ) :
    sumOf eventType field world.books.value =
      sumOf eventType field world.events := by
  have same : ∀ event ∈ world.events,
      (event.1 = eventType ∧ event.1 ∈ valueTypes ↔
        event.1 = eventType) := by
    intro event _
    exact and_iff_left_of_imp fun equal => equal ▸ isValue
  simp only [sumOf, World.books, List.filter_filter]
  congr 2
  apply List.filter_congr
  intro event member
  simpa using same event member

end ArosParadigm
