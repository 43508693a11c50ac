import ArosParadigm.Footprint
import ArosParadigm.Requests
import ArosParadigm.StoreFaults

/-!
# The live process part

A verified process mints its part, accrues its fee and burns the part again,
each in its own call on the store. When a call throws, a live part is left
behind exactly if the mint has reached the row of the ledger and the burn has
not reached the chain.
-/

namespace ArosParadigm.ProcessPart

open Await

/-- The snapshot records the mint of an amount for a process. -/
def IsMint (processId : String) (amount : ℚ) (snapshot : Snapshot) :
    Bool :=
  snapshot.eventType = "emission.minted" &&
    (snapshot.payload.processId? = some processId &&
      snapshot.payload.minted? = some amount)

/-- The snapshot records the burn of an amount for a process. -/
def IsBurn (processId : String) (amount : ℚ) (snapshot : Snapshot) :
    Bool :=
  snapshot.eventType = "emission.burned" &&
    (snapshot.payload.processId? = some processId &&
      snapshot.payload.burned? = some amount)

/-- The mints of an amount for a process. -/
def mints (world : World) (processId : String) (amount : ℚ) : ℕ :=
  world.history.countP (IsMint processId amount)

/-- The burns of an amount for a process. -/
def burns (world : World) (processId : String) (amount : ℚ) : ℕ :=
  world.history.countP (IsBurn processId amount)

/-- The row is balanced, and the mints of an amount for a process have as
many burns. -/
structure NoLivePart (world : World) : Prop where
  balanced : world.ledgerRow.processMinted = world.ledgerRow.processBurned
  matched : ∀ processId amount,
    mints world processId amount ≤ burns world processId amount

/-- A mint has reached the row, and no burn has reached the chain. -/
def MintOpen (trace : List Call) : Prop :=
  (∃ row, Call.saveLedger row ∈ trace ∧
      row.processMinted ≠ row.processBurned) ∧
    ∀ eventType processId amount,
      Call.append eventType (.emissionBurned processId amount) ∉ trace

/-- The states of runs in which no process throws between its mint and its
burn. -/
inductive Reached (env : Environment) : World → Prop
  | initial : Reached env .initial
  | restart {world : World} (reached : Reached env world) :
      Reached env world.restart
  | request {world after : World} {request : Request}
      {trace : List Call} {outcome : Outcome ServiceError Response}
      (reached : Reached env world)
      (attempt : Attempt env (request.handler env) world trace outcome
        after)
      (closed : ∀ body, request = .runProcess body → ¬ MintOpen trace) :
      Reached env after

/-- The two tallies of process parts and the counts of their snapshots. -/
structure Standing where
  minted : ℚ
  burned : ℚ
  mints : String → ℚ → ℕ
  burns : String → ℚ → ℕ

def standing (world : World) : Standing where
  minted := world.ledgerRow.processMinted
  burned := world.ledgerRow.processBurned
  mints := mints world
  burns := burns world

/-- The call leaves a standing as it is. -/
def Still (current : Standing) : Call → Prop
  | .append _ (.emissionMinted ..) => False
  | .append _ (.emissionBurned ..) => False
  | .saveLedger row =>
      row.processMinted = current.minted ∧
        row.processBurned = current.burned
  | _ => True

/-- Every answered call of the method leaves the standing as it is. -/
def Keeps (env : Environment) (result : Type) (program : Service result) :
    Prop :=
  ∀ world trace outcome after,
    Attempt env program world trace outcome after →
      ∀ request ∈ trace, Still (standing world) request

section Keeping

variable {env : Environment} {world after : World} {trace : List Call}

theorem standing_append {eventType : String} {payload : Payload}
    (noMint : ∀ processId amount,
      payload ≠ .emissionMinted processId amount)
    (noBurn : ∀ processId amount,
      payload ≠ .emissionBurned processId amount) :
    standing (world.append env eventType payload) = standing world := by
  have noMinted : payload.minted? = none := by
    cases payload <;> first
      | rfl
      | exact absurd rfl (noMint _ _)
  have noBurned : payload.burned? = none := by
    cases payload <;> first
      | rfl
      | exact absurd rfl (noBurn _ _)
  have sameMints : mints (world.append env eventType payload) =
      mints world := by
    funext processId amount
    simp [mints, World.history_append, IsMint, noMinted]
  have sameBurns : burns (world.append env eventType payload) =
      burns world := by
    funext processId amount
    simp [burns, World.history_append, IsBurn, noBurned]
  rw [standing, sameMints, sameBurns]
  rfl

theorem standing_of_still {request : Call} {current : Standing}
    (still : Still current request) {before : World}
    {reply : request.Reply}
    (answered : machine env request before = some (reply, after))
    (isCurrent : standing before = current) :
    standing after = current := by
  subst isCurrent
  cases request with
  | append eventType payload =>
      cases answered
      apply standing_append
      · rintro processId amount rfl
        exact still
      · rintro processId amount rfl
        exact still
  | saveLedger row =>
      cases answered
      obtain ⟨minted, burned⟩ := still
      exact congrArg₂ (fun first second =>
        Standing.mk first second (mints before) (burns before))
        minted burned
  | claimInitialization =>
      obtain ⟨_, rfl⟩ := eq_of_claimInitialization answered
      rfl
  | awaitInitialization =>
      obtain rfl := eq_of_awaitInitialization answered
      rfl
  | _ =>
      cases answered
      rfl

theorem Keeps.standing_eq {result : Type} {program : Service result}
    (keeps : Keeps env result program)
    {outcome : Outcome ServiceError result}
    (attempt : Attempt env program world trace outcome after) :
    standing after = standing world := by
  have still := keeps _ _ _ _ attempt
  have broke : ∀ request before next, Breaks request before next →
      standing before = standing world →
        standing next = standing world := by
    intro request before next breaks same
    rcases breaks.eq_or_drawn with rfl | rfl | rfl <;> exact same
  have kept := attempt.invariant_of_trace
    (fun request member before reply next answered =>
      standing_of_still (still request member) answered) broke rfl
  exact kept

theorem keeps_bystander {result : Type} {program : Service result}
    (strict : Strict Bystander program) : Keeps env result program := by
  intro world trace outcome after attempt request member
  have bystander :=
    FaultyRun.permitted_of_mem strict.uses attempt request member
  cases request with
  | append eventType payload =>
      cases payload <;> trivial
  | saveLedger row =>
      exact bystander.elim
  | _ =>
      trivial

theorem keeps_bind {first second : Type} {program : Service first}
    {continuation : first → Service second}
    (early : Keeps env first program)
    (late : ∀ value, Keeps env second (continuation value)) :
    Keeps env second (program >>= continuation) := by
  intro world trace outcome after attempt
  rcases attempt.bind_cases with
    ⟨value, between, front, rest, opened, onward, rfl⟩ |
    ⟨reason, opened, _⟩ | ⟨opened, _⟩
  · have same := early.standing_eq opened
    intro request member
    rcases List.mem_append.mp member with inFront | inRest
    · exact early _ _ _ _ opened request inFront
    · rw [← same]
      exact late value _ _ _ _ onward request inRest
  · exact early _ _ _ _ opened
  · exact early _ _ _ _ opened

theorem keeps_rescue {result : Type} {program : Service result}
    {handler : ServiceError → Service result}
    (early : Keeps env result program)
    (late : ∀ reason, Keeps env result (handler reason)) :
    Keeps env result (program.rescue handler) := by
  intro world trace outcome after attempt
  rcases attempt.rescue_cases with ⟨opened, _⟩ |
    ⟨reason, between, front, rest, opened, onward, rfl⟩
  · exact early _ _ _ _ opened
  · have same := early.standing_eq opened
    intro request member
    rcases List.mem_append.mp member with inFront | inRest
    · exact early _ _ _ _ opened request inFront
    · rw [← same]
      exact late reason _ _ _ _ onward request inRest

private theorem keeps_createLedger :
    Keeps env Unit ArosCoin.createLedger := by
  intro world trace outcome after attempt
  have settles : ∀ promise,
      Keeps env Unit (ask (.settleInitialization promise)) :=
    fun _ => keeps_bystander (Bystander.strict_ask trivial)
  have found : machine env .findLedger world =
      some (world.ledger, world) :=
    rfl
  rcases Attempt.ask_bind_cases found attempt with
    ⟨rest, checked, rfl⟩ | ⟨_, rfl, _⟩
  swap
  · exact List.forall_mem_nil _
  cases existing : world.ledger with
  | some row =>
      rw [existing] at checked
      have still := settles _ _ _ _ _ checked
      exact List.forall_mem_cons.mpr ⟨trivial, still⟩
  | none =>
      rw [existing] at checked
      have zero : Still (standing world) (.saveLedger .zero) := by
        simp [Still, standing, World.ledgerRow, existing,
          ArosCoinLedger.zero]
      have saved : machine env (.saveLedger .zero) world =
          some ((), world.saveLedger .zero) :=
        rfl
      rcases Attempt.ask_bind_cases saved checked with
        ⟨last, settled, rfl⟩ | ⟨_, rfl, _⟩
      · have still := settles _ _ _ _ _ settled
        rw [standing_of_still zero saved rfl] at still
        exact List.forall_mem_cons.mpr
          ⟨trivial, List.forall_mem_cons.mpr ⟨zero, still⟩⟩
      · exact List.forall_mem_singleton.mpr trivial

theorem keeps_ledger : Keeps env ArosCoinLedger ArosCoin.ledger := by
  have kept : Keeps env Unit ArosCoin.promiseKept := by
    apply keeps_bystander
    refine strict_bind (Bystander.strict_ask trivial) fun promise => ?_
    cases promise <;> trivial
  have ensured : Keeps env Unit ArosCoin.ensureLedger := by
    rw [ArosCoin.ensureLedger_eq]
    refine keeps_bind (keeps_bystander (Bystander.strict_ask trivial))
      fun claimed => ?_
    split
    · refine keeps_bind (keeps_rescue keeps_createLedger fun _ => ?_)
        fun _ => kept
      exact keeps_bystander (Bystander.strict_ask trivial)
    · exact kept
  refine keeps_bind ensured fun _ => keeps_bystander ?_
  refine strict_bind (Bystander.strict_ask trivial) fun row => ?_
  cases row <;> trivial

variable (env) in
theorem carries_keeps : Carries (Keeps env) where
  bind := keeps_bind
  bystander := keeps_bystander
  ledger := keeps_ledger

/-- A read of the row returns the row that is stored. -/
theorem ledger_returned {row : ArosCoinLedger}
    (attempt : Attempt env ArosCoin.ledger world trace (.returned row)
      after) : after.ledger = some row := by
  rcases attempt.bind_cases with
    ⟨_, between, _, _, _, read, _⟩ | ⟨_, _, isOutcome⟩ | ⟨_, isOutcome⟩
  · have found : machine env .findLedger between =
        some (between.ledger, between) :=
      rfl
    rcases Attempt.ask_bind_cases found read with
      ⟨_, checked, _⟩ | ⟨_, _, isOutcome⟩
    · cases stored : between.ledger with
      | none =>
          rw [stored] at checked
          cases checked
      | some current =>
          rw [stored] at checked
          cases checked
          exact stored
    · cases isOutcome
  · cases isOutcome
  · cases isOutcome

/-- An update of the row saves nothing, or it saves the row that is
stored. -/
theorem update_cases {update : ArosCoinLedger → ArosCoinLedger}
    {outcome : Outcome ServiceError Unit}
    (attempt : Attempt env (ArosCoin.ledger >>= fun row =>
      ask (.saveLedger (update row))) world trace outcome after) :
    ((∀ request ∈ trace, Still (standing world) request) ∧
        standing after = standing world ∧
        ∀ value, outcome ≠ .returned value) ∨
      ∃ row reads next, standing next = standing world ∧
        next.ledger = some row ∧
        (∀ request ∈ reads, Still (standing world) request) ∧
        after = next.saveLedger (update row) ∧
        trace = reads ++ [.saveLedger (update row)] ∧
        outcome = .returned () := by
  rcases attempt.bind_cases with
    ⟨row, between, front, rest, read, saved, rfl⟩ |
    ⟨reason, read, rfl⟩ | ⟨read, rfl⟩
  · have same := keeps_ledger.standing_eq read
    have stored := ledger_returned read
    have still := keeps_ledger _ _ _ _ read
    rcases Attempt.ask_cases rfl saved with
      ⟨rfl, rfl, isOutcome⟩ | ⟨breaks, rfl, isOutcome⟩
    · exact Or.inr ⟨row, front, between, same, stored, still, rfl, rfl,
        isOutcome⟩
    · refine Or.inl ⟨?_, ?_, ?_⟩
      · rwa [List.append_nil]
      · rcases breaks.eq_or_tick id with rfl | rfl
        · exact same
        · exact same
      · rw [isOutcome]
        exact nofun
  · exact Or.inl ⟨keeps_ledger _ _ _ _ read,
      keeps_ledger.standing_eq read, nofun⟩
  · exact Or.inl ⟨keeps_ledger _ _ _ _ read,
      keeps_ledger.standing_eq read, nofun⟩

theorem keeps_recordEarned (amount : ℚ) :
    Keeps env Unit (ArosCoin.recordEarned amount) := by
  intro world trace outcome after attempt
  rcases update_cases attempt with ⟨still, _⟩ |
    ⟨row, reads, next, same, stored, still, _, rfl, _⟩
  · exact still
  · refine List.forall_mem_append.mpr ⟨still, ?_⟩
    refine List.forall_mem_singleton.mpr ?_
    rw [← same]
    simp [Still, standing, World.ledgerRow, stored]

theorem keeps_ask (request : Call)
    (still : ∀ current, Still current request) :
    Keeps env request.Reply (ask request) := by
  intro world trace outcome after attempt
  rcases attempt.perform_cases with
    ⟨_, _, rfl, _⟩ | ⟨_, rfl, _⟩ | ⟨_, _, rfl, _⟩
  · exact List.forall_mem_singleton.mpr (still _)
  · exact List.forall_mem_nil _
  · exact List.forall_mem_nil _

theorem keeps_settlement (eventType : String) (payload : Payload)
    (settlement : payload.IsSettlement) :
    Keeps env Snapshot (ask (.append eventType payload)) := by
  apply keeps_ask (.append eventType payload)
  intro current
  cases payload <;> trivial

variable (env) in
theorem keeps_verify (processId : String) :
    Keeps env VerifyResult (Pot.verify env processId) := by
  refine keeps_bind (keeps_bystander (Bystander.strict_ask trivial))
    fun found => ?_
  cases found with
  | some existing =>
      exact (carries_keeps env).pure _
  | none =>
      refine keeps_bind (keeps_bystander (Bystander.strict_ask trivial))
        fun captured => ?_
      refine keeps_bind (keeps_bystander
        (strict_bind (Bystander.strict_ask trivial) fun _ => trivial))
        fun chain => ?_
      refine keeps_bind (keeps_ask (.append ..) fun _ => trivial)
        fun snapshot => ?_
      refine keeps_bind (keeps_bystander (Bystander.strict_ask trivial))
        fun timestamp => ?_
      refine keeps_bind (keeps_ask (.saveVerdict _) fun _ => trivial)
        fun _ => ?_
      exact (carries_keeps env).pure _

end Keeping

def Standing.minting (current : Standing) (amount : ℚ) : Standing :=
  { current with minted := current.minted + amount }

def Standing.recordingMint (current : Standing) (processId : String)
    (amount : ℚ) : Standing :=
  { current with
    mints := fun subject volume => current.mints subject volume +
      if processId = subject ∧ amount = volume then 1 else 0 }

def Standing.burning (current : Standing) (amount : ℚ) : Standing :=
  { current with burned := current.burned + amount }

def Standing.recordingBurn (current : Standing) (processId : String)
    (amount : ℚ) : Standing :=
  { current with
    burns := fun subject volume => current.burns subject volume +
      if processId = subject ∧ amount = volume then 1 else 0 }

/-- No burn has reached the chain. -/
def NoBurn (trace : List Call) : Prop :=
  ∀ eventType processId amount,
    Call.append eventType (.emissionBurned processId amount) ∉ trace

section Parts

variable {env : Environment} {world after : World} {trace : List Call}
variable {processId : String} {amount : ℚ}

theorem noBurn_of_still {current : Standing}
    (still : ∀ request ∈ trace, Still current request) : NoBurn trace :=
  fun _ _ _ member => still _ member

theorem NoBurn.append {front rest : List Call} (early : NoBurn front)
    (late : NoBurn rest) : NoBurn (front ++ rest) := by
  intro eventType processId amount member
  rcases List.mem_append.mp member with inFront | inRest
  · exact early _ _ _ inFront
  · exact late _ _ _ inRest

theorem standing_minting {row : ArosCoinLedger}
    (stored : world.ledger = some row) (amount : ℚ) :
    standing (world.saveLedger
        { row with processMinted := row.processMinted + amount }) =
      (standing world).minting amount := by
  have isRow : world.ledgerRow = row := by
    simp [World.ledgerRow, stored]
  simp only [standing, Standing.minting, isRow]
  rfl

theorem standing_burning {row : ArosCoinLedger}
    (stored : world.ledger = some row) (amount : ℚ) :
    standing (world.saveLedger
        { row with processBurned := row.processBurned + amount }) =
      (standing world).burning amount := by
  have isRow : world.ledgerRow = row := by
    simp [World.ledgerRow, stored]
  simp only [standing, Standing.burning, isRow]
  rfl

theorem standing_recordingMint :
    standing (world.append env "emission.minted"
        (.emissionMinted processId amount)) =
      (standing world).recordingMint processId amount := by
  have counted : mints (world.append env "emission.minted"
      (.emissionMinted processId amount)) = fun subject volume =>
        mints world subject volume +
          if processId = subject ∧ amount = volume then 1 else 0 := by
    funext subject volume
    simp [mints, World.history_append, List.countP_append,
      List.countP_singleton, IsMint, Payload.processId?, Payload.minted?]
  have same : burns (world.append env "emission.minted"
      (.emissionMinted processId amount)) = burns world := by
    funext subject volume
    simp [burns, World.history_append, IsBurn, Payload.burned?]
  rw [standing, counted, same]
  rfl

theorem standing_recordingBurn :
    standing (world.append env "emission.burned"
        (.emissionBurned processId amount)) =
      (standing world).recordingBurn processId amount := by
  have counted : burns (world.append env "emission.burned"
      (.emissionBurned processId amount)) = fun subject volume =>
        burns world subject volume +
          if processId = subject ∧ amount = volume then 1 else 0 := by
    funext subject volume
    simp [burns, World.history_append, List.countP_append,
      List.countP_singleton, IsBurn, Payload.processId?, Payload.burned?]
  have same : mints (world.append env "emission.burned"
      (.emissionBurned processId amount)) = mints world := by
    funext subject volume
    simp [mints, World.history_append, IsMint, Payload.minted?]
  rw [standing, counted, same]
  rfl

/-- An update of the row and the append of its snapshot: nothing is saved, or
the append throws, or both are done. -/
theorem part_cases {update : ArosCoinLedger → ArosCoinLedger}
    {eventType : String} {payload : Payload} {value : ℚ}
    {outcome : Outcome ServiceError ℚ}
    (attempt : Attempt env
      ((ArosCoin.ledger >>= fun row => ask (.saveLedger (update row))) >>=
        fun _ => ask (.append eventType payload) >>= fun _ => pure value)
      world trace outcome after) :
    ((∀ request ∈ trace, Still (standing world) request) ∧
        standing after = standing world ∧
        ∀ answer, outcome ≠ .returned answer) ∨
      ∃ row reads next, standing next = standing world ∧
        next.ledger = some row ∧
        (∀ request ∈ reads, Still (standing world) request) ∧
        (trace = reads ++ [.saveLedger (update row)] ∧
            standing after = standing (next.saveLedger (update row)) ∧
            (∀ answer, outcome ≠ .returned answer) ∨
          trace = reads ++
              [.saveLedger (update row), .append eventType payload] ∧
            after = (next.saveLedger (update row)).append env eventType
              payload ∧ outcome = .returned value) := by
  rcases attempt.bind_cases with
    ⟨_, between, front, last, updated, onward, rfl⟩ |
    ⟨reason, updated, rfl⟩ | ⟨updated, rfl⟩
  · rcases update_cases updated with ⟨_, _, never⟩ |
      ⟨row, reads, next, same, stored, still, rfl, rfl, _⟩
    · exact absurd rfl (never _)
    have appended : machine env (.append eventType payload)
        (next.saveLedger (update row)) =
          some (World.nextSnapshot env _ eventType payload,
            (next.saveLedger (update row)).append env eventType payload) :=
      rfl
    refine Or.inr ⟨row, reads, next, same, stored, still, ?_⟩
    rcases Attempt.ask_bind_cases appended onward with
      ⟨rest, finished, rfl⟩ | ⟨breaks, rfl, rfl⟩
    · cases finished
      exact Or.inr ⟨by simp, rfl, rfl⟩
    · refine Or.inl ⟨by simp, ?_, nofun⟩
      rcases breaks.eq_or_tick id with rfl | rfl <;> rfl
  · rcases update_cases updated with ⟨still, same, _⟩ |
      ⟨_, _, _, _, _, _, _, _, isOutcome⟩
    · exact Or.inl ⟨still, same, nofun⟩
    · cases isOutcome
  · rcases update_cases updated with ⟨still, same, _⟩ |
      ⟨_, _, _, _, _, _, _, _, isOutcome⟩
    · exact Or.inl ⟨still, same, nofun⟩
    · cases isOutcome

/-- A mint has reached the row. -/
def Raised (current : Standing) (amount : ℚ) (trace : List Call) : Prop :=
  ∃ row, Call.saveLedger row ∈ trace ∧
    row.processMinted = current.minted + amount ∧
    row.processBurned = current.burned

/-- A mint changes nothing, or it reaches the row, or it reaches the row and
the chain. -/
theorem mint_cases {outcome : Outcome ServiceError ℚ}
    (attempt : Attempt env (Emission.mint processId amount) world trace
      outcome after) :
    ((∀ request ∈ trace, Still (standing world) request) ∧
        standing after = standing world ∧
        ∀ answer, outcome ≠ .returned answer) ∨
      NoBurn trace ∧ Raised (standing world) amount trace ∧
        (standing after = (standing world).minting amount ∧
            (∀ answer, outcome ≠ .returned answer) ∨
          standing after = ((standing world).minting amount).recordingMint
              processId amount ∧ outcome = .returned amount) := by
  have found : machine env (.findVerdict processId) world =
      some (world.verdicts.find? processId, world) :=
    rfl
  rcases Attempt.ask_bind_cases found attempt with
    ⟨rest, checked, rfl⟩ | ⟨breaks, rfl, rfl⟩
  swap
  · have same : standing after = standing world := by
      rcases breaks.eq_or_tick id with rfl | rfl <;> rfl
    refine Or.inl ⟨List.forall_mem_nil _, same, ?_⟩
    intro answer returned
    cases returned
  split at checked
  swap
  · cases checked
    refine Or.inl ⟨List.forall_mem_singleton.mpr trivial, rfl, ?_⟩
    intro answer returned
    cases returned
  rcases part_cases checked with ⟨still, same, never⟩ |
    ⟨row, reads, next, same, stored, still, parts⟩
  · exact Or.inl ⟨List.forall_mem_cons.mpr ⟨trivial, still⟩, same, never⟩
  have raised := standing_minting stored amount
  have isRow : row.processMinted = (standing world).minted ∧
      row.processBurned = (standing world).burned := by
    rw [← same]
    simp [standing, World.ledgerRow, stored]
  have quiet := noBurn_of_still still
  rw [same] at raised
  have check : NoBurn [Call.findVerdict processId] := by
    simp [NoBurn]
  refine Or.inr ?_
  rcases parts with ⟨rfl, saved, never⟩ | ⟨rfl, rfl, rfl⟩
  · refine ⟨check.append (quiet.append (by simp [NoBurn])), ?_,
      Or.inl ⟨saved.trans raised, never⟩⟩
    exact ⟨{ row with processMinted := row.processMinted + amount },
      by simp, by rw [← isRow.1], isRow.2⟩
  · refine ⟨check.append (quiet.append (by simp [NoBurn])), ?_,
      Or.inr ⟨?_, rfl⟩⟩
    · exact ⟨{ row with processMinted := row.processMinted + amount },
        by simp, by rw [← isRow.1], isRow.2⟩
    · rw [standing_recordingMint, raised]

/-- A burn changes nothing, or it reaches the row, or it reaches the row and
the chain. -/
theorem burn_cases {outcome : Outcome ServiceError ℚ}
    (attempt : Attempt env (Emission.burn processId amount) world trace
      outcome after) :
    NoBurn trace ∧ (∀ answer, outcome ≠ .returned answer) ∧
        (standing after = standing world ∨
          standing after = (standing world).burning amount) ∨
      ¬ NoBurn trace ∧ outcome = .returned amount ∧
        standing after =
          ((standing world).burning amount).recordingBurn processId
            amount := by
  rcases part_cases attempt with ⟨still, same, never⟩ |
    ⟨row, reads, next, same, stored, still, parts⟩
  · exact Or.inl ⟨noBurn_of_still still, never, Or.inl same⟩
  have lowered := standing_burning stored amount
  rw [same] at lowered
  rcases parts with ⟨rfl, saved, never⟩ | ⟨rfl, rfl, rfl⟩
  · exact Or.inl ⟨(noBurn_of_still still).append (by simp [NoBurn]),
      never, Or.inr (saved.trans lowered)⟩
  · refine Or.inr ⟨?_, rfl, ?_⟩
    · intro quiet
      exact quiet "emission.burned" processId amount (by simp)
    · rw [standing_recordingBurn, lowered]

/-- The row is balanced, and there are as many mints as burns. -/
def Standing.Closed (current : Standing) : Prop :=
  current.minted = current.burned ∧ current.mints = current.burns

/-- The call leaves no mint open and the parts closed, or it does not return
and leaves a mint open and a live part behind. -/
def Decided {result : Type} (trace : List Call)
    (outcome : Outcome ServiceError result) (after : World) : Prop :=
  ¬ MintOpen trace ∧ (standing after).Closed ∨
    MintOpen trace ∧ ¬ NoLivePart after ∧
      ∀ answer, outcome ≠ .returned answer

/-- Calls that leave closed parts as they are do not matter. -/
theorem mintOpen_append_iff {current : Standing} (closed : current.Closed)
    {front rest : List Call}
    (still : ∀ request ∈ front, Still current request) :
    MintOpen (front ++ rest) ↔ MintOpen rest := by
  have quiet := noBurn_of_still still
  constructor
  · rintro ⟨⟨row, saved, raised⟩, unburned⟩
    refine ⟨⟨row, ?_, raised⟩, ?_⟩
    · rcases List.mem_append.mp saved with inFront | inRest
      · obtain ⟨minted, burned⟩ := still _ inFront
        exact absurd (minted.trans (closed.1.trans burned.symm)) raised
      · exact inRest
    · intro eventType processId amount member
      exact unburned _ _ _ (List.mem_append_right front member)
  · rintro ⟨⟨row, saved, raised⟩, unburned⟩
    exact ⟨⟨row, List.mem_append_right front saved, raised⟩,
      quiet.append unburned⟩

theorem Decided.closed {result : Type} {trace : List Call}
    {outcome : Outcome ServiceError result}
    (decided : Decided trace outcome after) (notOpen : ¬ MintOpen trace) :
    (standing after).Closed := by
  rcases decided with ⟨_, closed⟩ | ⟨mintOpen, _⟩
  · exact closed
  · exact absurd mintOpen notOpen

/-- A call that returns has burned what it has minted. -/
theorem Decided.not_mintOpen {result : Type} {trace : List Call}
    {answer : result} (decided : Decided trace (.returned answer) after) :
    ¬ MintOpen trace := by
  rcases decided with ⟨notOpen, _⟩ | ⟨_, _, unanswered⟩
  · exact notOpen
  · exact absurd rfl (unanswered answer)

theorem Decided.prepend {result : Type}
    {outcome : Outcome ServiceError result} {current : Standing}
    (closed : current.Closed) {front rest : List Call}
    (still : ∀ request ∈ front, Still current request)
    (decided : Decided rest outcome after) :
    Decided (front ++ rest) outcome after := by
  unfold Decided
  rwa [mintOpen_append_iff closed still]

theorem not_mintOpen_nil : ¬ MintOpen [] := by
  rintro ⟨⟨_, saved, _⟩, _⟩
  cases saved

theorem decided_of_still {result : Type}
    {outcome : Outcome ServiceError result}
    (closed : (standing world).Closed)
    (still : ∀ request ∈ trace, Still (standing world) request)
    (same : standing after = standing world) :
    Decided trace outcome after := by
  have whole := @Decided.prepend after _ outcome _ closed trace [] still
    (Or.inl ⟨not_mintOpen_nil, by rwa [same]⟩)
  rwa [List.append_nil] at whole

/-- A method that keeps the standing, and what follows it. -/
theorem decided_bind {first second : Type} {program : Service first}
    {continuation : first → Service second}
    (keeps : Keeps env first program)
    {outcome : Outcome ServiceError second}
    (closed : (standing world).Closed)
    (attempt : Attempt env (program >>= continuation) world trace outcome
      after)
    (onward : ∀ value between rest, standing between = standing world →
      Attempt env (continuation value) between rest outcome after →
        Decided rest outcome after) : Decided trace outcome after := by
  rcases attempt.bind_cases with
    ⟨value, between, front, rest, early, late, rfl⟩ |
    ⟨reason, early, _⟩ | ⟨early, _⟩
  · exact (onward value between rest (keeps.standing_eq early)
      late).prepend closed (keeps _ _ _ _ early)
  · exact decided_of_still closed (keeps _ _ _ _ early)
      (keeps.standing_eq early)
  · exact decided_of_still closed (keeps _ _ _ _ early)
      (keeps.standing_eq early)

theorem live_of_minting {current : Standing} (processId : String)
    (closed : current.Closed)
    (positive : 0 < amount)
    (isAfter : standing after = current.minting amount ∨
      standing after =
        (current.minting amount).recordingMint processId amount ∨
      standing after = ((current.minting amount).recordingMint processId
        amount).burning amount) : ¬ NoLivePart after := by
  rintro ⟨balanced, matched⟩
  obtain ⟨tallies, counts⟩ := closed
  rcases isAfter with saved | minted | burned
  · have minting := congrArg Standing.minted saved
    have burning := congrArg Standing.burned saved
    change after.ledgerRow.processMinted = current.minted + amount
      at minting
    change after.ledgerRow.processBurned = current.burned at burning
    linarith
  · have minting := congrArg Standing.minted minted
    have burning := congrArg Standing.burned minted
    change after.ledgerRow.processMinted = current.minted + amount
      at minting
    change after.ledgerRow.processBurned = current.burned at burning
    linarith
  · have more := congrFun (congrFun (congrArg Standing.mints burned)
      processId) amount
    have same := congrFun (congrFun (congrArg Standing.burns burned)
      processId) amount
    change mints after processId amount =
      current.mints processId amount +
        (if processId = processId ∧ amount = amount then 1 else 0) at more
    change burns after processId amount = current.burns processId amount
      at same
    have least := matched processId amount
    rw [more, same, counts] at least
    simp at least

theorem mintOpen_of_raised {current : Standing} (closed : current.Closed)
    (positive : 0 < amount) {front rest : List Call}
    (raised : Raised current amount front) (early : NoBurn front)
    (late : NoBurn rest) : MintOpen (front ++ rest) := by
  obtain ⟨row, saved, minted, burned⟩ := raised
  refine ⟨⟨row, List.mem_append_left rest saved, ?_⟩,
    early.append late⟩
  rw [minted, burned, closed.1]
  intro equal
  linarith

theorem closed_of_burned {current : Standing} (closed : current.Closed)
    (isAfter : standing after = (((current.minting amount).recordingMint
      processId amount).burning amount).recordingBurn processId amount) :
    (standing after).Closed := by
  obtain ⟨tallies, counts⟩ := closed
  rw [isAfter]
  refine ⟨?_, ?_⟩
  · change current.minted + amount = current.burned + amount
    rw [tallies]
  · funext subject volume
    change current.mints subject volume + _ =
      current.burns subject volume + _
    rw [counts]

/-- The steps of a verified process. -/
theorem decided_settle {epoch : ℚ} {nodes : List String}
    {outcome : Outcome ServiceError RunProcessResult}
    (closed : (standing world).Closed) (positive : 0 < amount)
    (attempt : Attempt env
      (Orchestrator.settle env processId amount epoch nodes) world trace
      outcome after) : Decided trace outcome after := by
  rw [Orchestrator.settle_eq] at attempt
  -- The two ends of a run whose mint does not return.
  have unreturned : ∀ {minted : Outcome ServiceError ℚ},
      Attempt env (Emission.mint processId amount) world trace minted
          after →
        (∀ answer, minted ≠ .returned answer) →
        (∀ answer, outcome ≠ .returned answer) →
          Decided trace outcome after := by
    intro minted early never unanswered
    rcases mint_cases early with ⟨still, same, _⟩ |
      ⟨quiet, raised, ⟨saved, _⟩ | ⟨_, isReturned⟩⟩
    · exact decided_of_still closed still same
    · have mintOpen := mintOpen_of_raised closed positive raised quiet
        (by simp [NoBurn] : NoBurn [])
      rw [List.append_nil] at mintOpen
      exact Or.inr ⟨mintOpen, live_of_minting processId closed positive
        (Or.inl saved), unanswered⟩
    · exact absurd isReturned (never _)
  rcases attempt.bind_cases with
    ⟨minted, emitted, front, rest, early, late, rfl⟩ |
    ⟨reason, early, ended⟩ | ⟨early, ended⟩
  swap
  · exact unreturned early nofun (by rw [ended]; exact nofun)
  swap
  · exact unreturned early nofun (by rw [ended]; exact nofun)
  rcases mint_cases early with ⟨_, _, never⟩ |
    ⟨quiet, raised, ⟨_, never⟩ | ⟨isMinted, isReturned⟩⟩
  · exact absurd rfl (never _)
  · exact absurd rfl (never _)
  cases isReturned
  have consolidates : Keeps env Unit (Orchestrator.consolidate env processId
      amount epoch amount nodes) :=
    keeps_bystander (Orchestrator.strict_consolidate env _ _ _ _ _)
  have live : NoBurn rest →
      (standing after = standing emitted ∨
        standing after = (standing emitted).burning amount) →
      (∀ answer, outcome ≠ .returned answer) →
        Decided (front ++ rest) outcome after := by
    intro unburned isAfter unanswered
    refine Or.inr ⟨mintOpen_of_raised closed positive raised quiet unburned,
      live_of_minting processId closed positive ?_, unanswered⟩
    rw [isMinted] at isAfter
    exact Or.inr isAfter
  rcases late.bind_cases with
    ⟨_, accrued, middle, last, booked, onward, rfl⟩ |
    ⟨reason, booked, ended⟩ | ⟨booked, ended⟩
  swap
  · exact live (noBurn_of_still (consolidates _ _ _ _ booked))
      (Or.inl (consolidates.standing_eq booked)) (by rw [ended]; exact nofun)
  swap
  · exact live (noBurn_of_still (consolidates _ _ _ _ booked))
      (Or.inl (consolidates.standing_eq booked)) (by rw [ended]; exact nofun)
  have unbooked := noBurn_of_still (consolidates _ _ _ _ booked)
  have same := consolidates.standing_eq booked
  rcases onward.bind_cases with
    ⟨burned, balanced, burnTrace, finishTrace, burning, finishing, rfl⟩ |
    ⟨reason, burning, ended⟩ | ⟨burning, ended⟩
  · rcases burn_cases burning with ⟨_, never, _⟩ |
      ⟨burn, isReturned, isBurned⟩
    · exact absurd rfl (never _)
    cases isReturned
    have finishes := (carries_keeps env).watches.finish env processId amount
      amount amount nodes
    rw [same, isMinted] at isBurned
    refine Or.inl ⟨?_, ?_⟩
    · rintro ⟨_, unburned⟩
      apply burn
      intro eventType subject volume member
      exact unburned eventType subject volume (by simp [member])
    · rw [finishes.standing_eq finishing]
      exact closed_of_burned closed isBurned
  · rcases burn_cases burning with ⟨unburned, _, isAfter⟩ |
      ⟨_, isReturned, _⟩
    · rw [same] at isAfter
      exact live (unbooked.append unburned) isAfter
        (by rw [ended]; exact nofun)
    · cases isReturned
  · rcases burn_cases burning with ⟨unburned, _, isAfter⟩ |
      ⟨_, isReturned, _⟩
    · rw [same] at isAfter
      exact live (unbooked.append unburned) isAfter
        (by rw [ended]; exact nofun)
    · cases isReturned

theorem decided_runProcess {body : RunProcessDto}
    {outcome : Outcome ServiceError RunProcessResult}
    (closed : (standing world).Closed)
    (attempt : Attempt env (Orchestrator.runProcess env body) world trace
      outcome after) : Decided trace outcome after := by
  rcases Bool.eq_false_or_eq_true body.admissible with
    admissible | inadmissible
  swap
  · have keeps := (carries_keeps env).watches.runProcess_of_inadmissible env
      inadmissible
    exact decided_of_still closed (keeps _ _ _ _ attempt)
      (keeps.standing_eq attempt)
  rw [Orchestrator.runProcess_eq_of_admissible env admissible] at attempt
  refine decided_bind (keeps_bystander (bystander_of_onlooker
    (Orchestrator.strict_prologue env body))) closed attempt ?_
  intro nodes executed rest sameExecuted verifying
  rw [← sameExecuted] at closed
  refine decided_bind (keeps_verify env body.processId) closed
    verifying ?_
  intro verdict verified rest sameVerified recording
  rw [← sameVerified] at closed
  refine decided_bind (keeps_bystander (bystander_of_onlooker
    (Orchestrator.strict_recordVerdict _ _))) closed recording ?_
  intro _ recorded rest sameRecorded onward
  rw [← sameRecorded] at closed
  split at onward
  · have keeps := (carries_keeps env).watches.rejectUnverified env
      body.processId nodes
    exact decided_of_still closed (keeps _ _ _ _ onward)
      (keeps.standing_eq onward)
  · exact decided_settle closed body.amountPositive onward

end Parts

/-! ## Every reached state -/

section Reaching

variable {env : Environment} {world : World}

theorem noLivePart_of_closed (closed : (standing world).Closed) :
    NoLivePart world := by
  obtain ⟨tallies, counts⟩ := closed
  refine ⟨tallies, ?_⟩
  intro processId amount
  exact (congrFun (congrFun counts processId) amount).le

/-- The answer of a run makes no further call. -/
theorem exists_attempt_of_handler {trace : List Call} {after : World}
    {outcome : Outcome ServiceError Response} {body : RunProcessDto}
    (attempt : Attempt env (Request.handler env (.runProcess body)) world
      trace outcome after) :
    ∃ ran, Attempt env (Orchestrator.runProcess env body) world trace ran
      after := by
  rcases attempt.bind_cases with
    ⟨result, between, front, rest, early, late, rfl⟩ |
    ⟨reason, early, _⟩ | ⟨early, _⟩
  · cases late
    rw [List.append_nil]
    exact ⟨_, early⟩
  · exact ⟨_, early⟩
  · exact ⟨_, early⟩

theorem closed_of_reached (reached : Reached env world) :
    (standing world).Closed := by
  induction reached with
  | initial =>
      exact ⟨rfl, rfl⟩
  | restart _ inductionHypothesis =>
      exact inductionHypothesis
  | @request world after request trace outcome _ attempt closed
      inductionHypothesis =>
      have done : ∀ {result : Type} {program : Service result}
          {wrap : result → Response}, Keeps env result program →
            Keeps env Response (program >>= fun value =>
              Pure.pure (wrap value)) :=
        fun keeps => keeps_bind keeps fun _ => (carries_keeps env).pure _
      cases request with
      | runProcess body =>
          obtain ⟨ran, early⟩ := exists_attempt_of_handler attempt
          exact (decided_runProcess inductionHypothesis early).closed
            (closed body rfl)
      | finalizeEpoch epoch =>
          have keeps := (carries_keeps env).finalizeEpoch keeps_settlement
            keeps_recordEarned env epoch
          rwa [(done keeps).standing_eq attempt]
      | metrics epoch =>
          have keeps := (carries_keeps env).metrics env epoch
          rwa [(done keeps).standing_eq attempt]
      | getProcess processId =>
          have keeps := (carries_keeps env).watches.getProcess processId
          rwa [(done keeps).standing_eq attempt]

/-- A run that returns leads to a reached state. -/
theorem Reached.returns {after : World} {body : RunProcessDto}
    {answer : RunProcessResult} (reached : Reached env world)
    (returned : run (machine env) (Orchestrator.runProcess env body) world =
      (.returned answer, after)) : Reached env after := by
  obtain ⟨trace, attempt⟩ := @FaultyRun.of_run _ _ _ _ (machine env)
    Breaks (Orchestrator.runProcess env body) world
  rw [returned] at attempt
  have decided := decided_runProcess (closed_of_reached reached) attempt
  have handled : Attempt env (Request.handler env (.runProcess body)) world
      (trace ++ []) (.returned (.run answer)) after :=
    attempt.bind (.done _ _)
  refine reached.request handled fun _ _ => ?_
  rw [List.append_nil]
  exact decided.not_mintOpen

end Reaching

/-- No part is live in a reached state, and a further process leaves one
behind exactly when it throws between the save of its mint and the append of
its burn. -/
theorem no_live_part_iff (env : Environment) {world : World}
    (reached : Reached env world) :
    NoLivePart world ∧
      ∀ body trace outcome after,
        Attempt env (Orchestrator.runProcess env body) world trace outcome
            after →
          (NoLivePart after ↔ ¬ MintOpen trace) := by
  have closed := closed_of_reached reached
  refine ⟨noLivePart_of_closed closed, ?_⟩
  intro body trace outcome after attempt
  rcases decided_runProcess closed attempt with
    ⟨notOpen, closedAfter⟩ | ⟨mintOpen, live, _⟩
  · exact iff_of_true (noLivePart_of_closed closedAfter) notOpen
  · exact iff_of_false live (not_not_intro mintOpen)

def fractionalBody : RunProcessDto :=
  { Orchestrator.transferBody "p-1" none
      Orchestrator.none_ne_some_nil with epoch := some (3 / 2) }

section Fraction

variable {env : Environment} {world : World} {body : RunProcessDto}

theorem exists_attempt_of_rejected_epoch
    (admissible : body.admissible = true) (settled : world.Settled)
    (registered : Orchestrator.Registered
      world body.nodeIds)
    (verified : (Orchestrator.verdictOn env world body).verified = 1) :
    ∃ trace, Attempt env (Orchestrator.runProcess env body) world trace
      (.threw .storeRejected)
      (Orchestrator.emittedWorld env
        (Orchestrator.verdictWorld env world body) body.processId
        body.amount) := by
  have consolidates : ∃ trace, Attempt env
      (Orchestrator.consolidate env body.processId body.amount
        (body.epoch.getD Orchestrator.defaultEpoch) body.amount
        (Orchestrator.bodyNodes env world body))
      (Emission.mintedWorld env
        (Orchestrator.verdictWorld env world body) body.processId
        body.amount) trace (.threw .storeRejected)
      (Orchestrator.emittedWorld env
        (Orchestrator.verdictWorld env world body) body.processId
        body.amount) := by
    refine FaultyRun.exists_bind_of_run
      (StateRecording.run_capture env _ _ _ _) ?_
    refine FaultyRun.exists_bind_of_run (AllSeeingEye.run_log _ _ _) ?_
    refine ⟨[], FaultyRun.bind_of_threw (FaultyRun.bind_of_threw
      (FaultyRun.bind_of_threw ?_))⟩
    exact .rejected (.unchanged (by trivial) _) (.fail _ _)
  simp only [Orchestrator.runProcess, admissible, Bool.not_true,
    Bool.false_eq_true, if_false]
  refine FaultyRun.exists_bind_of_run
    (StateRecording.run_capture env _ _ _ _) ?_
  refine FaultyRun.exists_bind_of_run (AllSeeingEye.run_log _ _ _) ?_
  refine FaultyRun.exists_bind_of_run
    (Orchestrator.run_executeAndVerify_body registered) ?_
  have confirmed : (Pot.verifyResult env
      (Orchestrator.requestedWorld env world body)
      body.processId).verified = 1 :=
    verified
  simp only [confirmed, ne_eq, not_true_eq_false, if_false]
  rw [Orchestrator.settle_eq]
  refine FaultyRun.exists_bind_of_run (Emission.run_mint
    ((Orchestrator.settled_verdictWorld env body).mpr settled)
    (Orchestrator.authorizes_verdictWorld verified) body.amount) ?_
  obtain ⟨trace, threw⟩ := consolidates
  exact ⟨trace, threw.bind_of_threw⟩

end Fraction

/-- A first process with a fractional epoch throws after its mint. -/
theorem fractional_epoch_leaves_part :
    ∃ trace after,
      Attempt .plain (Orchestrator.runProcess .plain fractionalBody)
          .initial trace (.threw .storeRejected) after ∧
        after.ledgerRow.processMinted ≠ after.ledgerRow.processBurned ∧
        mints after "p-1" 1000 = 1 ∧ burns after "p-1" 1000 = 0 := by
  have ⟨trace, attempt⟩ := @exists_attempt_of_rejected_epoch .plain
    .initial fractionalBody rfl World.settled_initial (by decide)
    (by decide +kernel)
  refine ⟨trace, _, attempt, ?_⟩
  decide +kernel

/-- The same process after another one, whose part is burned. -/
theorem interrupted_process_leaves_part :
    mints Orchestrator.servedWorld "p-0" 1000 = 1 ∧
      NoLivePart Orchestrator.servedWorld ∧
      ∃ trace after,
        Attempt .plain (Orchestrator.runProcess .plain fractionalBody)
            Orchestrator.servedWorld trace (.threw .storeRejected) after ∧
          mints after "p-1" 1000 = 1 ∧
          (NoLivePart after ↔ ¬ MintOpen trace) := by
  obtain ⟨answer, returned⟩ := Orchestrator.exists_returned_servedWorld
  have reached : Reached .plain Orchestrator.servedWorld :=
    Reached.initial.returns returned
  have ⟨trace, attempt⟩ := @exists_attempt_of_rejected_epoch .plain
    Orchestrator.servedWorld fractionalBody rfl
    (Or.inr (by decide +kernel)) (by decide +kernel) (by decide +kernel)
  have parts := no_live_part_iff .plain reached
  exact ⟨by decide +kernel, parts.1, trace, _, attempt, by decide +kernel,
    parts.2 _ _ _ _ attempt⟩

end ArosParadigm.ProcessPart
