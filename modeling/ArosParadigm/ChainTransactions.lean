import ArosParadigm.Library.Interleaving
import ArosParadigm.Library.ReadCommitted
import ArosParadigm.NodeChain

/-!
# Concurrent appends

`NodeChainService.append` statement by statement: the transaction reads the
head, and `save` selects the row with the new `sequenceId`, then inserts it
when it is absent or updates it when it is present. At READ COMMITTED the
second select can see a snapshot that was committed after the head was read,
and then the append overwrites it.
-/

namespace ArosParadigm.ChainTransactions

open Await Keyed ReadCommitted

section Model

variable (Payload Text : Type)

/-- A row of `execution_snapshots`. -/
abbrev Row := ExecutionSnapshot Payload Text

/-- The database with the clock of the process. -/
structure State where
  database : Database (ExecutionSnapshot.sequenceId : Row Payload Text → ℕ)
  /-- `ClockService.t`. -/
  clock : ℕ

inductive ChainCall where
  | statement (request : ReadCommitted.Call ℕ (Row Payload Text))
  | now

/-- The calls of `append` and their replies. -/
@[reducible]
def chainSignature : Signature where
  Call := ChainCall Payload Text
  Reply
    | .statement request =>
        request.Reply (ExecutionSnapshot.sequenceId : Row Payload Text → ℕ)
    | .now => ℕ

inductive AppendError where
  | storeRejected
  | uniqueViolation
  deriving DecidableEq

end Model

variable {Payload Text : Type}

/-- One step of the store. -/
def chainMachine : Machine (chainSignature Payload Text) (State Payload Text)
  | .statement request, state =>
      (step request state.database).map fun answer =>
        (answer.1, { state with database := answer.2 })
  | .now, state => some (state.clock + 1, ⟨state.database, state.clock + 1⟩)

abbrev Method (Payload Text : Type) :=
  Program (chainSignature Payload Text) AppendError

/-- Await a statement of a transaction. -/
def query (request : ReadCommitted.Call ℕ (Row Payload Text)) :
    Method Payload Text (request.Reply
      (ExecutionSnapshot.sequenceId : Row Payload Text → ℕ)) :=
  @Program.perform (chainSignature Payload Text) _ .storeRejected
    (.statement request)

def now : Method Payload Text ℕ :=
  @Program.perform (chainSignature Payload Text) _ .storeRejected .now

section Append

variable [DecidableEq Payload] [DecidableEq Text]
variable (hasher : Hasher Payload Text)

/-- An update sets the columns in which the entity differs from the loaded
row. -/
def changed (loaded row current : Row Payload Text) : Row Payload Text where
  sequenceId := current.sequenceId
  eventType :=
    if row.eventType = loaded.eventType then current.eventType
    else row.eventType
  payload :=
    if row.payload = loaded.payload then current.payload else row.payload
  timestamp :=
    if row.timestamp = loaded.timestamp then current.timestamp
    else row.timestamp
  prevHash :=
    if row.prevHash = loaded.prevHash then current.prevHash
    else row.prevHash
  hash := if row.hash = loaded.hash then current.hash else row.hash

/-- `txRepo.save(snapshot)`. -/
def save (owner : ℕ) (row : Row Payload Text) : Method Payload Text Unit := do
  match ← query (.find owner row.sequenceId) with
  | none =>
      if ← query (.insert owner row) then
        return ()
      else
        .fail .uniqueViolation
  | some loaded =>
      query (.update owner row.sequenceId (changed loaded row))

def appendBody (owner : ℕ) (eventType : String) (payload : Payload) :
    Method Payload Text (Row Payload Text) := do
  let table ← query (.read owner)
  let timestamp ← now
  let row := NodeChain.nextRow hasher (.same Payload)
    (NodeChain.head? table) eventType payload timestamp
  save owner row
  query (.commit owner)
  return row

/-- `append(eventType, payload)` as the transaction `owner`: a failed body is
rolled back. -/
def append (owner : ℕ) (eventType : String) (payload : Payload) :
    Method Payload Text (Row Payload Text) :=
  (appendBody hasher owner eventType payload).rescue fun reason => do
    query (.rollback owner)
    .fail reason

abbrev Appends (Payload Text : Type) :=
  Pool (chainSignature Payload Text) AppendError (Row Payload Text)
    (State Payload Text)

/-- Appends that have not started, over the committed table. -/
def launch (start : SnapshotTable Payload Text) (clock : ℕ)
    (events : List (String × Payload)) : Appends Payload Text :=
  Pool.fresh ⟨⟨start, []⟩, clock⟩
    (events.mapIdx fun owner event => append hasher owner event.1 event.2)

end Append

/-- The select of a save finds no committed row. -/
def Vacant (state : State Payload Text) : ChainCall Payload Text → Prop
  | .statement (.find _ sequenceId) =>
      state.database.committed.find? sequenceId = none
  | _ => True

/-- The thread awaits no select of a save that finds a committed row. -/
def AwaitsVacant (state : State Payload Text) :
    Option (Thread (chainSignature Payload Text) AppendError
      (Row Payload Text)) → Prop
  | some ⟨_, .call request _ _⟩ => Vacant state request
  | _ => True

instance (state : State Payload Text) : DecidablePred (Vacant state)
  | .statement (.find _ sequenceId) =>
      match found : state.database.committed.find? sequenceId with
      | none => .isTrue found
      | some _ => .isFalse fun vacant => nomatch vacant.symm.trans found
  | .statement (.read _) => .isTrue trivial
  | .statement (.insert ..) => .isTrue trivial
  | .statement (.update ..) => .isTrue trivial
  | .statement (.commit _) => .isTrue trivial
  | .statement (.rollback _) => .isTrue trivial
  | .now => .isTrue trivial

instance (state : State Payload Text) :
    DecidablePred (AwaitsVacant state)
  | some ⟨_, .call request _ _⟩ =>
      inferInstanceAs (Decidable (Vacant state request))
  | some ⟨_, .done _⟩ => .isTrue trivial
  | some ⟨_, .fail _⟩ => .isTrue trivial
  | none => .isTrue trivial

/-- No save of the move takes the update branch. -/
def InsertBranch (appends : Appends Payload Text) : Move → Prop
  | .answer index => AwaitsVacant appends.state appends.threads[index]?
  | .reject _ => True

instance (appends : Appends Payload Text) :
    DecidablePred (InsertBranch appends)
  | .answer index => inferInstanceAs
      (Decidable (AwaitsVacant appends.state appends.threads[index]?))
  | .reject _ => .isTrue trivial

/-- What a transaction relies on. -/
structure Keeps (owner : ℕ) (before after : State Payload Text) :
    Prop where
  grows : before.database.Grows after.database
  own : after.database.own owner = before.database.own owner

/-- The contract of a transaction: no committed row changes, and the writes of
the other transactions stay. -/
def contract (owner : ℕ) :
    Contract (chainSignature Payload Text) (State Payload Text) Unit where
  permitted := fun state _ request => Vacant state request
  rely := Keeps owner
  rely_refl := fun _ => ⟨.refl _, rfl⟩
  rely_trans := fun earlier later =>
    ⟨earlier.grows.trans later.grows, later.own.trans earlier.own⟩
  guarantee := fun _ _ before _ after =>
    before.database.Grows after.database ∧
      ∀ other, other ≠ owner →
        after.database.own other = before.database.own other

/-- No transaction has updated a row. -/
abbrev Inserting (state : State Payload Text) : Prop :=
  state.database.InsertsOnly

/-- The returned row is committed with the event of the call. -/
def Stored (eventType : String) (payload : Payload)
    (row : Row Payload Text) (state : State Payload Text) : Prop :=
  row ∈ state.database.committed.rows ∧ row.eventType = eventType ∧
    row.payload = payload

section Append

variable {owner : ℕ} {eventType : String} {payload : Payload}
variable {past : List (Exchange (chainSignature Payload Text))}
variable {start : State Payload Text}

/-- A transaction that keeps its contract and stores its event. -/
abbrev Appends.Safe (owner : ℕ) (eventType : String) (payload : Payload)
    (method : Method Payload Text (Row Payload Text))
    (past : List (Exchange (chainSignature Payload Text)))
    (start : State Payload Text) : Prop :=
  Await.Safe chainMachine Inserting (contract owner)
    (fun row _ _ state => Stored eventType payload row state) method past
    () start

private theorem safe_rollback (reason : AppendError) :
    Appends.Safe owner eventType payload
      (query (.rollback owner) >>= fun _ => .fail reason) past start := by
  intro now inserts _
  refine ⟨?_, trivial⟩
  intro _ reply after answered
  cases answered
  exact ⟨inserts.rollback owner, (), ⟨.refl _, fun other different =>
    Database.own_rollback_of_ne different⟩, trivial⟩

private theorem safe_commit {row : Row Payload Text}
    (isEvent : row.eventType = eventType)
    (isPayload : row.payload = payload)
    (single : start.database.own owner = [row]) :
    Appends.Safe owner eventType payload
      ((query (.commit owner) >>= fun _ => pure row).rescue
        fun reason => query (.rollback owner) >>= fun _ => .fail reason)
      past start := by
  intro committing inserts keeps
  refine ⟨?_, safe_rollback _⟩
  intro _ reply after answered
  cases answered
  refine ⟨inserts.commit owner, (), ⟨inserts.grows_commit owner,
    fun other different => Database.own_commit_of_ne different⟩, ?_⟩
  intro now _ later
  exact ⟨later.grows row (Database.mem_commit (keeps.own.trans single)),
    isEvent, isPayload⟩

variable [DecidableEq Payload] [DecidableEq Text]

private theorem safe_save {row : Row Payload Text}
    (isEvent : row.eventType = eventType)
    (isPayload : row.payload = payload)
    (first : start.database.own owner = []) :
    Appends.Safe owner eventType payload
      ((save owner row >>= fun _ =>
        query (.commit owner) >>= fun _ => pure row).rescue
        fun reason => query (.rollback owner) >>= fun _ => .fail reason)
      past start := by
  intro selecting inserts keepsSelecting
  refine ⟨?_, safe_rollback _⟩
  intro vacant existing _ answered
  have firstSelect : selecting.database.own owner = [] :=
    keepsSelecting.own.trans first
  have absent : (selecting.database.visible owner).find?
      row.sequenceId = none := by
    rw [Database.visible, firstSelect]
    exact vacant
  cases answered
  refine ⟨inserts, (), ⟨.refl _, fun _ _ => rfl⟩, ?_⟩
  rw [absent]
  intro inserting inserts keepsInserting
  refine ⟨?_, safe_rollback _⟩
  intro _ free after answered
  have firstInsert : inserting.database.own owner = [] :=
    keepsInserting.own.trans firstSelect
  simp only [chainMachine, step] at answered
  by_cases locked :
      inserting.database.Locked owner row.sequenceId
  · simp [locked] at answered
  · cases taken :
        (inserting.database.visible owner).find? row.sequenceId with
    | some other =>
        -- The key was taken in the meantime.
        simp only [locked, if_false, taken, Option.isSome_some, if_true,
          Option.map_some, Option.some.injEq, Prod.mk.injEq] at answered
        obtain ⟨rfl, rfl⟩ := answered
        exact ⟨inserts, (), ⟨.refl _, fun _ _ => rfl⟩, safe_rollback _⟩
    | none =>
        simp only [locked, if_false, taken, Option.isSome_none,
          Bool.false_eq_true, Option.map_some, Option.some.injEq,
          Prod.mk.injEq] at answered
        obtain ⟨rfl, rfl⟩ := answered
        refine ⟨inserts.write locked taken firstInsert, (), ⟨.refl _,
          fun other different => Database.own_write_of_ne different⟩, ?_⟩
        apply safe_commit isEvent isPayload
        rw [Database.own_write_self, firstInsert]
        rfl

variable (hasher : Hasher Payload Text)

theorem safe_append (first : start.database.own owner = []) :
    Appends.Safe owner eventType payload
      (append hasher owner eventType payload) past start := by
  intro reading inserts keepsReading
  refine ⟨?_, safe_rollback _⟩
  intro _ table _ answered
  cases answered
  refine ⟨inserts, (), ⟨.refl _, fun _ _ => rfl⟩, ?_⟩
  intro ticking inserts keepsTicking
  refine ⟨?_, safe_rollback _⟩
  intro _ timestamp _ answered
  cases answered
  refine ⟨inserts, (), ⟨.refl _, fun _ _ => rfl⟩, ?_⟩
  exact safe_save rfl rfl
    (keepsTicking.own.trans (keepsReading.own.trans first))

end Append

/-! ## Append-only -/

/-- Between two pools no committed snapshot changes, and what an append has
returned is in the chain with its event. -/
structure AppendOnly (events : List (String × Payload))
    (earlier later : Appends Payload Text) : Prop where
  unchanged : ∀ row ∈ earlier.state.database.committed.rows,
    row ∈ later.state.database.committed.rows
  returned : ∀ (index : ℕ) (event : String × Payload)
    (past : List (Exchange (chainSignature Payload Text)))
    (row : Row Payload Text), events[index]? = some event →
    earlier.threads[index]? = some ⟨past, .done row⟩ →
      ∃ stored,
        later.state.database.committed.find? row.sequenceId =
            some stored ∧
          stored.eventType = event.1 ∧ stored.payload = event.2

section Runs

private theorem compatible_contract (count : ℕ) :
    Compatible count (@Inserting Payload Text) contract := by
  intro index other _ _ _ _ _ different _ _ _ _ ensured
  exact ⟨ensured.1, ensured.2 other different⟩

private theorem permitted_of_insertBranch
    {appends : Appends Payload Text} {move : Move}
    (inserts : InsertBranch appends move) :
    appends.Permitted contract move := by
  cases move with
  | answer index =>
      intro past request next rejected found
      have vacant :
          AwaitsVacant appends.state appends.threads[index]? :=
        inserts
      rw [found] at vacant
      exact vacant
  | reject index =>
      trivial

private def StoredAt (events : List (String × Payload)) (index : ℕ)
    (row : Row Payload Text) (state : State Payload Text) : Prop :=
  ∀ event, events[index]? = some event →
    Stored event.1 event.2 row state

variable [DecidableEq Payload] [DecidableEq Text]
variable {hasher : Hasher Payload Text}
variable {start : SnapshotTable Payload Text} {clock : ℕ}
variable {events : List (String × Payload)}

private theorem secure_launch :
    (launch hasher start clock events).Secure chainMachine Inserting
      contract (fun index row _ _ state => StoredAt events index row state)
      (fun _ => ()) := by
  apply Pool.secure_fresh
  · exact ⟨List.nodup_nil, nofun⟩
  intro index method found
  simp only [List.getElem?_mapIdx, Option.map_eq_some_iff] at found
  obtain ⟨event, isEvent, rfl⟩ := found
  have safe : Appends.Safe index event.1 event.2
      (append hasher index event.1 event.2) [] ⟨⟨start, []⟩, clock⟩ :=
    safe_append hasher rfl
  apply safe.weaken
  intro row _ _ state _ stored other isOther
  cases isEvent.symm.trans isOther
  exact stored

/-- The chain is append-only under concurrent appends in the schedules in
which every save takes the insert branch. -/
theorem append_only_of_inserts {earlier later : Appends Payload Text}
    (reached : Reaches chainMachine InsertBranch
      (launch hasher start clock events) earlier)
    (onward : Reaches chainMachine InsertBranch earlier later) :
    AppendOnly events earlier later := by
  obtain ⟨_, secure, _⟩ := secure_launch.reaches
    (compatible_contract _) (fun _ _ => permitted_of_insertBranch) reached
  have grows : earlier.state.database.Grows later.state.database :=
    secure.related (compatible_contract _) (fun now => .refl now.database)
      (fun first second => first.trans second)
      (fun _ _ _ _ _ _ ensured => ensured.1)
      (fun _ _ => permitted_of_insertBranch) onward
  refine ⟨grows, ?_⟩
  intro index event past row isEvent found
  have returned := secure.safe index _ found earlier.state secure.holds
    ((contract index).rely_refl _)
  obtain ⟨member, eventType, payload⟩ := returned event isEvent
  exact ⟨row, Table.find?_of_mem (grows row member), eventType, payload⟩

end Runs

def plainHasher : Hasher String String where
  stringify := id
  concat := String.append
  decimal := toString
  emptyText := ""
  sha256 := id

def twoEvents : List (String × String) :=
  [("event.first", "1"), ("event.second", "2")]

/-- The first append has returned before the second reads the head. -/
def firstOrdered : Appends String String :=
  (launch plainHasher .empty 0 twoEvents).play chainMachine InsertBranch
    ([0, 0, 0, 0, 0].map .answer)

def secondOrdered : Appends String String :=
  firstOrdered.play chainMachine InsertBranch ([1, 1, 1, 1, 1].map .answer)

theorem appendOnly_ordered :
    secondOrdered.Returned ∧
      AppendOnly twoEvents firstOrdered secondOrdered :=
  ⟨by decide +kernel,
    append_only_of_inserts (reaches_play _ .refl) (reaches_play _ .refl)⟩

/-- Both appends have read the head of the empty chain, and the first has
returned. -/
def firstReturned : Appends String String :=
  (launch plainHasher .empty 0 twoEvents).play chainMachine
    (fun _ _ => True) ([0, 1, 0, 1, 0, 0, 0].map .answer)

def secondReturned : Appends String String :=
  firstReturned.play chainMachine (fun _ _ => True)
    ([1, 1, 1].map .answer)

/-- The second append overwrites the snapshot of the first. -/
theorem second_append_overwrites :
    Reaches chainMachine (fun _ _ => True)
        (launch plainHasher .empty 0 twoEvents) firstReturned ∧
      Reaches chainMachine (fun _ _ => True) firstReturned
        secondReturned ∧
      secondReturned.Returned ∧
      ¬AppendOnly twoEvents firstReturned secondReturned := by
  refine ⟨reaches_play _ .refl, reaches_play _ .refl,
    by decide +kernel, ?_⟩
  intro appendOnly
  have lost : ∃ row ∈ firstReturned.state.database.committed.rows,
      ∀ kept ∈ secondReturned.state.database.committed.rows,
        kept.eventType ≠ row.eventType := by
    decide +kernel
  obtain ⟨row, member, gone⟩ := lost
  exact gone row (appendOnly.unchanged row member) rfl

end ArosParadigm.ChainTransactions
