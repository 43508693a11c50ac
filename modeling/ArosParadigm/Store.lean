import ArosParadigm.Library.Json.Value
import ArosParadigm.Library.Program
import ArosParadigm.NodeChain
import Mathlib.Algebra.Order.Field.Rat
import Mathlib.Data.Nat.Log
import Mathlib.Data.Rat.Floor
import Mathlib.Logic.Function.Basic

/-!
# The store behind the services

The rows of the database tables, the private memory of the service instances,
and the calls that the services await. A call reads or writes one repository,
appends to one of the two ledgers in one transaction, or touches the memory of
a service; each is one atomic step of `machine`.

Amounts are exact rationals. The text of a payload, the decimal text of an
amount, `sha256` and `log10` are parameters, collected in `Environment`.
-/

namespace ArosParadigm

open Keyed

/-- The literals of `0 | 1` in all modules. -/
instance neZero_verified : NeZero 2 :=
  ⟨Nat.succ_ne_zero 1⟩

structure PotVerdict where
  processId : String
  verified : Fin 2
  reasons : List String
  timestamp : ℕ
  snapshotSequenceId : ℕ
  deriving DecidableEq

/-- The row of `aroscoin_ledger`. -/
structure ArosCoinLedger where
  processMinted : ℚ
  processBurned : ℚ
  earnedRetained : ℚ
  deriving DecidableEq

structure DistributionEntry where
  nodeId : String
  amount : ℚ
  reason : String
  deriving DecidableEq

/-- `'open' | 'finalized' | 'archived'`. -/
inductive EpochStatus where
  | opened
  | finalized
  | archived
  deriving DecidableEq

/-- A row of `epochs`. The source types its key as a number: the table of the
model takes every number, the column of the source integers. -/
structure Epoch where
  epochNumber : ℚ
  startTime : ℕ
  endTime : ℕ
  totalFees : ℚ
  distributionLog : List DistributionEntry
  status : EpochStatus
  operationalMargin : ℚ
  deriving DecidableEq

/-- `'active' | 'penalized' | 'disconnected'`. -/
inductive NodeStatus where
  | active
  | penalized
  | disconnected
  deriving DecidableEq

structure NodeEntity where
  id : String
  type : String
  uptime : ℚ
  successes : ℕ
  total : ℕ
  status : NodeStatus
  weight : ℚ
  reputation : ℚ
  deriving DecidableEq

structure ReleasePhase where
  active : Bool
  activatedAt : Option ℕ
  reserveIndexAtActivation : Option ℚ
  velocityAtActivation : Option ℚ
  deriving DecidableEq

structure OversightLogEntry where
  id : ℕ
  eventType : String
  layer : String
  description : String
  hash : String
  prevHash : String
  timestamp : ℕ
  signature : String
  deriving DecidableEq

/-- One unit of participation: a node took part in a process. -/
structure Participation where
  processId : String
  nodeId : String
  deriving DecidableEq

/-- The object literals that the services append to NodeChain. -/
inductive Payload where
  | captured (processId : String) (data : Json.JsObject ℚ)
      (validatorId : Option String)
  | potVerified (processId : String) (verified : Fin 2)
      (reasons : List String)
  | emissionMinted (processId : String) (minted : ℚ)
  | emissionBurned (processId : String) (burned : ℚ)
  | nodeRegistered (nodeId type : String) (uptime reputation weight : ℚ)
  | paymentReceived (nodeId : String) (amount weight : ℚ)
  | afcAccrual (amount : ℚ)
  | epochFinalized (epochNumber totalFees operationalMargin paid : ℚ)
      (reconciled : Bool) (distributionLog : List DistributionEntry)
  | releaseActivated (reserveIndex velocity threshold target : ℚ)

namespace Payload

def processId? : Payload → Option String
  | captured processId _ _ => some processId
  | potVerified processId _ _ => some processId
  | emissionMinted processId _ => some processId
  | emissionBurned processId _ => some processId
  | _ => none

def minted? : Payload → Option ℚ
  | emissionMinted _ minted => some minted
  | _ => none

def burned? : Payload → Option ℚ
  | emissionBurned _ burned => some burned
  | _ => none

def amount? : Payload → Option ℚ
  | paymentReceived _ amount _ => some amount
  | afcAccrual amount => some amount
  | _ => none

def paid? : Payload → Option ℚ
  | epochFinalized _ _ _ paid _ _ => some paid
  | _ => none

/-- What the entries of `payload['distributionLog']` add up to. -/
def distributed? : Payload → Option ℚ
  | epochFinalized _ _ _ _ _ distributionLog =>
      some (distributionLog.map DistributionEntry.amount).sum
  | _ => none

def operationalMargin? : Payload → Option ℚ
  | epochFinalized _ _ operationalMargin _ _ _ => some operationalMargin
  | _ => none

end Payload

abbrev Snapshot := ExecutionSnapshot Payload String

/-! ## State -/

/-- The promise `ArosCoinService.initialization` once it has been made. -/
inductive Promise where
  | pending
  | fulfilled
  | rejected
  deriving DecidableEq

/-- One array object of `CommissionService.participation`. The epoch is the
key under which the array was stored. -/
structure ParticipationArray where
  epoch : ℚ
  items : List Participation
  deriving DecidableEq

/-- The database and the memory of the service instances. -/
structure World where
  snapshots : SnapshotTable Payload String
  verdicts : Table PotVerdict.processId
  ledger : Option ArosCoinLedger
  epochs : Table Epoch.epochNumber
  nodes : Table NodeEntity.id
  phase : Option ReleasePhase
  oversight : List OversightLogEntry
  /-- The last `id` that the sequence of `oversight_log_entries` has given
  out. -/
  oversightSequence : ℕ
  /-- `ClockService.t`. -/
  clock : ℕ
  /-- `StateRecordingService.captured`, a set in insertion order. -/
  captured : String → List String
  /-- `CommissionService.participation`: the array stored under an epoch. -/
  participation : ℚ → Option ℕ
  /-- Every array object that `participation` has held. -/
  arrays : List ParticipationArray
  /-- `ArosCoinService.initialization`. -/
  initialization : Option Promise

namespace World

/-- Empty tables and freshly built services. -/
def initial : World where
  snapshots := .empty
  verdicts := .empty
  ledger := none
  epochs := .empty
  nodes := .empty
  phase := none
  oversight := []
  oversightSequence := 0
  clock := 1700000000000
  captured := fun _ => []
  participation := fun _ => none
  arrays := []
  initialization := none

/-- A restart builds all services again over the same database. -/
def restart (world : World) : World :=
  { world with
    clock := initial.clock
    captured := initial.captured
    participation := initial.participation
    arrays := initial.arrays
    initialization := initial.initialization }

/-- `NodeChainService.list()`. -/
def history (world : World) : List Snapshot :=
  NodeChain.list (.same Payload) world.snapshots

end World

/-- What the model takes from outside: the texts that are hashed or logged,
the two functions of `common/hash.util.ts`, and a bound on the entries that
other calls add to a participation array while `confirmedWeights` walks over
it. -/
structure Environment where
  sha256 : String → String
  stringify : Payload → String
  numberText : ℚ → String
  log10 : ℚ → ℚ
  lateEntries : ℕ

/-- The hashing of the services' chain. -/
def Environment.hasher (env : Environment) : Hasher Payload String where
  stringify := env.stringify
  concat := String.append
  decimal := toString
  emptyText := ""
  sha256 := env.sha256

/-- An environment for runs on fixed inputs. Its logarithm is the whole part,
which is exact at the powers of ten. -/
def Environment.plain : Environment where
  sha256 := id
  stringify := fun _ => "\x7b\x7d"
  numberText := fun _ => "0"
  log10 value := (Nat.log 10 ⌊value⌋₊ : ℕ)
  lateEntries := 0

/-- The calls that the services await, and their accesses to memory. -/
inductive Call where
  | append (eventType : String) (payload : Payload)
  | listSnapshots
  | findVerdict (processId : String)
  | saveVerdict (row : PotVerdict)
  | listVerdicts
  | findLedger
  | saveLedger (row : ArosCoinLedger)
  | findEpoch (epochNumber : ℚ)
  | saveEpoch (row : Epoch)
  | listEpochs
  | findNode (id : String)
  | saveNode (row : NodeEntity)
  | listNodes
  | findPhase
  | savePhase (row : ReleasePhase)
  | logOversight (eventType layer description : String)
  | listOversight
  | tick
  | markCaptured (processId eventType : String)
  | readCaptured (processId : String)
  | pushParticipation (epochNumber : ℚ) (entries : List Participation)
  | readParticipation (epochNumber : ℚ)
  | readParticipationAt (reference index : ℕ)
  | deleteParticipation (epochNumber : ℚ)
  | claimInitialization
  | settleInitialization (outcome : Promise)
  | awaitInitialization

@[reducible]
def Call.Reply : Call → Type
  | .append .. => Snapshot
  | .listSnapshots => List Snapshot
  | .findVerdict _ => Option PotVerdict
  | .saveVerdict _ => Unit
  | .listVerdicts => List PotVerdict
  | .findLedger => Option ArosCoinLedger
  | .saveLedger _ => Unit
  | .findEpoch _ => Option Epoch
  | .saveEpoch _ => Unit
  | .listEpochs => List Epoch
  | .findNode _ => Option NodeEntity
  | .saveNode _ => Unit
  | .listNodes => List NodeEntity
  | .findPhase => Option ReleasePhase
  | .savePhase _ => Unit
  | .logOversight .. => OversightLogEntry
  | .listOversight => List OversightLogEntry
  | .tick => ℕ
  | .markCaptured .. => Unit
  | .readCaptured _ => List String
  | .pushParticipation .. => Unit
  | .readParticipation _ => Option (ℕ × ℕ)
  | .readParticipationAt .. => Option Participation
  | .deleteParticipation _ => Unit
  | .claimInitialization => Bool
  | .settleInitialization _ => Unit
  | .awaitInitialization => Promise

/-- The calls of the services. -/
abbrev signature : Await.Signature where
  Call := Call
  Reply := Call.Reply

namespace World

variable (env : Environment) (world : World)

/-- The row that `NodeChainService.append` adds. -/
def nextSnapshot (eventType : String) (payload : Payload) : Snapshot :=
  NodeChain.nextRow env.hasher (.same Payload)
    (NodeChain.head? world.snapshots) eventType payload (world.clock + 1)

/-- The world after `NodeChainService.append`. -/
@[simps verdicts ledger epochs nodes phase oversight oversightSequence clock
  captured participation arrays initialization]
def append (eventType : String) (payload : Payload) : World :=
  { world with
    snapshots := NodeChain.append env.hasher (.same Payload)
      world.snapshots eventType payload (world.clock + 1)
    clock := world.clock + 1 }

/-- The row that `AllSeeingEyeService.log` adds:
`sha256(eventType + layer + description + prevHash + timestamp)`. -/
def nextOversight (eventType layer description : String) :
    OversightLogEntry :=
  let prevHash := match world.oversight.getLast? with
    | some entry => entry.hash
    | none => "GENESIS"
  { id := world.oversightSequence + 1
    eventType := eventType
    layer := layer
    description := description
    hash := env.sha256 (eventType ++ layer ++ description ++ prevHash ++
      toString (world.clock + 1))
    prevHash := prevHash
    timestamp := world.clock + 1
    signature := "" }

/-- The world after `AllSeeingEyeService.log`. -/
@[simps]
def log (eventType layer description : String) : World :=
  { world with
    oversight := world.oversight ++
      [world.nextOversight env eventType layer description]
    oversightSequence := world.oversightSequence + 1
    clock := world.clock + 1 }

@[simps]
def saveVerdict (row : PotVerdict) : World :=
  { world with verdicts := world.verdicts.save row }

@[simps]
def saveLedger (row : ArosCoinLedger) : World :=
  { world with ledger := some row }

@[simps]
def saveEpoch (row : Epoch) : World :=
  { world with epochs := world.epochs.save row }

@[simps]
def saveNode (row : NodeEntity) : World :=
  { world with nodes := world.nodes.save row }

@[simps]
def savePhase (row : ReleasePhase) : World :=
  { world with phase := some row }

/-- The world after `ClockService.now()`. -/
@[simps]
def tick : World :=
  { world with clock := world.clock + 1 }

/-- The world after an `id` was drawn for an entry that is not inserted. -/
@[simps]
def drawId : World :=
  { world with oversightSequence := world.oversightSequence + 1 }

/-- The world with another state of the promise `initialization`. -/
@[simps]
def withInitialization (promise : Promise) : World :=
  { world with initialization := some promise }

/-- `captured.get(processId).add(eventType)`. -/
@[simps]
def mark (processId eventType : String) : World :=
  { world with
    captured := Function.update world.captured processId
      (if eventType ∈ world.captured processId then
        world.captured processId
      else world.captured processId ++ [eventType]) }

/-- `participation.get(epoch) ?? []`, `push(...entries)`, and the `set` that
keeps the array. -/
@[simps]
def push (epochNumber : ℚ) (entries : List Participation) : World :=
  { world with
    participation := Function.update world.participation epochNumber
      (some ((world.participation epochNumber).getD world.arrays.length))
    arrays := match world.participation epochNumber with
      | some reference =>
          world.arrays.modify reference fun array =>
            { array with items := array.items ++ entries }
      | none => world.arrays ++ [⟨epochNumber, entries⟩] }

/-- `participation.delete(epoch)`. -/
@[simps]
def forget (epochNumber : ℚ) : World :=
  { world with
    participation :=
      Function.update world.participation epochNumber none }

def entries (reference : ℕ) : List Participation :=
  (world.arrays[reference]?.map ParticipationArray.items).getD []

/-- The entries remembered for an epoch. -/
def participations (epochNumber : ℚ) : List Participation :=
  ((world.participation epochNumber).map world.entries).getD []

end World

/-- One atomic step of the store. Only `awaitInitialization` has to wait. -/
def machine (env : Environment) : Await.Machine signature World
  | .append eventType payload, world =>
      some (world.nextSnapshot env eventType payload,
        world.append env eventType payload)
  | .listSnapshots, world => some (world.history, world)
  | .findVerdict processId, world =>
      some (world.verdicts.find? processId, world)
  | .saveVerdict row, world => some ((), world.saveVerdict row)
  | .listVerdicts, world => some (world.verdicts.rows, world)
  | .findLedger, world => some (world.ledger, world)
  | .saveLedger row, world => some ((), world.saveLedger row)
  | .findEpoch epochNumber, world =>
      some (world.epochs.find? epochNumber, world)
  | .saveEpoch row, world => some ((), world.saveEpoch row)
  | .listEpochs, world => some (world.epochs.rows, world)
  | .findNode id, world => some (world.nodes.find? id, world)
  | .saveNode row, world => some ((), world.saveNode row)
  | .listNodes, world => some (world.nodes.rows, world)
  | .findPhase, world => some (world.phase, world)
  | .savePhase row, world => some ((), world.savePhase row)
  | .logOversight eventType layer description, world =>
      some (world.nextOversight env eventType layer description,
        world.log env eventType layer description)
  | .listOversight, world => some (world.oversight, world)
  | .tick, world => some (world.clock + 1, world.tick)
  | .markCaptured processId eventType, world =>
      some ((), world.mark processId eventType)
  | .readCaptured processId, world =>
      some (world.captured processId, world)
  | .pushParticipation epochNumber entries, world =>
      some ((), world.push epochNumber entries)
  | .readParticipation epochNumber, world =>
      some ((world.participation epochNumber).map fun reference =>
        (reference, (world.entries reference).length), world)
  | .readParticipationAt reference index, world =>
      some ((world.entries reference)[index]?, world)
  | .deleteParticipation epochNumber, world =>
      some ((), world.forget epochNumber)
  | .claimInitialization, world =>
      match world.initialization with
      | none => some (true, world.withInitialization .pending)
      | some _ => some (false, world)
  | .settleInitialization outcome, world =>
      some ((), world.withInitialization outcome)
  | .awaitInitialization, world =>
      match world.initialization with
      | some .pending => none
      | some outcome => some (outcome, world)
      | none => none

inductive ServiceError where
  | storeRejected
  | entityNotFound
  | notFound (message : String)
  | refused (message : String)
  /-- More late entries than the bound of the environment. -/
  | tooManyLateEntries
  deriving DecidableEq

abbrev Service := Await.Program signature ServiceError

/-- Await a call; a rejected call rejects the method. -/
def ask (request : Call) : Service (Call.Reply request) :=
  @Await.Program.perform signature _ .storeRejected request

end ArosParadigm
