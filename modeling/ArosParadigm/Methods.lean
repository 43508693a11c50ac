import ArosParadigm.Library.Relational
import ArosParadigm.Orchestrator

/-!
# The methods of the services

The public methods that a caller can await one after another, with the type
of what each returns, and the methods that only observe: those of
`AllSeeingEyeService`, and `metrics` and `getProcess` of the orchestrator.
-/

namespace ArosParadigm

namespace NodeChain

def latest : Service (Option Snapshot) := do
  let history ← ask .listSnapshots
  return history.getLast?

def getBySequence (sequenceId : ℕ) : Service (Option Snapshot) := do
  let history ← ask .listSnapshots
  return history.find? fun snapshot => snapshot.sequenceId = sequenceId

end NodeChain

inductive Method where
  | append (eventType : String) (payload : Payload)
  | latest
  | getBySequence (sequenceId : ℕ)
  | listSnapshots
  | reconstruct
  | capture (processId eventType : String) (data : Json.JsObject ℚ)
      (validatorId : Option String)
  | record (processId eventType : String) (data : Json.JsObject ℚ)
      (validatorId : Option String)
  | capturedEvents (processId : String)
  | checkCompleteness (processId : String)
  | verify (processId : String)
  | getVerdict (processId : String)
  | listVerdicts
  | recordMint (amount : ℚ)
  | recordBurn (amount : ℚ)
  | recordEarned (amount : ℚ)
  | totalSupply
  | processNet
  | retained
  | supplySnapshot
  | supplyView
  | mint (processId : String) (amount : ℚ)
  | burn (processId : String) (amount : ℚ)
  | emit (processId : String) (amount : ℚ)
  | emissionSupply
  | register (id type : String)
  | listNodes
  | getNode (id : String)
  | recordExecution (id : String) (success : Bool)
  | currentWeight (id : String)
  | receivePayment (id : String) (amount : ℚ)
  | accrue (epochNumber fee : ℚ) (participants : List Participation)
  | payEpoch (epochNumber : ℚ)
  | getEpoch (epochNumber : ℚ)
  | listEpochs
  | totalProcessVolume
  | totalAfcReserve
  | addAfcAccrual (amount : ℚ)
  | reserveIndex
  | internalPrice (base : ℚ)
  | velocity (processVolume24h : ℚ)
  | check (threshold target processVolume24h : ℚ)
  | activate (threshold target processVolume24h : ℚ)
  | isActive
  | runProcess (input : RunProcessDto)
  | finalizeEpoch (epoch : ℚ)
  | metrics (epoch : ℚ)
  | getProcess (processId : String)
  | compareSupply (observed : SupplyView)
  | verifyChain

namespace Method

/-- What a method returns. -/
@[reducible]
def Result : Method → Type
  | append .. => Snapshot
  | latest => Option Snapshot
  | getBySequence _ => Option Snapshot
  | listSnapshots => List Snapshot
  | reconstruct => ReconstructResult
  | capture .. => Snapshot
  | record .. => Snapshot
  | capturedEvents _ => List String
  | checkCompleteness _ => CompletenessResult
  | verify _ => VerifyResult
  | getVerdict _ => Option PotVerdict
  | listVerdicts => List PotVerdict
  | recordMint _ => Unit
  | recordBurn _ => Unit
  | recordEarned _ => Unit
  | totalSupply => ℚ
  | processNet => ℚ
  | retained => ℚ
  | supplySnapshot => SupplySnapshot
  | supplyView => SupplyView
  | mint .. => ℚ
  | burn .. => ℚ
  | emit .. => EmitResult
  | emissionSupply => ℚ
  | register .. => NodeEntity
  | listNodes => List NodeEntity
  | getNode _ => Option NodeEntity
  | recordExecution .. => NodeEntity
  | currentWeight _ => ℚ
  | receivePayment .. => Unit
  | accrue .. => Epoch
  | payEpoch _ => FinalizeResult
  | getEpoch _ => Option Epoch
  | listEpochs => List Epoch
  | totalProcessVolume => ℚ
  | totalAfcReserve => ℚ
  | addAfcAccrual _ => Unit
  | reserveIndex => ℚ
  | internalPrice _ => ℚ
  | velocity _ => ℚ
  | check .. => MaturityCheck
  | activate .. => ActivateResult
  | isActive => Bool
  | runProcess _ => RunProcessResult
  | finalizeEpoch _ => FinalizeResult
  | metrics _ => MetricsSnapshot
  | getProcess _ => ProcessView
  | compareSupply _ => Bool
  | verifyChain => ReconstructResult

/-- The body of a method. -/
def handler (env : Environment) :
    (method : Method) → Service method.Result
  | append eventType payload => ask (.append eventType payload)
  | latest => NodeChain.latest
  | getBySequence sequenceId => NodeChain.getBySequence sequenceId
  | listSnapshots => ask .listSnapshots
  | reconstruct => Pot.reconstruct env
  | capture processId eventType data validatorId =>
      StateRecording.capture processId eventType data validatorId
  | record processId eventType data validatorId =>
      StateRecording.record processId eventType data validatorId
  | capturedEvents processId => StateRecording.capturedEvents processId
  | checkCompleteness processId =>
      StateRecording.checkCompleteness processId
  | verify processId => Pot.verify env processId
  | getVerdict processId => Pot.getVerdict processId
  | listVerdicts => Pot.list
  | recordMint amount => ArosCoin.recordMint amount
  | recordBurn amount => ArosCoin.recordBurn amount
  | recordEarned amount => ArosCoin.recordEarned amount
  | totalSupply => ArosCoin.totalSupply
  | processNet => ArosCoin.processNet
  | retained => ArosCoin.retained
  | supplySnapshot => ArosCoin.snapshot
  | supplyView => ArosCoin.supplyView
  | mint processId amount => Emission.mint processId amount
  | burn processId amount => Emission.burn processId amount
  | emit processId amount => Emission.emit processId amount
  | emissionSupply => Emission.totalSupply
  | register id type => Nodes.register id type
  | listNodes => Nodes.list
  | getNode id => Nodes.get id
  | recordExecution id success => Nodes.recordExecution id success
  | currentWeight id => Nodes.currentWeight id
  | receivePayment id amount => Nodes.receivePayment id amount
  | accrue epochNumber fee participants =>
      Commission.accrue epochNumber fee participants
  | payEpoch epochNumber => Commission.finalizeEpoch env epochNumber
  | getEpoch epochNumber => Commission.getEpoch epochNumber
  | listEpochs => Commission.list
  | totalProcessVolume => Reserve.totalProcessVolume
  | totalAfcReserve => Reserve.totalAfcReserve
  | addAfcAccrual amount => Reserve.addAfcAccrual amount
  | reserveIndex => Reserve.reserveIndex env
  | internalPrice base => Reserve.internalPrice env base
  | velocity processVolume24h => Release.velocity processVolume24h
  | check threshold target processVolume24h =>
      Release.check env threshold target processVolume24h
  | activate threshold target processVolume24h =>
      Release.activate env threshold target processVolume24h
  | isActive => Release.isActive
  | runProcess input => Orchestrator.runProcess env input
  | finalizeEpoch epoch => Orchestrator.finalizeEpoch env epoch
  | metrics epoch => Orchestrator.metrics env epoch
  | getProcess processId => Orchestrator.getProcess processId
  | compareSupply observed => AllSeeingEye.compareSupply env observed
  | verifyChain => AllSeeingEye.verifyChain env

end Method

/-- The methods that observe. -/
inductive Observer where
  | log (eventType layer description : String)
  | compareSupply (observed : SupplyView)
  | verifyChain
  | verifyLog
  | getLog
  | metrics (epoch : ℚ)
  | getProcess (processId : String)

namespace Observer

/-- What an observer returns. -/
@[reducible]
def Result : Observer → Type
  | log .. => OversightLogEntry
  | compareSupply _ => Bool
  | verifyChain => ReconstructResult
  | verifyLog => ReconstructResult
  | getLog => List OversightLogEntry
  | metrics _ => MetricsSnapshot
  | getProcess _ => ProcessView

/-- The body of an observer. -/
def handler (env : Environment) :
    (observer : Observer) → Service observer.Result
  | log eventType layer description =>
      AllSeeingEye.log eventType layer description
  | compareSupply observed => AllSeeingEye.compareSupply env observed
  | verifyChain => AllSeeingEye.verifyChain env
  | verifyLog => AllSeeingEye.verifyLog env
  | getLog => AllSeeingEye.getLog
  | metrics epoch => Orchestrator.metrics env epoch
  | getProcess processId => Orchestrator.getProcess processId

end Observer

variable (env : Environment)

abbrev services : Await.Interface signature ServiceError where
  Method := Method
  Result := Method.Result
  handler := Method.handler env

abbrev observers : Await.Interface signature ServiceError where
  Method := Observer
  Result := Observer.Result
  handler := Observer.handler env

end ArosParadigm
