import ArosParadigm.ChainTransactions
import ArosParadigm.ConcurrentRuns
import ArosParadigm.EpochRace
import ArosParadigm.ValueGate
import ArosParadigm.Store
import ArosParadigm.StateRecording
import ArosParadigm.Pot
import ArosParadigm.ArosCoin
import ArosParadigm.Nodes
import ArosParadigm.Reserve
import ArosParadigm.Emission
import ArosParadigm.Commission
import ArosParadigm.Release
import ArosParadigm.Restart
import ArosParadigm.AllSeeingEye
import ArosParadigm.EmissionOnce
import ArosParadigm.FeeConservation
import ArosParadigm.SupplyDerivation
import ArosParadigm.Library.Json.Properties
import ArosParadigm.Accounts
import ArosParadigm.AuditedFigures
import ArosParadigm.BadAssignment
import ArosParadigm.BurnCover
import ArosParadigm.CanonicalPayload
import ArosParadigm.FormulaAgreement
import ArosParadigm.LedgerRecovery
import ArosParadigm.Library.Balances
import ArosParadigm.Library.Rearrangement
import ArosParadigm.OversightBinding
import ArosParadigm.OversightTransactions
import ArosParadigm.ParticipationCount
import ArosParadigm.ProcessPart
import ArosParadigm.ProcessVolume
import ArosParadigm.PassiveObservation
import ArosParadigm.ReferenceEpochs
import ArosParadigm.ReferenceRefinement
import ArosParadigm.ReleaseRace
import ArosParadigm.ReserveAudit
import ArosParadigm.ReserveManager
import ArosParadigm.RunReport
import ArosParadigm.EpochRetry
import ArosParadigm.VerdictRace
import ArosParadigm.VerdictRecord
import ArosParadigm.WorkRecord
import ArosParadigm.Progress
import ArosParadigm.DeployedRecords
import ArosParadigm.Endpoints
import ArosParadigm.BackedValue
import ArosParadigm.ReserveRecords
import ArosParadigm.EconomyAnswers
