import MeteredContracts.Document.Json
import MeteredContracts.Identifier.Decode
import MeteredContracts.Main
import MeteredContracts.Proofs.CacheTransparency
import MeteredContracts.Proofs.CallStack
import MeteredContracts.Proofs.Confinement
import MeteredContracts.Proofs.Contexts
import MeteredContracts.Proofs.Counters
import MeteredContracts.Proofs.LeastRecentlyUsed
import MeteredContracts.Proofs.MoneyConservation
import MeteredContracts.Proofs.Nesting
import MeteredContracts.Proofs.RepeatedFuel
import MeteredContracts.Proofs.RunningDry
import MeteredContracts.Proofs.UnpaidStarts
import MeteredContracts.Proofs.UnrunCalls
import MeteredContracts.Proofs.ServedFrames
import MeteredContracts.Proofs.Deployments
import MeteredContracts.Proofs.NestedResults
import MeteredContracts.Proofs.StorageHistory
import MeteredContracts.Proofs.Funding
import MeteredContracts.Proofs.RecordedResults
import MeteredContracts.Proofs.MemoryBounds
import MeteredContracts.Proofs.Wiring
import MeteredContracts.Proofs.ContextEncoding
import MeteredContracts.Proofs.Metering
import MeteredContracts.Proofs.RunningAverage
import MeteredContracts.Proofs.Cancellation
import MeteredContracts.Proofs.Registrations
import MeteredContracts.Proofs.CreatedAccounts
import MeteredContracts.Proofs.AddressText
import MeteredContracts.Proofs.IdentifierDocuments
import MeteredContracts.Proofs.Grants
import MeteredContracts.Proofs.OmittedSettings
