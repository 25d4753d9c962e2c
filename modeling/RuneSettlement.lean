import RuneSettlement.Exchange.Rehearsal
import RuneSettlement.Proofs.Acceptance
import RuneSettlement.Proofs.AccountEffects
import RuneSettlement.Proofs.Admission
import RuneSettlement.Proofs.Alarms
import RuneSettlement.Proofs.AssetOrder
import RuneSettlement.Proofs.Atomicity
import RuneSettlement.Proofs.Balance
import RuneSettlement.Proofs.BoundedLog
import RuneSettlement.Proofs.CanonicalReserves
import RuneSettlement.Proofs.Causes
import RuneSettlement.Proofs.ChildInputs
import RuneSettlement.Proofs.Commitment
import RuneSettlement.Proofs.CongestionFloor
import RuneSettlement.Proofs.Conservation
import RuneSettlement.Proofs.Cooldowns
import RuneSettlement.Proofs.Dependence
import RuneSettlement.Proofs.DerivationPaths
import RuneSettlement.Proofs.ExactProjection
import RuneSettlement.Proofs.ExactReserves
import RuneSettlement.Proofs.Footprints
import RuneSettlement.Proofs.Formats
import RuneSettlement.Proofs.Genesis
import RuneSettlement.Proofs.IdentifierGrammar
import RuneSettlement.Proofs.IdentifierText
import RuneSettlement.Proofs.Identity
import RuneSettlement.Proofs.Independence
import RuneSettlement.Proofs.Interleaving
import RuneSettlement.Proofs.JsonText
import RuneSettlement.Proofs.KeyCustody
import RuneSettlement.Proofs.LeadingOutput
import RuneSettlement.Proofs.Nonces
import RuneSettlement.Proofs.OutputExchange
import RuneSettlement.Proofs.Ownership
import RuneSettlement.Proofs.Pagination
import RuneSettlement.Proofs.Payouts
import RuneSettlement.Proofs.PendingAgreement
import RuneSettlement.Proofs.PoolMoves
import RuneSettlement.Proofs.Projection
import RuneSettlement.Proofs.Redelivery
import RuneSettlement.Proofs.Refusals
import RuneSettlement.Proofs.RegistrationInfo
import RuneSettlement.Proofs.Registrations
import RuneSettlement.Proofs.ReserveAlgebra
import RuneSettlement.Proofs.Resolutions
import RuneSettlement.Proofs.RewardConservation
import RuneSettlement.Proofs.Rollbacks
import RuneSettlement.Proofs.Runs
import RuneSettlement.Proofs.SessionLog
import RuneSettlement.Proofs.Sessions
import RuneSettlement.Proofs.ShortfallOutputs
import RuneSettlement.Proofs.Shortfalls
import RuneSettlement.Proofs.Slots
import RuneSettlement.Proofs.Staging
import RuneSettlement.Proofs.SurfaceFormats
import RuneSettlement.Proofs.TextOrder
import RuneSettlement.Proofs.Turnover
import RuneSettlement.Proofs.Turns
import RuneSettlement.Proofs.Vouching
import RuneSettlement.Proofs.Withdrawals
import RuneSettlement.Surface.Config
import RuneSettlement.Surface.Refusals
import RuneSettlement.Surface.Requests
import RuneSettlement.Surface.Views
