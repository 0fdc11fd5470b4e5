import PocketCash.Library.KeyedList
import PocketCash.Library.Run
import PocketCash.Library.Custody
import PocketCash.Library.FirstClaim
import PocketCash.Library.Python
import PocketCash.Canonical.Token
import PocketCash.Canonical.Wallet
import PocketCash.Canonical.Selection
import PocketCash.Canonical.PaymentSession
import PocketCash.Canonical.Reconciliation
import PocketCash.Canonical.FirstClaim
import PocketCash.Canonical.Network
import PocketCash.Canonical.Circulation
import PocketCash.Canonical.Registers
import PocketCash.Canonical.History
import PocketCash.Canonical.Channel
import PocketCash.Canonical.Change
import PocketCash.Canonical.MinimalSelection
import PocketCash.Canonical.ExactChange
import PocketCash.Canonical.Credit
import PocketCash.Canonical.SendAtomicity
import PocketCash.Library.Hex
import PocketCash.Library.Delimited
import PocketCash.Library.HashLinked
import PocketCash.Library.SublistOrder
import PocketCash.Library.KeyedTotal
import PocketCash.Library.GreedyCover
import PocketCash.Library.JsonEncoding
import PocketCash.Dpc.Token
import PocketCash.Dpc.Chain
import PocketCash.Dpc.Ledger
import PocketCash.Dpc.Register
import PocketCash.Dpc.Storage
import PocketCash.Dpc.RegisterRun
import PocketCash.Dpc.Wallet
import PocketCash.Dpc.Network
import PocketCash.Dpc.Documents
import PocketCash.Dpc.Files
import PocketCash.Dpc.BleSession
import PocketCash.Dpc.SessionNetwork
import PocketCash.Dpc.Circulation
import PocketCash.Dpc.Change
import PocketCash.Dpc.LedgerStorage
import PocketCash.Dpc.Conflicts
import PocketCash.Dpc.TipHash
import PocketCash.Dpc.HopRule
import PocketCash.Dpc.Refusal
import PocketCash.Dpc.Persistence
import PocketCash.Dpc.ProxyBatch
import PocketCash.Offline.Models
import PocketCash.Offline.Server
import PocketCash.Offline.Run
import PocketCash.Offline.Settlement
import PocketCash.Offline.Recovery
import PocketCash.Offline.Payout
import PocketCash.Offline.Revocation
import PocketCash.Offline.Claims
import PocketCash.Offline.Tables
import PocketCash.Offline.FirstSpend
import PocketCash.Offline.Wallet
import PocketCash.Offline.Handover
import PocketCash.Offline.BalanceCap
import PocketCash.Offline.Network
import PocketCash.Offline.History
import PocketCash.Offline.Delivery
import PocketCash.Offline.Circulation
import PocketCash.Offline.Heartbeat
import PocketCash.Offline.Envelope
import PocketCash.Offline.Receiving
import PocketCash.Offline.Bundle
import PocketCash.Offline.Credit
import PocketCash.Offline.PaymentCap
import PocketCash.Offline.HeartbeatPayload
import PocketCash.Offline.Relay
import PocketCash.Offline.ProxySync
import PocketCash.Offline.Signatures
import PocketCash.Library.FloatText
import PocketCash.Library.FloatRead
import PocketCash.Library.JsonFormat
import PocketCash.Library.JsonSorted
import PocketCash.Library.Hops
import PocketCash.Poc.Token
import PocketCash.Poc.Wallet
import PocketCash.Poc.IssuerLedger
import PocketCash.Poc.SignatureMessage
import PocketCash.Poc.FirstClaim
import PocketCash.Poc.Handover
import PocketCash.Poc.Transfer
import PocketCash.Poc.Route
import PocketCash.Poc.Channel
import PocketCash.Poc.Atomicity
import PocketCash.Poc.NonceReuse
import PocketCash.Poc.Settlement
import PocketCash.Poc.RefusedSend
import PocketCash.Poc.Batch
import PocketCash.Poc.LegitimateOwner
import PocketCash.Poc.Commitment
import PocketCash.Library.Transit
import PocketCash.Library.Mailbox
import PocketCash.Mobile.BleAdapter
import PocketCash.Poc.Circulation
import PocketCash.Poc.Conservation
import PocketCash.Offline.Conservation
import PocketCash.Library.Base64
import PocketCash.Canonical.Signatures
import PocketCash.Canonical.Fork
import PocketCash.Poc.ProxySync
