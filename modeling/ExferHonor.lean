import ExferHonor.Adapters.Decimal
import ExferHonor.Adapters.Gate
import ExferHonor.Adapters.GateTables
import ExferHonor.Adapters.HexText
import ExferHonor.Adapters.IndexerChain
import ExferHonor.Adapters.KeystoreCustody
import ExferHonor.Adapters.LooseHex
import ExferHonor.Adapters.Postgres
import ExferHonor.Adapters.PostgresProtocol
import ExferHonor.Adapters.PostgresServer
import ExferHonor.Adapters.PostgresSweep
import ExferHonor.Adapters.PostgresTxn
import ExferHonor.Adapters.Promotion
import ExferHonor.Adapters.Schema
import ExferHonor.Adapters.SeenRow
import ExferHonor.Adapters.Sqlite
import ExferHonor.Adapters.Store
import ExferHonor.Adapters.StoreCalls
import ExferHonor.Adapters.StoreOps
import ExferHonor.Adapters.TxHex
import ExferHonor.Adapters.WalletdVerifier
import ExferHonor.Bytes.LittleEndian
import ExferHonor.Bytes.Reader
import ExferHonor.Core.AllOrNothing
import ExferHonor.Core.Alone
import ExferHonor.Core.CanHonor
import ExferHonor.Core.ChainFaults
import ExferHonor.Core.ClaimReservation
import ExferHonor.Core.ClaimRuns
import ExferHonor.Core.ClaimWindow
import ExferHonor.Core.ClaimedHonor
import ExferHonor.Core.Clients
import ExferHonor.Core.CommitWindow
import ExferHonor.Core.ConcurrentRegister
import ExferHonor.Core.Conformance
import ExferHonor.Core.ConsumedLife
import ExferHonor.Core.Contenders
import ExferHonor.Core.Contention
import ExferHonor.Core.Delivery
import ExferHonor.Core.Engine
import ExferHonor.Core.ExactlyOnce
import ExferHonor.Core.ExpiredVerdict
import ExferHonor.Core.FakeStore
import ExferHonor.Core.HonorRuns
import ExferHonor.Core.HtlcRuns
import ExferHonor.Core.OneClaim
import ExferHonor.Core.OneDelivery
import ExferHonor.Core.PaidRuns
import ExferHonor.Core.PersistedQuote
import ExferHonor.Core.PlainRuns
import ExferHonor.Core.PortFaults
import ExferHonor.Core.PostgresPhases
import ExferHonor.Core.PostgresPool
import ExferHonor.Core.PostgresRace
import ExferHonor.Core.PostgresSerial
import ExferHonor.Core.Restart
import ExferHonor.Core.Scorer
import ExferHonor.Core.SeenLife
import ExferHonor.Core.TaskCalls
import ExferHonor.Core.TypedFaults
import ExferHonor.Core.WireAmounts
import ExferHonor.Core.World
import ExferHonor.Effects.Attempt
import ExferHonor.Effects.Carried
import ExferHonor.Effects.Escape
import ExferHonor.Effects.Footprint
import ExferHonor.Effects.History
import ExferHonor.Effects.Interpret
import ExferHonor.Effects.Machine
import ExferHonor.Effects.Part
import ExferHonor.Effects.Pool
import ExferHonor.Effects.Program
import ExferHonor.Effects.Protocol
import ExferHonor.Effects.Refinement
import ExferHonor.Effects.Runs
import ExferHonor.Effects.Session
import ExferHonor.Effects.Tickets
import ExferHonor.Effects.WriteOnce
import ExferHonor.Faucet.Limits
import ExferHonor.Faucet.Server
import ExferHonor.Forms.Address
import ExferHonor.Forms.Htlc
import ExferHonor.Forms.HtlcVerdict
import ExferHonor.Forms.Plain
import ExferHonor.Forms.PlainVerdict
import ExferHonor.Forms.Spine
import ExferHonor.Merchant.Fulfil
import ExferHonor.Merchant.Goods
import ExferHonor.Merchant.Ledger
import ExferHonor.Merchant.Shop
import ExferHonor.Numeric.Budget
import ExferHonor.Numeric.Significant
import ExferHonor.Ports.Interface
import ExferHonor.Ports.Store
import ExferHonor.Ports.Total
import ExferHonor.Relational.OrderedMap
import ExferHonor.Relational.Table
import ExferHonor.Service.Cancel
import ExferHonor.Service.ChainFaults
import ExferHonor.Service.DoneTells
import ExferHonor.Service.HonestServices
import ExferHonor.Service.HttpRpc
import ExferHonor.Service.LateHonor
import ExferHonor.Service.Loop
import ExferHonor.Service.LoopCalls
import ExferHonor.Service.OnPaid
import ExferHonor.Service.OneTick
import ExferHonor.Service.PaidGoods
import ExferHonor.Service.RegisterFault
import ExferHonor.Service.TickPorts
import ExferHonor.Service.WireRefinement
import ExferHonor.Service.Wiring
import ExferHonor.Spec.Datum
import ExferHonor.Spec.Errors
import ExferHonor.Spec.Types
