import Llmxy.Lib.Machine
import Llmxy.Lib.Proc
import Llmxy.Lib.Table
import Llmxy.Lib.SerialTable
import Llmxy.Lib.RowLock
import Llmxy.Lib.Drain
import Llmxy.Lib.ExpiringStore
import Llmxy.Lib.Text
import Llmxy.Lib.Sse
import Llmxy.Db.Models
import Llmxy.Db.Session
import Llmxy.Billing.Basic
import Llmxy.Billing.Charge
import Llmxy.Billing.Refund
import Llmxy.QuotaCache.Basic
import Llmxy.ApiKeys
import Llmxy.QuotaCache.Commands
import Llmxy.QuotaCache.Run
import Llmxy.QuotaCache.Agreement
import Llmxy.QuotaCache.Writes
import Llmxy.QuotaCache.Spent
import Llmxy.QuotaCache.Exhausted
import Llmxy.QuotaCache.KeyCounter
import Llmxy.QuotaCache.Mirror
import Llmxy.QuotaCache.Ended
import Llmxy.Billing.KeyUsage
import Llmxy.Lib.Calendar
import Llmxy.Billing.Credit
import Llmxy.Billing.Wallet
import Llmxy.Billing.Replay
import Llmxy.Billing.LostUpdate
import Llmxy.Orders
import Llmxy.Billing.PurchaseCap
import Llmxy.Billing.OwnProvider
import Llmxy.Billing.Lifecycle
import Llmxy.Billing.FundsLock
import Llmxy.Billing.CancelRace
import Llmxy.Billing.RenewRace
import Llmxy.Billing.SubscribeRace
import Llmxy.Billing.ImageHolds
import Llmxy.Relay.Billing
import Llmxy.Relay.Commit
import Llmxy.Lib.Utf8
import Llmxy.Lib.Pieces
import Llmxy.Lib.Json
import Llmxy.Lib.JsonKeys
import Llmxy.Lib.Loops
import Llmxy.Lib.Dumps
import Llmxy.Lib.CutText
import Llmxy.Lib.ThinJson
import Llmxy.Relay.Usage
import Llmxy.Protocols.ChatChunk
import Llmxy.Protocols.ChatRead
import Llmxy.Protocols.DataLine
import Llmxy.Protocols.AnthropicStream
import Llmxy.Protocols.EventBlock
import Llmxy.Protocols.ResponsesStream
import Llmxy.Relay.StreamCost
import Llmxy.Relay.Failover
import Llmxy.Relay.Image
import Llmxy.Relay.Prompt
import Llmxy.Relay.Stream
import Llmxy.Envoy.ExtProc
import Llmxy.Envoy.Als
import Llmxy.Relay.UsageRows
import Llmxy.Envoy.XdsRegistry
import Llmxy.Envoy.AdsStream
import Llmxy.Envoy.AdsNack
import Llmxy.Protocols.Ids
import Llmxy.Admin.Schemas
import Llmxy.Providers.Registry
import Llmxy.Providers.OpenaiCompat
import Llmxy.Providers.Adapters
import Llmxy.Admin.Catalog
import Llmxy.Admin.Modality
import Llmxy.Admin.Servable
import Llmxy.Providers.SmartRules
import Llmxy.Protocols.ChatBody
import Llmxy.Providers.EventLines
import Llmxy.Providers.ChatOutput
import Llmxy.Providers.Anthropic
import Llmxy.Providers.AnthropicDetour
import Llmxy.Providers.AnthropicModes
import Llmxy.Providers.Gemini
import Llmxy.Providers.GeminiModes
import Llmxy.Protocols.ResponsesDetour
import Llmxy.Providers.Exemplars
import Llmxy.Billing.WindowRoll
import Llmxy.Envoy.Principals
import Llmxy.Envoy.Revoked
import Llmxy.Lib.Binary64
import Llmxy.Lib.FirstSeen
import Llmxy.Lib.Digits
import Llmxy.Lib.WhileLoop
import Llmxy.Providers.Router
import Llmxy.Providers.WeightedPick
import Llmxy.Providers.RoundRobin
import Llmxy.Envoy.ChatChain
import Llmxy.Billing.ChargeOrder
import Llmxy.Billing.RenewedPeriod
import Llmxy.ApiKeys.Windows
import Llmxy.ApiKeys.Cached
import Llmxy.ApiKeys.Modes
import Llmxy.Lib.RunningMax
import Llmxy.Lib.Checks
import Llmxy.Lib.Encodable
import Llmxy.ApiKeys.Settings
import Llmxy.Providers.TokenField
import Llmxy.Providers.TokenRetry
import Llmxy.Providers.GeminiRequest
import Llmxy.Providers.Classify
import Llmxy.QuotaCache.RateLimit
import Llmxy.Envoy.Instances
import Llmxy.Protocols.ChatShapes
import Llmxy.Protocols.AnthropicCalls
import Llmxy.Protocols.AnthropicShapes
import Llmxy.Protocols.ResponsesEvents
import Llmxy.Lib.OrderedDict
import Llmxy.ApiKeys.TtlCache
import Llmxy.ApiKeys.CacheStore
import Llmxy.Lib.ByteLines
import Llmxy.Envoy.LogTail
import Llmxy.Envoy.HealthMonitor
import Llmxy.Lib.History
import Llmxy.ApiKeys.Staleness
import Llmxy.Envoy.ExtProcStream
import Llmxy.Envoy.XdsConfig
import Llmxy.Envoy.Hop
import Llmxy.Envoy.AlsStream
import Llmxy.Lib.UniqueTable
import Llmxy.Auth
import Llmxy.Protocols.BothModes
import Llmxy.Relay.Gates
import Llmxy.Relay.Embeddings
