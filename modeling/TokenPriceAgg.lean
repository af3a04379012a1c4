import TokenPriceAgg.Lib.Dict
import TokenPriceAgg.Lib.Sqlite
import TokenPriceAgg.Lib.Eff
import TokenPriceAgg.Lib.Numeric
import TokenPriceAgg.Lib.Decimals
import TokenPriceAgg.Lib.DecimalRounding
import TokenPriceAgg.Lib.DecimalMean
import TokenPriceAgg.Lib.OrderStatistics
import TokenPriceAgg.Lib.FloorRates
import TokenPriceAgg.Lib.DecimalText
import TokenPriceAgg.Lib.Floats
import TokenPriceAgg.Lib.DateTime
import TokenPriceAgg.Lib.PyText
import TokenPriceAgg.Lib.Regex
import TokenPriceAgg.Lib.Runs
import TokenPriceAgg.Lib.Leases
import TokenPriceAgg.Lib.FirstWins
import TokenPriceAgg.Lib.BoundedWaiting
import TokenPriceAgg.Core.Errors
import TokenPriceAgg.Core.Models
import TokenPriceAgg.Core.Validator
import TokenPriceAgg.Core.Circuit
import TokenPriceAgg.Core.CircuitRuns
import TokenPriceAgg.Core.CircuitProbes
import TokenPriceAgg.Core.CircuitWindow
import TokenPriceAgg.App.Config
import TokenPriceAgg.Core.Limits
import TokenPriceAgg.Core.LimiterRuns
import TokenPriceAgg.Core.ProviderRunner
import TokenPriceAgg.Core.RunnerRules
import TokenPriceAgg.Core.RunnerLedger
import TokenPriceAgg.Core.RunnerResults
import TokenPriceAgg.Core.RunnerOutputs
import TokenPriceAgg.Core.Normalizer
import TokenPriceAgg.Core.Summaries
import TokenPriceAgg.Core.Selection
import TokenPriceAgg.Vault.Rpc
import TokenPriceAgg.Vault.Adapters
import TokenPriceAgg.Vault.Resolver
import TokenPriceAgg.Vault.RoundTrips
import TokenPriceAgg.Vault.Evidence
import TokenPriceAgg.Vault.Detections
import TokenPriceAgg.Vault.DetectionPaths
import TokenPriceAgg.Core.VaultUnderlying
import TokenPriceAgg.Core.Aggregator
import TokenPriceAgg.Core.FailClosed
import TokenPriceAgg.Core.ConvertedAmounts
import TokenPriceAgg.Core.MirroredAmounts
import TokenPriceAgg.Core.AdjustedPrices
import TokenPriceAgg.Core.AmountInput
import TokenPriceAgg.Core.AddressForms
import TokenPriceAgg.Core.QuoteConversions
import TokenPriceAgg.Providers.HttpHelpers
import TokenPriceAgg.Providers.Adapters
import TokenPriceAgg.Providers.RateLimits
import TokenPriceAgg.Providers.PayloadErrors
import TokenPriceAgg.Providers.Parsing
import TokenPriceAgg.Providers.ParsedAmounts
import TokenPriceAgg.Providers.Payloads
import TokenPriceAgg.Providers.HttpClient
import TokenPriceAgg.Providers.Registry
import TokenPriceAgg.TokenMetadata.Policy
import TokenPriceAgg.TokenMetadata.Cache
import TokenPriceAgg.TokenMetadata.Onchain
import TokenPriceAgg.TokenMetadata.Resolver
import TokenPriceAgg.TokenMetadata.LogoStore
import TokenPriceAgg.TokenMetadata.LogoSources
import TokenPriceAgg.TokenMetadata.SourceLists
import TokenPriceAgg.TokenMetadata.Prewarm
import TokenPriceAgg.TokenMetadata.LogoAcquirer
import TokenPriceAgg.TokenMetadata.LogoAnswers
import TokenPriceAgg.TokenMetadata.LogoService
import TokenPriceAgg.TokenMetadata.LogoCandidates
import TokenPriceAgg.TokenMetadata.LogoMaintenance
import TokenPriceAgg.TokenMetadata.LogoQueue
import TokenPriceAgg.Security.ApiKeyStore
import TokenPriceAgg.Security.KeyLifeCycle
import TokenPriceAgg.Security.RateWindows
import TokenPriceAgg.Security.AnonLimiter
import TokenPriceAgg.Security.Authentication
import TokenPriceAgg.Security.GateRuns
import TokenPriceAgg.Api.IfNoneMatch
import TokenPriceAgg.Api.Requests
import TokenPriceAgg.Api.Aggregates
import TokenPriceAgg.Api.Prices
import TokenPriceAgg.Api.Quotes
import TokenPriceAgg.Web3.RpcClient
