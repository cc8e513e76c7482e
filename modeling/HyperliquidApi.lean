import HyperliquidApi.ActionStatuses
import HyperliquidApi.AdvertisedTick
import HyperliquidApi.Backoff
import HyperliquidApi.BatchIsolation
import HyperliquidApi.CancelReconciliation
import HyperliquidApi.ClosedCandles
import HyperliquidApi.ConnectedFlag
import HyperliquidApi.ConnectionMessages
import HyperliquidApi.DroppedOrders
import HyperliquidApi.EventFidelity
import HyperliquidApi.FillDecoders
import HyperliquidApi.FillDelivery
import HyperliquidApi.FundingRates
import HyperliquidApi.Heartbeat
import HyperliquidApi.HistoricalPricesRecent
import HyperliquidApi.KeptTopics
import HyperliquidApi.LatestUniverse
import HyperliquidApi.LeadingTopics
import HyperliquidApi.MapHistory
import HyperliquidApi.MarketClose
import HyperliquidApi.MinimalHex
import HyperliquidApi.Nonces
import HyperliquidApi.OrderWires
import HyperliquidApi.PagingTermination
import HyperliquidApi.PrivateKeys
import HyperliquidApi.RefusedSubmits
import HyperliquidApi.RejectWording
import HyperliquidApi.SessionWork
import HyperliquidApi.Signatures
import HyperliquidApi.StreamManager
import HyperliquidApi.TerminalOutcomes
import HyperliquidApi.UserClose
import HyperliquidApi.WireNumbers
import HyperliquidApi.WritePump
import HyperliquidApi.ExchangeClient
