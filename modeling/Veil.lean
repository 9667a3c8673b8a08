import Veil.Agreement
import Veil.HandshakeBinding
import Veil.ForwardSecrecy
import Veil.FrameReplay
import Veil.NonceUniqueness
import Veil.Outbound
import Veil.Library.Command
import Veil.Pairing
import Veil.OneTimeSpending
import Veil.Redelivery
import Veil.SafetyNumber
import Veil.SealedSender
import Veil.TamperedExchange
import Veil.EarlyTraffic
import Veil.Accounts
import Veil.CallErasure
import Veil.ConnectedCalls
import Veil.Inbound
import Veil.DeliveryStatus
import Veil.Disappearing
import Veil.UnreadCount
import Veil.OwnConversation
import Veil.PairingLock
import Veil.PreKeyPools
import Veil.RelayQueues
import Veil.RoutingFields
import Veil.SigningContexts
import Veil.Rewrapping
import Veil.Formats
import Veil.RowTampering
import Veil.WireLength
import Veil.SpentChallenges
import Veil.SocketRegistry
import Veil.RateLimits
import Veil.UnlockEntry
import Veil.CanonicalPayloads
import Veil.SetupFailures
import Veil.StoreHistory
import Veil.Buckets
import Veil.Fingerprints
import Veil.Pruning
import Veil.HexText
import Veil.Library.Regroup
import Veil.AddressText
import Veil.Transport
import Veil.Library.Fifo
import Veil.SkippedQueue
import Veil.PayloadShapes
import Veil.ServedBundles
import Veil.ComparedKeys
import Veil.RefusedTraffic
import Veil.BundleAuthenticity
import Veil.EndpointRuns
import Veil.LifecycleLock
import Veil.ReconnectingSocket
import Veil.TokenLife
import Veil.RestartedDevice
import Veil.CallAgreement
