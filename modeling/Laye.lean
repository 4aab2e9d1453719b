import Laye.CanonicalBytes
import Laye.Chat
import Laye.Flush
import Laye.Issuance
import Laye.Mastodon
import Laye.Receive
import Laye.Vouching
import Laye.InternalTopics
import Laye.Announce
import Laye.BindingHistory
import Laye.ErrorRuns
import Laye.Tabs
import Laye.LoginRuns
import Laye.Transparency
import Laye.Stats
import Laye.Login
import Laye.Sniff
import Laye.RequestTarget
import Laye.Redirect
import Laye.Coalescing
import Laye.IdentityWire
import Laye.TimedCache
import Laye.Acceptance
import Laye.HandleLookup
import Laye.ChatBody
import Laye.SplitFrames
import Laye.HexCodec
import Laye.WakeUp
import Laye.Handshake
import Laye.Refusals
import Laye.Node
import Laye.Game
import Laye.HostErrors
import Laye.Metrics
import Laye.RelayIdentity
import Laye.Polling
