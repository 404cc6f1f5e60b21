import VodogeEdge.UplinkHistory
import VodogeEdge.OutboxAppendCrash
import VodogeEdge.OutboxCapacity
import VodogeEdge.LinkWindow
import VodogeEdge.LinkLifecycle
import VodogeEdge.AgentAtMostOnce
import VodogeEdge.AgentSelfUpdate
import VodogeEdge.AgentTerminal
import VodogeEdge.InboxSwallow
import VodogeEdge.InboxCustody
import VodogeEdge.InboxMixing
import VodogeEdge.InboxRelease
import VodogeEdge.InboxLocal
import VodogeEdge.LongMessage
import VodogeEdge.GatePasses
import VodogeEdge.AtReading
import VodogeEdge.AtCuts
import VodogeEdge.AtListing
import VodogeEdge.QmuxRead
import VodogeEdge.QmiClient
import VodogeEdge.EsimGate
import VodogeEdge.EsimProfiles
import VodogeEdge.CardNumber
import VodogeEdge.EsimChains
import VodogeEdge.EsimSegments
import VodogeEdge.AkaTrace
import VodogeEdge.RestartLadder
import VodogeEdge.Wms
import VodogeEdge.EnrollModes
import VodogeEdge.ApnKept
import VodogeEdge.ModemCard
import VodogeEdge.Registration
import VodogeEdge.ProxyTeardown
import VodogeEdge.LeaseSlots
import VodogeEdge.IkeTransport
import VodogeEdge.IkeAuthSound
import VodogeEdge.PanelGuard
import VodogeEdge.RtpClock
