import Telehash.Association
import Telehash.Runs
import Telehash.TwoSided
import Telehash.PacketCodec
import Telehash.PacketBuffer
import Telehash.Channel
import Telehash.ReliableChannel
import Telehash.ReliableViews
import Telehash.ReliableInbound
import Telehash.ReliableArrivals
import Telehash.ReliableOutbound
import Telehash.ReliablePair
import Telehash.Identity
import Telehash.CipherSet
import Telehash.OpenAuthentication
import Telehash.Switch
import Telehash.LineInfo
import Telehash.LineEnd
import Telehash.LineKeys
import Telehash.UnreliableChannel
import Telehash.LineDispatch
import Telehash.ChannelIds
import Telehash.Completions
import Telehash.LineSending
import Telehash.ChannelOpening
import Telehash.MeshLink
import Telehash.RelayPath
import Telehash.MutableEnumeration
import Telehash.PendingJobs
import Telehash.SwitchRuns
import Telehash.SwitchSound
import Telehash.LineClasses
import Telehash.OpenLines
import Telehash.FailedOpen
import Telehash.FinalStates
import Telehash.SentTrace
import Telehash.ClosingChannel
import Telehash.LogDistance
import Telehash.Distance
import Telehash.KeyOrder
import Telehash.MeshBuckets
import Telehash.Buckets
import Telehash.Placement
import Telehash.Nearby
import Telehash.RoutingTable
import Telehash.PendingSeek
import Telehash.OpenReplay
import Telehash.OpenWire
import Telehash.HexString
import Telehash.LineWire
import Telehash.RangeFaults
import Telehash.MalformedPackets
import Telehash.SenderWindow
import Telehash.AckTimer
import Telehash.MissLists
import Telehash.PausedSends
import Telehash.UnreliableQueue
import Telehash.TruthfulHeader
import Telehash.SeeStrings
import Telehash.PacketNodes
import Telehash.SeekQueries
import Telehash.SeekCompletion
import Telehash.LocalPaths
import Telehash.InterfaceGathering
import Telehash.HashChain
import Telehash.PartsHash
import Telehash.LocalHashname
import Telehash.MeshFrames
import Telehash.TableCapacity
import Telehash.PingPass
import Telehash.EntryLoop
import Telehash.LinkSees
import Telehash.SeeSurvival
import Telehash.SecureLine
import Telehash.PathObjects
import Telehash.PathNegotiation
import Telehash.PathChoice
import Telehash.PathExchange
import Telehash.PeerRelays
import Telehash.SeekAnswer
import Telehash.Handshake
import Telehash.Introduction
import Telehash.FirstAnswer
import Telehash.KeepAlive
import Telehash.LinkInTurn
