import SfuServer.Lib.Machine
import SfuServer.Lib.Broadcast
import SfuServer.Lib.Vec
import SfuServer.Lib.Endian
import SfuServer.Lib.RwLock
import SfuServer.Wire
import SfuServer.Http
import SfuServer.Ws.Group
import SfuServer.Ws.GroupsManager
import SfuServer.Ws.Index
import SfuServer.Ws.Delivery
import SfuServer.Rtc.Forwarder
import SfuServer.Room.Room
import SfuServer.Route.Handlers
import SfuServer.Route.Streams
import SfuServer.Room.History
import SfuServer.Ws.Session
import SfuServer.Ws.Isolation
import SfuServer.Rtc.DataChannel
import SfuServer.Rtc.Publish
import SfuServer.Rtc.Reaper
import SfuServer.Route.Signaling
import SfuServer.Rtc.Subscribe
import SfuServer.Rtc.Binding
import SfuServer.Rtc.Layers
import SfuServer.Rtc.Media
import SfuServer.Rtc.PeerForward
import SfuServer.Rtc.Atomic
import SfuServer.Authenticity
import SfuServer.Rtc.Sessions
import SfuServer.Rtc.Locks
import SfuServer.Rtc.Negotiation
import SfuServer.Rtc.AddSubscribe
import SfuServer.Ws.Joins
import SfuServer.Room.Admission
import SfuServer.Route.Table
import SfuServer.Room.Seats
import SfuServer.Rtc.Registry
import SfuServer.Rtc.Bursts
import SfuServer.Ws.Members
import SfuServer.Ws.Presence
import SfuServer.Rtc.Creators
import SfuServer.Removal
import SfuServer.Independence
import SfuServer.Room.Deletion
import SfuServer.Route.Upgrades
import SfuServer.Route.Whep
import SfuServer.Lib.Utf8
import SfuServer.Lib.Fnv
import SfuServer.Rtc.Closing
import SfuServer.Rtc.Offers
import SfuServer.Route.Authorization
import SfuServer.Room.Settings
import SfuServer.Room.Keys
import SfuServer.Ws.Totality
import SfuServer.Ws.Interleaved
import SfuServer.Lib.LockScope
import SfuServer.Route.Concurrent
import SfuServer.Route.LockOrder
import SfuServer.Route.Listing
import SfuServer.Ws.Privacy
import SfuServer.Rtc.Privacy
import SfuServer.Lib.Relay
import SfuServer.Ws.Order
import SfuServer.Rtc.Order
import SfuServer.Rtc.Rounds
import SfuServer.Rtc.Packets
import SfuServer.Rtc.Feedback
import SfuServer.Web.Client
import SfuServer.Web.Request
import SfuServer.Web.Trickle
