import RemoteServer.RustStd.HashMap
import RemoteServer.RustStd.Basic
import RemoteServer.RustStd.Text
import RemoteServer.RustStd.Fs
import RemoteServer.RustStd.Streams
import RemoteServer.RustStd.Protobuf
import RemoteServer.RustStd.Split
import RemoteServer.RustStd.Base64
import RemoteServer.RustStd.Numbers
import RemoteServer.RustStd.Relabel
import RemoteServer.RustStd.AddressText
import RemoteServer.RustStd.AddressRenaming
import RemoteServer.Lts.Run
import RemoteServer.Lts.Pool
import RemoteServer.Lts.Tickets
import RemoteServer.Lts.Window
import RemoteServer.Whatwg.Url
import RemoteServer.Whatwg.Encoding
import RemoteServer.Whatwg.Origin
import RemoteServer.Whatwg.Opaque
import RemoteServer.PyStd.Text
import RemoteServer.PyStd.Dict
import RemoteServer.PyStd.Json
import RemoteServer.Fallible
import RemoteServer.Common
import RemoteServer.ServerLists
import RemoteServer.ServerSyntax
import RemoteServer.Keypair.Machine
import RemoteServer.Keypair.Effects
import RemoteServer.Keypair.Secret
import RemoteServer.Keypair.Publish
import RemoteServer.Keypair.Startup
import RemoteServer.Keypair.LicenceKey
import RemoteServer.Peer.IpTables
import RemoteServer.Peer.Limiter
import RemoteServer.Peer.Basic
import RemoteServer.Database
import RemoteServer.Registration.Basic
import RemoteServer.Registration.Rollback
import RemoteServer.Registration.Renaming
import RemoteServer.PeerStore.Machine
import RemoteServer.PeerStore.Moves
import RemoteServer.PeerStore.Objects
import RemoteServer.PeerStore.Handlers
import RemoteServer.PeerStore.Registry
import RemoteServer.PeerStore.Exclusive
import RemoteServer.PeerStore.FirstClaim
import RemoteServer.PeerStore.Agreement
import RemoteServer.PeerStore.Coherence
import RemoteServer.PeerStore.Lookups
import RemoteServer.PeerStore.Presence
import RemoteServer.PeerStore.Provenance
import RemoteServer.PeerStore.Routing
import RemoteServer.PeerStore.Permanence
import RemoteServer.PeerStore.Phases
import RemoteServer.PeerStore.Revocation
import RemoteServer.PeerStore.StagingOrder
import RemoteServer.PeerStore.Addresses
import RemoteServer.PeerStore.Renaming
import RemoteServer.Rendezvous.Messages
import RemoteServer.Rendezvous.Pending
import RemoteServer.Rendezvous.Machine
import RemoteServer.Rendezvous.Moves
import RemoteServer.Rendezvous.Posts
import RemoteServer.Rendezvous.Tokens
import RemoteServer.Rendezvous.Sinks
import RemoteServer.Rendezvous.Signalling
import RemoteServer.Rendezvous.Delivery
import RemoteServer.Rendezvous.Handling
import RemoteServer.Rendezvous.Relays
import RemoteServer.Rendezvous.LanRelay
import RemoteServer.Rendezvous.RelayLists
import RemoteServer.Rendezvous.ControlLoop
import RemoteServer.Rendezvous.Presence
import RemoteServer.Rendezvous.Console
import RemoteServer.Rendezvous.HttpProxy
import RemoteServer.Rendezvous.ProxyUrls
import RemoteServer.Rendezvous.ProxyReplies
import RemoteServer.Rendezvous.Renaming
import RemoteServer.Rendezvous.MappedAddresses
import RemoteServer.Rendezvous.PunchLog
import RemoteServer.Relay.Lists
import RemoteServer.Relay.Machine
import RemoteServer.Relay.Moves
import RemoteServer.Relay.Pairing
import RemoteServer.Relay.Permits
import RemoteServer.Relay.Transports
import RemoteServer.Relay.Blocking
import RemoteServer.Relay.Tuning
import RemoteServer.Relay.Rates
import RemoteServer.Relay.Traffic
import RemoteServer.Releases.Record
import RemoteServer.Releases.Marks
import RemoteServer.Releases.Changelog
import RemoteServer.Releases.Completed
import RemoteServer.Releases.Versions
import RemoteServer.Releases.Bodies
import RemoteServer.Releases.Hosted
import RemoteServer.Releases.Publication
import RemoteServer.Releases.Edits
import RemoteServer.Releases.Latest
import RemoteServer.Releases.Notes
import RemoteServer.Releases.Sections
import RemoteServer.Releases.Books
import RemoteServer.Releases.Recovery
import RemoteServer.Releases.Reviews
import RemoteServer.Releases.Manager
import RemoteServer.Releases.Proposals
import RemoteServer.Releases.EvidenceNames
import RemoteServer.Releases.EvidenceValidator
import RemoteServer.Releases.EvidenceBuilder
import RemoteServer.Releases.Registries
import RemoteServer.Releases.Finalization
