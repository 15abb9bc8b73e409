import Ztlnp.Lib.Bytes
import Ztlnp.Lib.Dict
import Ztlnp.Lib.Effects
import Ztlnp.Lib.Triples
import Ztlnp.Lib.SeqWindow
import Ztlnp.Lib.Runs
import Ztlnp.Lib.Lockstep
import Ztlnp.Lib.Reassembly
import Ztlnp.Lib.Lineage
import Ztlnp.Lib.Trails
import Ztlnp.Lib.Outbox
import Ztlnp.Lib.Backoff
import Ztlnp.Lib.Pursuit
import Ztlnp.Lib.Rumours
import Ztlnp.Lib.Keyed
import Ztlnp.Lib.Tokens
import Ztlnp.Lib.Formats
import Ztlnp.Core.Python
import Ztlnp.Core.Packet
import Ztlnp.Core.Crypto
import Ztlnp.Core.Session
import Ztlnp.Core.Device
import Ztlnp.Core.Protocol
import Ztlnp.Core.Channel
import Ztlnp.Core.Reliability
import Ztlnp.Core.Trust
import Ztlnp.Core.Rotation
import Ztlnp.Core.Router
import Ztlnp.Core.Transport
import Ztlnp.Core.Padding
import Ztlnp.Core.QrPayload
import Ztlnp.Theory.Replay
import Ztlnp.Theory.Handlers
import Ztlnp.Theory.Host
import Ztlnp.Theory.Identity
import Ztlnp.Theory.Peer
import Ztlnp.Theory.Isolation
import Ztlnp.Theory.Misdelivery
import Ztlnp.Theory.CrossSession
import Ztlnp.Theory.Channels
import Ztlnp.Theory.Codec
import Ztlnp.Theory.Reacknowledge
import Ztlnp.Theory.Link
import Ztlnp.Theory.Ordered
import Ztlnp.Theory.Span
import Ztlnp.Theory.Recovery
import Ztlnp.Theory.Transparency
import Ztlnp.Theory.Registry
import Ztlnp.Theory.Revocation
import Ztlnp.Theory.Budget
import Ztlnp.Theory.Provenance
import Ztlnp.Theory.Chronicle
import Ztlnp.Theory.Succession
import Ztlnp.Theory.Migration
import Ztlnp.Theory.Pinning
import Ztlnp.Theory.Vouchers
import Ztlnp.Theory.Anchors
import Ztlnp.Theory.WebOfTrust
import Ztlnp.Theory.Handshake
import Ztlnp.Theory.Ephemerals
import Ztlnp.Theory.Rehandshake
import Ztlnp.Theory.Agreement
import Ztlnp.Theory.Routes
import Ztlnp.Theory.Hearing
import Ztlnp.Theory.Ranking
import Ztlnp.Theory.Mesh
import Ztlnp.Theory.Forwarding
import Ztlnp.Theory.Convergence
import Ztlnp.Theory.Announcing
import Ztlnp.Theory.Reception
import Ztlnp.Theory.ControlPlane
import Ztlnp.Theory.Refusal
import Ztlnp.Theory.Rotating
import Ztlnp.Theory.Bench
import Ztlnp.Theory.Retries
import Ztlnp.Theory.Base
import Ztlnp.Theory.Window
import Ztlnp.Theory.Receipts
import Ztlnp.Theory.Dialogue
import Ztlnp.Theory.Lifecycle
import Ztlnp.Theory.Exceptions
import Ztlnp.Theory.Pacing
import Ztlnp.Theory.Observer
import Ztlnp.Theory.InProcess
import Ztlnp.Theory.Arrival
import Ztlnp.Theory.Frames
import Ztlnp.Theory.Backlog
import Ztlnp.Theory.Padding
import Ztlnp.Theory.Grammar
import Ztlnp.Theory.Transitions
import Ztlnp.Theory.Rollover
import Ztlnp.Theory.Scanning
import Ztlnp.Theory.Fingerprints
