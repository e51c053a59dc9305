import AtreoAgent.Acl.Access
import AtreoAgent.Acl.Anchored
import AtreoAgent.Acl.Clients
import AtreoAgent.Acl.Indexes
import AtreoAgent.Acl.Store
import AtreoAgent.Acl.TunnelIndex
import AtreoAgent.Acl.Upsert
import AtreoAgent.Agent.Admissions
import AtreoAgent.Agent.Documents
import AtreoAgent.Agent.Gateway
import AtreoAgent.Agent.KeptClients
import AtreoAgent.Agent.Lifecycle
import AtreoAgent.Agent.PinAnchor
import AtreoAgent.Agent.Reapply
import AtreoAgent.Agent.Renumbering
import AtreoAgent.Agent.Restart
import AtreoAgent.Agent.StartupPeers
import AtreoAgent.Agent.StoreCalls
import AtreoAgent.Agent.Transport
import AtreoAgent.Agent.Unpairing
import AtreoAgent.Atreolink.Types
import AtreoAgent.Atreolink.Wire
import AtreoAgent.Canonjson
import AtreoAgent.Canonjson.Escapes
import AtreoAgent.Canonjson.KeyOrder
import AtreoAgent.Canonjson.NormalForm
import AtreoAgent.Canonjson.Signable
import AtreoAgent.Certs.Challenge
import AtreoAgent.Certs.Issuer
import AtreoAgent.Certs.Manager
import AtreoAgent.Certs.Registry
import AtreoAgent.Certs.Renewal
import AtreoAgent.Codec.Base64
import AtreoAgent.Codec.Buffer
import AtreoAgent.Codec.CodePoints
import AtreoAgent.Codec.Decimal
import AtreoAgent.Codec.Labels
import AtreoAgent.Codec.Text
import AtreoAgent.Codec.Utf8
import AtreoAgent.Crypto.AgentAuth
import AtreoAgent.Crypto.Transcript
import AtreoAgent.Firewall.Apply
import AtreoAgent.Firewall.Confinement
import AtreoAgent.Firewall.Grants
import AtreoAgent.Firewall.Manager
import AtreoAgent.Firewall.Rules
import AtreoAgent.Firewall.Watchdog
import AtreoAgent.Json.Decode
import AtreoAgent.Json.Determined
import AtreoAgent.Json.Grammar
import AtreoAgent.Json.Indent
import AtreoAgent.Json.Parse
import AtreoAgent.Json.Recognise
import AtreoAgent.Json.RoundTrip
import AtreoAgent.Json.Same
import AtreoAgent.Json.Size
import AtreoAgent.Json.Syntax
import AtreoAgent.Json.Tree
import AtreoAgent.Machine.Fallible
import AtreoAgent.Machine.Run
import AtreoAgent.Machine.Storage
import AtreoAgent.Machine.Table
import AtreoAgent.Machine.TokenBucket
import AtreoAgent.Net.Cidr
import AtreoAgent.Net.HostPort
import AtreoAgent.Net.IP
import AtreoAgent.Net.IPv6
import AtreoAgent.Netfilter.Table
import AtreoAgent.Netfilter.Verdict
import AtreoAgent.Notify.Eligible
import AtreoAgent.Notify.Secrecy
import AtreoAgent.Notify.Server
import AtreoAgent.Overlay.Addressing
import AtreoAgent.Overlay.DualStack
import AtreoAgent.Overlay.Legacy
import AtreoAgent.Overlay.Persisted
import AtreoAgent.Pcp.Client
import AtreoAgent.Probe.Throttle
import AtreoAgent.Proxy.Auth
import AtreoAgent.Proxy.Certificate
import AtreoAgent.Proxy.DerivedSlug
import AtreoAgent.Proxy.Server
import AtreoAgent.Proxy.Slug
import AtreoAgent.Ratelimit.Limiter
import AtreoAgent.Relay.Advertised
import AtreoAgent.Relay.Control
import AtreoAgent.Relay.Frame
import AtreoAgent.Relay.Grant
import AtreoAgent.Relay.Manager
import AtreoAgent.Relay.Requests
import AtreoAgent.Relay.Shim
import AtreoAgent.Relay.Tunnels
import AtreoAgent.Smtp.Conversation
import AtreoAgent.Smtp.Session
import AtreoAgent.Tunnel.Admittance
import AtreoAgent.Tunnel.Agent
import AtreoAgent.Tunnel.Applied
import AtreoAgent.Tunnel.Apply
import AtreoAgent.Tunnel.Attestation
import AtreoAgent.Tunnel.Authorised
import AtreoAgent.Tunnel.Binding
import AtreoAgent.Tunnel.Capacity
import AtreoAgent.Tunnel.Cases
import AtreoAgent.Tunnel.Consistent
import AtreoAgent.Tunnel.CustomDomain
import AtreoAgent.Tunnel.Deauthorised
import AtreoAgent.Tunnel.Decisions
import AtreoAgent.Tunnel.DeviceState
import AtreoAgent.Tunnel.FailClosed
import AtreoAgent.Tunnel.Freshness
import AtreoAgent.Tunnel.Handlers
import AtreoAgent.Tunnel.Interleaving
import AtreoAgent.Tunnel.Leases
import AtreoAgent.Tunnel.Liveness
import AtreoAgent.Tunnel.Nonces
import AtreoAgent.Tunnel.NotifyAPIKey
import AtreoAgent.Tunnel.OneAddress
import AtreoAgent.Tunnel.Ownership
import AtreoAgent.Tunnel.PairApproval
import AtreoAgent.Tunnel.Payload
import AtreoAgent.Tunnel.Peers
import AtreoAgent.Tunnel.Portal
import AtreoAgent.Tunnel.Provision
import AtreoAgent.Tunnel.Refusal
import AtreoAgent.Tunnel.Replay
import AtreoAgent.Tunnel.Rollback
import AtreoAgent.Tunnel.Rows
import AtreoAgent.Tunnel.Sample
import AtreoAgent.Tunnel.ServedDomain
import AtreoAgent.Tunnel.SignedMeaning
import AtreoAgent.Tunnel.StoreChange
import AtreoAgent.Tunnel.Suspension
import AtreoAgent.Tunnel.Verify
import AtreoAgent.Upnp.Client
import AtreoAgent.Upnp.Mapping
import AtreoAgent.Upnp.Pinholes
import AtreoAgent.WireGuard.Addresses
import AtreoAgent.WireGuard.Allocator
import AtreoAgent.WireGuard.Bindings
import AtreoAgent.WireGuard.Interface
import AtreoAgent.WireGuard.Leaks
import AtreoAgent.WireGuard.Pool
import AtreoAgent.WireGuard.Server
import AtreoAgent.WireGuard.Snapshot
import AtreoAgent.WireGuard.Usable
