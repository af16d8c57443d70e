import WireGuardNetlink.Basic
import WireGuardNetlink.Nla
import WireGuardNetlink.Skb
import WireGuardNetlink.PeerList
import WireGuardNetlink.AllowedIps
import WireGuardNetlink.Noise
import WireGuardNetlink.Device
import WireGuardNetlink.Request
import WireGuardNetlink.Dump
import WireGuardNetlink.Set
import WireGuardNetlink.SetPeer
import WireGuardNetlink.KeyRotation
import WireGuardNetlink.Batch
import WireGuardNetlink.System
import WireGuardNetlink.SetFrame
import WireGuardNetlink.Events
import WireGuardNetlink.Generation
import WireGuardNetlink.Roster
import WireGuardNetlink.PeerEvolution
import WireGuardNetlink.DumpSpec
import WireGuardNetlink.Reassembly
import WireGuardNetlink.Pagination
import WireGuardNetlink.References
import WireGuardNetlink.Interleaving
import WireGuardNetlink.Transport
import WireGuardNetlink.PrefixEdit
import WireGuardNetlink.RequestRefs
import WireGuardNetlink.Consistency
import WireGuardNetlink.Restore
import WireGuardNetlink.RoundTrip
import WireGuardNetlink.Runs
import WireGuardNetlink.Lifetimes
import WireGuardNetlink.BlockEdit
import WireGuardNetlink.Access
import WireGuardNetlink.RequestEdit
import WireGuardNetlink.Resend
import WireGuardNetlink.Sockets
