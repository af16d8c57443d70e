import WireGuardNetlink.Device
import WireGuardNetlink.Nla

/-!
# Requests

What the two handlers of `netlink.c` share before they touch the device: the attribute policies
(`device_policy`, `peer_policy`, `allowedip_policy`), the calling process (`Caller`), the
namespace selection (`get_attr_net`), the capability check for the transport namespace
(`test_socket_net_capable`) and the device lookup (`lookup_interface`).
-/

namespace WireGuardNetlink

/-- The calling process and its netlink socket: the namespace of `current`, whether `current`
has `CAP_NET_ADMIN` over a namespace (`ns_capable`), the socket's namespace (`sock_net`), whether
the socket's opener has it (`netlink_ns_capable`), and the namespaces its pids and descriptors
name (`get_net_ns_by_pid`, `get_net_ns_by_fd`, which fail with a negative error). -/
structure Caller where
  net : NetId
  capable : NetId → Bool
  sockNet : NetId
  netlinkCapable : NetId → Bool
  netByPid : Nat → Except Int NetId
  netByFd : Nat → Except Int NetId
  netByPid_neg : ∀ pid e, netByPid pid = .error e → e < 0
  netByFd_neg : ∀ fd e, netByFd fd = .error e → e < 0

/-- A caller in namespace `net` with `CAP_NET_ADMIN` over every namespace, whose pids and
descriptors all name `net`. -/
def Caller.admin (net : NetId) : Caller :=
  ⟨net, fun _ => true, net, fun _ => true, fun _ => .ok net, fun _ => .ok net,
    fun _ _ h => (nomatch h), fun _ _ h => (nomatch h)⟩

/-- The policy of device attributes (`device_policy`). -/
def devicePolicy (t : Nat) : NlaPolicy :=
  if t = WGDEVICE_A_IFINDEX then { type := .u32 }
  else if t = WGDEVICE_A_IFNAME then { type := .nulString, len := IFNAMSIZ - 1 }
  else if t = WGDEVICE_A_PRIVATE_KEY then { len := NOISE_PUBLIC_KEY_LEN }
  else if t = WGDEVICE_A_PUBLIC_KEY then { len := NOISE_PUBLIC_KEY_LEN }
  else if t = WGDEVICE_A_FLAGS then { type := .u32 }
  else if t = WGDEVICE_A_LISTEN_PORT then { type := .u16 }
  else if t = WGDEVICE_A_FWMARK then { type := .u32 }
  else if t = WGDEVICE_A_PEERS then { type := .nested }
  else if t = WGDEVICE_A_DEV_NETNS_PID then { type := .u32 }
  else if t = WGDEVICE_A_DEV_NETNS_FD then { type := .u32 }
  else if t = WGDEVICE_A_TRANSIT_NETNS_PID then { type := .u32 }
  else if t = WGDEVICE_A_TRANSIT_NETNS_FD then { type := .u32 }
  else {}

/-- The policy of peer attributes (`peer_policy`). -/
def peerPolicy (t : Nat) : NlaPolicy :=
  if t = WGPEER_A_PUBLIC_KEY then { len := NOISE_PUBLIC_KEY_LEN }
  else if t = WGPEER_A_PRESHARED_KEY then { len := NOISE_SYMMETRIC_KEY_LEN }
  else if t = WGPEER_A_FLAGS then { type := .u32 }
  else if t = WGPEER_A_ENDPOINT then { len := SIZEOF_SOCKADDR_IN }
  else if t = WGPEER_A_PERSISTENT_KEEPALIVE_INTERVAL then { type := .u16 }
  else if t = WGPEER_A_LAST_HANDSHAKE_TIME then { len := SIZEOF_TIMESPEC }
  else if t = WGPEER_A_RX_BYTES then { type := .u64 }
  else if t = WGPEER_A_TX_BYTES then { type := .u64 }
  else if t = WGPEER_A_ALLOWEDIPS then { type := .nested }
  else if t = WGPEER_A_PROTOCOL_VERSION then { type := .u32 }
  else {}

/-- The policy of allowed-IP attributes (`allowedip_policy`). -/
def allowedipPolicy (t : Nat) : NlaPolicy :=
  if t = WGALLOWEDIP_A_FAMILY then { type := .u16 }
  else if t = WGALLOWEDIP_A_IPADDR then { len := SIZEOF_IN_ADDR }
  else if t = WGALLOWEDIP_A_CIDR_MASK then { type := .u8 }
  else {}

/-- Take a reference on a namespace (`get_net`). -/
def World.getNet (w : World) (n : NetId) : World :=
  { w with netRefs := fun m => if m = n then w.netRefs m + 1 else w.netRefs m }

/-- Drop a reference on a namespace, if there is one (`put_net` behind `if (net)`). -/
def World.putNet (w : World) : Option NetId → World
  | none => w
  | some n => { w with netRefs := fun m => if m = n then w.netRefs m - 1 else w.netRefs m }

/-- The namespace a pair of attributes selects, with a reference taken (`get_attr_net`):
both is `-EINVAL`, a pid or a descriptor names one, neither is `NULL`. -/
def getAttrNet (c : Caller) (buf : Bytes) (netPid netFd : Option Nlattr) (w : World) :
    Except Int (Option NetId × World) :=
  match netPid, netFd with
  | some _, some _ => .error (-EINVAL)
  | some a, none => (c.netByPid (nlaGetU32 buf a).toNat).map fun n => (some n, w.getNet n)
  | none, some a => (c.netByFd (nlaGetU32 buf a).toNat).map fun n => (some n, w.getNet n)
  | none, none => .ok (none, w)

/-- Whether the caller may use a namespace for the transport socket
(`test_socket_net_capable`): its own, or one it has `CAP_NET_ADMIN` over. -/
def testSocketNetCapable (c : Caller) (net : NetId) : Int :=
  if net ≠ c.net ∧ c.capable net = false then -EPERM else 0

/-- The 32 bytes a key attribute points to (`nla_data` read as `u8[NOISE_PUBLIC_KEY_LEN]`);
memory past the buffer reads as zero. -/
def nlaKey (buf : Bytes) (a : Nlattr) : Key :=
  ⟨(nlaData buf a ++ List.replicate 32 0).take 32, by
    rw [List.length_take, List.length_append, List.length_replicate]; omega⟩

/-- A C string: the bytes before the first NUL. -/
def cString (b : Bytes) : Bytes := b.takeWhile (· ≠ 0)

/-- Which device the selector names in a namespace: by index (`dev_get_by_index`) or by name
(`dev_get_by_name`); `none` is the WireGuard device, `some true` another device, `some false`
no device. -/
def findDev (w : World) (net : NetId) (byIndex : Option Nat) (name : Bytes) : Option Bool :=
  let hit (n : NetId) (i : Nat) (nm : Bytes) : Bool :=
    n == net && (match byIndex with | some idx => i == idx | none => nm == name)
  if hit w.wg.devNet w.wg.ifindex w.wg.name then none
  else some (w.others.any fun o => hit o.net o.ifindex o.name)

/-- Find the WireGuard device a request names (`lookup_interface`): exactly one of index and
name must be given (`-EBADR`); no device is `-ENODEV`; a device of another kind is
`-EOPNOTSUPP` (its reference dropped again). On success the device's reference is taken. -/
def lookupInterface (buf : Bytes) (attrs : AttrTable) (net : NetId) (w : World) :
    Except Int World :=
  if (attrs WGDEVICE_A_IFINDEX).isNone = (attrs WGDEVICE_A_IFNAME).isNone then .error (-EBADR)
  else
    let byIndex := (attrs WGDEVICE_A_IFINDEX).map fun a => (nlaGetU32 buf a).toNat
    let name := ((attrs WGDEVICE_A_IFNAME).map fun a => cString (nlaData buf a)).getD []
    match findDev w net byIndex name with
    | none => .ok { w with wg := { w.wg with refcnt := w.wg.refcnt + 1 } }
    | some true => .error (-EOPNOTSUPP)
    | some false => .error (-ENODEV)

end WireGuardNetlink
