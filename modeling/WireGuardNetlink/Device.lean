import WireGuardNetlink.AllowedIps
import WireGuardNetlink.Noise

/-!
# Devices and peers

The state `netlink.c` reads and changes: the WireGuard device (`struct wireguard_device`) with
its net device fields, identity, peer list and allowed-IP table; its peer objects
(`struct wireguard_peer`) with their reference counts; the other net devices a lookup may find;
and the rest of the kernel, as the oracles of `Env` (allocation failures, socket binding, the
Curve25519 arithmetic) and the effects a call leaves in `World.log` (timers, queues, sockets).

The peer functions of `peer.c`, `socket.c` and the public-key hashtable are not among the
sources; they are modelled from the spec, which calls them "device/peer lookup and reference
counting", the peer lifecycle of its data model ("created on first reference ... removed peers
are unlinked from the list/table and keyed-allowed-prefix table before being dropped once all
readers release their reference") and "a packet-queue-flush-by-peer interface". The hashtable
lookup is the list member with the key, as a table kept in step with the list returns.
-/

namespace WireGuardNetlink

/-- A network namespace (`struct net *`). -/
abbrev NetId := Nat

/-- The address part of `struct endpoint`: the 28 bytes of its `sockaddr`/`sockaddr_in`/
`sockaddr_in6` union, whose first two bytes are the family. -/
structure Endpoint where
  bytes : Bytes
  length_bytes : bytes.length = 28
deriving DecidableEq, Repr

/-- No endpoint (`kzalloc`ed: family zero). -/
def Endpoint.zero : Endpoint := ⟨List.replicate 28 0, rfl⟩

/-- A zeroed endpoint with `b` copied over the start of its address (`memcpy` into
`struct endpoint endpoint = { 0 }`). -/
def Endpoint.ofBytes (b : Bytes) : Endpoint :=
  ⟨(b ++ List.replicate 28 0).take 28, by
    rw [List.length_take, List.length_append, List.length_replicate]; omega⟩

/-- The family of an endpoint (`addr.sa_family`). -/
def Endpoint.family (e : Endpoint) : Nat := leValue (e.bytes.take 2)

/-- A peer object: the fields of `struct wireguard_peer` that `netlink.c` reads or writes. -/
structure Peer where
  remoteStatic : Key
  presharedKey : Key
  precomputedStaticStatic : Key
  lastHandshake : Bytes
  keepalive : UInt16
  rxBytes : UInt64
  txBytes : UInt64
  endpoint : Endpoint
  refcount : Nat
deriving DecidableEq, Repr

/-- What a new peer holds before `wg_peer_create` fills it in (`kzalloc`). -/
def Peer.blank : Peer :=
  ⟨Key.zero, Key.zero, Key.zero, List.replicate SIZEOF_TIMESPEC 0, 0, 0, 0, Endpoint.zero, 0⟩

/-- The WireGuard device: its net device fields and `struct wireguard_device`. The peer list is
kept as its order (see `PeerList`), the peer objects as a map from their allocation, and
`nextPeer` marks the allocations made so far. A list node is linked at most once, and only
allocated objects are linked. -/
structure Device where
  ifindex : Nat
  name : Bytes
  devNet : NetId
  transitNet : NetId
  refcnt : Nat
  running : Bool
  incomingPort : UInt16
  fwmark : UInt32
  updateGen : UInt32
  identity : StaticIdentity
  cookieKeys : Option Key
  peers : List PeerId
  objs : PeerId → Peer
  nextPeer : PeerId
  table : AllowedIps
  nodup_peers : peers.Nodup
  lt_nextPeer : ∀ p ∈ peers, p < nextPeer

/-- A net device of another kind, which `lookup_interface` finds and rejects. -/
structure OtherDev where
  net : NetId
  ifindex : Nat
  name : Bytes
deriving DecidableEq, Repr

/-- What a call does to the rest of the kernel beyond the modelled state. -/
inductive Effect
  | clearEndpointSrc (p : PeerId)
  | sendKeepalive (p : PeerId)
  | sendStagedPackets (p : PeerId)
  | socketInit (net : NetId) (port : UInt16)
deriving DecidableEq, Repr

/-- The modelled kernel: the WireGuard device, the other net devices, the namespace reference
counts, the live dump cursor allocations, the number of allocation attempts so far and the
effects so far. -/
structure World where
  wg : Device
  others : List OtherDev
  netRefs : NetId → Nat
  cursors : Nat
  allocs : Nat
  log : List Effect

/-- Modelled from the spec: a device as it is created (`wg_newlink`), with no identity, no
peers and an empty table, port, mark and generation zero, down, its one reference the
registration's. -/
def Device.create (ifindex : Nat) (name : Bytes) (net : NetId) : Device where
  ifindex := ifindex
  name := name
  devNet := net
  transitNet := net
  refcnt := 1
  running := false
  incomingPort := 0
  fwmark := 0
  updateGen := 0
  identity := StaticIdentity.none
  cookieKeys := none
  peers := []
  objs := fun _ => Peer.blank
  nextPeer := 0
  table := AllowedIps.init
  nodup_peers := List.nodup_nil
  lt_nextPeer := fun _ h => absurd h (List.not_mem_nil _)

/-- The kernel with one device and nothing else. -/
def World.init (d : Device) : World := ⟨d, [], fun _ => 0, 0, 0, []⟩

/-- The rest of the kernel as oracles: the Curve25519 arithmetic, which allocations fail, and
what binding the transport socket (`wg_socket_init`) does in a namespace at a port: the port it
got, or a negative error. -/
structure Env where
  curve : Curve25519
  oom : Nat → Bool
  bind : NetId → UInt16 → Except Int UInt16
  bind_neg : ∀ net port e, bind net port = .error e → e < 0

/-- A kernel in which no allocation fails and every bind gets the port it asks for. -/
def Env.reliable (curve : Curve25519) : Env :=
  ⟨curve, fun _ => false, fun _ port => .ok port, fun _ _ _ h => nomatch h⟩

/-- One allocation attempt: whether it fails, and the world that counted it. -/
def World.alloc (env : Env) (w : World) : Bool × World :=
  (env.oom w.allocs, { w with allocs := w.allocs + 1 })

/-- Change one peer object. -/
def Device.updPeer (d : Device) (p : PeerId) (f : Peer → Peer) : Device :=
  { d with objs := fun q => if q = p then f (d.objs q) else d.objs q }

@[simp] lemma Device.updPeer_objs_self (d : Device) (p : PeerId) (f : Peer → Peer) :
    (d.updPeer p f).objs p = f (d.objs p) := by simp [Device.updPeer]

lemma Device.updPeer_objs_ne (d : Device) {p q : PeerId} (f : Peer → Peer) (h : q ≠ p) :
    (d.updPeer p f).objs q = d.objs q := by simp [Device.updPeer, h]

@[simp] lemma Device.updPeer_peers (d : Device) (p : PeerId) (f : Peer → Peer) :
    (d.updPeer p f).peers = d.peers := rfl

@[simp] lemma Device.updPeer_table (d : Device) (p : PeerId) (f : Peer → Peer) :
    (d.updPeer p f).table = d.table := rfl

@[simp] lemma Device.updPeer_identity (d : Device) (p : PeerId) (f : Peer → Peer) :
    (d.updPeer p f).identity = d.identity := rfl

/-- The public keys of the peers of a device, in list order. -/
def Device.keys (d : Device) : List Key := d.peers.map fun p => (d.objs p).remoteStatic

/-- The device-level fields of a device: all but its peers, their objects, the allocation mark
and the table. -/
structure DeviceHead where
  ifindex : Nat
  name : Bytes
  devNet : NetId
  transitNet : NetId
  refcnt : Nat
  running : Bool
  incomingPort : UInt16
  fwmark : UInt32
  updateGen : UInt32
  identity : StaticIdentity
  cookieKeys : Option Key
deriving DecidableEq

/-- The device-level fields of a device. -/
def Device.head (d : Device) : DeviceHead :=
  ⟨d.ifindex, d.name, d.devNet, d.transitNet, d.refcnt, d.running, d.incomingPort, d.fwmark,
    d.updateGen, d.identity, d.cookieKeys⟩

lemma Device.updateGen_eq_head (d : Device) : d.updateGen = d.head.updateGen := rfl

lemma Device.identity_eq_head (d : Device) : d.identity = d.head.identity := rfl

@[simp] lemma Device.updPeer_head (d : Device) (p : PeerId) (f : Peer → Peer) :
    (d.updPeer p f).head = d.head := rfl

/-- Changing a peer object but its key keeps the keys. -/
lemma Device.keys_updPeer (d : Device) (p : PeerId) {f : Peer → Peer}
    (hf : ∀ o, (f o).remoteStatic = o.remoteStatic) : (d.updPeer p f).keys = d.keys := by
  simp only [Device.keys, Device.updPeer_peers]
  exact List.map_congr_left fun q _ => by by_cases h : q = p <;> simp [Device.updPeer, h, hf]

/-- Take a reference on a peer (`wg_peer_get`); `NULL` is left alone. -/
def wgPeerGet (d : Device) : Option PeerId → Device
  | none => d
  | some p => d.updPeer p fun o => { o with refcount := o.refcount + 1 }

/-- Drop a reference on a peer (`wg_peer_put`); `NULL` is left alone. -/
def wgPeerPut (d : Device) : Option PeerId → Device
  | none => d
  | some p => d.updPeer p fun o => { o with refcount := o.refcount - 1 }

/-- The number of references an optional peer pointer stands for on `q`. -/
def refOn (p : Option PeerId) (q : PeerId) : Nat := if p = some q then 1 else 0

@[simp] lemma wgPeerGet_objs (d : Device) (p : Option PeerId) (q : PeerId) :
    (wgPeerGet d p).objs q = { d.objs q with refcount := (d.objs q).refcount + refOn p q } := by
  cases p with
  | none => rfl
  | some p => by_cases h : q = p <;> simp [wgPeerGet, refOn, Device.updPeer, h, eq_comm]

@[simp] lemma wgPeerPut_objs (d : Device) (p : Option PeerId) (q : PeerId) :
    (wgPeerPut d p).objs q = { d.objs q with refcount := (d.objs q).refcount - refOn p q } := by
  cases p with
  | none => rfl
  | some p => by_cases h : q = p <;> simp [wgPeerPut, refOn, Device.updPeer, h, eq_comm]

@[simp] lemma wgPeerGet_peers (d : Device) (p : Option PeerId) : (wgPeerGet d p).peers = d.peers := by
  cases p <;> rfl

@[simp] lemma wgPeerPut_peers (d : Device) (p : Option PeerId) : (wgPeerPut d p).peers = d.peers := by
  cases p <;> rfl

@[simp] lemma wgPeerGet_identity (d : Device) (p : Option PeerId) :
    (wgPeerGet d p).identity = d.identity := by cases p <;> rfl

@[simp] lemma wgPeerPut_identity (d : Device) (p : Option PeerId) :
    (wgPeerPut d p).identity = d.identity := by cases p <;> rfl

@[simp] lemma wgPeerGet_table (d : Device) (p : Option PeerId) : (wgPeerGet d p).table = d.table := by
  cases p <;> rfl

@[simp] lemma wgPeerGet_head (d : Device) (p : Option PeerId) : (wgPeerGet d p).head = d.head := by
  cases p <;> rfl

@[simp] lemma wgPeerPut_head (d : Device) (p : Option PeerId) : (wgPeerPut d p).head = d.head := by
  cases p <;> rfl

@[simp] lemma keys_wgPeerGet (d : Device) (p : Option PeerId) : (wgPeerGet d p).keys = d.keys := by
  simp [Device.keys]

@[simp] lemma keys_wgPeerPut (d : Device) (p : Option PeerId) : (wgPeerPut d p).keys = d.keys := by
  simp [Device.keys]

@[simp] lemma wgPeerPut_table (d : Device) (p : Option PeerId) : (wgPeerPut d p).table = d.table := by
  cases p <;> rfl

/-- Modelled from the spec: the linked peer with a public key, with a reference taken
(`wg_pubkey_hashtable_lookup`). -/
def wgPubkeyHashtableLookup (d : Device) (k : Key) : Option PeerId × Device :=
  let p := d.peers.find? fun q => (d.objs q).remoteStatic = k
  (p, wgPeerGet d p)

/-- The most peers a device takes (`MAX_PEERS_PER_DEVICE`). -/
def MAX_PEERS_PER_DEVICE : Nat := 2 ^ 20

/-- Link a new peer object at the tail of the list (`list_add_tail`), under a fresh
allocation. -/
def Device.link (d : Device) (o : Peer) : Device :=
  { d with
    peers := d.peers ++ [d.nextPeer]
    nextPeer := d.nextPeer + 1
    objs := fun q => if q = d.nextPeer then o else d.objs q
    nodup_peers := d.nodup_peers.append (List.nodup_singleton _)
      (List.disjoint_singleton.2 fun h => Nat.lt_irrefl _ (d.lt_nextPeer _ h))
    lt_nextPeer := fun q hq => by
      rcases List.mem_append.1 hq with h | h
      · exact Nat.lt_succ_of_lt (d.lt_nextPeer q h)
      · rw [List.mem_singleton.1 h]; exact Nat.lt_succ_self _ }

/-- Unlink a peer from the list (`list_del_init`); the node is left linked to itself. -/
def Device.unlink (d : Device) (p : PeerId) : Device :=
  { d with
    peers := d.peers.erase p
    nodup_peers := d.nodup_peers.erase p
    lt_nextPeer := fun q hq => d.lt_nextPeer q (List.mem_of_mem_erase hq) }

/-- Modelled from the spec: create a peer and link it at the tail of the list
(`wg_peer_create`). It fails (`NULL`) at the peer limit, when its allocation fails, or when the
static-static precomputation with the device identity fails (`noise_handshake_init`). The new
peer holds one reference, the list's; an absent preshared key leaves it zero. -/
def wgPeerCreate (env : Env) (w : World) (pk : Key) (psk : Option Key) : Option PeerId × World :=
  if MAX_PEERS_PER_DEVICE ≤ w.wg.peers.length then (none, w)
  else
    let (fails, w) := w.alloc env
    let pre := wgNoisePrecomputeStaticStatic env.curve w.wg.identity pk
    if fails ∨ pre.2 = false then (none, w)
    else
      let o : Peer := { Peer.blank with remoteStatic := pk, presharedKey := psk.getD Key.zero,
                                        precomputedStaticStatic := pre.1, refcount := 1 }
      (some w.wg.nextPeer, { w with wg := w.wg.link o })

/-- Modelled from the spec: remove a peer (`wg_peer_remove`): unlink it from the list and the
hashtable, drop its prefixes, and drop the list's reference. -/
def wgPeerRemove (d : Device) (p : PeerId) : Device :=
  wgPeerPut { d.unlink p with table := wgAllowedipsRemoveByPeer d.table p } (some p)

@[simp] lemma wgPeerRemove_peers (d : Device) (p : PeerId) :
    (wgPeerRemove d p).peers = d.peers.erase p := rfl

@[simp] lemma wgPeerRemove_identity (d : Device) (p : PeerId) :
    (wgPeerRemove d p).identity = d.identity := rfl

@[simp] lemma wgPeerRemove_objs (d : Device) (p q : PeerId) :
    (wgPeerRemove d p).objs q =
      { d.objs q with refcount := (d.objs q).refcount - refOn (some p) q } :=
  wgPeerPut_objs _ _ _

@[simp] lemma wgPeerRemove_head (d : Device) (p : PeerId) : (wgPeerRemove d p).head = d.head := rfl

/-- Removing a peer drops its key from the keys. -/
lemma keys_wgPeerRemove (d : Device) (p : PeerId) :
    (wgPeerRemove d p).keys = (d.peers.erase p).map fun q => (d.objs q).remoteStatic := by
  simp [Device.keys]

lemma keys_wgPeerRemove_sublist (d : Device) (p : PeerId) :
    List.Sublist (wgPeerRemove d p).keys d.keys := by
  rw [keys_wgPeerRemove]; exact (List.erase_sublist _ _).map _

@[simp] lemma Device.link_head (d : Device) (o : Peer) : (d.link o).head = d.head := rfl

/-- Linking a new peer appends its key. -/
lemma Device.keys_link (d : Device) (o : Peer) : (d.link o).keys = d.keys ++ [o.remoteStatic] := by
  simp only [Device.keys, Device.link, List.map_append, List.map_cons, List.map_nil, if_pos rfl]
  congr 1
  exact List.map_congr_left fun q hq => by rw [if_neg (Nat.ne_of_lt (d.lt_nextPeer q hq))]

/-- Modelled from the spec: remove every peer (`wg_peer_remove_all`). -/
def wgPeerRemoveAll (d : Device) : Device := d.peers.foldl wgPeerRemove d

/-- Outside the sources (`cookie.c`): derive the cookie checker's keys from the device's public
key, or clear them without an identity (`wg_cookie_checker_precompute_device_keys`). The model
keeps the key they derive from. -/
def wgCookieCheckerPrecomputeDeviceKeys (d : Device) : Device :=
  { d with cookieKeys := if d.identity.hasIdentity then some d.identity.staticPublic else none }

/-- Modelled from the spec: store a peer's endpoint (`wg_socket_set_peer_endpoint`). An IPv4
address overwrites the `sockaddr_in` part of the union, an IPv6 one all of it; another family
changes nothing. -/
def wgSocketSetPeerEndpoint (d : Device) (p : PeerId) (e : Endpoint) : Device :=
  if e.family = AF_INET then
    d.updPeer p fun o => { o with endpoint :=
      ⟨e.bytes.take SIZEOF_SOCKADDR_IN ++ o.endpoint.bytes.drop SIZEOF_SOCKADDR_IN,
        by simp [e.length_bytes, o.endpoint.length_bytes, SIZEOF_SOCKADDR_IN]⟩ }
  else if e.family = AF_INET6 then d.updPeer p fun o => { o with endpoint := e }
  else d

end WireGuardNetlink
