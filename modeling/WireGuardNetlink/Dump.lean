import WireGuardNetlink.Request
import WireGuardNetlink.Skb

/-!
# The dump

The read path of `netlink.c`: `get_device_start` resolves the device and allocates the
allowed-IP cursor, each `get_device_dump` fills one message, and `get_device_done` releases what
the dump holds. Between messages the dump keeps its place in `struct netlink_callback`
(`Cb`): the device (`args[0]`), a peer it holds a reference on (`args[1]`), the allowed-IP cursor
(`args[2]`), and the generation stamps `seq` and `prev_seq`.

A message carries the device attributes when `args[1]` is `NULL`, then a `WGDEVICE_A_PEERS`
nest of peer records from the peer after `args[1]` on (`get_peer`), each with its allowed IPs
(`get_allowedips`) as far as they fit. A peer whose record is complete moves `args[1]`; one whose
allowed IPs run out of room is sent in part, and the cursor keeps the place in its prefixes.
-/

namespace WireGuardNetlink

/-- What a dump keeps between messages (`struct netlink_callback`): the device is held
(`args[0]`), the peer to continue after (`args[1]`), the cursor allocation (`args[2]`), and the
stamps `seq` and `prev_seq`. -/
structure Cb where
  wg : Bool
  peer : Option PeerId
  rtCursor : Option AllowedIpsCursor
  seq : UInt32
  prevSeq : UInt32
deriving DecidableEq, Repr

/-- Write one allowed IP of a peer (`get_allowedips`): a nest numbered by the context's counter
with the prefix length, the family and the address, or nothing when it does not fit. -/
def getAllowedips (ctx : Skb × Nat) (ip : AllowedIp) : Option (Skb × Nat) :=
  match nlaNestStart ctx.1 ctx.2 with
  | none => none
  | some (_, skb) =>
    let body := do
      let skb ← nlaPutU8 skb WGALLOWEDIP_A_CIDR_MASK ip.cidr
      let skb ← nlaPutU16 skb WGALLOWEDIP_A_FAMILY (UInt16.ofNat ip.family)
      nlaPut skb WGALLOWEDIP_A_IPADDR
        (ip.addr.take (if ip.family = AF_INET6 then SIZEOF_IN6_ADDR else SIZEOF_IN_ADDR))
    body.map fun skb => (nlaNestEnd skb, ctx.2 + 1)

/-- The attributes of a peer that only its first record carries: preshared key, last handshake,
keepalive interval, byte counters, protocol version and, when set, the endpoint. -/
def putPeerFirstPage (o : Peer) (skb : Skb) : Option Skb := do
  let skb ← nlaPut skb WGPEER_A_PRESHARED_KEY o.presharedKey.bytes
  let skb ← nlaPut skb WGPEER_A_LAST_HANDSHAKE_TIME o.lastHandshake
  let skb ← nlaPutU16 skb WGPEER_A_PERSISTENT_KEEPALIVE_INTERVAL o.keepalive
  let skb ← nlaPutU64 skb WGPEER_A_TX_BYTES o.txBytes
  let skb ← nlaPutU64 skb WGPEER_A_RX_BYTES o.rxBytes
  let skb ← nlaPutU32 skb WGPEER_A_PROTOCOL_VERSION 1
  if o.endpoint.family = AF_INET then
    nlaPut skb WGPEER_A_ENDPOINT (o.endpoint.bytes.take SIZEOF_SOCKADDR_IN)
  else if o.endpoint.family = AF_INET6 then nlaPut skb WGPEER_A_ENDPOINT o.endpoint.bytes
  else some skb

/-- Write one peer record (`get_peer`). The result is `0` for a complete record, which clears
the cursor, and `-EMSGSIZE` otherwise: either the record is dropped whole (its head does not fit)
or it is sent with the allowed IPs that fit and the cursor on the first that did not. -/
def getPeer (d : Device) (p : PeerId) (index : Nat) (rt : AllowedIpsCursor) (skb : Skb) :
    Int × AllowedIpsCursor × Skb :=
  match nlaNestStart skb index with
  | none => (-EMSGSIZE, rt, skb)
  | some (peerNest, skb1) =>
    let head := do
      let s ← nlaPut skb1 WGPEER_A_PUBLIC_KEY (d.objs p).remoteStatic.bytes
      let s ← if rt.seq = 0 then putPeerFirstPage (d.objs p) s else some s
      nlaNestStart s WGPEER_A_ALLOWEDIPS
    match head with
    | none => (-EMSGSIZE, rt, skb1.trim peerNest)
    | some (_, s) =>
      let w := wgAllowedipsWalkByPeer d.table rt p getAllowedips (s, 0)
      (if w.1 ≠ 0 then -EMSGSIZE else 0, if w.1 ≠ 0 then w.2.1 else {},
        nlaNestEnd (nlaNestEnd w.2.2.1))

/-- The state of the peer loop of `get_device_dump`. -/
structure DumpLoop where
  idx : Nat
  rt : AllowedIpsCursor
  skb : Skb
  next : Option PeerId
  done : Bool

/-- One pass of the peer loop: write the peer's record; `break` when it is not complete. -/
def dumpPeerStep (d : Device) (st : DumpLoop) (p : PeerId) : DumpLoop × Bool :=
  let r := getPeer d p st.idx st.rt st.skb
  if r.1 ≠ 0 then ({ st with idx := st.idx + 1, rt := r.2.1, skb := r.2.2, done := false }, true)
  else ({ st with idx := st.idx + 1, rt := r.2.1, skb := r.2.2, next := some p }, false)

/-- The device attributes of the first message (`if (!last_peer_cursor)`): the listening port
when the caller may see the transport namespace, the firewall mark, index and name, and the
key pair when the device has an identity. -/
def putDeviceAttrs (c : Caller) (d : Device) (skb : Skb) : Option Skb := do
  let skb ← if testSocketNetCapable c d.transitNet = 0 then
      nlaPutU16 skb WGDEVICE_A_LISTEN_PORT d.incomingPort else some skb
  let skb ← nlaPutU32 skb WGDEVICE_A_FWMARK d.fwmark
  let skb ← nlaPutU32 skb WGDEVICE_A_IFINDEX (UInt32.ofNat d.ifindex)
  let skb ← nlaPutString skb WGDEVICE_A_IFNAME d.name
  if d.identity.hasIdentity then do
    let skb ← nlaPut skb WGDEVICE_A_PRIVATE_KEY d.identity.staticPrivate.bytes
    nlaPut skb WGDEVICE_A_PUBLIC_KEY d.identity.staticPublic.bytes
  else some skb

/-- How a message ends (`out:` of `get_device_dump`): take a reference on the new cursor peer
when the dump goes on, drop the one on the old, cancel the message on an error, and store the
new cursor peer (`NULL` when done). -/
def dumpFinish (d : Device) (cb : Cb) (ret : Int) (done : Bool) (next : Option PeerId)
    (rt : Option AllowedIpsCursor) (hdr : Nat) (skb : Skb) : Int × Skb × Cb × Device :=
  let d := if ret = 0 ∧ done = false then wgPeerGet d next else d
  let d := wgPeerPut d cb.peer
  if ret ≠ 0 then (ret, skb.trim hdr, { cb with rtCursor := rt }, d)
  else if done then (0, skb, { cb with peer := none, rtCursor := rt }, d)
  else (skb.len, skb, { cb with peer := next, rtCursor := rt }, d)

/-- Fill one message (`get_device_dump`). The result is negative on an error, `0` when the
dump is complete and the message length when it goes on. `none` would be a peer loop that never
returns to the list head; `getDeviceDump_isSome` shows there is none. -/
def getDeviceDump (c : Caller) (d : Device) (cb : Cb) (skb : Skb) :
    Option (Int × Skb × Cb × Device) :=
  let rt := cb.rtCursor.getD {}
  let cb := { cb with seq := d.updateGen }
  match genlmsgPut skb with
  | none => some (dumpFinish d cb (-EMSGSIZE) true cb.peer cb.rtCursor skb.toks.length skb)
  | some (hdr, skb) =>
    let intr := cb.prevSeq ≠ 0 ∧ cb.seq ≠ cb.prevSeq
    let skb := if intr then skb.setIntr hdr else skb
    let cb := { cb with prevSeq := cb.seq }
    let attrs := if cb.peer.isNone then putDeviceAttrs c d skb else some skb
    match attrs.bind (nlaNestStart · WGDEVICE_A_PEERS) with
    | none => some (dumpFinish d cb (-EMSGSIZE) true cb.peer cb.rtCursor hdr skb)
    | some (peersNest, skb) =>
      if listEmpty d.peers .head || (cb.peer.isSome && listEmpty d.peers (listPrepareEntry cb.peer))
      then some (dumpFinish d cb 0 true cb.peer cb.rtCursor hdr (skb.trim peersNest))
      else
        (listForEachEntryContinue d.peers (dumpPeerStep d) (d.peers.length + 1)
            (listPrepareEntry cb.peer) ⟨0, rt, skb, cb.peer, true⟩).map fun st =>
          dumpFinish d cb 0 st.done st.next (some st.rt) hdr (nlaNestEnd st.skb)

/-- The callback of a dump before `get_device_start`: all zero. -/
def Cb.init : Cb := ⟨false, none, none, 0, 0⟩

/-- Begin a dump (`get_device_start`): parse the request, pick the device's namespace, check
the caller's capability there, allocate the cursor and find the device. The result is `0` and
the callback holding the device and the cursor, or an error with nothing kept: the cursor is
freed and the namespace reference dropped. -/
def getDeviceStart (env : Env) (c : Caller) (buf : Bytes) (w : World) : Int × Cb × World :=
  match nlaParse buf WGDEVICE_A_MAX devicePolicy 0 buf.length with
  | .error e => (e, Cb.init, w)
  | .ok attrs =>
    match getAttrNet c buf (attrs WGDEVICE_A_DEV_NETNS_PID) (attrs WGDEVICE_A_DEV_NETNS_FD) w with
    | .error e => (e, Cb.init, w)
    | .ok (owned, w) =>
      let devNet := owned.getD c.sockNet
      if c.netlinkCapable devNet = false then (-EPERM, Cb.init, w.putNet owned)
      else
        let (fails, w) := w.alloc env
        if fails then (-ENOMEM, Cb.init, w.putNet owned)
        else
          let w := { w with cursors := w.cursors + 1 }
          match lookupInterface buf attrs devNet w with
          | .error e => (e, Cb.init, { w.putNet owned with cursors := w.cursors - 1 })
          | .ok w => (0, { Cb.init with wg := true, rtCursor := some {} }, w.putNet owned)

/-- End a dump (`get_device_done`): release the device, free the cursor and drop the reference
on the cursor peer. -/
def getDeviceDone (cb : Cb) (w : World) : World :=
  let d := if cb.wg then { w.wg with refcnt := w.wg.refcnt - 1 } else w.wg
  { w with wg := wgPeerPut d cb.peer,
           cursors := if cb.rtCursor.isSome then w.cursors - 1 else w.cursors }

end WireGuardNetlink
