import WireGuardNetlink.Request

/-!
# Applying a configuration

The write path of `netlink.c`: `set_device` applies one request to the device under its update
lock, in this order: the generation bump, the firewall mark, the transport socket
(`set_socket`), `WGDEVICE_F_REPLACE_PEERS`, the private key, and then each peer block
(`set_peer`, with its allowed IPs through `set_allowedip`) until the first that fails. Nothing
done before a failure is undone.

Every exit of `set_device` wipes the private-key attribute of the request, and every call of
`set_peer` wipes the preshared-key attribute of its block, in the request buffer itself; so the
handlers return the buffer with their result. The peer blocks are walked as
`nla_for_each_nested` walks them, one header at a time from the buffer as it is after the
previous block.
-/

namespace WireGuardNetlink

/-- Drop the cached source address of every peer's endpoint (`list_for_each_entry` over
`wg_socket_clear_peer_endpoint_src`). -/
def clearPeerEndpointSrcs (w : World) : World :=
  (listForEachEntry (fun w : World => w.wg.peers)
      (fun w p => { w with log := w.log ++ [Effect.clearEndpointSrc p] })
      (w.wg.peers.length + 1) (listNext w.wg.peers .head) w).getD w

/-- Move the transport socket (`set_socket`): to the port and transit namespace the request
names, each defaulting to the current one. The caller must be capable in the target namespace.
When the pair is the current one nothing happens; otherwise every peer's cached source is
dropped and, on a device that is down, the pair is only stored, while on a running device the
socket is rebound (`wg_socket_init`), which may fail. The namespace reference the request took
is dropped on every exit. -/
def setSocket (env : Env) (c : Caller) (attrs : AttrTable) (buf : Bytes) (w : World) :
    Int × World :=
  match getAttrNet c buf (attrs WGDEVICE_A_TRANSIT_NETNS_PID)
      (attrs WGDEVICE_A_TRANSIT_NETNS_FD) w with
  | .error e => (e, w)
  | .ok (net, w) =>
    let port := match attrs WGDEVICE_A_LISTEN_PORT with
      | some a => nlaGetU16 buf a
      | none => w.wg.incomingPort
    let target := net.getD w.wg.transitNet
    if testSocketNetCapable c target ≠ 0 then (testSocketNetCapable c target, w.putNet net)
    else if w.wg.incomingPort = port ∧ (net = none ∨ net = some w.wg.transitNet) then
      (0, w.putNet net)
    else
      let w := clearPeerEndpointSrcs w
      if w.wg.running = false then
        (0, { w with wg := { w.wg with incomingPort := port, transitNet := target } }.putNet net)
      else
        match env.bind target port with
        | .error e => (e, w.putNet net)
        | .ok bound =>
          (0, { w with wg := { w.wg with incomingPort := bound, transitNet := target },
                       log := w.log ++ [Effect.socketInit target bound] }.putNet net)

/-- Insert one allowed IP for a peer (`set_allowedip`): family, address and prefix length must
all be there, and the family must be IPv4 with a 4-byte address and a length up to 32 or IPv6
with a 16-byte address and a length up to 128; anything else is `-EINVAL`. The table's node
allocation may fail. -/
def setAllowedip (env : Env) (p : PeerId) (buf : Bytes) (attrs : AttrTable) (w : World) :
    Int × World :=
  match attrs WGALLOWEDIP_A_FAMILY, attrs WGALLOWEDIP_A_IPADDR, attrs WGALLOWEDIP_A_CIDR_MASK with
  | some fa, some ia, some ca =>
    let family := (nlaGetU16 buf fa).toNat
    let cidr := nlaGetU8 buf ca
    let insert (ins : AllowedIps → Bytes → UInt8 → PeerId → Bool → Int × AllowedIps) :
        Int × World :=
      let (fails, w) := w.alloc env
      let r := ins w.wg.table (nlaData buf ia) cidr p fails
      (r.1, { w with wg := { w.wg with table := r.2 } })
    if family = AF_INET ∧ cidr.toNat ≤ 32 ∧ ia.len = SIZEOF_IN_ADDR then
      insert wgAllowedipsInsertV4
    else if family = AF_INET6 ∧ cidr.toNat ≤ 128 ∧ ia.len = SIZEOF_IN6_ADDR then
      insert wgAllowedipsInsertV6
    else (-EINVAL, w)
  | _, _, _ => (-EINVAL, w)

/-- The allowed-IP loop of `set_peer` (`nla_for_each_nested` over `WGPEER_A_ALLOWEDIPS`): parse
each entry and insert it, up to the first failure. The buffer does not change inside
`set_peer`, so the entries are those of the nest as it came. -/
def setAllowedips (env : Env) (p : PeerId) (buf : Bytes) : List Nlattr → World → Int × World
  | [], w => (0, w)
  | a :: as, w =>
    match nlaParseNested buf WGALLOWEDIP_A_MAX allowedipPolicy a with
    | .error e => (e, w)
    | .ok tb =>
      let r := setAllowedip env p buf tb w
      if r.1 < 0 then r else setAllowedips env p buf as r.2

/-- The updates of `set_peer` before its allowed IPs: store the preshared key, store the
endpoint when its length and family agree, and drop the peer's allowed IPs on
`WGPEER_F_REPLACE_ALLOWEDIPS`. -/
def setPeerConfig (buf : Bytes) (attrs : AttrTable) (flags : UInt32) (psk : Option Key)
    (p : PeerId) (w : World) : World :=
  let w := match psk with
    | some k => { w with wg := w.wg.updPeer p fun o => { o with presharedKey := k } }
    | none => w
  let w := match attrs WGPEER_A_ENDPOINT with
    | some a =>
      let family := leValue ((nlaData buf a).take 2)
      if a.len = SIZEOF_SOCKADDR_IN ∧ family = AF_INET ∨
          a.len = SIZEOF_SOCKADDR_IN6 ∧ family = AF_INET6 then
        { w with wg := wgSocketSetPeerEndpoint w.wg p (Endpoint.ofBytes (nlaData buf a)) }
      else w
    | none => w
  if flags &&& WGPEER_F_REPLACE_ALLOWEDIPS ≠ 0 then
    { w with wg := { w.wg with table := wgAllowedipsRemoveByPeer w.wg.table p } }
  else w

/-- The updates of `set_peer` after its allowed IPs: set the keepalive interval, sending a
keepalive when it goes from zero to nonzero on a running device, and flush the staged packets
of a running device. -/
def setPeerFinish (buf : Bytes) (attrs : AttrTable) (p : PeerId) (w : World) : World :=
  let w := match attrs WGPEER_A_PERSISTENT_KEEPALIVE_INTERVAL with
    | some a =>
      let k := nlaGetU16 buf a
      let send := (w.wg.objs p).keepalive = 0 ∧ k ≠ 0 ∧ w.wg.running = true
      let w := { w with wg := w.wg.updPeer p fun o => { o with keepalive := k } }
      if send then { w with log := w.log ++ [Effect.sendKeepalive p] } else w
    | none => w
  if w.wg.running then { w with log := w.log ++ [Effect.sendStagedPackets p] } else w

/-- What `set_peer` does to the peer it holds, from the removal flag on: remove it; or update
it (`setPeerConfig`), insert its allowed IPs, and finish (`setPeerFinish`). A failing allowed IP
ends it there. -/
def setPeerUpdate (env : Env) (buf : Bytes) (attrs : AttrTable) (flags : UInt32)
    (psk : Option Key) (p : PeerId) (w : World) : Int × World :=
  if flags &&& WGPEER_F_REMOVE_ME ≠ 0 then (0, { w with wg := wgPeerRemove w.wg p })
  else
    let w := setPeerConfig buf attrs flags psk p w
    let r : Int × World := match attrs WGPEER_A_ALLOWEDIPS with
      | some a => setAllowedips env p buf (nlaNested buf a) w
      | none => (0, w)
    if r.1 < 0 then r else (0, setPeerFinish buf attrs p r.2)

/-- The peer `set_peer` goes on with, holding a reference on it: the member with the key, with
the lookup's reference, or else a new peer, with the extra reference taken as a lookup would. A
key not in the list is not created when the block removes it (`-ENODEV`) or when it is the
device's own key (silently skipped, `0`); creation may fail (`-ENOMEM`). Those exits hold no
peer. -/
def setPeerHold (env : Env) (pk : Key) (psk : Option Key) (flags : UInt32) (w : World) :
    Except (Int × World) (PeerId × World) :=
  match wgPubkeyHashtableLookup w.wg pk with
  | (some p, d) => .ok (p, { w with wg := d })
  | (none, d) =>
    let w := { w with wg := d }
    if flags &&& WGPEER_F_REMOVE_ME ≠ 0 then .error (-ENODEV, w)
    else if w.wg.identity.hasIdentity ∧ pk = w.wg.identity.staticPublic then .error (0, w)
    else
      match wgPeerCreate env w pk psk with
      | (none, w) => .error (-ENOMEM, w)
      | (some p, w) => .ok (p, { w with wg := wgPeerGet w.wg (some p) })

/-- The body of `set_peer` up to `out:`: the result, the peer it holds a reference on (`peer`),
and the world. The public key must be there with 32 bytes and the protocol version, if given,
must be 1; then the peer is looked up or created (`setPeerHold`) and updated. -/
def setPeerApply (env : Env) (buf : Bytes) (attrs : AttrTable) (w : World) :
    Int × Option PeerId × World :=
  match attrs WGPEER_A_PUBLIC_KEY with
  | none => (-EINVAL, none, w)
  | some pka =>
    if pka.len ≠ NOISE_PUBLIC_KEY_LEN then (-EINVAL, none, w)
    else
      let pk := nlaKey buf pka
      let psk := match attrs WGPEER_A_PRESHARED_KEY with
        | some a => if a.len = NOISE_SYMMETRIC_KEY_LEN then some (nlaKey buf a) else none
        | none => none
      let flags := match attrs WGPEER_A_FLAGS with
        | some a => nlaGetU32 buf a
        | none => 0
      let badVersion := match attrs WGPEER_A_PROTOCOL_VERSION with
        | some a => nlaGetU32 buf a != 1
        | none => false
      if badVersion then (-EPFNOSUPPORT, none, w)
      else
        match setPeerHold env pk psk flags w with
        | .error (e, w) => (e, none, w)
        | .ok (p, w) => let r := setPeerUpdate env buf attrs flags psk p w; (r.1, some p, r.2)

/-- Apply one peer block (`set_peer`): at `out:` drop the reference on the peer it holds and wipe
the block's preshared-key attribute. -/
def setPeer (env : Env) (buf : Bytes) (attrs : AttrTable) (w : World) : Int × Bytes × World :=
  let r := setPeerApply env buf attrs w
  (r.1, (match attrs WGPEER_A_PRESHARED_KEY with | some a => nlaWipe buf a | none => buf),
    { r.2.2 with wg := wgPeerPut r.2.2.wg r.2.1 })

/-- One pass of the peer loop of `set_device`: parse the block with `peer_policy` and apply it
(`set_peer`). -/
def setDevicePeer (env : Env) (a : Nlattr) (buf : Bytes) (w : World) : Int × Bytes × World :=
  match nlaParseNested buf WGPEER_A_MAX peerPolicy a with
  | .error e => (e, buf, w)
  | .ok tb => setPeer env buf tb w

/-- The peer loop of `set_device` (`nla_for_each_nested` over `WGDEVICE_A_PEERS`): read the next
header from the buffer as it now is and apply the block, up to the first failure. The `fuel`
bounds the number of headers, as in `nlaForEachAttr`. -/
def setDevicePeers (env : Env) : Nat → Nat → Nat → Bytes → World → Int × Bytes × World
  | 0, _, _, buf, w => (0, buf, w)
  | fuel + 1, pos, rem, buf, w =>
    match nlaAt buf pos rem with
    | none => (0, buf, w)
    | some a =>
      let r := setDevicePeer env a buf w
      if r.1 < 0 then r
      else setDevicePeers env fuel (pos + nlaTotalSize a.len) (rem - nlaTotalSize a.len) r.2.1 r.2.2

/-- Redo one peer's static-static precomputation against the new identity and remove the peer
when it fails: the body of the `list_for_each_entry_safe` loop of the key change. -/
def precomputeOrRemove (env : Env) (w : World) (p : PeerId) : World :=
  let pre := wgNoisePrecomputeStaticStatic env.curve w.wg.identity (w.wg.objs p).remoteStatic
  let w := { w with wg := w.wg.updPeer p fun o => { o with precomputedStaticStatic := pre.1 } }
  if pre.2 then w else { w with wg := wgPeerRemove w.wg p }

/-- The loop of the key change (`list_for_each_entry_safe` over the peers): redo each peer's
precomputation, removing those that fail. -/
def precomputeAll (env : Env) (w : World) : World :=
  (listForEachEntrySafe (fun w : World => w.wg.peers) (precomputeOrRemove env)
    (w.wg.peers.length + 1) (listNext w.wg.peers .head) w).getD w

/-- The first part of the key change: remove the peer whose key is the new public key, when one
can be derived (`wg_pubkey_hashtable_lookup`, then `wg_peer_put` and `wg_peer_remove`), so that
no peer is left with the device's own key. -/
def removeCollidingPeer (env : Env) (k : Key) (w : World) : World :=
  let pub := curve25519GeneratePublic env.curve Key.zero k
  if pub.2 then
    match wgPubkeyHashtableLookup w.wg pub.1 with
    | (some p, d) => { w with wg := wgPeerRemove (wgPeerPut d (some p)) p }
    | (none, d) => { w with wg := d }
  else w

/-- Install a new private key (the `WGDEVICE_A_PRIVATE_KEY` step of `set_device`): remove the
colliding peer, set the identity, redo every peer's precomputation, removing those that fail,
and rederive the cookie keys. -/
def setPrivateKey (env : Env) (k : Key) (w : World) : World :=
  let w := removeCollidingPeer env k w
  let w := { w with wg := { w.wg with
    identity := wgNoiseSetStaticIdentityPrivateKey env.curve w.wg.identity k } }
  let w := precomputeAll env w
  { w with wg := wgCookieCheckerPrecomputeDeviceKeys w.wg }

/-- The firewall-mark step of `set_device`: store the mark and drop every peer's cached source
address. -/
def setFwmark (attrs : AttrTable) (buf : Bytes) (w : World) : World :=
  match attrs WGDEVICE_A_FWMARK with
  | some a => clearPeerEndpointSrcs { w with wg := { w.wg with fwmark := nlaGetU32 buf a } }
  | none => w

/-- The `WGDEVICE_F_REPLACE_PEERS` step of `set_device`: remove every peer. -/
def replacePeers (attrs : AttrTable) (buf : Bytes) (w : World) : World :=
  let replace := match attrs WGDEVICE_A_FLAGS with
    | some a => nlaGetU32 buf a &&& WGDEVICE_F_REPLACE_PEERS != 0
    | none => false
  if replace then { w with wg := wgPeerRemoveAll w.wg } else w

/-- The private-key step of `set_device`: a `WGDEVICE_A_PRIVATE_KEY` of the key length is
installed (`setPrivateKey`); one of another length is ignored. -/
def setPrivateKeyAttr (env : Env) (attrs : AttrTable) (buf : Bytes) (w : World) : World :=
  match attrs WGDEVICE_A_PRIVATE_KEY with
  | some a => if a.len = NOISE_PUBLIC_KEY_LEN then setPrivateKey env (nlaKey buf a) w else w
  | none => w

/-- The device-level steps of `set_device` under the update lock: bump the generation, set the
firewall mark, move the socket (whose failure ends the request), replace the peers and install
the private key. -/
def setDeviceConfig (env : Env) (c : Caller) (attrs : AttrTable) (buf : Bytes) (w : World) :
    Int × World :=
  let w := setFwmark attrs buf { w with wg := { w.wg with updateGen := w.wg.updateGen + 1 } }
  let r := setSocket env c attrs buf w
  if r.1 ≠ 0 then r else (0, setPrivateKeyAttr env attrs buf (replacePeers attrs buf r.2))

/-- The part of `set_device` under the device's update lock: the device-level steps, then the
peer blocks. -/
def setDeviceLocked (env : Env) (c : Caller) (attrs : AttrTable) (buf : Bytes) (w : World) :
    Int × Bytes × World :=
  let r := setDeviceConfig env c attrs buf w
  if r.1 ≠ 0 then (r.1, buf, r.2)
  else
    match attrs WGDEVICE_A_PEERS with
    | some a => setDevicePeers env a.len a.off a.len buf r.2
    | none => (0, buf, r.2)

/-- The part of `set_device` before the lock: pick the device's namespace, check the caller's
capability there and find the device. A failure gives the error and the world with the
namespace reference dropped; success gives the namespace reference to drop at the end. -/
def setDeviceLookup (c : Caller) (attrs : AttrTable) (buf : Bytes) (w : World) :
    Except (Int × World) (Option NetId × World) :=
  match getAttrNet c buf (attrs WGDEVICE_A_DEV_NETNS_PID) (attrs WGDEVICE_A_DEV_NETNS_FD) w with
  | .error e => .error (e, w)
  | .ok (owned, w) =>
    if c.netlinkCapable (owned.getD c.sockNet) = false then .error (-EPERM, w.putNet owned)
    else
      match lookupInterface buf attrs (owned.getD c.sockNet) w with
      | .error e => .error (e, w.putNet owned)
      | .ok w => .ok (owned, w)

/-- Apply a request to the device (`set_device`): find the device (`setDeviceLookup`) and run
the locked part. On every exit the private-key attribute is wiped, and the device and namespace
references the call took are dropped. -/
def setDevice (env : Env) (c : Caller) (attrs : AttrTable) (buf : Bytes) (w : World) :
    Int × Bytes × World :=
  let wipe (buf : Bytes) : Bytes := match attrs WGDEVICE_A_PRIVATE_KEY with
    | some a => nlaWipe buf a
    | none => buf
  match setDeviceLookup c attrs buf w with
  | .error (e, w) => (e, wipe buf, w)
  | .ok (owned, w) =>
    let r := setDeviceLocked env c attrs buf w
    (r.1, wipe r.2.1,
      { r.2.2 with wg := { r.2.2.wg with refcnt := r.2.2.wg.refcnt - 1 } }.putNet owned)

/-- A `WG_CMD_SET_DEVICE` message as the generic netlink core hands it to `set_device`: its
attributes are parsed with `device_policy` first, and a message that fails the parse never
reaches the handler. -/
def genlSetDevice (env : Env) (c : Caller) (buf : Bytes) (w : World) : Int × Bytes × World :=
  match nlaParse buf WGDEVICE_A_MAX devicePolicy 0 buf.length with
  | .error e => (e, buf, w)
  | .ok attrs => setDevice env c attrs buf w

end WireGuardNetlink
