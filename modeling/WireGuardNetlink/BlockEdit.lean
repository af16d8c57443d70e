import WireGuardNetlink.RoundTrip

/-!
# A peer block as an edit of the peers

What one block of `WGDEVICE_A_PEERS` does to the peers, read at the level a client sees: the
peers in list order, each by its key, preshared key, endpoint address and keepalive interval
(`Device.lineup`; the allowed IPs are `PrefixEdit`'s). A block asks for an edit of the peer with
its key (`PeerEdit`, read from the parsed block by `peerEditOf`), and the edit is a plain
operation on a list (`PeerEdit.apply`): the peer with the key is removed, or has the fields the
block carries set; a key no peer has is `-ENODEV` for a removal, skipped when it is the device's
own, and otherwise appended as a new peer, if there is room and its precomputation succeeds.

`set_peer` computes this edit (`setPeer_refines`): the hashtable lookup with its reference, the
creation with its extra reference, the flags, the `sockaddr` copied into the endpoint union, the
keepalive interval set after the allowed IPs and the final `wg_peer_put` all disappear at this
level. It needs the keys of the peers distinct (`Roster`, which every run keeps), the block's
attributes within the buffer (as a parse leaves them), allowed-IP entries that are valid
prefixes, and allocations that succeed; an allocation failure or an invalid entry ends the block
between its updates, which is `PrefixEdit`'s subject.
-/

namespace WireGuardNetlink

/-- What a peer block sets of a peer besides its allowed IPs: the key, the preshared key, the
endpoint's address and the keepalive interval. -/
structure PeerFields where
  key : Key
  psk : Key
  endpoint : Bytes
  keepalive : UInt16
deriving DecidableEq, Repr

/-- The fields of a peer of a device. -/
def Device.peerFields (d : Device) (p : PeerId) : PeerFields :=
  ⟨(d.objs p).remoteStatic, (d.objs p).presharedKey, (d.objs p).endpoint.addr, (d.objs p).keepalive⟩

/-- The peers of a device in list order, by their fields. -/
def Device.lineup (d : Device) : List PeerFields := d.peers.map d.peerFields

/-- What a peer block asks of the peer with its key: to remove it, or to set the preshared key,
endpoint address and keepalive interval it carries. -/
structure PeerEdit where
  key : Key
  remove : Bool
  psk : Option Key
  endpoint : Option Bytes
  keepalive : Option UInt16
deriving DecidableEq, Repr

/-- A peer's fields with those an edit carries set. -/
def PeerFields.edit (v : PeerFields) (e : PeerEdit) : PeerFields :=
  ⟨v.key, e.psk.getD v.psk, e.endpoint.getD v.endpoint, e.keepalive.getD v.keepalive⟩

/-- A new peer's fields: its key, and nothing else set. -/
def PeerFields.fresh (k : Key) : PeerFields := ⟨k, Key.zero, Endpoint.zero.addr, 0⟩

/-- What a block's outcome depends on beyond the peers: the device's own public key, when it has
an identity, and whether the static-static precomputation with a key succeeds. -/
structure EditCtx where
  own : Option Key
  precompute : Key → Bool

/-- The context a device gives its blocks. -/
def Device.editCtx (env : Env) (d : Device) : EditCtx :=
  ⟨if d.identity.hasIdentity then some d.identity.staticPublic else none, precomputeOk env d.identity⟩

/-- The edit a block asks for, on the peers by their fields: the peer with the key is removed or
has the block's fields set; a key no peer has is `-ENODEV` for a removal, skipped when it is the
device's own, appended as a new peer when there is room and its precomputation succeeds, and
`-ENOMEM` otherwise. -/
def PeerEdit.apply (e : PeerEdit) (cx : EditCtx) (l : List PeerFields) : Int × List PeerFields :=
  if l.any (·.key = e.key) then
    if e.remove then (0, l.filter (·.key ≠ e.key))
    else (0, l.map fun v => if v.key = e.key then v.edit e else v)
  else if e.remove then (-ENODEV, l)
  else if cx.own = some e.key then (0, l)
  else if l.length < MAX_PEERS_PER_DEVICE ∧ cx.precompute e.key = true then
    (0, l ++ [(PeerFields.fresh e.key).edit e])
  else (-ENOMEM, l)

/-- The endpoint address a block carries, when its length and family agree: a `sockaddr_in`
of `AF_INET` or a `sockaddr_in6` of `AF_INET6`. -/
def endpointOf (buf : Bytes) (tb : AttrTable) : Option Bytes :=
  match tb WGPEER_A_ENDPOINT with
  | some a =>
    let family := leValue ((nlaData buf a).take 2)
    if a.len = SIZEOF_SOCKADDR_IN ∧ family = AF_INET ∨
        a.len = SIZEOF_SOCKADDR_IN6 ∧ family = AF_INET6 then some (nlaData buf a)
    else none
  | none => none

/-- The preshared key `set_peer` takes from a block: one of the key length. -/
def blockPsk (buf : Bytes) (tb : AttrTable) : Option Key :=
  match tb WGPEER_A_PRESHARED_KEY with
  | some a => if a.len = NOISE_SYMMETRIC_KEY_LEN then some (nlaKey buf a) else none
  | none => none

/-- The flags of a block, zero when it has none. -/
def blockFlags (buf : Bytes) (tb : AttrTable) : UInt32 :=
  match tb WGPEER_A_FLAGS with
  | some a => nlaGetU32 buf a
  | none => 0

/-- Whether a block names a protocol version other than 1. -/
def blockBadVersion (buf : Bytes) (tb : AttrTable) : Bool :=
  match tb WGPEER_A_PROTOCOL_VERSION with
  | some a => nlaGetU32 buf a != 1
  | none => false

/-- What a parsed peer block asks for, read as `set_peer` reads it: a public key of the key
length (`-EINVAL` without one), a protocol version of 1 if any (`-EPFNOSUPPORT`), the removal
flag, the preshared key, the endpoint and the keepalive interval. -/
def peerEditOf (buf : Bytes) (tb : AttrTable) : Except Int PeerEdit :=
  match tb WGPEER_A_PUBLIC_KEY with
  | none => .error (-EINVAL)
  | some pka =>
    if pka.len ≠ NOISE_PUBLIC_KEY_LEN then .error (-EINVAL)
    else if blockBadVersion buf tb then .error (-EPFNOSUPPORT)
    else .ok ⟨nlaKey buf pka, blockFlags buf tb &&& WGPEER_F_REMOVE_ME != 0, blockPsk buf tb,
      endpointOf buf tb, (tb WGPEER_A_PERSISTENT_KEEPALIVE_INTERVAL).map (nlaGetU16 buf)⟩

/-- What a parsed block does to the peers: its reading error, or its edit. -/
def blockEdit (cx : EditCtx) (buf : Bytes) (tb : AttrTable) (l : List PeerFields) :
    Int × List PeerFields :=
  match peerEditOf buf tb with
  | .error e => (e, l)
  | .ok e => e.apply cx l

/-- What a block of the peer nest asks for: its parse with `peer_policy`, read as an edit. -/
def blockEditOf (buf : Bytes) (a : Nlattr) : Except Int PeerEdit :=
  (nlaParseNested buf WGPEER_A_MAX peerPolicy a).bind (peerEditOf buf)

/-- Edits applied in order, up to the first that fails; a block that cannot be read fails with
its error. -/
def PeerEdit.applyAll (cx : EditCtx) : List (Except Int PeerEdit) → List PeerFields →
    Int × List PeerFields
  | [], l => (0, l)
  | .error e :: _, l => (e, l)
  | .ok e :: es, l =>
    let r := e.apply cx l
    if r.1 < 0 then r else PeerEdit.applyAll cx es r.2

@[simp] lemma wgPeerGet_peerFields (d : Device) (x : Option PeerId) (q : PeerId) :
    (wgPeerGet d x).peerFields q = d.peerFields q := by
  simp [Device.peerFields]

@[simp] lemma wgPeerPut_peerFields (d : Device) (x : Option PeerId) (q : PeerId) :
    (wgPeerPut d x).peerFields q = d.peerFields q := by
  simp [Device.peerFields]

@[simp] lemma wgPeerRemove_peerFields (d : Device) (p q : PeerId) :
    (wgPeerRemove d p).peerFields q = d.peerFields q := by
  simp [Device.peerFields]

/-- A buffer of a `sockaddr_in` of `AF_INET` or a `sockaddr_in6` of `AF_INET6`, copied into a
zeroed endpoint, keeps its family and is its address. -/
lemma Endpoint.ofBytes_of_sockaddr {b : Bytes}
    (h : b.length = SIZEOF_SOCKADDR_IN ∧ leValue (b.take 2) = AF_INET ∨
      b.length = SIZEOF_SOCKADDR_IN6 ∧ leValue (b.take 2) = AF_INET6) :
    (Endpoint.ofBytes b).family = leValue (b.take 2) ∧ (Endpoint.ofBytes b).addr = b := by
  have hfam : (Endpoint.ofBytes b).family = leValue (b.take 2) := by
    have h2 : 2 ≤ b.length := by rcases h with h | h <;> rw [h.1] <;> decide
    simp [Endpoint.family, Endpoint.ofBytes, List.take_take, List.take_append_of_le_length h2]
  refine ⟨hfam, ?_⟩
  rcases h with ⟨hl, hf⟩ | ⟨hl, hf⟩
  · rw [Endpoint.addr, if_pos (hfam.trans hf)]
    simp only [Endpoint.ofBytes, List.take_take]
    exact List.take_left' hl
  · rw [Endpoint.addr, if_neg (by rw [hfam, hf]; decide)]
    exact List.take_left' hl

@[simp] lemma Device.peerFields_withTable (d : Device) (t : AllowedIps) (q : PeerId) :
    ({ d with table := t } : Device).peerFields q = d.peerFields q := rfl

/-- Storing an endpoint from a `sockaddr` buffer sets the peer's endpoint address to the buffer
and changes nothing else of it. -/
lemma wgSocketSetPeerEndpoint_peerFields_self (d : Device) (p : PeerId) {b : Bytes}
    (h : b.length = SIZEOF_SOCKADDR_IN ∧ leValue (b.take 2) = AF_INET ∨
      b.length = SIZEOF_SOCKADDR_IN6 ∧ leValue (b.take 2) = AF_INET6) :
    (wgSocketSetPeerEndpoint d p (Endpoint.ofBytes b)).peerFields p =
      { d.peerFields p with endpoint := b } := by
  obtain ⟨hfam, haddr⟩ := Endpoint.ofBytes_of_sockaddr h
  have hset := addr_wgSocketSetPeerEndpoint d p (e := Endpoint.ofBytes b)
    (by rw [hfam]; rcases h with h | h <;> simp [h.2])
  rw [haddr] at hset
  simp only [Device.peerFields, hset]
  rw [wgSocketSetPeerEndpoint_objs_self]

/-- The updates before the allowed IPs set the held peer's preshared key, when the block has
one, and its endpoint, when the block's agrees in length and family. -/
lemma setPeerConfig_peerFields_self (buf : Bytes) (tb : AttrTable) (flags : UInt32)
    (psk : Option Key) (p : PeerId) (w : World)
    (hbuf : ∀ a, tb WGPEER_A_ENDPOINT = some a → a.off + a.len ≤ buf.length) :
    (setPeerConfig buf tb flags psk p w).wg.peerFields p =
      ⟨(w.wg.objs p).remoteStatic, psk.getD (w.wg.objs p).presharedKey,
        (endpointOf buf tb).getD (w.wg.objs p).endpoint.addr, (w.wg.objs p).keepalive⟩ := by
  unfold setPeerConfig endpointOf
  cases ha : tb WGPEER_A_ENDPOINT with
  | none => cases psk <;> dsimp only <;> split_ifs <;> simp [Device.peerFields]
  | some a =>
    dsimp only
    by_cases hc : a.len = SIZEOF_SOCKADDR_IN ∧ leValue ((nlaData buf a).take 2) = AF_INET ∨
        a.len = SIZEOF_SOCKADDR_IN6 ∧ leValue ((nlaData buf a).take 2) = AF_INET6
    · rw [if_pos hc, if_pos hc]
      rw [← length_nlaData (hbuf a ha)] at hc
      cases psk <;> split_ifs <;>
        simp only [Device.peerFields_withTable, wgSocketSetPeerEndpoint_peerFields_self _ _ hc] <;>
        simp [Device.peerFields]
    · rw [if_neg hc, if_neg hc]
      cases psk <;> split_ifs <;> simp [Device.peerFields]

/-- The updates before the allowed IPs leave every other peer's fields alone. -/
lemma setPeerConfig_peerFields_ne (buf : Bytes) (tb : AttrTable) (flags : UInt32)
    (psk : Option Key) {p q : PeerId} (w : World) (h : q ≠ p) :
    (setPeerConfig buf tb flags psk p w).wg.peerFields q = w.wg.peerFields q := by
  simp only [Device.peerFields, setPeerConfig_objs_ne _ _ _ _ _ h]

/-- The updates after the allowed IPs set the held peer's keepalive interval, when the block has
one, and leave every other peer's fields alone. -/
lemma setPeerFinish_peerFields (buf : Bytes) (tb : AttrTable) (p q : PeerId) (w : World) :
    (setPeerFinish buf tb p w).wg.peerFields q =
      if q = p then ⟨(w.wg.objs p).remoteStatic, (w.wg.objs p).presharedKey,
        (w.wg.objs p).endpoint.addr,
        ((tb WGPEER_A_PERSISTENT_KEEPALIVE_INTERVAL).map (nlaGetU16 buf)).getD (w.wg.objs p).keepalive⟩
      else w.wg.peerFields q := by
  split_ifs with h
  · subst h
    cases hk : tb WGPEER_A_PERSISTENT_KEEPALIVE_INTERVAL with
    | none => simp only [setPeerFinish, hk]; split_ifs <;> rfl
    | some ka => simp [Device.peerFields, setPeerFinish_objs_self hk]
  · simp only [Device.peerFields, setPeerFinish_objs_ne _ _ _ h]

/-- Entries whose prefixes are all valid ask for a list of prefixes. -/
lemma map_eq_filterMap_of_isSome {α β : Type} (f : α → Option β) :
    ∀ {l : List α}, (∀ x ∈ l, (f x).isSome) → l.map f = (l.filterMap f).map some
  | [], _ => rfl
  | x :: l, h => by
    obtain ⟨y, hy⟩ := Option.isSome_iff_exists.1 (h x (List.mem_cons_self _ _))
    simp [hy, map_eq_filterMap_of_isSome f fun z hz => h z (List.mem_cons_of_mem _ hz)]

/-- Past the hold, a block without the removal flag whose allowed-IP entries are valid prefixes,
with no allocation failing, succeeds and sets the held peer's fields as the block asks; every
other peer keeps its fields and the list stays. -/
lemma setPeerUpdate_fields (env : Env) (buf : Bytes) (tb : AttrTable) {flags : UInt32}
    (psk : Option Key) (p : PeerId) (w : World) (hrm : flags &&& WGPEER_F_REMOVE_ME = 0)
    (hbuf : ∀ a, tb WGPEER_A_ENDPOINT = some a → a.off + a.len ≤ buf.length)
    (halloc : ∀ n, w.allocs ≤ n → env.oom n = false)
    (hips : ∀ x ∈ (tb WGPEER_A_ALLOWEDIPS).elim [] (nlaNested buf), (entryPrefix buf x).isSome) :
    (setPeerUpdate env buf tb flags psk p w).1 = 0 ∧
      (setPeerUpdate env buf tb flags psk p w).2.wg.peers = w.wg.peers ∧
      ∀ q, (setPeerUpdate env buf tb flags psk p w).2.wg.peerFields q =
        if q = p then ⟨(w.wg.objs p).remoteStatic, psk.getD (w.wg.objs p).presharedKey,
          (endpointOf buf tb).getD (w.wg.objs p).endpoint.addr,
          ((tb WGPEER_A_PERSISTENT_KEEPALIVE_INTERVAL).map (nlaGetU16 buf)).getD
            (w.wg.objs p).keepalive⟩
        else w.wg.peerFields q := by
  have hallocs := (setPeerConfig_table buf tb flags psk p w).2
  obtain ⟨h0, -⟩ := setAllowedips_of_valid env p buf _ _ (setPeerConfig buf tb flags psk p w)
    (map_eq_filterMap_of_isSome _ hips) (fun n hn => halloc n (hallocs ▸ hn))
  obtain ⟨t, ht⟩ := setAllowedips_wg env p buf ((tb WGPEER_A_ALLOWEDIPS).elim [] (nlaNested buf))
    (setPeerConfig buf tb flags psk p w)
  rw [setPeerUpdate_of_keep env buf tb psk p w hrm]
  simp only [h0, lt_irrefl, if_false, setPeerFinish_peers, ht, true_and]
  refine ⟨setPeerConfig_peers buf tb flags psk p w, fun q => ?_⟩
  rw [setPeerFinish_peerFields, ht]
  split_ifs with hq
  · subst hq
    have hc := setPeerConfig_peerFields_self buf tb flags psk q w hbuf
    simp only [Device.peerFields, PeerFields.mk.injEq] at hc
    simp only [hc]
  · rw [Device.peerFields_withTable, setPeerConfig_peerFields_ne _ _ _ _ _ hq]

/-- An edit read from a block carries the block's flags, preshared key, endpoint and keepalive
interval. -/
lemma peerEditOf_ok {buf : Bytes} {tb : AttrTable} {ed : PeerEdit} (h : peerEditOf buf tb = .ok ed) :
    ed.remove = (blockFlags buf tb &&& WGPEER_F_REMOVE_ME != 0) ∧ ed.psk = blockPsk buf tb ∧
      ed.endpoint = endpointOf buf tb ∧
      ed.keepalive = (tb WGPEER_A_PERSISTENT_KEEPALIVE_INTERVAL).map (nlaGetU16 buf) := by
  unfold peerEditOf at h
  split at h
  · cases h
  · split_ifs at h
    cases h
    exact ⟨rfl, rfl, rfl, rfl⟩

/-- `set_peer` up to `out:` reads a block as `peerEditOf` does: a block it cannot read holds no
peer and changes nothing; otherwise the hold runs with the edit's key and preshared key and the
block's flags, and the update on the peer it holds. -/
lemma setPeerApply_of_edit (env : Env) (buf : Bytes) (tb : AttrTable) (w : World) :
    (∀ e, peerEditOf buf tb = .error e → setPeerApply env buf tb w = (e, none, w)) ∧
    ∀ ed, peerEditOf buf tb = .ok ed →
      (∀ e w', setPeerHold env ed.key ed.psk (blockFlags buf tb) w = .error (e, w') →
        setPeerApply env buf tb w = (e, none, w')) ∧
      ∀ p w', setPeerHold env ed.key ed.psk (blockFlags buf tb) w = .ok (p, w') →
        setPeerApply env buf tb w =
          ((setPeerUpdate env buf tb (blockFlags buf tb) ed.psk p w').1, some p,
            (setPeerUpdate env buf tb (blockFlags buf tb) ed.psk p w').2) := by
  unfold setPeerApply peerEditOf
  cases tb WGPEER_A_PUBLIC_KEY with
  | none => exact ⟨fun e h => by cases h; rfl, fun ed h => (nomatch h)⟩
  | some pka =>
    dsimp only
    by_cases hlen : pka.len ≠ NOISE_PUBLIC_KEY_LEN
    · rw [if_pos hlen, if_pos hlen]
      exact ⟨fun e h => by cases h; rfl, fun ed h => (nomatch h)⟩
    rw [if_neg hlen, if_neg hlen]
    by_cases hv : blockBadVersion buf tb = true
    · rw [if_pos hv]
      split_ifs with hv'
      · exact ⟨fun e h => by cases h; rfl, fun ed h => (nomatch h)⟩
      · exact absurd hv hv'
    · rw [if_neg hv]
      split_ifs with hv'
      · exact absurd hv' hv
      · refine ⟨fun e h => (nomatch h), fun ed h => ?_⟩
        cases h
        refine ⟨fun e w' h => ?_, fun p w' h => ?_⟩ <;> split <;> rename_i heq <;>
          cases h.symm.trans heq <;> rfl

/-- A key the lookup finds on the list is held with the lookup's reference. -/
lemma setPeerHold_of_found (env : Env) {pk : Key} {psk : Option Key} {flags : UInt32} {w : World}
    {p : PeerId} (hfind : w.wg.peers.find? (fun q => (w.wg.objs q).remoteStatic = pk) = some p) :
    setPeerHold env pk psk flags w = .ok (p, { w with wg := wgPeerGet w.wg (some p) }) := by
  simp [setPeerHold, wgPubkeyHashtableLookup, hfind]

/-- A key no peer has, in a block without the removal flag, with an allocation that succeeds:
the device's own key is skipped with nothing changed; otherwise, when there is room and the
precomputation succeeds, a new peer, blank but for its key, preshared key and precomputation, is
linked at the tail and held, and if not the hold is `-ENOMEM`. -/
lemma setPeerHold_of_absent (env : Env) {pk : Key} {psk : Option Key} {flags : UInt32}
    {w : World} (hfind : w.wg.peers.find? (fun q => (w.wg.objs q).remoteStatic = pk) = none)
    (hrm : flags &&& WGPEER_F_REMOVE_ME = 0) (hoom : env.oom w.allocs = false) :
    (w.wg.identity.hasIdentity = true ∧ pk = w.wg.identity.staticPublic →
      setPeerHold env pk psk flags w = .error (0, w)) ∧
    (¬(w.wg.identity.hasIdentity = true ∧ pk = w.wg.identity.staticPublic) →
      w.wg.peers.length < MAX_PEERS_PER_DEVICE ∧ precomputeOk env w.wg.identity pk = true →
      ∃ o : Peer, o.remoteStatic = pk ∧ o.presharedKey = psk.getD Key.zero ∧
        o.endpoint = Endpoint.zero ∧ o.keepalive = 0 ∧
        setPeerHold env pk psk flags w = .ok (w.wg.nextPeer,
          { w with wg := wgPeerGet (w.wg.link o) (some w.wg.nextPeer), allocs := w.allocs + 1 })) ∧
    (¬(w.wg.identity.hasIdentity = true ∧ pk = w.wg.identity.staticPublic) →
      ¬(w.wg.peers.length < MAX_PEERS_PER_DEVICE ∧ precomputeOk env w.wg.identity pk = true) →
      ∃ w', setPeerHold env pk psk flags w = .error (-ENOMEM, w')) := by
  simp only [setPeerHold, wgPubkeyHashtableLookup, hfind, wgPeerGet, hrm, ne_eq,
    not_true_eq_false, if_false]
  refine ⟨fun hown => by rw [if_pos hown], fun hown hadm => ?_, fun hown hadm => ?_⟩
  · have hpre : (wgNoisePrecomputeStaticStatic env.curve w.wg.identity pk).2 = true := hadm.2
    simp only [if_neg hown, wgPeerCreate, not_le.2 hadm.1, World.alloc, hoom, hpre, if_false]
    exact ⟨_, rfl, rfl, rfl, rfl, rfl⟩
  · rw [if_neg hown]
    unfold wgPeerCreate
    split_ifs with hmax
    · exact ⟨_, rfl⟩
    · simp only [World.alloc, hoom]
      have hpre : (wgNoisePrecomputeStaticStatic env.curve w.wg.identity pk).2 = false := by
        simpa [precomputeOk, not_le.1 hmax] using hadm
      simp only [hpre]
      exact ⟨_, rfl⟩

/-- With distinct keys, a linked peer is the only one with its key. -/
lemma Device.key_eq_iff {d : Device} (hk : d.keys.Nodup) {p q : PeerId} (hp : p ∈ d.peers)
    (hq : q ∈ d.peers) : (d.objs q).remoteStatic = (d.objs p).remoteStatic ↔ q = p :=
  ⟨List.inj_on_of_nodup_map hk hq hp, fun h => h ▸ rfl⟩

/-- With distinct keys, dropping a linked peer's key from the fields drops the peer. -/
lemma Device.lineup_filter {d : Device} (hk : d.keys.Nodup) {p : PeerId} (hp : p ∈ d.peers) :
    d.lineup.filter (·.key ≠ (d.objs p).remoteStatic) = (d.peers.erase p).map d.peerFields := by
  rw [Device.lineup, List.filter_map, d.nodup_peers.erase_eq_filter]
  congr 1
  exact List.filter_congr fun q hq => by
    by_cases h : q = p <;> simp [Device.peerFields, Device.key_eq_iff hk hp hq, h]

/-- With distinct keys, changing the fields with a linked peer's key changes that peer's. -/
lemma Device.lineup_map {d : Device} (hk : d.keys.Nodup) {p : PeerId} (hp : p ∈ d.peers)
    (f : PeerFields → PeerFields) :
    d.lineup.map (fun v => if v.key = (d.objs p).remoteStatic then f v else v) =
      d.peers.map fun q => if q = p then f (d.peerFields p) else d.peerFields q := by
  rw [Device.lineup, List.map_map]
  refine List.map_congr_left fun q hq => ?_
  by_cases h : q = p
  · subst h; simp [Device.peerFields]
  · simp only [Function.comp_apply, Device.peerFields, if_neg h]
    rw [if_neg (mt (Device.key_eq_iff hk hp hq).1 h)]

/-- One peer block refines its edit. Take a device whose peers have distinct keys, a parsed block
whose attributes lie within the buffer and whose allowed-IP entries are valid prefixes, and no
allocation failing from here on. Then `set_peer` returns what the edit the block asks for
returns, and leaves the peers, by their fields in list order, as the edit leaves them. -/
theorem setPeer_refines (env : Env) (buf : Bytes) (tb : AttrTable) (w : World)
    (hkeys : w.wg.keys.Nodup) (hbuf : ∀ t a, tb t = some a → a.off + a.len ≤ buf.length)
    (halloc : ∀ n, w.allocs ≤ n → env.oom n = false)
    (hips : ∀ x ∈ (tb WGPEER_A_ALLOWEDIPS).elim [] (nlaNested buf), (entryPrefix buf x).isSome) :
    ((setPeer env buf tb w).1, (setPeer env buf tb w).2.2.wg.lineup) =
      blockEdit (w.wg.editCtx env) buf tb w.wg.lineup := by
  obtain ⟨herr, hok⟩ := setPeerApply_of_edit env buf tb w
  unfold blockEdit
  cases he : peerEditOf buf tb with
  | error e => simp [setPeer, herr e he, Device.lineup]
  | ok ed =>
    obtain ⟨hrm, hpsk, hep, hka⟩ := peerEditOf_ok he
    obtain ⟨hholdErr, hholdOk⟩ := hok ed he
    dsimp only
    cases hf : w.wg.peers.find? (fun q => (w.wg.objs q).remoteStatic = ed.key) with
    | some p =>
      have hp := List.mem_of_find?_eq_some hf
      have hkp : (w.wg.objs p).remoteStatic = ed.key := by simpa using List.find?_some hf
      have hany : w.wg.lineup.any (·.key = ed.key) = true :=
        List.any_eq_true.2 ⟨_, List.mem_map_of_mem _ hp, by simp [Device.peerFields, hkp]⟩
      have happly := hholdOk p _ (setPeerHold_of_found env hf)
      rw [PeerEdit.apply, if_pos hany]
      cases hr : ed.remove
      · have hrm' : blockFlags buf tb &&& WGPEER_F_REMOVE_ME = 0 := by simpa [hr] using hrm
        obtain ⟨h0, hpeers, hfields⟩ := setPeerUpdate_fields env buf tb ed.psk p
          { w with wg := wgPeerGet w.wg (some p) } hrm' (hbuf _) halloc hips
        simp only [setPeer, happly, h0, if_false, Bool.false_eq_true]
        rw [← hkp, Device.lineup_map hkeys hp]
        simp only [Device.lineup, wgPeerPut_peers, hpeers, wgPeerGet_peers, Prod.mk.injEq, true_and]
        refine List.map_congr_left fun q _ => ?_
        rw [wgPeerPut_peerFields, hfields]
        split_ifs with hq
        · subst hq; simp [PeerFields.edit, Device.peerFields, hpsk, hep, hka]
        · simp
      · have hrm' : blockFlags buf tb &&& WGPEER_F_REMOVE_ME ≠ 0 := by simpa [hr] using hrm
        simp only [setPeer, happly, setPeerUpdate, if_pos hrm', if_true]
        rw [← hkp, Device.lineup_filter hkeys hp]
        simp [Device.lineup]
    | none =>
      have hnone : ∀ q ∈ w.wg.peers, (w.wg.objs q).remoteStatic ≠ ed.key := fun q hq h => by
        simpa [h] using List.find?_eq_none.1 hf q hq
      have hany : w.wg.lineup.any (·.key = ed.key) = false := by
        simpa [Device.lineup, Device.peerFields] using hnone
      rw [PeerEdit.apply, if_neg (by simp [hany])]
      cases hr : ed.remove
      · have hrm' : blockFlags buf tb &&& WGPEER_F_REMOVE_ME = 0 := by simpa [hr] using hrm
        obtain ⟨hown, hnew, hfail⟩ := @setPeerHold_of_absent env _ ed.psk _ _ hf hrm'
          (halloc _ le_rfl)
        have hcx : (w.wg.editCtx env).own = some ed.key ↔
            w.wg.identity.hasIdentity = true ∧ ed.key = w.wg.identity.staticPublic := by
          simp only [Device.editCtx]; split_ifs <;> simp [*, eq_comm]
        by_cases hself : w.wg.identity.hasIdentity = true ∧ ed.key = w.wg.identity.staticPublic
        · simp [setPeer, hholdErr _ _ (hown hself), hcx.2 hself, Device.lineup]
        rw [if_neg (hself ∘ hcx.1), if_neg (by simp)]
        by_cases hadm : w.wg.peers.length < MAX_PEERS_PER_DEVICE ∧
            precomputeOk env w.wg.identity ed.key = true
        · obtain ⟨o, hok, hopsk, hoep, hoka, hh⟩ := hnew hself hadm
          have happly := hholdOk _ _ hh
          obtain ⟨h0, hpeers, hfields⟩ := setPeerUpdate_fields env buf tb ed.psk w.wg.nextPeer
            { w with wg := wgPeerGet (w.wg.link o) (some w.wg.nextPeer), allocs := w.allocs + 1 }
            hrm' (hbuf _) (fun n hn => halloc n (Nat.le_of_succ_le hn)) hips
          rw [if_pos (by simpa [Device.lineup, Device.editCtx] using hadm)]
          simp only [setPeer, happly, h0, Device.lineup, wgPeerPut_peers, hpeers, wgPeerGet_peers,
            Device.link_peers, List.map_append, List.map_singleton, wgPeerPut_peerFields, hfields,
            if_pos rfl]
          congr 2
          · refine List.map_congr_left fun q hq => ?_
            have hne : q ≠ w.wg.nextPeer := Nat.ne_of_lt (w.wg.lt_nextPeer q hq)
            rw [wgPeerPut_peerFields, hfields, if_neg hne]
            simp [Device.peerFields, Device.link_objs_ne _ _ hne]
          · simp only [PeerFields.edit, PeerFields.fresh, wgPeerGet_objs, Device.link_objs_self, hok,
              hopsk, hoep, hoka, hep, hka]
            cases ed.psk <;> rfl
        · obtain ⟨w', hh⟩ := hfail hself hadm
          have hwg := (setPeerHold_error env hh).1
          rw [if_neg (by simpa [Device.lineup, Device.editCtx] using hadm)]
          simp [setPeer, hholdErr _ _ hh, hwg, Device.lineup]
      · have hrm' : blockFlags buf tb &&& WGPEER_F_REMOVE_ME ≠ 0 := by simpa [hr] using hrm
        have hh : setPeerHold env ed.key ed.psk (blockFlags buf tb) w = .error (-ENODEV, w) := by
          simp [setPeerHold, wgPubkeyHashtableLookup, hf, hrm', wgPeerGet]
        simp [setPeer, hholdErr _ _ hh, Device.lineup]

section Congr

variable {buf buf' : Bytes}

/-- A payload at or after a position reads the same in two buffers that agree from there on. -/
lemma nlaData_congr {pos : Nat} (h : buf'.drop pos = buf.drop pos) {a : Nlattr} (ha : pos ≤ a.off) :
    nlaData buf' a = nlaData buf a := by
  simp only [nlaData, drop_congr_of_le h ha]

/-- Filling a table reads only the payloads of the attributes it walks. -/
lemma nlaParseAttrs_congr {maxtype : Nat} {policy : Nat → NlaPolicy} :
    ∀ {l : List Nlattr}, (∀ a ∈ l, nlaData buf' a = nlaData buf a) → ∀ tb0,
      nlaParseAttrs buf' maxtype policy l tb0 = nlaParseAttrs buf maxtype policy l tb0
  | [], _, _ => rfl
  | a :: l, h, tb0 => by
    simp only [nlaParseAttrs, validateNla_congr rfl (h a (List.mem_cons_self _ _)),
      nlaParseAttrs_congr fun x hx => h x (List.mem_cons_of_mem _ hx)]

/-- A parse reads only the bytes from its start on. -/
lemma nlaParse_congr {maxtype : Nat} {policy : Nat → NlaPolicy} {pos len : Nat}
    (h : buf'.drop pos = buf.drop pos) :
    nlaParse buf' maxtype policy pos len = nlaParse buf maxtype policy pos len := by
  unfold nlaParse nlaAttrs
  rw [nlaForEachAttr_congr _ _ _ h]
  exact nlaParseAttrs_congr (fun a ha => nlaData_congr h (by have := mem_nlaForEachAttr ha; omega)) _

variable {tb : AttrTable} (h : ∀ t a, tb t = some a → nlaData buf' a = nlaData buf a)
include h

lemma endpointOf_congr : endpointOf buf' tb = endpointOf buf tb := by
  unfold endpointOf
  cases ha : tb WGPEER_A_ENDPOINT with
  | none => rfl
  | some a => simp [h _ _ ha]

lemma blockPsk_congr : blockPsk buf' tb = blockPsk buf tb := by
  unfold blockPsk
  cases ha : tb WGPEER_A_PRESHARED_KEY with
  | none => rfl
  | some a => simp [nlaKey, h _ _ ha]

lemma blockFlags_congr : blockFlags buf' tb = blockFlags buf tb := by
  unfold blockFlags
  cases ha : tb WGPEER_A_FLAGS with
  | none => rfl
  | some a => simp [nlaGetU32, h _ _ ha]

lemma blockBadVersion_congr : blockBadVersion buf' tb = blockBadVersion buf tb := by
  unfold blockBadVersion
  cases ha : tb WGPEER_A_PROTOCOL_VERSION with
  | none => rfl
  | some a => simp [nlaGetU32, h _ _ ha]

/-- A block reads as the same edit in two buffers in which its payloads agree. -/
lemma peerEditOf_congr : peerEditOf buf' tb = peerEditOf buf tb := by
  have hka : (tb WGPEER_A_PERSISTENT_KEEPALIVE_INTERVAL).map (nlaGetU16 buf') =
      (tb WGPEER_A_PERSISTENT_KEEPALIVE_INTERVAL).map (nlaGetU16 buf) := by
    cases ha : tb WGPEER_A_PERSISTENT_KEEPALIVE_INTERVAL with
    | none => rfl
    | some a => simp [nlaGetU16, h _ _ ha]
  unfold peerEditOf
  cases ha : tb WGPEER_A_PUBLIC_KEY with
  | none => rfl
  | some pka =>
    simp only [blockPsk_congr h, blockFlags_congr h, blockBadVersion_congr h, endpointOf_congr h,
      hka, nlaKey, h _ _ ha]

/-- An allowed-IP entry asks for the same prefix in two buffers in which its payloads agree. -/
lemma allowedipOf_congr : allowedipOf buf' tb = allowedipOf buf tb := by
  unfold allowedipOf
  cases hf : tb WGALLOWEDIP_A_FAMILY <;> cases hi : tb WGALLOWEDIP_A_IPADDR <;>
    cases hc : tb WGALLOWEDIP_A_CIDR_MASK <;>
    first | rfl | simp [nlaGetU16, nlaGetU8, h _ _ hf, h _ _ hi, h _ _ hc]

end Congr

/-- An entry asks for the same prefix in two buffers that agree from it on. -/
lemma entryPrefix_congr {buf buf' : Bytes} {a : Nlattr} (h : buf'.drop a.off = buf.drop a.off) :
    entryPrefix buf' a = entryPrefix buf a := by
  unfold entryPrefix nlaParseNested
  rw [nlaParse_congr h]
  cases hp : nlaParse buf WGALLOWEDIP_A_MAX allowedipPolicy a.off a.len with
  | error e => rfl
  | ok etb =>
    simp only [Except.toOption, Option.bind_some]
    exact allowedipOf_congr fun t x hx => nlaData_congr h (by
      have := nlaParseNested_bounds (a := a) hp hx; omega)

/-- The context depends on the device's identity alone. -/
lemma Device.editCtx_congr (env : Env) {d d' : Device} (h : d'.identity = d.identity) :
    d'.editCtx env = d.editCtx env := by
  simp only [Device.editCtx, h]

/-- A block that cannot be read is a negative error. -/
lemma peerEditOf_error_neg {buf : Bytes} {tb : AttrTable} {e : Int}
    (h : peerEditOf buf tb = .error e) : e < 0 := by
  unfold peerEditOf at h
  split at h
  · cases h; decide
  · split_ifs at h <;> cases h <;> decide

/-- The peer loop over blocks read from a buffer that agrees with the request from each block
on: it applies the edits the request's blocks ask for. -/
lemma applyPeerBlocks_refines_of_agree (env : Env) (buf : Bytes) (halloc : ∀ n, env.oom n = false) :
    ∀ (l : List Nlattr) (cur : Bytes) (w : World), Roster w.wg → cur.length = buf.length →
      (∀ x ∈ l, cur.drop x.off = buf.drop x.off ∧ x.off + x.len ≤ buf.length) →
      l.Pairwise (fun a b => a.off + a.len ≤ b.off) →
      (∀ x ∈ l, ∀ tb, nlaParseNested buf WGPEER_A_MAX peerPolicy x = .ok tb →
        ∀ y ∈ (tb WGPEER_A_ALLOWEDIPS).elim [] (nlaNested buf), (entryPrefix buf y).isSome) →
      ((applyPeerBlocks env l cur w).1, (applyPeerBlocks env l cur w).2.2.wg.lineup) =
        PeerEdit.applyAll (w.wg.editCtx env) (l.map (blockEditOf buf)) w.wg.lineup
  | [], _, _, _, _, _, _, _ => rfl
  | x :: l, cur, w, hr, hlen, hagree, hsort, hips => by
    obtain ⟨hx, hxb⟩ := hagree x (List.mem_cons_self _ _)
    have hparse : nlaParseNested cur WGPEER_A_MAX peerPolicy x =
        nlaParseNested buf WGPEER_A_MAX peerPolicy x := nlaParse_congr hx
    simp only [applyPeerBlocks, setDevicePeer, hparse, List.map_cons, blockEditOf]
    cases hp : nlaParseNested buf WGPEER_A_MAX peerPolicy x with
    | error e => simp [PeerEdit.applyAll, nlaParseAttrs_error hp]
    | ok tb =>
      have hin : ∀ t b, tb t = some b → x.off + NLA_HDRLEN ≤ b.off ∧ b.off + b.len ≤ x.off + x.len :=
        fun t b hb => nlaParseNested_bounds hp hb
      have hdata : ∀ t b, tb t = some b → nlaData cur b = nlaData buf b :=
        fun t b hb => nlaData_congr hx (by have := hin t b hb; omega)
      have hstep := setPeer_refines env cur tb w hr.nodup_keys
        (fun t b hb => by have := hin t b hb; omega) (fun n _ => halloc n) (by
          cases hA : tb WGPEER_A_ALLOWEDIPS with
          | none => simp
          | some A =>
            have hA' := hin _ _ hA
            have hdrop : cur.drop A.off = buf.drop A.off := drop_congr_of_le hx (by omega)
            intro y hy
            rw [Option.elim_some] at hy
            have hy' : y ∈ nlaNested buf A := by
              simpa only [nlaNested, nlaAttrs, nlaForEachAttr_congr _ _ _ hdrop] using hy
            rw [entryPrefix_congr (drop_congr_of_le hdrop
              (by have := mem_nlaForEachAttr hy'; omega))]
            exact hips x (List.mem_cons_self _ _) tb hp y (by rw [hA, Option.elim_some]; exact hy'))
      rw [blockEdit, peerEditOf_congr hdata] at hstep
      simp only [Except.bind]
      cases he : peerEditOf buf tb with
      | error e =>
        rw [he] at hstep
        simp only [Prod.mk.injEq] at hstep
        simp [PeerEdit.applyAll, hstep.1, peerEditOf_error_neg he, hstep.2]
      | ok ed =>
        rw [he] at hstep
        dsimp only at hstep
        simp only [PeerEdit.applyAll, ← hstep]
        split_ifs with hneg
        · rfl
        · have hbuf' : ∀ y ∈ l, (setPeer env cur tb w).2.1.drop y.off = cur.drop y.off := by
            intro y hy
            have hxy := List.rel_of_pairwise_cons hsort hy
            rw [setPeer_buf]
            split
            · rename_i b hb
              have := hin _ _ hb
              exact drop_memzeroExplicit _ (by omega)
            · rfl
          have hlen' : (setPeer env cur tb w).2.1.length = buf.length := by
            rw [setPeer_buf]; split <;> simp [nlaWipe, hlen]
          have hcx : (setPeer env cur tb w).2.2.wg.editCtx env = w.wg.editCtx env :=
            Device.editCtx_congr env (by rw [Device.identity_eq_head, setPeer_head]; rfl)
          rw [applyPeerBlocks_refines_of_agree env buf halloc l _ _ (setPeer_roster env cur tb w hr)
              hlen' (fun y hy => ⟨(hbuf' y hy).trans (hagree y (List.mem_cons_of_mem _ hy)).1,
                (hagree y (List.mem_cons_of_mem _ hy)).2⟩)
              (List.pairwise_cons.1 hsort).2 (fun y hy => hips y (List.mem_cons_of_mem _ hy)), hcx]

/-- Once the device-level steps succeed, the locked part of `set_device` applies the edits of the
request's blocks, read from the request as it came, from the peers those steps leave. -/
lemma setDeviceLocked_applyAll (env : Env) (c : Caller) (attrs : AttrTable) (buf : Bytes)
    (w : World) (hr : Roster w.wg)
    (hpeers : ∀ a, attrs WGDEVICE_A_PEERS = some a → a.off + a.len ≤ buf.length)
    (hcfg : (setDeviceConfig env c attrs buf w).1 = 0) (halloc : ∀ n, env.oom n = false)
    (hips : ∀ x ∈ (attrs WGDEVICE_A_PEERS).elim [] (nlaNested buf), ∀ tb,
      nlaParseNested buf WGPEER_A_MAX peerPolicy x = .ok tb →
      ∀ y ∈ (tb WGPEER_A_ALLOWEDIPS).elim [] (nlaNested buf), (entryPrefix buf y).isSome) :
    ((setDeviceLocked env c attrs buf w).1, (setDeviceLocked env c attrs buf w).2.2.wg.lineup) =
      PeerEdit.applyAll ((setDeviceConfig env c attrs buf w).2.wg.editCtx env)
        (((attrs WGDEVICE_A_PEERS).elim [] (nlaNested buf)).map (blockEditOf buf))
        (setDeviceConfig env c attrs buf w).2.wg.lineup := by
  cases hp : attrs WGDEVICE_A_PEERS with
  | none => simp [setDeviceLocked, hcfg, hp, PeerEdit.applyAll]
  | some a =>
    rw [hp, Option.elim_some] at hips
    rw [setDeviceLocked_eq env c attrs buf w a hp hcfg, Option.elim_some]
    have ha := hpeers a hp
    exact applyPeerBlocks_refines_of_agree env buf halloc _ buf _
      (setDeviceConfig_roster env c attrs buf w hr) rfl
      (fun x hx => ⟨rfl, by have := mem_nlaForEachAttr hx; omega⟩) nlaForEachAttr_pairwise hips

/-- The peer blocks of a request refine the edits they ask for. Take a device whose peers have
distinct keys, none the device's own (`Roster`), a request whose device-level steps succeed and
whose peer nest lies within the buffer, with allowed-IP entries that are all valid prefixes, and a
kernel in which no allocation fails. Then the locked part of `set_device` returns what the edits
of the request's blocks, read from the request as it came and applied in order from the peers the
device-level steps leave, return, and leaves the peers as those edits leave them: the preshared
keys each block wipes from the buffer change no later block. -/
theorem setDeviceLocked_refines (env : Env) (c : Caller) (attrs : AttrTable) (buf : Bytes)
    (w : World) (a : Nlattr) (hr : Roster w.wg) (hpeers : attrs WGDEVICE_A_PEERS = some a)
    (ha : a.off + a.len ≤ buf.length) (hcfg : (setDeviceConfig env c attrs buf w).1 = 0)
    (halloc : ∀ n, env.oom n = false)
    (hips : ∀ x ∈ nlaNested buf a, ∀ tb, nlaParseNested buf WGPEER_A_MAX peerPolicy x = .ok tb →
      ∀ y ∈ (tb WGPEER_A_ALLOWEDIPS).elim [] (nlaNested buf), (entryPrefix buf y).isSome) :
    ((setDeviceLocked env c attrs buf w).1, (setDeviceLocked env c attrs buf w).2.2.wg.lineup) =
      PeerEdit.applyAll ((setDeviceConfig env c attrs buf w).2.wg.editCtx env)
        ((nlaNested buf a).map (blockEditOf buf)) (setDeviceConfig env c attrs buf w).2.wg.lineup := by
  have h := setDeviceLocked_applyAll env c attrs buf w hr (fun a' h' => by
    rw [hpeers] at h'; cases h'; exact ha) hcfg halloc (by rw [hpeers, Option.elim_some]; exact hips)
  rwa [hpeers, Option.elim_some] at h

set_option maxRecDepth 20000 in
/-- A request with two blocks for one key, the first creating the peer with a preshared key and
the second setting its keepalive interval: the second block reads the key as it came, after the
first has wiped its own preshared key, and updates the peer the first created. -/
theorem setDeviceLocked_refines_two_blocks :
    let env := Env.reliable ⟨fun s _ => s, Key.zero⟩
    let peers := nlaEncode [
      (0, nlaEncode [(WGPEER_A_PUBLIC_KEY, List.replicate 32 1),
        (WGPEER_A_PRESHARED_KEY, List.replicate 32 7)]),
      (0, nlaEncode [(WGPEER_A_PUBLIC_KEY, List.replicate 32 1),
        (WGPEER_A_PERSISTENT_KEEPALIVE_INTERVAL, u16Bytes 25)])]
    let buf := nlaEncode [(WGDEVICE_A_PEERS, peers)]
    let a : Nlattr := ⟨WGDEVICE_A_PEERS, 4, peers.length⟩
    let attrs : AttrTable := fun t => if t = WGDEVICE_A_PEERS then some a else none
    let w := World.init (Device.create 1 [119] 0)
    ((setDeviceLocked env (Caller.admin 0) attrs buf w).1,
      (setDeviceLocked env (Caller.admin 0) attrs buf w).2.2.wg.lineup) =
      (0, [⟨⟨List.replicate 32 1, rfl⟩, ⟨List.replicate 32 7, rfl⟩, Endpoint.zero.addr, 25⟩]) := by
  intro env peers buf a attrs w
  have hips : ∀ x ∈ nlaNested buf a,
      (nlaParseNested buf WGPEER_A_MAX peerPolicy x).toOption.map (· WGPEER_A_ALLOWEDIPS) =
        some none := by decide
  rw [setDeviceLocked_refines env (Caller.admin 0) attrs buf w a (Roster.of_nil rfl) rfl (by decide)
    (by decide) (fun _ => rfl) fun x hx tb htb => by
      have h := hips x hx
      rw [htb] at h
      simp only [Except.toOption, Option.map_some', Option.some.injEq] at h
      simp [h]]
  decide

end WireGuardNetlink
