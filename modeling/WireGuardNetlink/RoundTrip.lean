import WireGuardNetlink.Restore
import WireGuardNetlink.Transport

/-!
# The restore request rebuilds the dumped configuration

`genlSetDevice_restore`: take a configuration that `set_device` requests reach from a new device
(`applyRequests`), with an identity, and a caller that may use its transit namespace and talks to
the device's namespace. The request a client builds from its dump (`restoreRequest`) is accepted
and gives back the same settings (`Device.settings`): identity, mark, port, and every peer in
order with its key, preshared key, endpoint address, keepalive interval and prefixes. It needs
that no allocation fails and that the peer nest fits the 16-bit length of an attribute; an
allocation failure makes the request fail after it has removed every peer
(`genlSetDevice_restore_oom`).

The proof follows the request. The device-level steps keep the mark and the port, move no socket,
remove every peer and install the same key, which gives back the same identity
(`setDeviceConfig_restore`). Each peer block then creates its peer, because the configuration
had distinct keys, none the device's own (`Roster`), each with a precomputation that succeeds, and
each prefix once (`Consistent`); the invariant `Restoring` carries this from block to block
(`setPeer_restoring`, `applyPeerBlocks_restoring`). The preshared key each block wipes lies in the
block, before the blocks still to come (`nlaForEachAttr_pairwise`).
-/

namespace WireGuardNetlink

/-- Storing one peer's endpoint leaves every other peer object alone. -/
lemma wgSocketSetPeerEndpoint_objs_ne (d : Device) {p q : PeerId} (e : Endpoint) (h : q ≠ p) :
    (wgSocketSetPeerEndpoint d p e).objs q = d.objs q := by
  unfold wgSocketSetPeerEndpoint; split_ifs <;> simp [Device.updPeer_objs_ne _ _ h]

/-- Storing a peer's endpoint changes only its endpoint. -/
lemma wgSocketSetPeerEndpoint_objs_self (d : Device) (p : PeerId) (e : Endpoint) :
    (wgSocketSetPeerEndpoint d p e).objs p =
      { d.objs p with endpoint := ((wgSocketSetPeerEndpoint d p e).objs p).endpoint } := by
  unfold wgSocketSetPeerEndpoint; split_ifs <;> simp

/-- The endpoint a request builds from the address a dump shows has the dumped family. -/
lemma family_ofBytes_addr (e : Endpoint) : (Endpoint.ofBytes e.addr).family = e.family := by
  have h := e.length_bytes
  unfold Endpoint.addr
  split_ifs <;> simp [Endpoint.ofBytes, Endpoint.family, List.take_take, h, SIZEOF_SOCKADDR_IN,
    List.take_append_of_le_length]

/-- Storing the address a dump shows of an IPv4 or IPv6 endpoint gives back that address,
whatever endpoint the peer had. -/
lemma addr_wgSocketSetPeerEndpoint (d : Device) (p : PeerId) {e : Endpoint}
    (h : e.family = AF_INET ∨ e.family = AF_INET6) :
    ((wgSocketSetPeerEndpoint d p (Endpoint.ofBytes e.addr)).objs p).endpoint.addr = e.addr := by
  have hl := e.length_bytes
  have hf := family_ofBytes_addr e
  rcases h with h | h
  · have h' : leValue (e.bytes.take 2) = AF_INET := h
    simp only [wgSocketSetPeerEndpoint, hf, h, if_true, Device.updPeer_objs_self]
    simp [Endpoint.addr, Endpoint.family, Endpoint.ofBytes, h', List.take_take, hl,
      SIZEOF_SOCKADDR_IN, List.take_append_of_le_length]
  · have h' : leValue (e.bytes.take 2) = AF_INET6 := h
    have hne : AF_INET6 ≠ AF_INET := by decide
    simp only [wgSocketSetPeerEndpoint, hf, h, hne, if_false, if_true, Device.updPeer_objs_self]
    simp [Endpoint.addr, Endpoint.family, Endpoint.ofBytes, h', hne, hl, List.take_append_of_le_length]

/-- Dropping one peer's prefixes keeps every other peer's. -/
lemma ownedBy_removeByPeer_ne (t : AllowedIps) {p q : PeerId} (h : q ≠ p) :
    (wgAllowedipsRemoveByPeer t p).ownedBy q = t.ownedBy q := by
  simp only [AllowedIps.ownedBy, wgAllowedipsRemoveByPeer, List.filter_filter]
  congr 1
  exact List.filter_congr fun e _ => by by_cases he : e.2 = q <;> simp [he, h]

@[simp] lemma ownedBy_removeByPeer_self (t : AllowedIps) (p : PeerId) :
    (wgAllowedipsRemoveByPeer t p).ownedBy p = [] := by
  simp [AllowedIps.ownedBy, wgAllowedipsRemoveByPeer, List.filter_filter]

/-- Entries appended for `p` add to the prefixes of `p` only. -/
lemma ownedBy_of_append {t t' : AllowedIps} {S : List AllowedIp} {p : PeerId}
    (h : t'.entries = t.entries ++ S.map (·, p)) (q : PeerId) :
    t'.ownedBy q = t.ownedBy q ++ if q = p then S else [] := by
  by_cases hq : q = p
  · subst hq; simp [AllowedIps.ownedBy, h, List.filter_map, Function.comp_def]
  · simp [AllowedIps.ownedBy, h, List.filter_map, Function.comp_def, Ne.symm hq, hq]

/-- The updates before the allowed IPs touch only the held peer's object. -/
lemma setPeerConfig_objs_ne (buf : Bytes) (tb : AttrTable) (flags : UInt32) (psk : Option Key)
    {p q : PeerId} (w : World) (h : q ≠ p) :
    (setPeerConfig buf tb flags psk p w).wg.objs q = w.wg.objs q := by
  simp only [setPeerConfig]
  split_ifs <;> repeat' split
  all_goals simp [Device.updPeer_objs_ne _ _ h, wgSocketSetPeerEndpoint_objs_ne _ _ h]

/-- The updates after the allowed IPs touch only the held peer's object. -/
lemma setPeerFinish_objs_ne (buf : Bytes) (tb : AttrTable) {p q : PeerId} (w : World)
    (h : q ≠ p) : (setPeerFinish buf tb p w).wg.objs q = w.wg.objs q := by
  simp only [setPeerFinish]
  repeat' split
  all_goals simp [Device.updPeer_objs_ne _ _ h]

@[simp] lemma setPeerFinish_peers (buf : Bytes) (tb : AttrTable) (p : PeerId) (w : World) :
    (setPeerFinish buf tb p w).wg.peers = w.wg.peers := by
  simp only [setPeerFinish]
  repeat' split
  all_goals rfl

@[simp] lemma setPeerFinish_allocs (buf : Bytes) (tb : AttrTable) (p : PeerId) (w : World) :
    (setPeerFinish buf tb p w).allocs = w.allocs := by
  simp only [setPeerFinish]
  repeat' split
  all_goals rfl

/-- The address of an endpoint starts with its family. -/
lemma Endpoint.take_two_addr (e : Endpoint) : e.addr.take 2 = e.bytes.take 2 := by
  unfold Endpoint.addr; split_ifs <;> simp [List.take_take, SIZEOF_SOCKADDR_IN]

/-- The updates before the allowed IPs, on a block restoring `o` to a peer with no endpoint:
the given preshared key and an endpoint with `o`'s address, the rest of the object as it was. -/
lemma setPeerConfig_restore {buf : Bytes} {tb : AttrTable} {o : Peer} {S : List AllowedIp}
    (hb : RestoreBlock buf tb o S) (k : Key) (q : PeerId) (w : World)
    (hz : (w.wg.objs q).endpoint = Endpoint.zero) :
    ∃ ep : Endpoint, (setPeerConfig buf tb WGPEER_F_REPLACE_ALLOWEDIPS (some k) q w).wg.objs q =
      { w.wg.objs q with presharedKey := k, endpoint := ep } ∧ ep.addr = o.endpoint.addr := by
  have hflag : WGPEER_F_REPLACE_ALLOWEDIPS &&& WGPEER_F_REPLACE_ALLOWEDIPS ≠ 0 := by decide
  have hset : ∀ x, tb WGPEER_A_ENDPOINT = some x → nlaData buf x = o.endpoint.addr →
      x.len = o.endpoint.addr.length → (o.endpoint.family = AF_INET ∨ o.endpoint.family = AF_INET6) →
      ∃ ep : Endpoint, (setPeerConfig buf tb WGPEER_F_REPLACE_ALLOWEDIPS (some k) q w).wg.objs q =
        { w.wg.objs q with presharedKey := k, endpoint := ep } ∧ ep.addr = o.endpoint.addr := by
    intro x hx hxd hxl hfam
    have hfam' : leValue ((nlaData buf x).take 2) = o.endpoint.family := by
      rw [hxd, Endpoint.take_two_addr]; rfl
    have hl := o.endpoint.length_bytes
    have hc : x.len = SIZEOF_SOCKADDR_IN ∧ leValue ((nlaData buf x).take 2) = AF_INET ∨
        x.len = SIZEOF_SOCKADDR_IN6 ∧ leValue ((nlaData buf x).take 2) = AF_INET6 := by
      rw [hfam', hxl]
      rcases hfam with h | h
      · exact .inl ⟨by simp [Endpoint.addr, h, hl, SIZEOF_SOCKADDR_IN], h⟩
      · have hne : AF_INET6 ≠ AF_INET := by decide
        exact .inr ⟨by simp [Endpoint.addr, h, hne, hl, SIZEOF_SOCKADDR_IN6], h⟩
    rw [hxd] at hc
    simp only [setPeerConfig, hx, hxd, if_pos hc, if_pos hflag]
    rw [wgSocketSetPeerEndpoint_objs_self, Device.updPeer_objs_self]
    exact ⟨_, rfl, addr_wgSocketSetPeerEndpoint _ q hfam⟩
  rcases hb.endpoint with ⟨h4, x, hx, hxd, hxl, -⟩ | ⟨h6, x, hx, hxd, hxl, -⟩ | ⟨hz', hnone⟩
  · have ha : o.endpoint.addr = o.endpoint.bytes.take SIZEOF_SOCKADDR_IN := if_pos h4
    exact hset x hx (hxd.trans ha.symm) (hxl.trans (congrArg _ ha.symm)) (.inl h4)
  · have ha : o.endpoint.addr = o.endpoint.bytes := if_neg (by rw [h6]; decide)
    exact hset x hx (hxd.trans ha.symm) (hxl.trans (congrArg _ ha.symm)) (.inr h6)
  · refine ⟨Endpoint.zero, ?_, by rw [hz']⟩
    simp only [setPeerConfig, hnone, if_pos hflag]
    rw [Device.updPeer_objs_self, ← hz]

/-- The updates after the allowed IPs set the held peer's keepalive interval. -/
lemma setPeerFinish_objs_self {buf : Bytes} {tb : AttrTable} {ka : Nlattr}
    (h : tb WGPEER_A_PERSISTENT_KEEPALIVE_INTERVAL = some ka) (p : PeerId) (w : World) :
    (setPeerFinish buf tb p w).wg.objs p = { w.wg.objs p with keepalive := nlaGetU16 buf ka } := by
  simp only [setPeerFinish, h]
  split_ifs <;> simp

@[simp] lemma Device.link_objs_self (d : Device) (o : Peer) : (d.link o).objs d.nextPeer = o := by
  simp [Device.link]

/-- Linking a new peer leaves the objects of the other allocations alone. -/
lemma Device.link_objs_ne (d : Device) (o : Peer) {q : PeerId} (h : q ≠ d.nextPeer) :
    (d.link o).objs q = d.objs q := by
  simp [Device.link, h]

@[simp] lemma Device.link_peers (d : Device) (o : Peer) : (d.link o).peers = d.peers ++ [d.nextPeer] :=
  rfl

@[simp] lemma Device.link_table (d : Device) (o : Peer) : (d.link o).table = d.table := rfl

section Hold

variable (env : Env)

/-- A key that is no member's and not the device's own, with room on the list, an allocation
that succeeds and a precomputation that succeeds, gives a new peer at the allocation mark, linked
at the tail with the key, the preshared key and no endpoint, and held. -/
lemma setPeerHold_of_new {pk : Key} {psk : Option Key} {flags : UInt32} {w : World}
    (hfresh : ∀ q ∈ w.wg.peers, (w.wg.objs q).remoteStatic ≠ pk)
    (hflags : flags &&& WGPEER_F_REMOVE_ME = 0)
    (hself : ¬(w.wg.identity.hasIdentity = true ∧ pk = w.wg.identity.staticPublic))
    (hroom : w.wg.peers.length < MAX_PEERS_PER_DEVICE) (hoom : env.oom w.allocs = false)
    (hpre : precomputeOk env w.wg.identity pk = true) :
    ∃ o : Peer, o.remoteStatic = pk ∧ o.presharedKey = psk.getD Key.zero ∧
      o.endpoint = Endpoint.zero ∧ setPeerHold env pk psk flags w = .ok (w.wg.nextPeer,
        { w with wg := wgPeerGet (w.wg.link o) (some w.wg.nextPeer), allocs := w.allocs + 1 }) := by
  have hfind : w.wg.peers.find? (fun q => (w.wg.objs q).remoteStatic = pk) = none :=
    List.find?_eq_none.2 fun q hq => by simpa using hfresh q hq
  have hpre' : (wgNoisePrecomputeStaticStatic env.curve w.wg.identity pk).2 = true := hpre
  simp only [setPeerHold, wgPubkeyHashtableLookup, hfind, wgPeerGet, hflags, ne_eq,
    not_true_eq_false, if_false, hself, wgPeerCreate, not_le.2 hroom, World.alloc, hoom, hpre']
  exact ⟨_, rfl, rfl, rfl, rfl⟩

/-- A restoring block passes the key-length and version checks of `set_peer` and reaches the
hold with its key, its preshared key and `WGPEER_F_REPLACE_ALLOWEDIPS`; holding `p`, it runs the
update on `p`. -/
lemma setPeerApply_restore {buf : Bytes} {tb : AttrTable} {o : Peer} {S : List AllowedIp}
    (hb : RestoreBlock buf tb o S) {w w' : World} {p : PeerId}
    (h : setPeerHold env o.remoteStatic (some o.presharedKey) WGPEER_F_REPLACE_ALLOWEDIPS w =
      .ok (p, w')) :
    setPeerApply env buf tb w =
      ((setPeerUpdate env buf tb WGPEER_F_REPLACE_ALLOWEDIPS (some o.presharedKey) p w').1, some p,
        (setPeerUpdate env buf tb WGPEER_F_REPLACE_ALLOWEDIPS (some o.presharedKey) p w').2) := by
  obtain ⟨pka, hpka, hpkd, hpkl, -⟩ := hb.key
  obtain ⟨ska, hska, hskd, hskl, -⟩ := hb.psk
  obtain ⟨fa, hfa, hfad, -⟩ := hb.flags
  have hpk : pka.len = NOISE_PUBLIC_KEY_LEN := hpkl.trans o.remoteStatic.length_bytes
  have hsk : ska.len = NOISE_SYMMETRIC_KEY_LEN := hskl.trans o.presharedKey.length_bytes
  simp only [setPeerApply, hpka, hpk, ne_eq, not_true_eq_false, if_false, hska, hsk, if_true, hfa,
    nlaGetU32, hfad, getU32_u32Bytes, hb.version, nlaKey_of_data hpkd, nlaKey_of_data hskd,
    Bool.false_eq_true, h]

/-- A restoring block for a key new to the device, with room, memory and a precomputation that
succeeds, and prefixes new to the table: `set_peer` succeeds, links one peer at the tail with
the block's settings, keeps the settings of every other peer and appends the prefixes. -/
lemma setPeer_of_new {buf : Bytes} {tb : AttrTable} {o : Peer} {S : List AllowedIp} {v : World}
    (hb : RestoreBlock buf tb o S)
    (hfresh : ∀ q ∈ v.wg.peers, (v.wg.objs q).remoteStatic ≠ o.remoteStatic)
    (hself : ¬(v.wg.identity.hasIdentity = true ∧ o.remoteStatic = v.wg.identity.staticPublic))
    (hroom : v.wg.peers.length < MAX_PEERS_PER_DEVICE)
    (hpre : precomputeOk env v.wg.identity o.remoteStatic = true)
    (halloc : ∀ n, v.allocs ≤ n → env.oom n = false)
    (hS : S.Nodup) (hnew : ∀ e ∈ v.wg.table.entries, e.1 ∉ S) :
    (setPeer env buf tb v).1 = 0 ∧
      (setPeer env buf tb v).2.2.wg.peers = v.wg.peers ++ [v.wg.nextPeer] ∧
      (∀ q ∈ v.wg.peers, (setPeer env buf tb v).2.2.wg.peerSettings q = v.wg.peerSettings q) ∧
      (setPeer env buf tb v).2.2.wg.peerSettings v.wg.nextPeer =
        ⟨o.remoteStatic, o.presharedKey, o.endpoint.addr, o.keepalive, S⟩ ∧
      (setPeer env buf tb v).2.2.wg.table.entries =
        v.wg.table.entries.filter (·.2 ≠ v.wg.nextPeer) ++ S.map (·, v.wg.nextPeer) ∧
      v.allocs ≤ (setPeer env buf tb v).2.2.allocs := by
  obtain ⟨o₀, hrs, hpsk, hep, hhold⟩ := @setPeerHold_of_new env o.remoteStatic (some o.presharedKey)
    WGPEER_F_REPLACE_ALLOWEDIPS v hfresh (by decide) hself hroom (halloc _ le_rfl) hpre
  obtain ⟨ipa, hipa, hips⟩ := hb.allowedips
  obtain ⟨ka, hka, hkad, -⟩ := hb.keepalive
  set q := v.wg.nextPeer
  set v₁ : World := { v with wg := wgPeerGet (v.wg.link o₀) (some q), allocs := v.allocs + 1 }
  set v₂ := setPeerConfig buf tb WGPEER_F_REPLACE_ALLOWEDIPS (some o.presharedKey) q v₁
  have ht₂ := setPeerConfig_table buf tb WGPEER_F_REPLACE_ALLOWEDIPS (some o.presharedKey) q v₁
  rw [if_pos (by decide)] at ht₂
  obtain ⟨t, hrun, ht⟩ := setAllowedips_of_fresh env q buf (nlaNested buf ipa) S v₂ hips hS
    (fun e he => by rw [ht₂.1] at he; exact hnew e (List.mem_of_mem_filter he))
    (fun n hn => halloc n (by rw [ht₂.2] at hn; exact Nat.le_of_succ_le hn))
  set v₄ := setPeerFinish buf tb q
    { v₂ with wg := { v₂.wg with table := t }, allocs := v₂.allocs + S.length }
  have hr : (setPeer env buf tb v).1 = 0 ∧
      (setPeer env buf tb v).2.2 = { v₄ with wg := wgPeerPut v₄.wg (some q) } := by
    simp only [setPeer, setPeerApply_restore env hb hhold,
      setPeerUpdate_of_keep env buf tb _ q v₁ (show WGPEER_F_REPLACE_ALLOWEDIPS &&& WGPEER_F_REMOVE_ME = 0 by decide),
      hipa, Option.elim, hrun, lt_irrefl, if_false, and_self]
  rw [hr.2]
  have hqv : q ∉ v.wg.peers := fun h => Nat.lt_irrefl _ (v.wg.lt_nextPeer _ h)
  obtain ⟨ep, hcfg, hepa⟩ := setPeerConfig_restore hb o.presharedKey q v₁ (by simp [v₁, q, hep])
  refine ⟨hr.1, by simp [v₄, v₂, v₁], fun q' hq' => ?_, ?_, ?_, ?_⟩
  · have hne : q' ≠ q := fun h => hqv (h ▸ hq')
    simp only [Device.peerSettings, wgPeerPut_objs, wgPeerPut_table, v₄, setPeerFinish_objs_ne _ _ _ hne,
      setPeerFinish_table, ownedBy_of_append ht, if_neg hne, List.append_nil, ht₂.1,
      ownedBy_removeByPeer_ne _ hne, v₂, setPeerConfig_objs_ne _ _ _ _ _ hne, v₁, wgPeerGet_objs,
      Device.link_objs_ne _ _ hne, wgPeerGet_table, Device.link_table]
  · simp only [Device.peerSettings, wgPeerPut_objs, wgPeerPut_table, v₄, setPeerFinish_objs_self hka,
      setPeerFinish_table, ownedBy_of_append ht, if_pos rfl, v₂, ht₂.1, ownedBy_removeByPeer_self,
      List.nil_append, hcfg, hepa, nlaGetU16, hkad, getU16_u16Bytes]
    simp [v₁, q, hrs]
  · simp [v₄, ht, v₂, ht₂.1, v₁, wgAllowedipsRemoveByPeer]
  · simp [v₄, v₂, ht₂.2, v₁]; omega

end Hold

/-- The walk finds attributes in increasing order, each after the one before. -/
lemma nlaForEachAttr_pairwise {buf : Bytes} :
    ∀ {fuel pos rem : Nat}, (nlaForEachAttr buf fuel pos rem).Pairwise (fun a b => a.off + a.len ≤ b.off)
  | 0, _, _ => List.Pairwise.nil
  | fuel + 1, pos, rem => by
    simp only [nlaForEachAttr]
    split
    · exact List.Pairwise.nil
    · rename_i a ha
      have hoff := (nlaAt_eq_some ha).1
      have hT : NLA_HDRLEN + a.len ≤ nlaTotalSize a.len := by simp only [nlaTotalSize, nlaAlign]; omega
      exact List.Pairwise.cons (fun b hb => by have := (mem_nlaForEachAttr hb).1; omega)
        nlaForEachAttr_pairwise

/-- Wiping an attribute leaves the payload of one after it. -/
lemma nlaData_nlaWipe_of_le (buf : Bytes) {y x : Nlattr} (h : y.off + y.len ≤ x.off) :
    nlaData (nlaWipe buf y) x = nlaData buf x := by
  simp only [nlaData, nlaWipe, drop_memzeroExplicit _ h]

/-- A peer owns a prefix when the table holds the pair. -/
lemma mem_ownedBy (t : AllowedIps) (k : AllowedIp) (p : PeerId) :
    k ∈ t.ownedBy p ↔ (k, p) ∈ t.entries := by
  simp only [AllowedIps.ownedBy, List.mem_map, List.mem_filter, decide_eq_true_eq]
  constructor
  · rintro ⟨⟨k', p'⟩, ⟨h, rfl⟩, rfl⟩; exact h
  · intro h; exact ⟨_, ⟨h, rfl⟩, rfl⟩

/-- A peer owns each of its prefixes once. -/
lemma TableOk.nodup_ownedBy {d : Device} (h : TableOk d) (p : PeerId) : (d.table.ownedBy p).Nodup :=
  ((List.filter_sublist _).map _).nodup h.nodup

/-- A restore request part way through its peer blocks, rebuilding `d`: the peers of `done`
are back in order with their settings, every prefix of the table belongs to a peer on the list,
the identity is `d`'s, and no allocation fails from here on. -/
structure Restoring (env : Env) (d : Device) (done : List PeerId) (v : World) : Prop where
  peers : v.wg.peers.map v.wg.peerSettings = done.map d.peerSettings
  owner : ∀ e ∈ v.wg.table.entries, e.2 ∈ v.wg.peers
  identity : v.wg.identity = d.identity
  alloc : ∀ n, v.allocs ≤ n → env.oom n = false

namespace Restoring

variable {env : Env} {d : Device} {done : List PeerId} {v : World}

/-- A peer rebuilt so far carries the settings of a peer of `done`. -/
lemma settings_mem (h : Restoring env d done v) {q : PeerId} (hq : q ∈ v.wg.peers) :
    ∃ q' ∈ done, d.peerSettings q' = v.wg.peerSettings q := by
  have : v.wg.peerSettings q ∈ done.map d.peerSettings := h.peers ▸ List.mem_map_of_mem _ hq
  simpa using this

/-- The key of a peer of `d` not yet rebuilt is no rebuilt peer's key. -/
lemma key_fresh (h : Restoring env d done v) (hr : Roster d) (hdone : ∀ q ∈ done, q ∈ d.peers)
    {p : PeerId} (hp : p ∈ d.peers) (hpd : p ∉ done) :
    ∀ q ∈ v.wg.peers, (v.wg.objs q).remoteStatic ≠ (d.objs p).remoteStatic := by
  intro q hq hk
  obtain ⟨q', hq', hs⟩ := h.settings_mem hq
  have hk' : (d.objs q').remoteStatic = (d.objs p).remoteStatic := by
    rw [← hk]; exact congrArg PeerSettings.remoteStatic hs
  exact hpd (List.inj_on_of_nodup_map hr.nodup_keys (hdone q' hq') hp hk' ▸ hq')

/-- The prefixes of a peer of `d` not yet rebuilt are new to the table. -/
lemma prefix_fresh (h : Restoring env d done v) (ht : TableOk d) {p : PeerId} (hpd : p ∉ done) :
    ∀ e ∈ v.wg.table.entries, e.1 ∉ d.table.ownedBy p := by
  intro e he hp
  obtain ⟨q, hq, hs⟩ := h.settings_mem (h.owner e he)
  have hmem : e.1 ∈ d.table.ownedBy q := by
    rw [show d.table.ownedBy q = (d.peerSettings q).allowedips from rfl, hs]
    exact (mem_ownedBy _ _ _).2 he
  exact hpd (ht.owner_unique ((mem_ownedBy _ _ _).1 hmem) ((mem_ownedBy _ _ _).1 hp) ▸ hq)

end Restoring

section Blocks

variable (env : Env) {d : Device}

/-- One peer block of a restore request: the block restoring the next peer `p` of `d`
succeeds and rebuilds `p`. -/
lemma setPeer_restoring (hd : Consistent env d) (hr : Roster d) {done : List PeerId} {v : World}
    (hv : Restoring env d done v) {p : PeerId} (hpre : done ++ [p] <+: d.peers) {buf : Bytes}
    {tb : AttrTable} (hb : RestoreBlock buf tb (d.objs p) (d.table.ownedBy p)) :
    (setPeer env buf tb v).1 = 0 ∧ Restoring env d (done ++ [p]) (setPeer env buf tb v).2.2 := by
  have hnd : (done ++ [p]).Nodup := hpre.sublist.nodup d.nodup_peers
  have hpd : p ∉ done := fun h => List.disjoint_of_nodup_append hnd h (List.mem_singleton_self p)
  have hp : p ∈ d.peers := hpre.subset (List.mem_append_right _ (List.mem_singleton_self p))
  have hlen : v.wg.peers.length < MAX_PEERS_PER_DEVICE := by
    have h1 := congrArg List.length hv.peers
    have h2 := hpre.length_le
    simp only [List.length_map, List.length_append, List.length_singleton] at h1 h2
    have := hd.length_le; omega
  obtain ⟨h0, hpeers, hold, hnew, hent, halloc⟩ := setPeer_of_new env hb
    (hv.key_fresh hr (fun q hq => hpre.subset (List.mem_append_left _ hq)) hp hpd)
    (by rw [hv.identity]; exact fun h => hr.not_self h.1 (h.2 ▸ List.mem_map_of_mem _ hp)) hlen
    (by rw [hv.identity]; exact hd.precompute p hp) hv.alloc (hd.table.nodup_ownedBy p)
    (hv.prefix_fresh hd.table hpd)
  refine ⟨h0, ⟨?_, fun e he => ?_, ?_, fun n hn => hv.alloc n (halloc.trans hn)⟩⟩
  · rw [hpeers, List.map_append, List.map_congr_left hold, hv.peers, List.map_singleton, hnew,
      List.map_append, List.map_singleton]
    rfl
  · rw [hent] at he
    rw [hpeers]
    rcases List.mem_append.1 he with he | he
    · exact List.mem_append_left _ (hv.owner e (List.mem_of_mem_filter he))
    · obtain ⟨k, -, rfl⟩ := List.mem_map.1 he
      exact List.mem_append_right _ (List.mem_singleton_self _)
  · rw [Device.identity_eq_head, setPeer_head]; exact hv.identity

/-- The peer loop of a restore request: blocks restoring the rest of the peers of `d`, in order,
within the buffer and each after the one before, all succeed and rebuild every peer. -/
lemma applyPeerBlocks_restoring (hd : Consistent env d) (hr : Roster d) :
    ∀ (l : List Nlattr) (rest done : List PeerId) (buf : Bytes) (v : World),
      Restoring env d done v → done ++ rest = d.peers →
      l.map (nlaData buf) = rest.map (fun p => nlaEncode (restorePeerAttrs (peerView d p))) →
      (∀ x ∈ l, x.off + x.len ≤ buf.length ∧ NLA_HDRLEN + x.len < 65536) →
      l.Pairwise (fun a b => a.off + a.len ≤ b.off) →
      (applyPeerBlocks env l buf v).1 = 0 ∧ Restoring env d d.peers (applyPeerBlocks env l buf v).2.2
  | [], [], done, _, v, hv, hp, _, _, _ => ⟨rfl, by rw [List.append_nil] at hp; rw [← hp]; exact hv⟩
  | a :: l, p :: rest, done, buf, v, hv, hp, hdata, hb, hsort => by
    simp only [List.map_cons, List.cons.injEq] at hdata
    have hpD : p ∈ d.peers := hp ▸ List.mem_append_right _ (List.mem_cons_self _ _)
    obtain ⟨ha, hfit⟩ := hb a (List.mem_cons_self _ _)
    obtain ⟨tb, htb, hblock⟩ := parse_restorePeer (hd.endpoint p hpD)
      (fun ip hip => hd.table.valid _ ((mem_ownedBy _ _ _).1 hip)) hdata.1 ha hfit
    obtain ⟨h0, hv'⟩ := setPeer_restoring env hd hr hv ⟨rest, by rw [List.append_assoc]; exact hp⟩
      hblock
    have hbuf : ∀ x ∈ l, nlaData (setPeer env buf tb v).2.1 x = nlaData buf x := fun x hx => by
      rw [setPeer_buf]
      split
      · rename_i y hy
        have := nlaParseNested_bounds htb hy
        exact nlaData_nlaWipe_of_le _ (by have := List.rel_of_pairwise_cons hsort hx; omega)
      · rfl
    have hlen : (setPeer env buf tb v).2.1.length = buf.length := by
      rw [setPeer_buf]; split <;> simp [nlaWipe]
    have := applyPeerBlocks_restoring hd hr l rest (done ++ [p]) (setPeer env buf tb v).2.1
      (setPeer env buf tb v).2.2 hv' (by simpa using hp)
      (by rw [← hdata.2]; exact List.map_congr_left hbuf)
      (fun x hx => by rw [hlen]; exact hb x (List.mem_cons_of_mem _ hx)) (List.pairwise_cons.1 hsort).2
    have hstep : setDevicePeer env a buf v = setPeer env buf tb v := by simp [setDevicePeer, htb]
    simp only [applyPeerBlocks, hstep, h0, lt_irrefl, if_false]
    exact this
  | [], _ :: _, _, _, _, _, _, hdata, _, _ | _ :: _, [], _, _, _, _, _, hdata, _, _ => by
    simp at hdata

end Blocks

/-- Removing the peers of `l` one by one leaves the others. -/
lemma foldl_wgPeerRemove_peers : ∀ (l : List PeerId) (d : Device),
    (l.foldl wgPeerRemove d).peers = d.peers.filter (· ∉ l)
  | [], d => by simp
  | p :: l, d => by
    rw [List.foldl_cons, foldl_wgPeerRemove_peers l, wgPeerRemove_peers,
      d.nodup_peers.erase_eq_filter, List.filter_filter]
    congr 1
    funext q
    by_cases h : q = p <;> simp [h]

/-- `WGDEVICE_F_REPLACE_PEERS` leaves no peer. -/
@[simp] lemma wgPeerRemoveAll_peers (d : Device) : (wgPeerRemoveAll d).peers = [] := by
  rw [wgPeerRemoveAll, foldl_wgPeerRemove_peers]
  exact List.filter_eq_nil_iff.2 fun q hq => by simpa using hq

/-- Removing every peer keeps the identity, the mark and the port. -/
@[simp] lemma wgPeerRemoveAll_identity (d : Device) : (wgPeerRemoveAll d).identity = d.identity :=
  congrArg DeviceHead.identity (wgPeerRemoveAll_head_keys d).1

@[simp] lemma wgPeerRemoveAll_fwmark (d : Device) : (wgPeerRemoveAll d).fwmark = d.fwmark :=
  congrArg DeviceHead.fwmark (wgPeerRemoveAll_head_keys d).1

@[simp] lemma wgPeerRemoveAll_incomingPort (d : Device) :
    (wgPeerRemoveAll d).incomingPort = d.incomingPort :=
  congrArg DeviceHead.incomingPort (wgPeerRemoveAll_head_keys d).1

section Config

variable (env : Env)

/-- The key change on a device with no peers sets the identity and the cookie keys only. -/
lemma setPrivateKey_of_nil (k : Key) (w : World) (h : w.wg.peers = []) :
    setPrivateKey env k w = { w with wg := wgCookieCheckerPrecomputeDeviceKeys ({ w.wg with
      identity := wgNoiseSetStaticIdentityPrivateKey env.curve w.wg.identity k }) } := by
  have hr : removeCollidingPeer env k w = w := by
    simp only [removeCollidingPeer, wgPubkeyHashtableLookup, h, List.find?_nil]
    split_ifs <;> rfl
  simp only [setPrivateKey, hr, precomputeAll_eq, h, List.foldl_nil]

/-- The device-level steps of a restore request: the mark and the port as they are, no socket
change, every peer removed and the private key installed again. -/
lemma setDeviceConfig_restore (c : Caller) {attrs : AttrTable} {buf : Bytes} {w : World}
    (hfw : attrs.Holds buf WGDEVICE_A_FWMARK (u32Bytes w.wg.fwmark))
    (hport : attrs.Holds buf WGDEVICE_A_LISTEN_PORT (u16Bytes w.wg.incomingPort))
    (hflags : attrs.Holds buf WGDEVICE_A_FLAGS (u32Bytes WGDEVICE_F_REPLACE_PEERS))
    (hkey : attrs.Holds buf WGDEVICE_A_PRIVATE_KEY w.wg.identity.staticPrivate.bytes)
    (hpid : attrs WGDEVICE_A_TRANSIT_NETNS_PID = none)
    (hfd : attrs WGDEVICE_A_TRANSIT_NETNS_FD = none)
    (hcap : testSocketNetCapable c w.wg.transitNet = 0) :
    (setDeviceConfig env c attrs buf w).1 = 0 ∧ (setDeviceConfig env c attrs buf w).2.wg.peers = [] ∧
      (setDeviceConfig env c attrs buf w).2.wg.identity =
        wgNoiseSetStaticIdentityPrivateKey env.curve w.wg.identity w.wg.identity.staticPrivate ∧
      (setDeviceConfig env c attrs buf w).2.wg.fwmark = w.wg.fwmark ∧
      (setDeviceConfig env c attrs buf w).2.wg.incomingPort = w.wg.incomingPort ∧
      (setDeviceConfig env c attrs buf w).2.allocs = w.allocs := by
  obtain ⟨fa, hfa, hfad, -⟩ := hfw
  obtain ⟨pa, hpa, hpad, -⟩ := hport
  obtain ⟨la, hla, hlad, -⟩ := hflags
  obtain ⟨ka, hka, hkad, hkal, -⟩ := hkey
  have hA : ∀ wA, setFwmark attrs buf { w with wg := { w.wg with updateGen := w.wg.updateGen + 1 } } =
      wA → wA.wg = { w.wg with updateGen := w.wg.updateGen + 1 } ∧ wA.allocs = w.allocs := by
    rintro _ rfl
    simp [setFwmark, hfa, clearPeerEndpointSrcs_eq, nlaGetU32, hfad]
  have hk32 : ka.len = NOISE_PUBLIC_KEY_LEN := hkal.trans (Key.length_bytes _)
  have hrep : (nlaGetU32 buf la &&& WGDEVICE_F_REPLACE_PEERS != 0) = true := by
    rw [nlaGetU32, hlad, getU32_u32Bytes]; decide
  simp only [setDeviceConfig]
  generalize hwA : setFwmark attrs buf { w with wg := { w.wg with updateGen := w.wg.updateGen + 1 } } = wA
  obtain ⟨hAw, hAa⟩ := hA wA hwA
  have hsock : setSocket env c attrs buf wA = (0, wA) := by
    rw [@setSocket_of_same_pair env c attrs buf wA wA none (by rw [hpid, hfd]; rfl)
      (fun a ha => by rw [hpa] at ha; cases ha; rw [nlaGetU16, hpad, getU16_u16Bytes, hAw]) (.inl rfl),
      hAw]
    exact congrArg (·, wA) hcap
  simp only [hsock, ne_eq, not_true_eq_false, if_false, replacePeers, hla, hrep, if_true,
    setPrivateKeyAttr, hka, hk32, nlaKey_of_data hkad]
  rw [setPrivateKey_of_nil env _ _ (wgPeerRemoveAll_peers _)]
  simp [wgCookieCheckerPrecomputeDeviceKeys, hAw, hAa]

/-- A restore request names the device by its index, from the device's namespace. -/
lemma setDeviceLookup_restore {c : Caller} {attrs : AttrTable} {buf : Bytes} {w : World}
    (hidx : attrs.Holds buf WGDEVICE_A_IFINDEX (u32Bytes (UInt32.ofNat w.wg.ifindex)))
    (hname : attrs WGDEVICE_A_IFNAME = none) (hpid : attrs WGDEVICE_A_DEV_NETNS_PID = none)
    (hfd : attrs WGDEVICE_A_DEV_NETNS_FD = none) (hnet : c.sockNet = w.wg.devNet)
    (hnl : c.netlinkCapable c.sockNet = true) (hlt : w.wg.ifindex < 2 ^ 32) :
    setDeviceLookup c attrs buf w =
      .ok (none, { w with wg := { w.wg with refcnt := w.wg.refcnt + 1 } }) := by
  obtain ⟨ia, hia, hiad, -⟩ := hidx
  have hi : (nlaGetU32 buf ia).toNat = w.wg.ifindex := by
    rw [nlaGetU32, hiad, getU32_u32Bytes]; exact UInt32.toNat_ofNat_of_lt hlt
  have hnl' : c.netlinkCapable w.wg.devNet = true := hnet ▸ hnl
  simp [setDeviceLookup, getAttrNet, hpid, hfd, hnl', lookupInterface, hia, hname, hi, findDev, hnet]

/-- The parse of a restore request finds the flag, the port, the mark, the index, the private
key and the peer nest where the client put them, and nothing else. -/
lemma parse_restoreRequest (c : Caller) (d : Device) (hcap : testSocketNetCapable c d.transitNet = 0)
    (hid : d.identity.hasIdentity = true)
    (hfit : NLA_HDRLEN + (restorePeers (dumpView d)).length < 65536) :
    ∃ tb, nlaParse (restoreRequest (deviceAttrs c d) (dumpView d)) WGDEVICE_A_MAX devicePolicy 0
        (restoreRequest (deviceAttrs c d) (dumpView d)).length = .ok tb ∧
      tb.Holds (restoreRequest (deviceAttrs c d) (dumpView d)) WGDEVICE_A_FLAGS
        (u32Bytes WGDEVICE_F_REPLACE_PEERS) ∧
      tb.Holds (restoreRequest (deviceAttrs c d) (dumpView d)) WGDEVICE_A_LISTEN_PORT
        (u16Bytes d.incomingPort) ∧
      tb.Holds (restoreRequest (deviceAttrs c d) (dumpView d)) WGDEVICE_A_FWMARK (u32Bytes d.fwmark) ∧
      tb.Holds (restoreRequest (deviceAttrs c d) (dumpView d)) WGDEVICE_A_IFINDEX
        (u32Bytes (UInt32.ofNat d.ifindex)) ∧
      tb.Holds (restoreRequest (deviceAttrs c d) (dumpView d)) WGDEVICE_A_PRIVATE_KEY
        d.identity.staticPrivate.bytes ∧
      tb.Holds (restoreRequest (deviceAttrs c d) (dumpView d)) WGDEVICE_A_PEERS
        (restorePeers (dumpView d)) ∧
      ∀ t ∈ [WGDEVICE_A_IFNAME, WGDEVICE_A_DEV_NETNS_PID, WGDEVICE_A_DEV_NETNS_FD,
        WGDEVICE_A_TRANSIT_NETNS_PID, WGDEVICE_A_TRANSIT_NETNS_FD], tb t = none := by
  have henc : restoreRequest (deviceAttrs c d) (dumpView d) =
      nlaEncode [(WGDEVICE_A_FLAGS, u32Bytes WGDEVICE_F_REPLACE_PEERS),
        (WGDEVICE_A_LISTEN_PORT, u16Bytes d.incomingPort), (WGDEVICE_A_FWMARK, u32Bytes d.fwmark),
        (WGDEVICE_A_IFINDEX, u32Bytes (UInt32.ofNat d.ifindex)),
        (WGDEVICE_A_PRIVATE_KEY, d.identity.staticPrivate.bytes),
        (WGDEVICE_A_PEERS, restorePeers (dumpView d))] := by
    rw [restoreRequest, copyLeaves_deviceAttrs c d hcap hid]; rfl
  obtain ⟨tb, hp, hh, hnone⟩ := @nlaParse_encoded (restoreRequest (deviceAttrs c d) (dumpView d)) 0
    (restoreRequest (deviceAttrs c d) (dumpView d)).length _ WGDEVICE_A_MAX devicePolicy (by decide)
    (by rw [List.drop_zero, List.take_length, henc]) (by omega)
    (fun x hx => by
      simp only [List.mem_cons, List.mem_singleton, List.not_mem_nil, or_false] at hx
      rcases hx with rfl | rfl | rfl | rfl | rfl | rfl
      all_goals simp only [length_u32Bytes, length_u16Bytes, Key.length_bytes]
      all_goals first | decide | exact hfit)
    (by simp only [List.map_cons, List.map_nil]; decide)
    (by
      intro x hx
      simp only [List.mem_cons, List.mem_singleton, List.not_mem_nil, or_false] at hx
      rcases hx with rfl | rfl | rfl | rfl | rfl | rfl
      all_goals dsimp only
      all_goals refine ⟨by decide, by decide, ?_⟩
      iterate 5
        refine validateNla_nonneg_of_len (by decide) ?_
        simp only [Key.length_bytes, length_u32Bytes, length_u16Bytes]
        decide
      exact validateNla_nonneg_of_nested (by decide) (length_nlaEncode _))
  refine ⟨tb, hp, hh _ (.head _), hh _ (.tail _ (.head _)), hh _ (.tail _ (.tail _ (.head _))),
    hh _ (.tail _ (.tail _ (.tail _ (.head _)))), hh _ (.tail _ (.tail _ (.tail _ (.tail _ (.head _))))),
    hh _ (.tail _ (.tail _ (.tail _ (.tail _ (.tail _ (.head _)))))), fun t ht => hnone t ?_⟩
  simp only [List.mem_cons, List.mem_singleton, List.not_mem_nil, or_false] at ht
  rcases ht with rfl | rfl | rfl | rfl | rfl <;> simp only [List.map_cons, List.map_nil] <;> decide

end Config

/-- The settings do not read the device's reference count. -/
@[simp] lemma Device.settings_withRefcnt (d : Device) (n : Nat) :
    ({ d with refcnt := n } : Device).settings = d.settings := rfl

/-- The read-back round trip. Take a configuration that `set_device` requests reach from a new
device, with an identity; a caller that may use its transit namespace, talks from the device's
namespace and may administer it; a device index that fits `u32`; a kernel in which no allocation
fails from here on; and a dump whose peer nest fits the 16-bit attribute length. Then the
request built from the dump's device attributes and peers (`dumpView`, what a complete dump
reassembles to) returns `0` and leaves the settings the dump was read from. -/
theorem genlSetDevice_restore (env : Env) (ifindex : Nat) (name : Bytes) (net : NetId)
    (reqs : List (Caller × Bytes)) (c : Caller) (w : World)
    (hw : w = applyRequests env (World.init (Device.create ifindex name net)) reqs)
    (hid : w.wg.identity.hasIdentity = true) (hcap : testSocketNetCapable c w.wg.transitNet = 0)
    (hsock : c.sockNet = w.wg.devNet) (hnl : c.netlinkCapable c.sockNet = true)
    (hidx : w.wg.ifindex < 2 ^ 32) (hoom : ∀ n, w.allocs ≤ n → env.oom n = false)
    (hfit : NLA_HDRLEN + (restorePeers (dumpView w.wg)).length < 65536) :
    (genlSetDevice env c (restoreRequest (deviceAttrs c w.wg) (dumpView w.wg)) w).1 = 0 ∧
      (genlSetDevice env c (restoreRequest (deviceAttrs c w.wg) (dumpView w.wg)) w).2.2.wg.settings =
        w.wg.settings := by
  obtain ⟨hcons, hros⟩ : Consistent env w.wg ∧ Roster w.wg := by
    rw [hw]; exact applyRequests_consistent env ifindex name net reqs
  obtain ⟨tb, hp, hflags, hport, hfw, hidxa, hkey, ⟨pa, hpa, hpad, hpal, hpab⟩, hnone⟩ :=
    parse_restoreRequest c w.wg hcap hid hfit
  set buf := restoreRequest (deviceAttrs c w.wg) (dumpView w.wg)
  have hlookup := setDeviceLookup_restore hidxa (hnone _ (.head _)) (hnone _ (.tail _ (.head _)))
    (hnone _ (.tail _ (.tail _ (.head _)))) hsock hnl hidx
  set w₁ : World := { w with wg := { w.wg with refcnt := w.wg.refcnt + 1 } }
  obtain ⟨h0, hpeers₀, hid₀, hfw₀, hport₀, halloc₀⟩ := @setDeviceConfig_restore env c tb buf w₁ hfw
    hport hflags hkey (hnone _ (.tail _ (.tail _ (.tail _ (.head _)))))
    (hnone _ (.tail _ (.tail _ (.tail _ (.tail _ (.head _)))))) hcap
  set wc := (setDeviceConfig env c tb buf w₁).2
  have hc : Consistent env wc.wg := setDeviceConfig_consistent env c tb buf w₁ (hcons.congr rfl rfl rfl rfl)
  have hR : Restoring env w.wg [] wc :=
    ⟨by rw [hpeers₀]; rfl, hc.table.owner, hid₀.trans (hcons.identity hid),
      fun n hn => hoom n (by rw [halloc₀] at hn; exact hn)⟩
  have hsmall : NLA_HDRLEN + pa.len < 65536 := by rw [hpal]; exact hfit
  have hdata : (nlaNested buf pa).map (nlaData buf) =
      w.wg.peers.map fun p => nlaEncode (restorePeerAttrs (peerView w.wg p)) := by
    rw [map_nlaData_nested hpad hpab hsmall, dumpView, List.map_map]; rfl
  obtain ⟨hr0, hRf⟩ := applyPeerBlocks_restoring env hcons hros (nlaNested buf pa) w.wg.peers [] buf wc
    hR rfl hdata (fun x hx => by have := mem_nlaForEachAttr hx; omega) nlaForEachAttr_pairwise
  have hlocked := setDeviceLocked_eq env c tb buf w₁ pa hpa h0
  have hhead := applyPeerBlocks_head env (nlaNested buf pa) buf wc
  refine ⟨by simp [genlSetDevice, hp, setDevice, hlookup, hlocked, hr0], ?_⟩
  simp only [genlSetDevice, hp, setDevice_of_ok hlookup, hlocked, World.putNet_wg,
    Device.settings_withRefcnt]
  simp only [Device.settings, hRf.identity, hRf.peers]
  congr 1
  · exact (congrArg DeviceHead.fwmark hhead).trans hfw₀
  · exact (congrArg DeviceHead.incomingPort hhead).trans hport₀

/-- A request that gives a new device a private key and one peer with an IPv4 endpoint, a
keepalive interval and one allowed prefix. -/
def onePeerRequest : Bytes :=
  nlaEncode [(WGDEVICE_A_IFINDEX, u32Bytes 1), (WGDEVICE_A_PRIVATE_KEY, List.replicate 32 1),
    (WGDEVICE_A_PEERS, nlaEncode [(0, nlaEncode [(WGPEER_A_PUBLIC_KEY, List.replicate 32 2),
      (WGPEER_A_ENDPOINT, [2, 0, 31, 144, 192, 168, 0, 1, 0, 0, 0, 0, 0, 0, 0, 0]),
      (WGPEER_A_PERSISTENT_KEEPALIVE_INTERVAL, u16Bytes 25),
      (WGPEER_A_ALLOWEDIPS, nlaEncode [(0, nlaEncode [(WGALLOWEDIP_A_FAMILY, u16Bytes 2),
        (WGALLOWEDIP_A_IPADDR, [10, 0, 0, 0]), (WGALLOWEDIP_A_CIDR_MASK, u8Bytes 8)])])])])]

set_option maxRecDepth 20000 in
/-- The device `onePeerRequest` sets up, read back and sent again by an administrator,
satisfies the hypotheses and is restored. -/
theorem genlSetDevice_restore_one_peer :
    (fun w : World => w.wg.identity.hasIdentity = true ∧
      testSocketNetCapable (Caller.admin 0) w.wg.transitNet = 0 ∧
      (Caller.admin 0).sockNet = w.wg.devNet ∧ w.wg.ifindex < 2 ^ 32 ∧
      NLA_HDRLEN + (restorePeers (dumpView w.wg)).length < 65536 ∧
      (genlSetDevice (Env.reliable ⟨fun s _ => s, Key.zero⟩) (Caller.admin 0)
        (restoreRequest (deviceAttrs (Caller.admin 0) w.wg) (dumpView w.wg)) w).1 = 0 ∧
      (genlSetDevice (Env.reliable ⟨fun s _ => s, Key.zero⟩) (Caller.admin 0)
        (restoreRequest (deviceAttrs (Caller.admin 0) w.wg) (dumpView w.wg)) w).2.2.wg.settings =
        w.wg.settings)
      (applyRequests (Env.reliable ⟨fun s _ => s, Key.zero⟩) (World.init (Device.create 1 [119] 0))
        [(Caller.admin 0, onePeerRequest)]) :=
  have h : (fun w : World => w.wg.identity.hasIdentity = true ∧
      testSocketNetCapable (Caller.admin 0) w.wg.transitNet = 0 ∧
      (Caller.admin 0).sockNet = w.wg.devNet ∧ w.wg.ifindex < 2 ^ 32 ∧
      NLA_HDRLEN + (restorePeers (dumpView w.wg)).length < 65536)
      (applyRequests (Env.reliable ⟨fun s _ => s, Key.zero⟩) (World.init (Device.create 1 [119] 0))
        [(Caller.admin 0, onePeerRequest)]) := by decide
  ⟨h.1, h.2.1, h.2.2.1, h.2.2.2.1, h.2.2.2.2, genlSetDevice_restore _ 1 [119] 0 _ (Caller.admin 0) _
    rfl h.1 h.2.1 h.2.2.1 rfl h.2.2.2.1 (fun _ _ => rfl) h.2.2.2.2⟩

set_option maxRecDepth 20000 in
/-- In a kernel whose third allocation fails, the device `onePeerRequest` sets up (two
allocations: the peer and its prefix) has an identity and a capable caller, yet its restore
request fails with `-ENOMEM` when it creates the peer again, after it has removed every peer. -/
theorem genlSetDevice_restore_oom :
    (fun w : World => w.wg.identity.hasIdentity = true ∧ w.wg.peers.length = 1 ∧
      testSocketNetCapable (Caller.admin 0) w.wg.transitNet = 0 ∧
      (genlSetDevice { Env.reliable ⟨fun s _ => s, Key.zero⟩ with oom := fun n => decide (2 ≤ n) }
        (Caller.admin 0) (restoreRequest (deviceAttrs (Caller.admin 0) w.wg) (dumpView w.wg)) w).1 =
        -ENOMEM ∧
      (genlSetDevice { Env.reliable ⟨fun s _ => s, Key.zero⟩ with oom := fun n => decide (2 ≤ n) }
        (Caller.admin 0) (restoreRequest (deviceAttrs (Caller.admin 0) w.wg) (dumpView w.wg))
          w).2.2.wg.peers = [])
      (applyRequests { Env.reliable ⟨fun s _ => s, Key.zero⟩ with oom := fun n => decide (2 ≤ n) }
        (World.init (Device.create 1 [119] 0)) [(Caller.admin 0, onePeerRequest)]) := by
  decide

end WireGuardNetlink
