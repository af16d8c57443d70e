import WireGuardNetlink.PeerEvolution
import WireGuardNetlink.PrefixEdit
import WireGuardNetlink.Roster

/-!
# What every configuration keeps

The invariants a configuration reached by requests keeps beside the roster (`Consistent`), on
which reading a device back relies:

* the identity is one that installing its own private key again reproduces: the key is stored
  clamped, clamping twice is clamping once, and a clamped key is never zero
  (`identityStable_set`);
* every peer's static-static precomputation with the identity succeeds: a peer is created only
  when it does, and the key change removes the peers for which it fails;
* there are at most `MAX_PEERS_PER_DEVICE` peers;
* the allowed-IP table holds each prefix once, owned by a peer in the list, as `set_allowedip`
  stores it (`TableOk`): a family with its address length and prefix bound, the host bits clear;
* every peer's endpoint is an IPv4 or an IPv6 one, or none (`Endpoint.Ok`).

Every step of `set_device` keeps them, whichever step a request stops at
(`genlSetDevice_consistent`), so every configuration a run of requests reaches from a new device
has them (`applyRequests_consistent`). The address length is the one place where the walk needs
the request's bytes: a parsed attribute lies within the buffer, so its payload has the length
its header gives.
-/

namespace WireGuardNetlink

lemma clamp_byte0_idem (x : UInt8) : x &&& 248 &&& 248 = x &&& 248 := by
  show UInt8.land (UInt8.land x 248) 248 = UInt8.land x 248
  simp only [UInt8.land]; rw [BitVec.and_assoc]; rfl

lemma clamp_byte31_idem (x : UInt8) : ((x &&& 127) ||| 64) &&& 127 ||| 64 = (x &&& 127) ||| 64 := by
  show UInt8.lor (UInt8.land (UInt8.lor (UInt8.land x 127) 64) 127) 64 =
    UInt8.lor (UInt8.land x 127) 64
  simp only [UInt8.land, UInt8.lor]
  congr 1
  apply BitVec.eq_of_getLsbD_eq
  intro i
  simp only [BitVec.getLsbD_or, BitVec.getLsbD_and]
  cases x.toBitVec.getLsbD i <;> cases (UInt8.toBitVec 127).getLsbD i <;>
    cases (UInt8.toBitVec 64).getLsbD i <;> rfl

lemma clamp_byte31_ne_zero (x : UInt8) : x ||| 64 ≠ 0 := by
  intro h
  have := congrArg (fun y : UInt8 => y.toBitVec.getLsbD 6) h
  change (x.toBitVec ||| (64 : UInt8).toBitVec).getLsbD 6 = (0 : UInt8).toBitVec.getLsbD 6 at this
  rw [BitVec.getLsbD_or] at this
  revert this; cases x.toBitVec.getLsbD 6 <;> decide

/-- Clamping a clamped key changes nothing. -/
lemma Key.clamp_clamp (k : Key) : k.clamp.clamp = k.clamp := by
  obtain ⟨b, hb⟩ := k
  simp only [Key.clamp, Key.mk.injEq]
  apply List.ext_getElem?
  intro n
  simp only [List.getD_eq_getElem?_getD, List.getElem?_set, List.length_set, hb]
  split_ifs <;> simp_all [clamp_byte0_idem, clamp_byte31_idem]

/-- A clamped key is never all zero: clamping sets bit 6 of its last byte. -/
lemma Key.clamp_ne_zero (k : Key) : k.clamp ≠ Key.zero := by
  intro h
  have := congrArg (fun k : Key => k.bytes.getD 31 0) h
  simp [Key.clamp, Key.zero, List.getD_eq_getElem?_getD, List.getElem?_set, k.length_bytes] at this
  exact clamp_byte31_ne_zero _ this

/-- An identity that installing its own private key again reproduces. -/
def IdentityStable (c : Curve25519) (si : StaticIdentity) : Prop :=
  si.hasIdentity = true → wgNoiseSetStaticIdentityPrivateKey c si si.staticPrivate = si

/-- Every identity the key change installs is stable: it stores the clamped key, and the public
key derives from the clamped key alone. -/
lemma identityStable_set (c : Curve25519) (si : StaticIdentity) (k : Key) :
    IdentityStable c (wgNoiseSetStaticIdentityPrivateKey c si k) := by
  intro h
  have hk : k ≠ Key.zero := by
    rintro rfl; simp [wgNoiseSetStaticIdentityPrivateKey, curve25519GeneratePublic] at h
  simp only [wgNoiseSetStaticIdentityPrivateKey, curve25519GeneratePublic, if_neg hk,
    if_neg (Key.clamp_ne_zero k), curve25519, Key.clamp_clamp]

/-- An endpoint as requests leave it: an IPv4 or an IPv6 one, or none at all. -/
def Endpoint.Ok (e : Endpoint) : Prop :=
  e.family = AF_INET ∨ e.family = AF_INET6 ∨ e = Endpoint.zero

@[simp] lemma wgSocketSetPeerEndpoint_remoteStatic (d : Device) (p q : PeerId) (e : Endpoint) :
    ((wgSocketSetPeerEndpoint d p e).objs q).remoteStatic = (d.objs q).remoteStatic := by
  unfold wgSocketSetPeerEndpoint
  split_ifs <;> by_cases hq : q = p <;> simp [Device.updPeer, hq]

/-- Storing an endpoint leaves every peer's endpoint an IPv4 or an IPv6 one, or none: an IPv4
address overwrites the family with its own. -/
lemma wgSocketSetPeerEndpoint_endpoint_ok (d : Device) (p : PeerId) (e : Endpoint) (q : PeerId)
    (h : (d.objs q).endpoint.Ok) : ((wgSocketSetPeerEndpoint d p e).objs q).endpoint.Ok := by
  unfold wgSocketSetPeerEndpoint
  by_cases hq : q = p
  · subst hq
    split_ifs with h4 h6
    · refine .inl ?_
      simp only [Device.updPeer_objs_self, Endpoint.family]
      rw [List.take_append_of_le_length (by simp [e.length_bytes, SIZEOF_SOCKADDR_IN]),
        List.take_take]
      exact h4
    · simpa using .inr (.inl h6)
    · exact h
  · split_ifs <;> simpa [Device.updPeer_objs_ne _ _ hq] using h

/-- A prefix as `set_allowedip` stores it: IPv4 with a 4-byte address and a length up to 32, or
IPv6 with a 16-byte address and a length up to 128, its host bits clear. -/
def AllowedIp.Valid (ip : AllowedIp) : Prop :=
  (ip.family = AF_INET ∧ ip.addr.length = SIZEOF_IN_ADDR ∧ ip.cidr.toNat ≤ 32 ∨
    ip.family = AF_INET6 ∧ ip.addr.length = SIZEOF_IN6_ADDR ∧ ip.cidr.toNat ≤ 128) ∧
  maskAddr ip.addr ip.cidr.toNat = ip.addr

lemma maskByte_maskByte (b : UInt8) (n : Nat) : maskByte (maskByte b n) n = maskByte b n := by
  have hk : 0 < 2 ^ (8 - n) := Nat.pos_pow_of_pos _ (by decide)
  have hle : b.toNat / 2 ^ (8 - n) * 2 ^ (8 - n) ≤ b.toNat := Nat.div_mul_le_self _ _
  have hb : b.toNat < 256 := b.toBitVec.isLt
  simp only [maskByte]
  rw [UInt8.toNat_ofNat_of_lt (show _ < 256 by omega), Nat.mul_div_cancel _ hk]

/-- Masking a masked address changes nothing. -/
lemma maskAddr_maskAddr (bs : Bytes) (cidr : Nat) :
    maskAddr (maskAddr bs cidr) cidr = maskAddr bs cidr := by
  induction bs generalizing cidr with
  | nil => rfl
  | cons b bs ih => simp [maskAddr, maskByte_maskByte, ih]

/-- What `set_allowedip` inserts passed its checks, and the table masks it. -/
lemma AllowedIp.valid_masked {family : Nat} {ip : Bytes} {cidr : UInt8}
    (h : family = AF_INET ∧ ip.length = SIZEOF_IN_ADDR ∧ cidr.toNat ≤ 32 ∨
      family = AF_INET6 ∧ ip.length = SIZEOF_IN6_ADDR ∧ cidr.toNat ≤ 128) :
    AllowedIp.Valid ⟨family, maskAddr ip cidr.toNat, cidr⟩ :=
  ⟨by simpa using h, maskAddr_maskAddr ip _⟩

/-- The table of a device holds each prefix once, owned by a peer in the list, as
`set_allowedip` stores it. -/
structure TableOk (d : Device) : Prop where
  nodup : (d.table.entries.map (·.1)).Nodup
  owner : ∀ e ∈ d.table.entries, e.2 ∈ d.peers
  valid : ∀ e ∈ d.table.entries, e.1.Valid

namespace TableOk

variable {d d' : Device}

/-- A prefix has one owner. -/
lemma owner_unique (h : TableOk d) {k : AllowedIp} {p q : PeerId} (hp : (k, p) ∈ d.table.entries)
    (hq : (k, q) ∈ d.table.entries) : p = q :=
  congrArg Prod.snd (List.inj_on_of_nodup_map h.nodup hp hq rfl)

/-- Some of the entries, each owned by a peer in the list. -/
lemma of_sublist (h : TableOk d) (ht : List.Sublist d'.table.entries d.table.entries)
    (hp : ∀ e ∈ d'.table.entries, e.2 ∈ d'.peers) : TableOk d' :=
  ⟨h.nodup.sublist (ht.map _), hp, fun e he => h.valid e (ht.subset he)⟩

/-- The same entries over a list that keeps every peer. -/
lemma of_frame (h : TableOk d) (ht : d'.table.entries = d.table.entries)
    (hp : ∀ p ∈ d.peers, p ∈ d'.peers) : TableOk d' :=
  h.of_sublist (ht ▸ List.Sublist.refl _) fun e he => hp _ (h.owner e (ht ▸ he))

/-- Removing a peer removes its prefixes. -/
lemma remove (h : TableOk d) (p : PeerId) : TableOk (wgPeerRemove d p) :=
  h.of_sublist (by simp [wgPeerRemove, wgAllowedipsRemoveByPeer])
    fun e he => by
      simp only [wgPeerRemove, wgPeerPut_table, wgAllowedipsRemoveByPeer, List.mem_filter,
        decide_eq_true_eq] at he
      simpa using (List.mem_erase_of_ne he.2).2 (h.owner e he.1)

/-- Dropping a peer's prefixes (`WGPEER_F_REPLACE_ALLOWEDIPS`). -/
lemma removeByPeer (h : TableOk d) (p : PeerId) :
    TableOk { d with table := wgAllowedipsRemoveByPeer d.table p } :=
  h.of_sublist (List.filter_sublist _) fun e he => h.owner e (List.mem_of_mem_filter he)

/-- Inserting a valid prefix for a peer in the list. -/
lemma insert (h : TableOk d) {family : Nat} {ip : Bytes} {cidr : UInt8} {p : PeerId}
    {fails : Bool} (hp : p ∈ d.peers)
    (hv : AllowedIp.Valid ⟨family, maskAddr ip cidr.toNat, cidr⟩) :
    TableOk { d with table := (d.table.insert family ip cidr p fails).2 } := by
  set key : AllowedIp := ⟨family, maskAddr ip cidr.toNat, cidr⟩
  simp only [AllowedIps.insert]
  split_ifs with hany
  · have hkeys : (d.table.entries.map fun e => if e.1 = key then (key, p) else e).map (·.1) =
        d.table.entries.map (·.1) := by
      simp only [List.map_map]
      exact List.map_congr_left fun e _ => by
        dsimp only [Function.comp_apply]; split_ifs with hk <;> simp [hk]
    refine ⟨by simpa [hkeys] using h.nodup, fun e he => ?_, fun e he => ?_⟩ <;>
    · obtain ⟨e₀, he₀, rfl⟩ := List.mem_map.1 he
      split_ifs with hk
      · first | exact hp | exact hk ▸ h.valid e₀ he₀
      · first | exact h.owner e₀ he₀ | exact h.valid e₀ he₀
  · exact h.of_frame rfl fun _ => id
  · refine ⟨?_, fun e he => ?_, fun e he => ?_⟩
    · rw [List.map_append, List.nodup_append]
      refine ⟨h.nodup, List.nodup_singleton _, List.disjoint_singleton.2 fun hm => hany ?_⟩
      obtain ⟨e, he, hk⟩ := List.mem_map.1 hm
      exact List.any_eq_true.2 ⟨e, he, by simpa using hk⟩
    · rcases List.mem_append.1 he with he | he
      · exact h.owner e he
      · rw [List.mem_singleton.1 he]; exact hp
    · rcases List.mem_append.1 he with he | he
      · exact h.valid e he
      · rw [List.mem_singleton.1 he]; exact hv

end TableOk

/-- What every configuration reached by requests keeps beside the roster: a stable identity,
peers whose precomputation with it succeeds, at most `MAX_PEERS_PER_DEVICE` of them, a
well-formed table, and endpoints that are IPv4, IPv6 or none. -/
structure Consistent (env : Env) (d : Device) : Prop where
  identity : IdentityStable env.curve d.identity
  precompute : ∀ p ∈ d.peers, precomputeOk env d.identity (d.objs p).remoteStatic = true
  length_le : d.peers.length ≤ MAX_PEERS_PER_DEVICE
  table : TableOk d
  endpoint : ∀ p ∈ d.peers, (d.objs p).endpoint.Ok

namespace Consistent

variable {env : Env} {d d' : Device}

/-- The invariant reads the identity, the list, the peers' keys and endpoints and the table
entries; keeping some of the entries keeps it. -/
lemma of_frame (h : Consistent env d) (hid : d'.identity = d.identity) (hp : d'.peers = d.peers)
    (hk : ∀ p, (d'.objs p).remoteStatic = (d.objs p).remoteStatic)
    (he : ∀ p, (d.objs p).endpoint.Ok → (d'.objs p).endpoint.Ok)
    (ht : List.Sublist d'.table.entries d.table.entries) : Consistent env d' :=
  ⟨hid ▸ h.identity, fun p hq => by rw [hid, hk]; exact h.precompute p (hp ▸ hq), hp ▸ h.length_le,
    h.table.of_sublist ht fun e he => hp ▸ h.table.owner e (ht.subset he),
    fun p hq => he p (h.endpoint p (hp ▸ hq))⟩

/-- A device that differs only in fields the invariant does not read. -/
lemma congr (h : Consistent env d) (hid : d'.identity = d.identity) (hp : d'.peers = d.peers)
    (ho : d'.objs = d.objs) (ht : d'.table = d.table) : Consistent env d' :=
  h.of_frame hid hp (fun _ => by rw [ho]) (fun _ => by rw [ho]; exact id) (by rw [ht])

/-- Changing a peer object but its key and endpoint. -/
lemma updPeer (h : Consistent env d) (p : PeerId) {f : Peer → Peer}
    (hf : ∀ o, (f o).remoteStatic = o.remoteStatic ∧ (f o).endpoint = o.endpoint) :
    Consistent env (d.updPeer p f) :=
  h.of_frame rfl rfl (fun q => by by_cases hq : q = p <;> simp [Device.updPeer, hq, hf])
    (fun q => by by_cases hq : q = p <;> simp [Device.updPeer, hq, hf]) (List.Sublist.refl _)

lemma wgPeerGet (h : Consistent env d) (x : Option PeerId) :
    Consistent env (WireGuardNetlink.wgPeerGet d x) := by
  cases x
  · exact h
  · simp only [WireGuardNetlink.wgPeerGet]; exact h.updPeer _ (by intro o; exact ⟨rfl, rfl⟩)

lemma wgPeerPut (h : Consistent env d) (x : Option PeerId) :
    Consistent env (WireGuardNetlink.wgPeerPut d x) := by
  cases x
  · exact h
  · simp only [WireGuardNetlink.wgPeerPut]; exact h.updPeer _ (by intro o; exact ⟨rfl, rfl⟩)

lemma withTable (h : Consistent env d) {t : AllowedIps} (ht : TableOk { d with table := t }) :
    Consistent env { d with table := t } :=
  ⟨h.identity, h.precompute, h.length_le, ht, h.endpoint⟩

lemma remove (h : Consistent env d) (p : PeerId) : Consistent env (wgPeerRemove d p) :=
  ⟨h.identity, fun q hq => by
      simpa using h.precompute q (List.mem_of_mem_erase (by simpa using hq)),
    (List.length_erase_le _ _).trans h.length_le, h.table.remove p,
    fun q hq => by simpa using h.endpoint q (List.mem_of_mem_erase (by simpa using hq))⟩

lemma removeAll (h : Consistent env d) : Consistent env (wgPeerRemoveAll d) := by
  unfold wgPeerRemoveAll
  induction d.peers generalizing d with
  | nil => exact h
  | cons p l ih => exact ih (h.remove p)

/-- Linking a new peer whose precomputation succeeds, below the peer limit. -/
lemma link (h : Consistent env d) (o : Peer)
    (hpre : precomputeOk env d.identity o.remoteStatic = true)
    (hlen : d.peers.length < MAX_PEERS_PER_DEVICE) (hep : o.endpoint.Ok) :
    Consistent env (d.link o) := by
  have hold : ∀ q ∈ d.peers, (d.link o).objs q = d.objs q := fun q hq => by
    simp [Device.link, Nat.ne_of_lt (d.lt_nextPeer q hq)]
  have hnew : (d.link o).objs d.nextPeer = o := by simp [Device.link]
  refine ⟨h.identity, fun q hq => ?_, by simpa [Device.link] using hlen,
    h.table.of_frame rfl fun p hp => by simp [Device.link, hp], fun q hq => ?_⟩ <;>
  rcases List.mem_append.1 hq with hq | hq
  · rw [hold q hq]; exact h.precompute q hq
  · rw [List.mem_singleton.1 hq, hnew]; exact hpre
  · rw [hold q hq]; exact h.endpoint q hq
  · rw [List.mem_singleton.1 hq, hnew]; exact hep

/-- Storing a peer's preshared key. -/
lemma setPsk (h : Consistent env d) (p : PeerId) (k : Key) :
    Consistent env (d.updPeer p fun o => { o with presharedKey := k }) :=
  h.updPeer p (by intro o; exact ⟨rfl, rfl⟩)

/-- Dropping a peer's prefixes. -/
lemma removeByPeer (h : Consistent env d) (p : PeerId) :
    Consistent env { d with table := wgAllowedipsRemoveByPeer d.table p } :=
  h.withTable (h.table.removeByPeer p)

/-- Storing a peer's endpoint. -/
lemma setEndpoint (h : Consistent env d) (p : PeerId) (e : Endpoint) :
    Consistent env (wgSocketSetPeerEndpoint d p e) where
  identity := by rw [Device.identity_eq_head, wgSocketSetPeerEndpoint_head]; exact h.identity
  precompute q hq := by
    rw [Device.identity_eq_head, wgSocketSetPeerEndpoint_head, wgSocketSetPeerEndpoint_remoteStatic]
    exact h.precompute q (by simpa using hq)
  length_le := by simpa using h.length_le
  table := h.table.of_frame (by simp) fun q hq => by simpa using hq
  endpoint q hq :=
    wgSocketSetPeerEndpoint_endpoint_ok d p e q (h.endpoint q (by simpa using hq))

end Consistent

section Steps

variable (env : Env)

@[simp] lemma precomputeOrRemove_endpoint (w : World) (p q : PeerId) :
    ((precomputeOrRemove env w p).wg.objs q).endpoint = (w.wg.objs q).endpoint := by
  simp only [precomputeOrRemove]
  split <;> by_cases h : q = p <;> simp [Device.updPeer, h]

@[simp] lemma removeCollidingPeer_endpoint (k : Key) (w : World) (q : PeerId) :
    ((removeCollidingPeer env k w).wg.objs q).endpoint = (w.wg.objs q).endpoint := by
  simp only [removeCollidingPeer, wgPubkeyHashtableLookup]
  split
  · cases (w.wg.peers.find? _) <;> simp
  · rfl

/-- The key change keeps every peer's endpoint. -/
lemma setPrivateKey_endpoint (k : Key) (w : World) (q : PeerId) :
    ((setPrivateKey env k w).wg.objs q).endpoint = (w.wg.objs q).endpoint := by
  have hloop : ∀ (l : List PeerId) (v : World),
      ((l.foldl (precomputeOrRemove env) v).wg.objs q).endpoint = (v.wg.objs q).endpoint := by
    intro l
    induction l with
    | nil => intro v; rfl
    | cons p l ih => intro v; rw [List.foldl_cons, ih, precomputeOrRemove_endpoint]
  simp only [setPrivateKey, precomputeAll_eq, wgCookieCheckerPrecomputeDeviceKeys, hloop,
    removeCollidingPeer_endpoint]

lemma removeCollidingPeer_tableOk (k : Key) (w : World) (h : TableOk w.wg) :
    TableOk (removeCollidingPeer env k w).wg := by
  simp only [removeCollidingPeer, wgPubkeyHashtableLookup]
  split
  · split <;> rename_i hd <;> simp only [Prod.mk.injEq] at hd <;> obtain ⟨-, rfl⟩ := hd
    · exact (h.of_frame (by simp) (by simp)).remove _
    · exact h.of_frame (by simp) (by simp)
  · exact h

lemma precomputeAll_tableOk (v : World) (h : TableOk v.wg) : TableOk (precomputeAll env v).wg := by
  rw [precomputeAll_eq]
  generalize v.wg.peers = l
  induction l generalizing v with
  | nil => exact h
  | cons p l ih =>
    refine ih _ ?_
    simp only [precomputeOrRemove]
    split
    · exact h.of_frame rfl fun _ => id
    · refine TableOk.remove ?_ p
      exact h.of_frame rfl fun _ => id

/-- The key change keeps the invariant: the identity it installs is stable, and the peers it
keeps are those whose precomputation with it succeeds. -/
lemma setPrivateKey_consistent (k : Key) (w : World) (h : Consistent env w.wg) :
    Consistent env (setPrivateKey env k w).wg := by
  set v := removeCollidingPeer env k w
  set v' : World := { v with wg := { v.wg with
    identity := wgNoiseSetStaticIdentityPrivateKey env.curve v.wg.identity k } }
  have hpeers : (setPrivateKey env k w).wg.peers = (precomputeAll env v').wg.peers := rfl
  have hsub : List.Sublist (setPrivateKey env k w).wg.peers w.wg.peers := by
    rw [hpeers, precomputeAll_peers]
    exact (List.filter_sublist _).trans (removeCollidingPeer_sublist env k w).1
  refine ⟨?_, fun p hp => ?_, hsub.length_le.trans h.length_le, ?_, fun p hp => ?_⟩
  · rw [setPrivateKey_identity]; exact identityStable_set _ _ _
  · rw [hpeers, precomputeAll_peers] at hp
    rw [setPrivateKey_identity, setPrivateKey_remoteStatic]
    simpa [v', v] using (List.mem_filter.1 hp).2
  · exact (precomputeAll_tableOk env v'
      ((removeCollidingPeer_tableOk env k w h.table).of_frame rfl fun _ => id)).of_frame rfl
      fun _ => id
  · rw [setPrivateKey_endpoint]; exact h.endpoint p (hsub.subset hp)

/-- One allowed IP keeps the invariant: it inserts a prefix that passed the checks, for the peer
held, and the address it inserts has the length the attribute header gives. -/
lemma setAllowedip_consistent (p : PeerId) (buf : Bytes) (tb : AttrTable) (w : World)
    (hb : ∀ t x, tb t = some x → x.off + x.len ≤ buf.length) (hp : p ∈ w.wg.peers)
    (h : Consistent env w.wg) : Consistent env (setAllowedip env p buf tb w).2.wg := by
  unfold setAllowedip
  split
  · rename_i fa ia ca hf hi hc
    have hlen := length_nlaData (hb _ _ hi)
    simp only [World.alloc]
    split_ifs with h4 h6
    · exact h.withTable (h.table.insert hp (AllowedIp.valid_masked
        (.inl ⟨rfl, hlen.trans h4.2.2, h4.2.1⟩)))
    · exact h.withTable (h.table.insert hp (AllowedIp.valid_masked
        (.inr ⟨rfl, hlen.trans h6.2.2, h6.2.1⟩)))
    · exact h
  · exact h

lemma setAllowedips_consistent (p : PeerId) (buf : Bytes) :
    ∀ (l : List Nlattr) (w : World), (∀ x ∈ l, x.off + x.len ≤ buf.length) →
      p ∈ w.wg.peers → Consistent env w.wg → Consistent env (setAllowedips env p buf l w).2.wg
  | [], _, _, _, h => h
  | a :: l, w, hb, hp, h => by
    simp only [setAllowedips]
    split
    · exact h
    · rename_i tb htb
      have ha := hb a (List.mem_cons_self _ _)
      have h₁ := setAllowedip_consistent env p buf tb w
        (fun t x hx => by have := nlaParseNested_bounds htb hx; omega) hp h
      split
      · exact h₁
      · obtain ⟨t, ht⟩ := setAllowedip_wg env p buf tb w
        exact setAllowedips_consistent p buf l _ (fun x hx => hb x (List.mem_cons_of_mem _ hx))
          (by rw [ht]; exact hp) h₁

@[simp] lemma setPeerConfig_peers (buf : Bytes) (tb : AttrTable) (flags : UInt32)
    (psk : Option Key) (p : PeerId) (w : World) :
    (setPeerConfig buf tb flags psk p w).wg.peers = w.wg.peers := by
  simp only [setPeerConfig]
  split_ifs <;> repeat' split
  all_goals simp

/-- The updates of a held peer before its allowed IPs keep the invariant: the preshared key is no
part of it, an endpoint is stored only as IPv4 or IPv6, and the table at most loses the peer's
prefixes. -/
lemma setPeerConfig_consistent (buf : Bytes) (tb : AttrTable) (flags : UInt32) (psk : Option Key)
    (p : PeerId) (w : World) (h : Consistent env w.wg) :
    Consistent env (setPeerConfig buf tb flags psk p w).wg := by
  simp only [setPeerConfig]
  split_ifs <;> repeat' split
  all_goals
    repeat (first | apply Consistent.removeByPeer | apply Consistent.setEndpoint |
      apply Consistent.setPsk)
    exact h

/-- The updates after the allowed IPs set the keepalive interval and record effects. -/
lemma setPeerFinish_consistent (buf : Bytes) (tb : AttrTable) (p : PeerId) (w : World)
    (h : Consistent env w.wg) : Consistent env (setPeerFinish buf tb p w).wg := by
  simp only [setPeerFinish]
  repeat' split
  all_goals try dsimp only
  all_goals first | exact h | (refine h.updPeer p ?_; intro o; exact ⟨rfl, rfl⟩)

/-- The peer `set_peer` holds is on the list: a member the lookup found, or a new peer linked
because its precomputation with the identity succeeded, below the peer limit, with no
endpoint. -/
lemma setPeerHold_consistent {pk : Key} {psk : Option Key} {flags : UInt32} {w w' : World}
    {p : PeerId} (h : Consistent env w.wg) (hh : setPeerHold env pk psk flags w = .ok (p, w')) :
    Consistent env w'.wg ∧ p ∈ w'.wg.peers := by
  unfold setPeerHold wgPubkeyHashtableLookup at hh
  split at hh
  · rename_i q d hd
    simp only [Prod.mk.injEq] at hd
    obtain ⟨hq, rfl⟩ := hd
    cases hh
    exact ⟨h.wgPeerGet _, by simpa using List.mem_of_find?_eq_some hq⟩
  · rename_i d hd
    simp only [Prod.mk.injEq] at hd
    obtain ⟨-, rfl⟩ := hd
    dsimp only at hh
    split at hh
    · cases hh
    · split at hh
      · cases hh
      · split at hh
        · cases hh
        · rename_i q w₁ hc
          cases hh
          unfold wgPeerCreate World.alloc at hc
          split at hc
          · cases hc
          · rename_i hlen
            dsimp only at hc
            split at hc
            · cases hc
            · rename_i hok
              cases hc
              dsimp only
              refine ⟨(Consistent.link (h.wgPeerGet _) _ ?_ (by simpa using hlen)
                (.inr (.inr rfl))).wgPeerGet _, by simp [Device.link]⟩
              simp only [not_or, Bool.not_eq_false] at hok
              simpa [precomputeOk] using hok.2

/-- Past the lookup, `set_peer` keeps the invariant: a removal, or the updates, the allowed IPs
and the finishing updates of a peer on the list. -/
lemma setPeerUpdate_consistent (buf : Bytes) (tb : AttrTable) (flags : UInt32) (psk : Option Key)
    (p : PeerId) (w : World) (hb : ∀ t x, tb t = some x → x.off + x.len ≤ buf.length)
    (hp : p ∈ w.wg.peers) (h : Consistent env w.wg) :
    Consistent env (setPeerUpdate env buf tb flags psk p w).2.wg := by
  have hc := setPeerConfig_consistent env buf tb flags psk p w h
  have hips : Consistent env (match tb WGPEER_A_ALLOWEDIPS with
      | some a => setAllowedips env p buf (nlaNested buf a) (setPeerConfig buf tb flags psk p w)
      | none => (0, setPeerConfig buf tb flags psk p w) : Int × World).2.wg := by
    split
    · rename_i a ha
      exact setAllowedips_consistent env p buf _ _
        (fun x hx => by have := mem_nlaForEachAttr hx; have := hb _ _ ha; omega)
        (by simpa using hp) hc
    · exact hc
  unfold setPeerUpdate
  split
  · exact h.remove p
  · dsimp only
    split
    · exact hips
    · exact setPeerFinish_consistent env buf tb p _ hips

/-- A peer block keeps the invariant. -/
lemma setPeer_consistent (buf : Bytes) (tb : AttrTable) (w : World)
    (hb : ∀ t x, tb t = some x → x.off + x.len ≤ buf.length) (h : Consistent env w.wg) :
    Consistent env (setPeer env buf tb w).2.2.wg := by
  rcases setPeerApply_cases env buf tb w with ⟨e, w', he, hwg, -⟩ | ⟨pk, psk, flags, p, w₁, hh, he⟩
  · simp only [setPeer, he]
    exact hwg ▸ h
  · obtain ⟨h₁, hp⟩ := setPeerHold_consistent env h hh
    simp only [setPeer, he]
    exact (setPeerUpdate_consistent env buf tb flags psk p w₁ hb hp h₁).wgPeerPut _

/-- A peer block changes the request buffer only by a wipe. -/
@[simp] lemma length_setDevicePeer (a : Nlattr) (buf : Bytes) (w : World) :
    (setDevicePeer env a buf w).2.1.length = buf.length := by
  unfold setDevicePeer
  split
  · rfl
  · rw [setPeer_buf]; split <;> simp [nlaWipe]

lemma setDevicePeer_consistent (a : Nlattr) (buf : Bytes) (w : World)
    (hb : a.off + a.len ≤ buf.length) (h : Consistent env w.wg) :
    Consistent env (setDevicePeer env a buf w).2.2.wg := by
  unfold setDevicePeer
  split
  · exact h
  · rename_i tb htb
    exact setPeer_consistent env buf tb w
      (fun t x hx => by have := nlaParseNested_bounds htb hx; omega) h

lemma applyPeerBlocks_consistent :
    ∀ (l : List Nlattr) (buf : Bytes) (w : World), (∀ a ∈ l, a.off + a.len ≤ buf.length) →
      Consistent env w.wg → Consistent env (applyPeerBlocks env l buf w).2.2.wg
  | [], _, _, _, h => h
  | a :: l, buf, w, hb, h => by
    have h₁ := setDevicePeer_consistent env a buf w (hb a (List.mem_cons_self _ _)) h
    simp only [applyPeerBlocks]
    split
    · exact h₁
    · exact applyPeerBlocks_consistent l _ _
        (fun x hx => by rw [length_setDevicePeer]; exact hb x (List.mem_cons_of_mem _ hx)) h₁

/-- The device-level steps keep the invariant. -/
lemma setDeviceConfig_consistent (c : Caller) (attrs : AttrTable) (buf : Bytes) (w : World)
    (h : Consistent env w.wg) : Consistent env (setDeviceConfig env c attrs buf w).2.wg := by
  have hmark : ∀ v : World, Consistent env v.wg → Consistent env (setFwmark attrs buf v).wg :=
    fun v hv => by
      obtain ⟨m, hm⟩ := setFwmark_wg attrs buf v
      rw [hm]; exact hv.congr rfl rfl rfl rfl
  have hsock : ∀ v : World, Consistent env v.wg →
      Consistent env (setSocket env c attrs buf v).2.wg := fun v hv => by
    obtain ⟨port, net, hs⟩ := setSocket_wg env c attrs buf v
    rw [hs]; exact hv.congr rfl rfl rfl rfl
  have hreplace : ∀ v : World, Consistent env v.wg →
      Consistent env (replacePeers attrs buf v).wg := fun v hv => by
    rcases replacePeers_wg attrs buf v with hr | hr <;> rw [hr]
    · exact hv
    · exact hv.removeAll
  have hkey : ∀ v : World, Consistent env v.wg →
      Consistent env (setPrivateKeyAttr env attrs buf v).wg := fun v hv => by
    rcases setPrivateKeyAttr_cases env attrs buf v with hk | ⟨k, hk⟩ <;> rw [hk]
    · exact hv
    · exact setPrivateKey_consistent env k v hv
  have h₁ := hsock _ (hmark { w with wg := { w.wg with updateGen := w.wg.updateGen + 1 } }
    (h.congr rfl rfl rfl rfl))
  simp only [setDeviceConfig]
  split
  · exact h₁
  · exact hkey _ (hreplace _ h₁)

/-- Every attribute of a request lies within its buffer. -/
lemma nlaParse_bounds {buf : Bytes} {maxtype : Nat} {policy : Nat → NlaPolicy} {tb : AttrTable}
    (h : nlaParse buf maxtype policy 0 buf.length = .ok tb) {t : Nat} {x : Nlattr}
    (hx : tb t = some x) : x.off + x.len ≤ buf.length := by
  rcases nlaParseAttrs_mem h t x hx with hl | h0
  · have := mem_nlaForEachAttr hl; omega
  · cases h0

/-- A request keeps the invariant, whichever step it stops at. -/
lemma genlSetDevice_consistent (c : Caller) (buf : Bytes) (w : World) (h : Consistent env w.wg) :
    Consistent env (genlSetDevice env c buf w).2.2.wg := by
  unfold genlSetDevice
  cases hp : nlaParse buf WGDEVICE_A_MAX devicePolicy 0 buf.length with
  | error e => exact h
  | ok attrs =>
    dsimp only
    cases hl : setDeviceLookup c attrs buf w with
    | error r =>
      obtain ⟨e, w'⟩ := r
      rw [setDevice_of_error hl, setDeviceLookup_wg.1 e w' hl]; exact h
    | ok r =>
      obtain ⟨n, w'⟩ := r
      have hw' : Consistent env w'.wg := by
        rw [setDeviceLookup_wg.2 n w' hl]; exact h.congr rfl rfl rfl rfl
      have hc := setDeviceConfig_consistent env c attrs buf w' hw'
      have hlocked : Consistent env (setDeviceLocked env c attrs buf w').2.2.wg := by
        simp only [setDeviceLocked]
        split
        · exact hc
        · split
          · rename_i a ha
            rw [setDevicePeers_eq]
            exact applyPeerBlocks_consistent env _ _ _
              (fun x hx => by have := mem_nlaForEachAttr hx; have := nlaParse_bounds hp ha; omega) hc
          · exact hc
      rw [setDevice_of_ok hl, World.putNet_wg]
      exact hlocked.congr rfl rfl rfl rfl

end Steps

/-- A new device keeps the invariant: it has no identity, no peers and an empty table. -/
lemma Device.create_consistent (env : Env) (ifindex : Nat) (name : Bytes) (net : NetId) :
    Consistent env (Device.create ifindex name net) where
  identity h := nomatch h
  precompute _ h := nomatch h
  length_le := Nat.zero_le _
  table := ⟨List.nodup_nil, fun _ h => (nomatch h), fun _ h => (nomatch h)⟩
  endpoint _ h := nomatch h

/-- The world after `set_device` requests, one after another, each from its caller with its
message. -/
def applyRequests (env : Env) (w : World) : List (Caller × Bytes) → World
  | [] => w
  | r :: rs => applyRequests env (genlSetDevice env r.1 r.2 w).2.2 rs

/-- Every configuration that requests reach from a new device keeps the invariant and the
roster, whichever step each request stops at. -/
theorem applyRequests_consistent (env : Env) (ifindex : Nat) (name : Bytes) (net : NetId) :
    ∀ reqs : List (Caller × Bytes),
      Consistent env (applyRequests env (World.init (Device.create ifindex name net)) reqs).wg ∧
        Roster (applyRequests env (World.init (Device.create ifindex name net)) reqs).wg := by
  suffices h : ∀ reqs w, Consistent env w.wg → Roster w.wg →
      Consistent env (applyRequests env w reqs).wg ∧ Roster (applyRequests env w reqs).wg from
    fun reqs => h reqs _ (Device.create_consistent env ifindex name net) (Roster.of_nil rfl)
  intro reqs
  induction reqs with
  | nil => exact fun _ hc hr => ⟨hc, hr⟩
  | cons r rs ih =>
    exact fun w hc hr => ih _ (genlSetDevice_consistent env r.1 r.2 w hc)
      (genlSetDevice_roster env r.1 r.2 w hr)

end WireGuardNetlink
