import Mathlib.Data.UInt
import WireGuardNetlink.Batch
import WireGuardNetlink.KeyRotation
import WireGuardNetlink.System

/-!
# What a request changes

Frame lemmas for `set_device`: which parts of the device each of its steps can change. The
device-level fields (`Device.head`) change only in the device-level steps under the lock,
`++device_update_gen` first; a peer block (`set_peer`) changes none of them, and changes the keys
of the peers only by appending the key of a peer it creates (one not in the list and not the
device's own) or by dropping peers. Before the lock a request changes the device only by the
reference `lookup_interface` takes, which it drops again at the end; so a request that takes the
lock advances the generation by exactly one (`genlSetDevice_updateGen`), and one that does not
leaves the device as it was (`genlSetDevice_wg_of_not_takesLock`).

`set_device` wipes the private-key attribute of the request on every exit (`out_nonet:`), but
the preshared-key attribute of a peer block is wiped only by `set_peer`, at its own `out:`. A
peer block that `set_peer` never sees keeps its preshared key in the request: every block after
a failing one, and every block of a request that fails before the peer loop, such as one naming
a device that does not exist (`setDevice_unknown_device_keeps_psk`).
-/

namespace WireGuardNetlink

@[simp] lemma Device.head_withTable (d : Device) (t : AllowedIps) :
    ({ d with table := t } : Device).head = d.head := rfl

@[simp] lemma Device.keys_withTable (d : Device) (t : AllowedIps) :
    ({ d with table := t } : Device).keys = d.keys := rfl

@[simp] lemma World.putNet_wg (w : World) (n : Option NetId) : (w.putNet n).wg = w.wg := by
  cases n <;> rfl

@[simp] lemma wgSocketSetPeerEndpoint_head (d : Device) (p : PeerId) (e : Endpoint) :
    (wgSocketSetPeerEndpoint d p e).head = d.head := by
  unfold wgSocketSetPeerEndpoint; split <;> [rfl; split <;> rfl]

@[simp] lemma wgSocketSetPeerEndpoint_keys (d : Device) (p : PeerId) (e : Endpoint) :
    (wgSocketSetPeerEndpoint d p e).keys = d.keys := by
  unfold wgSocketSetPeerEndpoint
  split <;> [skip; split] <;> simp [Device.keys_updPeer]

/-- Removing every peer keeps the device-level fields and leaves no key. -/
lemma wgPeerRemoveAll_head_keys (d : Device) :
    (wgPeerRemoveAll d).head = d.head ∧ List.Sublist (wgPeerRemoveAll d).keys d.keys := by
  unfold wgPeerRemoveAll
  induction d.peers generalizing d with
  | nil => exact ⟨rfl, List.Sublist.refl _⟩
  | cons p l ih =>
    obtain ⟨hh, hk⟩ := ih (wgPeerRemove d p)
    exact ⟨hh.trans (wgPeerRemove_head d p), hk.trans (keys_wgPeerRemove_sublist d p)⟩

/-- `get_attr_net` takes a namespace reference and touches nothing else. -/
lemma getAttrNet_wg {c : Caller} {buf : Bytes} {a b : Option Nlattr} {w w' : World}
    {n : Option NetId} (h : getAttrNet c buf a b w = .ok (n, w')) : w'.wg = w.wg := by
  unfold getAttrNet at h
  split at h
  · cases h
  · revert h; cases c.netByPid _ <;> rintro ⟨⟩; rfl
  · revert h; cases c.netByFd _ <;> rintro ⟨⟩; rfl
  · cases h; rfl

/-- Resolving a namespace fails only with a negative error. -/
lemma getAttrNet_error_neg {c : Caller} {buf : Bytes} {a b : Option Nlattr} {w : World} {e : Int}
    (h : getAttrNet c buf a b w = .error e) : e < 0 := by
  unfold getAttrNet at h
  split at h
  · cases h; decide
  · revert h; cases hn : c.netByPid _ <;> rintro ⟨⟩; exact c.netByPid_neg _ _ hn
  · revert h; cases hn : c.netByFd _ <;> rintro ⟨⟩; exact c.netByFd_neg _ _ hn
  · cases h

/-- `lookup_interface` fails only with a negative error. -/
lemma lookupInterface_error_neg {buf : Bytes} {attrs : AttrTable} {net : NetId} {w : World}
    {e : Int} (h : lookupInterface buf attrs net w = .error e) : e < 0 := by
  unfold lookupInterface at h
  split at h
  · cases h; decide
  · dsimp only at h
    split at h <;> cases h <;> decide

/-- `lookup_interface` takes the device's reference and changes nothing else. -/
lemma lookupInterface_wg {buf : Bytes} {attrs : AttrTable} {net : NetId} {w w' : World}
    (h : lookupInterface buf attrs net w = .ok w') :
    w'.wg = { w.wg with refcnt := w.wg.refcnt + 1 } := by
  unfold lookupInterface at h
  split at h
  · cases h
  · dsimp only at h
    split at h <;> cases h; rfl

/-- The device lookup of `set_device`: an error leaves the device as it was; success takes the
device's reference. -/
lemma setDeviceLookup_wg {c : Caller} {attrs : AttrTable} {buf : Bytes} {w : World} :
    (∀ e w', setDeviceLookup c attrs buf w = .error (e, w') → w'.wg = w.wg) ∧
    (∀ n w', setDeviceLookup c attrs buf w = .ok (n, w') →
      w'.wg = { w.wg with refcnt := w.wg.refcnt + 1 }) := by
  unfold setDeviceLookup
  split
  · exact ⟨fun _ _ h => by cases h; rfl, fun _ _ h => by cases h⟩
  · rename_i n w₁ h₁
    have hw := getAttrNet_wg h₁
    split
    · exact ⟨fun _ _ h => by cases h; simpa using hw, fun _ _ h => by cases h⟩
    · split
      · exact ⟨fun _ _ h => by cases h; simpa using hw, fun _ _ h => by cases h⟩
      · rename_i w₂ h₂
        refine ⟨fun _ _ h => (nomatch h), fun _ _ h => ?_⟩
        cases h; rw [lookupInterface_wg h₂, hw]

/-- Dropping the cached endpoint sources only records the effects. -/
lemma clearPeerEndpointSrcs_eq (w : World) :
    clearPeerEndpointSrcs w = { w with log := w.log ++ w.wg.peers.map Effect.clearEndpointSrc } := by
  have hfold : ∀ (l : List PeerId) (v : World),
      l.foldl (fun v p => { v with log := v.log ++ [Effect.clearEndpointSrc p] }) v =
        { v with log := v.log ++ l.map Effect.clearEndpointSrc } := by
    intro l
    induction l with
    | nil => intro v; simp
    | cons p l ih => intro v; simp [ih]
  rw [clearPeerEndpointSrcs, listNext_head,
    listForEachEntry_eq (fun w : World => w.wg.peers)
      (fun (w : World) p => { w with log := w.log ++ [Effect.clearEndpointSrc p] }) (fun _ _ => rfl)
      w.wg.peers [] w _ rfl w.wg.nodup_peers
      (Nat.lt_succ_self _), Option.getD_some, hfold]

@[simp] lemma clearPeerEndpointSrcs_wg (w : World) : (clearPeerEndpointSrcs w).wg = w.wg := by
  rw [clearPeerEndpointSrcs_eq]

/-- `set_socket` changes only the port and the transit namespace. -/
lemma setSocket_wg (env : Env) (c : Caller) (attrs : AttrTable) (buf : Bytes) (w : World) :
    ∃ port net, (setSocket env c attrs buf w).2.wg =
      { w.wg with incomingPort := port, transitNet := net } := by
  unfold setSocket
  split
  · exact ⟨_, _, rfl⟩
  · rename_i n w₁ h₁
    have hw := getAttrNet_wg h₁
    dsimp only
    repeat' split
    all_goals exact ⟨_, _, by simp only [World.putNet_wg, clearPeerEndpointSrcs_wg, hw]; rfl⟩

@[simp] lemma precomputeOrRemove_updateGen (env : Env) (w : World) (p : PeerId) :
    (precomputeOrRemove env w p).wg.updateGen = w.wg.updateGen := by
  simp only [precomputeOrRemove]; split <;> rfl

@[simp] lemma removeCollidingPeer_updateGen (env : Env) (k : Key) (w : World) :
    (removeCollidingPeer env k w).wg.updateGen = w.wg.updateGen := by
  simp only [removeCollidingPeer, wgPubkeyHashtableLookup]
  split
  · split <;> rename_i hd <;> simp only [Prod.mk.injEq] at hd <;> obtain ⟨-, rfl⟩ := hd <;>
      simp [Device.updateGen_eq_head]
  · rfl

@[simp] lemma setPrivateKey_updateGen (env : Env) (k : Key) (w : World) :
    (setPrivateKey env k w).wg.updateGen = w.wg.updateGen := by
  have hloop : ∀ (l : List PeerId) (v : World),
      (l.foldl (precomputeOrRemove env) v).wg.updateGen = v.wg.updateGen := by
    intro l
    induction l with
    | nil => intro v; rfl
    | cons p l ih => intro v; rw [List.foldl_cons, ih, precomputeOrRemove_updateGen]
  simp only [setPrivateKey, precomputeAll_eq, wgCookieCheckerPrecomputeDeviceKeys, hloop,
    removeCollidingPeer_updateGen]

@[simp] lemma setSocket_updateGen (env : Env) (c : Caller) (attrs : AttrTable) (buf : Bytes)
    (w : World) : (setSocket env c attrs buf w).2.wg.updateGen = w.wg.updateGen := by
  obtain ⟨port, net, h⟩ := setSocket_wg env c attrs buf w; rw [h]

/-- The firewall-mark step changes only the mark. -/
lemma setFwmark_wg (attrs : AttrTable) (buf : Bytes) (w : World) :
    ∃ m, (setFwmark attrs buf w).wg = { w.wg with fwmark := m } := by
  unfold setFwmark
  split
  · exact ⟨_, clearPeerEndpointSrcs_wg _⟩
  · exact ⟨w.wg.fwmark, rfl⟩

/-- The replace step removes every peer or nothing. -/
lemma replacePeers_wg (attrs : AttrTable) (buf : Bytes) (w : World) :
    (replacePeers attrs buf w).wg = w.wg ∨ (replacePeers attrs buf w).wg = wgPeerRemoveAll w.wg := by
  simp only [replacePeers]
  split
  · exact .inr rfl
  · exact .inl rfl

/-- The private-key step installs a key or does nothing. -/
lemma setPrivateKeyAttr_cases (env : Env) (attrs : AttrTable) (buf : Bytes) (w : World) :
    setPrivateKeyAttr env attrs buf w = w ∨
      ∃ k, setPrivateKeyAttr env attrs buf w = setPrivateKey env k w := by
  unfold setPrivateKeyAttr
  split
  · split
    · exact .inr ⟨_, rfl⟩
    · exact .inl rfl
  · exact .inl rfl

@[simp] lemma setFwmark_updateGen (attrs : AttrTable) (buf : Bytes) (w : World) :
    (setFwmark attrs buf w).wg.updateGen = w.wg.updateGen := by
  obtain ⟨m, h⟩ := setFwmark_wg attrs buf w; rw [h]

@[simp] lemma replacePeers_updateGen (attrs : AttrTable) (buf : Bytes) (w : World) :
    (replacePeers attrs buf w).wg.updateGen = w.wg.updateGen := by
  rcases replacePeers_wg attrs buf w with h | h <;> rw [h]
  rw [Device.updateGen_eq_head, (wgPeerRemoveAll_head_keys _).1]; rfl

@[simp] lemma setPrivateKeyAttr_updateGen (env : Env) (attrs : AttrTable) (buf : Bytes)
    (w : World) : (setPrivateKeyAttr env attrs buf w).wg.updateGen = w.wg.updateGen := by
  rcases setPrivateKeyAttr_cases env attrs buf w with h | ⟨k, h⟩ <;> rw [h]
  exact setPrivateKey_updateGen env k w

/-- The device-level steps advance the generation by one. -/
lemma setDeviceConfig_updateGen (env : Env) (c : Caller) (attrs : AttrTable) (buf : Bytes)
    (w : World) : (setDeviceConfig env c attrs buf w).2.wg.updateGen = w.wg.updateGen + 1 := by
  simp only [setDeviceConfig]
  split <;> simp

/-- One allowed IP changes only the table. -/
lemma setAllowedip_wg (env : Env) (p : PeerId) (buf : Bytes) (tb : AttrTable) (w : World) :
    ∃ t, (setAllowedip env p buf tb w).2.wg = { w.wg with table := t } := by
  simp only [setAllowedip]
  repeat' split
  all_goals exact ⟨_, rfl⟩

/-- The allowed-IP loop changes only the table. -/
lemma setAllowedips_wg (env : Env) (p : PeerId) (buf : Bytes) :
    ∀ (as : List Nlattr) (w : World),
      ∃ t, (setAllowedips env p buf as w).2.wg = { w.wg with table := t }
  | [], w => ⟨w.wg.table, rfl⟩
  | a :: as, w => by
    simp only [setAllowedips]
    split
    · exact ⟨w.wg.table, rfl⟩
    · rename_i tb _
      obtain ⟨t, ht⟩ := setAllowedip_wg env p buf tb w
      split
      · exact ⟨t, ht⟩
      · obtain ⟨t', ht'⟩ := setAllowedips_wg env p buf as (setAllowedip env p buf tb w).2
        exact ⟨t', by rw [ht', ht]⟩

@[simp] lemma setAllowedips_head (env : Env) (p : PeerId) (buf : Bytes) (as : List Nlattr)
    (w : World) : (setAllowedips env p buf as w).2.wg.head = w.wg.head := by
  obtain ⟨t, ht⟩ := setAllowedips_wg env p buf as w; rw [ht]; rfl

@[simp] lemma setAllowedips_keys (env : Env) (p : PeerId) (buf : Bytes) (as : List Nlattr)
    (w : World) : (setAllowedips env p buf as w).2.wg.keys = w.wg.keys := by
  obtain ⟨t, ht⟩ := setAllowedips_wg env p buf as w; rw [ht]; rfl

/-- The updates of a held peer before its allowed IPs keep the device-level fields and the
keys. -/
lemma setPeerConfig_head_keys (buf : Bytes) (tb : AttrTable) (flags : UInt32) (psk : Option Key)
    (p : PeerId) (w : World) :
    (setPeerConfig buf tb flags psk p w).wg.head = w.wg.head ∧
    (setPeerConfig buf tb flags psk p w).wg.keys = w.wg.keys := by
  simp only [setPeerConfig]
  repeat' split
  all_goals simp only [Device.head_withTable, Device.keys_withTable, wgSocketSetPeerEndpoint_head,
    wgSocketSetPeerEndpoint_keys, Device.updPeer_head, Device.keys_updPeer, implies_true, and_self]

/-- So do the updates after them. -/
lemma setPeerFinish_head_keys (buf : Bytes) (tb : AttrTable) (p : PeerId) (w : World) :
    (setPeerFinish buf tb p w).wg.head = w.wg.head ∧
    (setPeerFinish buf tb p w).wg.keys = w.wg.keys := by
  simp only [setPeerFinish]
  repeat' split
  all_goals simp [Device.keys_updPeer]

/-- The update of a held peer keeps the device-level fields; it can only drop keys. -/
lemma setPeerUpdate_head_keys (env : Env) (buf : Bytes) (tb : AttrTable) (flags : UInt32)
    (psk : Option Key) (p : PeerId) (w : World) :
    (setPeerUpdate env buf tb flags psk p w).2.wg.head = w.wg.head ∧
    List.Sublist (setPeerUpdate env buf tb flags psk p w).2.wg.keys w.wg.keys := by
  obtain ⟨hh, hk⟩ := setPeerConfig_head_keys buf tb flags psk p w
  unfold setPeerUpdate
  split
  · exact ⟨wgPeerRemove_head _ _, keys_wgPeerRemove_sublist _ _⟩
  · dsimp only
    repeat' split
    all_goals simp only [setAllowedips_head, setAllowedips_keys, (setPeerFinish_head_keys _ _ _ _).1,
      (setPeerFinish_head_keys _ _ _ _).2, hh, hk, List.Sublist.refl, and_self]

/-- A created peer is linked at the tail with the key it was created for, under a fresh
allocation. -/
lemma wgPeerCreate_some {env : Env} {w w' : World} {pk : Key} {psk : Option Key} {p : PeerId}
    (h : wgPeerCreate env w pk psk = (some p, w')) :
    w'.wg.head = w.wg.head ∧ w'.wg.keys = w.wg.keys ++ [pk] ∧ w'.wg.peers = w.wg.peers ++ [p] ∧
      p ∉ w.wg.peers := by
  unfold wgPeerCreate World.alloc at h
  split at h
  · cases h
  · dsimp only at h
    split at h
    · cases h
    · cases h
      exact ⟨rfl, Device.keys_link _ _, rfl,
        fun hp => Nat.lt_irrefl _ (w.wg.lt_nextPeer _ hp)⟩

/-- The peer `set_peer` holds: a member, with the device as it was but for the lookup's
reference; or a new peer for a key that is neither a member's nor the device's own, appended at
the tail. -/
lemma setPeerHold_ok {env : Env} {pk : Key} {psk : Option Key} {flags : UInt32} {w w' : World}
    {p : PeerId} (h : setPeerHold env pk psk flags w = .ok (p, w')) :
    w'.wg.head = w.wg.head ∧ (w'.wg.keys = w.wg.keys ∨
      pk ∉ w.wg.keys ∧ ¬(w.wg.identity.hasIdentity = true ∧ pk = w.wg.identity.staticPublic) ∧
        w'.wg.keys = w.wg.keys ++ [pk]) := by
  unfold setPeerHold wgPubkeyHashtableLookup at h
  split at h
  · rename_i q d hd
    simp only [Prod.mk.injEq] at hd
    cases h; rw [← hd.2, hd.1]
    exact ⟨by simp, .inl (by simp)⟩
  · rename_i d hd
    simp only [Prod.mk.injEq] at hd
    obtain ⟨hnone, rfl⟩ := hd
    have hpk : pk ∉ w.wg.keys := fun hk => by
      obtain ⟨q, hq, hqk⟩ := List.mem_map.1 hk
      exact absurd hqk (by simpa using List.find?_eq_none.1 hnone q hq)
    dsimp only at h
    split at h
    · cases h
    · split at h
      · cases h
      · rename_i hself
        split at h
        · cases h
        · rename_i q w₁ hc
          cases h
          obtain ⟨hh, hk, -⟩ := wgPeerCreate_some hc
          exact ⟨by simpa using hh, .inr ⟨hpk, by simpa [hnone] using hself, by simpa using hk⟩⟩

/-- A peer block keeps the device-level fields. -/
@[simp] lemma setPeer_head (env : Env) (buf : Bytes) (tb : AttrTable) (w : World) :
    (setPeer env buf tb w).2.2.wg.head = w.wg.head := by
  rcases setPeerApply_cases env buf tb w with ⟨e, w', he, hwg, -⟩ | ⟨pk, psk, flags, p, w₁, hh, he⟩
  · simp [setPeer, he, hwg]
  · simp [setPeer, he, (setPeerUpdate_head_keys env buf tb flags psk p w₁).1, (setPeerHold_ok hh).1]

@[simp] lemma setDevicePeer_head (env : Env) (a : Nlattr) (buf : Bytes) (w : World) :
    (setDevicePeer env a buf w).2.2.wg.head = w.wg.head := by
  unfold setDevicePeer; split <;> simp

@[simp] lemma applyPeerBlocks_head (env : Env) (l : List Nlattr) (buf : Bytes) (w : World) :
    (applyPeerBlocks env l buf w).2.2.wg.head = w.wg.head := by
  induction l generalizing buf w with
  | nil => rfl
  | cons a l ih => simp only [applyPeerBlocks]; split <;> simp [ih]

/-- The part of `set_device` under the lock advances the generation by one. -/
lemma setDeviceLocked_updateGen (env : Env) (c : Caller) (attrs : AttrTable) (buf : Bytes)
    (w : World) : (setDeviceLocked env c attrs buf w).2.2.wg.updateGen = w.wg.updateGen + 1 := by
  rw [← setDeviceConfig_updateGen env c attrs buf w]
  simp only [setDeviceLocked]
  split
  · rfl
  · split
    · rw [setDevicePeers_eq, Device.updateGen_eq_head, applyPeerBlocks_head]; rfl
    · rfl

/-- A request whose lookup fails ends with the world the lookup left. -/
lemma setDevice_of_error {env : Env} {c : Caller} {attrs : AttrTable} {buf : Bytes} {w w' : World}
    {e : Int} (h : setDeviceLookup c attrs buf w = .error (e, w')) :
    (setDevice env c attrs buf w).2.2 = w' := by
  simp [setDevice, h]

set_option maxRecDepth 20000 in
/-- A request naming a device index that does not exist, with one peer block carrying a
preshared key of sevens: the lookup fails with `-ENODEV` and the 32 bytes of the preshared key
(at offset 56 of the request) are still sevens when `set_device` returns. -/
theorem setDevice_unknown_device_keeps_psk :
    (fun r : Int × Bytes × World => r.1 = -ENODEV ∧ (r.2.1.drop 56).take 32 = List.replicate 32 7)
      (genlSetDevice (Env.reliable ⟨fun s _ => s, Key.zero⟩) (Caller.admin 0)
        (nlaEncode [(WGDEVICE_A_IFINDEX, u32Bytes 2),
          (WGDEVICE_A_PEERS, nlaEncode [(0, nlaEncode [(WGPEER_A_PUBLIC_KEY, List.replicate 32 1),
            (WGPEER_A_PRESHARED_KEY, List.replicate 32 7)])])])
        (World.init (Device.create 1 [] 0))) := by
  decide

/-- A request whose lookup succeeds runs the locked part and drops the references it took. -/
lemma setDevice_of_ok {env : Env} {c : Caller} {attrs : AttrTable} {buf : Bytes} {w w' : World}
    {n : Option NetId} (h : setDeviceLookup c attrs buf w = .ok (n, w')) :
    (setDevice env c attrs buf w).2.2 =
      { (setDeviceLocked env c attrs buf w').2.2 with
        wg := { (setDeviceLocked env c attrs buf w').2.2.wg with
          refcnt := (setDeviceLocked env c attrs buf w').2.2.wg.refcnt - 1 } }.putNet n := by
  simp [setDevice, h]

/-- A request that takes the update lock advances the generation by exactly one; any other
leaves it. -/
theorem genlSetDevice_updateGen (env : Env) (c : Caller) (buf : Bytes) (w : World) :
    (genlSetDevice env c buf w).2.2.wg.updateGen =
      w.wg.updateGen + if setDeviceTakesLock c buf w then 1 else 0 := by
  unfold genlSetDevice setDeviceTakesLock
  cases hp : nlaParse buf WGDEVICE_A_MAX devicePolicy 0 buf.length with
  | error e => simp
  | ok attrs =>
    cases hl : setDeviceLookup c attrs buf w with
    | error r =>
      obtain ⟨e, w'⟩ := r
      simp [hl, setDevice_of_error hl, setDeviceLookup_wg.1 e w' hl]
    | ok r =>
      obtain ⟨n, w'⟩ := r
      simp [hl, setDevice_of_ok hl, setDeviceLocked_updateGen, setDeviceLookup_wg.2 n w' hl]

/-- A request that does not take the update lock leaves the device as it was. -/
theorem genlSetDevice_wg_of_not_takesLock (env : Env) (c : Caller) (buf : Bytes) (w : World)
    (h : setDeviceTakesLock c buf w = false) : (genlSetDevice env c buf w).2.2.wg = w.wg := by
  unfold genlSetDevice
  unfold setDeviceTakesLock at h
  cases hp : nlaParse buf WGDEVICE_A_MAX devicePolicy 0 buf.length with
  | error e => rfl
  | ok attrs =>
    rw [hp] at h
    cases hl : setDeviceLookup c attrs buf w with
    | error r =>
      obtain ⟨e, w'⟩ := r
      exact (congrArg World.wg (setDevice_of_error hl)).trans (setDeviceLookup_wg.1 e w' hl)
    | ok r => simp [hl] at h

end WireGuardNetlink
