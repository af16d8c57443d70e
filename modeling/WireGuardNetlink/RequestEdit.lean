import WireGuardNetlink.BlockEdit

/-!
# A request as an edit of the peers

The whole of `set_device` under the update lock, read at the level of `BlockEdit`: the peers in
list order by their fields (`Device.lineup`). Before its peer blocks a request may ask the
device-level steps for two things that change the peers (`DeviceEdit`, read from the request by
`deviceEditOf`): to remove every peer (`WGDEVICE_F_REPLACE_PEERS`), and to install a private key,
which removes the peer whose key is the new public key and those the new identity cannot
precompute against (`rekeyPeers`). The blocks then edit the peers in order, against the identity
the device-level edit leaves (`DeviceEdit.applyRequest`).

`set_device` computes this (`setDeviceLocked_refines_request`). The generation bump, the mark and
the socket keep the peers, and a failing socket step ends the request with the peers as they
were (`setDeviceConfig_lineup_of_error`); the hashtable lookup of the colliding peer and the safe
walk of the precomputation loop disappear (`setPrivateKey_lineup`); and the peer loop is
`applyPeerBlocks_refines_of_agree`.
-/

namespace WireGuardNetlink

/-- What the device-level steps of a request ask of the peers: to remove every peer first, and
a private key to install. -/
structure DeviceEdit where
  replace : Bool
  privateKey : Option Key
deriving DecidableEq, Repr

/-- The device-level edit of a request, read as `set_device` reads it: the replace flag, and a
private key of the key length (one of another length is ignored). -/
def deviceEditOf (attrs : AttrTable) (buf : Bytes) : DeviceEdit where
  replace := match attrs WGDEVICE_A_FLAGS with
    | some a => nlaGetU32 buf a &&& WGDEVICE_F_REPLACE_PEERS != 0
    | none => false
  privateKey := match attrs WGDEVICE_A_PRIVATE_KEY with
    | some a => if a.len = NOISE_PUBLIC_KEY_LEN then some (nlaKey buf a) else none
    | none => none

/-- The identity a device-level edit leaves. -/
def DeviceEdit.identity (env : Env) (e : DeviceEdit) (si : StaticIdentity) : StaticIdentity :=
  match e.privateKey with
  | some k => wgNoiseSetStaticIdentityPrivateKey env.curve si k
  | none => si

/-- The peers a new private key leaves: the old ones in their order, less the peer whose key is
the new public key, when one can be derived, and those the new identity cannot precompute
against. -/
def rekeyPeers (env : Env) (si : StaticIdentity) (k : Key) (l : List PeerFields) :
    List PeerFields :=
  let pub := curve25519GeneratePublic env.curve Key.zero k
  (l.filter fun v => !(pub.2 && decide (v.key = pub.1))).filter
    fun v => precomputeOk env (wgNoiseSetStaticIdentityPrivateKey env.curve si k) v.key

/-- The peers a device-level edit leaves: none after a replace, then those a new key leaves. -/
def DeviceEdit.applyPeers (env : Env) (e : DeviceEdit) (si : StaticIdentity)
    (l : List PeerFields) : List PeerFields :=
  let l := if e.replace then [] else l
  match e.privateKey with
  | some k => rekeyPeers env si k l
  | none => l

/-- The context an identity gives the blocks: its public key, and the precomputation with it. -/
def EditCtx.ofIdentity (env : Env) (si : StaticIdentity) : EditCtx :=
  ⟨if si.hasIdentity then some si.staticPublic else none, precomputeOk env si⟩

/-- A request as an edit of the peers: the device-level edit, then the blocks' edits in order
against the identity it leaves, up to the first failure. -/
def DeviceEdit.applyRequest (env : Env) (e : DeviceEdit) (blocks : List (Except Int PeerEdit))
    (si : StaticIdentity) (l : List PeerFields) : Int × List PeerFields :=
  PeerEdit.applyAll (EditCtx.ofIdentity env (e.identity env si)) blocks (e.applyPeers env si l)

lemma Device.editCtx_eq (env : Env) (d : Device) :
    d.editCtx env = EditCtx.ofIdentity env d.identity := rfl

section Steps

variable (env : Env)

@[simp] lemma precomputeOrRemove_peerFields (w : World) (p q : PeerId) :
    (precomputeOrRemove env w p).wg.peerFields q = w.wg.peerFields q := by
  simp only [precomputeOrRemove]
  split <;> by_cases h : q = p <;> simp [Device.updPeer, Device.peerFields, h]

@[simp] lemma removeCollidingPeer_peerFields (k : Key) (w : World) (q : PeerId) :
    (removeCollidingPeer env k w).wg.peerFields q = w.wg.peerFields q := by
  simp only [removeCollidingPeer, wgPubkeyHashtableLookup]
  split
  · cases (w.wg.peers.find? _) <;> simp
  · rfl

/-- The key change keeps every peer's fields. -/
lemma setPrivateKey_peerFields (k : Key) (w : World) (q : PeerId) :
    (setPrivateKey env k w).wg.peerFields q = w.wg.peerFields q := by
  have hloop : ∀ (l : List PeerId) (v : World),
      (l.foldl (precomputeOrRemove env) v).wg.peerFields q = v.wg.peerFields q := by
    intro l
    induction l with
    | nil => intro v; rfl
    | cons p l ih => intro v; rw [List.foldl_cons, ih, precomputeOrRemove_peerFields]
  simp only [setPrivateKey, precomputeAll_eq]
  exact (hloop _ _).trans (removeCollidingPeer_peerFields env k w q)

/-- With distinct keys, the key change leaves the peers `rekeyPeers` says. -/
lemma setPrivateKey_lineup (k : Key) (w : World) (hk : w.wg.keys.Nodup) :
    (setPrivateKey env k w).wg.lineup = rekeyPeers env w.wg.identity k w.wg.lineup := by
  rw [Device.lineup, setPrivateKey_peers env k w hk,
    List.map_congr_left fun q _ => setPrivateKey_peerFields env k w q]
  simp only [rekeyPeers, Device.lineup, List.filter_map]
  rfl

lemma replacePeers_eq (attrs : AttrTable) (buf : Bytes) (w : World) :
    replacePeers attrs buf w =
      if (deviceEditOf attrs buf).replace then { w with wg := wgPeerRemoveAll w.wg } else w :=
  rfl

lemma setPrivateKeyAttr_eq (attrs : AttrTable) (buf : Bytes) (w : World) :
    setPrivateKeyAttr env attrs buf w =
      match (deviceEditOf attrs buf).privateKey with
      | some k => setPrivateKey env k w
      | none => w := by
  unfold setPrivateKeyAttr deviceEditOf
  cases attrs WGDEVICE_A_PRIVATE_KEY with
  | none => rfl
  | some a => dsimp only; split_ifs <;> rfl

/-- The generation bump, the mark and the socket keep the peers, their fields and the
identity. -/
lemma setSocket_setFwmark_wg (c : Caller) (attrs : AttrTable) (buf : Bytes) (w : World) :
    let v := (setSocket env c attrs buf
      (setFwmark attrs buf { w with wg := { w.wg with updateGen := w.wg.updateGen + 1 } })).2
    v.wg.lineup = w.wg.lineup ∧ v.wg.identity = w.wg.identity ∧ v.wg.keys = w.wg.keys := by
  intro v
  obtain ⟨m, hm⟩ := setFwmark_wg attrs buf { w with wg := { w.wg with updateGen := w.wg.updateGen + 1 } }
  obtain ⟨port, net, hs⟩ := setSocket_wg env c attrs buf
    (setFwmark attrs buf { w with wg := { w.wg with updateGen := w.wg.updateGen + 1 } })
  refine ⟨?_, ?_, ?_⟩ <;> simp only [v, hs, hm] <;> rfl

/-- Device-level steps that fail (only the socket step can) leave the peers as they were. -/
lemma setDeviceConfig_lineup_of_error (c : Caller) (attrs : AttrTable) (buf : Bytes) (w : World)
    (h : (setDeviceConfig env c attrs buf w).1 ≠ 0) :
    (setDeviceConfig env c attrs buf w).2.wg.lineup = w.wg.lineup := by
  simp only [setDeviceConfig] at h ⊢
  split_ifs at h ⊢
  · exact (setSocket_setFwmark_wg env c attrs buf w).1
  · exact absurd rfl h

/-- Device-level steps that succeed leave the peers and the identity the device-level edit
says. -/
lemma setDeviceConfig_edit (c : Caller) (attrs : AttrTable) (buf : Bytes) (w : World)
    (hk : w.wg.keys.Nodup) (h : (setDeviceConfig env c attrs buf w).1 = 0) :
    (setDeviceConfig env c attrs buf w).2.wg.lineup =
        (deviceEditOf attrs buf).applyPeers env w.wg.identity w.wg.lineup ∧
      (setDeviceConfig env c attrs buf w).2.wg.identity =
        (deviceEditOf attrs buf).identity env w.wg.identity := by
  simp only [setDeviceConfig] at h ⊢
  split_ifs at h ⊢ with h0
  · exact absurd h h0
  obtain ⟨hl, hid, hkeys⟩ := setSocket_setFwmark_wg env c attrs buf w
  rw [setPrivateKeyAttr_eq, replacePeers_eq]
  simp only [DeviceEdit.applyPeers, DeviceEdit.identity]
  split <;> split_ifs
  · rename_i k _ _
    rw [setPrivateKey_lineup env k _ (by simp [Device.keys]), setPrivateKey_identity]
    simp [Device.lineup, hid]
  · rename_i k _ _
    rw [setPrivateKey_lineup env k _ (hkeys ▸ hk), setPrivateKey_identity, hl, hid]
    exact ⟨rfl, rfl⟩
  · simp [Device.lineup, hid]
  · exact ⟨hl, hid⟩

end Steps

/-- Once its socket step succeeds, the locked part of `set_device` computes the request's edit of
the peers. -/
lemma setDeviceLocked_applyRequest (env : Env) (c : Caller) (attrs : AttrTable) (buf : Bytes)
    (w : World) (hr : Roster w.wg)
    (hpeers : ∀ a, attrs WGDEVICE_A_PEERS = some a → a.off + a.len ≤ buf.length)
    (halloc : ∀ n, env.oom n = false)
    (hips : ∀ x ∈ (attrs WGDEVICE_A_PEERS).elim [] (nlaNested buf), ∀ tb,
      nlaParseNested buf WGPEER_A_MAX peerPolicy x = .ok tb →
      ∀ y ∈ (tb WGPEER_A_ALLOWEDIPS).elim [] (nlaNested buf), (entryPrefix buf y).isSome)
    (h0 : (setDeviceConfig env c attrs buf w).1 = 0) :
    ((setDeviceLocked env c attrs buf w).1, (setDeviceLocked env c attrs buf w).2.2.wg.lineup) =
      (deviceEditOf attrs buf).applyRequest env
        (((attrs WGDEVICE_A_PEERS).elim [] (nlaNested buf)).map (blockEditOf buf))
        w.wg.identity w.wg.lineup := by
  obtain ⟨hl, hid⟩ := setDeviceConfig_edit env c attrs buf w hr.nodup_keys h0
  rw [DeviceEdit.applyRequest, ← hl, ← hid, ← Device.editCtx_eq]
  exact setDeviceLocked_applyAll env c attrs buf w hr hpeers h0 halloc hips

/-- The locked part of `set_device` refines the request's edit of the peers. Take a device whose
peers have distinct keys, none the device's own (`Roster`), a request whose peer nest lies within
the buffer, with allowed-IP entries that are all valid prefixes, and a kernel in which no
allocation fails. If the socket step fails, the request ends with its error and the peers as they
were. Otherwise it returns what the request's edit returns, and leaves the peers as the edit
leaves them: none after a replace, then those the new private key leaves, then the edits of the
blocks, read from the request as it came and applied in order against the new identity up to the
first failure. -/
theorem setDeviceLocked_refines_request (env : Env) (c : Caller) (attrs : AttrTable)
    (buf : Bytes) (w : World) (hr : Roster w.wg)
    (hpeers : ∀ a, attrs WGDEVICE_A_PEERS = some a → a.off + a.len ≤ buf.length)
    (halloc : ∀ n, env.oom n = false)
    (hips : ∀ x ∈ (attrs WGDEVICE_A_PEERS).elim [] (nlaNested buf), ∀ tb,
      nlaParseNested buf WGPEER_A_MAX peerPolicy x = .ok tb →
      ∀ y ∈ (tb WGPEER_A_ALLOWEDIPS).elim [] (nlaNested buf), (entryPrefix buf y).isSome) :
    ((setDeviceLocked env c attrs buf w).1, (setDeviceLocked env c attrs buf w).2.2.wg.lineup) =
      if (setDeviceConfig env c attrs buf w).1 ≠ 0 then
        ((setDeviceConfig env c attrs buf w).1, w.wg.lineup)
      else (deviceEditOf attrs buf).applyRequest env
        (((attrs WGDEVICE_A_PEERS).elim [] (nlaNested buf)).map (blockEditOf buf))
        w.wg.identity w.wg.lineup := by
  split_ifs with h0
  · simp only [setDeviceLocked, if_pos h0, setDeviceConfig_lineup_of_error env c attrs buf w h0]
  · exact setDeviceLocked_applyRequest env c attrs buf w hr hpeers halloc hips (not_not.1 h0)

set_option maxRecDepth 20000 in
/-- A request on a device with one peer that replaces the peers, installs a private key and then
creates two peers, the old one among them: the device ends with exactly the two, in the order of
the blocks. -/
theorem setDeviceLocked_refines_request_replace :
    let env := Env.reliable ⟨fun s _ => s, Key.zero⟩
    let w := (genlSetDevice env (Caller.admin 0) (nlaEncode [(WGDEVICE_A_IFINDEX, u32Bytes 1),
      (WGDEVICE_A_PEERS, nlaEncode [(0, nlaEncode [(WGPEER_A_PUBLIC_KEY, List.replicate 32 1)])])])
      (World.init (Device.create 1 [119] 0))).2.2
    let buf := nlaEncode [(WGDEVICE_A_FLAGS, u32Bytes WGDEVICE_F_REPLACE_PEERS),
      (WGDEVICE_A_PRIVATE_KEY, List.replicate 32 3),
      (WGDEVICE_A_PEERS, nlaEncode [
        (0, nlaEncode [(WGPEER_A_PUBLIC_KEY, List.replicate 32 2),
          (WGPEER_A_PERSISTENT_KEEPALIVE_INTERVAL, u16Bytes 25)]),
        (0, nlaEncode [(WGPEER_A_PUBLIC_KEY, List.replicate 32 1),
          (WGPEER_A_PRESHARED_KEY, List.replicate 32 7)])])]
    let attrs := (nlaParse buf WGDEVICE_A_MAX devicePolicy 0 buf.length).toOption.getD fun _ => none
    ((setDeviceLocked env (Caller.admin 0) attrs buf w).1,
      (setDeviceLocked env (Caller.admin 0) attrs buf w).2.2.wg.lineup) =
      (0, [⟨⟨List.replicate 32 2, rfl⟩, Key.zero, Endpoint.zero.addr, 25⟩,
        ⟨⟨List.replicate 32 1, rfl⟩, ⟨List.replicate 32 7, rfl⟩, Endpoint.zero.addr, 0⟩]) := by
  intro env w buf attrs
  have hpeers : (attrs WGDEVICE_A_PEERS).all (fun a => decide (a.off + a.len ≤ buf.length)) = true := by
    decide
  have hips : ∀ x ∈ (attrs WGDEVICE_A_PEERS).elim [] (nlaNested buf),
      (nlaParseNested buf WGPEER_A_MAX peerPolicy x).toOption.map (· WGPEER_A_ALLOWEDIPS) =
        some none := by decide
  rw [setDeviceLocked_refines_request env (Caller.admin 0) attrs buf w
    (genlSetDevice_roster env _ _ _ (Roster.of_nil rfl)) (fun a ha => by simpa [ha] using hpeers)
    (fun _ => rfl) fun x hx tb htb => by
      have h := hips x hx
      rw [htb] at h
      simp only [Except.toOption, Option.map_some', Option.some.injEq] at h
      simp [h]]
  decide

end WireGuardNetlink
