import WireGuardNetlink.SetFrame

/-!
# What each event changes

The configuration of the device (`Device.config`) is what requests set and a dump reads back:
the identity, the firewall mark, the listening port and, per peer in list order, its key,
preshared key, keepalive interval and allowed IPs. Of the events of the system only a request
that takes the update lock changes it, or the generation (`Sys.step_frame`): the dump takes and
drops peer references and the device reference (`getDeviceStart_wg`, `getDeviceDump_wg`,
`getDeviceDone`), and traffic changes counters, the handshake time and the endpoint.
-/

namespace WireGuardNetlink

/-- A peer as requests configure it: the object, its key, preshared key, keepalive interval and
allowed IPs. -/
structure PeerConfig where
  peer : PeerId
  remoteStatic : Key
  presharedKey : Key
  keepalive : UInt16
  allowedips : List AllowedIp
deriving DecidableEq, Repr

/-- A device as requests configure it. -/
structure DeviceConfig where
  identity : StaticIdentity
  fwmark : UInt32
  incomingPort : UInt16
  peers : List PeerConfig
deriving DecidableEq, Repr

/-- The configuration of one peer of a device. -/
def Device.peerConfig (d : Device) (p : PeerId) : PeerConfig :=
  ⟨p, (d.objs p).remoteStatic, (d.objs p).presharedKey, (d.objs p).keepalive, d.table.ownedBy p⟩

/-- The configuration of a device. -/
def Device.config (d : Device) : DeviceConfig :=
  ⟨d.identity, d.fwmark, d.incomingPort, d.peers.map d.peerConfig⟩

lemma Device.keys_eq_config (d : Device) : d.keys = d.config.peers.map (·.remoteStatic) := by
  simp [Device.keys, Device.config, Device.peerConfig, Function.comp_def]

lemma Device.identity_eq_config (d : Device) : d.identity = d.config.identity := rfl

/-- Changing peer objects but in their configured fields keeps the configuration. -/
lemma Device.config_updPeer (d : Device) (p : PeerId) {f : Peer → Peer}
    (hf : ∀ o, (f o).remoteStatic = o.remoteStatic ∧ (f o).presharedKey = o.presharedKey ∧
      (f o).keepalive = o.keepalive) : (d.updPeer p f).config = d.config := by
  simp only [Device.config, Device.updPeer_identity, Device.updPeer_peers]
  congr 1
  refine List.map_congr_left fun q _ => ?_
  by_cases h : q = p <;> simp [Device.peerConfig, Device.updPeer, h, hf]

@[simp] lemma config_wgPeerGet (d : Device) (x : Option PeerId) :
    (wgPeerGet d x).config = d.config := by
  cases x
  · rfl
  · exact Device.config_updPeer _ _ fun _ => ⟨rfl, rfl, rfl⟩

@[simp] lemma config_wgPeerPut (d : Device) (x : Option PeerId) :
    (wgPeerPut d x).config = d.config := by
  cases x
  · rfl
  · exact Device.config_updPeer _ _ fun _ => ⟨rfl, rfl, rfl⟩

@[simp] lemma wgPeerGet_updateGen (d : Device) (x : Option PeerId) :
    (wgPeerGet d x).updateGen = d.updateGen := by
  cases x <;> rfl

@[simp] lemma wgPeerPut_updateGen (d : Device) (x : Option PeerId) :
    (wgPeerPut d x).updateGen = d.updateGen := by
  cases x <;> rfl

@[simp] lemma Device.config_withRefcnt (d : Device) (n : Nat) :
    ({ d with refcnt := n } : Device).config = d.config := rfl

/-- The device after a message: a reference taken on the new cursor peer when the dump goes on,
and the one on the old cursor peer dropped. -/
lemma dumpFinish_wg (d : Device) (cb : Cb) (ret : Int) (done : Bool) (next : Option PeerId)
    (rt : Option AllowedIpsCursor) (hdr : Nat) (skb : Skb) :
    (dumpFinish d cb ret done next rt hdr skb).2.2.2 =
      wgPeerPut (wgPeerGet d (if ret = 0 ∧ done = false then next else none)) cb.peer := by
  simp only [dumpFinish]
  split_ifs <;> rfl

@[simp] lemma dumpFinish_seq (d : Device) (cb : Cb) (ret : Int) (done : Bool)
    (next : Option PeerId) (rt : Option AllowedIpsCursor) (hdr : Nat) (skb : Skb) :
    (dumpFinish d cb ret done next rt hdr skb).2.2.1.seq = cb.seq := by
  simp only [dumpFinish]
  split_ifs <;> rfl

/-- Every message ends in `dumpFinish`, with the callback stamped with the device's generation
(`cb->seq = wg->device_update_gen`), the result `0` or `-EMSGSIZE`, and the cursor the one the dump
had or an allocated one. -/
lemma getDeviceDump_cases {c : Caller} {d : Device} {cb : Cb} {skb : Skb}
    {r : Int × Skb × Cb × Device} (h : getDeviceDump c d cb skb = some r) :
    ∃ prev ret done next rt hdr skb',
      r = dumpFinish d { cb with seq := d.updateGen, prevSeq := prev } ret done next rt hdr skb' ∧
        (ret = 0 ∨ ret = -EMSGSIZE) ∧ (rt = cb.rtCursor ∨ ∃ x, rt = some x) := by
  unfold getDeviceDump at h
  split at h
  · cases h; exact ⟨_, _, _, _, _, _, _, rfl, .inr rfl, .inl rfl⟩
  · dsimp only at h
    split at h
    · cases h; exact ⟨_, _, _, _, _, _, _, rfl, .inr rfl, .inl rfl⟩
    · split at h
      · cases h; exact ⟨_, _, _, _, _, _, _, rfl, .inl rfl, .inl rfl⟩
      · obtain ⟨st, -, rfl⟩ := Option.map_eq_some'.1 h
        exact ⟨_, _, _, _, _, _, _, rfl, .inl rfl, .inr ⟨_, rfl⟩⟩

/-- A message changes the device only in the references of two peers. -/
lemma getDeviceDump_wg {c : Caller} {d : Device} {cb : Cb} {skb : Skb}
    {r : Int × Skb × Cb × Device} (h : getDeviceDump c d cb skb = some r) :
    ∃ x, r.2.2.2 = wgPeerPut (wgPeerGet d x) cb.peer := by
  obtain ⟨_, _, _, _, _, _, _, rfl, -⟩ := getDeviceDump_cases h
  exact ⟨_, dumpFinish_wg ..⟩

/-- A message is stamped with the generation of the device it reads. -/
lemma getDeviceDump_seq {c : Caller} {d : Device} {cb : Cb} {skb : Skb}
    {r : Int × Skb × Cb × Device} (h : getDeviceDump c d cb skb = some r) :
    r.2.2.1.seq = d.updateGen := by
  obtain ⟨_, _, _, _, _, _, _, rfl, -⟩ := getDeviceDump_cases h
  exact dumpFinish_seq ..

/-- The start of a dump changes the device at most by the reference it takes. -/
lemma getDeviceStart_wg (env : Env) (c : Caller) (buf : Bytes) (w : World) :
    (getDeviceStart env c buf w).2.2.wg = w.wg ∨
      (getDeviceStart env c buf w).2.2.wg = { w.wg with refcnt := w.wg.refcnt + 1 } := by
  simp only [getDeviceStart]
  split
  · exact .inl rfl
  · split
    · exact .inl rfl
    · rename_i n w₁ h₁
      have hw := getAttrNet_wg h₁
      split
      · exact .inl (by simpa using hw)
      · split
        · exact .inl (by simpa using hw)
        · split
          · exact .inl (by simpa using hw)
          · rename_i w₂ h₂
            exact .inr (by simp [lookupInterface_wg h₂, hw, World.alloc])

/-- A dump that starts well holds the device and a cleared cursor, and no peer. -/
lemma getDeviceStart_ok {env : Env} {c : Caller} {buf : Bytes} {w : World}
    (h : (getDeviceStart env c buf w).1 = 0) :
    (getDeviceStart env c buf w).2.1 = { Cb.init with wg := true, rtCursor := some {} } := by
  revert h
  simp only [getDeviceStart]
  split
  · rename_i e he; intro h; exact absurd h (nlaParseAttrs_error he).ne
  · split
    · rename_i e he; intro h; exact absurd h (getAttrNet_error_neg he).ne
    · split
      · intro h; exact absurd h (by simp [EPERM])
      · split
        · intro h; exact absurd h (by simp [ENOMEM])
        · split
          · rename_i e he; intro h; exact absurd h (lookupInterface_error_neg he).ne
          · intro; rfl

@[simp] lemma getDeviceDone_wg (cb : Cb) (w : World) :
    (getDeviceDone cb w).wg =
      wgPeerPut (if cb.wg then { w.wg with refcnt := w.wg.refcnt - 1 } else w.wg) cb.peer := rfl

/-- Every event but a request that takes the update lock keeps the configuration and the
generation. -/
theorem Sys.step_frame {env : Env} {s s' : Sys} {e : Event} (h : s.step env e = some s')
    (hl : e.takesLock s.w = false) :
    s'.w.wg.config = s.w.wg.config ∧ s'.w.wg.updateGen = s.w.wg.updateGen := by
  cases e with
  | setDevice c buf =>
    cases h
    rw [genlSetDevice_wg_of_not_takesLock env c buf s.w hl]
    exact ⟨rfl, rfl⟩
  | dumpStart c buf =>
    simp only [Sys.step] at h
    split at h
    · cases h
    · cases h
      rcases getDeviceStart_wg env c buf s.w with hw | hw <;> rw [hw] <;> exact ⟨rfl, rfl⟩
  | dumpNext c cap =>
    simp only [Sys.step] at h
    split at h
    · cases h
    · obtain ⟨r, hr, rfl⟩ := Option.map_eq_some'.1 h
      obtain ⟨x, hx⟩ := getDeviceDump_wg hr
      split
      · simp [hx]
      · simp only [getDeviceDone_wg, hx]
        split_ifs <;> exact ⟨by simp only [config_wgPeerPut, config_wgPeerGet,
          Device.config_withRefcnt], by simp⟩
  | dumpAbandon =>
    simp only [Sys.step] at h
    split at h
    · cases h
    · cases h
      simp only [getDeviceDone_wg]
      split_ifs <;> exact ⟨by simp only [config_wgPeerPut, Device.config_withRefcnt], by simp⟩
  | traffic p rx tx hs ep =>
    cases h
    exact ⟨Device.config_updPeer _ _ fun _ => ⟨rfl, rfl, rfl⟩, rfl⟩

/-- Every event advances the generation by one when it is a request that takes the update lock,
and leaves it otherwise. -/
theorem Sys.step_updateGen {env : Env} {s s' : Sys} {e : Event} (h : s.step env e = some s') :
    s'.w.wg.updateGen = s.w.wg.updateGen + if e.takesLock s.w then 1 else 0 := by
  cases hl : e.takesLock s.w
  · rw [(Sys.step_frame h hl).2]; simp
  · cases e with
    | setDevice c buf => cases h; exact (genlSetDevice_updateGen env c buf s.w).trans (by rw [← hl]; rfl)
    | _ => cases hl

end WireGuardNetlink
