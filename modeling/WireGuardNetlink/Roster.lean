import WireGuardNetlink.Events

/-!
# The peer roster

The invariant `set_peer` and the key change keep between them (`Roster`): the peers have
distinct public keys, and none has the device's own public key while the device has an identity.
A peer block only creates a peer for a key the lookup did not find and that is not the device's
own (`setPeerHold_ok`), and otherwise only drops peers; the key change first removes the peer
with the new public key, and every other step keeps the keys and the identity. So every request
keeps the invariant, whatever block it stops at, and so does every other event
(`Sys.step_frame`); it holds in every state reachable from a device with no peers
(`roster_of_reach`).
-/

namespace WireGuardNetlink

/-- The peers of a device have distinct keys, none of them the device's own public key while it
has an identity. -/
structure Roster (d : Device) : Prop where
  nodup_keys : d.keys.Nodup
  not_self : d.identity.hasIdentity = true → d.identity.staticPublic ∉ d.keys

namespace Roster

variable {d d' : Device}

lemma of_nil (h : d.peers = []) : Roster d := by
  have hk : d.keys = [] := by simp [Device.keys, h]
  exact ⟨hk ▸ List.nodup_nil, fun _ => hk ▸ List.not_mem_nil _⟩

/-- Dropping peers keeps the invariant. -/
lemma of_sublist (h : Roster d) (hid : d'.identity = d.identity)
    (hk : List.Sublist d'.keys d.keys) : Roster d' :=
  ⟨h.nodup_keys.sublist hk, fun hi hs => h.not_self (hid ▸ hi) (hk.subset (hid ▸ hs))⟩

/-- So does appending a key that is neither a member's nor the device's own. -/
lemma of_append {k : Key} (h : Roster d) (hid : d'.identity = d.identity)
    (hk : d'.keys = d.keys ++ [k]) (hnew : k ∉ d.keys)
    (hself : ¬(d.identity.hasIdentity = true ∧ k = d.identity.staticPublic)) : Roster d' := by
  refine ⟨?_, fun hi hs => ?_⟩
  · rw [hk]; exact h.nodup_keys.append (List.nodup_singleton k) (by simpa using hnew)
  · rw [hk, List.mem_append, List.mem_singleton] at hs
    rw [hid] at hi hs
    exact hs.elim (h.not_self hi) fun he => hself ⟨hi, he.symm⟩

/-- The invariant reads only the configuration. -/
lemma of_config (h : Roster d) (hc : d'.config = d.config) : Roster d' :=
  h.of_sublist (by rw [Device.identity_eq_config, hc]; rfl)
    (by rw [Device.keys_eq_config, hc, ← Device.keys_eq_config])

end Roster

section Request

variable (env : Env)

/-- A peer block keeps the invariant. -/
lemma setPeer_roster (buf : Bytes) (tb : AttrTable) (w : World) (h : Roster w.wg) :
    Roster (setPeer env buf tb w).2.2.wg := by
  rcases setPeerApply_cases env buf tb w with ⟨e, w', he, hwg, -⟩ | ⟨pk, psk, flags, p, w₁, hh, he⟩
  · simpa [setPeer, he, hwg] using h
  · obtain ⟨hhead, hkeys⟩ := setPeerHold_ok hh
    have h₁ : Roster w₁.wg := by
      have hid : w₁.wg.identity = w.wg.identity := by
        rw [Device.identity_eq_head, hhead]; rfl
      rcases hkeys with hk | ⟨hnew, hself, hk⟩
      · exact h.of_sublist hid (hk ▸ List.Sublist.refl _)
      · exact h.of_append hid hk hnew hself
    obtain ⟨hu, hs⟩ := setPeerUpdate_head_keys env buf tb flags psk p w₁
    simp only [setPeer, he]
    exact h₁.of_sublist (by simp [Device.identity_eq_head, hu]) (by simpa using hs)

lemma applyPeerBlocks_roster (l : List Nlattr) (buf : Bytes) (w : World) (h : Roster w.wg) :
    Roster (applyPeerBlocks env l buf w).2.2.wg := by
  induction l generalizing buf w with
  | nil => exact h
  | cons a l ih =>
    have ha : Roster (setDevicePeer env a buf w).2.2.wg := by
      unfold setDevicePeer
      split
      · exact h
      · exact setPeer_roster env _ _ _ h
    simp only [applyPeerBlocks]
    split
    · exact ha
    · exact ih _ _ ha

/-- The public key an identity is derived with does not depend on the key it had before. -/
lemma staticPublic_of_hasIdentity (c : Curve25519) (si : StaticIdentity) (k : Key)
    (h : (wgNoiseSetStaticIdentityPrivateKey c si k).hasIdentity = true) :
    (curve25519GeneratePublic c Key.zero k).2 = true ∧
      (wgNoiseSetStaticIdentityPrivateKey c si k).staticPublic =
        (curve25519GeneratePublic c Key.zero k).1 := by
  simp only [wgNoiseSetStaticIdentityPrivateKey, curve25519GeneratePublic] at h ⊢
  by_cases hk : k = Key.zero
  · simp [hk] at h
  · simp only [hk, if_false] at h ⊢
    exact ⟨h, trivial⟩

/-- The key change keeps the invariant: it only drops peers, and drops the one with the new
public key. -/
lemma setPrivateKey_roster (k : Key) (w : World) (h : Roster w.wg) :
    Roster (setPrivateKey env k w).wg := by
  have hpeers := setPrivateKey_peers env k w h.nodup_keys
  have hkeys : (setPrivateKey env k w).wg.keys =
      (setPrivateKey env k w).wg.peers.map fun p => (w.wg.objs p).remoteStatic := by
    simp [Device.keys]
  have hsub : List.Sublist (setPrivateKey env k w).wg.keys w.wg.keys := by
    rw [hkeys, hpeers]
    exact (((List.filter_sublist _).trans (List.filter_sublist _))).map _
  refine ⟨h.nodup_keys.sublist hsub, fun hi hs => ?_⟩
  rw [setPrivateKey_identity] at hi hs
  obtain ⟨hpub, hsp⟩ := staticPublic_of_hasIdentity env.curve _ k hi
  rw [hkeys, hpeers, hsp] at hs
  obtain ⟨p, hp, hpk⟩ := List.mem_map.1 hs
  have := (List.mem_filter.1 (List.mem_filter.1 hp).1).2
  simp [hpub, hpk] at this

/-- The device-level steps keep the invariant. -/
lemma setDeviceConfig_roster (c : Caller) (attrs : AttrTable) (buf : Bytes) (w : World)
    (h : Roster w.wg) : Roster (setDeviceConfig env c attrs buf w).2.wg := by
  have hmark : ∀ v : World, Roster v.wg → Roster (setFwmark attrs buf v).wg := fun v hv => by
    obtain ⟨m, hm⟩ := setFwmark_wg attrs buf v
    rw [hm]; exact hv.of_sublist rfl (List.Sublist.refl _)
  have hsock : ∀ v : World, Roster v.wg → Roster (setSocket env c attrs buf v).2.wg := fun v hv => by
    obtain ⟨port, net, hs⟩ := setSocket_wg env c attrs buf v
    rw [hs]; exact hv.of_sublist rfl (List.Sublist.refl _)
  have hreplace : ∀ v : World, Roster v.wg → Roster (replacePeers attrs buf v).wg := fun v hv => by
    rcases replacePeers_wg attrs buf v with hr | hr <;> rw [hr]
    · exact hv
    · exact hv.of_sublist (by rw [Device.identity_eq_head, (wgPeerRemoveAll_head_keys _).1]; rfl)
        (wgPeerRemoveAll_head_keys _).2
  have hkey : ∀ v : World, Roster v.wg → Roster (setPrivateKeyAttr env attrs buf v).wg :=
    fun v hv => by
      rcases setPrivateKeyAttr_cases env attrs buf v with hk | ⟨k, hk⟩ <;> rw [hk]
      · exact hv
      · exact setPrivateKey_roster env k v hv
  have h₁ := hsock _ (hmark { w with wg := { w.wg with updateGen := w.wg.updateGen + 1 } }
    (h.of_sublist rfl (List.Sublist.refl _)))
  simp only [setDeviceConfig]
  split
  · exact h₁
  · exact hkey _ (hreplace _ h₁)

/-- A request keeps the invariant, whichever step it stops at. -/
lemma genlSetDevice_roster (c : Caller) (buf : Bytes) (w : World) (h : Roster w.wg) :
    Roster (genlSetDevice env c buf w).2.2.wg := by
  unfold genlSetDevice
  cases hp : nlaParse buf WGDEVICE_A_MAX devicePolicy 0 buf.length with
  | error e => exact h
  | ok attrs =>
    dsimp only
    cases hl : setDeviceLookup c attrs buf w with
    | error r =>
      obtain ⟨e, w'⟩ := r
      rw [setDevice_of_error hl, setDeviceLookup_wg.1 e w' hl]; exact h
    | ok r =>
      obtain ⟨n, w'⟩ := r
      have hw' : Roster w'.wg := by
        rw [setDeviceLookup_wg.2 n w' hl]; exact h.of_sublist rfl (List.Sublist.refl _)
      have hc := setDeviceConfig_roster env c attrs buf w' hw'
      have hlocked : Roster (setDeviceLocked env c attrs buf w').2.2.wg := by
        simp only [setDeviceLocked]
        split
        · exact hc
        · split
          · rw [setDevicePeers_eq]; exact applyPeerBlocks_roster env _ _ _ hc
          · exact hc
      rw [setDevice_of_ok hl, World.putNet_wg]
      exact hlocked.of_sublist rfl (List.Sublist.refl _)

end Request

/-- Every event keeps the invariant. -/
lemma Sys.step_roster {env : Env} {s s' : Sys} {e : Event} (h : s.step env e = some s')
    (hr : Roster s.w.wg) : Roster s'.w.wg := by
  cases hl : e.takesLock s.w
  · exact hr.of_config (Sys.step_frame h hl).1
  · cases e with
    | setDevice c buf => cases h; exact genlSetDevice_roster env c buf s.w hr
    | _ => cases hl

/-- In every state reachable from a device with no peers, by requests that succeed or fail at
any point and by every other event, the peers have distinct public keys, and none has the
device's own public key while the device has an identity. -/
theorem roster_of_reach {env : Env} {s₀ s : Sys} (h₀ : s₀.w.wg.peers = [])
    (h : Sys.Reach env s₀ s) :
    s.w.wg.keys.Nodup ∧
      (s.w.wg.identity.hasIdentity = true → s.w.wg.identity.staticPublic ∉ s.w.wg.keys) := by
  have hr : Roster s.w.wg := by
    induction h with
    | refl => exact Roster.of_nil h₀
    | step _ hs ih => exact Sys.step_roster hs ih
  exact ⟨hr.nodup_keys, hr.not_self⟩

/-- The roster law after a request that adds a peer to a new device. -/
theorem roster_of_reach_after_request :
    let env := Env.reliable ⟨fun s _ => s, Key.zero⟩
    let s₀ : Sys := ⟨World.init (Device.create 1 [119] 0), none⟩
    let buf := nlaEncode [(WGDEVICE_A_IFINDEX, u32Bytes 1),
      (WGDEVICE_A_PEERS, nlaEncode [(0, nlaEncode [(WGPEER_A_PUBLIC_KEY, List.replicate 32 1)])])]
    let s : Sys := ⟨(genlSetDevice env (Caller.admin 0) buf s₀.w).2.2, none⟩
    (s₀.w.wg.peers = [] ∧ Sys.Reach env s₀ s) ∧ s.w.wg.keys.Nodup := by
  intro env s₀ buf s
  have h : Sys.Reach env s₀ s :=
    @Sys.Reach.step env s₀ s₀ s (.setDevice (Caller.admin 0) buf) .refl rfl
  exact ⟨⟨rfl, h⟩, (roster_of_reach rfl h).1⟩

end WireGuardNetlink
