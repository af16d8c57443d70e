import WireGuardNetlink.Events

/-!
# How requests change the peer list

A request changes the peer list in two ways only: `wg_peer_remove` unlinks a peer
(`list_del_init`), and `wg_peer_create` links a new allocation at the tail (`list_add_tail`).
So the peers a device had before a request that are still linked after it keep their order, and
every other peer linked after it is a fresh allocation (`Evolves`). Every step of `set_device`
changes the list so (`genlSetDevice_evolves`), and so does every event of the system
(`Sys.step_evolves`). This is what a dump's cursor relies on between messages.
-/

namespace WireGuardNetlink

/-- From `d` to `d'` the allocation mark only grows, and the peers of `d'` allocated before it are
peers of `d`, in the same order. -/
structure Evolves (d d' : Device) : Prop where
  nextPeer_le : d.nextPeer ≤ d'.nextPeer
  old : List.Sublist (d'.peers.filter (· < d.nextPeer)) d.peers

namespace Evolves

variable {d d' d'' : Device}

lemma refl (d : Device) : Evolves d d := by
  refine ⟨le_rfl, ?_⟩
  rw [List.filter_eq_self.2 fun p hp => by simpa using d.lt_nextPeer p hp]

lemma trans (h₁ : Evolves d d') (h₂ : Evolves d' d'') : Evolves d d'' := by
  refine ⟨h₁.nextPeer_le.trans h₂.nextPeer_le, ?_⟩
  have hf : d''.peers.filter (· < d.nextPeer) =
      (d''.peers.filter (· < d'.nextPeer)).filter (· < d.nextPeer) := by
    rw [List.filter_filter]
    refine List.filter_congr fun p _ => ?_
    by_cases hp : p < d.nextPeer
    · simp [hp, hp.trans_le h₁.nextPeer_le]
    · simp [hp]
  rw [hf]
  exact (h₂.old.filter _).trans h₁.old

/-- Dropping peers. -/
lemma of_sublist (h : List.Sublist d'.peers d.peers) (hn : d.nextPeer ≤ d'.nextPeer) :
    Evolves d d' :=
  ⟨hn, (List.filter_sublist _).trans h⟩

/-- Changing neither the list nor the allocation mark. -/
lemma of_eq (h : d'.peers = d.peers) (hn : d'.nextPeer = d.nextPeer) : Evolves d d' :=
  of_sublist (h ▸ List.Sublist.refl _) hn.ge

end Evolves

@[simp] lemma Device.updPeer_nextPeer (d : Device) (p : PeerId) (f : Peer → Peer) :
    (d.updPeer p f).nextPeer = d.nextPeer := rfl

@[simp] lemma wgPeerGet_nextPeer (d : Device) (p : Option PeerId) :
    (wgPeerGet d p).nextPeer = d.nextPeer := by
  cases p <;> rfl

@[simp] lemma wgPeerPut_nextPeer (d : Device) (p : Option PeerId) :
    (wgPeerPut d p).nextPeer = d.nextPeer := by
  cases p <;> rfl

@[simp] lemma wgPeerRemove_nextPeer (d : Device) (p : PeerId) :
    (wgPeerRemove d p).nextPeer = d.nextPeer := rfl

@[simp] lemma wgSocketSetPeerEndpoint_peers (d : Device) (p : PeerId) (e : Endpoint) :
    (wgSocketSetPeerEndpoint d p e).peers = d.peers := by
  unfold wgSocketSetPeerEndpoint; split_ifs <;> rfl

@[simp] lemma wgSocketSetPeerEndpoint_nextPeer (d : Device) (p : PeerId) (e : Endpoint) :
    (wgSocketSetPeerEndpoint d p e).nextPeer = d.nextPeer := by
  unfold wgSocketSetPeerEndpoint; split_ifs <;> rfl

lemma wgPeerRemove_evolves (d : Device) (p : PeerId) : Evolves d (wgPeerRemove d p) :=
  Evolves.of_sublist (List.erase_sublist p d.peers) le_rfl

/-- A new peer is a fresh allocation linked at the tail. -/
lemma Evolves.of_link {d d' : Device} (h : d'.peers = d.peers ++ [d.nextPeer])
    (hn : d'.nextPeer = d.nextPeer + 1) : Evolves d d' := by
  refine ⟨hn ▸ Nat.le_succ _, ?_⟩
  simp only [h, List.filter_append, List.filter_singleton, lt_self_iff_false, decide_False,
    cond_false, List.append_nil]
  rw [List.filter_eq_self.2 fun p hp => by simpa using d.lt_nextPeer p hp]

lemma wgPeerRemoveAll_evolves (d : Device) : Evolves d (wgPeerRemoveAll d) := by
  unfold wgPeerRemoveAll
  induction d.peers generalizing d with
  | nil => exact Evolves.refl d
  | cons p l ih => exact (wgPeerRemove_evolves d p).trans (ih _)

section Steps

variable (env : Env)

/-- The first part of the key change drops at most one peer. -/
lemma removeCollidingPeer_sublist (k : Key) (w : World) :
    List.Sublist (removeCollidingPeer env k w).wg.peers w.wg.peers ∧
      (removeCollidingPeer env k w).wg.nextPeer = w.wg.nextPeer := by
  simp only [removeCollidingPeer, wgPubkeyHashtableLookup]
  split
  · split
    · rename_i p d hd
      simp only [Prod.mk.injEq] at hd
      obtain ⟨-, rfl⟩ := hd
      exact ⟨by simpa using List.erase_sublist p w.wg.peers, by simp⟩
    · rename_i d hd
      simp only [Prod.mk.injEq] at hd
      obtain ⟨-, rfl⟩ := hd
      exact ⟨by simp, by simp⟩
  · exact ⟨List.Sublist.refl _, rfl⟩

@[simp] lemma precomputeOrRemove_nextPeer (w : World) (p : PeerId) :
    (precomputeOrRemove env w p).wg.nextPeer = w.wg.nextPeer := by
  simp only [precomputeOrRemove]; split <;> rfl

lemma precomputeAll_nextPeer (v : World) : (precomputeAll env v).wg.nextPeer = v.wg.nextPeer := by
  rw [precomputeAll_eq]
  generalize v.wg.peers = l
  induction l generalizing v with
  | nil => rfl
  | cons p l ih => rw [List.foldl_cons, ih, precomputeOrRemove_nextPeer]

@[simp] lemma wgCookieCheckerPrecomputeDeviceKeys_peers (d : Device) :
    (wgCookieCheckerPrecomputeDeviceKeys d).peers = d.peers := rfl

@[simp] lemma wgCookieCheckerPrecomputeDeviceKeys_nextPeer (d : Device) :
    (wgCookieCheckerPrecomputeDeviceKeys d).nextPeer = d.nextPeer := rfl

/-- The key change only drops peers. -/
lemma setPrivateKey_evolves (k : Key) (w : World) : Evolves w.wg (setPrivateKey env k w).wg := by
  obtain ⟨hs, hn⟩ := removeCollidingPeer_sublist env k w
  refine Evolves.of_sublist ?_ ?_
  · simp only [setPrivateKey, wgCookieCheckerPrecomputeDeviceKeys_peers, precomputeAll_peers]
    exact (List.filter_sublist _).trans hs
  · simp only [setPrivateKey, wgCookieCheckerPrecomputeDeviceKeys_nextPeer, precomputeAll_nextPeer,
      hn, le_refl]

lemma setDeviceConfig_evolves (c : Caller) (attrs : AttrTable) (buf : Bytes) (w : World) :
    Evolves w.wg (setDeviceConfig env c attrs buf w).2.wg := by
  have hmark : ∀ v : World, Evolves v.wg (setFwmark attrs buf v).wg := fun v => by
    obtain ⟨m, hm⟩ := setFwmark_wg attrs buf v
    rw [hm]; exact Evolves.of_eq rfl rfl
  have hsock : ∀ v : World, Evolves v.wg (setSocket env c attrs buf v).2.wg := fun v => by
    obtain ⟨port, net, hs⟩ := setSocket_wg env c attrs buf v
    rw [hs]; exact Evolves.of_eq rfl rfl
  have hreplace : ∀ v : World, Evolves v.wg (replacePeers attrs buf v).wg := fun v => by
    rcases replacePeers_wg attrs buf v with hr | hr <;> rw [hr]
    · exact Evolves.refl _
    · exact wgPeerRemoveAll_evolves _
  have hkey : ∀ v : World, Evolves v.wg (setPrivateKeyAttr env attrs buf v).wg := fun v => by
    rcases setPrivateKeyAttr_cases env attrs buf v with hk | ⟨k, hk⟩ <;> rw [hk]
    · exact Evolves.refl _
    · exact setPrivateKey_evolves env k v
  have h₀ : Evolves w.wg { w.wg with updateGen := w.wg.updateGen + 1 } := Evolves.of_eq rfl rfl
  have h₁ := h₀.trans <|
    (hmark { w with wg := { w.wg with updateGen := w.wg.updateGen + 1 } }).trans (hsock _)
  simp only [setDeviceConfig]
  split
  · exact h₁
  · exact h₁.trans ((hreplace _).trans (hkey _))

/-- The peer `set_peer` holds is a member or a new peer linked at the tail. -/
lemma setPeerHold_evolves {pk : Key} {psk : Option Key} {flags : UInt32} {w w' : World}
    {p : PeerId} (h : setPeerHold env pk psk flags w = .ok (p, w')) : Evolves w.wg w'.wg := by
  unfold setPeerHold wgPubkeyHashtableLookup at h
  split at h
  · rename_i q d hd
    simp only [Prod.mk.injEq] at hd
    cases h; rw [← hd.2]
    exact Evolves.of_eq (by simp) (by simp)
  · rename_i d hd
    simp only [Prod.mk.injEq] at hd
    obtain ⟨hnone, rfl⟩ := hd
    dsimp only at h
    split at h
    · cases h
    · split at h
      · cases h
      · split at h
        · cases h
        · rename_i q w₁ hc
          cases h
          unfold wgPeerCreate World.alloc at hc
          split at hc
          · cases hc
          · dsimp only at hc
            split at hc
            · cases hc
            · cases hc
              exact Evolves.of_link (by simp [Device.link, hnone]) (by simp [Device.link, hnone])

lemma setAllowedips_evolves (p : PeerId) (buf : Bytes) (as : List Nlattr) (w : World) :
    Evolves w.wg (setAllowedips env p buf as w).2.wg := by
  obtain ⟨t, ht⟩ := setAllowedips_wg env p buf as w
  rw [ht]; exact Evolves.of_eq rfl rfl

lemma setPeerUpdate_evolves (buf : Bytes) (tb : AttrTable) (flags : UInt32) (psk : Option Key)
    (p : PeerId) (w : World) : Evolves w.wg (setPeerUpdate env buf tb flags psk p w).2.wg := by
  have hconfig : Evolves w.wg (setPeerConfig buf tb flags psk p w).wg := by
    simp only [setPeerConfig]
    repeat' split
    all_goals exact Evolves.of_eq (by simp) (by simp)
  have hfinish : ∀ v : World, Evolves v.wg (setPeerFinish buf tb p v).wg := fun v => by
    simp only [setPeerFinish]
    repeat' split
    all_goals exact Evolves.of_eq (by simp) (by simp)
  have hips : Evolves w.wg (match tb WGPEER_A_ALLOWEDIPS with
      | some a => setAllowedips env p buf (nlaNested buf a) (setPeerConfig buf tb flags psk p w)
      | none => (0, setPeerConfig buf tb flags psk p w) : Int × World).2.wg := by
    split
    · exact hconfig.trans (setAllowedips_evolves env p buf _ _)
    · exact hconfig
  unfold setPeerUpdate
  split
  · exact wgPeerRemove_evolves _ p
  · dsimp only
    split
    · exact hips
    · exact hips.trans (hfinish _)

lemma setPeer_evolves (buf : Bytes) (tb : AttrTable) (w : World) :
    Evolves w.wg (setPeer env buf tb w).2.2.wg := by
  rcases setPeerApply_cases env buf tb w with ⟨e, w', he, hwg, -⟩ | ⟨pk, psk, flags, p, w₁, hh, he⟩
  · simp only [setPeer, he]
    exact Evolves.of_eq (by simp [hwg]) (by simp [hwg])
  · simp only [setPeer, he]
    exact (setPeerHold_evolves env hh).trans <|
      (setPeerUpdate_evolves env buf tb flags psk p w₁).trans (Evolves.of_eq (by simp) (by simp))

lemma applyPeerBlocks_evolves (l : List Nlattr) (buf : Bytes) (w : World) :
    Evolves w.wg (applyPeerBlocks env l buf w).2.2.wg := by
  induction l generalizing buf w with
  | nil => exact Evolves.refl _
  | cons a l ih =>
    have ha : Evolves w.wg (setDevicePeer env a buf w).2.2.wg := by
      unfold setDevicePeer
      split
      · exact Evolves.refl _
      · exact setPeer_evolves env _ _ _
    simp only [applyPeerBlocks]
    split
    · exact ha
    · exact ha.trans (ih _ _)

/-- A request changes the peer list only by dropping peers and linking fresh ones, whichever
step it stops at. -/
lemma genlSetDevice_evolves (c : Caller) (buf : Bytes) (w : World) :
    Evolves w.wg (genlSetDevice env c buf w).2.2.wg := by
  unfold genlSetDevice
  cases hp : nlaParse buf WGDEVICE_A_MAX devicePolicy 0 buf.length with
  | error e => exact Evolves.refl _
  | ok attrs =>
    dsimp only
    cases hl : setDeviceLookup c attrs buf w with
    | error r =>
      obtain ⟨e, w'⟩ := r
      rw [setDevice_of_error hl, setDeviceLookup_wg.1 e w' hl]; exact Evolves.refl _
    | ok r =>
      obtain ⟨n, w'⟩ := r
      have hw' : Evolves w.wg w'.wg := by
        rw [setDeviceLookup_wg.2 n w' hl]; exact Evolves.of_eq rfl rfl
      have hc := setDeviceConfig_evolves env c attrs buf w'
      have hlocked : Evolves w'.wg (setDeviceLocked env c attrs buf w').2.2.wg := by
        simp only [setDeviceLocked]
        split
        · exact hc
        · split
          · rw [setDevicePeers_eq]; exact hc.trans (applyPeerBlocks_evolves env _ _ _)
          · exact hc
      rw [setDevice_of_ok hl, World.putNet_wg]
      exact hw'.trans (hlocked.trans (Evolves.of_eq rfl rfl))

end Steps

@[simp] lemma getDeviceDone_nextPeer (cb : Cb) (w : World) :
    (getDeviceDone cb w).wg.nextPeer = w.wg.nextPeer := by
  simp only [getDeviceDone_wg, wgPeerPut_nextPeer]; split_ifs <;> rfl

@[simp] lemma getDeviceDone_peers (cb : Cb) (w : World) :
    (getDeviceDone cb w).wg.peers = w.wg.peers := by
  simp only [getDeviceDone_wg, wgPeerPut_peers]; split_ifs <;> rfl

/-- Every event changes the peer list only by dropping peers and linking fresh ones; all but a
request leave it as it is. -/
theorem Sys.step_evolves {env : Env} {s s' : Sys} {e : Event} (h : s.step env e = some s') :
    Evolves s.w.wg s'.w.wg ∧ (e.takesLock s.w = false → s'.w.wg.peers = s.w.wg.peers) := by
  cases e with
  | setDevice c buf =>
    cases h
    refine ⟨genlSetDevice_evolves env c buf s.w, fun hl => ?_⟩
    rw [genlSetDevice_wg_of_not_takesLock env c buf s.w hl]
  | dumpStart c buf =>
    simp only [Sys.step] at h
    split at h
    · cases h
    · cases h
      rcases getDeviceStart_wg env c buf s.w with hw | hw <;> rw [hw] <;>
        exact ⟨Evolves.of_eq rfl rfl, fun _ => rfl⟩
  | dumpNext c cap =>
    simp only [Sys.step] at h
    split at h
    · cases h
    · obtain ⟨r, hr, rfl⟩ := Option.map_eq_some'.1 h
      obtain ⟨x, hx⟩ := getDeviceDump_wg hr
      have hp : r.2.2.2.peers = s.w.wg.peers := by simp [hx]
      have hn : r.2.2.2.nextPeer = s.w.wg.nextPeer := by simp [hx]
      split
      · exact ⟨Evolves.of_eq hp hn, fun _ => hp⟩
      · have hp' := (getDeviceDone_peers r.2.2.1 { s.w with wg := r.2.2.2 }).trans hp
        exact ⟨Evolves.of_eq hp' ((getDeviceDone_nextPeer _ _).trans hn), fun _ => hp'⟩
  | dumpAbandon =>
    simp only [Sys.step] at h
    split at h
    · cases h
    · cases h
      exact ⟨Evolves.of_eq (getDeviceDone_peers _ _) (getDeviceDone_nextPeer _ _),
        fun _ => getDeviceDone_peers _ _⟩
  | traffic p rx tx hs ep =>
    cases h
    exact ⟨Evolves.of_eq rfl rfl, fun _ => rfl⟩

end WireGuardNetlink
