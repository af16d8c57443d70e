import WireGuardNetlink.Set

/-!
# The key change

The `WGDEVICE_A_PRIVATE_KEY` step of `set_device` (`setPrivateKey`): the identity it installs,
which peers it removes, and the `list_for_each_entry_safe` loop that redoes every peer's
static-static precomputation and unlinks the peer it stands on when that fails. The loop still
visits every peer of the list once and in order (`listForEachEntrySafe_eq`), so the peers left
are the old ones in their order, less the peer with the device's new public key and those whose
precomputation fails, and each holds a precomputation made with the new identity.
-/

namespace WireGuardNetlink

/-- Dropping the first member with a key, when the keys are distinct, drops every member with
that key. -/
lemma elim_find?_erase {l : List PeerId} {key : PeerId → Key} {k : Key} (hk : (l.map key).Nodup) :
    (l.find? fun q => key q = k).elim l l.erase = l.filter fun q => !decide (key q = k) := by
  induction l with
  | nil => rfl
  | cons q r ih =>
    obtain ⟨hq, hr⟩ := List.nodup_cons.1 hk
    by_cases hkq : key q = k
    · have hrest : ∀ x ∈ r, key x ≠ k := fun x hx he =>
        hq (List.mem_map.2 ⟨x, hx, he.trans hkq.symm⟩)
      simp only [List.find?_cons, hkq, decide_True, Option.elim, List.erase_cons_head,
        List.filter_cons, Bool.not_true]
      exact (List.filter_eq_self.2 fun x hx => by simpa using hrest x hx).symm
    · have hne : ∀ p, r.find? (fun q => key q = k) = some p → q ≠ p := fun p hp he => by
        have : key p = k := by simpa using List.find?_some hp
        exact hkq (he ▸ this)
      simp only [List.find?_cons, hkq, decide_False, List.filter_cons, Bool.not_false,
        if_true, ← ih hr]
      cases h : r.find? fun q => key q = k with
      | none => rfl
      | some p => simp [List.erase_cons, hne p h, Option.elim]

section Rotation

variable (env : Env)

/-- Whether the static-static precomputation with a peer key succeeds under an identity. -/
def precomputeOk (si : StaticIdentity) (k : Key) : Bool :=
  (wgNoisePrecomputeStaticStatic env.curve si k).2

lemma precomputeOrRemove_peers (w : World) (p : PeerId) :
    (precomputeOrRemove env w p).wg.peers =
      if precomputeOk env w.wg.identity (w.wg.objs p).remoteStatic then w.wg.peers
      else w.wg.peers.erase p := by
  simp only [precomputeOrRemove, precomputeOk]
  split <;> simp [*]

@[simp] lemma precomputeOrRemove_identity (w : World) (p : PeerId) :
    (precomputeOrRemove env w p).wg.identity = w.wg.identity := by
  simp only [precomputeOrRemove]; split <;> rfl

@[simp] lemma precomputeOrRemove_remoteStatic (w : World) (p q : PeerId) :
    ((precomputeOrRemove env w p).wg.objs q).remoteStatic = (w.wg.objs q).remoteStatic := by
  simp only [precomputeOrRemove]
  split <;> by_cases h : q = p <;> simp [Device.updPeer, h]

lemma precomputeOrRemove_precomputed (w : World) (p q : PeerId) :
    ((precomputeOrRemove env w p).wg.objs q).precomputedStaticStatic =
      if q = p then (wgNoisePrecomputeStaticStatic env.curve w.wg.identity (w.wg.objs p).remoteStatic).1
      else (w.wg.objs q).precomputedStaticStatic := by
  simp only [precomputeOrRemove]
  split <;> by_cases h : q = p <;> simp [Device.updPeer, h]

/-- The loop keeps the identity. -/
lemma foldl_precomputeOrRemove_identity (l : List PeerId) (w : World) :
    (l.foldl (precomputeOrRemove env) w).wg.identity = w.wg.identity := by
  induction l generalizing w with
  | nil => rfl
  | cons p l ih => rw [List.foldl_cons, ih, precomputeOrRemove_identity]

/-- The loop keeps every peer's key. -/
lemma foldl_precomputeOrRemove_remoteStatic (l : List PeerId) (w : World) (q : PeerId) :
    ((l.foldl (precomputeOrRemove env) w).wg.objs q).remoteStatic = (w.wg.objs q).remoteStatic := by
  induction l generalizing w with
  | nil => rfl
  | cons p l ih => rw [List.foldl_cons, ih, precomputeOrRemove_remoteStatic]

/-- The loop over the peers after `done` keeps those whose precomputation succeeds. -/
lemma foldl_precomputeOrRemove_peers (l done : List PeerId) (w : World)
    (h : w.wg.peers = done ++ l) (hnd : (done ++ l).Nodup) :
    (l.foldl (precomputeOrRemove env) w).wg.peers =
      done ++ l.filter fun p => precomputeOk env w.wg.identity (w.wg.objs p).remoteStatic := by
  induction l generalizing done w with
  | nil => simpa using h
  | cons p l ih =>
    have hp : p ∉ done := fun hd => (List.nodup_middle.1 hnd |> List.nodup_cons.1).1
      (List.mem_append_left _ hd)
    rw [List.foldl_cons, List.filter_cons]
    by_cases hok : precomputeOk env w.wg.identity (w.wg.objs p).remoteStatic = true
    · have := ih (done ++ [p]) (precomputeOrRemove env w p)
        (by rw [precomputeOrRemove_peers, if_pos hok, h]; simp) (by simpa using hnd)
      simpa [hok] using this
    · have := ih done (precomputeOrRemove env w p)
        (by rw [precomputeOrRemove_peers, if_neg hok, h, List.erase_append_right _ hp,
          List.erase_cons_head])
        (List.nodup_middle.1 hnd).of_cons
      simpa [hok] using this

/-- After the loop, every peer it visited holds the precomputation with the identity. -/
lemma foldl_precomputeOrRemove_precomputed (l : List PeerId) (w : World) (hnd : l.Nodup)
    (q : PeerId) : ((l.foldl (precomputeOrRemove env) w).wg.objs q).precomputedStaticStatic =
      if q ∈ l then (wgNoisePrecomputeStaticStatic env.curve w.wg.identity (w.wg.objs q).remoteStatic).1
      else (w.wg.objs q).precomputedStaticStatic := by
  induction l generalizing w with
  | nil => simp
  | cons p l ih =>
    obtain ⟨hpl, hl⟩ := List.nodup_cons.1 hnd
    rw [List.foldl_cons, ih _ hl, precomputeOrRemove_identity, precomputeOrRemove_remoteStatic,
      precomputeOrRemove_precomputed]
    by_cases hq : q = p
    · subst hq; simp [hpl]
    · by_cases hql : q ∈ l <;> simp [hq, hql]

/-- The `list_for_each_entry_safe` loop of the key change runs its body on every peer of the
list it starts from, once and in order, although the body unlinks the peer it stands on. -/
lemma precomputeLoop_eq (w : World) :
    listForEachEntrySafe (fun w : World => w.wg.peers) (precomputeOrRemove env)
        (w.wg.peers.length + 1) (listNext w.wg.peers .head) w =
      some (w.wg.peers.foldl (precomputeOrRemove env) w) := by
  rw [listNext_head]
  exact listForEachEntrySafe_eq _ _
    (fun s p => by rw [precomputeOrRemove_peers]; split <;> simp)
    w.wg.peers [] w _ rfl w.wg.nodup_peers (Nat.lt_succ_self _)

lemma precomputeAll_eq (w : World) :
    precomputeAll env w = w.wg.peers.foldl (precomputeOrRemove env) w := by
  rw [precomputeAll, precomputeLoop_eq, Option.getD_some]

@[simp] lemma removeCollidingPeer_identity (k : Key) (w : World) :
    (removeCollidingPeer env k w).wg.identity = w.wg.identity := by
  simp only [removeCollidingPeer, wgPubkeyHashtableLookup]
  split
  · cases (w.wg.peers.find? _) <;> simp
  · rfl

@[simp] lemma removeCollidingPeer_remoteStatic (k : Key) (w : World) (q : PeerId) :
    ((removeCollidingPeer env k w).wg.objs q).remoteStatic = (w.wg.objs q).remoteStatic := by
  simp only [removeCollidingPeer, wgPubkeyHashtableLookup]
  split
  · cases (w.wg.peers.find? _) <;> simp
  · rfl

/-- With distinct keys, the peer the key change removes first is the one, if any, whose key is
the derived public key. -/
lemma removeCollidingPeer_peers (k : Key) (w : World) (hkeys : w.wg.keys.Nodup) :
    (removeCollidingPeer env k w).wg.peers =
      w.wg.peers.filter fun p =>
        !((curve25519GeneratePublic env.curve Key.zero k).2 &&
          decide ((w.wg.objs p).remoteStatic = (curve25519GeneratePublic env.curve Key.zero k).1)) := by
  simp only [removeCollidingPeer, wgPubkeyHashtableLookup]
  split
  · rename_i hpub
    simp only [hpub, Bool.true_and]
    rw [← elim_find?_erase hkeys]
    cases w.wg.peers.find? _ <;> simp
  · rename_i hpub
    simp [hpub]

lemma precomputeAll_identity (v : World) :
    (precomputeAll env v).wg.identity = v.wg.identity := by
  rw [precomputeAll_eq]; exact foldl_precomputeOrRemove_identity env _ _

lemma precomputeAll_remoteStatic (v : World) (q : PeerId) :
    ((precomputeAll env v).wg.objs q).remoteStatic = (v.wg.objs q).remoteStatic := by
  rw [precomputeAll_eq]; exact foldl_precomputeOrRemove_remoteStatic env _ _ q

lemma precomputeAll_peers (v : World) :
    (precomputeAll env v).wg.peers =
      v.wg.peers.filter fun p => precomputeOk env v.wg.identity (v.wg.objs p).remoteStatic := by
  rw [precomputeAll_eq]; exact foldl_precomputeOrRemove_peers env _ [] v rfl v.wg.nodup_peers

lemma precomputeAll_precomputed (v : World) (p : PeerId) (hp : p ∈ v.wg.peers) :
    ((precomputeAll env v).wg.objs p).precomputedStaticStatic =
      (wgNoisePrecomputeStaticStatic env.curve v.wg.identity (v.wg.objs p).remoteStatic).1 := by
  rw [precomputeAll_eq, foldl_precomputeOrRemove_precomputed env _ v v.wg.nodup_peers, if_pos hp]

lemma setPrivateKey_identity (k : Key) (w : World) :
    (setPrivateKey env k w).wg.identity =
      wgNoiseSetStaticIdentityPrivateKey env.curve w.wg.identity k := by
  simp only [setPrivateKey, wgCookieCheckerPrecomputeDeviceKeys, precomputeAll_identity,
    removeCollidingPeer_identity]

@[simp] lemma setPrivateKey_remoteStatic (k : Key) (w : World) (q : PeerId) :
    ((setPrivateKey env k w).wg.objs q).remoteStatic = (w.wg.objs q).remoteStatic := by
  simp only [setPrivateKey, wgCookieCheckerPrecomputeDeviceKeys, precomputeAll_remoteStatic,
    removeCollidingPeer_remoteStatic]

/-- The peers left by the key change: the old ones in their order, less the peer with the
derived public key and those whose precomputation with the new identity fails. -/
lemma setPrivateKey_peers (k : Key) (w : World) (hkeys : w.wg.keys.Nodup) :
    (setPrivateKey env k w).wg.peers =
      (w.wg.peers.filter fun p => !((curve25519GeneratePublic env.curve Key.zero k).2 &&
          decide ((w.wg.objs p).remoteStatic = (curve25519GeneratePublic env.curve Key.zero k).1))).filter
        fun p => precomputeOk env (wgNoiseSetStaticIdentityPrivateKey env.curve w.wg.identity k)
          (w.wg.objs p).remoteStatic := by
  simp only [setPrivateKey, wgCookieCheckerPrecomputeDeviceKeys, precomputeAll_peers,
    removeCollidingPeer_peers env k w hkeys, removeCollidingPeer_identity,
    removeCollidingPeer_remoteStatic]

/-- Every peer left holds the precomputation made with the new identity. -/
lemma setPrivateKey_precomputed (k : Key) (w : World) (p : PeerId)
    (hp : p ∈ (setPrivateKey env k w).wg.peers) :
    ((setPrivateKey env k w).wg.objs p).precomputedStaticStatic =
      (wgNoisePrecomputeStaticStatic env.curve
        (wgNoiseSetStaticIdentityPrivateKey env.curve w.wg.identity k) (w.wg.objs p).remoteStatic).1 := by
  simp only [setPrivateKey, wgCookieCheckerPrecomputeDeviceKeys, precomputeAll_peers,
    List.mem_filter] at hp
  simp only [setPrivateKey, wgCookieCheckerPrecomputeDeviceKeys]
  rw [precomputeAll_precomputed env _ p]
  · simp only [removeCollidingPeer_identity, removeCollidingPeer_remoteStatic]
  · exact hp.1

/-- The key change installs the clamped key, with an identity exactly when a public key can be
derived from it. It leaves the old peers in their order, less the peer whose key is the derived
public key and those whose precomputation with the new identity fails; its loop runs on every
peer of the list it starts from once and in order; and every peer left keeps its key and holds
the precomputation made with the new identity. -/
theorem setPrivateKey_rotation (k : Key) (w : World) (hkeys : w.wg.keys.Nodup) :
    let pub := curve25519GeneratePublic env.curve Key.zero k
    let w' := setPrivateKey env k w
    w'.wg.identity = wgNoiseSetStaticIdentityPrivateKey env.curve w.wg.identity k ∧
    w'.wg.identity.staticPrivate = k.clamp ∧
    (w'.wg.identity.hasIdentity = true ↔
      k ≠ Key.zero ∧ env.curve.ladder k.clamp env.curve.basepoint ≠ Key.zero) ∧
    w'.wg.peers = (w.wg.peers.filter fun p =>
        !(pub.2 && decide ((w.wg.objs p).remoteStatic = pub.1))).filter (fun p =>
          precomputeOk env w'.wg.identity (w.wg.objs p).remoteStatic) ∧
    (∀ v : World, listForEachEntrySafe (fun w : World => w.wg.peers) (precomputeOrRemove env)
        (v.wg.peers.length + 1) (listNext v.wg.peers .head) v =
      some (v.wg.peers.foldl (precomputeOrRemove env) v)) ∧
    ∀ p ∈ w'.wg.peers, (w'.wg.objs p).remoteStatic = (w.wg.objs p).remoteStatic ∧
      (w'.wg.objs p).precomputedStaticStatic =
        (wgNoisePrecomputeStaticStatic env.curve w'.wg.identity (w.wg.objs p).remoteStatic).1 := by
  intro pub w'
  have hid := setPrivateKey_identity env k w
  refine ⟨hid, by rw [hid]; rfl, ?_, by rw [hid]; exact setPrivateKey_peers env k w hkeys,
    precomputeLoop_eq env, fun p hp => ⟨setPrivateKey_remoteStatic env k w p, ?_⟩⟩
  · rw [hid]
    simp only [wgNoiseSetStaticIdentityPrivateKey, curve25519GeneratePublic, curve25519]
    by_cases hk : k = Key.zero <;> simp [hk]
  · rw [hid]; exact setPrivateKey_precomputed env k w p hp

end Rotation

/-- The key change on a device with three peers: the first holds the public key the new private
key derives, the precomputation of the second with the new identity fails, and the third is
another. The colliding peer goes before the loop, the loop unlinks the second while it stands on
it, and only the third is left; the device has an identity. -/
theorem setPrivateKey_rotation_collision :
    let bad : Key := ⟨List.replicate 32 9, rfl⟩
    let env := Env.reliable ⟨fun s p => if p = bad then Key.zero else s, Key.zero⟩
    let k : Key := ⟨List.replicate 32 3, rfl⟩
    let w := World.init { Device.create 1 [119] 0 with
      peers := [0, 1, 2]
      objs := fun p => { Peer.blank with
        remoteStatic := if p = 0 then k.clamp else if p = 1 then bad else ⟨List.replicate 32 1, rfl⟩
        refcount := 1 }
      nextPeer := 3
      nodup_peers := by decide
      lt_nextPeer := by decide }
    w.wg.keys.Nodup ∧ (setPrivateKey env k w).wg.peers = [2] ∧
      (setPrivateKey env k w).wg.identity.hasIdentity = true := by
  intro bad env k w
  have hkeys : w.wg.keys.Nodup := by decide
  have h := setPrivateKey_rotation env k w hkeys
  refine ⟨hkeys, ?_, h.2.2.1.2 ⟨by decide, by decide⟩⟩
  rw [h.2.2.2.1, h.1]
  decide

end WireGuardNetlink
