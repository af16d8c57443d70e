import WireGuardNetlink.References

/-!
# The references a request takes and drops

`set_device` takes a reference on the device (`lookup_interface`) and one on each namespace it
resolves (`get_attr_net`, for the device's namespace and in `set_socket` for the transit one), and
drops each of them on every exit. Inside, every reference a peer lookup takes
(`wg_pubkey_hashtable_lookup`) and the one `set_peer` adds to a new peer (`wg_peer_get` after
`wg_peer_create`) is dropped again, by `wg_peer_put` at the `out:` of `set_peer` or right after
the lookup of the key change. What moves for good is the list's reference: a removed peer loses
it, a created one keeps it while it is linked.

The request's effect on the counts is `peerRefsAfter`, read from the device before and after it.
A run of the request keeps a ledger (`Ledger`): the count of every peer is what `peerRefsAfter`
gives so far, plus the reference the step in progress holds. Each operation on the counts keeps
the ledger (`Ledger.get`, `Ledger.put`, `Ledger.remove`, `Ledger.link`), each step of the request
is one of them or changes no count (`Ledger.of_view`), and so the whole request ends with nothing
held (`genlSetDevice_refs_balanced`).
-/

namespace WireGuardNetlink

/-- What a request leaves on the count of peer `q`, read from the device before it (`d`) and
after it (`d'`): a peer allocated before loses the list's reference if the request unlinked it; a
peer the request allocated holds the list's reference while it is linked, and nothing once it was
removed again; any other object is untouched. -/
def peerRefsAfter (d d' : Device) (q : PeerId) : Nat :=
  if q < d.nextPeer then (d.objs q).refcount - (if q ∈ d.peers ∧ q ∉ d'.peers then 1 else 0)
  else if q < d'.nextPeer then (if q ∈ d'.peers then 1 else 0)
  else (d.objs q).refcount

/-- `peerRefsAfter` reads of the later device only its list and its allocation mark. -/
lemma peerRefsAfter_congr {d d₁ d₂ : Device} (hp : d₂.peers = d₁.peers)
    (hn : d₂.nextPeer = d₁.nextPeer) : peerRefsAfter d d₂ = peerRefsAfter d d₁ := by
  funext q; simp only [peerRefsAfter, hp, hn]

/-- The counts a request reads and moves: the peer list, the allocation mark, the peers' counts,
the device's count and the namespaces' counts. -/
structure RefView where
  peers : List PeerId
  nextPeer : Nat
  refcount : PeerId → Nat
  refcnt : Nat
  netRefs : NetId → Nat

/-- The counts of a world. -/
def World.refView (w : World) : RefView :=
  ⟨w.wg.peers, w.wg.nextPeer, fun q => (w.wg.objs q).refcount, w.wg.refcnt, w.netRefs⟩

/-- The ledger of a request run from `w₀` to `w` while it holds a reference on `held`: the list
changed only by removals and fresh links, every peer's count is what the request leaves on it so
far plus the reference held, and the device's and the namespaces' counts are back where they
were. -/
structure Ledger (w₀ w : World) (held : Option PeerId) : Prop where
  evolves : Evolves w₀.wg w.wg
  peer : ∀ q, (w.wg.objs q).refcount = peerRefsAfter w₀.wg w.wg q + refOn held q
  dev : w.wg.refcnt = w₀.wg.refcnt
  net : w.netRefs = w₀.netRefs

/-- A peer linked now and allocated before `d` was linked in `d` already. -/
lemma Evolves.mem_old {d d' : Device} (h : Evolves d d') {q : PeerId} (hq : q ∈ d'.peers)
    (hlt : q < d.nextPeer) : q ∈ d.peers :=
  h.old.subset (List.mem_filter.2 ⟨hq, decide_eq_true hlt⟩)

namespace Ledger

variable {w₀ w : World} {held : Option PeerId}

lemma init (w : World) : Ledger w w none where
  evolves := Evolves.refl _
  peer q := by unfold peerRefsAfter; split_ifs <;> simp_all
  dev := rfl
  net := rfl

/-- A step that changes none of the counts keeps the ledger. -/
lemma of_view {w' : World} (h : Ledger w₀ w held) (hv : w'.refView = w.refView) :
    Ledger w₀ w' held := by
  simp only [World.refView, RefView.mk.injEq] at hv
  obtain ⟨hp, hn, hrc, hdev, hnet⟩ := hv
  refine ⟨h.evolves.trans (Evolves.of_eq hp hn), fun q => ?_, hdev.trans h.dev, hnet.trans h.net⟩
  rw [peerRefsAfter_congr hp hn, ← h.peer q]
  exact congrFun hrc q

/-- A lookup's reference, taken while nothing is held. -/
lemma get (h : Ledger w₀ w none) (o : Option PeerId) :
    Ledger w₀ { w with wg := wgPeerGet w.wg o } o where
  evolves := h.evolves.trans (Evolves.of_eq (by simp) (by simp))
  peer q := by
    rw [peerRefsAfter_congr (wgPeerGet_peers _ _) (wgPeerGet_nextPeer _ _)]
    simp [h.peer q]
  dev := by simp [h.dev]
  net := h.net

/-- Dropping the reference held. -/
lemma put (h : Ledger w₀ w held) : Ledger w₀ { w with wg := wgPeerPut w.wg held } none where
  evolves := h.evolves.trans (Evolves.of_eq (by simp) (by simp))
  peer q := by
    rw [peerRefsAfter_congr (wgPeerPut_peers _ _) (wgPeerPut_nextPeer _ _)]
    simp [h.peer q]
  dev := by simp [h.dev]
  net := h.net

/-- Removing a linked peer drops the list's reference, which a peer linked before the request
holds (`hlist`). -/
lemma remove (hlist : ∀ q ∈ w₀.wg.peers, 1 ≤ (w₀.wg.objs q).refcount) (h : Ledger w₀ w held)
    {p : PeerId} (hp : p ∈ w.wg.peers) : Ledger w₀ { w with wg := wgPeerRemove w.wg p } held where
  evolves := h.evolves.trans (wgPeerRemove_evolves _ p)
  peer q := by
    have hq := h.peer q
    simp only [wgPeerRemove_objs, wgPeerRemove_peers, wgPeerRemove_nextPeer, peerRefsAfter,
      refOn] at hq ⊢
    by_cases hqp : q = p
    · subst hqp
      have hnot : q ∉ w.wg.peers.erase q := w.wg.nodup_peers.not_mem_erase
      by_cases hlt : q < w₀.wg.nextPeer
      · have hm₀ := h.evolves.mem_old hp hlt
        have h₀ := hlist q hm₀
        simp only [hlt, hp, hnot, hm₀, if_true, not_true_eq_false, and_false, if_false,
          not_false_eq_true, and_true] at hq ⊢
        split_ifs at hq ⊢ <;> omega
      · simp only [hlt, w.wg.lt_nextPeer q hp, hp, hnot, if_true, if_false] at hq ⊢
        split_ifs at hq ⊢ <;> omega
    · simp only [List.mem_erase_of_ne hqp, Option.some.injEq, Ne.symm hqp, if_false,
        Nat.sub_zero] at hq ⊢
      exact hq
  dev := h.dev
  net := h.net

/-- Linking a new peer that holds one reference, the list's, while nothing is held. -/
lemma link (h : Ledger w₀ w none) {o : Peer} (ho : o.refcount = 1) :
    Ledger w₀ { w with wg := w.wg.link o } none where
  evolves := h.evolves.trans (Evolves.of_link rfl rfl)
  peer q := by
    have hq := h.peer q
    have hle := h.evolves.nextPeer_le
    simp only [Device.link, peerRefsAfter, refOn_none, add_zero, List.mem_append,
      List.mem_singleton] at hq ⊢
    by_cases hqn : q = w.wg.nextPeer
    · subst hqn
      simp only [if_true, ho, or_true, lt_add_one, not_lt.2 hle, if_false]
    · simp only [hqn, if_false, or_false, Nat.lt_succ_iff_lt_or_eq]
      exact hq
  dev := h.dev
  net := h.net

/-- Changing a peer object but its count. -/
lemma updPeer (h : Ledger w₀ w held) {p : PeerId} {f : Peer → Peer}
    (hf : ∀ o, (f o).refcount = o.refcount) : Ledger w₀ { w with wg := w.wg.updPeer p f } held :=
  h.of_view <| by
    simp only [World.refView, Device.updPeer_peers, Device.updPeer_nextPeer, RefView.mk.injEq,
      true_and, and_true]
    exact ⟨funext fun q => by
      by_cases hq : q = p <;> simp [Device.updPeer, hq, hf], rfl⟩

/-- A loop over linked peers whose body keeps the ledger and unlinks at most the peer it is
on keeps the ledger. -/
lemma foldl {f : World → PeerId → World}
    (hf : ∀ v p, Ledger w₀ v none → p ∈ v.wg.peers →
      Ledger w₀ (f v p) none ∧ ∀ q ∈ v.wg.peers, q ≠ p → q ∈ (f v p).wg.peers) :
    ∀ (l : List PeerId) (v : World), l.Nodup → (∀ q ∈ l, q ∈ v.wg.peers) → Ledger w₀ v none →
      Ledger w₀ (l.foldl f v) none
  | [], _, _, _, h => h
  | p :: l, v, hnd, hl, h => by
    obtain ⟨hp, hnd⟩ := List.nodup_cons.1 hnd
    obtain ⟨h', hkeep⟩ := hf v p h (hl p (List.mem_cons_self _ _))
    exact foldl hf l _ hnd (fun q hq => hkeep q (hl q (List.mem_cons_of_mem _ hq))
      fun e => hp (e ▸ hq)) h'

end Ledger

@[simp] lemma Device.updPeer_refcount (d : Device) (p q : PeerId) (f : Peer → Peer) :
    ((d.updPeer p f).objs q).refcount =
      if q = p then (f (d.objs q)).refcount else (d.objs q).refcount := by
  simp only [Device.updPeer]; split_ifs <;> rfl

@[simp] lemma Device.updPeer_refcnt (d : Device) (p : PeerId) (f : Peer → Peer) :
    (d.updPeer p f).refcnt = d.refcnt := rfl

@[simp] lemma wgSocketSetPeerEndpoint_refcount (d : Device) (p q : PeerId) (e : Endpoint) :
    ((wgSocketSetPeerEndpoint d p e).objs q).refcount = (d.objs q).refcount := by
  unfold wgSocketSetPeerEndpoint; split_ifs <;> simp

@[simp] lemma wgSocketSetPeerEndpoint_refcnt (d : Device) (p : PeerId) (e : Endpoint) :
    (wgSocketSetPeerEndpoint d p e).refcnt = d.refcnt := by
  unfold wgSocketSetPeerEndpoint; split_ifs <;> rfl

lemma setPeerConfig_refView (buf : Bytes) (tb : AttrTable) (flags : UInt32) (psk : Option Key)
    (p : PeerId) (w : World) : (setPeerConfig buf tb flags psk p w).refView = w.refView := by
  simp only [setPeerConfig]
  split_ifs <;> repeat' split
  all_goals simp [World.refView]

lemma setPeerFinish_refView (buf : Bytes) (tb : AttrTable) (p : PeerId) (w : World) :
    (setPeerFinish buf tb p w).refView = w.refView := by
  simp only [setPeerFinish]
  repeat' split
  all_goals simp [World.refView]

lemma setAllowedip_refView (env : Env) (p : PeerId) (buf : Bytes) (tb : AttrTable) (w : World) :
    (setAllowedip env p buf tb w).2.refView = w.refView := by
  simp only [setAllowedip]
  repeat' split
  all_goals rfl

lemma setAllowedips_refView (env : Env) (p : PeerId) (buf : Bytes) :
    ∀ (l : List Nlattr) (w : World), (setAllowedips env p buf l w).2.refView = w.refView
  | [], _ => rfl
  | a :: l, w => by
    simp only [setAllowedips]
    split
    · rfl
    · split
      · exact setAllowedip_refView env p buf _ w
      · rw [setAllowedips_refView env p buf l, setAllowedip_refView]

section SetPeer

variable (env : Env) {w₀ : World}

/-- A created peer is linked and holds the list's reference; a failed creation moves no count. -/
lemma wgPeerCreate_ledger {w : World} (h : Ledger w₀ w none) (pk : Key) (psk : Option Key) :
    Ledger w₀ (wgPeerCreate env w pk psk).2 none ∧
      ∀ p, (wgPeerCreate env w pk psk).1 = some p → p ∈ (wgPeerCreate env w pk psk).2.wg.peers := by
  unfold wgPeerCreate World.alloc
  split
  · exact ⟨h, fun _ h => nomatch h⟩
  · dsimp only
    split
    · exact ⟨h.of_view rfl, fun _ h => nomatch h⟩
    · have h₁ : Ledger w₀ { w with allocs := w.allocs + 1 } none := h.of_view rfl
      refine ⟨h₁.link rfl, fun p hp => ?_⟩
      cases hp
      simp [Device.link]

/-- The peer `set_peer` goes on with holds one reference more than the ledger gives, the lookup's
or the one taken after `wg_peer_create`, and is linked; every other exit holds nothing. -/
lemma setPeerHold_ledger {w : World} (h : Ledger w₀ w none) (pk : Key) (psk : Option Key)
    (flags : UInt32) :
    (∀ p w', setPeerHold env pk psk flags w = .ok (p, w') → Ledger w₀ w' (some p) ∧ p ∈ w'.wg.peers) ∧
      ∀ e w', setPeerHold env pk psk flags w = .error (e, w') → Ledger w₀ w' none := by
  unfold setPeerHold wgPubkeyHashtableLookup
  split
  · rename_i q d hd
    simp only [Prod.mk.injEq] at hd
    obtain ⟨hf, rfl⟩ := hd
    refine ⟨fun p w' he => ?_, fun _ _ he => nomatch he⟩
    cases he
    rw [hf]
    exact ⟨h.get (some q), by simpa using List.mem_of_find?_eq_some hf⟩
  · rename_i d hd
    simp only [Prod.mk.injEq] at hd
    obtain ⟨hnone, rfl⟩ := hd
    have h₁ : Ledger w₀ { w with wg := wgPeerGet w.wg (w.wg.peers.find? fun q =>
        (w.wg.objs q).remoteStatic = pk) } none := by
      rw [hnone]; exact h.of_view rfl
    dsimp only
    split_ifs
    · exact ⟨fun _ _ he => (nomatch he), fun _ _ he => by cases he; exact h₁⟩
    · exact ⟨fun _ _ he => (nomatch he), fun _ _ he => by cases he; exact h₁⟩
    · obtain ⟨hc, hmem⟩ := wgPeerCreate_ledger env h₁ pk psk
      split
      · rename_i w' hw
        rw [hw] at hc
        exact ⟨fun _ _ he => (nomatch he), fun _ _ he => by cases he; exact hc⟩
      · rename_i p w' hw
        rw [hw] at hc hmem
        refine ⟨fun _ _ he => ?_, fun _ _ he => nomatch he⟩
        cases he
        exact ⟨hc.get (some p), by simpa using hmem p rfl⟩

/-- The update of the peer `set_peer` holds keeps holding it; a removal drops the list's
reference. -/
lemma setPeerUpdate_ledger (hlist : ∀ q ∈ w₀.wg.peers, 1 ≤ (w₀.wg.objs q).refcount) (buf : Bytes) (tb : AttrTable) (flags : UInt32) (psk : Option Key)
    {p : PeerId} {w : World} (h : Ledger w₀ w (some p)) (hp : p ∈ w.wg.peers) :
    Ledger w₀ (setPeerUpdate env buf tb flags psk p w).2 (some p) := by
  have hc := h.of_view (setPeerConfig_refView buf tb flags psk p w)
  have hips : Ledger w₀ (match tb WGPEER_A_ALLOWEDIPS with
      | some a => setAllowedips env p buf (nlaNested buf a) (setPeerConfig buf tb flags psk p w)
      | none => (0, setPeerConfig buf tb flags psk p w) : Int × World).2 (some p) := by
    split
    · exact hc.of_view (setAllowedips_refView env p buf _ _)
    · exact hc
  unfold setPeerUpdate
  split
  · exact h.remove hlist hp
  · dsimp only
    split
    · exact hips
    · exact hips.of_view (setPeerFinish_refView buf tb p _)

/-- The body of `set_peer` up to `out:` ends holding exactly the peer it returns. -/
lemma setPeerApply_ledger (hlist : ∀ q ∈ w₀.wg.peers, 1 ≤ (w₀.wg.objs q).refcount) (buf : Bytes) (tb : AttrTable)
    {w : World} (h : Ledger w₀ w none) :
    Ledger w₀ (setPeerApply env buf tb w).2.2 (setPeerApply env buf tb w).2.1 := by
  unfold setPeerApply
  split
  · exact h
  · split
    · exact h
    · dsimp only
      split
      · exact h
      · split
        · rename_i e w' hh
          exact (setPeerHold_ledger env h _ _ _).2 e w' hh
        · rename_i p w' hh
          obtain ⟨h', hp⟩ := (setPeerHold_ledger env h _ _ _).1 p w' hh
          exact setPeerUpdate_ledger env hlist buf tb _ _ h' hp

/-- `set_peer` drops at `out:` the reference it holds, so a block moves only list references. -/
lemma setPeer_ledger (hlist : ∀ q ∈ w₀.wg.peers, 1 ≤ (w₀.wg.objs q).refcount) (buf : Bytes) (tb : AttrTable)
    {w : World} (h : Ledger w₀ w none) :
    Ledger w₀ (setPeer env buf tb w).2.2 none :=
  (setPeerApply_ledger env hlist buf tb h).put

/-- The peer blocks of a request, up to the first failure. -/
lemma applyPeerBlocks_ledger (hlist : ∀ q ∈ w₀.wg.peers, 1 ≤ (w₀.wg.objs q).refcount) (l : List Nlattr) (buf : Bytes)
    {w : World} (h : Ledger w₀ w none) :
    Ledger w₀ (applyPeerBlocks env l buf w).2.2 none := by
  induction l generalizing buf w with
  | nil => exact h
  | cons a l ih =>
    have ha : Ledger w₀ (setDevicePeer env a buf w).2.2 none := by
      unfold setDevicePeer
      split
      · exact h
      · exact setPeer_ledger env hlist _ _ h
    simp only [applyPeerBlocks]
    split
    · exact ha
    · exact ih _ ha

end SetPeer

section KeyChange

variable (env : Env) {w₀ : World}

/-- The lookup of the key change takes a reference on the colliding peer and drops it before the
removal drops the list's. -/
lemma removeCollidingPeer_ledger (hlist : ∀ q ∈ w₀.wg.peers, 1 ≤ (w₀.wg.objs q).refcount) (k : Key) {w : World}
    (h : Ledger w₀ w none) :
    Ledger w₀ (removeCollidingPeer env k w) none := by
  simp only [removeCollidingPeer, wgPubkeyHashtableLookup]
  split
  · split
    · rename_i q d hd
      simp only [Prod.mk.injEq] at hd
      obtain ⟨hf, rfl⟩ := hd
      rw [hf]
      exact (h.get (some q)).put.remove hlist (by simpa using List.mem_of_find?_eq_some hf)
    · rename_i d hd
      simp only [Prod.mk.injEq] at hd
      obtain ⟨hnone, rfl⟩ := hd
      rw [hnone]
      exact h.of_view rfl
  · exact h

/-- One pass of the precomputation loop removes at most the peer it is on. -/
lemma precomputeOrRemove_ledger (hlist : ∀ q ∈ w₀.wg.peers, 1 ≤ (w₀.wg.objs q).refcount) {w : World} (h : Ledger w₀ w none)
    {p : PeerId} (hp : p ∈ w.wg.peers) :
    Ledger w₀ (precomputeOrRemove env w p) none ∧
      ∀ q ∈ w.wg.peers, q ≠ p → q ∈ (precomputeOrRemove env w p).wg.peers := by
  have h₁ := @Ledger.updPeer _ _ _ h p (fun o => { o with precomputedStaticStatic :=
    (wgNoisePrecomputeStaticStatic env.curve w.wg.identity (w.wg.objs p).remoteStatic).1 })
    fun _ => rfl
  simp only [precomputeOrRemove]
  split
  · exact ⟨h₁, fun q hq _ => by simpa using hq⟩
  · exact ⟨h₁.remove hlist (by simpa using hp), fun q hq hqp => by
      simpa [List.mem_erase_of_ne hqp] using hq⟩

/-- The precomputation loop of the key change. -/
lemma precomputeAll_ledger (hlist : ∀ q ∈ w₀.wg.peers, 1 ≤ (w₀.wg.objs q).refcount) {w : World} (h : Ledger w₀ w none) :
    Ledger w₀ (precomputeAll env w) none := by
  rw [precomputeAll_eq]
  exact Ledger.foldl (fun v p hv hp => precomputeOrRemove_ledger env hlist hv hp)
    _ _ w.wg.nodup_peers (fun _ hq => hq) h

lemma setPrivateKey_ledger (hlist : ∀ q ∈ w₀.wg.peers, 1 ≤ (w₀.wg.objs q).refcount) (k : Key) {w : World} (h : Ledger w₀ w none) :
    Ledger w₀ (setPrivateKey env k w) none := by
  refine Ledger.of_view (precomputeAll_ledger env hlist ?_) rfl
  exact (removeCollidingPeer_ledger env hlist k h).of_view rfl

/-- Removing the peers one by one is removing them all at once. -/
lemma foldl_wgPeerRemove (l : List PeerId) (v : World) :
    l.foldl (fun v p => { v with wg := wgPeerRemove v.wg p }) v =
      { v with wg := l.foldl wgPeerRemove v.wg } := by
  induction l generalizing v with
  | nil => rfl
  | cons p l ih => exact ih _

lemma replacePeers_ledger (hlist : ∀ q ∈ w₀.wg.peers, 1 ≤ (w₀.wg.objs q).refcount) (attrs : AttrTable) (buf : Bytes)
    {w : World} (h : Ledger w₀ w none) :
    Ledger w₀ (replacePeers attrs buf w) none := by
  simp only [replacePeers]
  split
  · rw [wgPeerRemoveAll, ← foldl_wgPeerRemove]
    exact Ledger.foldl (fun v p hv hp => ⟨hv.remove hlist hp, fun q hq hqp => by
      simpa [List.mem_erase_of_ne hqp] using hq⟩) _ _ w.wg.nodup_peers (fun _ hq => hq) h
  · exact h

lemma setPrivateKeyAttr_ledger (hlist : ∀ q ∈ w₀.wg.peers, 1 ≤ (w₀.wg.objs q).refcount) (attrs : AttrTable) (buf : Bytes)
    {w : World} (h : Ledger w₀ w none) : Ledger w₀ (setPrivateKeyAttr env attrs buf w) none := by
  rcases setPrivateKeyAttr_cases env attrs buf w with he | ⟨k, he⟩ <;> rw [he]
  · exact h
  · exact setPrivateKey_ledger env hlist k h

end KeyChange

lemma setFwmark_refView (attrs : AttrTable) (buf : Bytes) (w : World) :
    (setFwmark attrs buf w).refView = w.refView := by
  unfold setFwmark; split <;> simp [clearPeerEndpointSrcs_eq, World.refView]

/-- `set_socket` drops the transit-namespace reference it took on every exit. -/
lemma setSocket_netRefs (env : Env) (c : Caller) (attrs : AttrTable) (buf : Bytes) (w : World) :
    (setSocket env c attrs buf w).2.netRefs = w.netRefs := by
  unfold setSocket
  split
  · rfl
  · rename_i net w₁ h₁
    have hnet := (getAttrNet_ok h₁).1
    dsimp only
    repeat' split
    all_goals exact (World.putNet_netRefs_congr net (by simp [clearPeerEndpointSrcs_eq])).trans hnet

lemma setSocket_refView (env : Env) (c : Caller) (attrs : AttrTable) (buf : Bytes) (w : World) :
    (setSocket env c attrs buf w).2.refView = w.refView := by
  obtain ⟨port, net, hs⟩ := setSocket_wg env c attrs buf w
  simp only [World.refView, hs, setSocket_netRefs]

section Device

variable (env : Env) {w₀ : World}

lemma setDeviceConfig_ledger (hlist : ∀ q ∈ w₀.wg.peers, 1 ≤ (w₀.wg.objs q).refcount)
    (c : Caller) (attrs : AttrTable) (buf : Bytes) {w : World} (h : Ledger w₀ w none) :
    Ledger w₀ (setDeviceConfig env c attrs buf w).2 none := by
  have h₁ : Ledger w₀ { w with wg := { w.wg with updateGen := w.wg.updateGen + 1 } } none :=
    h.of_view rfl
  have h₂ := (h₁.of_view (setFwmark_refView attrs buf _)).of_view (setSocket_refView env c attrs buf _)
  simp only [setDeviceConfig]
  split
  · exact h₂
  · exact setPrivateKeyAttr_ledger env hlist attrs buf (replacePeers_ledger hlist attrs buf h₂)

/-- The part of `set_device` under the lock moves only list references. -/
lemma setDeviceLocked_ledger (hlist : ∀ q ∈ w₀.wg.peers, 1 ≤ (w₀.wg.objs q).refcount)
    (c : Caller) (attrs : AttrTable) (buf : Bytes) {w : World} (h : Ledger w₀ w none) :
    Ledger w₀ (setDeviceLocked env c attrs buf w).2.2 none := by
  have hc := setDeviceConfig_ledger env hlist c attrs buf h
  simp only [setDeviceLocked]
  split
  · exact hc
  · split
    · rw [setDevicePeers_eq]; exact applyPeerBlocks_ledger env hlist _ _ hc
    · exact hc

end Device

/-- The lookup of `set_device` gives back the namespace reference it took when it fails, and
otherwise hands it to `set_device` to drop. -/
lemma setDeviceLookup_netRefs {c : Caller} {attrs : AttrTable} {buf : Bytes} {w : World} :
    (∀ e w', setDeviceLookup c attrs buf w = .error (e, w') → w'.netRefs = w.netRefs) ∧
    (∀ n w', setDeviceLookup c attrs buf w = .ok (n, w') → (w'.putNet n).netRefs = w.netRefs) := by
  unfold setDeviceLookup
  split
  · exact ⟨fun _ _ h => by cases h; rfl, fun _ _ h => (nomatch h)⟩
  · rename_i n w₁ h₁
    have hnet := (getAttrNet_ok h₁).1
    split
    · exact ⟨fun _ _ h => by cases h; exact hnet, fun _ _ h => (nomatch h)⟩
    · split
      · exact ⟨fun _ _ h => by cases h; exact hnet, fun _ _ h => (nomatch h)⟩
      · rename_i w₂ h₂
        refine ⟨fun _ _ h => (nomatch h), fun _ _ h => ?_⟩
        cases h
        rw [lookupInterface_ok h₂]
        rw [← hnet]
        exact World.putNet_netRefs_congr n rfl

/-- Reference balance of a request, on every exit: the device's count and every namespace's count
are as they were, and every peer's count is what `peerRefsAfter` gives, so the references the
lookups and the creations took inside are all dropped again. The list's reference is there on
entry for every linked peer. -/
theorem genlSetDevice_refs_balanced (env : Env) (c : Caller) (buf : Bytes) (w : World)
    (hlist : ∀ q ∈ w.wg.peers, 1 ≤ (w.wg.objs q).refcount) :
    (fun w' : World => w'.wg.refcnt = w.wg.refcnt ∧ w'.netRefs = w.netRefs ∧
      ∀ q, (w'.wg.objs q).refcount = peerRefsAfter w.wg w'.wg q)
      (genlSetDevice env c buf w).2.2 := by
  unfold genlSetDevice
  split
  · exact ⟨rfl, rfl, fun q => (Ledger.init w).peer q⟩
  · rename_i attrs _
    cases hl : setDeviceLookup c attrs buf w with
    | error r =>
      obtain ⟨e, w'⟩ := r
      have hwg := setDeviceLookup_wg.1 e w' hl
      simp only [setDevice_of_error hl, hwg, setDeviceLookup_netRefs.1 e w' hl, true_and]
      exact fun q => (Ledger.init w).peer q
    | ok r =>
      obtain ⟨n, w'⟩ := r
      have hwg := setDeviceLookup_wg.2 n w' hl
      have hlist' : ∀ q ∈ w'.wg.peers, 1 ≤ (w'.wg.objs q).refcount := by rw [hwg]; exact hlist
      have h := setDeviceLocked_ledger env hlist' c attrs buf (Ledger.init w')
      rw [setDevice_of_ok hl]
      refine ⟨?_, ?_, fun q => ?_⟩
      · simp [h.dev, hwg]
      · rw [← setDeviceLookup_netRefs.2 n w' hl]
        exact World.putNet_netRefs_congr n h.net
      · simpa [hwg] using h.peer q

/-- A device with two peers, each holding the list's reference, and a request that replaces them
with a new peer: the two old peers lose the list's reference and the new one holds it. -/
theorem genlSetDevice_refs_balanced_replace :
    (fun (w : World) (buf : Bytes) =>
      (∀ q ∈ w.wg.peers, 1 ≤ (w.wg.objs q).refcount) ∧
      (fun w' : World => w'.wg.refcnt = w.wg.refcnt ∧ w'.netRefs = w.netRefs ∧
        ∀ q, (w'.wg.objs q).refcount = peerRefsAfter w.wg w'.wg q)
        (genlSetDevice (Env.reliable ⟨fun s _ => s, Key.zero⟩) (Caller.admin 0) buf w).2.2)
      (World.init { Device.create 1 [119] 0 with
        peers := [0, 1]
        objs := fun p => { Peer.blank with
          remoteStatic := ⟨List.replicate 32 (UInt8.ofNat p + 1), by simp⟩, refcount := 1 }
        nextPeer := 2
        nodup_peers := by decide
        lt_nextPeer := by decide })
      (nlaEncode [(WGDEVICE_A_IFINDEX, u32Bytes 1), (WGDEVICE_A_FLAGS, u32Bytes 1),
        (WGDEVICE_A_PEERS, nlaEncode [(0, nlaEncode [(WGPEER_A_PUBLIC_KEY, List.replicate 32 3)])])]) :=
  ⟨by decide, genlSetDevice_refs_balanced _ _ _ _ (by decide)⟩

end WireGuardNetlink
