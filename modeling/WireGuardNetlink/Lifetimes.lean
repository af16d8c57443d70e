import WireGuardNetlink.RequestRefs
import WireGuardNetlink.Interleaving

/-!
# The reference counts of the whole system

`References` follows the counts a dump moves when nothing else happens, and `RequestRefs` those a
request moves on its own. This module puts them together over every interleaving: the counts of
a state are exact (`RefsExact`) when every peer allocated so far holds one reference while it is
linked and one while the dump in progress holds it in `args[1]`, and nothing else, the device
holds its own references and the dump's, and the live cursor allocations are the dump's.

A request keeps the counts exact (`RefsExact.setDevice`): it moves a peer's count only by the
list's reference (`genlSetDevice_ledger`), it never links a peer again (`Evolves`), and it leaves
the dump's cursor allocations alone (`genlSetDevice_cursors`). Every other event moves the counts
by what the dump holds before and after it (`Sys.step_moved`), unless a message fails while
`args[1]` holds a peer, which only a buffer without room for the message header and the peers
nest makes happen (`not_failsHolding_of_room`). So along every run in which each message is
offered such a buffer the counts stay exact (`refsExact_of_run`): a peer the dump holds is never
freed under it, even when a request removes it between two messages, and a removed peer that the
dump does not hold has no reference left.
-/

namespace WireGuardNetlink

section Cursors

variable (env : Env)

@[simp] lemma clearPeerEndpointSrcs_cursors (w : World) :
    (clearPeerEndpointSrcs w).cursors = w.cursors := by
  rw [clearPeerEndpointSrcs_eq]

lemma setSocket_cursors (c : Caller) (attrs : AttrTable) (buf : Bytes) (w : World) :
    (setSocket env c attrs buf w).2.cursors = w.cursors := by
  unfold setSocket
  split
  · rfl
  · rename_i n w₁ h₁
    have hc := (getAttrNet_ok h₁).2.2
    dsimp only
    repeat' split
    all_goals simp [hc]

lemma setAllowedips_cursors (p : PeerId) (buf : Bytes) :
    ∀ (l : List Nlattr) (w : World), (setAllowedips env p buf l w).2.cursors = w.cursors
  | [], _ => rfl
  | a :: l, w => by
    have h₁ : ∀ tb, (setAllowedip env p buf tb w).2.cursors = w.cursors := fun tb => by
      simp only [setAllowedip]
      repeat' split
      all_goals rfl
    simp only [setAllowedips]
    split
    · rfl
    · split
      · exact h₁ _
      · rw [setAllowedips_cursors p buf l, h₁]

lemma setPeerUpdate_cursors (buf : Bytes) (tb : AttrTable) (flags : UInt32) (psk : Option Key)
    (p : PeerId) (w : World) : (setPeerUpdate env buf tb flags psk p w).2.cursors = w.cursors := by
  have hc : (setPeerConfig buf tb flags psk p w).cursors = w.cursors := by
    simp only [setPeerConfig]
    split_ifs <;> repeat' split
    all_goals rfl
  have hf : ∀ v, (setPeerFinish buf tb p v).cursors = v.cursors := fun v => by
    simp only [setPeerFinish]
    repeat' split
    all_goals rfl
  simp only [setPeerUpdate]
  split_ifs
  · rfl
  all_goals split <;> simp [hf, hc, setAllowedips_cursors]

lemma setPeerHold_cursors (pk : Key) (psk : Option Key) (flags : UInt32) (w : World) :
    (∀ p w', setPeerHold env pk psk flags w = .ok (p, w') → w'.cursors = w.cursors) ∧
      ∀ e w', setPeerHold env pk psk flags w = .error (e, w') → w'.cursors = w.cursors := by
  have hc : ∀ v, (wgPeerCreate env v pk psk).2.cursors = v.cursors := fun v => by
    unfold wgPeerCreate World.alloc; dsimp only; split_ifs <;> rfl
  unfold setPeerHold
  split
  · exact ⟨fun _ _ h => by cases h; rfl, fun _ _ h => (nomatch h)⟩
  · dsimp only
    split_ifs
    · exact ⟨fun _ _ h => (nomatch h), fun _ _ h => by cases h; rfl⟩
    · exact ⟨fun _ _ h => (nomatch h), fun _ _ h => by cases h; rfl⟩
    · split <;> rename_i w' heq <;>
        have hw := congrArg (fun r : Option PeerId × World => r.2.cursors) heq <;> simp only [hc] at hw
      · exact ⟨fun _ _ h => (nomatch h), fun _ _ h => by cases h; exact hw.symm⟩
      · exact ⟨fun _ _ h => by cases h; exact hw.symm, fun _ _ h => (nomatch h)⟩

lemma setPeer_cursors (buf : Bytes) (tb : AttrTable) (w : World) :
    (setPeer env buf tb w).2.2.cursors = w.cursors := by
  simp only [setPeer, setPeerApply]
  repeat' split
  all_goals first
    | rfl
    | simpa [setPeerUpdate_cursors] using
        (setPeerHold_cursors env _ _ _ _).1 _ _ ‹setPeerHold env _ _ _ _ = .ok _›
    | simpa using (setPeerHold_cursors env _ _ _ _).2 _ _ ‹setPeerHold env _ _ _ _ = .error _›

lemma applyPeerBlocks_cursors :
    ∀ (l : List Nlattr) (buf : Bytes) (w : World),
      (applyPeerBlocks env l buf w).2.2.cursors = w.cursors
  | [], _, _ => rfl
  | a :: l, buf, w => by
    have h₁ : (setDevicePeer env a buf w).2.2.cursors = w.cursors := by
      unfold setDevicePeer; split
      · rfl
      · exact setPeer_cursors env _ _ _
    simp only [applyPeerBlocks]
    split
    · exact h₁
    · rw [applyPeerBlocks_cursors l, h₁]

lemma setPrivateKey_cursors (k : Key) (w : World) : (setPrivateKey env k w).cursors = w.cursors := by
  have hloop : ∀ (l : List PeerId) (v : World), (l.foldl (precomputeOrRemove env) v).cursors = v.cursors := by
    intro l
    induction l with
    | nil => intro v; rfl
    | cons p l ih =>
      intro v
      rw [List.foldl_cons, ih]
      simp only [precomputeOrRemove]
      split <;> rfl
  have hcol : (removeCollidingPeer env k w).cursors = w.cursors := by
    simp only [removeCollidingPeer]
    repeat' split
    all_goals rfl
  simp only [setPrivateKey, precomputeAll_eq, hloop, hcol]

lemma setDeviceLocked_cursors (c : Caller) (attrs : AttrTable) (buf : Bytes) (w : World) :
    (setDeviceLocked env c attrs buf w).2.2.cursors = w.cursors := by
  have hc : (setDeviceConfig env c attrs buf w).2.cursors = w.cursors := by
    have hf : ∀ v, (setFwmark attrs buf v).cursors = v.cursors := fun v => by
      unfold setFwmark; split <;> simp
    simp only [setDeviceConfig]
    split_ifs
    · rw [setSocket_cursors, hf]
    · simp only [setPrivateKeyAttr, replacePeers]
      repeat' split
      all_goals simp [setPrivateKey_cursors, setSocket_cursors, hf]
  simp only [setDeviceLocked]
  split
  · exact hc
  · split
    · rw [setDevicePeers_eq, applyPeerBlocks_cursors, hc]
    · exact hc

lemma setDeviceLookup_cursors (c : Caller) (attrs : AttrTable) (buf : Bytes) (w : World) :
    (∀ e w', setDeviceLookup c attrs buf w = .error (e, w') → w'.cursors = w.cursors) ∧
      ∀ n w', setDeviceLookup c attrs buf w = .ok (n, w') → w'.cursors = w.cursors := by
  unfold setDeviceLookup
  split
  · exact ⟨fun _ _ h => by cases h; rfl, fun _ _ h => (nomatch h)⟩
  · rename_i n w₁ h₁
    have hc := (getAttrNet_ok h₁).2.2
    split
    · exact ⟨fun _ _ h => by cases h; simp [hc], fun _ _ h => (nomatch h)⟩
    · split
      · exact ⟨fun _ _ h => by cases h; simp [hc], fun _ _ h => (nomatch h)⟩
      · rename_i w₂ h₂
        exact ⟨fun _ _ h => (nomatch h), fun _ _ h => by cases h; rw [lookupInterface_ok h₂]; exact hc⟩

/-- A request leaves the dump's cursor allocations as they are. -/
lemma genlSetDevice_cursors (c : Caller) (buf : Bytes) (w : World) :
    (genlSetDevice env c buf w).2.2.cursors = w.cursors := by
  unfold genlSetDevice
  split
  · rfl
  · rename_i attrs _
    cases hl : setDeviceLookup c attrs buf w with
    | error r =>
      rw [setDevice_of_error hl]
      exact (setDeviceLookup_cursors c attrs buf w).1 _ _ hl
    | ok r =>
      rw [setDevice_of_ok hl]
      simp [setDeviceLocked_cursors, (setDeviceLookup_cursors c attrs buf w).2 _ _ hl]

end Cursors

/-- The ledger of a whole request: from the device as it was, the request moves every peer's
count by what `peerRefsAfter` gives and holds nothing at the end, on every exit. -/
lemma genlSetDevice_ledger (env : Env) (c : Caller) (buf : Bytes) (w : World)
    (hlist : ∀ q ∈ w.wg.peers, 1 ≤ (w.wg.objs q).refcount) :
    Ledger w (genlSetDevice env c buf w).2.2 none := by
  unfold genlSetDevice
  split
  · exact Ledger.init w
  · rename_i attrs _
    cases hl : setDeviceLookup c attrs buf w with
    | error r =>
      obtain ⟨e, w'⟩ := r
      rw [setDevice_of_error hl]
      exact (Ledger.init w).of_view (by
        simp only [World.refView, setDeviceLookup_wg.1 e w' hl, setDeviceLookup_netRefs.1 e w' hl])
    | ok r =>
      obtain ⟨n, w'⟩ := r
      have hwg := setDeviceLookup_wg.2 n w' hl
      have h := setDeviceLocked_ledger env (by rw [hwg]; exact hlist) c attrs buf (Ledger.init w')
      rw [setDevice_of_ok hl]
      refine ⟨(Evolves.of_eq (by rw [hwg]) (by rw [hwg])).trans
        (h.evolves.trans (Evolves.of_eq (by simp) (by simp))), fun q => ?_, by simp [h.dev, hwg], ?_⟩
      · simpa [hwg] using h.peer q
      · rw [← setDeviceLookup_netRefs.2 n w' hl]
        exact World.putNet_netRefs_congr n h.net

/-- A request moves a peer's count only by the list's reference and never links a peer allocated
before it again: counts that are the list's reference plus what the dumps hold, on the peers
allocated so far, stay so when the dumps hold nothing on the peers the request allocates. -/
lemma genlSetDevice_peer_exact (env : Env) (c : Caller) (buf : Bytes) (w : World)
    (hlist : ∀ q ∈ w.wg.peers, 1 ≤ (w.wg.objs q).refcount) (held : PeerId → Nat)
    (hnew : ∀ q, w.wg.nextPeer ≤ q → held q = 0)
    (hpeer : ∀ q, q < w.wg.nextPeer →
      (w.wg.objs q).refcount = (if q ∈ w.wg.peers then 1 else 0) + held q) :
    ∀ q, q < (genlSetDevice env c buf w).2.2.wg.nextPeer →
      ((genlSetDevice env c buf w).2.2.wg.objs q).refcount =
        (if q ∈ (genlSetDevice env c buf w).2.2.wg.peers then 1 else 0) + held q := by
  have L := genlSetDevice_ledger env c buf w hlist
  intro q hq
  rw [L.peer q, refOn_none, add_zero, peerRefsAfter]
  by_cases hlt : q < w.wg.nextPeer
  · rw [if_pos hlt, hpeer q hlt]
    by_cases hm : q ∈ w.wg.peers
    · by_cases hm' : q ∈ (genlSetDevice env c buf w).2.2.wg.peers <;> simp [hm, hm']
    · have hm' : q ∉ (genlSetDevice env c buf w).2.2.wg.peers :=
        fun h' => hm (L.evolves.mem_old h' hlt)
      simp [hm, hm']
  · rw [if_neg hlt, if_pos hq, hnew q (not_lt.1 hlt)]
    rfl

/-- The counts of a state are exact: every peer allocated so far holds one reference while it is
linked and one while the dump in progress holds it in `args[1]`, and no other; the device holds
`base` references besides the dump's; the live cursor allocations are the dump's; and a dump in
progress holds a peer allocated so far, and its cursor. -/
structure RefsExact (base : Nat) (s : Sys) : Prop where
  peer : ∀ q, q < s.w.wg.nextPeer →
    (s.w.wg.objs q).refcount = (if q ∈ s.w.wg.peers then 1 else 0) + heldOn s.dump q
  dev : s.w.wg.refcnt = base + heldDev s.dump
  cursor : s.w.cursors = heldCursor s.dump
  held : ∀ cb p, s.dump = some cb → cb.peer = some p → p < s.w.wg.nextPeer
  started : ∀ cb, s.dump = some cb → cb.rtCursor.isSome

namespace RefsExact

variable {base : Nat} {s : Sys}

/-- A new device with no dump, its one reference the registration's. -/
lemma create (ifindex : Nat) (name : Bytes) (net : NetId) :
    RefsExact 1 ⟨World.init (Device.create ifindex name net), none⟩ where
  peer _ h := absurd h (Nat.not_lt_zero _)
  dev := rfl
  cursor := rfl
  held _ _ h := nomatch h
  started _ h := nomatch h

/-- The dump holds no reference on a peer allocated after the state. -/
lemma heldOn_eq_zero (h : RefsExact base s) {q : PeerId} (hq : s.w.wg.nextPeer ≤ q) :
    heldOn s.dump q = 0 := by
  cases hd : s.dump with
  | none => rfl
  | some cb =>
    cases hp : cb.peer with
    | none => simp [hp]
    | some p =>
      rw [heldOn_some, hp, refOn, if_neg]
      simpa using Nat.ne_of_lt ((h.held cb p hd hp).trans_le hq)

/-- Exact counts cover what the dump holds. -/
lemma holds (h : RefsExact base s) : Holds s.dump s.w where
  peer q := by
    by_cases hq : q < s.w.wg.nextPeer
    · rw [h.peer q hq]; omega
    · rw [h.heldOn_eq_zero (not_lt.1 hq)]; omega
  dev := by rw [h.dev]; omega
  cursor := h.cursor.ge
  started := h.started

/-- A linked peer holds the list's reference. -/
lemma linked (h : RefsExact base s) : ∀ q ∈ s.w.wg.peers, 1 ≤ (s.w.wg.objs q).refcount :=
  fun q hq => by rw [h.peer q (s.w.wg.lt_nextPeer q hq), if_pos hq]; omega

/-- A request keeps the counts exact and every namespace's count as it was: it moves a peer's
count only by the list's reference, never links a peer allocated before it again, and leaves the
dump alone. -/
lemma setDevice (h : RefsExact base s) (env : Env) (c : Caller) (buf : Bytes) :
    RefsExact base { s with w := (genlSetDevice env c buf s.w).2.2 } ∧
      (genlSetDevice env c buf s.w).2.2.netRefs = s.w.netRefs := by
  have L := genlSetDevice_ledger env c buf s.w h.linked
  exact ⟨⟨genlSetDevice_peer_exact env c buf s.w h.linked _ (fun _ => h.heldOn_eq_zero) h.peer,
    by rw [L.dev, h.dev], by rw [genlSetDevice_cursors, h.cursor],
    fun cb p hd hp => (h.held cb p hd hp).trans_le L.evolves.nextPeer_le, h.started⟩, L.net⟩

end RefsExact

/-- Whether an event offers a message a buffer with room for the message header and the peers
nest; every event but a message does. -/
def Event.hasRoom : Event → Bool
  | .dumpNext _ cap => decide (GENL_MSG_HDRLEN + NLA_HDRLEN ≤ cap)
  | _ => true

/-- A message with room for the header and the peers nest does not fail: with `args[1]` set, the
device attributes are not written, and a peer record that does not fit only ends the message. -/
lemma not_failsHolding_of_room {s : Sys} {c : Caller} {cap : Nat}
    (hcap : GENL_MSG_HDRLEN + NLA_HDRLEN ≤ cap) : ¬ s.FailsHolding c cap := by
  rintro ⟨cb, r, -, hp, hr, hneg⟩
  have hhead : toksSize (msgHead c s.w.wg cb) = GENL_MSG_HDRLEN := by
    simp [msgHead, msgDeviceAttrs, Option.isNone_iff_eq_none, Option.ne_none_iff_isSome.2 hp,
      Tok.size]
  have hok : ∀ done next rt skb,
      0 ≤ (dumpFinish s.w.wg (cb.stamp s.w.wg) 0 done next rt 0 skb).1 := by
    intro done next rt skb
    rw [(dumpFinish_spec ..).1]
    split_ifs <;> simp
  rw [getDeviceDump_of_fits c s.w.wg cb cap (by omega), Option.some.injEq] at hr
  subst hr
  split_ifs at hneg
  · exact absurd hneg (not_lt.2 (hok ..))
  · exact absurd hneg (not_lt.2 (hok ..))

/-- An event other than a request changes neither the peer list nor the allocation mark, and a
dump it leaves in progress holds a peer of the list or the one it held before. -/
lemma Sys.step_peers_of_not_request {env : Env} {s s' : Sys} {e : Event}
    (h : s.step env e = some s') (hreq : e.isRequest = false) :
    s'.w.wg.peers = s.w.wg.peers ∧ s'.w.wg.nextPeer = s.w.wg.nextPeer ∧
      ∀ cb' p, s'.dump = some cb' → cb'.peer = some p →
        p ∈ s.w.wg.peers ∨ ∃ cb, s.dump = some cb ∧ cb.peer = some p := by
  cases e with
  | setDevice => cases hreq
  | dumpStart c buf =>
    simp only [Sys.step] at h
    split at h
    · cases h
    · cases h
      obtain ⟨-, ⟨hne, -, hwg, -⟩ | ⟨h0, hcb, hwg, -⟩⟩ := getDeviceStart_spec env c buf s.w
      · refine ⟨by simp [hwg], by simp [hwg], fun _ _ hd _ => ?_⟩
        simp only [if_neg hne] at hd
        cases hd
      · refine ⟨by simp [hwg], by simp [hwg], fun _ _ hd hp => ?_⟩
        simp only [if_pos h0, hcb, Option.some.injEq] at hd
        subst hd
        cases hp
  | dumpNext c cap =>
    have hcur := fun cb cb' hs => @dumpNext_cursor env c cap s s' cb cb' hs h
    simp only [Sys.step] at h
    split at h
    · cases h
    · rename_i cb hs
      obtain ⟨r, hr, rfl⟩ := Option.map_eq_some'.1 h
      obtain ⟨x, hx⟩ := getDeviceDump_wg hr
      refine ⟨by split <;> simp [hx, -getDeviceDone_wg], by split <;> simp [hx, -getDeviceDone_wg],
        fun cb' p hd hp => ?_⟩
      rw [hcur cb cb' hs hd] at hp
      cases hl : (msgCompleted c s.w.wg cb cap).getLast? with
      | none => exact .inr ⟨cb, hs, by simpa [hl] using hp⟩
      | some y =>
        obtain ⟨rest, hrest⟩ := msgCompleted_prefix c s.w.wg cb cap
        have hy := List.mem_of_getLast?_eq_some hl
        simp only [hl, Option.or_some, Option.some.injEq] at hp
        subst hp
        exact .inl ((nodesAfter_sublist _ _).subset (hrest ▸ List.mem_append_left _ hy))
  | dumpAbandon =>
    simp only [Sys.step] at h
    split at h
    · cases h
    · cases h
      exact ⟨getDeviceDone_peers _ _, getDeviceDone_nextPeer _ _, fun _ _ h => nomatch h⟩
  | traffic p rx tx hs ep =>
    cases h
    exact ⟨rfl, rfl, fun cb' p hd hp => .inr ⟨cb', hd, hp⟩⟩

/-- Every event keeps the counts exact and every namespace's count as it was, a message when its
buffer has room for the header and the peers nest. -/
lemma Sys.step_refsExact {env : Env} {base : Nat} {s s' : Sys} {e : Event}
    (h : s.step env e = some s') (hroom : e.hasRoom = true) (hs : RefsExact base s) :
    RefsExact base s' ∧ s'.w.netRefs = s.w.netRefs := by
  cases hreq : e.isRequest
  · obtain ⟨hm, hst⟩ := Sys.step_moved h hreq (fun c cap he => not_failsHolding_of_room
      (by subst he; simpa [Event.hasRoom] using hroom)) hs.holds
    obtain ⟨hp, hn, hheld⟩ := Sys.step_peers_of_not_request h hreq
    refine ⟨⟨fun q hq => ?_, ?_, ?_, fun cb p hd hcp => ?_, hst⟩, hm.net⟩
    · have h₁ := hm.peer q
      have h₂ := hs.peer q (hn ▸ hq)
      rw [hp]
      omega
    · have := hm.dev; have := hs.dev; omega
    · have := hm.cursor; have := hs.cursor; omega
    · rw [hn]
      rcases hheld cb p hd hcp with hm' | ⟨cb₀, hd₀, hp₀⟩
      · exact s.w.wg.lt_nextPeer p hm'
      · exact hs.held cb₀ p hd₀ hp₀
  · cases e with
    | setDevice c buf => cases h; exact hs.setDevice env c buf
    | _ => cases hreq

/-- Along a run whose messages all have room, exact counts stay exact and the namespaces'
counts stay as they were; a run with no request moves the counts by what the dump holds at its
two ends. -/
lemma Sys.run_refsExact {env : Env} {base : Nat} :
    ∀ {es : List Event} {s s' : Sys}, s.run env es = some s' → (∀ e ∈ es, e.hasRoom = true) →
      RefsExact base s → RefsExact base s' ∧ s'.w.netRefs = s.w.netRefs ∧
        ((∀ e ∈ es, e.isRequest = false) → Moved s.dump s'.dump s.w s'.w)
  | [], s, s', h, _, hs => by cases h; exact ⟨hs, rfl, fun _ => Moved.refl _ _⟩
  | e :: es, s, s', h, hroom, hs => by
    obtain ⟨s₁, h₁, h₂⟩ := Option.bind_eq_some.1 h
    have he := hroom e (List.mem_cons_self _ _)
    obtain ⟨hs₁, hn₁⟩ := Sys.step_refsExact h₁ he hs
    obtain ⟨hs', hn', hm'⟩ :=
      Sys.run_refsExact h₂ (fun e he => hroom e (List.mem_cons_of_mem _ he)) hs₁
    refine ⟨hs', hn'.trans hn₁, fun hreq => ?_⟩
    have hm₁ := (Sys.step_moved h₁ (hreq e (List.mem_cons_self _ _)) (fun c cap he' =>
      not_failsHolding_of_room (by subst he'; simpa [Event.hasRoom] using he)) hs.holds).1
    exact hm₁.trans (hm' fun e he => hreq e (List.mem_cons_of_mem _ he))

/-- Reference counts along every run. From a state whose counts are exact, any run of requests,
dump starts, messages, abandonments and traffic in which every message is offered a buffer with
room for the message header and the peers nest ends in a state whose counts are exact, with
every namespace's count as it was. So at every point of every interleaving a peer holds one
reference while it is linked and one while the dump holds it in `args[1]`, and nothing else: the
peer a dump holds is never freed under it, even when a request removes it between two messages,
and a removed peer the dump does not hold has no reference left; the device holds its own
references and the dump's, and the cursor allocation lives exactly as long as the dump. -/
theorem refsExact_of_run {env : Env} {base : Nat} :
    ∀ {es : List Event} {s s' : Sys}, s.run env es = some s' → (∀ e ∈ es, e.hasRoom = true) →
      RefsExact base s → RefsExact base s' ∧ s'.w.netRefs = s.w.netRefs
  | _, _, _, h, hroom, hs => (Sys.run_refsExact h hroom hs).imp_right And.left

/-- A dump of a device with two peers whose first message holds peer `0` in `args[1]`, a request
removing peer `0` before the second message, and the second message: the counts are exact at
the end. -/
theorem refsExact_of_run_removal :
    let env := Env.reliable ⟨fun s _ => s, Key.zero⟩
    let add := nlaEncode [(WGDEVICE_A_IFINDEX, u32Bytes 1),
      (WGDEVICE_A_PEERS, nlaEncode [(0, nlaEncode [(WGPEER_A_PUBLIC_KEY, List.replicate 32 1)]),
        (0, nlaEncode [(WGPEER_A_PUBLIC_KEY, List.replicate 32 2)])])]
    let remove := nlaEncode [(WGDEVICE_A_IFINDEX, u32Bytes 1),
      (WGDEVICE_A_PEERS, nlaEncode [(0, nlaEncode [(WGPEER_A_PUBLIC_KEY, List.replicate 32 1),
        (WGPEER_A_FLAGS, u32Bytes WGPEER_F_REMOVE_ME)])])]
    let s₀ : Sys := ⟨World.init (Device.create 1 [119] 0), none⟩
    let es := [Event.setDevice (Caller.admin 0) add,
      .dumpStart (Caller.admin 0) (nlaEncode [(WGDEVICE_A_IFINDEX, u32Bytes 1)]),
      .dumpNext (Caller.admin 0) 224, .setDevice (Caller.admin 0) remove,
      .dumpNext (Caller.admin 0) 4096]
    (fun r : Option Sys => ∃ s', r = some s' ∧ RefsExact 1 s' ∧ s'.w.netRefs = s₀.w.netRefs)
      (Sys.run env s₀ es) := by
  intro env add remove s₀ es
  set_option maxRecDepth 20000 in
  obtain ⟨s', h⟩ := Option.isSome_iff_exists.1 (show (Sys.run env s₀ es).isSome = true by decide)
  exact ⟨s', h, refsExact_of_run h (by decide) (RefsExact.create 1 [119] 0)⟩

/-- Reference balance of a dump, for the messages `netlink_dump` makes. A start that fails
holds nothing: its callback is blank, and the device, the cursor allocations and the namespaces'
counts are as they were. From a state with exact counts and no dump, along every run of dump
starts, messages into buffers of the room `netlink_dump` gives, abandonments, traffic and
requests in any order, between calls every peer allocated so far holds one reference while it is
linked and, besides, exactly one while the dump holds it in `args[1]`, and none for the dump
otherwise; the device holds its own references and one for a dump in progress; and the cursor
allocation lives exactly as long as the dump. Once the dump has ended these are the list's
references alone, and a run with no request ends with every peer's count, the device's count
and the cursor allocations as they were before the start. -/
theorem dump_refs_balanced {env : Env} {base : Nat} {s₀ : Sys} (hs₀ : RefsExact base s₀)
    (hd₀ : s₀.dump = none) :
    (∀ c buf w, (getDeviceStart env c buf w).1 ≠ 0 →
      (getDeviceStart env c buf w).2.1 = Cb.init ∧ (getDeviceStart env c buf w).2.2.wg = w.wg ∧
      (getDeviceStart env c buf w).2.2.cursors = w.cursors ∧
      (getDeviceStart env c buf w).2.2.netRefs = w.netRefs) ∧
    ∀ es s, s₀.run env es = some s → (∀ c cap, Event.dumpNext c cap ∈ es → NLMSG_GOODSIZE ≤ cap) →
      (∀ q, q < s.w.wg.nextPeer →
        (s.w.wg.objs q).refcount = (if q ∈ s.w.wg.peers then 1 else 0) + heldOn s.dump q) ∧
      s.w.wg.refcnt = base + heldDev s.dump ∧ s.w.cursors = heldCursor s.dump ∧
      ((∀ e ∈ es, e.isRequest = false) → s.dump = none →
        (∀ q, (s.w.wg.objs q).refcount = (s₀.w.wg.objs q).refcount) ∧
        s.w.wg.refcnt = s₀.w.wg.refcnt ∧ s.w.cursors = s₀.w.cursors) := by
  refine ⟨fun c buf w h => getDeviceStart_error h, fun es s h hcap => ?_⟩
  have hroom : ∀ e ∈ es, e.hasRoom = true := fun e he => by
    cases e with
    | dumpNext c cap => exact decide_eq_true (le_trans (by decide) (hcap c cap he))
    | _ => rfl
  obtain ⟨hs, -, hm⟩ := Sys.run_refsExact h hroom hs₀
  refine ⟨hs.peer, hs.dev, hs.cursor, fun hreq hd => ?_⟩
  have hm := hm hreq
  rw [hd₀, hd] at hm
  exact ⟨fun q => by simpa using hm.peer q, by simpa using hm.dev, by simpa using hm.cursor⟩

set_option maxRecDepth 20000 in
/-- A dump of a device with 27 peers, each held once by the list, into buffers of the room
`netlink_dump` gives. The first message completes peers `0` to `25` and holds peer `25` in
`args[1]`; a request removes peer `25`; the second message finds its cursor unlinked and ends the
dump. Peer `25` is left with no reference, and every count is exact. -/
theorem dump_refs_balanced_removed_cursor :
    let d : Device := { Device.create 1 [119] 0 with
      peers := List.range 27
      objs := fun p => { Peer.blank with
        remoteStatic := ⟨List.replicate 32 (UInt8.ofNat p + 1), by simp⟩
        refcount := 1 }
      nextPeer := 27
      nodup_peers := List.nodup_range 27
      lt_nextPeer := fun _ h => List.mem_range.1 h }
    let env := Env.reliable ⟨fun s _ => s, Key.zero⟩
    let s₀ : Sys := ⟨World.init d, none⟩
    let es := [Event.dumpStart (Caller.admin 0) (nlaEncode [(WGDEVICE_A_IFINDEX, u32Bytes 1)]),
      .dumpNext (Caller.admin 0) NLMSG_GOODSIZE,
      .setDevice (Caller.admin 0) (nlaEncode [(WGDEVICE_A_IFINDEX, u32Bytes 1),
        (WGDEVICE_A_PEERS, nlaEncode [(0, nlaEncode [(WGPEER_A_PUBLIC_KEY, List.replicate 32 26),
          (WGPEER_A_FLAGS, u32Bytes WGPEER_F_REMOVE_ME)])])]),
      .dumpNext (Caller.admin 0) NLMSG_GOODSIZE]
    (Sys.run env s₀ (es.take 2)).map (fun s => s.dump.bind Cb.peer) = some (some 25) ∧
    ∃ s, Sys.run env s₀ es = some s ∧ s.dump = none ∧ 25 ∉ s.w.wg.peers ∧
      (∀ q, q < s.w.wg.nextPeer →
        (s.w.wg.objs q).refcount = (if q ∈ s.w.wg.peers then 1 else 0) + heldOn s.dump q) ∧
      s.w.wg.refcnt = 1 + heldDev s.dump ∧ s.w.cursors = heldCursor s.dump := by
  intro d env s₀ es
  have hs₀ : RefsExact 1 s₀ :=
    ⟨fun q (hq : q < 27) => by simp [s₀, d, World.init, hq], rfl, rfl, fun _ _ h => (nomatch h),
      fun _ h => nomatch h⟩
  -- one evaluation of the first message serves both ends of the run
  have hrun : (Sys.run env s₀ (es.take 2)).map (fun s => (s.dump.bind Cb.peer,
      (Sys.run env s (es.drop 2)).map fun s' => (s'.dump.isNone, decide (25 ∈ s'.w.wg.peers)))) =
      some (some 25, some (true, false)) := by
    decide
  obtain ⟨s₂, h₂, hs₂⟩ := Option.map_eq_some'.1 hrun
  rw [Prod.mk.injEq] at hs₂
  obtain ⟨s, h, hend⟩ := Option.map_eq_some'.1 hs₂.2
  rw [Prod.mk.injEq] at hend
  have h : Sys.run env s₀ es = some s := by
    rw [← List.take_append_drop 2 es, Sys.run_append, h₂]
    exact h
  obtain ⟨hp, hdev, hcur, -⟩ := (dump_refs_balanced hs₀ rfl).2 es s h fun c cap hm => by
    simp only [es, List.mem_cons, reduceCtorEq, Event.dumpNext.injEq, List.mem_singleton,
      false_or, or_false, List.not_mem_nil] at hm
    rcases hm with ⟨-, rfl⟩ | ⟨-, rfl⟩ <;> exact le_rfl
  exact ⟨by rw [h₂, Option.map_some', hs₂.1], s, h, Option.isNone_iff_eq_none.1 hend.1,
    of_decide_eq_false hend.2, hp, hdev, hcur⟩

end WireGuardNetlink
