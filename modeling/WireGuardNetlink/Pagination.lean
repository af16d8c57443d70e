import WireGuardNetlink.Reassembly

/-!
# Pagination of the dump

A dump as the client sees it: the messages the netlink core sends while the client offers one
buffer after another and nothing else happens (`Sys.dumpRun`). Between messages the dump changes
only peer reference counts (`ReadsAs`), so every message reads the device the dump started on.

With every buffer large enough for the message header, the device attributes and any one peer
record with its first-record attributes and one allowed IP (`dumpBound`), each message gets the
dump further (`packPeers_progress`), so it ends within `dumpWork` messages, and the messages read
back as the device's peers, each complete and once (`dump_reassembles`).

The device attributes are another matter: they go into every message sent while `args[1]` is
`NULL`, and `args[1]` stays `NULL` until a first peer record is complete
(`deviceAttrs_resent`).
-/

namespace WireGuardNetlink

/-- Two devices a dump reads alike: the same device fields, peers and table, and peer objects
that differ at most in their reference counts. -/
structure ReadsAs (d d₀ : Device) : Prop where
  head : d.head = d₀.head
  peers : d.peers = d₀.peers
  table : d.table = d₀.table
  objs : ∀ p, { d.objs p with refcount := 0 } = { d₀.objs p with refcount := 0 }

namespace ReadsAs

variable {d d₀ : Device}

lemma refl (d : Device) : ReadsAs d d := ⟨rfl, rfl, rfl, fun _ => rfl⟩

lemma wgPeerGet (h : ReadsAs d d₀) (x : Option PeerId) : ReadsAs (WireGuardNetlink.wgPeerGet d x) d₀ :=
  ⟨by simp [h.head], by simp [h.peers], by simp [h.table], fun p => by simp [← h.objs p]⟩

lemma wgPeerPut (h : ReadsAs d d₀) (x : Option PeerId) : ReadsAs (WireGuardNetlink.wgPeerPut d x) d₀ :=
  ⟨by simp [h.head], by simp [h.peers], by simp [h.table], fun p => by simp [← h.objs p]⟩

lemma remoteStatic (h : ReadsAs d d₀) (p : PeerId) :
    (d.objs p).remoteStatic = (d₀.objs p).remoteStatic := by
  have := congrArg Peer.remoteStatic (h.objs p)
  exact this

lemma peerFirstPage (h : ReadsAs d d₀) (p : PeerId) :
    WireGuardNetlink.peerFirstPage (d.objs p) = WireGuardNetlink.peerFirstPage (d₀.objs p) := by
  have := congrArg WireGuardNetlink.peerFirstPage (h.objs p)
  exact this

lemma peerRecord (h : ReadsAs d d₀) : WireGuardNetlink.peerRecord d = WireGuardNetlink.peerRecord d₀ := by
  funext p index first ips
  simp only [WireGuardNetlink.peerRecord, h.remoteStatic p, h.peerFirstPage p]

lemma packPeers (h : ReadsAs d d₀) : WireGuardNetlink.packPeers d = WireGuardNetlink.packPeers d₀ := by
  funext room idx rt todo
  induction todo generalizing room idx rt with
  | nil => rfl
  | cons q qs ih => simp only [WireGuardNetlink.packPeers, h.peerRecord, h.table, ih]

lemma msgHead (h : ReadsAs d d₀) (c : Caller) (cb : Cb) :
    WireGuardNetlink.msgHead c d cb = WireGuardNetlink.msgHead c d₀ cb := by
  have hh := h.head
  simp only [Device.head, DeviceHead.mk.injEq] at hh
  obtain ⟨h1, h2, -, h4, -, -, h7, h8, h9, h10, -⟩ := hh
  simp only [WireGuardNetlink.msgHead, msgDeviceAttrs, deviceAttrs, h1, h2, h4, h7, h8, h9, h10]

end ReadsAs

/-- Modelled from the spec: the messages a dump sends as the client offers buffers of the
capacities `caps` in turn with nothing else happening, and the state after the last. The
netlink core sends each buffer `get_device_dump` fills and stops once the dump has ended
(`Sys.step`). -/
def Sys.dumpRun (env : Env) (c : Caller) : Sys → List Nat → List Skb × Sys
  | s, [] => ([], s)
  | s, cap :: caps =>
    match s.dump, s.step env (.dumpNext c cap) with
    | some cb, some s' =>
      let m := (getDeviceDump c s.w.wg cb (Skb.empty cap)).elim (Skb.empty cap) (·.2.1)
      if s'.dump.isSome then
        let r := Sys.dumpRun env c s' caps
        (m :: r.1, r.2)
      else ([m], s')
    | _, _ => ([], s)

/-- Read messages on from what has been read so far (`reassemble` starts from nothing). -/
def readFrom (acc : List PeerDump) (msgs : List Skb) : Option (List PeerDump) :=
  (msgs.mapM fun m => readMsg m.toks).map fun as =>
    ((as.map msgPeers).flatten.map readPeer).foldl mergeRecord acc

@[simp] lemma readFrom_nil (acc : List PeerDump) : readFrom acc [] = some acc := rfl

lemma readFrom_cons {acc : List PeerDump} {m : Skb} {as : List Attr} (msgs : List Skb)
    (h : readMsg m.toks = some as) :
    readFrom acc (m :: msgs) = readFrom (((msgPeers as).map readPeer).foldl mergeRecord acc) msgs := by
  simp only [readFrom, List.mapM_cons, h]
  cases (msgs.mapM fun m => readMsg m.toks) <;> simp [List.foldl_append]

/-- The room a message needs for its header, the device attributes, the peers nest and any one
peer record with its first-record attributes and one allowed IP. -/
def dumpBound (c : Caller) (d : Device) : Nat :=
  GENL_MSG_HDRLEN + toksSize (Attr.renderList (deviceAttrs c d)) + NLA_HDRLEN +
    (d.peers.map (peerBound d)).foldr max 0

/-- The work of a whole dump: one for each peer and one for each of its allowed IPs. -/
def dumpWork (d : Device) : Nat := (d.peers.map fun p => 1 + (d.table.ownedBy p).length).sum

/-- Where a dump of `d₀` stands between messages: the peers `pre` are complete, the cursor peer
in `args[1]` is the last of them, and the allowed-IP cursor is on the first peer of `todo`. -/
structure DumpPos (d₀ : Device) (cb : Cb) (pre todo : List PeerId) (rt : AllowedIpsCursor) :
    Prop where
  peers : d₀.peers = pre ++ todo
  peer : cb.peer = pre.getLast?
  cursor : cb.rtCursor = some rt
  cursorOk : CursorOk d₀ todo rt

/-- The continued walk from the last complete peer goes over the peers after it. -/
lemma nodesAfter_prepare {pre todo : List PeerId} (h : (pre ++ todo).Nodup) :
    OnList (pre ++ todo) (listPrepareEntry pre.getLast?) ∧
      nodesAfter (pre ++ todo) (listPrepareEntry pre.getLast?) = todo := by
  rcases List.eq_nil_or_concat pre with rfl | ⟨L, b, rfl⟩
  · exact ⟨trivial, rfl⟩
  · rw [List.concat_eq_append] at h ⊢
    have hb : b ∉ L := by
      intro hm
      rw [List.append_assoc] at h
      exact (List.nodup_append.1 h).2.2 hm (by simp)
    simp only [List.getLast?_concat, listPrepareEntry, OnList, nodesAfter, List.append_assoc,
      List.singleton_append]
    exact ⟨by simp, suffixAfter_append_cons hb⟩

/-- A message that ends well: the dump goes on with the new cursor peer unless it is done. -/
lemma dumpFinish_ok (d : Device) (cb : Cb) (done : Bool) (next : Option PeerId)
    (rt : Option AllowedIpsCursor) (hdr : Nat) (skb : Skb) :
    dumpFinish d cb 0 done next rt hdr skb =
      (if done then 0 else (skb.len : Int), skb,
        { cb with peer := if done then none else next, rtCursor := rt },
        wgPeerPut (wgPeerGet d (if done then none else next)) cb.peer) := by
  cases done <;> simp [dumpFinish, wgPeerGet]

/-- The device attributes hold no peers nest. -/
lemma msgPeers_msgDeviceAttrs (c : Caller) (d : Device) (cb : Cb) (rest : List Attr) :
    msgPeers (msgDeviceAttrs c d cb ++ rest) = msgPeers rest := by
  unfold msgDeviceAttrs deviceAttrs
  split_ifs <;> simp [msgPeers]

lemma toksSize_msgHead_le (c : Caller) (d : Device) (cb : Cb) :
    toksSize (msgHead c d cb) ≤ GENL_MSG_HDRLEN + toksSize (Attr.renderList (deviceAttrs c d)) := by
  unfold msgHead msgDeviceAttrs
  split_ifs <;> simp [Tok.size]

/-- A message that got to its peers reads as its device attributes and the peers nest. -/
lemma readMsg_peers (c : Caller) (d : Device) (cb : Cb) (rs : List Attr) :
    readMsg (msgHead c d cb ++ [.nest WGDEVICE_A_PEERS] ++ Attr.renderList rs ++ [.close]) =
      some (msgDeviceAttrs c d cb ++ [.nest WGDEVICE_A_PEERS rs]) ∧
    msgPeers (msgDeviceAttrs c d cb ++ [.nest WGDEVICE_A_PEERS rs]) = rs := by
  have htoks : msgHead c d cb ++ [.nest WGDEVICE_A_PEERS] ++ Attr.renderList rs ++ [.close] =
      .hdr (decide (cb.prevSeq ≠ 0 ∧ d.updateGen ≠ cb.prevSeq)) ::
        Attr.renderList (msgDeviceAttrs c d cb ++ [.nest WGDEVICE_A_PEERS rs]) := by
    simp [msgHead, Attr.render]
  rw [htoks]
  exact ⟨readMsg_render _ _, by simp [msgPeers_msgDeviceAttrs, msgPeers]⟩

/-- A message that stopped before its peers reads as its device attributes, and has none. -/
lemma readMsg_head (c : Caller) (d : Device) (cb : Cb) :
    readMsg (msgHead c d cb) = some (msgDeviceAttrs c d cb) ∧ msgPeers (msgDeviceAttrs c d cb) = [] :=
  ⟨readMsg_render _ _, by simpa [msgPeers] using msgPeers_msgDeviceAttrs c d cb []⟩

/-- One message of a dump with room for `dumpBound`: it reads the device the dump started on,
its peer records are those the packer makes of the peers after the cursor, and the dump goes on
from where the packer stopped unless it got to the end of the list. -/
lemma dump_message {env : Env} {c : Caller} {d₀ : Device} {s : Sys} {cb : Cb} {cap : Nat}
    {pre todo : List PeerId} {rt : AllowedIpsCursor}
    (hs : s.dump = some cb) (hd : ReadsAs s.w.wg d₀) (hpos : DumpPos d₀ cb pre todo rt)
    (hcap : dumpBound c d₀ ≤ cap) :
    let P := packPeers d₀ (cap - toksSize (msgHead c d₀ cb) - NLA_HDRLEN) 0 rt todo
    ∃ s' as, s.step env (.dumpNext c cap) = some s' ∧
      readMsg ((getDeviceDump c s.w.wg cb (Skb.empty cap)).elim (Skb.empty cap) (·.2.1)).toks =
        some as ∧
      msgDeviceAttrs c d₀ cb <+: as ∧ msgPeers as = P.records ∧
      (s'.dump.isSome ↔ P.rest ≠ []) ∧
      ∀ cb', s'.dump = some cb' → ReadsAs s'.w.wg d₀ ∧ DumpPos d₀ cb' (pre ++ P.completed) P.rest P.rt := by
  intro P
  have hpeers : s.w.wg.peers = pre ++ todo := hd.peers.trans hpos.peers
  obtain ⟨hon, hafter⟩ := nodesAfter_prepare (hpeers ▸ s.w.wg.nodup_peers)
  have hroom : toksSize (msgHead c s.w.wg cb) + NLA_HDRLEN ≤ cap := by
    have := toksSize_msgHead_le c d₀ cb
    unfold dumpBound at hcap
    rw [hd.msgHead]; omega
  have hshape : todo = P.completed ++ P.rest ∧ (P.done = true ↔ P.rest = []) ∧
      CursorOk d₀ P.rest P.rt :=
    packPeers_shape d₀ (cap - toksSize (msgHead c d₀ cb) - NLA_HDRLEN) 0 todo rt hpos.cursorOk
  have hg := getDeviceDump_of_fits c s.w.wg cb cap hroom
  rw [hd.msgHead, hd.packPeers, hpeers, hpos.peer, hafter, hpos.cursor, Option.getD_some,
    ← hpos.peer, dumpFinish_ok] at hg
  dsimp only at hg
  rw [show packPeers d₀ (cap - toksSize (msgHead c d₀ cb) - NLA_HDRLEN) 0 rt todo = P from rfl,
    dumpFinish_ok] at hg
  by_cases hsk : pre ++ todo = [] ∨ ¬OnList (pre ++ todo) (listPrepareEntry cb.peer)
  · have htodo : todo = [] := by
      rcases hsk with h | h
      · exact (List.append_eq_nil.1 h).2
      · exact absurd (by rw [hpos.peer]; exact hon) h
    subst htodo
    rw [if_pos hsk] at hg
    refine ⟨_, msgDeviceAttrs c d₀ cb, by simp only [Sys.step, hs, hg, Option.map_some']; rfl,
      ?_, List.prefix_refl _, ?_, ?_, ?_⟩
    · simp only [hg, Option.elim, if_true]; exact (readMsg_head c d₀ cb).1
    · simpa [packPeers] using (readMsg_head c d₀ cb).2
    · simpa using (List.append_eq_nil.1 hshape.1.symm).2
    · simp
  · rw [if_neg hsk] at hg
    have hlen : (0 : Int) < Skb.len ⟨cap, msgHead c d₀ cb ++ [.nest WGDEVICE_A_PEERS] ++
        Attr.renderList P.records ++ [.close]⟩ := by
      simp [Skb.len, msgHead, Tok.size, GENL_MSG_HDRLEN]; omega
    obtain ⟨hread, hpeers'⟩ := readMsg_peers c d₀ cb P.records
    cases hdone : P.done
    · have hrest : P.rest ≠ [] := fun h => by simp [hshape.2.1.2 h] at hdone
      simp only [hdone, Bool.false_eq_true, if_false] at hg
      have hstep : s.step env (.dumpNext c cap) = some ⟨{ s.w with
          wg := wgPeerPut (wgPeerGet s.w.wg (P.completed.getLast?.or cb.peer)) (cb.stamp s.w.wg).peer },
          some { (cb.stamp s.w.wg) with
            peer := P.completed.getLast?.or cb.peer
            rtCursor := some P.rt }⟩ := by
        simp only [Sys.step, hs, hg, Option.map_some', hlen, if_true]
      refine ⟨_, _, hstep, by simp only [hg, Option.elim]; exact hread, List.prefix_append _ _,
        hpeers', by simp [hrest], ?_⟩
      rintro cb' ⟨⟩
      refine ⟨(hd.wgPeerGet _).wgPeerPut _, ⟨by rw [hpos.peers, hshape.1, List.append_assoc],
        ?_, rfl, hshape.2.2⟩⟩
      simp [hpos.peer]
    · have hrest : P.rest = [] := hshape.2.1.1 hdone
      rw [hdone] at hg
      refine ⟨_, _, by simp only [Sys.step, hs, hg, Option.map_some']; rfl,
        by simp only [hg, Option.elim]; exact hread, List.prefix_append _ _, hpeers', ?_, ?_⟩
      · simp [hrest]
      · simp

/-- From any point between messages, with room for `dumpBound` in every buffer and more buffers
than the work left, a dump ends within the buffers, and its messages carry the reader from what
it had read to the whole device. -/
lemma dumpRun_reads {env : Env} {c : Caller} {d₀ : Device} (hkeys : d₀.keys.Nodup) :
    ∀ (caps : List Nat) (s : Sys) (cb : Cb) (pre todo : List PeerId) (rt : AllowedIpsCursor),
      s.dump = some cb → ReadsAs s.w.wg d₀ → DumpPos d₀ cb pre todo rt →
      (∀ cap ∈ caps, dumpBound c d₀ ≤ cap) → dumpLeft d₀ todo rt < caps.length →
      (s.dumpRun env c caps).2.dump = none ∧
      (s.dumpRun env c caps).1.length ≤ dumpLeft d₀ todo rt + 1 ∧
      readFrom (readSoFar d₀ pre todo rt) (s.dumpRun env c caps).1 = some (dumpView d₀)
  | [], _, _, _, _, _, _, _, _, _, hlen => absurd hlen (Nat.not_lt_zero _)
  | cap :: caps, s, cb, pre, todo, rt, hs, hd, hpos, hcaps, hlen => by
    have hcap := hcaps cap (List.mem_cons_self _ _)
    obtain ⟨s', as, hstep, hread, -, hmsg, hiff, hnext⟩ := @dump_message env c _ _ _ _ _ _ _ hs hd hpos hcap
    set P := packPeers d₀ (cap - toksSize (msgHead c d₀ cb) - NLA_HDRLEN) 0 rt todo with hP
    have hkeys' : ((pre ++ todo).map fun p => (d₀.objs p).remoteStatic).Nodup := by
      rw [← hpos.peers]; exact hkeys
    have hfold := packPeers_read d₀ (cap - toksSize (msgHead c d₀ cb) - NLA_HDRLEN) 0 pre todo rt
      hkeys' hpos.cursorOk
    have hshape := packPeers_shape d₀ (cap - toksSize (msgHead c d₀ cb) - NLA_HDRLEN) 0 todo rt
      hpos.cursorOk
    rw [← hP] at hfold hshape
    simp only [Sys.dumpRun, hs, hstep]
    by_cases hr : P.rest = []
    · have hnone : s'.dump = none := by
        simpa [hr] using hiff
      simp only [hnone, Option.isSome_none, Bool.false_eq_true, if_false, List.length_singleton]
      refine ⟨trivial, by omega, ?_⟩
      rw [readFrom_cons _ hread, hmsg, hfold, hr, readFrom_nil]
      simp [readSoFar, dumpView, hpos.peers, hshape.1, hr]
    · obtain ⟨cb', hcb'⟩ := Option.isSome_iff_exists.1 (hiff.2 hr)
      obtain ⟨hd', hpos'⟩ := hnext cb' hcb'
      obtain ⟨q, qs, rfl⟩ : ∃ q qs, todo = q :: qs := by
        cases todo with
        | nil => exact absurd (by simp [hP, packPeers]) hr
        | cons q qs => exact ⟨q, qs, rfl⟩
      have hroom : peerBound d₀ q ≤ cap - toksSize (msgHead c d₀ cb) - NLA_HDRLEN := by
        have h1 := toksSize_msgHead_le c d₀ cb
        have h2 : peerBound d₀ q ≤ (d₀.peers.map (peerBound d₀)).foldr max 0 :=
          le_foldr_max (List.mem_map_of_mem _ (by rw [hpos.peers]; simp))
        unfold dumpBound at hcap
        omega
      have hprog := packPeers_progress d₀ _ 0 q qs rt hpos.cursorOk hroom
      rw [← hP] at hprog
      obtain ⟨h1, h2, h3⟩ := dumpRun_reads hkeys caps s' cb' _ _ _ hcb' hd' hpos'
        (fun cap h => hcaps cap (List.mem_cons_of_mem _ h))
        (by simp only [List.length_cons] at hlen; omega)
      simp only [hcb', Option.isSome_some, if_true, List.length_cons]
      rw [readFrom_cons _ hread, hmsg, hfold]
      exact ⟨h1, by omega, h3⟩

lemma dumpLeft_cleared (d : Device) (todo : List PeerId) :
    dumpLeft d todo {} = (todo.map fun p => 1 + (d.table.ownedBy p).length).sum := by
  cases todo <;> simp [dumpLeft]

/-- What a dump started well holds and reads: the callback with the device and a cleared cursor,
and the device as it was but for the reference the dump takes on it. -/
lemma dumpStart_ok {env : Env} {c : Caller} {buf : Bytes} {s₀ s : Sys}
    (hstart : s₀.step env (.dumpStart c buf) = some s) (hok : s.dump.isSome) :
    s.dump = some { Cb.init with wg := true, rtCursor := some {} } ∧
      (s.w.wg = s₀.w.wg ∨ s.w.wg = { s₀.w.wg with refcnt := s₀.w.wg.refcnt + 1 }) := by
  simp only [Sys.step] at hstart
  split at hstart
  · cases hstart
  · cases hstart
    have h0 : (getDeviceStart env c buf s₀.w).1 = 0 := by
      by_contra h; simp [h] at hok
    exact ⟨by simp [h0, getDeviceStart_ok h0], getDeviceStart_wg env c buf s₀.w⟩

/-- Pagination transparency: a dump started well on a device whose peers have distinct keys,
offered a buffer of room `dumpBound` for each message and more buffers than `dumpWork`, ends
within them, after at most `dumpWork + 1` messages, and its messages read back as the device's
peers in list order, each with its key, its first-record attributes once and all its allowed IPs
in full. -/
theorem dump_reassembles {env : Env} {c : Caller} {buf : Bytes} {s₀ s : Sys} {caps : List Nat}
    (hstart : s₀.step env (.dumpStart c buf) = some s) (hok : s.dump.isSome)
    (hkeys : s₀.w.wg.keys.Nodup) (hcaps : ∀ cap ∈ caps, dumpBound c s₀.w.wg ≤ cap)
    (hlen : dumpWork s₀.w.wg < caps.length) :
    (s.dumpRun env c caps).2.dump = none ∧
      (s.dumpRun env c caps).1.length ≤ dumpWork s₀.w.wg + 1 ∧
      reassemble (s.dumpRun env c caps).1 = some (dumpView s₀.w.wg) := by
  obtain ⟨hs, hwg⟩ := dumpStart_ok hstart hok
  have hrun := @dumpRun_reads env c s.w.wg
  rcases hwg with hwg | hwg <;> rw [hwg] at hrun <;>
  · obtain ⟨h1, h2, h3⟩ := hrun hkeys caps s { Cb.init with wg := true, rtCursor := some {} } []
      s₀.w.wg.peers {} hs (hwg ▸ ReadsAs.refl _) ⟨rfl, rfl, rfl, .inl rfl⟩ hcaps
      (by rw [dumpLeft_cleared]; exact hlen)
    rw [dumpLeft_cleared] at h2
    rw [readSoFar_cleared] at h3
    exact ⟨h1, h2, h3⟩

/-- Pagination transparency on a device with two peers, the first with two allowed IPs, dumped
into five buffers of 224 bytes. -/
theorem dump_reassembles_two_peers :
    let env := Env.reliable ⟨fun s _ => s, Key.zero⟩
    let c := Caller.admin 0
    let buf := nlaEncode [(WGDEVICE_A_IFINDEX, u32Bytes 1)]
    let d : Device := { Device.create 1 [119] 0 with
      peers := [0, 1]
      objs := fun p => { Peer.blank with remoteStatic := ⟨List.replicate 32 (UInt8.ofNat p + 1), by simp⟩ }
      nextPeer := 2
      table := ⟨[(⟨AF_INET, [10, 0, 0, 0], 8⟩, 0), (⟨AF_INET, [10, 1, 0, 0], 16⟩, 0)], 1, Nat.one_pos⟩
      nodup_peers := by decide
      lt_nextPeer := by decide }
    let s₀ : Sys := ⟨World.init d, none⟩
    let s : Sys := ⟨(getDeviceStart env c buf s₀.w).2.2, some (getDeviceStart env c buf s₀.w).2.1⟩
    let caps := List.replicate 5 224
    (s₀.step env (.dumpStart c buf) = some s ∧ s.dump.isSome ∧ s₀.w.wg.keys.Nodup ∧
      (∀ cap ∈ caps, dumpBound c s₀.w.wg ≤ cap) ∧ dumpWork s₀.w.wg < caps.length) ∧
    reassemble (s.dumpRun env c caps).1 = some (dumpView s₀.w.wg) := by
  intro env c buf d s₀ s caps
  have h0 : (getDeviceStart env c buf s₀.w).1 = 0 := by decide
  have h1 : s₀.step env (.dumpStart c buf) = some s := by simp only [Sys.step, h0, if_true]
  have h3 : s₀.w.wg.keys.Nodup := by decide
  have h4 : ∀ cap ∈ caps, dumpBound c s₀.w.wg ≤ cap := by decide
  have h5 : dumpWork s₀.w.wg < caps.length := by decide
  exact ⟨⟨h1, rfl, h3, h4, h5⟩, (dump_reassembles h1 rfl h3 h4 h5).2.2⟩

lemma toksSize_msgHead_first (c : Caller) (d : Device) (cb : Cb) (h : cb.peer = none) :
    toksSize (msgHead c d cb) = GENL_MSG_HDRLEN + toksSize (Attr.renderList (deviceAttrs c d)) := by
  simp [msgHead, msgDeviceAttrs, h, Tok.size]

/-- The device attributes go out twice: when the first message has room for `dumpBound` but not
for the device attributes with the first peer's whole record, it completes no record, `args[1]`
stays `NULL`, and the second message carries the device attributes again. -/
theorem deviceAttrs_resent {env : Env} {c : Caller} {buf : Bytes} {s₀ s : Sys} {q : PeerId}
    {qs : List PeerId} {cap₁ cap₂ : Nat} {caps : List Nat}
    (hstart : s₀.step env (.dumpStart c buf) = some s) (hok : s.dump.isSome)
    (hpeers : s₀.w.wg.peers = q :: qs)
    (hcap₁ : dumpBound c s₀.w.wg ≤ cap₁) (hcap₂ : dumpBound c s₀.w.wg ≤ cap₂)
    (hsplit : cap₁ < GENL_MSG_HDRLEN + toksSize (Attr.renderList (deviceAttrs c s₀.w.wg)) +
      NLA_HDRLEN + (peerRecord s₀.w.wg q 0 true (s₀.w.wg.table.ownedBy q)).size) :
    ∃ m₁ m₂ ms as₁ as₂, (s.dumpRun env c (cap₁ :: cap₂ :: caps)).1 = m₁ :: m₂ :: ms ∧
      readMsg m₁.toks = some as₁ ∧ deviceAttrs c s₀.w.wg <+: as₁ ∧
      readMsg m₂.toks = some as₂ ∧ deviceAttrs c s₀.w.wg <+: as₂ := by
  obtain ⟨hs, hwg⟩ := dumpStart_ok hstart hok
  have key : ∀ d₀ : Device, ReadsAs s.w.wg d₀ → d₀.peers = q :: qs → dumpBound c d₀ ≤ cap₁ →
      dumpBound c d₀ ≤ cap₂ → cap₁ < GENL_MSG_HDRLEN + toksSize (Attr.renderList (deviceAttrs c d₀)) +
        NLA_HDRLEN + (peerRecord d₀ q 0 true (d₀.table.ownedBy q)).size →
      ∃ m₁ m₂ ms as₁ as₂, (s.dumpRun env c (cap₁ :: cap₂ :: caps)).1 = m₁ :: m₂ :: ms ∧
        readMsg m₁.toks = some as₁ ∧ deviceAttrs c d₀ <+: as₁ ∧
        readMsg m₂.toks = some as₂ ∧ deviceAttrs c d₀ <+: as₂ := by
    intro d₀ hd hpeers hcap₁ hcap₂ hsplit
    set cb₀ : Cb := { Cb.init with wg := true, rtCursor := some {} }
    obtain ⟨s', as₁, hstep₁, hread₁, hpre₁, -, hiff₁, hnext₁⟩ :=
      @dump_message env c d₀ s cb₀ cap₁ [] (q :: qs) {} hs hd ⟨hpeers, rfl, rfl, .inl rfl⟩ hcap₁
    have hroom := toksSize_msgHead_first c d₀ cb₀ rfl
    have hbound : peerBound d₀ q ≤ (d₀.peers.map (peerBound d₀)).foldr max 0 :=
      le_foldr_max (List.mem_map_of_mem _ (by simp [hpeers]))
    unfold dumpBound peerBound at hcap₁
    unfold peerBound at hbound
    obtain ⟨hc, hr⟩ := packPeers_split d₀ (cap₁ - toksSize (msgHead c d₀ cb₀) - NLA_HDRLEN) q qs
      (by omega) (by omega)
    obtain ⟨cb₁, hcb₁⟩ := Option.isSome_iff_exists.1 (hiff₁.2 (by simp [hr]))
    obtain ⟨hd₁, hpos₁⟩ := hnext₁ cb₁ hcb₁
    rw [hc, hr] at hpos₁
    obtain ⟨s'', as₂, hstep₂, hread₂, hpre₂, -, -, -⟩ := @dump_message env c d₀ s' cb₁ cap₂ _ _ _
      hcb₁ hd₁ hpos₁ hcap₂
    have hnone : cb₁.peer = none := hpos₁.peer
    simp only [msgDeviceAttrs, hnone, Option.isNone_none, if_true] at hpre₂
    simp only [msgDeviceAttrs, cb₀, Option.isNone_none, if_true] at hpre₁
    simp only [Sys.dumpRun, hs, hstep₁, hcb₁, Option.isSome_some, if_true, hstep₂]
    split <;> exact ⟨_, _, _, _, _, rfl, hread₁, hpre₁, hread₂, hpre₂⟩
  have key := key s.w.wg (ReadsAs.refl _)
  rcases hwg with hwg | hwg <;> rw [hwg] at key <;> exact key hpeers hcap₁ hcap₂ hsplit

/-- The same device dumped into buffers of 224 bytes: room for `dumpBound`, but not for the
first peer with both its allowed IPs. The first two messages both carry the device attributes. -/
theorem dump_sends_deviceAttrs_twice :
    (fun d : Device =>
      (fun s : Sys => ∃ m₁ m₂ ms as₁ as₂,
        (s.dumpRun (Env.reliable ⟨fun s _ => s, Key.zero⟩) (Caller.admin 0) [224, 224, 224]).1 =
          m₁ :: m₂ :: ms ∧
        readMsg m₁.toks = some as₁ ∧ deviceAttrs (Caller.admin 0) d <+: as₁ ∧
        readMsg m₂.toks = some as₂ ∧ deviceAttrs (Caller.admin 0) d <+: as₂)
      ⟨(getDeviceStart (Env.reliable ⟨fun s _ => s, Key.zero⟩) (Caller.admin 0)
          (nlaEncode [(WGDEVICE_A_IFINDEX, u32Bytes 1)]) (World.init d)).2.2,
        some (getDeviceStart (Env.reliable ⟨fun s _ => s, Key.zero⟩) (Caller.admin 0)
          (nlaEncode [(WGDEVICE_A_IFINDEX, u32Bytes 1)]) (World.init d)).2.1⟩)
    { Device.create 1 [119] 0 with
      peers := [0, 1]
      objs := fun p => { Peer.blank with remoteStatic := ⟨List.replicate 32 (UInt8.ofNat p + 1), by simp⟩ }
      nextPeer := 2
      table := ⟨[(⟨AF_INET, [10, 0, 0, 0], 8⟩, 0), (⟨AF_INET, [10, 1, 0, 0], 16⟩, 0)], 1, Nat.one_pos⟩
      nodup_peers := by decide
      lt_nextPeer := by decide } := by
  refine @deviceAttrs_resent _ _ (nlaEncode [(WGDEVICE_A_IFINDEX, u32Bytes 1)])
    ⟨World.init _, none⟩ _ 0 [1] 224 224 [224] ?_ rfl rfl (by decide) (by decide) (by decide)
  simp only [Sys.step]
  rw [if_pos (by decide)]

end WireGuardNetlink
