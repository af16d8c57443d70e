import Mathlib
import WireGuardNetlink.Events

/-!
# What a message holds

The content of one message of the dump, as a reader of the message sees it (`Attr`). The writes
of `get_device_dump` come in runs of `nla_put` and `nla_nest_start` that each either all fit or
stop at the first that does not (`Skb.pushAll_eq`); so the device attributes, the first-record
fields of a peer and one allowed IP are each written whole or not at all, the allowed-IP walk
writes the longest run of a peer's prefixes that fits (`walkEntries_getAllowedips`), and
`get_peer` writes one peer record (`peerRecord`) or nothing (`getPeer_cases`).
-/

namespace WireGuardNetlink

/-- Write pieces one after another, stopping at the first that does not fit. -/
def Skb.pushAll (skb : Skb) : List Tok → Option Skb
  | [] => some skb
  | t :: ts => (skb.push t).bind fun s => s.pushAll ts

/-- A run of writes into a buffer within its room fits exactly when all of it does. -/
lemma Skb.pushAll_eq (skb : Skb) (ts : List Tok) (h : skb.len ≤ skb.cap) :
    skb.pushAll ts =
      if skb.len + toksSize ts ≤ skb.cap then some ⟨skb.cap, skb.toks ++ ts⟩ else none := by
  induction ts generalizing skb with
  | nil => simp [Skb.pushAll, h]
  | cons t ts ih =>
    simp only [Skb.pushAll, Skb.push, toksSize_cons]
    split
    · rename_i h
      rw [Option.some_bind, ih ⟨skb.cap, skb.toks ++ [t]⟩ (by rw [Skb.len_toks_append]; simpa using h)]
      simp only [Skb.len_toks_append, toksSize_cons, toksSize_nil, List.append_assoc,
        List.singleton_append]
      congr 1
      apply propext; omega
    · rename_i h
      simp only [Option.none_bind]
      rw [if_neg (by omega)]

lemma Skb.push_eq_pushAll (skb : Skb) (t : Tok) : skb.push t = skb.pushAll [t] := by
  simp [Skb.pushAll]

lemma Skb.pushAll_append (skb : Skb) (ts us : List Tok) :
    skb.pushAll (ts ++ us) = (skb.pushAll ts).bind fun s => s.pushAll us := by
  induction ts generalizing skb with
  | nil => simp [Skb.pushAll]
  | cons t ts ih =>
    simp only [List.cons_append, Skb.pushAll, Option.bind_assoc]
    congr 1; funext s; exact ih s

/-- The device attributes of a first message (`putDeviceAttrs`). -/
def deviceAttrs (c : Caller) (d : Device) : List Attr :=
  (if testSocketNetCapable c d.transitNet = 0 then
    [.leaf WGDEVICE_A_LISTEN_PORT (u16Bytes d.incomingPort)] else []) ++
  [.leaf WGDEVICE_A_FWMARK (u32Bytes d.fwmark),
   .leaf WGDEVICE_A_IFINDEX (u32Bytes (UInt32.ofNat d.ifindex)),
   .leaf WGDEVICE_A_IFNAME (d.name ++ [0])] ++
  (if d.identity.hasIdentity then
    [.leaf WGDEVICE_A_PRIVATE_KEY d.identity.staticPrivate.bytes,
     .leaf WGDEVICE_A_PUBLIC_KEY d.identity.staticPublic.bytes] else [])

/-- The attributes only the first record of a peer carries (`putPeerFirstPage`). -/
def peerFirstPage (o : Peer) : List Attr :=
  [.leaf WGPEER_A_PRESHARED_KEY o.presharedKey.bytes,
   .leaf WGPEER_A_LAST_HANDSHAKE_TIME o.lastHandshake,
   .leaf WGPEER_A_PERSISTENT_KEEPALIVE_INTERVAL (u16Bytes o.keepalive),
   .leaf WGPEER_A_TX_BYTES (u64Bytes o.txBytes),
   .leaf WGPEER_A_RX_BYTES (u64Bytes o.rxBytes),
   .leaf WGPEER_A_PROTOCOL_VERSION (u32Bytes 1)] ++
  (if o.endpoint.family = AF_INET then
    [.leaf WGPEER_A_ENDPOINT (o.endpoint.bytes.take SIZEOF_SOCKADDR_IN)]
  else if o.endpoint.family = AF_INET6 then [.leaf WGPEER_A_ENDPOINT o.endpoint.bytes]
  else [])

/-- The fields of one allowed IP (`get_allowedips`). -/
def allowedipFields (ip : AllowedIp) : List Attr :=
  [.leaf WGALLOWEDIP_A_CIDR_MASK (u8Bytes ip.cidr),
   .leaf WGALLOWEDIP_A_FAMILY (u16Bytes (UInt16.ofNat ip.family)),
   .leaf WGALLOWEDIP_A_IPADDR
     (ip.addr.take (if ip.family = AF_INET6 then SIZEOF_IN6_ADDR else SIZEOF_IN_ADDR))]

/-- Allowed IPs written from the counter `i` on, each in a nest numbered by the counter. -/
def allowedipAttrs : Nat → List AllowedIp → List Attr
  | _, [] => []
  | i, ip :: ips => .nest i (allowedipFields ip) :: allowedipAttrs (i + 1) ips

/-- A peer record as `get_peer` writes it: the nest numbered `index`, the key, the first-record
attributes when `first`, and the allowed IPs `ips`. -/
def peerRecord (d : Device) (p : PeerId) (index : Nat) (first : Bool) (ips : List AllowedIp) :
    Attr :=
  .nest index ([.leaf WGPEER_A_PUBLIC_KEY (d.objs p).remoteStatic.bytes] ++
    (if first then peerFirstPage (d.objs p) else []) ++
    [.nest WGPEER_A_ALLOWEDIPS (allowedipAttrs 0 ips)])

@[simp] lemma renderList_append (as bs : List Attr) :
    Attr.renderList (as ++ bs) = Attr.renderList as ++ Attr.renderList bs := by
  induction as with
  | nil => rfl
  | cons a as ih => simp [Attr.renderList, ih]

@[simp] lemma renderList_cons (a : Attr) (as : List Attr) :
    Attr.renderList (a :: as) = a.render ++ Attr.renderList as := rfl

@[simp] lemma renderList_nil : Attr.renderList [] = [] := rfl

lemma putDeviceAttrs_eq (c : Caller) (d : Device) (skb : Skb) :
    putDeviceAttrs c d skb = skb.pushAll (Attr.renderList (deviceAttrs c d)) := by
  simp only [putDeviceAttrs, deviceAttrs, nlaPutU16, nlaPutU32, nlaPutString, nlaPut,
    Skb.push_eq_pushAll]
  split <;> split <;>
    simp [Skb.pushAll_append, Attr.render, Skb.pushAll, Option.bind_assoc]

lemma putPeerFirstPage_eq (o : Peer) (skb : Skb) :
    putPeerFirstPage o skb = skb.pushAll (Attr.renderList (peerFirstPage o)) := by
  simp only [putPeerFirstPage, peerFirstPage, nlaPutU16, nlaPutU32, nlaPutU64, nlaPut,
    Skb.push_eq_pushAll]
  split
  · simp [Skb.pushAll_append, Attr.render, Skb.pushAll, Option.bind_assoc, *]
  · split <;> simp [Skb.pushAll_append, Attr.render, Skb.pushAll, Option.bind_assoc, *]

/-- Closing a nest of a buffer within its room always fits. -/
lemma Skb.pushAll_close (skb : Skb) (h : skb.len ≤ skb.cap) :
    skb.pushAll [.close] = some (nlaNestEnd skb) := by
  simp [Skb.pushAll, Skb.push, Tok.size, h, nlaNestEnd]

lemma Skb.len_le_of_push {skb s : Skb} {t : Tok} (h : skb.push t = some s) : s.len ≤ s.cap := by
  obtain ⟨h₁, rfl⟩ := Skb.push_eq_some.1 h
  simpa using h₁

lemma getAllowedips_eq (skb : Skb) (i : Nat) (ip : AllowedIp) :
    getAllowedips (skb, i) ip =
      (skb.pushAll (Attr.render (.nest i (allowedipFields ip)))).map fun s => (s, i + 1) := by
  simp only [getAllowedips, nlaNestStart, nlaPutU8, nlaPutU16, nlaPut, allowedipFields,
    Attr.render, renderList_cons, renderList_nil, List.append_nil, List.cons_append,
    List.nil_append, Skb.pushAll]
  cases h0 : skb.push (.nest i) with
  | none => simp
  | some s0 =>
    cases h1 : s0.push (.put WGALLOWEDIP_A_CIDR_MASK (u8Bytes ip.cidr)) with
    | none => simp [h1]
    | some s1 =>
      cases h2 : s1.push (.put WGALLOWEDIP_A_FAMILY (u16Bytes (UInt16.ofNat ip.family))) with
      | none => simp [h1, h2]
      | some s2 =>
        cases h3 : s2.push (.put WGALLOWEDIP_A_IPADDR
            (ip.addr.take (if ip.family = AF_INET6 then SIZEOF_IN6_ADDR else SIZEOF_IN_ADDR))) with
        | none => simp [h1, h2, h3]
        | some s3 =>
          have := Skb.pushAll_close s3 (Skb.len_le_of_push h3)
          simp only [Skb.pushAll, Option.bind_some] at this
          simp [h1, h2, h3, this]

/-- The room an attribute takes. -/
def Attr.size (a : Attr) : Nat := toksSize a.render

/-- The room one allowed IP takes, whatever its number. -/
def ipSize (ip : AllowedIp) : Nat := (Attr.nest 0 (allowedipFields ip)).size

/-- How many of the items fit, one after another, in the room. -/
def fitCount : Nat → List Nat → Nat
  | _, [] => 0
  | room, s :: ss => if s ≤ room then fitCount (room - s) ss + 1 else 0

lemma fitCount_le (room : Nat) (ss : List Nat) : fitCount room ss ≤ ss.length := by
  induction ss generalizing room with
  | nil => exact le_refl _
  | cons s ss ih => simp only [fitCount]; split <;> simp [ih]

@[simp] lemma size_nest_allowedipFields (i : Nat) (ip : AllowedIp) :
    (Attr.nest i (allowedipFields ip)).size = ipSize ip := by
  simp [Attr.size, ipSize, Attr.render, Tok.size]

lemma toksSize_allowedipAttrs (i : Nat) (ips : List AllowedIp) :
    toksSize (Attr.renderList (allowedipAttrs i ips)) = (ips.map ipSize).sum := by
  induction ips generalizing i with
  | nil => rfl
  | cons ip ips ih =>
    rw [allowedipAttrs, renderList_cons, toksSize_append, ih, List.map_cons, List.sum_cons]
    rw [← size_nest_allowedipFields i ip]; rfl

/-- The items that fit take no more than the room. -/
lemma sum_take_fitCount (room : Nat) (ss : List Nat) : (ss.take (fitCount room ss)).sum ≤ room := by
  induction ss generalizing room with
  | nil => simp
  | cons s ss ih =>
    simp only [fitCount]
    split
    · have := ih (room - s)
      simp only [List.take_succ_cons, List.sum_cons]
      omega
    · simp

/-- The allowed-IP walk writes the longest run of the prefixes that fits. -/
lemma walkEntries_getAllowedips (ips : List AllowedIp) (skb : Skb) (i : Nat)
    (h : skb.len ≤ skb.cap) :
    walkEntries getAllowedips ips (skb, i) =
      let m := fitCount (skb.cap - skb.len) (ips.map ipSize)
      (m, decide (m = ips.length),
        (⟨skb.cap, skb.toks ++ Attr.renderList (allowedipAttrs i (ips.take m))⟩, i + m)) := by
  induction ips generalizing skb i with
  | nil => cases skb; simp [walkEntries, fitCount, allowedipAttrs]
  | cons ip ips ih =>
    simp only [walkEntries, getAllowedips_eq, Skb.pushAll_eq _ _ h]
    have hsz : toksSize (Attr.render (.nest i (allowedipFields ip))) = ipSize ip :=
      size_nest_allowedipFields i ip
    rw [hsz]
    by_cases hfit : skb.len + ipSize ip ≤ skb.cap
    · rw [if_pos hfit]
      simp only [Option.map_some']
      rw [ih _ _ (by simp [Skb.len_toks_append, hsz]; omega)]
      simp only [List.map_cons, fitCount, if_pos (show ipSize ip ≤ skb.cap - skb.len by omega),
        Skb.len_toks_append, hsz, List.length_cons, List.take_succ_cons, allowedipAttrs,
        renderList_cons, List.append_assoc]
      simp only [Nat.sub_sub, Nat.add_right_cancel_iff, Prod.mk.injEq, true_and]
      omega
    · rw [if_neg hfit]
      have hnf : ¬ ipSize ip ≤ skb.cap - skb.len := by omega
      cases skb
      simp [fitCount, allowedipAttrs, hnf]

/-- The prefixes of a peer the walk from a cursor goes over: none once the table has changed
since the walk started, the rest after the cursor otherwise. -/
def walkIps (t : AllowedIps) (rt : AllowedIpsCursor) (p : PeerId) : List AllowedIp :=
  if rt.seq ≠ 0 ∧ rt.seq ≠ t.seq then [] else (t.ownedBy p).drop rt.pos

/-- The room of a record is its head's and its prefixes'. -/
lemma size_peerRecord (d : Device) (p : PeerId) (index : Nat) (first : Bool)
    (ips : List AllowedIp) :
    (peerRecord d p index first ips).size =
      (peerRecord d p index first []).size + (ips.map ipSize).sum := by
  simp only [Attr.size, peerRecord, Attr.render, renderList_append, renderList_cons,
    renderList_nil, toksSize_append, toksSize_cons, toksSize_nil, toksSize_allowedipAttrs,
    allowedipAttrs, List.append_nil, List.cons_append, List.nil_append, List.map_nil,
    List.sum_nil]
  omega

/-- The pieces `get_peer` writes after opening the record's nest and before the walk. -/
def peerHeadToks (o : Peer) (first : Bool) : List Tok :=
  [.put WGPEER_A_PUBLIC_KEY o.remoteStatic.bytes] ++
    Attr.renderList (if first then peerFirstPage o else []) ++ [.nest WGPEER_A_ALLOWEDIPS]

/-- The head of a record is one run of writes. -/
lemma getPeer_head_eq (o : Peer) (first : Bool) (s : Skb) :
    (do let s ← nlaPut s WGPEER_A_PUBLIC_KEY o.remoteStatic.bytes
        let s ← if first = true then putPeerFirstPage o s else some s
        nlaNestStart s WGPEER_A_ALLOWEDIPS).map Prod.snd = s.pushAll (peerHeadToks o first) := by
  cases first <;>
    simp [nlaPut, nlaNestStart, peerHeadToks, Skb.pushAll, Skb.pushAll_append,
      putPeerFirstPage_eq, Option.map_bind, Option.bind_assoc, Function.comp_def]

lemma render_peerRecord (d : Device) (p : PeerId) (index : Nat) (first : Bool)
    (ips : List AllowedIp) :
    (peerRecord d p index first ips).render =
      .nest index :: peerHeadToks (d.objs p) first ++
        Attr.renderList (allowedipAttrs 0 ips) ++ [.close, .close] := by
  simp [peerRecord, Attr.render, peerHeadToks]

lemma size_peerRecord_nil (d : Device) (p : PeerId) (index : Nat) (first : Bool) :
    (peerRecord d p index first []).size = NLA_HDRLEN + toksSize (peerHeadToks (d.objs p) first) := by
  simp [Attr.size, peerRecord, Attr.render, peerHeadToks, allowedipAttrs, Tok.size]

/-- `get_peer` writes nothing when the head of the record does not fit, and otherwise the record
with the longest run of the peer's remaining prefixes that fits; the record is complete, and the
cursor cleared, when all of them do. -/
lemma getPeer_eq (d : Device) (p : PeerId) (index : Nat) (rt : AllowedIpsCursor) (skb : Skb)
    (h : skb.len ≤ skb.cap) :
    getPeer d p index rt skb =
      let first := decide (rt.seq = 0)
      let ips := walkIps d.table rt p
      let head := (peerRecord d p index first []).size
      if skb.cap - skb.len < head then (-EMSGSIZE, rt, skb)
      else
        let m := fitCount (skb.cap - skb.len - head) (ips.map ipSize)
        (if m = ips.length then 0 else -EMSGSIZE,
          if m = ips.length then {} else ⟨d.table.seq, rt.pos + m⟩,
          ⟨skb.cap, skb.toks ++ (peerRecord d p index first (ips.take m)).render⟩) := by
  have hhead := getPeer_head_eq (d.objs p) (decide (rt.seq = 0))
  simp only [decide_eq_true_eq] at hhead
  simp only [size_peerRecord_nil]
  have hn : nlaNestStart skb index = (skb.pushAll [.nest index]).map (skb.toks.length, ·) := by
    simp [nlaNestStart, Skb.pushAll]
  simp only [getPeer]
  rw [hn, Skb.pushAll_eq _ _ h]
  by_cases h1 : skb.len + toksSize [.nest index] ≤ skb.cap
  · rw [if_pos h1]
    dsimp only [Option.map_some']
    have hlen : Skb.len ⟨skb.cap, skb.toks ++ [.nest index]⟩ ≤ skb.cap := by simpa using h1
    split
    · rename_i hnone
      have hp := hhead ⟨skb.cap, skb.toks ++ [.nest index]⟩
      rw [hnone, Option.map_none', Skb.pushAll_eq _ _ hlen] at hp
      split at hp
      · cases hp
      · rw [if_pos (by simp [Tok.size] at *; omega)]
        cases skb; simp [Skb.trim]
    · rename_i x s hsome
      have hp := hhead ⟨skb.cap, skb.toks ++ [.nest index]⟩
      rw [hsome, Option.map_some', Skb.pushAll_eq _ _ hlen] at hp
      split at hp
      · rename_i hfit
        cases hp
        simp only [Skb.len_toks_append, toksSize_cons, toksSize_nil, Tok.size] at hfit
        have hroom : ¬ skb.cap - skb.len <
            NLA_HDRLEN + toksSize (peerHeadToks (d.objs p) (decide (rt.seq = 0))) := by omega
        rw [if_neg hroom]
        have hs : Skb.len ⟨skb.cap, skb.toks ++ [.nest index] ++ peerHeadToks (d.objs p)
            (decide (rt.seq = 0))⟩ ≤ skb.cap := by simp [Tok.size]; omega
        simp only [wgAllowedipsWalkByPeer, walkIps]
        split
        · simp [fitCount, render_peerRecord, allowedipAttrs, nlaNestEnd]
        · rw [walkEntries_getAllowedips _ _ _ hs]
          have hc : skb.cap - Skb.len ⟨skb.cap, skb.toks ++ [.nest index] ++
              peerHeadToks (d.objs p) (decide (rt.seq = 0))⟩ =
              skb.cap - skb.len - (NLA_HDRLEN + toksSize (peerHeadToks (d.objs p)
                (decide (rt.seq = 0)))) := by
            simp [Tok.size]; omega
          dsimp only
          rw [hc]
          generalize List.drop rt.pos (d.table.ownedBy p) = ips
          generalize fitCount _ (ips.map ipSize) = m
          by_cases hm : m = ips.length <;> simp [hm, render_peerRecord, nlaNestEnd, EMSGSIZE]
      · cases hp
  · rw [if_neg h1, if_pos (by simp [Tok.size] at h1 ⊢; omega)]
    rfl

/-- What the peer loop makes of a run of peers: the records it writes, the peers whose records
are complete, the peers from the one it stopped at, the cursor it leaves and whether it got to
the end of the list. -/
structure Pack where
  records : List Attr
  completed : List PeerId
  rest : List PeerId
  rt : AllowedIpsCursor
  done : Bool

/-- The peer loop in `room` bytes, the first peer resumed at the cursor `rt`: each record is
written as `getPeer_eq` says, and the loop stops at the first that is not complete. -/
def packPeers (d : Device) (room idx : Nat) (rt : AllowedIpsCursor) : List PeerId → Pack
  | [] => ⟨[], [], [], rt, true⟩
  | q :: qs =>
    let first := decide (rt.seq = 0)
    let ips := walkIps d.table rt q
    let head := (peerRecord d q idx first []).size
    if room < head then ⟨[], [], q :: qs, rt, false⟩
    else
      let m := fitCount (room - head) (ips.map ipSize)
      let r := peerRecord d q idx first (ips.take m)
      if m = ips.length then
        let P := packPeers d (room - r.size) (idx + 1) {} qs
        ⟨r :: P.records, q :: P.completed, P.rest, P.rt, P.done⟩
      else ⟨[r], [], q :: qs, ⟨d.table.seq, rt.pos + m⟩, false⟩

lemma getLast?_or_cons (q : PeerId) (l : List PeerId) (x : Option PeerId) :
    (q :: l).getLast?.or x = l.getLast?.or (some q) := by
  cases h : l.getLast? <;> simp_all [List.getLast?_cons]

/-- The loop of `get_device_dump` computes `packPeers`: it writes the records after what the
buffer holds, and leaves the cursor, the last complete peer and the end flag the packer says. -/
lemma foldBreak_dumpPeerStep (d : Device) (ps : List PeerId) (st : DumpLoop)
    (h : st.skb.len ≤ st.skb.cap) (hdone : st.done = true) :
    let P := packPeers d (st.skb.cap - st.skb.len) st.idx st.rt ps
    let st' := foldBreak (dumpPeerStep d) ps st
    st'.rt = P.rt ∧ st'.skb = ⟨st.skb.cap, st.skb.toks ++ Attr.renderList P.records⟩ ∧
      st'.next = P.completed.getLast?.or st.next ∧ st'.done = P.done := by
  induction ps generalizing st with
  | nil => cases st; simp_all [foldBreak, packPeers]
  | cons q qs ih =>
    obtain ⟨idx, rt, skb, next, done⟩ := st
    cases hdone
    dsimp only at h
    simp only [foldBreak, dumpPeerStep, getPeer_eq d q idx rt skb h, packPeers]
    by_cases hh : skb.cap - skb.len < (peerRecord d q idx (decide (rt.seq = 0)) []).size
    · simp [hh, EMSGSIZE]
    · generalize hips : walkIps d.table rt q = ips
      generalize hm : fitCount _ (ips.map ipSize) = m
      by_cases hfull : m = ips.length
      · have hfit := sum_take_fitCount (skb.cap - skb.len - (peerRecord d q idx
          (decide (rt.seq = 0)) []).size) (ips.map ipSize)
        rw [hm, ← List.map_take] at hfit
        have hsize := size_peerRecord d q idx (decide (rt.seq = 0)) (ips.take m)
        have hlen : Skb.len ⟨skb.cap, skb.toks ++ (peerRecord d q idx (decide (rt.seq = 0))
            (ips.take m)).render⟩ ≤ skb.cap := by
          rw [Skb.len_toks_append]
          change skb.len + (peerRecord d q idx _ (ips.take m)).size ≤ skb.cap
          omega
        obtain ⟨h1, h2, h3, h4⟩ := ih ⟨idx + 1, {}, _, some q, true⟩ hlen rfl
        have hroom : skb.cap - Skb.len ⟨skb.cap, skb.toks ++
            (peerRecord d q idx (decide (rt.seq = 0)) (ips.take m)).render⟩ =
            skb.cap - skb.len - (peerRecord d q idx (decide (rt.seq = 0)) (ips.take m)).size := by
          rw [Skb.len_toks_append, Nat.sub_sub]; rfl
        dsimp only at h1 h2 h3 h4
        rw [hroom] at h1 h2 h3 h4
        simp only [hh, hfull, if_false, if_true, ne_eq, not_true_eq_false, Bool.false_eq_true,
          decide_True] at h1 h2 h3 h4 ⊢
        exact ⟨h1, by rw [h2, renderList_cons, List.append_assoc], by rw [h3, getLast?_or_cons], h4⟩
      · simp [hh, hfull, EMSGSIZE]

/-- The device attributes a message carries: all of them while `args[1]` is `NULL`, none
otherwise. -/
def msgDeviceAttrs (c : Caller) (d : Device) (cb : Cb) : List Attr :=
  if cb.peer.isNone then deviceAttrs c d else []

/-- What a message holds before its peers: the header, with `NLM_F_DUMP_INTR` when the
generation moved since the last message, and the device attributes. -/
def msgHead (c : Caller) (d : Device) (cb : Cb) : List Tok :=
  .hdr (decide (cb.prevSeq ≠ 0 ∧ d.updateGen ≠ cb.prevSeq)) ::
    Attr.renderList (msgDeviceAttrs c d cb)

/-- The callback a message stamps (`cb->seq`, and `prev_seq` for the next one). -/
def Cb.stamp (cb : Cb) (d : Device) : Cb := { cb with seq := d.updateGen, prevSeq := d.updateGen }

lemma putMsgDeviceAttrs_eq (c : Caller) (d : Device) (cb : Cb) (skb : Skb) :
    (if cb.peer.isNone = true then putDeviceAttrs c d skb else some skb) =
      skb.pushAll (Attr.renderList (msgDeviceAttrs c d cb)) := by
  unfold msgDeviceAttrs
  split
  · exact putDeviceAttrs_eq c d skb
  · rfl

/-- The loop is not entered when the list is empty or the cursor peer has left it. -/
lemma dump_skips_loop (d : Device) (x : Option PeerId) :
    (listEmpty d.peers .head || (x.isSome && listEmpty d.peers (listPrepareEntry x))) = true ↔ d.peers = [] ∨ ¬ OnList d.peers (listPrepareEntry x) := by
  cases x with
  | none => simp [listEmpty_head, listPrepareEntry, OnList]
  | some p => simp [listEmpty_head, listEmpty_peer d.nodup_peers, listPrepareEntry, OnList]

/-- Every message returns: the loop starts on the list (the head, or a cursor peer that is
still a member), so it reaches the head again within the fuel. -/
lemma getDeviceDump_isSome (c : Caller) (d : Device) (cb : Cb) (skb : Skb) :
    (getDeviceDump c d cb skb).isSome := by
  simp only [getDeviceDump]
  split
  · rfl
  · dsimp only
    split
    · rfl
    · split
      · rfl
      · rename_i h
        have hon : OnList d.peers (listPrepareEntry cb.peer) := by
          rw [dump_skips_loop] at h; tauto
        rw [listForEachEntryContinue_eq d.nodup_peers _ _ _ _ hon
          (Nat.lt_succ_of_le (nodesAfter_sublist _ _).length_le)]
        rfl

/-- A message whose header, device attributes and peers nest fit: it ends the dump with no
peer records when the list is empty or the cursor peer has left it, and otherwise carries the
records the packer makes of the peers after the cursor. -/
lemma getDeviceDump_of_fits (c : Caller) (d : Device) (cb : Cb) (cap : Nat)
    (hroom : toksSize (msgHead c d cb) + NLA_HDRLEN ≤ cap) :
    getDeviceDump c d cb (Skb.empty cap) = some
      (if d.peers = [] ∨ ¬ OnList d.peers (listPrepareEntry cb.peer) then
        dumpFinish d (cb.stamp d) 0 true cb.peer cb.rtCursor 0 ⟨cap, msgHead c d cb⟩
      else
        let P := packPeers d (cap - toksSize (msgHead c d cb) - NLA_HDRLEN) 0 (cb.rtCursor.getD {})
          (nodesAfter d.peers (listPrepareEntry cb.peer))
        dumpFinish d (cb.stamp d) 0 P.done (P.completed.getLast?.or cb.peer) (some P.rt) 0
          ⟨cap, msgHead c d cb ++ [.nest WGDEVICE_A_PEERS] ++ Attr.renderList P.records ++
            [.close]⟩) := by
  have hhead : GENL_MSG_HDRLEN ≤ toksSize (msgHead c d cb) := by simp [msgHead, Tok.size]
  have hhdr : genlmsgPut (Skb.empty cap) = some (0, ⟨cap, [.hdr false]⟩) := by
    simp only [genlmsgPut, Skb.push, Skb.empty, Skb.len, toksSize_nil, Tok.size]
    rw [if_pos (by omega)]; rfl
  have hintr : (if cb.prevSeq ≠ 0 ∧ d.updateGen ≠ cb.prevSeq then
      (⟨cap, [.hdr false]⟩ : Skb).setIntr 0 else ⟨cap, [.hdr false]⟩) =
      ⟨cap, [.hdr (decide (cb.prevSeq ≠ 0 ∧ d.updateGen ≠ cb.prevSeq))]⟩ := by
    split <;> simp_all [Skb.setIntr]
  have hlen : Skb.len ⟨cap, [.hdr (decide (cb.prevSeq ≠ 0 ∧ d.updateGen ≠ cb.prevSeq))]⟩ ≤ cap := by
    simp [Skb.len, Tok.size]; omega
  have hattrs : Skb.pushAll ⟨cap, [.hdr (decide (cb.prevSeq ≠ 0 ∧ d.updateGen ≠ cb.prevSeq))]⟩
      (Attr.renderList (msgDeviceAttrs c d cb)) = some ⟨cap, msgHead c d cb⟩ := by
    rw [Skb.pushAll_eq _ _ hlen, if_pos]
    · rfl
    · simp [msgHead, Skb.len] at hroom ⊢; omega
  have hnest : nlaNestStart ⟨cap, msgHead c d cb⟩ WGDEVICE_A_PEERS =
      some ((msgHead c d cb).length, ⟨cap, msgHead c d cb ++ [.nest WGDEVICE_A_PEERS]⟩) := by
    simp only [nlaNestStart, Skb.push, Skb.len, Tok.size]
    rw [if_pos hroom]; rfl
  simp only [getDeviceDump]
  rw [hhdr]
  dsimp only
  rw [hintr, putMsgDeviceAttrs_eq, hattrs, Option.some_bind, hnest]
  dsimp only
  by_cases hskip : d.peers = [] ∨ ¬ OnList d.peers (listPrepareEntry cb.peer)
  · rw [if_pos ((dump_skips_loop d cb.peer).2 hskip), if_pos hskip]
    simp [Skb.trim, Cb.stamp]
  · rw [if_neg (fun h => hskip ((dump_skips_loop d cb.peer).1 h)), if_neg hskip]
    have hon : OnList d.peers (listPrepareEntry cb.peer) := by tauto
    rw [listForEachEntryContinue_eq d.nodup_peers _ _ _ _ hon
      (Nat.lt_succ_of_le (nodesAfter_sublist _ _).length_le)]
    have hlen' : Skb.len ⟨cap, msgHead c d cb ++ [.nest WGDEVICE_A_PEERS]⟩ ≤ cap := by
      simp [Skb.len, Tok.size]; omega
    obtain ⟨h1, h2, h3, h4⟩ := foldBreak_dumpPeerStep d (nodesAfter d.peers (listPrepareEntry cb.peer))
      ⟨0, cb.rtCursor.getD {}, _, cb.peer, true⟩ hlen' rfl
    dsimp only at h1 h2 h3 h4
    simp only [Option.map_some', h1, h2, h3, h4]
    have hr : cap - Skb.len ⟨cap, msgHead c d cb ++ [.nest WGDEVICE_A_PEERS]⟩ =
        cap - toksSize (msgHead c d cb) - NLA_HDRLEN := by
      simp [Skb.len, Tok.size]; omega
    rw [hr]; rfl

/-- A message with no room for its header, device attributes and peers nest fails with
`-EMSGSIZE` and sends nothing; it drops the reference on the cursor peer but keeps the peer in
`args[1]`. -/
lemma getDeviceDump_of_no_room (c : Caller) (d : Device) (cb : Cb) (cap : Nat)
    (hroom : cap < toksSize (msgHead c d cb) + NLA_HDRLEN) :
    ∃ cb', getDeviceDump c d cb (Skb.empty cap) =
      some (-EMSGSIZE, Skb.empty cap, cb', wgPeerPut d cb.peer) ∧ cb'.peer = cb.peer := by
  simp only [getDeviceDump]
  split
  · exact ⟨{ cb with seq := d.updateGen }, by simp [dumpFinish, EMSGSIZE, Skb.trim, Skb.empty], rfl⟩
  · rename_i hdr skb h
    simp only [genlmsgPut, Skb.push, Skb.empty, Skb.len, toksSize_nil] at h
    split at h
    swap; · cases h
    rename_i h1
    simp only [Option.map_some', Option.some.injEq, Prod.mk.injEq, List.length_nil] at h
    obtain ⟨rfl, rfl⟩ := h
    have hintr : (if cb.prevSeq ≠ 0 ∧ d.updateGen ≠ cb.prevSeq then
        (⟨cap, [] ++ [.hdr false]⟩ : Skb).setIntr 0 else ⟨cap, [] ++ [.hdr false]⟩) =
        ⟨cap, [.hdr (decide (cb.prevSeq ≠ 0 ∧ d.updateGen ≠ cb.prevSeq))]⟩ := by
      split <;> simp_all [Skb.setIntr]
    have hlen : Skb.len ⟨cap, [.hdr (decide (cb.prevSeq ≠ 0 ∧ d.updateGen ≠ cb.prevSeq))]⟩ ≤ cap := by
      simpa [Skb.len, Tok.size] using h1
    have hnone : ((Skb.pushAll ⟨cap, [.hdr (decide (cb.prevSeq ≠ 0 ∧ d.updateGen ≠ cb.prevSeq))]⟩
        (Attr.renderList (msgDeviceAttrs c d cb))).bind fun s => nlaNestStart s WGDEVICE_A_PEERS) =
        none := by
      rw [Skb.pushAll_eq _ _ hlen]
      split
      · simp only [Option.some_bind, nlaNestStart, Skb.push, Skb.len_toks_append]
        rw [if_neg]; · rfl
        simp [msgHead, Skb.len, Tok.size] at hroom ⊢; omega
      · rfl
    dsimp only
    rw [hintr, putMsgDeviceAttrs_eq, hnone]
    exact ⟨cb.stamp d, by simp [dumpFinish, EMSGSIZE, Skb.trim, Skb.empty, Cb.stamp], rfl⟩

end WireGuardNetlink
