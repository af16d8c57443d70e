import WireGuardNetlink.DumpSpec

/-!
# Reading a dump back

What a reader of the dump does with its messages: read each message (`readMsg`), take the peer
records of its `WGDEVICE_A_PEERS` nest (`msgPeers`), read each record (`readPeer`) and merge a
record into the one before it when it carries the same public key (`mergeRecord`). A complete
dump should read back as the device's peers in list order, each with its first-record
attributes and all its allowed IPs (`dumpView`).

This module follows one message. Between two messages the reader has the peers before the
cursor complete and the next peer read up to the allowed-IP cursor (`readSoFar`), with the cursor
cleared or inside that peer's prefixes (`CursorOk`). The records the peer loop writes
(`packPeers`) carry the reader to the place the loop stops at (`packPeers_read`), and when the
message has room for one peer record with one allowed IP the loop gets further
(`packPeers_progress`).
-/

namespace WireGuardNetlink

/-- A peer as a reader assembles it from a dump: its public key, its other attributes, and the
fields of each of its allowed IPs. -/
structure PeerDump where
  key : Bytes
  attrs : List Attr
  allowedips : List (List Attr)
deriving DecidableEq

/-- The children of a nested attribute. -/
def Attr.children : Attr → List Attr
  | .leaf _ _ => []
  | .nest _ cs => cs

/-- Read the attributes of a peer record: the public key, the allowed IPs of the
`WGPEER_A_ALLOWEDIPS` nest, and the other attributes as they come. -/
def readPeerAttrs : List Attr → PeerDump
  | [] => ⟨[], [], []⟩
  | a :: as =>
    let r := readPeerAttrs as
    match a with
    | .leaf t v =>
      if t = WGPEER_A_PUBLIC_KEY then { r with key := v } else { r with attrs := a :: r.attrs }
    | .nest t cs =>
      if t = WGPEER_A_ALLOWEDIPS then { r with allowedips := cs.map Attr.children ++ r.allowedips }
      else { r with attrs := a :: r.attrs }

/-- Read a peer record. -/
def readPeer (a : Attr) : PeerDump := readPeerAttrs a.children

/-- The peer records of a message: the children of its `WGDEVICE_A_PEERS` nest. -/
def msgPeers : List Attr → List Attr
  | [] => []
  | .leaf _ _ :: as => msgPeers as
  | .nest t cs :: as => if t = WGDEVICE_A_PEERS then cs else msgPeers as

/-- Two records of one peer as one. -/
def PeerDump.append (l r : PeerDump) : PeerDump :=
  ⟨l.key, l.attrs ++ r.attrs, l.allowedips ++ r.allowedips⟩

/-- Add a record to what has been read: it continues the last peer when it has the same key. -/
def mergeRecord (acc : List PeerDump) (r : PeerDump) : List PeerDump :=
  match acc.getLast? with
  | some l => if l.key = r.key then acc.dropLast ++ [l.append r] else acc ++ [r]
  | none => [r]

/-- Reassemble a dump: read every message, take the peer records of all of them in order, and
merge each into the one before it when it has the same key. -/
def reassemble (msgs : List Skb) : Option (List PeerDump) :=
  (msgs.mapM fun m => readMsg m.toks).map fun as =>
    ((as.map msgPeers).flatten.map readPeer).foldl mergeRecord []

/-- A peer as a complete dump shows it: key, first-record attributes and every allowed IP. -/
def peerView (d : Device) (p : PeerId) : PeerDump :=
  ⟨(d.objs p).remoteStatic.bytes, peerFirstPage (d.objs p),
    (d.table.ownedBy p).map allowedipFields⟩

/-- A peer read up to its `pos`-th allowed IP. -/
def partialView (d : Device) (p : PeerId) (pos : Nat) : PeerDump :=
  ⟨(d.objs p).remoteStatic.bytes, peerFirstPage (d.objs p),
    ((d.table.ownedBy p).take pos).map allowedipFields⟩

/-- The peers of a device as a complete dump shows them. -/
def dumpView (d : Device) : List PeerDump := d.peers.map (peerView d)

/-- What the reader holds with the peers `pre` complete and the next peer of `todo` read up to
the cursor. -/
def readSoFar (d : Device) (pre todo : List PeerId) (rt : AllowedIpsCursor) : List PeerDump :=
  pre.map (peerView d) ++
    match todo with
    | q :: _ => if rt.seq = 0 then [] else [partialView d q rt.pos]
    | [] => []

/-- The cursor between two messages: cleared, or stamped with the table's generation inside the
prefixes of the next peer. -/
def CursorOk (d : Device) (todo : List PeerId) (rt : AllowedIpsCursor) : Prop :=
  rt = {} ∨ rt.seq = d.table.seq ∧ ∃ q rest, todo = q :: rest ∧ rt.pos < (d.table.ownedBy q).length

/-- The work left: one for each peer's first record and one for each allowed IP, less what the
cursor has done of the next peer. -/
def dumpLeft (d : Device) : List PeerId → AllowedIpsCursor → Nat
  | [], _ => 0
  | q :: qs, rt =>
    (if rt.seq = 0 then 1 + (d.table.ownedBy q).length else (d.table.ownedBy q).length - rt.pos) +
      (qs.map fun p => 1 + (d.table.ownedBy p).length).sum

/-- The room the largest allowed IP of a peer takes. -/
def maxIpSize (d : Device) (p : PeerId) : Nat := ((d.table.ownedBy p).map ipSize).foldr max 0

/-- The room a peer record with the first-record attributes and one allowed IP takes. -/
def peerBound (d : Device) (p : PeerId) : Nat := (peerRecord d p 0 true []).size + maxIpSize d p

@[simp] lemma readPeerAttrs_nil : readPeerAttrs [] = ⟨[], [], []⟩ := rfl

@[simp] lemma readPeerAttrs_leaf (t : Nat) (v : Bytes) (as : List Attr) :
    readPeerAttrs (.leaf t v :: as) =
      if t = WGPEER_A_PUBLIC_KEY then { readPeerAttrs as with key := v }
      else { readPeerAttrs as with attrs := .leaf t v :: (readPeerAttrs as).attrs } := rfl

@[simp] lemma readPeerAttrs_nest (t : Nat) (cs as : List Attr) :
    readPeerAttrs (.nest t cs :: as) =
      if t = WGPEER_A_ALLOWEDIPS then
        { readPeerAttrs as with allowedips := cs.map Attr.children ++ (readPeerAttrs as).allowedips }
      else { readPeerAttrs as with attrs := .nest t cs :: (readPeerAttrs as).attrs } := rfl

/-- The first-record attributes are read as they come. -/
lemma readPeerAttrs_peerFirstPage (o : Peer) (rest : List Attr) :
    readPeerAttrs (peerFirstPage o ++ rest) =
      { readPeerAttrs rest with attrs := peerFirstPage o ++ (readPeerAttrs rest).attrs } := by
  unfold peerFirstPage
  split_ifs <;>
    simp [WGPEER_A_PUBLIC_KEY, WGPEER_A_PRESHARED_KEY, WGPEER_A_ENDPOINT,
      WGPEER_A_LAST_HANDSHAKE_TIME, WGPEER_A_PERSISTENT_KEEPALIVE_INTERVAL, WGPEER_A_TX_BYTES,
      WGPEER_A_RX_BYTES, WGPEER_A_PROTOCOL_VERSION]

lemma children_allowedipAttrs (i : Nat) (ips : List AllowedIp) :
    (allowedipAttrs i ips).map Attr.children = ips.map allowedipFields := by
  induction ips generalizing i with
  | nil => rfl
  | cons ip ips ih => simp [allowedipAttrs, Attr.children, ih]

/-- A record reads back as its key, its first-record attributes when it is a peer's first, and
its allowed IPs. -/
lemma readPeer_peerRecord (d : Device) (p : PeerId) (index : Nat) (first : Bool)
    (ips : List AllowedIp) :
    readPeer (peerRecord d p index first ips) =
      ⟨(d.objs p).remoteStatic.bytes, if first then peerFirstPage (d.objs p) else [],
        ips.map allowedipFields⟩ := by
  cases first <;>
    simp only [readPeer, peerRecord, Attr.children, if_true, Bool.false_eq_true, if_false,
      List.singleton_append, List.cons_append, List.nil_append, readPeerAttrs_leaf,
      readPeerAttrs_nest, readPeerAttrs_peerFirstPage, readPeerAttrs_nil, children_allowedipAttrs,
      List.append_nil]

lemma mergeRecord_fresh {acc : List PeerDump} {r : PeerDump}
    (h : ∀ l ∈ acc.getLast?, l.key ≠ r.key) : mergeRecord acc r = acc ++ [r] := by
  unfold mergeRecord
  split
  · rename_i l hl
    rw [if_neg (h l hl)]
  · rename_i hl
    rw [List.getLast?_eq_none_iff.1 hl]; rfl

lemma mergeRecord_concat (acc : List PeerDump) {l r : PeerDump} (h : l.key = r.key) :
    mergeRecord (acc ++ [l]) r = acc ++ [l.append r] := by
  simp [mergeRecord, h]

section Pack

variable (d : Device)

/-- A walk from a cursor between messages goes over the prefixes after it. -/
lemma walkIps_of_cursorOk {q : PeerId} {qs : List PeerId} {rt : AllowedIpsCursor}
    (h : CursorOk d (q :: qs) rt) : walkIps d.table rt q = (d.table.ownedBy q).drop rt.pos := by
  rcases h with rfl | ⟨hs, -⟩
  · rfl
  · simp [walkIps, hs]

/-- A partial record leaves the cursor inside the peer's prefixes. -/
lemma pos_add_lt_of_cursorOk {q : PeerId} {qs : List PeerId} {rt : AllowedIpsCursor} {m : Nat}
    (h : CursorOk d (q :: qs) rt) (hm : m < (walkIps d.table rt q).length) :
    rt.pos + m < (d.table.ownedBy q).length := by
  rw [walkIps_of_cursorOk d h, List.length_drop] at hm
  omega

/-- The loop stops at a peer it has not completed, and it completes peers in list order. -/
lemma packPeers_shape (room idx : Nat) (todo : List PeerId) (rt : AllowedIpsCursor)
    (hrt : CursorOk d todo rt) :
    let P := packPeers d room idx rt todo
    todo = P.completed ++ P.rest ∧ (P.done = true ↔ P.rest = []) ∧ CursorOk d P.rest P.rt := by
  induction todo generalizing room idx rt with
  | nil => exact ⟨rfl, by simp [packPeers], hrt⟩
  | cons q qs ih =>
    simp only [packPeers]
    split_ifs with hh hm
    · exact ⟨rfl, by simp, hrt⟩
    · obtain ⟨h1, h2, h3⟩ := ih (room - _) (idx + 1) {} (.inl rfl)
      exact ⟨congrArg (q :: ·) h1, h2, h3⟩
    · have hlt : fitCount _ _ < (walkIps d.table rt q).length :=
        lt_of_le_of_ne ((fitCount_le _ _).trans_eq (List.length_map _ _)) hm
      exact ⟨rfl, by simp, .inr ⟨rfl, q, qs, rfl, pos_add_lt_of_cursorOk d hrt hlt⟩⟩

@[simp] lemma readSoFar_cleared (pre todo : List PeerId) :
    readSoFar d pre todo {} = pre.map (peerView d) := by
  cases todo <;> simp [readSoFar]

/-- With distinct keys, a peer's first record does not continue the peer before it. -/
lemma peerView_key_ne {pre qs : List PeerId} {q : PeerId}
    (hkeys : ((pre ++ q :: qs).map fun p => (d.objs p).remoteStatic).Nodup) :
    ∀ l ∈ (pre.map (peerView d)).getLast?, l.key ≠ (d.objs q).remoteStatic.bytes := by
  intro l hl he
  obtain ⟨p, hp, rfl⟩ := List.mem_map.1 (List.mem_of_mem_getLast? hl)
  have hk : (d.objs p).remoteStatic = (d.objs q).remoteStatic := by
    cases h1 : (d.objs p).remoteStatic; cases h2 : (d.objs q).remoteStatic
    simp only [peerView, h1, h2] at he; simp [he]
  rw [List.map_append] at hkeys
  exact (List.nodup_append.1 hkeys).2.2 (List.mem_map_of_mem _ hp) (by simp [hk])

/-- A record that completes the next peer. -/
lemma mergeRecord_complete {pre qs : List PeerId} {q : PeerId} {rt : AllowedIpsCursor}
    (idx : Nat) (hkeys : ((pre ++ q :: qs).map fun p => (d.objs p).remoteStatic).Nodup)
    (hrt : CursorOk d (q :: qs) rt) :
    mergeRecord (readSoFar d pre (q :: qs) rt)
        (readPeer (peerRecord d q idx (decide (rt.seq = 0)) (walkIps d.table rt q))) =
      readSoFar d (pre ++ [q]) qs {} := by
  rw [readPeer_peerRecord, walkIps_of_cursorOk d hrt, readSoFar_cleared, List.map_append]
  rcases hrt with rfl | ⟨hs, -⟩
  · rw [readSoFar_cleared, mergeRecord_fresh]
    · rfl
    · exact peerView_key_ne d hkeys
  · have h0 : rt.seq ≠ 0 := hs ▸ d.table.seq_pos.ne'
    simp only [readSoFar, h0, if_false, decide_False, Bool.false_eq_true]
    rw [mergeRecord_concat]
    · simp [PeerDump.append, partialView, peerView, ← List.map_append]
    · rfl

/-- A record that stops inside the next peer's prefixes. -/
lemma mergeRecord_partial {pre qs : List PeerId} {q : PeerId} {rt : AllowedIpsCursor}
    (idx m : Nat) (hkeys : ((pre ++ q :: qs).map fun p => (d.objs p).remoteStatic).Nodup)
    (hrt : CursorOk d (q :: qs) rt) :
    mergeRecord (readSoFar d pre (q :: qs) rt)
        (readPeer (peerRecord d q idx (decide (rt.seq = 0)) ((walkIps d.table rt q).take m))) =
      readSoFar d pre (q :: qs) ⟨d.table.seq, rt.pos + m⟩ := by
  have hs : d.table.seq ≠ 0 := d.table.seq_pos.ne'
  rw [readPeer_peerRecord, walkIps_of_cursorOk d hrt]
  rcases hrt with rfl | ⟨hs', -⟩
  · rw [readSoFar_cleared, mergeRecord_fresh]
    · simp [readSoFar, hs, partialView]
    · exact peerView_key_ne d hkeys
  · have h0 : rt.seq ≠ 0 := hs' ▸ hs
    simp only [readSoFar, h0, hs, if_false, decide_False, Bool.false_eq_true]
    rw [mergeRecord_concat]
    · simp [PeerDump.append, partialView, List.take_add]
    · rfl

/-- The records of one message carry the reader from where the cursor was to where the loop
stopped, given distinct keys. -/
lemma packPeers_read (room idx : Nat) (pre todo : List PeerId) (rt : AllowedIpsCursor)
    (hkeys : ((pre ++ todo).map fun p => (d.objs p).remoteStatic).Nodup)
    (hrt : CursorOk d todo rt) :
    let P := packPeers d room idx rt todo
    (P.records.map readPeer).foldl mergeRecord (readSoFar d pre todo rt) =
      readSoFar d (pre ++ P.completed) P.rest P.rt := by
  induction todo generalizing pre room idx rt with
  | nil => simp [packPeers]
  | cons q qs ih =>
    simp only [packPeers]
    split_ifs with hh hm
    · simp
    · rw [hm, List.take_length] at *
      simp only [List.map_cons, List.foldl_cons, mergeRecord_complete d idx hkeys hrt]
      rw [ih _ _ (pre ++ [q]) {} (by simpa using hkeys) (.inl rfl)]
      simp
    · simp only [List.map_cons, List.map_nil, List.foldl_cons, List.foldl_nil,
        mergeRecord_partial d idx _ hkeys hrt, List.append_nil]

lemma dumpLeft_le_sum (todo : List PeerId) (rt : AllowedIpsCursor) :
    dumpLeft d todo rt ≤ (todo.map fun p => 1 + (d.table.ownedBy p).length).sum := by
  cases todo with
  | nil => exact le_refl _
  | cons q qs => simp only [dumpLeft, List.map_cons, List.sum_cons]; split <;> omega

lemma le_foldr_max {x : Nat} {l : List Nat} (h : x ∈ l) : x ≤ l.foldr max 0 := by
  induction l with
  | nil => cases h
  | cons y l ih =>
    rcases List.mem_cons.1 h with rfl | h
    · exact le_max_left _ _
    · exact (ih h).trans (le_max_right _ _)

/-- All the items fit exactly when their sizes add up to no more than the room. -/
lemma fitCount_eq_length_iff (room : Nat) (ss : List Nat) :
    fitCount room ss = ss.length ↔ ss.sum ≤ room := by
  induction ss generalizing room with
  | nil => simp [fitCount]
  | cons s ss ih =>
    simp only [fitCount, List.length_cons, List.sum_cons]
    split
    · rw [Nat.add_right_cancel_iff, ih]; omega
    · omega

/-- The work left after a message is at most that of the peers the loop did not complete. -/
lemma dumpLeft_rest_le (room idx : Nat) (todo : List PeerId) (rt : AllowedIpsCursor)
    (hrt : CursorOk d todo rt) :
    dumpLeft d (packPeers d room idx rt todo).rest (packPeers d room idx rt todo).rt ≤
      (todo.map fun p => 1 + (d.table.ownedBy p).length).sum := by
  have h := congrArg (fun l : List PeerId => (l.map fun p => 1 + (d.table.ownedBy p).length).sum)
    (packPeers_shape d room idx todo rt hrt).1
  simp only [List.map_append, List.sum_append] at h
  have := dumpLeft_le_sum d (packPeers d room idx rt todo).rest (packPeers d room idx rt todo).rt
  omega

/-- A record's head without the first-record attributes is no larger than with them. -/
lemma size_peerRecord_nil_le (p : PeerId) (idx : Nat) (first : Bool) :
    (peerRecord d p idx first []).size ≤ (peerRecord d p 0 true []).size := by
  rw [size_peerRecord_nil, size_peerRecord_nil]
  cases first <;> simp [peerHeadToks]

/-- With room for the next peer's record with its first-record attributes and one allowed IP,
the loop gets further. -/
lemma packPeers_progress (room idx : Nat) (q : PeerId) (qs : List PeerId)
    (rt : AllowedIpsCursor) (hrt : CursorOk d (q :: qs) rt) (hroom : peerBound d q ≤ room) :
    dumpLeft d (packPeers d room idx rt (q :: qs)).rest (packPeers d room idx rt (q :: qs)).rt <
      dumpLeft d (q :: qs) rt := by
  have hhead := size_peerRecord_nil_le d q idx (decide (rt.seq = 0))
  have hfirst : 0 < if rt.seq = 0 then 1 + (d.table.ownedBy q).length
      else (d.table.ownedBy q).length - rt.pos := by
    rcases hrt with rfl | ⟨hs, q', rest, h, hpos⟩
    · show 0 < if (0 : Nat) = 0 then _ else _
      rw [if_pos rfl]; omega
    · cases h
      rw [if_neg (hs ▸ d.table.seq_pos.ne')]; omega
  unfold peerBound at hroom
  simp only [packPeers]
  rw [if_neg (by omega)]
  split_ifs with hm
  · calc _ ≤ (qs.map fun p => 1 + (d.table.ownedBy p).length).sum :=
          dumpLeft_rest_le d _ _ qs {} (.inl rfl)
      _ < _ := by simp only [dumpLeft]; omega
  · have hlt : fitCount _ _ < (walkIps d.table rt q).length :=
      lt_of_le_of_ne ((fitCount_le _ _).trans_eq (List.length_map _ _)) hm
    have hpos := pos_add_lt_of_cursorOk d hrt hlt
    obtain ⟨ip, ips, hips⟩ : ∃ ip ips, walkIps d.table rt q = ip :: ips := by
      cases h : walkIps d.table rt q with
      | nil => rw [h] at hlt; exact absurd hlt (Nat.not_lt_zero _)
      | cons ip ips => exact ⟨ip, ips, rfl⟩
    have hip : ipSize ip ≤ maxIpSize d q := by
      apply le_foldr_max
      rw [walkIps_of_cursorOk d hrt] at hips
      exact List.mem_map_of_mem _ (List.mem_of_mem_drop (hips ▸ List.mem_cons_self ip ips))
    have hm1 : 1 ≤ fitCount (room - (peerRecord d q idx (decide (rt.seq = 0)) []).size)
        ((walkIps d.table rt q).map ipSize) := by
      rw [hips, List.map_cons, fitCount, if_pos (by omega)]; omega
    simp only [dumpLeft, d.table.seq_pos.ne', if_false]
    split_ifs at hfirst ⊢ <;> omega

/-- A first peer whose record fits only in part stops the loop with no record complete. -/
lemma packPeers_split (room : Nat) (q : PeerId) (qs : List PeerId)
    (hhead : (peerRecord d q 0 true []).size ≤ room)
    (hsplit : room < (peerRecord d q 0 true (d.table.ownedBy q)).size) :
    (packPeers d room 0 {} (q :: qs)).completed = [] ∧
      (packPeers d room 0 {} (q :: qs)).rest = q :: qs := by
  have hw : walkIps d.table {} q = d.table.ownedBy q := rfl
  rw [size_peerRecord] at hsplit
  simp only [packPeers, hw]
  rw [if_neg (by simpa using hhead), if_neg]
  · exact ⟨rfl, rfl⟩
  · rw [← List.length_map _ ipSize, fitCount_eq_length_iff]
    simp only [decide_True]
    omega

end Pack

end WireGuardNetlink
