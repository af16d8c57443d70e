import WireGuardNetlink.Pagination
import WireGuardNetlink.References

/-!
# A dump under interleaved requests

Between two messages of a dump, any request may run: it removes peers, the dump's cursor peer
among them, and links new ones (`Evolves`). `get_device_dump` copes in three ways. Its peer loop
starts on the list, from the head or from a cursor peer that is still linked, so every message
returns (`getDeviceDump_isSome`) and writes records of members only
(`getDeviceDump_records_mem`). A cursor peer that has been unlinked is treated as the end of the
list: the message carries no peer and the dump ends, in every buffer with room for the header and
the peers nest (`getDeviceDump_stale`), which every buffer `netlink_dump` gives a dump message has
(`NLMSG_GOODSIZE`). And the cursor
only moves forward through a list whose old members keep their order: no peer is completed in
two messages of one dump (`completions_nodup`). The invariant behind it (`Fresh`) is that the
cursor is the last peer completed so far and that every completed peer lies at or before it in
the list.
-/

namespace WireGuardNetlink

/-- The peers after `p` in a list keep their places in a list it is a sublist of. -/
lemma mem_suffixAfter_of_sublist {l' l : List PeerId} (h : List.Sublist l' l) (hl : l.Nodup)
    {p x : PeerId} (hp : p ∈ l') (hx : x ∈ suffixAfter l' p) : x ∈ suffixAfter l p := by
  induction h with
  | slnil => simp at hp
  | cons a h ih =>
    have hap : a ≠ p := fun e => (List.nodup_cons.1 hl).1 (e ▸ h.subset hp)
    simp only [suffixAfter, hap, if_false]
    exact ih (List.nodup_cons.1 hl).2 hp hx
  | cons₂ a h ih =>
    simp only [suffixAfter] at hx ⊢
    split_ifs at hx ⊢ with hap
    · exact h.subset hx
    · exact ih (List.nodup_cons.1 hl).2 ((List.mem_cons.1 hp).resolve_left (Ne.symm hap)) hx

/-- So do they in the list of those that pass a test, if `p` and `x` pass it. -/
lemma mem_suffixAfter_filter {l : List PeerId} {f : PeerId → Bool} {p x : PeerId} (hp : f p)
    (hx : f x) (h : x ∈ suffixAfter l p) : x ∈ suffixAfter (l.filter f) p := by
  induction l with
  | nil => simp [suffixAfter] at h
  | cons a l ih =>
    simp only [suffixAfter] at h
    split_ifs at h with hap
    · subst hap
      simp [List.filter_cons, hp, suffixAfter, List.mem_filter, h, hx]
    · rw [List.filter_cons]
      split
      · simp only [suffixAfter, hap, if_false]; exact ih h
      · exact ih h

/-- The nodes a walk visits are what follows some part of the list. -/
lemma exists_nodesAfter (l : List PeerId) (n : Node) : ∃ pre, l = pre ++ nodesAfter l n := by
  cases n with
  | head => exact ⟨[], rfl⟩
  | peer p =>
    by_cases hp : p ∈ l
    · obtain ⟨a, -, e⟩ := exists_split_of_mem hp
      exact ⟨a ++ [p], by simpa using e⟩
    · exact ⟨l, by simp [nodesAfter, suffixAfter_of_not_mem hp]⟩

lemma packPeers_completed_append (d : Device) (room idx : Nat) (rt : AllowedIpsCursor)
    (todo : List PeerId) :
    todo = (packPeers d room idx rt todo).completed ++ (packPeers d room idx rt todo).rest := by
  induction todo generalizing room idx rt with
  | nil => rfl
  | cons q qs ih =>
    simp only [packPeers]
    split_ifs
    · rfl
    · exact congrArg (q :: ·) (ih _ _ _)
    · rfl

/-- The packer writes records of the peers it is given, and of no other. -/
lemma packPeers_records_mem (d : Device) (room idx : Nat) (rt : AllowedIpsCursor)
    (todo : List PeerId) :
    ∀ a ∈ (packPeers d room idx rt todo).records, ∃ q ∈ todo, ∃ i first ips,
      a = peerRecord d q i first ips := by
  induction todo generalizing room idx rt with
  | nil => simp [packPeers]
  | cons q qs ih =>
    simp only [packPeers]
    split_ifs
    · simp
    · intro a ha
      rcases List.mem_cons.1 ha with rfl | ha
      · exact ⟨q, List.mem_cons_self _ _, _, _, _, rfl⟩
      · obtain ⟨q', hq', h⟩ := ih _ _ _ a ha
        exact ⟨q', List.mem_cons_of_mem _ hq', h⟩
    · intro a ha
      rw [List.mem_singleton.1 ha]
      exact ⟨q, List.mem_cons_self _ _, _, _, _, rfl⟩

/-- Every record a message carries is one of a peer on the list when the message is made. -/
lemma getDeviceDump_records_mem (c : Caller) (d : Device) (cb : Cb) (cap : Nat)
    {r : Int × Skb × Cb × Device} (h : getDeviceDump c d cb (Skb.empty cap) = some r)
    {as : List Attr} (has : readMsg r.2.1.toks = some as) :
    ∀ a ∈ msgPeers as, ∃ q ∈ d.peers, ∃ i first ips, a = peerRecord d q i first ips := by
  by_cases hroom : toksSize (msgHead c d cb) + NLA_HDRLEN ≤ cap
  · rw [getDeviceDump_of_fits c d cb cap hroom, Option.some.injEq] at h
    subst h
    split at has
    · rw [dumpFinish_ok] at has
      obtain ⟨hr, hp⟩ := readMsg_head c d cb
      simp only [hr, Option.some.injEq] at has
      simp [← has, hp]
    · rw [dumpFinish_ok] at has
      obtain ⟨hr, hp⟩ := readMsg_peers c d cb
        (packPeers d (cap - toksSize (msgHead c d cb) - NLA_HDRLEN) 0 (cb.rtCursor.getD {})
          (nodesAfter d.peers (listPrepareEntry cb.peer))).records
      simp only [hr, Option.some.injEq] at has
      rw [← has, hp]
      intro a ha
      obtain ⟨q, hq, h⟩ := packPeers_records_mem d _ _ _ _ a ha
      exact ⟨q, (nodesAfter_sublist _ _).subset hq, h⟩
  · obtain ⟨cb', hr, -⟩ := getDeviceDump_of_no_room c d cb cap (by omega)
    rw [hr, Option.some.injEq] at h
    subst h
    simp [Skb.empty, readMsg] at has

/-- When the cursor peer has been unlinked, a message with room for the header and the peers
nest carries no peer, returns `0` and clears `args[1]`: the dump ends. -/
lemma getDeviceDump_stale (c : Caller) (d : Device) (cb : Cb) {p : PeerId} {cap : Nat}
    (hp : cb.peer = some p) (hgone : p ∉ d.peers) (hcap : GENL_MSG_HDRLEN + NLA_HDRLEN ≤ cap) :
    ∃ m cb' d', getDeviceDump c d cb (Skb.empty cap) = some (0, m, cb', d') ∧ cb'.peer = none ∧
      (readMsg m.toks).map msgPeers = some [] := by
  have hhead : toksSize (msgHead c d cb) = GENL_MSG_HDRLEN := by
    simp [msgHead, msgDeviceAttrs, hp, Tok.size]
  rw [getDeviceDump_of_fits c d cb cap (by omega),
    if_pos (.inr (by simpa [listPrepareEntry, OnList, hp] using hgone)), dumpFinish_ok]
  refine ⟨_, _, _, rfl, rfl, ?_⟩
  obtain ⟨hr, hpeers⟩ := readMsg_head c d cb
  simp [hr, hpeers]

/-- The peers a message completes, those whose `get_peer` returns `0` and moves
`next_peer_cursor`: the packer's complete records, when the message has room for its head and
the cursor is on the list; none otherwise. -/
def msgCompleted (c : Caller) (d : Device) (cb : Cb) (cap : Nat) : List PeerId :=
  if toksSize (msgHead c d cb) + NLA_HDRLEN ≤ cap ∧ d.peers ≠ [] ∧
      OnList d.peers (listPrepareEntry cb.peer) then
    (packPeers d (cap - toksSize (msgHead c d cb) - NLA_HDRLEN) 0 (cb.rtCursor.getD {})
      (nodesAfter d.peers (listPrepareEntry cb.peer))).completed
  else []

/-- A message completes the first of the peers after the cursor. -/
lemma msgCompleted_prefix (c : Caller) (d : Device) (cb : Cb) (cap : Nat) :
    ∃ rest, nodesAfter d.peers (listPrepareEntry cb.peer) = msgCompleted c d cb cap ++ rest := by
  unfold msgCompleted
  split
  · exact ⟨_, packPeers_completed_append ..⟩
  · exact ⟨_, rfl⟩

/-- A message that lets the dump go on leaves `args[1]` on the last peer it completed, or where
it was when it completed none. -/
lemma dumpNext_cursor {env : Env} {c : Caller} {cap : Nat} {s s' : Sys} {cb cb' : Cb}
    (hs : s.dump = some cb) (h : s.step env (.dumpNext c cap) = some s') (hs' : s'.dump = some cb') :
    cb'.peer = (msgCompleted c s.w.wg cb cap).getLast?.or cb.peer := by
  simp only [Sys.step, hs] at h
  obtain ⟨r, hr, rfl⟩ := Option.map_eq_some'.1 h
  by_cases hroom : toksSize (msgHead c s.w.wg cb) + NLA_HDRLEN ≤ cap
  · rw [getDeviceDump_of_fits c s.w.wg cb cap hroom, Option.some.injEq] at hr
    subst hr
    by_cases hsk : s.w.wg.peers = [] ∨ ¬OnList s.w.wg.peers (listPrepareEntry cb.peer)
    · simp [hsk, dumpFinish_ok] at hs'
    · have hc : msgCompleted c s.w.wg cb cap = (packPeers s.w.wg
          (cap - toksSize (msgHead c s.w.wg cb) - NLA_HDRLEN) 0 (cb.rtCursor.getD {})
          (nodesAfter s.w.wg.peers (listPrepareEntry cb.peer))).completed :=
        if_pos ⟨hroom, by tauto⟩
      simp only [if_neg hsk, dumpFinish_ok] at hs'
      rw [hc]
      split_ifs at hs' with hdone hpos <;> simp only [Option.some.injEq, reduceCtorEq] at hs'
      · exact absurd hpos (lt_irrefl _)
      · subst hs'; rfl
  · obtain ⟨cb'', hr', -⟩ := getDeviceDump_of_no_room c s.w.wg cb cap (by omega)
    rw [hr', Option.some.injEq] at hr
    subst hr
    simp [EMSGSIZE] at hs'

/-- The peers an event completes: a message's (`msgCompleted`); no other event completes any. -/
def Event.completes (s : Sys) : Event → List PeerId
  | .dumpNext c cap =>
    match s.dump with
    | some cb => msgCompleted c s.w.wg cb cap
    | none => []
  | _ => []

/-- The peers the messages of a run complete, in order. -/
def Sys.completions (env : Env) : Sys → List Event → List PeerId
  | _, [] => []
  | s, e :: es =>
    match s.step env e with
    | none => []
    | some s' => e.completes s ++ Sys.completions env s' es

/-- Whether an event starts a dump. -/
def Event.isStart : Event → Bool
  | .dumpStart _ _ => true
  | _ => false

/-- What holds between the messages of a dump that has completed the peers `C`: each once, all
of them allocated, the cursor on the last of them, and none of them after the cursor. -/
structure Fresh (s : Sys) (C : List PeerId) : Prop where
  nodup : C.Nodup
  allocated : ∀ x ∈ C, x < s.w.wg.nextPeer
  cursor : ∀ cb, s.dump = some cb → cb.peer = C.getLast?
  ahead : ∀ cb, s.dump = some cb → ∀ x ∈ C, x ∉ nodesAfter s.w.wg.peers (listPrepareEntry cb.peer)

/-- A message adds the peers it completes: they come after the cursor, and the cursor moves to
the last of them. -/
lemma Fresh.message {env : Env} {c : Caller} {cap : Nat} {s s' : Sys} {C : List PeerId} {cb : Cb}
    (hf : Fresh s C) (hs : s.dump = some cb) (h : s.step env (.dumpNext c cap) = some s') :
    Fresh s' (C ++ msgCompleted c s.w.wg cb cap) := by
  set L := s.w.wg.peers
  obtain ⟨hev, hpeers⟩ := Sys.step_evolves h
  have hL : s'.w.wg.peers = L := hpeers rfl
  obtain ⟨rest, hrest⟩ := msgCompleted_prefix c s.w.wg cb cap
  obtain ⟨pre, hpre⟩ := exists_nodesAfter L (listPrepareEntry cb.peer)
  have hnd : (pre ++ (msgCompleted c s.w.wg cb cap ++ rest)).Nodup := by
    rw [← hrest, ← hpre]; exact s.w.wg.nodup_peers
  have hmem : ∀ x ∈ msgCompleted c s.w.wg cb cap, x ∈ L := fun x hx => by
    rw [hpre, hrest]; simp [hx]
  have hC : ∀ x ∈ C, x ∉ msgCompleted c s.w.wg cb cap ++ rest := fun x hx => by
    rw [← hrest]; exact hf.ahead cb hs x hx
  refine ⟨?_, fun x hx => ?_, fun cb' hs' => ?_, fun cb' hs' x hx => ?_⟩
  · refine hf.nodup.append (List.nodup_append.1 (List.nodup_append.1 hnd).2.1).1 fun x hx hx' => ?_
    exact hC x hx (List.mem_append_left _ hx')
  · rcases List.mem_append.1 hx with hx | hx
    · exact (hf.allocated x hx).trans_le hev.nextPeer_le
    · exact (s.w.wg.lt_nextPeer x (hmem x hx)).trans_le hev.nextPeer_le
  · rw [dumpNext_cursor hs h hs', List.getLast?_append, hf.cursor cb hs]
  · rw [dumpNext_cursor hs h hs', hL]
    rcases List.eq_nil_or_concat (msgCompleted c s.w.wg cb cap) with hnil | ⟨ys, z, hz⟩
    · rw [hnil, List.append_nil] at hx
      simpa [hnil] using hf.ahead cb hs x hx
    · rw [List.concat_eq_append] at hz
      rw [hz, List.getLast?_append, List.getLast?_singleton, Option.or_some, Option.or_some]
      have hz' : z ∉ pre ++ ys := by
        rw [hz] at hnd
        have := List.nodup_middle.1 (by simpa only [List.append_assoc, List.singleton_append]
          using hnd : ((pre ++ ys) ++ z :: rest).Nodup)
        exact fun hm => (List.nodup_cons.1 this).1 (List.mem_append_left _ hm)
      have hsuf : nodesAfter L (listPrepareEntry (some z)) = rest := by
        simp only [listPrepareEntry, nodesAfter]
        rw [hpre, hrest, hz]
        simpa using suffixAfter_append_cons (r := rest) hz'
      rw [hsuf]
      rcases List.mem_append.1 hx with hx | hx
      · exact fun hr => hC x hx (List.mem_append_right _ hr)
      · rw [hz] at hnd hx
        intro hr
        simp only [List.append_assoc, List.singleton_append] at hnd
        have := (List.nodup_append.1 (List.nodup_append.1 hnd).2.1)
        rcases List.mem_append.1 hx with hx | hx
        · exact this.2.2 hx (List.mem_cons_of_mem _ hr)
        · rw [List.mem_singleton.1 hx] at hr
          exact (List.nodup_cons.1 this.2.1).1 hr

/-- Every other event but a start keeps the invariant: a request drops peers and links fresh
ones, so what lay at or before the cursor still does. -/
lemma Fresh.other {env : Env} {e : Event} {s s' : Sys} {C : List PeerId} (hf : Fresh s C)
    (h : s.step env e = some s') (hstart : e.isStart = false)
    (hmsg : ∀ c cap, e ≠ .dumpNext c cap) : Fresh s' C := by
  have hdump : ∀ cb, s'.dump = some cb → s.dump = some cb := by
    intro cb hs'
    cases e with
    | setDevice c buf => cases h; exact hs'
    | dumpStart c buf => cases hstart
    | dumpNext c cap => exact absurd rfl (hmsg c cap)
    | dumpAbandon =>
      simp only [Sys.step] at h
      split at h
      · cases h
      · cases h; cases hs'
    | traffic p rx tx hs ep => cases h; exact hs'
  have hev := (Sys.step_evolves h).1
  refine ⟨hf.nodup, fun x hx => (hf.allocated x hx).trans_le hev.nextPeer_le,
    fun cb hs' => hf.cursor cb (hdump cb hs'), fun cb hs' x hx hafter => ?_⟩
  have hs := hdump cb hs'
  obtain ⟨p, hp⟩ : ∃ p, cb.peer = some p := by
    cases hc : cb.peer with
    | none => rw [hf.cursor cb hs, List.getLast?_eq_none_iff] at hc; simp [hc] at hx
    | some p => exact ⟨p, rfl⟩
  have hpC : p ∈ C := List.mem_of_mem_getLast? (by rw [← hf.cursor cb hs, hp]; rfl)
  rw [hp] at hafter
  have hp' : p ∈ s'.w.wg.peers := by
    by_contra hn; simp [listPrepareEntry, nodesAfter, suffixAfter_of_not_mem hn] at hafter
  have hfilter := mem_suffixAfter_filter (f := fun q => decide (q < s.w.wg.nextPeer))
    (by simpa using hf.allocated p hpC) (by simpa using hf.allocated x hx) hafter
  have hold := mem_suffixAfter_of_sublist hev.old s.w.wg.nodup_peers
    (List.mem_filter.2 ⟨hp', by simpa using hf.allocated p hpC⟩) hfilter
  exact hf.ahead cb hs x hx (by simpa [hp, listPrepareEntry, nodesAfter] using hold)

/-- No peer is completed twice: over every run of a dump from its start, with any requests,
traffic and abandonment between its messages and any buffer sizes, the peers its messages
complete are distinct. -/
lemma completions_nodup {env : Env} :
    ∀ (es : List Event) (s : Sys) (C : List PeerId), Fresh s C →
      (∀ e ∈ es, e.isStart = false) → (C ++ Sys.completions env s es).Nodup
  | [], s, C, hf, _ => by simpa [Sys.completions] using hf.nodup
  | e :: es, s, C, hf, hes => by
    simp only [Sys.completions]
    split
    · simpa using hf.nodup
    · rename_i s' h
      have hstart := hes e (List.mem_cons_self _ _)
      have hf' : Fresh s' (C ++ e.completes s) := by
        by_cases hm : ∃ c cap, e = .dumpNext c cap
        · obtain ⟨c, cap, rfl⟩ := hm
          cases hs : s.dump with
          | none => simp [Sys.step, hs] at h
          | some cb => simpa [Event.completes, hs] using hf.message hs h
        · push_neg at hm
          have : e.completes s = [] := by cases e <;> first | rfl | exact absurd rfl (hm _ _)
          simpa [this] using hf.other h hstart hm
      simpa using completions_nodup es s' _ hf' fun e he => hes e (List.mem_cons_of_mem _ he)

/-- Dump safety under interleaved requests. Every message returns. Every peer record it carries
belongs to a member of the list when the message is made. Over any run of a dump from its start,
with any requests, traffic and abandonment between its messages and any buffer sizes, no peer is
completed in two messages. And a message whose cursor peer has been unlinked, in a buffer of the
room `netlink_dump` gives a dump message, carries no peer, returns `0` and clears `args[1]`. -/
theorem dump_safe_under_requests :
    (∀ c d cb skb, (getDeviceDump c d cb skb).isSome) ∧
    (∀ c d cb cap r as, getDeviceDump c d cb (Skb.empty cap) = some r →
      readMsg r.2.1.toks = some as →
      ∀ a ∈ msgPeers as, ∃ q ∈ d.peers, ∃ i first ips, a = peerRecord d q i first ips) ∧
    (∀ (env : Env) (s : Sys) (cb : Cb) (es : List Event), s.dump = some cb → cb.peer = none →
      (∀ e ∈ es, e.isStart = false) → (Sys.completions env s es).Nodup) ∧
    (∀ c d cb p cap, cb.peer = some p → p ∉ d.peers → NLMSG_GOODSIZE ≤ cap →
      ∃ m cb' d', getDeviceDump c d cb (Skb.empty cap) = some (0, m, cb', d') ∧ cb'.peer = none ∧
        (readMsg m.toks).map msgPeers = some []) := by
  refine ⟨getDeviceDump_isSome, fun c d cb cap r as h has => getDeviceDump_records_mem c d cb cap h has,
    fun env s cb es hs hp hes => ?_, fun c d cb p cap hp hgone hcap =>
      getDeviceDump_stale c d cb hp hgone (le_trans (by decide) hcap)⟩
  have hf : Fresh s [] := ⟨List.nodup_nil, by simp, fun cb' h => by rw [hs] at h; cases h; exact hp,
    by simp⟩
  simpa using completions_nodup es s [] hf hes

/-- A message of the room `netlink_dump` gives, whose cursor peer `0` a request has removed from
the list: it carries no peer, returns `0` and clears `args[1]`. -/
theorem dump_safe_under_requests_removed_cursor :
    let d : Device := { Device.create 1 [119] 0 with
      peers := [1]
      objs := fun _ => { Peer.blank with refcount := 1 }
      nextPeer := 2
      nodup_peers := by decide
      lt_nextPeer := by decide }
    ∃ m cb' d', getDeviceDump (Caller.admin 0) d ⟨true, some 0, some {}, 0, 0⟩
        (Skb.empty NLMSG_GOODSIZE) = some (0, m, cb', d') ∧ cb'.peer = none ∧
      (readMsg m.toks).map msgPeers = some [] :=
  dump_safe_under_requests.2.2.2 _ _ ⟨true, some 0, some {}, 0, 0⟩ 0 _ rfl (by decide) le_rfl

end WireGuardNetlink
