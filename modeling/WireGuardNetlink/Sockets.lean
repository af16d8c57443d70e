import WireGuardNetlink.Lifetimes

/-!
# Dumps on many sockets

The netlink core runs at most one dump per socket, and a client may open as many sockets as it
likes: dumps of one device run side by side, each with its own callback, interleaved with each
other, with requests and with traffic. `Kernel` keeps the world and one dump slot per socket. An
event happens on one socket and runs against that socket's slot as `Sys.step` runs it, so a kernel
with one socket is the system of `System` (`Kernel.run_single`).

The counts stay exact with any number of dumps (`Kernel.refsExact_of_run_on_sockets`): a peer
holds one reference while it is linked and one for each dump whose `args[1]` holds it, the device
holds one for each dump besides its own, and the live cursor allocations are one per dump in
progress. An event on one socket moves the counts by what that socket's dump holds before and
after it (`Sys.step_moved`) while the other slots stay as they were, so the sums over the slots
move by the same amount (`sum_map_set_add`); a request moves the counts as it does with one dump
(`genlSetDevice_peer_exact`). With one socket the invariant is `RefsExact`
(`Kernel.refsExact_single`).
-/

namespace WireGuardNetlink

/-- The kernel with one dump slot per netlink socket. -/
structure Kernel where
  w : World
  dumps : List (Option Cb)

/-- One event on socket `i`, run against that socket's dump slot; `none` when there is no such
socket or the event cannot happen on it. -/
def Kernel.step (env : Env) (k : Kernel) (i : Nat) (e : Event) : Option Kernel :=
  match k.dumps[i]? with
  | none => none
  | some d => (Sys.step env ⟨k.w, d⟩ e).map fun s => ⟨s.w, k.dumps.set i s.dump⟩

/-- A run of events, each on its socket. -/
def Kernel.run (env : Env) : Kernel → List (Nat × Event) → Option Kernel
  | k, [] => some k
  | k, (i, e) :: es => (k.step env i e).bind fun k' => k'.run env es

/-- A kernel with one socket runs as the system with its one dump slot. -/
lemma Kernel.run_single (env : Env) :
    ∀ (es : List Event) (s : Sys), Kernel.run env ⟨s.w, [s.dump]⟩ (es.map (0, ·)) =
      (s.run env es).map fun s' => ⟨s'.w, [s'.dump]⟩
  | [], _ => rfl
  | e :: es, ⟨w, d⟩ => by
    simp only [List.map_cons, Kernel.run, Kernel.step, Sys.run, List.getElem?_cons_zero,
      List.set_cons_zero]
    cases Sys.step env ⟨w, d⟩ e with
    | none => rfl
    | some s' => exact Kernel.run_single env es s'

/-- Replacing one slot moves a sum over the slots by the difference. -/
lemma sum_map_set_add {α : Type} (f : α → Nat) (a : α) :
    ∀ {l : List α} {i : Nat} {x : α}, l[i]? = some x →
      ((l.set i a).map f).sum + f x = (l.map f).sum + f a
  | _ :: _, 0, _, h => by
    rw [List.getElem?_cons_zero, Option.some.injEq] at h
    subst h
    simp only [List.set_cons_zero, List.map_cons, List.sum_cons]
    omega
  | _ :: _, _ + 1, _, h => by
    rw [List.getElem?_cons_succ] at h
    simp only [List.set_cons_succ, List.map_cons, List.sum_cons]
    have := sum_map_set_add f a h
    omega

lemma set_of_getElem? {α : Type} : ∀ {l : List α} {i : Nat} {x : α}, l[i]? = some x → l.set i x = l
  | _ :: _, 0, _, h => by
    rw [List.getElem?_cons_zero, Option.some.injEq] at h
    rw [List.set_cons_zero, h]
  | _ :: _, _ + 1, _, h => by
    rw [List.getElem?_cons_succ] at h
    rw [List.set_cons_succ, set_of_getElem? h]

/-- The counts of a kernel are exact: every peer allocated so far holds one reference while it is
linked and one for each dump whose `args[1]` holds it, and no other; the device holds `base`
references and one for each dump that holds it; the live cursor allocations are the dumps'; and
every dump in progress holds a peer allocated so far, and its cursor. -/
structure Kernel.RefsExact (base : Nat) (k : Kernel) : Prop where
  peer : ∀ q, q < k.w.wg.nextPeer →
    (k.w.wg.objs q).refcount = (if q ∈ k.w.wg.peers then 1 else 0) + (k.dumps.map (heldOn · q)).sum
  dev : k.w.wg.refcnt = base + (k.dumps.map heldDev).sum
  cursor : k.w.cursors = (k.dumps.map heldCursor).sum
  held : ∀ cb p, some cb ∈ k.dumps → cb.peer = some p → p < k.w.wg.nextPeer
  started : ∀ cb, some cb ∈ k.dumps → cb.rtCursor.isSome

/-- With one socket the counts are exact exactly when they are for the system. -/
lemma Kernel.refsExact_single (base : Nat) (s : Sys) :
    Kernel.RefsExact base ⟨s.w, [s.dump]⟩ ↔ WireGuardNetlink.RefsExact base s := by
  constructor
  · rintro ⟨hp, hd, hc, hh, hs⟩
    exact ⟨by simpa using hp, by simpa using hd, by simpa using hc,
      fun cb p h => hh cb p (by simp [h]), fun cb h => hs cb (by simp [h])⟩
  · rintro ⟨hp, hd, hc, hh, hs⟩
    refine ⟨by simpa using hp, by simpa using hd, by simpa using hc, fun cb p h => ?_, fun cb h => ?_⟩
    · exact hh cb p (List.mem_singleton.1 h).symm
    · exact hs cb (List.mem_singleton.1 h).symm

namespace Kernel.RefsExact

variable {base : Nat} {k : Kernel}

/-- `n` sockets with no dump, on a new device whose one reference is the registration's. -/
lemma create (ifindex : Nat) (name : Bytes) (net : NetId) (n : Nat) :
    Kernel.RefsExact 1 ⟨World.init (Device.create ifindex name net), List.replicate n none⟩ where
  peer _ h := absurd h (Nat.not_lt_zero _)
  dev := by simp [World.init, Device.create]
  cursor := by simp [World.init]
  held _ _ h := absurd (List.eq_of_mem_replicate h) (Option.some_ne_none _)
  started _ h := absurd (List.eq_of_mem_replicate h) (Option.some_ne_none _)

/-- No dump holds a reference on a peer allocated after the state. -/
lemma heldOn_eq_zero (h : Kernel.RefsExact base k) {d : Option Cb} (hd : d ∈ k.dumps) {q : PeerId}
    (hq : k.w.wg.nextPeer ≤ q) : heldOn d q = 0 := by
  cases d with
  | none => rfl
  | some cb =>
    cases hp : cb.peer with
    | none => simp [hp]
    | some p =>
      rw [heldOn_some, hp, refOn, if_neg]
      simpa using Nat.ne_of_lt ((h.held cb p hd hp).trans_le hq)

lemma sum_heldOn_eq_zero (h : Kernel.RefsExact base k) {q : PeerId} (hq : k.w.wg.nextPeer ≤ q) :
    (k.dumps.map (heldOn · q)).sum = 0 :=
  List.sum_eq_zero fun n hn => by
    obtain ⟨d, hd, rfl⟩ := List.mem_map.1 hn
    exact h.heldOn_eq_zero hd hq

/-- Exact counts cover what each socket's dump holds. -/
lemma holds (h : Kernel.RefsExact base k) {i : Nat} {d : Option Cb} (hi : k.dumps[i]? = some d) :
    Holds d k.w where
  peer q := by
    by_cases hq : q < k.w.wg.nextPeer
    · have : heldOn d q ≤ _ :=
        List.le_sum_of_mem (List.mem_map_of_mem (heldOn · q) (List.getElem?_mem hi))
      rw [h.peer q hq]
      omega
    · rw [h.heldOn_eq_zero (List.getElem?_mem hi) (not_lt.1 hq)]
      omega
  dev := by
    have := List.le_sum_of_mem (List.mem_map_of_mem heldDev (List.getElem?_mem hi))
    rw [h.dev]
    omega
  cursor := by
    rw [h.cursor]
    exact List.le_sum_of_mem (List.mem_map_of_mem heldCursor (List.getElem?_mem hi))
  started cb hd := h.started cb (hd ▸ List.getElem?_mem hi)

/-- A request keeps the counts exact and every namespace's count as it was. -/
lemma setDevice (h : Kernel.RefsExact base k) (env : Env) (c : Caller) (buf : Bytes) :
    Kernel.RefsExact base ⟨(genlSetDevice env c buf k.w).2.2, k.dumps⟩ ∧
      (genlSetDevice env c buf k.w).2.2.netRefs = k.w.netRefs := by
  have hlist : ∀ q ∈ k.w.wg.peers, 1 ≤ (k.w.wg.objs q).refcount := fun q hq => by
    rw [h.peer q (k.w.wg.lt_nextPeer q hq), if_pos hq]
    omega
  have L := genlSetDevice_ledger env c buf k.w hlist
  exact ⟨⟨genlSetDevice_peer_exact env c buf k.w hlist _ (fun _ => h.sum_heldOn_eq_zero) h.peer,
    by rw [L.dev, h.dev], by rw [genlSetDevice_cursors, h.cursor],
    fun cb p hd hp => (h.held cb p hd hp).trans_le L.evolves.nextPeer_le, h.started⟩, L.net⟩

/-- An event other than a request on socket `i`, with the slot's dump `d` moving to `d'` as
`Sys.step` moves it, keeps the counts exact. -/
lemma moved (h : Kernel.RefsExact base k) {i : Nat} {d d' : Option Cb} {w' : World}
    (hi : k.dumps[i]? = some d) (hm : Moved d d' k.w w') (hp : w'.wg.peers = k.w.wg.peers)
    (hn : w'.wg.nextPeer = k.w.wg.nextPeer)
    (hheld : ∀ cb' p, d' = some cb' → cb'.peer = some p →
      p ∈ k.w.wg.peers ∨ ∃ cb, d = some cb ∧ cb.peer = some p)
    (hst : ∀ cb', d' = some cb' → cb'.rtCursor.isSome) :
    Kernel.RefsExact base ⟨w', k.dumps.set i d'⟩ := by
  refine ⟨fun q hq => ?_, ?_, ?_, fun cb p hcb hcp => ?_, fun cb hcb => ?_⟩
  · have h₁ := hm.peer q
    have h₂ := h.peer q (hn ▸ hq)
    have h₃ := sum_map_set_add (heldOn · q) d' hi
    dsimp only at h₃ ⊢
    rw [hp]
    omega
  · have := hm.dev; have := h.dev; have := sum_map_set_add heldDev d' hi
    dsimp only
    omega
  · have := hm.cursor; have := h.cursor; have := sum_map_set_add heldCursor d' hi
    dsimp only
    omega
  · dsimp only
    rw [hn]
    rcases List.mem_or_eq_of_mem_set hcb with hcb | hcb
    · exact h.held cb p hcb hcp
    · rcases hheld cb p hcb.symm hcp with hm' | ⟨cb₀, hd₀, hp₀⟩
      · exact k.w.wg.lt_nextPeer p hm'
      · exact h.held cb₀ p (hd₀ ▸ List.getElem?_mem hi) hp₀
  · rcases List.mem_or_eq_of_mem_set hcb with hcb | hcb
    · exact h.started cb hcb
    · exact hst cb hcb.symm

end Kernel.RefsExact

/-- Every event on a socket keeps the counts exact and every namespace's count as it was, a
message when its buffer has room for the header and the peers nest. -/
lemma Kernel.step_refsExact {env : Env} {base : Nat} {k k' : Kernel} {i : Nat} {e : Event}
    (h : k.step env i e = some k') (hroom : e.hasRoom = true) (hk : Kernel.RefsExact base k) :
    Kernel.RefsExact base k' ∧ k'.w.netRefs = k.w.netRefs := by
  unfold Kernel.step at h
  split at h
  · cases h
  rename_i d hi
  obtain ⟨s', hs, rfl⟩ := Option.map_eq_some'.1 h
  cases hreq : e.isRequest
  · obtain ⟨hm, hst⟩ := Sys.step_moved hs hreq (fun c cap he => not_failsHolding_of_room
      (by subst he; simpa [Event.hasRoom] using hroom)) (hk.holds hi)
    obtain ⟨hp, hn, hheld⟩ := Sys.step_peers_of_not_request hs hreq
    exact ⟨hk.moved hi hm hp hn hheld hst, hm.net⟩
  · cases e with
    | setDevice c buf =>
      cases hs
      rw [set_of_getElem? hi]
      exact hk.setDevice env c buf
    | _ => cases hreq

/-- Along a run whose messages all have room, exact counts stay exact and the namespaces'
counts stay as they were. -/
lemma Kernel.run_refsExact {env : Env} {base : Nat} :
    ∀ {es : List (Nat × Event)} {k k' : Kernel}, k.run env es = some k' →
      (∀ e ∈ es, e.2.hasRoom = true) → Kernel.RefsExact base k →
      Kernel.RefsExact base k' ∧ k'.w.netRefs = k.w.netRefs
  | [], _, _, h, _, hk => by cases h; exact ⟨hk, rfl⟩
  | (_, _) :: _, _, _, h, hroom, hk => by
    obtain ⟨k₁, h₁, h₂⟩ := Option.bind_eq_some.1 h
    obtain ⟨hk₁, hn₁⟩ := Kernel.step_refsExact h₁ (hroom _ (List.mem_cons_self _ _)) hk
    obtain ⟨hk', hn'⟩ :=
      Kernel.run_refsExact h₂ (fun e he => hroom e (List.mem_cons_of_mem _ he)) hk₁
    exact ⟨hk', hn'.trans hn₁⟩

/-- Reference counts along every run on any number of sockets. From a kernel whose counts are
exact, any run of requests, dump starts, messages, abandonments and traffic, each on its socket,
in which every message is offered a buffer with room for the message header and the peers nest,
ends in a kernel whose counts are exact, with every namespace's count as it was. So with any
number of dumps in progress a peer holds one reference while it is linked and one for each dump
whose `args[1]` holds it, and nothing else: a peer that dumps hold is not freed until the last of
them moves on, even when a request removes it between their messages; the device holds its own
references and one for each dump; and there is one cursor allocation for each dump in progress.
With one socket, runs are those of the single-dump system and the counts are exact exactly when
they are there. -/
theorem Kernel.refsExact_of_run_on_sockets {env : Env} {base : Nat} :
    (∀ {es : List (Nat × Event)} {k k' : Kernel}, k.run env es = some k' →
      (∀ e ∈ es, e.2.hasRoom = true) → Kernel.RefsExact base k →
      Kernel.RefsExact base k' ∧ k'.w.netRefs = k.w.netRefs) ∧
    ∀ (es : List Event) (s : Sys),
      Kernel.run env ⟨s.w, [s.dump]⟩ (es.map (0, ·)) =
        (s.run env es).map (fun s' => ⟨s'.w, [s'.dump]⟩) ∧
      (Kernel.RefsExact base ⟨s.w, [s.dump]⟩ ↔ WireGuardNetlink.RefsExact base s) :=
  ⟨Kernel.run_refsExact, fun es s => ⟨Kernel.run_single env es s, Kernel.refsExact_single base s⟩⟩

set_option maxRecDepth 20000 in
/-- Two sockets dump a device with two peers. The first message of each holds peer `0` in
`args[1]`; a request on the first socket then removes peer `0`, which keeps one reference for
each dump; the second message of each ends its dump, and peer `0` is left with none. The counts
are exact at both points. -/
theorem Kernel.refsExact_two_dumps :
    let env := Env.reliable ⟨fun s _ => s, Key.zero⟩
    let add := nlaEncode [(WGDEVICE_A_IFINDEX, u32Bytes 1),
      (WGDEVICE_A_PEERS, nlaEncode [(0, nlaEncode [(WGPEER_A_PUBLIC_KEY, List.replicate 32 1)]),
        (0, nlaEncode [(WGPEER_A_PUBLIC_KEY, List.replicate 32 2)])])]
    let remove := nlaEncode [(WGDEVICE_A_IFINDEX, u32Bytes 1),
      (WGDEVICE_A_PEERS, nlaEncode [(0, nlaEncode [(WGPEER_A_PUBLIC_KEY, List.replicate 32 1),
        (WGPEER_A_FLAGS, u32Bytes WGPEER_F_REMOVE_ME)])])]
    let start := nlaEncode [(WGDEVICE_A_IFINDEX, u32Bytes 1)]
    let k₀ : Kernel := ⟨World.init (Device.create 1 [119] 0), [none, none]⟩
    let es := [(0, Event.setDevice (Caller.admin 0) add),
      (0, .dumpStart (Caller.admin 0) start), (1, .dumpStart (Caller.admin 0) start),
      (0, .dumpNext (Caller.admin 0) 224), (1, .dumpNext (Caller.admin 0) 224),
      (0, .setDevice (Caller.admin 0) remove)]
    let es' := es ++ [(0, .dumpNext (Caller.admin 0) 4096), (1, .dumpNext (Caller.admin 0) 4096)]
    (∃ k, Kernel.run env k₀ es = some k ∧ Kernel.RefsExact 1 k ∧
      k.dumps.map (·.bind Cb.peer) = [some 0, some 0] ∧ 0 ∉ k.w.wg.peers ∧
      (k.w.wg.objs 0).refcount = 2) ∧
    ∃ k, Kernel.run env k₀ es' = some k ∧ Kernel.RefsExact 1 k ∧ k.dumps = [none, none] ∧
      (k.w.wg.objs 0).refcount = 0 := by
  intro env add remove start k₀ es es'
  have h₀ : Kernel.RefsExact 1 k₀ := Kernel.RefsExact.create 1 [119] 0 2
  have hmid : (Kernel.run env k₀ es).map (fun k => (k.dumps.map (·.bind Cb.peer),
      decide (0 ∈ k.w.wg.peers), (k.w.wg.objs 0).refcount)) = some ([some 0, some 0], false, 2) := by
    decide
  have hend : (Kernel.run env k₀ es').map (fun k => (k.dumps, (k.w.wg.objs 0).refcount)) =
      some ([none, none], 0) := by
    decide
  obtain ⟨k, h, hk⟩ := Option.map_eq_some'.1 hmid
  obtain ⟨k', h', hk'⟩ := Option.map_eq_some'.1 hend
  simp only [Prod.mk.injEq] at hk hk'
  exact ⟨⟨k, h, (Kernel.refsExact_of_run_on_sockets.1 h (by decide) h₀).1, hk.1,
    of_decide_eq_false hk.2.1, hk.2.2⟩,
    ⟨k', h', (Kernel.refsExact_of_run_on_sockets.1 h' (by decide) h₀).1, hk'.1, hk'.2⟩⟩

end WireGuardNetlink
