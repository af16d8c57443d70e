import WireGuardNetlink.Consistency

/-!
# What every run keeps

The events of the system interleave requests with dumps and traffic (`Sys.step`). The
configuration invariant of requests (`Consistent`) holds of every state a run reaches from a
consistent one (`consistent_of_run`). A request keeps it at whichever step it stops
(`genlSetDevice_consistent`); a dump moves only reference counts (`getDeviceDump_wg`); and traffic
changes a peer's counters, last handshake and endpoint, an endpoint the data plane learns from a
packet's source and so an IPv4 or an IPv6 one.
-/

namespace WireGuardNetlink

namespace Consistent

variable {env : Env} {d : Device}

/-- Traffic keeps the invariant when the endpoint it learns is an IPv4 or an IPv6 one, or none. -/
lemma traffic (h : Consistent env d) (p : PeerId) (rx tx : UInt64) (hs : Bytes) {ep : Endpoint}
    (hep : ep.Ok) :
    Consistent env (d.updPeer p fun o =>
      { o with rxBytes := rx, txBytes := tx, lastHandshake := hs, endpoint := ep }) :=
  h.of_frame rfl rfl (fun q => by by_cases hq : q = p <;> simp [Device.updPeer, hq])
    (fun q hq => by by_cases hqp : q = p <;> simp [Device.updPeer, hqp, hep, hq])
    (List.Sublist.refl _)

/-- The end of a dump drops the references it holds. -/
lemma getDeviceDone {w : World} (h : Consistent env w.wg) (cb : Cb) :
    Consistent env (WireGuardNetlink.getDeviceDone cb w).wg := by
  rw [getDeviceDone_wg]
  split_ifs
  · have h' : Consistent env { w.wg with refcnt := w.wg.refcnt - 1 } := h.congr rfl rfl rfl rfl
    exact h'.wgPeerPut _
  · exact h.wgPeerPut _

end Consistent

/-- Every event keeps the invariant, traffic when the endpoint it learns is an IPv4 or an IPv6
one, or none. -/
lemma Sys.step_consistent {env : Env} {s s' : Sys} {e : Event} (h : s.step env e = some s')
    (he : ∀ p rx tx hs ep, e = .traffic p rx tx hs ep → ep.Ok) (hc : Consistent env s.w.wg) :
    Consistent env s'.w.wg := by
  cases e with
  | setDevice c buf => cases h; exact genlSetDevice_consistent env c buf s.w hc
  | dumpStart c buf =>
    simp only [Sys.step] at h
    split at h
    · cases h
    · cases h
      rcases getDeviceStart_wg env c buf s.w with hw | hw <;> rw [hw]
      · exact hc
      · exact hc.congr rfl rfl rfl rfl
  | dumpNext c cap =>
    simp only [Sys.step] at h
    split at h
    · cases h
    · rename_i cb _
      obtain ⟨r, hr, rfl⟩ := Option.map_eq_some'.1 h
      obtain ⟨x, hx⟩ := getDeviceDump_wg hr
      have hr' : Consistent env r.2.2.2 := hx ▸ (hc.wgPeerGet x).wgPeerPut cb.peer
      split
      · exact hr'
      · exact Consistent.getDeviceDone hr' _
  | dumpAbandon =>
    simp only [Sys.step] at h
    split at h
    · cases h
    · cases h; exact hc.getDeviceDone _
  | traffic p rx tx hs ep => cases h; exact hc.traffic p rx tx hs (he _ _ _ _ _ rfl)

/-- The configuration invariant along every run. From a state whose device is consistent, any
run of requests, dump starts, messages, abandonments and traffic whose endpoints are IPv4, IPv6
or none ends in a state whose device is consistent: its identity reproduces itself, every peer's
precomputation with it succeeds, there are at most `MAX_PEERS_PER_DEVICE` peers, the allowed-IP
table holds each valid masked prefix once for a linked peer, and every endpoint is IPv4, IPv6 or
none. -/
theorem consistent_of_run {env : Env} :
    ∀ {es : List Event} {s s' : Sys}, s.run env es = some s' →
      (∀ p rx tx hs ep, Event.traffic p rx tx hs ep ∈ es → ep.Ok) →
      Consistent env s.w.wg → Consistent env s'.w.wg
  | [], s, s', h, _, hc => by cases h; exact hc
  | e :: es, s, s', h, hep, hc => by
    obtain ⟨s₁, h₁, h₂⟩ := Option.bind_eq_some.1 h
    exact consistent_of_run h₂ (fun p rx tx hs ep hm => hep p rx tx hs ep (List.mem_cons_of_mem _ hm))
      (Sys.step_consistent h₁ (fun p rx tx hs ep he => hep p rx tx hs ep (he ▸ List.mem_cons_self _ _)) hc)

/-- A new device given a peer, dumped, and reached by traffic from `10.0.0.1:8080` before the
first message: the run ends consistent. -/
theorem consistent_of_run_traffic :
    let env := Env.reliable ⟨fun s _ => s, Key.zero⟩
    let add := nlaEncode [(WGDEVICE_A_IFINDEX, u32Bytes 1),
      (WGDEVICE_A_PEERS, nlaEncode [(0, nlaEncode [(WGPEER_A_PUBLIC_KEY, List.replicate 32 1)])])]
    let es := [Event.setDevice (Caller.admin 0) add,
      .dumpStart (Caller.admin 0) (nlaEncode [(WGDEVICE_A_IFINDEX, u32Bytes 1)]),
      .traffic 0 100 200 (List.replicate 16 0) (Endpoint.ofBytes [2, 0, 31, 144, 10, 0, 0, 1]),
      .dumpNext (Caller.admin 0) 4096]
    (fun r : Option Sys => ∃ s', r = some s' ∧ Consistent env s'.w.wg)
      (Sys.run env ⟨World.init (Device.create 1 [119] 0), none⟩ es) := by
  intro env add es
  set_option maxRecDepth 20000 in
  obtain ⟨s', h⟩ := Option.isSome_iff_exists.1
    (show (Sys.run env ⟨World.init (Device.create 1 [119] 0), none⟩ es).isSome = true by decide)
  refine ⟨s', h, consistent_of_run h (fun p rx tx hs ep hm => ?_) (Device.create_consistent env 1 [119] 0)⟩
  simp only [es, List.mem_cons, reduceCtorEq, Event.traffic.injEq, List.mem_singleton, false_or,
    or_false, List.not_mem_nil] at hm
  rw [hm.2.2.2.2]
  exact .inl (by decide)

end WireGuardNetlink
