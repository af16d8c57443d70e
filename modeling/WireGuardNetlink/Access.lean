import WireGuardNetlink.Generation
import WireGuardNetlink.References

/-!
# Who can reach the device

Both entry points check `CAP_NET_ADMIN` (`netlink_capable`) over the namespace the request
names, its own socket's unless it gives `WGDEVICE_A_DEV_NETNS_PID` or `_FD`, and then look the
device up in that namespace only (`lookup_interface`). So a request that finds the device, and
with it a request that takes the update lock or a dump that starts, comes from a caller with the
capability over the device's own namespace (`setDeviceTakesLock_capable`,
`getDeviceStart_capable`). Over a whole run, callers without it, whatever namespaces they name,
never take the lock and never start a dump: the run ends with the configuration it started with
and no dump in progress (`Sys.run_unprivileged`).

The transport socket has its own check. `set_socket` moves the socket, its port and transit
namespace (`Device.transport`), only after `test_socket_net_capable` has passed for the namespace
it moves it into: the caller's own, or one it has `CAP_NET_ADMIN` over. The other steps of a
request and every other event keep the transport, so over a run the socket ends where it started
or in a namespace the caller of one of the run's requests may use (`Sys.run_transport`).
-/

namespace WireGuardNetlink

/-- A lookup finds the device only in the device's own namespace. -/
lemma lookupInterface_devNet {buf : Bytes} {attrs : AttrTable} {net : NetId} {w w' : World}
    (h : lookupInterface buf attrs net w = .ok w') : net = w.wg.devNet := by
  unfold lookupInterface at h
  split at h
  · cases h
  · dsimp only at h
    split at h
    · rename_i hf
      unfold findDev at hf
      dsimp only at hf
      split_ifs at hf with hh
      simp only [Bool.and_eq_true, beq_iff_eq] at hh
      exact hh.1.symm
    all_goals cases h

/-- The part of `set_device` before the lock succeeds only for a caller with the capability
over the device's namespace. -/
lemma setDeviceLookup_capable {c : Caller} {attrs : AttrTable} {buf : Bytes} {w w' : World}
    {owned : Option NetId} (h : setDeviceLookup c attrs buf w = .ok (owned, w')) :
    c.netlinkCapable w.wg.devNet = true := by
  unfold setDeviceLookup at h
  split at h
  · cases h
  · rename_i n w₁ h₁
    split at h
    · cases h
    · rename_i hcap
      split at h
      · cases h
      · rename_i w₂ h₂
        rw [← getAttrNet_wg h₁, ← lookupInterface_devNet h₂]
        simpa using hcap

/-- A request that takes the update lock comes from a caller with the capability over the
device's namespace. -/
lemma setDeviceTakesLock_capable {c : Caller} {buf : Bytes} {w : World}
    (h : setDeviceTakesLock c buf w = true) : c.netlinkCapable w.wg.devNet = true := by
  unfold setDeviceTakesLock at h
  split at h
  · cases h
  · split at h
    · exact setDeviceLookup_capable ‹_›
    · cases h

/-- A dump that starts (`get_device_start` returning `0`) was asked for by a caller with the
capability over the device's namespace. -/
lemma getDeviceStart_capable {env : Env} {c : Caller} {buf : Bytes} {w : World}
    (h : (getDeviceStart env c buf w).1 = 0) : c.netlinkCapable w.wg.devNet = true := by
  simp only [getDeviceStart] at h
  split at h
  · exact absurd h (nlaParseAttrs_error ‹_›).ne
  · split at h
    · exact absurd h (getAttrNet_error_neg ‹_›).ne
    · rename_i owned w₁ h₁
      split at h
      · simp [EPERM] at h
      · rename_i hcap
        split at h
        · simp [ENOMEM] at h
        · split at h
          · exact absurd h (lookupInterface_error_neg ‹_›).ne
          · rename_i w₃ h₃
            rw [← getAttrNet_wg h₁, show w₁.wg.devNet = _ from (lookupInterface_devNet h₃).symm]
            simpa using hcap

/-- One event, from a state with no dump in progress, whose request or dump start (if it is
one) comes from a caller without the capability over the device's namespace: it does not take
the update lock, keeps the device's namespace and leaves no dump in progress. -/
lemma Sys.step_unprivileged {env : Env} {s s' : Sys} {e : Event} (h : s.step env e = some s')
    (hd : s.dump = none) (hc : ∀ c buf, e = .setDevice c buf ∨ e = .dumpStart c buf →
      c.netlinkCapable s.w.wg.devNet = false) :
    e.takesLock s.w = false ∧ s'.w.wg.devNet = s.w.wg.devNet ∧ s'.dump = none := by
  cases e with
  | setDevice c buf =>
    have hl : setDeviceTakesLock c buf s.w = false := by
      cases ht : setDeviceTakesLock c buf s.w
      · rfl
      · simpa [hc c buf (.inl rfl)] using setDeviceTakesLock_capable ht
    cases h
    exact ⟨hl, by rw [genlSetDevice_wg_of_not_takesLock env c buf s.w hl], hd⟩
  | dumpStart c buf =>
    have h0 : (getDeviceStart env c buf s.w).1 ≠ 0 := fun h0 => by
      simpa [hc c buf (.inr rfl)] using getDeviceStart_capable h0
    simp only [Sys.step, hd, Option.some.injEq] at h
    subst h
    exact ⟨rfl, congrArg Device.devNet (getDeviceStart_error h0).2.1, if_neg h0⟩
  | dumpNext c cap => simp [Sys.step, hd] at h
  | dumpAbandon => simp [Sys.step, hd] at h
  | traffic p rx tx hs ep => cases h; exact ⟨rfl, rfl, hd⟩

/-- A run from a state with no dump in progress whose requests and dump starts all come from
callers without the capability over the device's namespace takes the lock in none of its
requests, keeps the namespace and leaves no dump in progress. -/
lemma Sys.run_unprivileged_locks {env : Env} :
    ∀ {es : List Event} {s s' : Sys}, s.run env es = some s' → s.dump = none →
      (∀ c buf, Event.setDevice c buf ∈ es ∨ Event.dumpStart c buf ∈ es →
        c.netlinkCapable s.w.wg.devNet = false) →
      s.locks env es = 0 ∧ s'.w.wg.devNet = s.w.wg.devNet ∧ s'.dump = none
  | [], s, s', h, hd, _ => by cases h; exact ⟨rfl, rfl, hd⟩
  | e :: es, s, s', h, hd, hc => by
    obtain ⟨s₁, h₁, h₂⟩ := Option.bind_eq_some.1 h
    obtain ⟨hl, hn, hd₁⟩ := Sys.step_unprivileged h₁ hd fun c buf he =>
      hc c buf (by rcases he with rfl | rfl <;> simp)
    obtain ⟨hl', hn', hd'⟩ := Sys.run_unprivileged_locks h₂ hd₁ fun c buf he =>
      hn ▸ hc c buf (he.imp (List.mem_cons_of_mem _) (List.mem_cons_of_mem _))
    simp only [Sys.locks, h₁, hl, hl']
    exact ⟨rfl, hn'.trans hn, hd'⟩

/-- Callers without `CAP_NET_ADMIN` over the device's namespace can neither change the device nor
read it: a run from a state with no dump in progress whose requests and dump starts all come
from such callers, whatever namespaces and devices they name, takes the update lock in none of
its requests, and ends with the configuration it started with (key pair, mark, port, and every
peer's keys, keepalive and allowed IPs) and with no dump in progress. -/
theorem Sys.run_unprivileged {env : Env} {es : List Event} {s s' : Sys}
    (h : s.run env es = some s') (hd : s.dump = none)
    (hc : ∀ c buf, Event.setDevice c buf ∈ es ∨ Event.dumpStart c buf ∈ es →
      c.netlinkCapable s.w.wg.devNet = false) :
    s.locks env es = 0 ∧ s'.w.wg.config = s.w.wg.config ∧ s'.dump = none :=
  have hr := Sys.run_unprivileged_locks h hd hc
  ⟨hr.1, Sys.run_config h hr.1, hr.2.2⟩

/-- A caller in the device's namespace with the capability over namespace `5` only: a request
on its own socket, a request naming namespace `5` by pid, and a dump start naming it: the
device ends as it was, and none of the requests took the lock. -/
theorem Sys.run_unprivileged_other_net :
    let env := Env.reliable ⟨fun s _ => s, Key.zero⟩
    let c : Caller := ⟨0, fun n => n == 5, 0, fun n => n == 5, fun _ => .ok 5, fun _ => .ok 5,
      fun _ _ h => (nomatch h), fun _ _ h => (nomatch h)⟩
    let peers := nlaEncode [(0, nlaEncode [(WGPEER_A_PUBLIC_KEY, List.replicate 32 1)])]
    let s₀ : Sys := ⟨World.init (Device.create 1 [119] 0), none⟩
    let es := [Event.setDevice c (nlaEncode [(WGDEVICE_A_IFINDEX, u32Bytes 1), (WGDEVICE_A_PEERS, peers)]),
      .setDevice c (nlaEncode [(WGDEVICE_A_IFINDEX, u32Bytes 1), (WGDEVICE_A_DEV_NETNS_PID, u32Bytes 7),
        (WGDEVICE_A_PEERS, peers)]),
      .dumpStart c (nlaEncode [(WGDEVICE_A_IFINDEX, u32Bytes 1), (WGDEVICE_A_DEV_NETNS_PID, u32Bytes 7)])]
    (fun r : Option Sys => ∃ s', r = some s' ∧ s₀.locks env es = 0 ∧
      s'.w.wg.config = s₀.w.wg.config ∧ s'.dump = none) (Sys.run env s₀ es) := by
  intro env c peers s₀ es
  obtain ⟨s', h⟩ := Option.isSome_iff_exists.1 (show (Sys.run env s₀ es).isSome = true by decide)
  refine ⟨s', h, Sys.run_unprivileged h rfl fun c' buf hm => ?_⟩
  simp only [es, List.mem_cons, Event.setDevice.injEq, Event.dumpStart.injEq, reduceCtorEq,
    List.not_mem_nil, or_false, false_or] at hm
  rcases hm with (⟨rfl, -⟩ | ⟨rfl, -⟩) | ⟨rfl, -⟩ <;> rfl

/-- The device's transport: the port and the namespace its socket lives in. -/
def Device.transport (d : Device) : UInt16 × NetId := (d.incomingPort, d.transitNet)

lemma Device.transport_eq_head (d : Device) :
    d.transport = (d.head.incomingPort, d.head.transitNet) := rfl

lemma Device.transitNet_of_transport {d d' : Device} (h : d'.transport = d.transport) :
    d'.transitNet = d.transitNet :=
  congrArg Prod.snd h

/-- Ending a dump keeps the transport. -/
lemma getDeviceDone_transport (cb : Cb) (w : World) :
    (getDeviceDone cb w).wg.transport = w.wg.transport := by
  rw [getDeviceDone_wg, Device.transport_eq_head, wgPeerPut_head]
  split_ifs <;> rfl

/-- `set_socket` moves the transport only into a namespace the caller may use
(`test_socket_net_capable`). -/
lemma setSocket_transport (env : Env) (c : Caller) (attrs : AttrTable) (buf : Bytes) (w : World) :
    (setSocket env c attrs buf w).2.wg.transport = w.wg.transport ∨
      testSocketNetCapable c (setSocket env c attrs buf w).2.wg.transitNet = 0 := by
  unfold setSocket
  split
  · exact .inl rfl
  · rename_i net w₁ h₁
    have hw : w₁.wg.transport = w.wg.transport := by rw [getAttrNet_wg h₁]
    dsimp only
    split_ifs with ht hs hr
    · exact .inl (by simpa using hw)
    · exact .inl (by simpa using hw)
    · exact .inr (by simpa using ht)
    · split
      · exact .inl (by simpa using hw)
      · exact .inr (by simpa using ht)

@[simp] lemma precomputeOrRemove_transport (env : Env) (w : World) (p : PeerId) :
    (precomputeOrRemove env w p).wg.transport = w.wg.transport := by
  simp only [precomputeOrRemove]; split <;> rfl

@[simp] lemma removeCollidingPeer_transport (env : Env) (k : Key) (w : World) :
    (removeCollidingPeer env k w).wg.transport = w.wg.transport := by
  simp only [removeCollidingPeer, wgPubkeyHashtableLookup]
  split
  · split <;> rename_i hd <;> simp only [Prod.mk.injEq] at hd <;> obtain ⟨-, rfl⟩ := hd <;>
      simp [Device.transport_eq_head]
  · rfl

/-- The key change keeps the transport. -/
lemma setPrivateKey_transport (env : Env) (k : Key) (w : World) :
    (setPrivateKey env k w).wg.transport = w.wg.transport := by
  have hloop : ∀ (l : List PeerId) (v : World),
      (l.foldl (precomputeOrRemove env) v).wg.transport = v.wg.transport := by
    intro l
    induction l with
    | nil => intro v; rfl
    | cons p l ih => intro v; rw [List.foldl_cons, ih, precomputeOrRemove_transport]
  simp only [setPrivateKey, precomputeAll_eq]
  exact (hloop _ _).trans (removeCollidingPeer_transport env k w)

/-- The device-level steps move the transport only into a namespace the caller may use: the
mark, the replace and the key change keep it, and the socket step is `setSocket_transport`. -/
lemma setDeviceConfig_transport (env : Env) (c : Caller) (attrs : AttrTable) (buf : Bytes)
    (w : World) :
    (setDeviceConfig env c attrs buf w).2.wg.transport = w.wg.transport ∨
      testSocketNetCapable c (setDeviceConfig env c attrs buf w).2.wg.transitNet = 0 := by
  have hrest : ∀ v : World,
      (setPrivateKeyAttr env attrs buf (replacePeers attrs buf v)).wg.transport = v.wg.transport :=
    fun v => by
      have hr : (replacePeers attrs buf v).wg.transport = v.wg.transport := by
        rcases replacePeers_wg attrs buf v with h | h <;> rw [h]
        rw [Device.transport_eq_head, (wgPeerRemoveAll_head_keys _).1]; rfl
      rcases setPrivateKeyAttr_cases env attrs buf (replacePeers attrs buf v) with h | ⟨k, h⟩ <;>
        rw [h, ← hr]
      exact setPrivateKey_transport env k _
  obtain ⟨m, hm⟩ := setFwmark_wg attrs buf
    { w with wg := { w.wg with updateGen := w.wg.updateGen + 1 } }
  have hmark : (setFwmark attrs buf
      { w with wg := { w.wg with updateGen := w.wg.updateGen + 1 } }).wg.transport =
      w.wg.transport := by rw [hm]; rfl
  simp only [setDeviceConfig]
  rcases setSocket_transport env c attrs buf
    (setFwmark attrs buf { w with wg := { w.wg with updateGen := w.wg.updateGen + 1 } })
    with h | h <;> split_ifs
  · exact .inl (h.trans hmark)
  · exact .inl ((hrest _).trans (h.trans hmark))
  · exact .inr h
  · exact .inr (by rw [Device.transitNet_of_transport (hrest _)]; exact h)

/-- The peer blocks keep the transport, so the locked part moves it as the device-level steps
do. -/
lemma setDeviceLocked_transport (env : Env) (c : Caller) (attrs : AttrTable) (buf : Bytes)
    (w : World) :
    (setDeviceLocked env c attrs buf w).2.2.wg.transport =
      (setDeviceConfig env c attrs buf w).2.wg.transport := by
  simp only [setDeviceLocked]
  split
  · rfl
  · split
    · rw [setDevicePeers_eq, Device.transport_eq_head, applyPeerBlocks_head]; rfl
    · rfl

/-- A request moves the transport only into a namespace its caller may use. -/
lemma genlSetDevice_transport (env : Env) (c : Caller) (buf : Bytes) (w : World) :
    (genlSetDevice env c buf w).2.2.wg.transport = w.wg.transport ∨
      testSocketNetCapable c (genlSetDevice env c buf w).2.2.wg.transitNet = 0 := by
  unfold genlSetDevice
  cases hp : nlaParse buf WGDEVICE_A_MAX devicePolicy 0 buf.length with
  | error e => exact .inl rfl
  | ok attrs =>
    cases hl : setDeviceLookup c attrs buf w with
    | error r =>
      obtain ⟨e, w'⟩ := r
      exact .inl (by simp only [setDevice_of_error hl, setDeviceLookup_wg.1 e w' hl])
    | ok r =>
      obtain ⟨n, w'⟩ := r
      have hw : w'.wg.transport = w.wg.transport := by rw [setDeviceLookup_wg.2 n w' hl]; rfl
      have hlock := setDeviceLocked_transport env c attrs buf w'
      simp only [setDevice_of_ok hl, World.putNet_wg]
      rcases setDeviceConfig_transport env c attrs buf w' with h | h
      · exact .inl ((hlock.trans h).trans hw)
      · exact .inr (by rw [Device.transitNet_of_transport hlock]; exact h)

/-- Every event moves the transport only by a request whose caller may use its new namespace. -/
lemma Sys.step_transport {env : Env} {s s' : Sys} {e : Event} (h : s.step env e = some s') :
    s'.w.wg.transport = s.w.wg.transport ∨
      ∃ c buf, e = .setDevice c buf ∧ testSocketNetCapable c s'.w.wg.transitNet = 0 := by
  cases e with
  | setDevice c buf =>
    cases h
    exact (genlSetDevice_transport env c buf s.w).imp_right fun h => ⟨c, buf, rfl, h⟩
  | dumpStart c buf =>
    simp only [Sys.step] at h
    split at h
    · cases h
    · cases h
      rcases getDeviceStart_wg env c buf s.w with hw | hw <;> rw [hw] <;> exact .inl rfl
  | dumpNext c cap =>
    simp only [Sys.step] at h
    split at h
    · cases h
    · obtain ⟨r, hr, rfl⟩ := Option.map_eq_some'.1 h
      obtain ⟨x, hx⟩ := getDeviceDump_wg hr
      have hd : r.2.2.2.transport = s.w.wg.transport := by
        rw [hx, Device.transport_eq_head, wgPeerPut_head, wgPeerGet_head]; rfl
      refine .inl ?_
      split
      · exact hd
      · exact (getDeviceDone_transport _ _).trans hd
  | dumpAbandon =>
    simp only [Sys.step] at h
    split at h
    · cases h
    · cases h
      exact .inl (getDeviceDone_transport _ _)
  | traffic p rx tx hs ep => cases h; exact .inl rfl

/-- Only a caller that may use a namespace, its own or one it has `CAP_NET_ADMIN` over, moves
the device's socket into it: a run ends with the port and transit namespace it started with, or
with a transit namespace that the caller of one of its requests passes
`test_socket_net_capable` for. -/
theorem Sys.run_transport {env : Env} :
    ∀ {es : List Event} {s s' : Sys}, s.run env es = some s' →
      s'.w.wg.transport = s.w.wg.transport ∨
        ∃ c buf, Event.setDevice c buf ∈ es ∧ testSocketNetCapable c s'.w.wg.transitNet = 0
  | [], s, s', h => by cases h; exact .inl rfl
  | e :: es, s, s', h => by
    obtain ⟨s₁, h₁, h₂⟩ := Option.bind_eq_some.1 h
    rcases Sys.run_transport h₂ with h' | ⟨c, buf, hm, hc⟩
    · rcases Sys.step_transport h₁ with h₁' | ⟨c, buf, rfl, hc⟩
      · exact .inl (h'.trans h₁')
      · exact .inr ⟨c, buf, List.mem_cons_self _ _, by rw [Device.transitNet_of_transport h']; exact hc⟩
    · exact .inr ⟨c, buf, List.mem_cons_of_mem _ hm, hc⟩

/-- An administrator moving a new device's socket to port `51820`: the run ends with the new
port, in a namespace the administrator may use. -/
theorem Sys.run_transport_listen_port :
    let env := Env.reliable ⟨fun s _ => s, Key.zero⟩
    let s₀ : Sys := ⟨World.init (Device.create 1 [119] 0), none⟩
    let es := [Event.setDevice (Caller.admin 0)
      (nlaEncode [(WGDEVICE_A_IFINDEX, u32Bytes 1), (WGDEVICE_A_LISTEN_PORT, u16Bytes 51820)])]
    (fun r : Option Sys => ∃ s', r = some s' ∧ s'.w.wg.incomingPort = 51820 ∧
      (s'.w.wg.transport = s₀.w.wg.transport ∨
        ∃ c buf, Event.setDevice c buf ∈ es ∧ testSocketNetCapable c s'.w.wg.transitNet = 0))
      (Sys.run env s₀ es) := by
  intro env s₀ es
  obtain ⟨s', h⟩ := Option.isSome_iff_exists.1 (show (Sys.run env s₀ es).isSome = true by decide)
  refine ⟨s', h, ?_, Sys.run_transport h⟩
  have hp : (Sys.run env s₀ es).map (·.w.wg.incomingPort) = some 51820 := by decide
  rw [h] at hp
  exact Option.some.inj hp

end WireGuardNetlink
