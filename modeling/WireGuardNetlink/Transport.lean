import WireGuardNetlink.References

/-!
# The transport socket step

`set_device` calls `set_socket` on every request that gets past the lookup, whether or not the
request names a port or a transit namespace. `set_socket` resolves the namespace the request
names, the current transit namespace by default, and first checks that the caller may use it
(`test_socket_net_capable`: it is the caller's own namespace or one the caller has
`CAP_NET_ADMIN` over). Only then does it compare the effective (port, namespace) pair with the
current one, and it changes the device, the peers' cached sources or the socket only when the
pair is new: with the current pair it gives back the namespace reference it took and returns the
capability test (`setSocket_of_same_pair`).

So a request with neither `WGDEVICE_A_LISTEN_PORT` nor a transit-namespace attribute leaves
`set_socket` nothing to do, yet `set_socket` still returns the capability test of the current
transit namespace (`setSocket_of_no_attrs`). For a caller that passed the check in the device's
namespace but lives elsewhere and lacks the capability over the transit namespace, that is
`-EPERM`, and `set_device` stops before the request's replace, key and peer steps
(`setDeviceLocked_socket_denied`, `genlSetDevice_socket_denied`); `setDevice_socket_denied` is
the case of a request that only adds a peer.
-/

namespace WireGuardNetlink

/-- Taking a namespace reference and dropping it again leaves the world as it was. -/
lemma World.putNet_getNet_eq (w : World) (n : NetId) : (w.getNet n).putNet (some n) = w := by
  cases w
  simp only [World.putNet, World.getNet, World.mk.injEq, and_true, true_and]
  funext m
  split_ifs <;> simp

/-- What `get_attr_net` leaves, once its caller drops the reference it returns, is the world it
started from. -/
lemma getAttrNet_putNet {c : Caller} {buf : Bytes} {a b : Option Nlattr} {w w' : World}
    {net : Option NetId} (h : getAttrNet c buf a b w = .ok (net, w')) : w'.putNet net = w := by
  unfold getAttrNet at h
  split at h
  · cases h
  · revert h; cases c.netByPid _ <;> rintro ⟨⟩; exact World.putNet_getNet_eq w _
  · revert h; cases c.netByFd _ <;> rintro ⟨⟩; exact World.putNet_getNet_eq w _
  · cases h; rfl

/-- `set_socket` changes nothing when the effective (port, transit namespace) pair is the current
one: it drops the namespace reference it took and returns the capability test of the current
transit namespace, `0` or `-EPERM`. -/
lemma setSocket_of_same_pair (env : Env) (c : Caller) (attrs : AttrTable) (buf : Bytes)
    {w w' : World} {net : Option NetId}
    (hnet : getAttrNet c buf (attrs WGDEVICE_A_TRANSIT_NETNS_PID)
      (attrs WGDEVICE_A_TRANSIT_NETNS_FD) w = .ok (net, w'))
    (hport : ∀ a, attrs WGDEVICE_A_LISTEN_PORT = some a → nlaGetU16 buf a = w.wg.incomingPort)
    (hsame : net = none ∨ net = some w.wg.transitNet) :
    setSocket env c attrs buf w = (testSocketNetCapable c w.wg.transitNet, w) := by
  have hw : w'.wg = w.wg := getAttrNet_wg hnet
  have htarget : net.getD w.wg.transitNet = w.wg.transitNet := by
    rcases hsame with rfl | rfl <;> rfl
  simp only [setSocket, hnet, hw, htarget]
  cases hp : attrs WGDEVICE_A_LISTEN_PORT
  · simp only [hsame, eq_self_iff_true, and_self, if_true, getAttrNet_putNet hnet]
    split_ifs with hcap <;> first | rfl | rw [not_not.1 hcap]
  · simp only [hport _ hp, hsame, eq_self_iff_true, and_self, if_true, getAttrNet_putNet hnet]
    split_ifs with hcap <;> first | rfl | rw [not_not.1 hcap]

/-- A request with neither a port nor a transit namespace leaves `set_socket` nothing to change,
and `set_socket` returns the capability test of the current transit namespace. -/
lemma setSocket_of_no_attrs (env : Env) (c : Caller) (attrs : AttrTable) (buf : Bytes) (w : World)
    (hport : attrs WGDEVICE_A_LISTEN_PORT = none)
    (hpid : attrs WGDEVICE_A_TRANSIT_NETNS_PID = none)
    (hfd : attrs WGDEVICE_A_TRANSIT_NETNS_FD = none) :
    setSocket env c attrs buf w = (testSocketNetCapable c w.wg.transitNet, w) :=
  setSocket_of_same_pair env c attrs buf (by rw [hpid, hfd]; rfl) (fun a h => by simp [hport] at h)
    (.inl rfl)

/-- Such a request from a caller that may not use the current transit namespace ends its
device-level steps at `set_socket` with `-EPERM`, after the generation bump and the mark, and
before the replace and key steps. -/
lemma setDeviceConfig_socket_denied (env : Env) (c : Caller) (attrs : AttrTable) (buf : Bytes)
    (w : World) (hport : attrs WGDEVICE_A_LISTEN_PORT = none)
    (hpid : attrs WGDEVICE_A_TRANSIT_NETNS_PID = none)
    (hfd : attrs WGDEVICE_A_TRANSIT_NETNS_FD = none)
    (hcap : w.wg.transitNet ≠ c.net ∧ c.capable w.wg.transitNet = false) :
    setDeviceConfig env c attrs buf w =
      (-EPERM, setFwmark attrs buf { w with wg := { w.wg with updateGen := w.wg.updateGen + 1 } }) := by
  have hperm : testSocketNetCapable c w.wg.transitNet = -EPERM := by
    simp [testSocketNetCapable, hcap]
  have ht : (setFwmark attrs buf
      { w with wg := { w.wg with updateGen := w.wg.updateGen + 1 } }).wg.transitNet =
      w.wg.transitNet := by
    obtain ⟨m, hm⟩ := setFwmark_wg attrs buf { w with wg := { w.wg with updateGen := w.wg.updateGen + 1 } }
    rw [hm]
  simp only [setDeviceConfig, setSocket_of_no_attrs env c attrs buf _ hport hpid hfd, ht, hperm]
  rw [if_pos (by decide)]

/-- So the locked part of `set_device` ends there: no replace, key or peer step runs. -/
lemma setDeviceLocked_socket_denied (env : Env) (c : Caller) (attrs : AttrTable) (buf : Bytes)
    (w : World) (hport : attrs WGDEVICE_A_LISTEN_PORT = none)
    (hpid : attrs WGDEVICE_A_TRANSIT_NETNS_PID = none)
    (hfd : attrs WGDEVICE_A_TRANSIT_NETNS_FD = none)
    (hcap : w.wg.transitNet ≠ c.net ∧ c.capable w.wg.transitNet = false) :
    setDeviceLocked env c attrs buf w =
      (-EPERM, buf, setFwmark attrs buf { w with wg := { w.wg with updateGen := w.wg.updateGen + 1 } }) := by
  simp only [setDeviceLocked, setDeviceConfig_socket_denied env c attrs buf w hport hpid hfd hcap]
  rw [if_pos (by decide)]

/-- And so does `set_device` once its lookup has found the device: it returns `-EPERM` and leaves
the peers as they were. -/
lemma setDevice_socket_denied_of_lookup (env : Env) (c : Caller) (attrs : AttrTable) (buf : Bytes)
    (w : World) {n : Option NetId} {w' : World} (hl : setDeviceLookup c attrs buf w = .ok (n, w'))
    (hport : attrs WGDEVICE_A_LISTEN_PORT = none)
    (hpid : attrs WGDEVICE_A_TRANSIT_NETNS_PID = none)
    (hfd : attrs WGDEVICE_A_TRANSIT_NETNS_FD = none)
    (hcap : w.wg.transitNet ≠ c.net ∧ c.capable w.wg.transitNet = false) :
    (setDevice env c attrs buf w).1 = -EPERM ∧ (setDevice env c attrs buf w).2.2.wg.peers = w.wg.peers := by
  have hw := setDeviceLookup_wg.2 n w' hl
  have hlock := setDeviceLocked_socket_denied env c attrs buf w' hport hpid hfd (by rw [hw]; exact hcap)
  obtain ⟨m, hm⟩ := setFwmark_wg attrs buf { w' with wg := { w'.wg with updateGen := w'.wg.updateGen + 1 } }
  refine ⟨by simp [setDevice, hl, hlock], ?_⟩
  rw [setDevice_of_ok hl, World.putNet_wg, hlock]
  simp only [hm]
  simp [hw]

/-- A message whose parsed attributes name neither a port nor a transit namespace and find the
device, from a caller that may not use the transit namespace: `set_device` returns `-EPERM` and
leaves the peers as they were. -/
lemma genlSetDevice_socket_denied (env : Env) (c : Caller) (buf : Bytes) (w : World)
    (h : (nlaParse buf WGDEVICE_A_MAX devicePolicy 0 buf.length).toOption.map (fun attrs =>
      (attrs WGDEVICE_A_LISTEN_PORT, attrs WGDEVICE_A_TRANSIT_NETNS_PID,
        attrs WGDEVICE_A_TRANSIT_NETNS_FD, (setDeviceLookup c attrs buf w).toBool)) =
      some (none, none, none, true))
    (hcap : w.wg.transitNet ≠ c.net ∧ c.capable w.wg.transitNet = false) :
    (genlSetDevice env c buf w).1 = -EPERM ∧ (genlSetDevice env c buf w).2.2.wg.peers = w.wg.peers := by
  unfold genlSetDevice
  cases hp : nlaParse buf WGDEVICE_A_MAX devicePolicy 0 buf.length with
  | error e => rw [hp] at h; cases h
  | ok attrs =>
    simp only [hp, Except.toOption, Option.map_some', Option.some.injEq, Prod.mk.injEq] at h
    obtain ⟨hport, hpid, hfd, hl⟩ := h
    cases hlook : setDeviceLookup c attrs buf w with
    | error r => rw [hlook] at hl; cases hl
    | ok r => exact setDevice_socket_denied_of_lookup env c attrs buf w hlook hport hpid hfd hcap

/-- A caller in namespace `net` with `CAP_NET_ADMIN` over `net` alone, whose pids and
descriptors all name `net`. -/
def Caller.confined (net : NetId) : Caller :=
  ⟨net, fun n => n == net, net, fun n => n == net, fun _ => .ok net, fun _ => .ok net,
    fun _ _ h => (nomatch h), fun _ _ h => (nomatch h)⟩

/-- A request with a peer block and neither a port nor a transit namespace, from a caller in the
device's namespace with `CAP_NET_ADMIN` there, to a device whose transit namespace is another one
the caller has no capability over: `set_device` returns `-EPERM` and the peer is not created. -/
theorem setDevice_socket_denied :
    (fun r : Int × Bytes × World => r.1 = -EPERM ∧ r.2.2.wg.peers = [])
      (genlSetDevice (Env.reliable ⟨fun s _ => s, Key.zero⟩) (Caller.confined 0)
        (nlaEncode [(WGDEVICE_A_IFINDEX, u32Bytes 1),
          (WGDEVICE_A_PEERS, nlaEncode [(0, nlaEncode [(WGPEER_A_PUBLIC_KEY, List.replicate 32 1)])])])
        (World.init { Device.create 1 [119] 0 with transitNet := 1 })) := by
  exact genlSetDevice_socket_denied _ _ _ _ (by decide) (by decide)

end WireGuardNetlink
