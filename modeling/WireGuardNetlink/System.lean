import WireGuardNetlink.Set
import WireGuardNetlink.Dump

/-!
# The system

`netlink.c` runs in a kernel where its handlers interleave with each other and with the data
plane. Each handler runs under the RTNL and the device's update lock, so a call is atomic; what
interleaves are whole calls. The events are a configuration request (`set_device` behind the
generic netlink parse), the start of a dump, one message of the dump, its end or its abandonment
by the client (`get_device_done` either way), and traffic, which changes a peer's counters, last
handshake and endpoint. The netlink core drives the dump: it calls `get_device_dump` into a
fresh buffer of the capacity the client offers and ends the dump once a call returns zero or an
error. One dump is in progress at a time.

Modelled from the spec: the netlink core and the data plane are not among the sources; the spec
describes the dump as "Start, Streaming (one invocation per output message), Done", a dump that
"may be abandoned by the client at any point between messages", and mutation requests that
interleave with it.
-/

namespace WireGuardNetlink

/-- The modelled kernel with the dump in progress, if any (its `struct netlink_callback`). -/
structure Sys where
  w : World
  dump : Option Cb

/-- What can happen next. -/
inductive Event
  /-- A `WG_CMD_SET_DEVICE` request from a caller. -/
  | setDevice (c : Caller) (buf : Bytes)
  /-- A `WG_CMD_GET_DEVICE` dump begins (`get_device_start`). -/
  | dumpStart (c : Caller) (buf : Bytes)
  /-- The dump fills one message of the given capacity (`get_device_dump`). -/
  | dumpNext (c : Caller) (cap : Nat)
  /-- The client closes its socket in the middle of the dump (`get_device_done`). -/
  | dumpAbandon
  /-- Traffic: a peer's counters, last handshake and endpoint change. -/
  | traffic (p : PeerId) (rx tx : UInt64) (handshake : Bytes) (ep : Endpoint)

/-- One event; `none` when it cannot happen (a dump step with no dump, a second dump). -/
def Sys.step (env : Env) (s : Sys) : Event → Option Sys
  | .setDevice c buf => some { s with w := (genlSetDevice env c buf s.w).2.2 }
  | .dumpStart c buf =>
    match s.dump with
    | some _ => none
    | none =>
      let r := getDeviceStart env c buf s.w
      some ⟨r.2.2, if r.1 = 0 then some r.2.1 else none⟩
  | .dumpNext c cap =>
    match s.dump with
    | none => none
    | some cb =>
      (getDeviceDump c s.w.wg cb (Skb.empty cap)).map fun r =>
        let w := { s.w with wg := r.2.2.2 }
        if 0 < r.1 then ⟨w, some r.2.2.1⟩ else ⟨getDeviceDone r.2.2.1 w, none⟩
  | .dumpAbandon =>
    match s.dump with
    | none => none
    | some cb => some ⟨getDeviceDone cb s.w, none⟩
  | .traffic p rx tx hs ep =>
    some { s with w := { s.w with wg := s.w.wg.updPeer p fun o =>
      { o with rxBytes := rx, txBytes := tx, lastHandshake := hs, endpoint := ep } } }

/-- The states reachable from `s₀`. -/
inductive Sys.Reach (env : Env) (s₀ : Sys) : Sys → Prop
  | refl : Sys.Reach env s₀ s₀
  | step {s s' : Sys} {e : Event} : Sys.Reach env s₀ s → s.step env e = some s' →
      Sys.Reach env s₀ s'

/-- Run events in order; `none` when one cannot happen. -/
def Sys.run (env : Env) : Sys → List Event → Option Sys
  | s, [] => some s
  | s, e :: es => (s.step env e).bind fun s' => s'.run env es

/-- A run of two parts runs the second from where the first ends. -/
lemma Sys.run_append (env : Env) :
    ∀ (s : Sys) (es es' : List Event), s.run env (es ++ es') = (s.run env es).bind (·.run env es')
  | _, [], _ => rfl
  | s, e :: es, es' => by
    simp only [List.cons_append, Sys.run, Option.bind_assoc]
    cases s.step env e with
    | none => rfl
    | some s' => exact Sys.run_append env s' es es'

/-- Whether a request takes the device's update lock: its attributes parse and the part of
`set_device` before the lock succeeds. -/
def setDeviceTakesLock (c : Caller) (buf : Bytes) (w : World) : Bool :=
  match nlaParse buf WGDEVICE_A_MAX devicePolicy 0 buf.length with
  | .error _ => false
  | .ok attrs =>
    match setDeviceLookup c attrs buf w with
    | .ok _ => true
    | .error _ => false

/-- Whether an event is a request that takes the device's update lock. -/
def Event.takesLock (w : World) : Event → Bool
  | .setDevice c buf => setDeviceTakesLock c buf w
  | _ => false

/-- The number of requests of a run that take the update lock. -/
def Sys.locks (env : Env) : Sys → List Event → Nat
  | _, [] => 0
  | s, e :: es =>
    match s.step env e with
    | none => 0
    | some s' => (if e.takesLock s.w then 1 else 0) + s'.locks env es

end WireGuardNetlink
