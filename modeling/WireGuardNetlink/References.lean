import WireGuardNetlink.DumpSpec
import WireGuardNetlink.PeerEvolution

/-!
# The references a dump holds

`get_device_start` takes a reference on the device (`args[0]`) and allocates the allowed-IP cursor
(`args[2]`); each `get_device_dump` moves the reference it holds from the old cursor peer
(`args[1]`) to the new one; `get_device_done` gives back what is left. A functional model cannot
say "dropped twice" directly; what the discipline amounts to is a conservation law (`Moved`):
between any two points of a dump, every reference count, the cursor count and the namespaces'
counts moved by exactly what the dump held before and holds after (`heldOn`, `heldDev`,
`heldCursor`).

A start that fails holds nothing (`getDeviceStart_error`), and every event but a request keeps
the law (`dumpNext_moved`, `dumpAbandon_moved`, `dumpStart_moved`, `Sys.step_moved`), except one
message: one that fails while `args[1]` holds a peer (`Sys.FailsHolding`). `get_device_dump` then
drops the reference on `args[1]` at `out:` but returns before it clears `args[1]`, and the
`get_device_done` that ends the dump would drop it again. A continuation message fails so only
when its buffer has no room for the header and the peers nest, which no buffer `netlink_dump`
gives a dump message lacks (`Lifetimes`).
-/

namespace WireGuardNetlink

/-- The references the dump in progress holds on a peer: one on the peer in `args[1]`. -/
def heldOn : Option Cb → PeerId → Nat
  | some cb, q => refOn cb.peer q
  | none, _ => 0

/-- The reference it holds on the device (`args[0]`). -/
def heldDev : Option Cb → Nat
  | some cb => if cb.wg then 1 else 0
  | none => 0

/-- The cursor allocation it holds (`args[2]`). -/
def heldCursor : Option Cb → Nat
  | some cb => if cb.rtCursor.isSome then 1 else 0
  | none => 0

@[simp] lemma heldOn_none (q : PeerId) : heldOn none q = 0 := rfl

@[simp] lemma heldOn_some (cb : Cb) (q : PeerId) : heldOn (some cb) q = refOn cb.peer q := rfl

@[simp] lemma heldDev_some (cb : Cb) : heldDev (some cb) = if cb.wg then 1 else 0 := rfl

@[simp] lemma heldCursor_some (cb : Cb) :
    heldCursor (some cb) = if cb.rtCursor.isSome then 1 else 0 := rfl

@[simp] lemma heldDev_none : heldDev none = 0 := rfl

@[simp] lemma heldCursor_none : heldCursor none = 0 := rfl

/-- Between two points of a dump the counts moved by exactly what the dump gave back and took:
`w'` is `w` with the references of `o` dropped and those of `o'` taken, and the namespaces'
counts are the same. -/
structure Moved (o o' : Option Cb) (w w' : World) : Prop where
  peer : ∀ q, (w'.wg.objs q).refcount + heldOn o q = (w.wg.objs q).refcount + heldOn o' q
  dev : w'.wg.refcnt + heldDev o = w.wg.refcnt + heldDev o'
  cursor : w'.cursors + heldCursor o = w.cursors + heldCursor o'
  net : w'.netRefs = w.netRefs

/-- The counts cover what the dump holds, and a dump in progress holds its cursor. -/
structure Holds (o : Option Cb) (w : World) : Prop where
  peer : ∀ q, heldOn o q ≤ (w.wg.objs q).refcount
  dev : heldDev o ≤ w.wg.refcnt
  cursor : heldCursor o ≤ w.cursors
  started : ∀ cb, o = some cb → cb.rtCursor.isSome

namespace Moved

variable {o o' o'' : Option Cb} {w w' w'' : World}

lemma refl (o : Option Cb) (w : World) : Moved o o w w := ⟨fun _ => rfl, rfl, rfl, rfl⟩

lemma trans (h₁ : Moved o o' w w') (h₂ : Moved o' o'' w' w'') : Moved o o'' w w'' where
  peer q := by have := h₁.peer q; have := h₂.peer q; omega
  dev := by have := h₁.dev; have := h₂.dev; omega
  cursor := by have := h₁.cursor; have := h₂.cursor; omega
  net := h₂.net.trans h₁.net

/-- From a point where the dump held nothing, the counts cover what it holds now. -/
lemma holds (h : Moved none o w w') (hs : ∀ cb, o = some cb → cb.rtCursor.isSome) :
    Holds o w' where
  peer q := by have := h.peer q; rw [heldOn_none] at this; omega
  dev := by have := h.dev; rw [heldDev_none] at this; omega
  cursor := by have := h.cursor; rw [heldCursor_none] at this; omega
  started := hs

end Moved

@[simp] lemma World.putNet_cursors (w : World) (o : Option NetId) :
    (w.putNet o).cursors = w.cursors := by
  cases o <;> rfl

/-- Dropping a namespace reference reads only the namespaces' counts. -/
lemma World.putNet_netRefs_congr {w w' : World} (o : Option NetId) (h : w'.netRefs = w.netRefs) :
    (w'.putNet o).netRefs = (w.putNet o).netRefs := by
  cases o <;> simp [World.putNet, h]

lemma putNet_getNet (w : World) (n : NetId) : ((w.getNet n).putNet (some n)).netRefs = w.netRefs := by
  funext m
  simp only [World.putNet, World.getNet]
  split_ifs <;> simp

/-- The namespace reference `get_attr_net` takes is the one its caller drops, and it changes
nothing else the dump counts. -/
lemma getAttrNet_ok {c : Caller} {buf : Bytes} {a b : Option Nlattr} {w w' : World}
    {owned : Option NetId} (h : getAttrNet c buf a b w = .ok (owned, w')) :
    (w'.putNet owned).netRefs = w.netRefs ∧ w'.wg = w.wg ∧ w'.cursors = w.cursors := by
  unfold getAttrNet at h
  split at h
  · cases h
  · revert h; cases c.netByPid _ <;> rintro ⟨⟩; exact ⟨putNet_getNet w _, rfl, rfl⟩
  · revert h; cases c.netByFd _ <;> rintro ⟨⟩; exact ⟨putNet_getNet w _, rfl, rfl⟩
  · cases h; exact ⟨rfl, rfl, rfl⟩

lemma lookupInterface_ok {buf : Bytes} {attrs : AttrTable} {net : NetId} {w w' : World}
    (h : lookupInterface buf attrs net w = .ok w') :
    w' = { w with wg := { w.wg with refcnt := w.wg.refcnt + 1 } } := by
  unfold lookupInterface at h
  split at h
  · cases h
  · dsimp only at h
    split at h <;> cases h; rfl

/-- `get_device_start` gives back the namespace reference it took. On an error it holds nothing
and the device's and the cursor count are as they were (the cursor is freed); on success it holds
the device and a cleared cursor, and both counts went up by one. -/
lemma getDeviceStart_spec (env : Env) (c : Caller) (buf : Bytes) (w : World) :
    (getDeviceStart env c buf w).2.2.netRefs = w.netRefs ∧
    ((getDeviceStart env c buf w).1 ≠ 0 ∧ (getDeviceStart env c buf w).2.1 = Cb.init ∧
        (getDeviceStart env c buf w).2.2.wg = w.wg ∧
        (getDeviceStart env c buf w).2.2.cursors = w.cursors ∨
      (getDeviceStart env c buf w).1 = 0 ∧
        (getDeviceStart env c buf w).2.1 = { Cb.init with wg := true, rtCursor := some {} } ∧
        (getDeviceStart env c buf w).2.2.wg = { w.wg with refcnt := w.wg.refcnt + 1 } ∧
        (getDeviceStart env c buf w).2.2.cursors = w.cursors + 1) := by
  simp only [getDeviceStart]
  split
  · rename_i e he
    exact ⟨rfl, .inl ⟨(nlaParseAttrs_error he).ne, rfl, rfl, rfl⟩⟩
  · split
    · rename_i e he
      exact ⟨rfl, .inl ⟨(getAttrNet_error_neg he).ne, rfl, rfl, rfl⟩⟩
    · rename_i owned w₁ h₁
      obtain ⟨hnet, hwg, hcur⟩ := getAttrNet_ok h₁
      have hnet' : ∀ w₂ : World, w₂.netRefs = w₁.netRefs → (w₂.putNet owned).netRefs = w.netRefs :=
        fun w₂ h₂ => (World.putNet_netRefs_congr owned h₂).trans hnet
      split
      · exact ⟨hnet, .inl ⟨by simp [EPERM], rfl, by simpa using hwg, by simpa using hcur⟩⟩
      · split
        · exact ⟨hnet' _ rfl, .inl ⟨by simp [ENOMEM], rfl, by simpa [World.alloc] using hwg,
            by simpa [World.alloc] using hcur⟩⟩
        · split
          · rename_i e he
            exact ⟨hnet' _ rfl, .inl ⟨(lookupInterface_error_neg he).ne, rfl,
              by simpa [World.alloc] using hwg, by simp [World.alloc, hcur]⟩⟩
          · rename_i w₃ h₃
            rw [lookupInterface_ok h₃]
            exact ⟨hnet' _ rfl, .inr ⟨rfl, rfl, by simp [World.alloc, hwg], by simp [World.alloc, hcur]⟩⟩

/-- A start that fails holds nothing: the cursor is freed and the device's and the namespaces'
references are given back. -/
lemma getDeviceStart_error {env : Env} {c : Caller} {buf : Bytes} {w : World}
    (h : (getDeviceStart env c buf w).1 ≠ 0) :
    (getDeviceStart env c buf w).2.1 = Cb.init ∧ (getDeviceStart env c buf w).2.2.wg = w.wg ∧
      (getDeviceStart env c buf w).2.2.cursors = w.cursors ∧
      (getDeviceStart env c buf w).2.2.netRefs = w.netRefs := by
  obtain ⟨hnet, ⟨-, hcb, hwg, hcur⟩ | ⟨h0, -⟩⟩ := getDeviceStart_spec env c buf w
  · exact ⟨hcb, hwg, hcur, hnet⟩
  · exact absurd h0 h

@[simp] lemma refOn_none (q : PeerId) : refOn none q = 0 := rfl

@[simp] lemma getDeviceDone_cursors (cb : Cb) (w : World) :
    (getDeviceDone cb w).cursors = if cb.rtCursor.isSome then w.cursors - 1 else w.cursors := rfl

@[simp] lemma wgPeerGet_refcnt (d : Device) (p : Option PeerId) : (wgPeerGet d p).refcnt = d.refcnt := by
  cases p <;> rfl

@[simp] lemma wgPeerPut_refcnt (d : Device) (p : Option PeerId) : (wgPeerPut d p).refcnt = d.refcnt := by
  cases p <;> rfl

@[simp] lemma getDeviceDone_objs (cb : Cb) (w : World) (q : PeerId) :
    (getDeviceDone cb w).wg.objs q =
      { w.wg.objs q with refcount := (w.wg.objs q).refcount - refOn cb.peer q } := by
  simp only [getDeviceDone_wg, wgPeerPut_objs]
  split_ifs <;> rfl

@[simp] lemma getDeviceDone_refcnt (cb : Cb) (w : World) :
    (getDeviceDone cb w).wg.refcnt = if cb.wg then w.wg.refcnt - 1 else w.wg.refcnt := by
  simp only [getDeviceDone_wg]
  split_ifs <;> simp

@[simp] lemma getDeviceDone_netRefs (cb : Cb) (w : World) :
    (getDeviceDone cb w).netRefs = w.netRefs := rfl

/-- The message of capacity `cap` fails (`get_device_dump` returns an error) while `args[1]`
holds a peer. -/
def Sys.FailsHolding (s : Sys) (c : Caller) (cap : Nat) : Prop :=
  ∃ cb r, s.dump = some cb ∧ cb.peer.isSome ∧ getDeviceDump c s.w.wg cb (Skb.empty cap) = some r ∧
    r.1 < 0

/-- How a message ends (`out:`): its result, and `args[1]` kept on an error, cleared when the dump
is done and moved to the last complete peer otherwise. -/
lemma dumpFinish_spec (d : Device) (cb : Cb) (ret : Int) (done : Bool) (next : Option PeerId)
    (rt : Option AllowedIpsCursor) (hdr : Nat) (skb : Skb) :
    (dumpFinish d cb ret done next rt hdr skb).1 =
        (if ret ≠ 0 then ret else if done then 0 else (skb.len : Int)) ∧
      (dumpFinish d cb ret done next rt hdr skb).2.2.1 =
        { cb with peer := if ret ≠ 0 then cb.peer else if done then none else next, rtCursor := rt } := by
  simp only [dumpFinish]
  split_ifs <;> exact ⟨rfl, rfl⟩

/-- A message that goes on: the counts moved by the peer references the old and the new callback
hold. -/
lemma Moved.goesOn {cb cb' : Cb} {w : World} {d' : Device}
    (hpeer : ∀ q, (d'.objs q).refcount + refOn cb.peer q = (w.wg.objs q).refcount + refOn cb'.peer q)
    (hdev : d'.refcnt = w.wg.refcnt) (hwg : cb'.wg = cb.wg)
    (hcur : cb'.rtCursor.isSome = cb.rtCursor.isSome) :
    Moved (some cb) (some cb') w { w with wg := d' } :=
  ⟨hpeer, by simp [hdev, hwg], by simp [hcur], rfl⟩

/-- A message that ends the dump: `get_device_done` drops what the last callback still holds, and
the counts are back where they were without the dump. -/
lemma Moved.ends {cb cb' : Cb} {w : World} {d' : Device} (hb : Holds (some cb) w)
    (hpeer : ∀ q, (d'.objs q).refcount - refOn cb'.peer q + refOn cb.peer q = (w.wg.objs q).refcount)
    (hdev : d'.refcnt = w.wg.refcnt) (hwg : cb'.wg = cb.wg)
    (hcur : cb'.rtCursor.isSome = cb.rtCursor.isSome) :
    Moved (some cb) none w (getDeviceDone cb' { w with wg := d' }) where
  peer q := by
    simp only [getDeviceDone_objs, heldOn_some, heldOn_none, Nat.add_zero]
    exact hpeer q
  dev := by
    have := hb.dev
    simp only [heldDev_some, heldDev_none, getDeviceDone_refcnt, hwg, hdev] at this ⊢
    split_ifs at this ⊢ <;> omega
  cursor := by
    have := hb.cursor
    simp only [heldCursor_some, heldCursor_none, getDeviceDone_cursors, hcur] at this ⊢
    split_ifs at this ⊢ <;> omega
  net := rfl

/-- A message that does not fail while `args[1]` holds a peer moves the counts by exactly what the
dump holds before and after it, and a dump that goes on still holds its cursor. -/
lemma dumpNext_moved {env : Env} {c : Caller} {cap : Nat} {s s' : Sys}
    (h : s.step env (.dumpNext c cap) = some s') (hb : Holds s.dump s.w)
    (hok : ¬ s.FailsHolding c cap) :
    Moved s.dump s'.dump s.w s'.w ∧ ∀ cb', s'.dump = some cb' → cb'.rtCursor.isSome := by
  obtain ⟨cb, hcb⟩ : ∃ cb, s.dump = some cb := by
    cases hd : s.dump with
    | none => simp [Sys.step, hd] at h
    | some cb => exact ⟨cb, rfl⟩
  simp only [Sys.step, hcb] at h
  obtain ⟨r, hr, rfl⟩ := Option.map_eq_some'.1 h
  clear h
  obtain ⟨prev, ret, done, next, rt, hdr, skb', rfl, hret, hrt⟩ := getDeviceDump_cases hr
  have hstart := hb.started cb hcb
  have hrt' : rt.isSome = cb.rtCursor.isSome := by
    rcases hrt with rfl | ⟨x, rfl⟩
    · rfl
    · exact hstart.symm
  rw [hcb] at hb ⊢
  have hpeer := hb.peer
  obtain ⟨h1, h2⟩ := dumpFinish_spec s.w.wg { cb with seq := s.w.wg.updateGen, prevSeq := prev }
    ret done next rt hdr skb'
  rw [h1]
  simp only [h2, dumpFinish_wg]
  rcases hret with rfl | rfl
  · cases done
    · simp only [ne_eq, not_true_eq_false, if_false, Bool.false_eq_true, and_self, if_true]
      split
      · refine ⟨Moved.goesOn (fun q => ?_) (by simp) rfl hrt', fun cb' hcb' => ?_⟩
        · have := hpeer q
          simp only [heldOn_some, wgPeerPut_objs, wgPeerGet_objs] at this ⊢
          omega
        · cases hcb'; exact hrt'.trans hstart
      · refine ⟨Moved.ends hb (fun q => ?_) (by simp) rfl hrt', fun cb' hcb' => by cases hcb'⟩
        have := hpeer q
        simp only [heldOn_some, wgPeerPut_objs, wgPeerGet_objs] at this ⊢
        omega
    · simp only [ne_eq, not_true_eq_false, if_false, if_true, Bool.true_eq_false, and_false,
        lt_self_iff_false]
      refine ⟨Moved.ends hb (fun q => ?_) (by simp) rfl hrt', fun cb' hcb' => by cases hcb'⟩
      have := hpeer q
      simp only [heldOn_some, wgPeerPut_objs, wgPeerGet_objs, refOn_none] at this ⊢
      omega
  · have hnone : cb.peer = none := by
      by_contra hne
      exact hok ⟨cb, _, hcb, Option.ne_none_iff_isSome.1 hne, hr, by rw [h1, if_pos (by decide)]; decide⟩
    have hneg : ¬ (0 : Int) < -EMSGSIZE := by simp [EMSGSIZE]
    simp only [ne_eq, EMSGSIZE, Int.reduceNeg, neg_eq_zero, OfNat.ofNat_ne_zero, not_false_eq_true,
      if_true, false_and, if_false] at hneg ⊢
    rw [if_neg hneg]
    refine ⟨Moved.ends hb (fun q => ?_) (by simp) rfl hrt', fun cb' hcb' => by cases hcb'⟩
    simp [hnone]

/-- Whether an event is a configuration request: requests take and drop references of their own. -/
def Event.isRequest : Event → Bool
  | .setDevice _ _ => true
  | _ => false

/-- A start holds what `get_device_start` leaves in the callback, and nothing when it fails. -/
lemma dumpStart_moved {env : Env} {c : Caller} {buf : Bytes} {s s' : Sys}
    (h : s.step env (.dumpStart c buf) = some s') :
    s.dump = none ∧ Moved none s'.dump s.w s'.w ∧ ∀ cb', s'.dump = some cb' → cb'.rtCursor.isSome := by
  cases hd : s.dump with
  | some cb => simp [Sys.step, hd] at h
  | none =>
    refine ⟨rfl, ?_⟩
    simp only [Sys.step, hd, Option.some.injEq] at h
    subst h
    obtain ⟨hnet, ⟨hne, -, hwg, hcur⟩ | ⟨h0, hcb, hwg, hcur⟩⟩ := getDeviceStart_spec env c buf s.w
    · rw [if_neg hne]
      exact ⟨⟨fun q => by simp [hwg], by simp [hwg], by simp [hcur], hnet⟩, fun _ h => by cases h⟩
    · rw [if_pos h0, hcb]
      exact ⟨⟨fun q => by simp [hwg, Cb.init, refOn], by simp [hwg], by simp [hcur], hnet⟩,
        fun _ h => by cases h; rfl⟩

/-- An abandoned dump gives back what it holds. -/
lemma dumpAbandon_moved {env : Env} {s s' : Sys} (h : s.step env .dumpAbandon = some s')
    (hb : Holds s.dump s.w) : Moved s.dump s'.dump s.w s'.w ∧ s'.dump = none := by
  cases hd : s.dump with
  | none => simp [Sys.step, hd] at h
  | some cb =>
    simp only [Sys.step, hd, Option.some.injEq] at h
    subst h
    rw [hd] at hb
    exact ⟨@Moved.ends cb cb s.w s.w.wg hb
      (fun q => by have := hb.peer q; simp only [heldOn_some] at this; omega) rfl rfl rfl, rfl⟩

/-- Traffic changes no count. -/
lemma traffic_moved {env : Env} {p : PeerId} {rx tx : UInt64} {hs : Bytes} {ep : Endpoint}
    {s s' : Sys} (h : s.step env (.traffic p rx tx hs ep) = some s') :
    Moved s.dump s'.dump s.w s'.w ∧ s'.dump = s.dump := by
  simp only [Sys.step, Option.some.injEq] at h
  subst h
  refine ⟨⟨fun q => ?_, rfl, rfl, rfl⟩, rfl⟩
  by_cases hq : q = p
  · subst hq; simp
  · simp [Device.updPeer_objs_ne _ _ hq]

/-- The law along one event: every event but a request, and but a message that fails while
`args[1]` holds a peer, moves the counts by what the dump holds before and after it. -/
lemma Sys.step_moved {env : Env} {s s' : Sys} {e : Event} (h : s.step env e = some s')
    (hreq : e.isRequest = false) (hok : ∀ c cap, e = .dumpNext c cap → ¬ s.FailsHolding c cap)
    (hb : Holds s.dump s.w) :
    Moved s.dump s'.dump s.w s'.w ∧ ∀ cb', s'.dump = some cb' → cb'.rtCursor.isSome := by
  cases e with
  | setDevice => cases hreq
  | dumpStart c buf =>
    obtain ⟨hd, hm, hs⟩ := dumpStart_moved h
    exact ⟨hd ▸ hm, hs⟩
  | dumpNext c cap => exact dumpNext_moved h hb (hok c cap rfl)
  | dumpAbandon =>
    obtain ⟨hm, hd⟩ := dumpAbandon_moved h hb
    exact ⟨hm, fun cb' h' => by rw [hd] at h'; cases h'⟩
  | traffic p rx tx hs ep =>
    obtain ⟨hm, hd⟩ := traffic_moved h
    exact ⟨hm, fun cb' h' => hb.started cb' (hd ▸ h')⟩

end WireGuardNetlink
