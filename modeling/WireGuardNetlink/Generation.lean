import WireGuardNetlink.Events

/-!
# The generation stamp

`get_device_dump` stamps each message with the device's generation (`cb->seq =
wg->device_update_gen`) under the update lock, and `set_device` advances the generation
(`++wg->device_update_gen`) as soon as it holds that lock, before it changes anything. Over any
run of the system the generation advances by the number of requests that took the lock, modulo
`2 ^ 32` (`Sys.run_updateGen`), and a run in which none took it leaves the configuration as it
was (`Sys.run_config`). So the stamps of two messages differ by the number of requests that took
the lock between them, and two messages with the same stamp and fewer than `2 ^ 32` requests
between them read the same configuration (`dump_stamps_count_locks`).
-/

namespace WireGuardNetlink

lemma uint32_ofNat_add (a b : Nat) : UInt32.ofNat (a + b) = UInt32.ofNat a + UInt32.ofNat b := by
  apply UInt32.toNat.inj
  simp [UInt32.toNat, UInt32.add_def, UInt32.ofNat, BitVec.toNat_add, Nat.add_mod]

lemma uint32_ofNat_eq_zero {n : Nat} (hn : n < 2 ^ 32) (h : UInt32.ofNat n = 0) : n = 0 := by
  rw [← UInt32.toNat_ofNat_of_lt hn, h]; rfl

/-- Over a run the generation advances by the number of requests that took the update lock. -/
theorem Sys.run_updateGen {env : Env} :
    ∀ {es : List Event} {s s' : Sys}, s.run env es = some s' →
      s'.w.wg.updateGen = s.w.wg.updateGen + UInt32.ofNat (s.locks env es)
  | [], s, s', h => by cases h; simp [Sys.locks]
  | e :: es, s, s', h => by
    obtain ⟨s₁, h₁, h₂⟩ := Option.bind_eq_some.1 h
    simp only [Sys.locks, h₁]
    rw [Sys.run_updateGen h₂, Sys.step_updateGen h₁, add_assoc, uint32_ofNat_add]
    split <;> rfl

/-- A run in which no request takes the update lock keeps the configuration. -/
theorem Sys.run_config {env : Env} :
    ∀ {es : List Event} {s s' : Sys}, s.run env es = some s' → s.locks env es = 0 →
      s'.w.wg.config = s.w.wg.config
  | [], s, s', h, _ => by cases h; rfl
  | e :: es, s, s', h, h0 => by
    obtain ⟨s₁, h₁, h₂⟩ := Option.bind_eq_some.1 h
    simp only [Sys.locks, h₁] at h0
    have hl : e.takesLock s.w = false := by
      cases hc : e.takesLock s.w
      · rfl
      · simp [hc] at h0
    rw [Sys.run_config h₂ (by simpa [hl] using h0), (Sys.step_frame h₁ hl).1]

/-- Two messages, the second after a run from the state the first is made in: the difference of
their stamps is the number of requests of the run that took the update lock, modulo `2 ^ 32`; if
none did, the second reads the configuration the first read; and so equal stamps with fewer than
`2 ^ 32` such requests mean the same configuration. -/
theorem dump_stamps_count_locks {env : Env} {s₁ s₂ : Sys} {es : List Event} {c₁ c₂ : Caller}
    {cap₁ cap₂ : Nat} {cb₁ cb₂ : Cb} {r₁ r₂ : Int × Skb × Cb × Device}
    (hrun : s₁.run env es = some s₂)
    (hm₁ : s₁.dump = some cb₁ ∧ getDeviceDump c₁ s₁.w.wg cb₁ (Skb.empty cap₁) = some r₁)
    (hm₂ : s₂.dump = some cb₂ ∧ getDeviceDump c₂ s₂.w.wg cb₂ (Skb.empty cap₂) = some r₂) :
    r₂.2.2.1.seq - r₁.2.2.1.seq = UInt32.ofNat (s₁.locks env es) ∧
    (s₁.locks env es = 0 → s₂.w.wg.config = s₁.w.wg.config) ∧
    (s₁.locks env es < 2 ^ 32 → r₂.2.2.1.seq = r₁.2.2.1.seq →
      s₂.w.wg.config = s₁.w.wg.config) := by
  have hdiff : r₂.2.2.1.seq - r₁.2.2.1.seq = UInt32.ofNat (s₁.locks env es) := by
    rw [getDeviceDump_seq hm₁.2, getDeviceDump_seq hm₂.2, Sys.run_updateGen hrun,
      add_sub_cancel_left]
  refine ⟨hdiff, Sys.run_config hrun, fun hlt heq => Sys.run_config hrun ?_⟩
  rw [heq, sub_self] at hdiff
  exact uint32_ofNat_eq_zero hlt hdiff.symm

/-- The stamp law at two messages of a dump on a new device, each into a buffer of the room
`netlink_dump` gives, with a request naming the device between them. -/
theorem dump_stamps_count_locks_one_request :
    let env := Env.reliable ⟨fun s _ => s, Key.zero⟩
    let c := Caller.admin 0
    let cb : Cb := { Cb.init with wg := true, rtCursor := some {} }
    let s₁ : Sys := ⟨World.init (Device.create 1 [119] 0), some cb⟩
    let es := [Event.setDevice c (nlaEncode [(WGDEVICE_A_IFINDEX, u32Bytes 1)])]
    let s₂ : Sys := ⟨(genlSetDevice env c (nlaEncode [(WGDEVICE_A_IFINDEX, u32Bytes 1)]) s₁.w).2.2,
      some cb⟩
    let r := (getDeviceDump c s₁.w.wg cb (Skb.empty NLMSG_GOODSIZE)).getD (0, Skb.empty NLMSG_GOODSIZE, cb, s₁.w.wg)
    let r' := (getDeviceDump c s₂.w.wg cb (Skb.empty NLMSG_GOODSIZE)).getD (0, Skb.empty NLMSG_GOODSIZE, cb, s₂.w.wg)
    (s₁.run env es = some s₂ ∧
      (s₁.dump = some cb ∧ getDeviceDump c s₁.w.wg cb (Skb.empty NLMSG_GOODSIZE) = some r) ∧
      (s₂.dump = some cb ∧ getDeviceDump c s₂.w.wg cb (Skb.empty NLMSG_GOODSIZE) = some r')) ∧
    r'.2.2.1.seq - r.2.2.1.seq = UInt32.ofNat (s₁.locks env es) := by
  intro env c cb s₁ es s₂ r r'
  have hrun : s₁.run env es = some s₂ := rfl
  have h₁ : getDeviceDump c s₁.w.wg cb (Skb.empty NLMSG_GOODSIZE) = some r := by
    obtain ⟨v, hv⟩ := Option.isSome_iff_exists.1
      (show (getDeviceDump c s₁.w.wg cb (Skb.empty NLMSG_GOODSIZE)).isSome = true by decide)
    simp only [r, hv, Option.getD_some]
  have h₂ : getDeviceDump c s₂.w.wg cb (Skb.empty NLMSG_GOODSIZE) = some r' := by
    obtain ⟨v, hv⟩ := Option.isSome_iff_exists.1
      (show (getDeviceDump c s₂.w.wg cb (Skb.empty NLMSG_GOODSIZE)).isSome = true by decide)
    simp only [r', hv, Option.getD_some]
  exact ⟨⟨hrun, ⟨rfl, h₁⟩, ⟨rfl, h₂⟩⟩, (dump_stamps_count_locks hrun ⟨rfl, h₁⟩ ⟨rfl, h₂⟩).1⟩

end WireGuardNetlink
