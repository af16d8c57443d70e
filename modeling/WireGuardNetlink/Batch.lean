import WireGuardNetlink.SetPeer

/-!
# Partial application of a batch

`set_device` applies the peer blocks of a request one after another and stops at the first that
fails, undoing nothing (`applyPeerBlocks`). Its loop reads each block header from the request
buffer as the previous `set_peer` left it, after that call wiped its block's preshared key; the
wipe stays inside the block (`setDevicePeer_drop`), so the loop applies the blocks of the
request as it came (`setDevicePeers_eq`). A failing block therefore ends the request with its
error and the state it leaves; the device-level steps and the blocks before it have the effect
they have in the same request with the peer nest cut just before it; and no later block runs
(`setDeviceLocked_first_failure`). A block that fails before it holds a peer changes neither the
device nor the effects; one that holds a peer fails only in its allowed IPs, after its creation
and updates and before its keepalive interval and the flush of staged packets
(`setPeer_error_cases`); and inside the block the allowed IPs stop at their first failing entry
as the blocks do (`setAllowedips_append`).
-/

namespace WireGuardNetlink

section Batch

variable (env : Env)

/-- The peer blocks of a request applied in order, up to the first that fails. -/
def applyPeerBlocks : List Nlattr → Bytes → World → Int × Bytes × World
  | [], buf, w => (0, buf, w)
  | a :: as, buf, w =>
    let r := setDevicePeer env a buf w
    if r.1 < 0 then r else applyPeerBlocks as r.2.1 r.2.2

/-- `set_peer` changes the buffer only by wiping the block's preshared key. -/
lemma setPeer_buf (buf : Bytes) (tb : AttrTable) (w : World) :
    (setPeer env buf tb w).2.1 = match tb WGPEER_A_PRESHARED_KEY with
      | some a => nlaWipe buf a
      | none => buf := rfl

/-- A peer block changes no byte after its own. -/
lemma setDevicePeer_drop {a : Nlattr} {buf : Bytes} {pos rem : Nat}
    (ha : nlaAt buf pos rem = some a) (w : World) :
    (setDevicePeer env a buf w).2.1.drop (pos + nlaTotalSize a.len) =
      buf.drop (pos + nlaTotalSize a.len) := by
  have hoff := (nlaAt_eq_some ha).1
  have hT : NLA_HDRLEN + a.len ≤ nlaTotalSize a.len := by
    simp only [nlaTotalSize, nlaAlign]; omega
  unfold setDevicePeer
  split
  · rfl
  · rename_i tb htb
    rw [setPeer_buf]
    split
    · rename_i x hx
      have := nlaParseNested_bounds htb hx
      exact drop_memzeroExplicit _ (by omega)
    · rfl

/-- The loop of `set_device`, reading each header from the buffer as it then is, applies the
blocks of the request as it came. -/
lemma setDevicePeers_eq : ∀ (fuel pos rem : Nat) (buf : Bytes) (w : World),
    setDevicePeers env fuel pos rem buf w =
      applyPeerBlocks env (nlaForEachAttr buf fuel pos rem) buf w
  | 0, _, _, _, _ => rfl
  | fuel + 1, pos, rem, buf, w => by
    simp only [setDevicePeers, nlaForEachAttr]
    cases ha : nlaAt buf pos rem with
    | none => rfl
    | some a =>
      simp only [applyPeerBlocks]
      split
      · rfl
      · rw [setDevicePeers_eq, nlaForEachAttr_congr _ _ _ (setDevicePeer_drop env ha w)]

/-- Running a batch is running its first part and, unless that failed, the rest after it. -/
lemma applyPeerBlocks_append (pre rest : List Nlattr) (buf : Bytes) (w : World) :
    applyPeerBlocks env (pre ++ rest) buf w =
      if (applyPeerBlocks env pre buf w).1 < 0 then applyPeerBlocks env pre buf w
      else applyPeerBlocks env rest (applyPeerBlocks env pre buf w).2.1
        (applyPeerBlocks env pre buf w).2.2 := by
  induction pre generalizing buf w with
  | nil => simp [applyPeerBlocks]
  | cons a pre ih =>
    by_cases h : (setDevicePeer env a buf w).1 < 0 <;> simp [applyPeerBlocks, h, ih]

/-- A batch returns `0`, or the error of a first failing block after the blocks before it all
succeeded. -/
lemma applyPeerBlocks_cases (l : List Nlattr) (buf : Bytes) (w : World) :
    (applyPeerBlocks env l buf w).1 = 0 ∨
      ∃ pre b post, l = pre ++ b :: post ∧ (applyPeerBlocks env pre buf w).1 = 0 ∧
        (applyPeerBlocks env l buf w).1 < 0 := by
  induction l generalizing buf w with
  | nil => exact .inl rfl
  | cons a l ih =>
    by_cases h : (setDevicePeer env a buf w).1 < 0
    · exact .inr ⟨[], a, l, rfl, rfl, by simp [applyPeerBlocks, h]⟩
    · rcases ih (setDevicePeer env a buf w).2.1 (setDevicePeer env a buf w).2.2 with h0 | ⟨pre, b, post, hl, hpre, hneg⟩
      · exact .inl (by simpa [applyPeerBlocks, h] using h0)
      · exact .inr ⟨a :: pre, b, post, by rw [hl]; rfl, by simpa [applyPeerBlocks, h] using hpre,
          by simpa [applyPeerBlocks, h] using hneg⟩

/-- The device-level steps do not read the peer nest. -/
lemma setDeviceConfig_congr (c : Caller) {attrs attrs' : AttrTable}
    (h : ∀ t, t ≠ WGDEVICE_A_PEERS → attrs' t = attrs t) (buf : Bytes) (w : World) :
    setDeviceConfig env c attrs' buf w = setDeviceConfig env c attrs buf w := by
  simp only [setDeviceConfig, setFwmark, setSocket, replacePeers, setPrivateKeyAttr,
    h WGDEVICE_A_FWMARK (by decide),
    h WGDEVICE_A_TRANSIT_NETNS_PID (by decide), h WGDEVICE_A_TRANSIT_NETNS_FD (by decide),
    h WGDEVICE_A_LISTEN_PORT (by decide), h WGDEVICE_A_FLAGS (by decide),
    h WGDEVICE_A_PRIVATE_KEY (by decide)]

/-- Once the device-level steps succeed, the locked part of `set_device` is the batch of the
request's peer blocks. -/
lemma setDeviceLocked_eq (c : Caller) (attrs : AttrTable) (buf : Bytes) (w : World) (a : Nlattr)
    (hpeers : attrs WGDEVICE_A_PEERS = some a) (hcfg : (setDeviceConfig env c attrs buf w).1 = 0) :
    setDeviceLocked env c attrs buf w =
      applyPeerBlocks env (nlaNested buf a) buf (setDeviceConfig env c attrs buf w).2 := by
  simp only [setDeviceLocked, hcfg, hpeers, ne_eq, not_true_eq_false, if_false]
  exact setDevicePeers_eq env _ _ _ _ _

/-- The request with its peer nest cut just before the block at `b` reaches the same blocks
before it. -/
lemma nlaNested_trim {buf : Bytes} {a b : Nlattr} {pre post : List Nlattr}
    (h : nlaNested buf a = pre ++ b :: post) :
    nlaNested buf { a with len := b.off - NLA_HDRLEN - a.off } = pre := by
  have hmem : b ∈ nlaNested buf a := by rw [h]; simp
  have hb := mem_nlaForEachAttr hmem
  simp only [nlaNested, nlaAttrs]
  rw [@nlaForEachAttr_fuel buf _ a.len _ _ le_rfl (by omega)]
  exact nlaForEachAttr_trim pre h

/-- A batch stops at its first failing peer block. Once the device-level steps succeed,
`set_device` applies the blocks of the request in order (`applyPeerBlocks`); it returns `0`, or
the error of a block after all blocks before it succeeded; at such a first failing block it ends
with that block's result, no later block runs, and the device-level steps and the blocks before
it leave exactly what they leave in the same request with the peer nest cut just before the
failing block. A block fails in one of two ways. Before it holds a peer (a missing or short
public key, a protocol version other than 1, the removal of a key no peer has, a failed
creation) it changes neither the device nor the effects. Holding a peer it does not remove, it
fails only in its allowed IPs, and then ends with the world the allowed-IP loop leaves after the
creation and the updates before the loop, with no keepalive interval set and no staged packets
flushed. The loop has run the entries before the first failing one and none after it. -/
theorem setDeviceLocked_first_failure (c : Caller) (attrs : AttrTable) (buf : Bytes) (w : World)
    (a : Nlattr) (hpeers : attrs WGDEVICE_A_PEERS = some a)
    (hcfg : (setDeviceConfig env c attrs buf w).1 = 0) :
    let w₀ := (setDeviceConfig env c attrs buf w).2
    setDeviceLocked env c attrs buf w = applyPeerBlocks env (nlaNested buf a) buf w₀ ∧
    ((setDeviceLocked env c attrs buf w).1 = 0 ∨
      ∃ pre b post, nlaNested buf a = pre ++ b :: post ∧
        (applyPeerBlocks env pre buf w₀).1 = 0 ∧ (setDeviceLocked env c attrs buf w).1 < 0) ∧
    (∀ pre b post, nlaNested buf a = pre ++ b :: post →
      (applyPeerBlocks env pre buf w₀).1 = 0 →
      (setDevicePeer env b (applyPeerBlocks env pre buf w₀).2.1
          (applyPeerBlocks env pre buf w₀).2.2).1 < 0 →
        setDeviceLocked env c attrs buf w =
          setDevicePeer env b (applyPeerBlocks env pre buf w₀).2.1
            (applyPeerBlocks env pre buf w₀).2.2 ∧
        setDeviceLocked env c (fun t => if t = WGDEVICE_A_PEERS then
            some { a with len := b.off - NLA_HDRLEN - a.off } else attrs t) buf w =
          applyPeerBlocks env pre buf w₀) ∧
    (∀ buf' tb w', (setPeer env buf' tb w').1 < 0 →
      ((setPeerApply env buf' tb w').2.1 = none ∧ (setPeer env buf' tb w').2.2.wg = w'.wg ∧
        (setPeer env buf' tb w').2.2.log = w'.log ∧
        ((setPeer env buf' tb w').1 = -EINVAL ∨ (setPeer env buf' tb w').1 = -EPFNOSUPPORT ∨
          (setPeer env buf' tb w').1 = -ENODEV ∨ (setPeer env buf' tb w').1 = -ENOMEM)) ∨
      ∃ psk flags p w₁ a, (∃ pk, setPeerHold env pk psk flags w' = .ok (p, w₁)) ∧
        flags &&& WGPEER_F_REMOVE_ME = 0 ∧ tb WGPEER_A_ALLOWEDIPS = some a ∧
        let r := setAllowedips env p buf' (nlaNested buf' a) (setPeerConfig buf' tb flags psk p w₁)
        r.1 < 0 ∧ (setPeer env buf' tb w').1 = r.1 ∧
          (setPeer env buf' tb w').2.2 = { r.2 with wg := wgPeerPut r.2.wg (some p) }) ∧
    (∀ p buf' pre e post w', (setAllowedips env p buf' pre w').1 = 0 →
      (setAllowedips env p buf' [e] (setAllowedips env p buf' pre w').2).1 < 0 →
        setAllowedips env p buf' (pre ++ e :: post) w' =
          setAllowedips env p buf' [e] (setAllowedips env p buf' pre w').2) := by
  dsimp only
  have hlocked := setDeviceLocked_eq env c attrs buf w a hpeers hcfg
  refine ⟨hlocked, ?_, fun pre b post hsplit hpre hfail => ⟨?_, ?_⟩,
    setPeer_error_cases env, fun p buf' pre e post w' hpre hfail => ?_⟩
  · rw [hlocked]; exact applyPeerBlocks_cases env _ _ _
  · rw [hlocked, hsplit, applyPeerBlocks_append, if_neg (by omega)]
    simp only [applyPeerBlocks, if_pos hfail]
  · have hcfg' := @setDeviceConfig_congr env c attrs (fun t => if t = WGDEVICE_A_PEERS then
        some { a with len := b.off - NLA_HDRLEN - a.off } else attrs t) (fun t ht => if_neg ht) buf w
    rw [setDeviceLocked_eq env c _ buf w _ (if_pos rfl) (hcfg' ▸ hcfg), hcfg', nlaNested_trim hsplit]
  · rw [setAllowedips_append, if_neg (by omega), show e :: post = [e] ++ post from rfl,
      setAllowedips_append, if_pos hfail]

end Batch

set_option maxRecDepth 20000 in
/-- A request of two peer blocks to a new device: the first creates a peer, the second creates
another with a keepalive interval and two allowed IPs, `10.0.0.5/24` and then `10.0.0.1/33`, whose
prefix length is too long. The request ends with the second block's `-EINVAL`, in the state the
second block leaves after the first: the first peer, the second peer with `10.0.0.0/24` and no
keepalive interval. -/
theorem setDeviceLocked_first_failure_second_block :
    let env := Env.reliable ⟨fun s _ => s, Key.zero⟩
    let c := Caller.admin 0
    let buf := nlaEncode [(WGDEVICE_A_PEERS, nlaEncode [
      (0, nlaEncode [(WGPEER_A_PUBLIC_KEY, List.replicate 32 1)]),
      (0, nlaEncode [(WGPEER_A_PUBLIC_KEY, List.replicate 32 2),
        (WGPEER_A_PERSISTENT_KEEPALIVE_INTERVAL, u16Bytes 25),
        (WGPEER_A_ALLOWEDIPS, nlaEncode [
          (0, nlaEncode [(WGALLOWEDIP_A_FAMILY, u16Bytes 2), (WGALLOWEDIP_A_IPADDR, [10, 0, 0, 5]),
            (WGALLOWEDIP_A_CIDR_MASK, u8Bytes 24)]),
          (0, nlaEncode [(WGALLOWEDIP_A_FAMILY, u16Bytes 2), (WGALLOWEDIP_A_IPADDR, [10, 0, 0, 1]),
            (WGALLOWEDIP_A_CIDR_MASK, u8Bytes 33)])])])])]
    let attrs := (nlaParse buf WGDEVICE_A_MAX devicePolicy 0 buf.length).toOption.getD fun _ => none
    let w := World.init (Device.create 1 [119] 0)
    let w₀ := (setDeviceConfig env c attrs buf w).2
    let b₁ : Nlattr := ⟨0, 8, 36⟩
    let b₂ : Nlattr := ⟨0, 48, 104⟩
    setDeviceLocked env c attrs buf w =
        setDevicePeer env b₂ (applyPeerBlocks env [b₁] buf w₀).2.1 (applyPeerBlocks env [b₁] buf w₀).2.2 ∧
      (setDeviceLocked env c attrs buf w).1 = -EINVAL ∧
      (setDeviceLocked env c attrs buf w).2.2.wg.peers = [0, 1] ∧
      ((setDeviceLocked env c attrs buf w).2.2.wg.objs 1).keepalive = 0 ∧
      (setDeviceLocked env c attrs buf w).2.2.wg.table.entries = [(⟨2, [10, 0, 0, 0], 24⟩, 1)] := by
  intro env c buf attrs w w₀ b₁ b₂
  have ha : attrs WGDEVICE_A_PEERS = some ⟨WGDEVICE_A_PEERS, 4, 148⟩ := by decide
  have hnest : nlaNested buf ⟨WGDEVICE_A_PEERS, 4, 148⟩ = [b₁] ++ b₂ :: [] := by decide
  refine ⟨((setDeviceLocked_first_failure env c attrs buf w _ ha (by decide)).2.2.1 [b₁] b₂ []
    hnest (by decide) (by decide)).1, by decide, by decide, by decide, by decide⟩

end WireGuardNetlink
