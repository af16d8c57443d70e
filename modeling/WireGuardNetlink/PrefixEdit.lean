import WireGuardNetlink.SetPeer

/-!
# What a peer block does to the allowed IPs

The allowed-IP part of `set_peer`: on `WGPEER_F_REPLACE_ALLOWEDIPS` the peer's prefixes are
dropped (`wg_allowedips_remove_by_peer`), then every entry of `WGPEER_A_ALLOWEDIPS` goes through
`set_allowedip`, which checks the family, the address length and the prefix length and inserts
the masked prefix for the peer. An insert gives a prefix already in the table to the peer and
adds a new one (`AllowedIps.mem_insert`), so after the whole loop the peer owns every entry's
prefix and every other peer keeps what it owned outside them (`setAllowedips_of_valid`).

Each new prefix needs a node, whose allocation may fail: then `set_peer` stops with `-ENOMEM`
and the prefix is not there (`setPeer_allowedips_oom`). Read at the level of one block
(`setPeer_allowedips_edit`), with allocation succeeding, the edit is `ownsAfter`: a relation on
the table before and the set of the entries' prefixes, so neither their order nor their
repetition matters.
-/

namespace WireGuardNetlink

/-- The prefix an allowed-IP entry asks for, masked as the table stores it: IPv4 with a 4-byte
address and a length up to 32, or IPv6 with a 16-byte address and a length up to 128 (the checks
of `set_allowedip`); `none` for any other entry. -/
def allowedipOf (buf : Bytes) (tb : AttrTable) : Option AllowedIp :=
  match tb WGALLOWEDIP_A_FAMILY, tb WGALLOWEDIP_A_IPADDR, tb WGALLOWEDIP_A_CIDR_MASK with
  | some fa, some ia, some ca =>
    if (nlaGetU16 buf fa).toNat = AF_INET ∧ (nlaGetU8 buf ca).toNat ≤ 32 ∧ ia.len = SIZEOF_IN_ADDR ∨
        (nlaGetU16 buf fa).toNat = AF_INET6 ∧ (nlaGetU8 buf ca).toNat ≤ 128 ∧
          ia.len = SIZEOF_IN6_ADDR then
      some ⟨(nlaGetU16 buf fa).toNat, maskAddr (nlaData buf ia) (nlaGetU8 buf ca).toNat,
        nlaGetU8 buf ca⟩
    else none
  | _, _, _ => none

/-- The prefix an entry of a `WGPEER_A_ALLOWEDIPS` nest asks for: `none` when the entry does not
parse or is not a valid prefix. -/
def entryPrefix (buf : Bytes) (a : Nlattr) : Option AllowedIp :=
  (nlaParseNested buf WGALLOWEDIP_A_MAX allowedipPolicy a).toOption.bind (allowedipOf buf)

/-- Whether a peer block carries `WGPEER_F_REPLACE_ALLOWEDIPS`. -/
def blockReplaces (buf : Bytes) (tb : AttrTable) : Bool :=
  match tb WGPEER_A_FLAGS with
  | some a => nlaGetU32 buf a &&& WGPEER_F_REPLACE_ALLOWEDIPS != 0
  | none => false

/-- What a block for `p` whose entries ask for the prefixes `S` leaves each peer owning, read
from the table `t` before it: `p` owns `S` and, unless the block replaces its prefixes, what it
owned; every other peer keeps what it owned outside `S`. -/
def ownsAfter (t : AllowedIps) (p : PeerId) (replace : Bool) (S : Set AllowedIp) (k : AllowedIp)
    (q : PeerId) : Prop :=
  if q = p then k ∈ S ∨ replace = false ∧ (k, p) ∈ t.entries else (k, q) ∈ t.entries ∧ k ∉ S

/-- An insert that may allocate gives the masked prefix to the peer and leaves every other
prefix with its owner. -/
lemma AllowedIps.mem_insert (t : AllowedIps) (family : Nat) (ip : Bytes) (cidr : UInt8)
    (peer : PeerId) (k : AllowedIp) (q : PeerId) :
    (k, q) ∈ (t.insert family ip cidr peer false).2.entries ↔
      k = ⟨family, maskAddr ip cidr.toNat, cidr⟩ ∧ q = peer ∨
        (k, q) ∈ t.entries ∧ k ≠ ⟨family, maskAddr ip cidr.toNat, cidr⟩ := by
  unfold AllowedIps.insert
  by_cases hany : t.entries.any (·.1 = ⟨family, maskAddr ip cidr.toNat, cidr⟩) = true
  · obtain ⟨e, he, hek⟩ := List.any_eq_true.1 hany
    simp only [hany, if_true, List.mem_map]
    constructor
    · rintro ⟨e', he', hk⟩
      split at hk
      · exact .inl ⟨(Prod.mk.inj hk).1.symm, (Prod.mk.inj hk).2.symm⟩
      · exact .inr ⟨hk ▸ he', fun h => by simp_all⟩
    · rintro (⟨rfl, rfl⟩ | ⟨hk, hne⟩)
      · exact ⟨e, he, by simp_all⟩
      · exact ⟨(k, q), hk, by simp [hne]⟩
  · simp only [hany, Bool.false_eq_true, if_false, List.mem_append, List.mem_singleton,
      Prod.mk.injEq]
    constructor
    · rintro (hk | h)
      · exact .inr ⟨hk, fun h => hany (List.any_eq_true.2 ⟨_, hk, by simp [h]⟩)⟩
      · exact .inl h
    · rintro (h | ⟨hk, -⟩)
      · exact .inr h
      · exact .inl hk

/-- An insert that may allocate succeeds. -/
@[simp] lemma AllowedIps.insert_code (t : AllowedIps) (family : Nat) (ip : Bytes) (cidr : UInt8)
    (peer : PeerId) : (t.insert family ip cidr peer false).1 = 0 := by
  unfold AllowedIps.insert; dsimp only; split_ifs <;> first | rfl | contradiction

section SetAllowedip

variable (env : Env) (p : PeerId) (buf : Bytes) (tb : AttrTable) (w : World)

/-- An entry that is not a valid prefix is `-EINVAL`, with nothing changed. -/
lemma setAllowedip_of_invalid (h : allowedipOf buf tb = none) :
    setAllowedip env p buf tb w = (-EINVAL, w) := by
  unfold allowedipOf at h
  unfold setAllowedip
  split
  · rename_i fa ia ca hf hi hc
    simp only [hf, hi, hc] at h
    split_ifs at h with hv
    rw [if_neg fun h4 => hv (.inl h4), if_neg fun h6 => hv (.inr h6)]
  · rfl

/-- A valid entry, when the table's allocation does not fail, gives its prefix to the peer. -/
lemma setAllowedip_of_valid {k : AllowedIp} (h : allowedipOf buf tb = some k)
    (hmem : env.oom w.allocs = false) :
    (setAllowedip env p buf tb w).1 = 0 ∧ (setAllowedip env p buf tb w).2.allocs = w.allocs + 1 ∧
      ∀ k' q, (k', q) ∈ (setAllowedip env p buf tb w).2.wg.table.entries ↔
        k' = k ∧ q = p ∨ (k', q) ∈ w.wg.table.entries ∧ k' ≠ k := by
  unfold allowedipOf at h
  split at h
  · rename_i fa ia ca hf hi hc
    split_ifs at h with hv
    cases h
    simp only [setAllowedip, hf, hi, hc, World.alloc, hmem]
    split_ifs with h4 h6
    · simp only [wgAllowedipsInsertV4, AllowedIps.insert_code, AllowedIps.mem_insert, h4.1,
        true_and, implies_true]
    · simp only [wgAllowedipsInsertV6, AllowedIps.insert_code, AllowedIps.mem_insert,
        h6.1, true_and, implies_true]
    · exact (hv.elim h4 h6).elim
  · cases h

end SetAllowedip

/-- The allowed-IP loop over entries that are all valid prefixes, with no allocation failing from
its start on, succeeds and gives the peer every entry's prefix; every other prefix keeps its
owner. -/
lemma setAllowedips_of_valid (env : Env) (p : PeerId) (buf : Bytes) :
    ∀ (l : List Nlattr) (S : List AllowedIp) (w : World), l.map (entryPrefix buf) = S.map some →
      (∀ n, w.allocs ≤ n → env.oom n = false) →
      (setAllowedips env p buf l w).1 = 0 ∧
        ∀ k q, (k, q) ∈ (setAllowedips env p buf l w).2.wg.table.entries ↔
          q = p ∧ k ∈ S ∨ (k, q) ∈ w.wg.table.entries ∧ k ∉ S
  | [], [], w, _, _ => by simp [setAllowedips]
  | a :: l, k₀ :: S, w, hS, hmem => by
    simp only [List.map_cons, List.cons.injEq] at hS
    obtain ⟨ha, hS⟩ := hS
    unfold entryPrefix at ha
    cases hparse : nlaParseNested buf WGALLOWEDIP_A_MAX allowedipPolicy a with
    | error e => simp [hparse, Except.toOption] at ha
    | ok etb =>
      simp only [hparse, Except.toOption, Option.bind_some] at ha
      obtain ⟨hr, hallocs, hmem₁⟩ := setAllowedip_of_valid env p buf etb w ha (hmem _ le_rfl)
      obtain ⟨ih₁, ih₂⟩ := setAllowedips_of_valid env p buf l S (setAllowedip env p buf etb w).2 hS
        (fun n hn => hmem n (by omega))
      simp only [setAllowedips, hparse, hr, lt_irrefl, if_false, ih₁, true_and]
      intro k q
      rw [ih₂, hmem₁, List.mem_cons]
      by_cases hk : k = k₀ <;> by_cases hq : q = p <;> simp [hk, hq, em]
  | [], _ :: _, _, hS, _ | _ :: _, [], _, hS, _ => by simp at hS

@[simp] lemma wgSocketSetPeerEndpoint_table (d : Device) (p : PeerId) (e : Endpoint) :
    (wgSocketSetPeerEndpoint d p e).table = d.table := by
  unfold wgSocketSetPeerEndpoint; split_ifs <;> rfl

/-- The updates before the allowed IPs touch the table only to drop the peer's prefixes on
`WGPEER_F_REPLACE_ALLOWEDIPS`, and allocate nothing. -/
lemma setPeerConfig_table (buf : Bytes) (tb : AttrTable) (flags : UInt32) (psk : Option Key)
    (p : PeerId) (w : World) :
    (setPeerConfig buf tb flags psk p w).wg.table =
      (if flags &&& WGPEER_F_REPLACE_ALLOWEDIPS ≠ 0 then wgAllowedipsRemoveByPeer w.wg.table p
        else w.wg.table) ∧
    (setPeerConfig buf tb flags psk p w).allocs = w.allocs := by
  simp only [setPeerConfig]
  split_ifs <;> repeat' split
  all_goals simp

/-- The updates after the allowed IPs leave the table alone. -/
@[simp] lemma setPeerFinish_table (buf : Bytes) (tb : AttrTable) (p : PeerId) (w : World) :
    (setPeerFinish buf tb p w).wg.table = w.wg.table := by
  simp only [setPeerFinish]
  repeat' split
  all_goals rfl

/-- Past the removal flag, what `set_peer` does to the peer it holds: its updates, then the loop
over the entries of `WGPEER_A_ALLOWEDIPS` (none when the attribute is absent), then the finishing
updates unless an entry failed. -/
lemma setPeerUpdate_of_keep (env : Env) (buf : Bytes) (tb : AttrTable) {flags : UInt32}
    (psk : Option Key) (p : PeerId) (w : World) (h : flags &&& WGPEER_F_REMOVE_ME = 0) :
    setPeerUpdate env buf tb flags psk p w =
      let r := setAllowedips env p buf ((tb WGPEER_A_ALLOWEDIPS).elim [] (nlaNested buf))
        (setPeerConfig buf tb flags psk p w)
      if r.1 < 0 then r else (0, setPeerFinish buf tb p r.2) := by
  unfold setPeerUpdate
  rw [if_neg (not_not.2 h)]
  cases tb WGPEER_A_ALLOWEDIPS <;> rfl

/-- A block whose public key the lookup finds on the list as `p`, with protocol version 1 if any
and no removal flag, holds `p` with the lookup's reference and runs the update with the block's
flags. -/
lemma setPeerApply_of_found (env : Env) {buf : Bytes} {tb : AttrTable} {w : World} {p : PeerId}
    {pka : Nlattr} (hpk : tb WGPEER_A_PUBLIC_KEY = some pka) (hlen : pka.len = NOISE_PUBLIC_KEY_LEN)
    (hfind : w.wg.peers.find? (fun q => (w.wg.objs q).remoteStatic = nlaKey buf pka) = some p)
    (hver : ∀ a, tb WGPEER_A_PROTOCOL_VERSION = some a → nlaGetU32 buf a = 1)
    (hremove : ∀ a, tb WGPEER_A_FLAGS = some a → nlaGetU32 buf a &&& WGPEER_F_REMOVE_ME = 0) :
    ∃ psk flags, flags &&& WGPEER_F_REMOVE_ME = 0 ∧
      (flags &&& WGPEER_F_REPLACE_ALLOWEDIPS ≠ 0 ↔ blockReplaces buf tb = true) ∧
      setPeerApply env buf tb w =
        ((setPeerUpdate env buf tb flags psk p { w with wg := wgPeerGet w.wg (some p) }).1, some p,
          (setPeerUpdate env buf tb flags psk p { w with wg := wgPeerGet w.wg (some p) }).2) := by
  have hhold : ∀ psk flags, setPeerHold env (nlaKey buf pka) psk flags w =
      .ok (p, { w with wg := wgPeerGet w.wg (some p) }) := by
    simp [setPeerHold, wgPubkeyHashtableLookup, hfind]
  unfold setPeerApply
  simp only [hpk, hlen, ne_eq, not_true_eq_false, if_false, hhold]
  rw [if_neg (by split <;> simp_all)]
  cases hf : tb WGPEER_A_FLAGS
  · exact ⟨_, 0, by decide, by simp only [blockReplaces, hf]; decide, rfl⟩
  · exact ⟨_, _, hremove _ hf, by simp [blockReplaces, hf], rfl⟩

/-- The allowed-IP edit of one peer block. Take a block whose public key the lookup finds on the
list as `p`, with protocol version 1 if any and no removal flag, whose entries ask for the valid
prefixes `S`, and a kernel in which no allocation fails from here on. Then `set_peer` succeeds
and leaves the ownership `ownsAfter` gives, from the table before and the set of prefixes of `S`.
An entry that is not a valid prefix is `-EINVAL` from `set_allowedip`, with nothing changed. -/
theorem setPeer_allowedips_edit (env : Env) (buf : Bytes) :
    (∀ (tb : AttrTable) (w : World) (p : PeerId) (pka : Nlattr) (S : List AllowedIp),
      tb WGPEER_A_PUBLIC_KEY = some pka → pka.len = NOISE_PUBLIC_KEY_LEN →
      w.wg.peers.find? (fun q => (w.wg.objs q).remoteStatic = nlaKey buf pka) = some p →
      (∀ a, tb WGPEER_A_PROTOCOL_VERSION = some a → nlaGetU32 buf a = 1) →
      (∀ a, tb WGPEER_A_FLAGS = some a → nlaGetU32 buf a &&& WGPEER_F_REMOVE_ME = 0) →
      ((tb WGPEER_A_ALLOWEDIPS).elim [] (nlaNested buf)).map (entryPrefix buf) = S.map some →
      (∀ n, w.allocs ≤ n → env.oom n = false) →
      (setPeer env buf tb w).1 = 0 ∧
        ∀ k q, (k, q) ∈ (setPeer env buf tb w).2.2.wg.table.entries ↔
          ownsAfter w.wg.table p (blockReplaces buf tb) {k | k ∈ S} k q) ∧
    ∀ (p : PeerId) (etb : AttrTable) (w : World), allowedipOf buf etb = none →
      setAllowedip env p buf etb w = (-EINVAL, w) := by
  refine ⟨fun tb w p pka S hpk hlen hfind hver hremove hS hmem => ?_,
    fun p etb w h => setAllowedip_of_invalid env p buf etb w h⟩
  obtain ⟨psk, flags, hrm, hrep, happly⟩ := setPeerApply_of_found env hpk hlen hfind hver hremove
  obtain ⟨htable, hallocs⟩ :=
    setPeerConfig_table buf tb flags psk p { w with wg := wgPeerGet w.wg (some p) }
  obtain ⟨hr, hmemb⟩ := setAllowedips_of_valid env p buf _ S _ hS (by rw [hallocs]; exact hmem)
  simp only [setPeer, happly, setPeerUpdate_of_keep env buf tb psk p _ hrm, hr, lt_irrefl,
    if_false, wgPeerPut_table, setPeerFinish_table, true_and]
  intro k q
  rw [hmemb, htable]
  cases hb : blockReplaces buf tb
  · rw [if_neg fun h => by simpa [hb] using hrep.1 h]
    by_cases hq : q = p <;> by_cases hk : k ∈ S <;> simp [ownsAfter, hq, hk]
  · rw [if_pos (hrep.2 hb)]
    by_cases hq : q = p <;> simp [ownsAfter, hq, wgAllowedipsRemoveByPeer]

/-- The block of the spec's example for the peer with the public key of 32 ones: replace its
prefixes with `10.0.0.0/24`, given as `10.0.0.5/24`. -/
def replaceBlock : Bytes :=
  nlaEncode [(WGPEER_A_PUBLIC_KEY, List.replicate 32 1), (WGPEER_A_FLAGS, u32Bytes 2),
    (WGPEER_A_ALLOWEDIPS, nlaEncode [(0, nlaEncode [(WGALLOWEDIP_A_FAMILY, u16Bytes 2),
      (WGALLOWEDIP_A_IPADDR, [10, 0, 0, 5]), (WGALLOWEDIP_A_CIDR_MASK, u8Bytes 24)])])]

/-- The table `peer_policy` parses `replaceBlock` into. -/
def replaceBlockTable : AttrTable :=
  match nlaParse replaceBlock WGPEER_A_MAX peerPolicy 0 replaceBlock.length with
  | .ok tb => tb
  | .error _ => fun _ => none

/-- A device with two peers, `0` with the public key of 32 ones and `1` with that of 32 twos,
and the prefixes `t`. -/
def twoPeerWorld (t : List (AllowedIp × PeerId)) : World :=
  World.init { Device.create 1 [119] 0 with
    peers := [0, 1]
    objs := fun p => { Peer.blank with
      remoteStatic := ⟨List.replicate 32 (UInt8.ofNat p + 1), by simp⟩ }
    nextPeer := 2
    table := ⟨t, 1, Nat.one_pos⟩
    nodup_peers := by decide
    lt_nextPeer := by decide }

/-- The spec's example, on a table where peer `0` owns `10.1.0.0/16` and peer `1` owns
`10.0.0.0/24`: the block is accepted, and afterwards peer `0` owns `10.0.0.0/24` alone. -/
theorem setPeer_allowedips_edit_replace :
    (fun (env : Env) (w : World) (S : List AllowedIp) =>
      (replaceBlockTable WGPEER_A_PUBLIC_KEY = some ⟨1, 4, 32⟩ ∧
        (⟨1, 4, 32⟩ : Nlattr).len = NOISE_PUBLIC_KEY_LEN ∧
        w.wg.peers.find? (fun q => (w.wg.objs q).remoteStatic = nlaKey replaceBlock ⟨1, 4, 32⟩) =
          some 0 ∧
        (∀ a, replaceBlockTable WGPEER_A_PROTOCOL_VERSION = some a → nlaGetU32 replaceBlock a = 1) ∧
        (∀ a, replaceBlockTable WGPEER_A_FLAGS = some a →
          nlaGetU32 replaceBlock a &&& WGPEER_F_REMOVE_ME = 0) ∧
        ((replaceBlockTable WGPEER_A_ALLOWEDIPS).elim [] (nlaNested replaceBlock)).map
          (entryPrefix replaceBlock) = S.map some ∧
        (∀ n, w.allocs ≤ n → env.oom n = false)) ∧
      (setPeer env replaceBlock replaceBlockTable w).1 = 0 ∧
      ∀ k q, (k, q) ∈ (setPeer env replaceBlock replaceBlockTable w).2.2.wg.table.entries ↔
        ownsAfter w.wg.table 0 (blockReplaces replaceBlock replaceBlockTable) {k | k ∈ S} k q)
      (Env.reliable ⟨fun s _ => s, Key.zero⟩)
      (twoPeerWorld [(⟨AF_INET, [10, 1, 0, 0], 16⟩, 0), (⟨AF_INET, [10, 0, 0, 0], 24⟩, 1)])
      [⟨AF_INET, [10, 0, 0, 0], 24⟩] := by
  have hpk : replaceBlockTable WGPEER_A_PUBLIC_KEY = some ⟨1, 4, 32⟩ := by decide
  have hver : ∀ a, replaceBlockTable WGPEER_A_PROTOCOL_VERSION = some a →
      nlaGetU32 replaceBlock a = 1 := by
    intro a h
    rw [show replaceBlockTable WGPEER_A_PROTOCOL_VERSION = none by decide] at h
    cases h
  have hremove : ∀ a, replaceBlockTable WGPEER_A_FLAGS = some a →
      nlaGetU32 replaceBlock a &&& WGPEER_F_REMOVE_ME = 0 := by
    intro a h
    rw [show replaceBlockTable WGPEER_A_FLAGS = some ⟨3, 40, 4⟩ by decide] at h
    cases h
    decide
  have hfind : (twoPeerWorld [(⟨AF_INET, [10, 1, 0, 0], 16⟩, 0),
      (⟨AF_INET, [10, 0, 0, 0], 24⟩, 1)]).wg.peers.find? (fun q => ((twoPeerWorld
        [(⟨AF_INET, [10, 1, 0, 0], 16⟩, 0), (⟨AF_INET, [10, 0, 0, 0], 24⟩, 1)]).wg.objs q).remoteStatic =
          nlaKey replaceBlock ⟨1, 4, 32⟩) = some 0 := by decide
  have hS : ((replaceBlockTable WGPEER_A_ALLOWEDIPS).elim [] (nlaNested replaceBlock)).map
      (entryPrefix replaceBlock) = [some ⟨AF_INET, [10, 0, 0, 0], 24⟩] := by decide
  exact ⟨⟨hpk, rfl, hfind, hver, hremove, hS, fun _ _ => rfl⟩,
    (setPeer_allowedips_edit _ replaceBlock).1 _ _ 0 _ [⟨AF_INET, [10, 0, 0, 0], 24⟩] hpk rfl hfind
      hver hremove hS fun _ _ => rfl⟩

/-- The same block when every allocation fails, on a table where `10.0.0.0/24` is new: the
insert cannot get its node, `set_peer` returns `-ENOMEM`, and peer `0` is left owning nothing,
its old prefix dropped and `10.0.0.0/24` not there. -/
theorem setPeer_allowedips_oom :
    (fun r : Int × Bytes × World => r.1 = -ENOMEM ∧ r.2.2.wg.table.ownedBy 0 = [])
      (setPeer { Env.reliable ⟨fun s _ => s, Key.zero⟩ with oom := fun _ => true } replaceBlock
        replaceBlockTable (twoPeerWorld [(⟨AF_INET, [10, 1, 0, 0], 16⟩, 0)])) := by
  decide

end WireGuardNetlink
