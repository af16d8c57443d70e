import WireGuardNetlink.Set

/-!
# What `set_peer` can do

Inversion lemmas for `set_peer`: either it stops before it holds a peer (a missing or short
public key, a protocol version other than 1, the removal of an unknown peer, the device's own
key, a failed creation), and then it has changed neither the device nor the effects; or it holds
a peer, looked up or created (`setPeerHold`), and runs the update on it (`setPeerUpdate`). So a
block that fails either fails before it holds a peer, with nothing changed, or fails in its
allowed IPs, before the keepalive interval and the flush of staged packets (`setPeer_error_cases`).
The allowed-IP loop of the update stops at its first failing entry, like the peer loop of
`set_device`.
-/

namespace WireGuardNetlink

section SetPeer

variable (env : Env)

/-- A failed creation changes neither the device nor the effects. -/
lemma wgPeerCreate_frame_of_none (w : World) (pk : Key) (psk : Option Key)
    (h : (wgPeerCreate env w pk psk).1 = none) :
    (wgPeerCreate env w pk psk).2.wg = w.wg ∧ (wgPeerCreate env w pk psk).2.log = w.log := by
  simp only [wgPeerCreate, World.alloc] at h ⊢
  split
  · exact ⟨rfl, rfl⟩
  · split
    · exact ⟨rfl, rfl⟩
    · simp_all

/-- An exit of `set_peer` before it holds a peer changes neither the device nor the effects. -/
lemma setPeerHold_error {pk : Key} {psk : Option Key} {flags : UInt32} {w w' : World} {e : Int}
    (h : setPeerHold env pk psk flags w = .error (e, w')) : w'.wg = w.wg ∧ w'.log = w.log := by
  unfold setPeerHold at h
  split at h
  · cases h
  · rename_i d hd
    have hd' : d = w.wg := by
      simp only [wgPubkeyHashtableLookup, Prod.mk.injEq] at hd; rw [← hd.2, hd.1]; rfl
    subst hd'
    dsimp only at h
    split at h
    · cases h; exact ⟨rfl, rfl⟩
    · split at h
      · cases h; exact ⟨rfl, rfl⟩
      · split at h
        · rename_i hc; cases h
          have := wgPeerCreate_frame_of_none env _ pk psk (by rw [hc])
          rw [hc] at this; exact this
        · cases h

/-- The two ways `set_peer` runs: it stops before it holds a peer, with the device and the
effects as they were, or it holds a peer and updates it. -/
lemma setPeerApply_cases (buf : Bytes) (tb : AttrTable) (w : World) :
    (∃ e w', setPeerApply env buf tb w = (e, none, w') ∧ w'.wg = w.wg ∧ w'.log = w.log) ∨
    ∃ pk psk flags p w₁, setPeerHold env pk psk flags w = .ok (p, w₁) ∧
      setPeerApply env buf tb w =
        ((setPeerUpdate env buf tb flags psk p w₁).1, some p,
          (setPeerUpdate env buf tb flags psk p w₁).2) := by
  unfold setPeerApply
  split
  · exact .inl ⟨_, _, rfl, rfl, rfl⟩
  · split
    · exact .inl ⟨_, _, rfl, rfl, rfl⟩
    · dsimp only
      split
      · exact .inl ⟨_, _, rfl, rfl, rfl⟩
      · split
        · rename_i hh; exact .inl ⟨_, _, rfl, setPeerHold_error env hh⟩
        · rename_i hh; exact .inr ⟨_, _, _, _, _, hh, rfl⟩

/-- The exits of the hold: the removal of a key no peer has (`-ENODEV`), the device's own key
(`0`) and a failed creation (`-ENOMEM`). -/
lemma setPeerHold_error_code {pk : Key} {psk : Option Key} {flags : UInt32} {w w' : World} {e : Int}
    (h : setPeerHold env pk psk flags w = .error (e, w')) : e = -ENODEV ∨ e = 0 ∨ e = -ENOMEM := by
  unfold setPeerHold at h
  split at h
  · cases h
  · dsimp only at h
    split_ifs at h
    · cases h; exact .inl rfl
    · cases h; exact .inr (.inl rfl)
    · split at h
      · cases h; exact .inr (.inr rfl)
      · cases h

/-- The exits of `set_peer` before it holds a peer: a missing or short public key (`-EINVAL`), a
protocol version other than 1 (`-EPFNOSUPPORT`), and the exits of the hold. -/
lemma setPeerApply_none_code {buf : Bytes} {tb : AttrTable} {w w' : World} {e : Int}
    (h : setPeerApply env buf tb w = (e, none, w')) :
    e = -EINVAL ∨ e = -EPFNOSUPPORT ∨ e = -ENODEV ∨ e = 0 ∨ e = -ENOMEM := by
  unfold setPeerApply at h
  split at h
  · cases h; exact .inl rfl
  · split at h
    · cases h; exact .inl rfl
    · dsimp only at h
      split at h
      · cases h; exact .inr (.inl rfl)
      · split at h
        · rename_i hh; cases h; exact .inr (.inr (setPeerHold_error_code env hh))
        · cases h

/-- How `set_peer` fails. Before it holds a peer it fails for a missing or short public key
(`-EINVAL`), a protocol version other than 1 (`-EPFNOSUPPORT`), the removal of a key no peer has
(`-ENODEV`) or a failed creation (`-ENOMEM`), and then it has changed neither the device nor the
effects. Once it holds a peer that the block does not remove, only an entry of its allowed IPs
fails: the block ends with the result and the world of the allowed-IP loop, run after the
creation or lookup and the updates before the loop (`setPeerConfig`), with the reference on the
peer dropped; the keepalive interval and the flush of staged packets (`setPeerFinish`) are not
done. -/
lemma setPeer_error_cases (buf : Bytes) (tb : AttrTable) (w : World)
    (h : (setPeer env buf tb w).1 < 0) :
    ((setPeerApply env buf tb w).2.1 = none ∧ (setPeer env buf tb w).2.2.wg = w.wg ∧
      (setPeer env buf tb w).2.2.log = w.log ∧
      ((setPeer env buf tb w).1 = -EINVAL ∨ (setPeer env buf tb w).1 = -EPFNOSUPPORT ∨
        (setPeer env buf tb w).1 = -ENODEV ∨ (setPeer env buf tb w).1 = -ENOMEM)) ∨
    ∃ psk flags p w₁ a, (∃ pk, setPeerHold env pk psk flags w = .ok (p, w₁)) ∧
      flags &&& WGPEER_F_REMOVE_ME = 0 ∧ tb WGPEER_A_ALLOWEDIPS = some a ∧
      let r := setAllowedips env p buf (nlaNested buf a) (setPeerConfig buf tb flags psk p w₁)
      r.1 < 0 ∧ (setPeer env buf tb w).1 = r.1 ∧
        (setPeer env buf tb w).2.2 = { r.2 with wg := wgPeerPut r.2.wg (some p) } := by
  rcases setPeerApply_cases env buf tb w with ⟨e, w', he, hwg, hlog⟩ | ⟨pk, psk, flags, p, w₁, hh, he⟩
  · simp only [setPeer, he] at h ⊢
    refine .inl ⟨trivial, hwg, hlog, ?_⟩
    rcases setPeerApply_none_code env he with h' | h' | h' | h' | h'
    · exact .inl h'
    · exact .inr (.inl h')
    · exact .inr (.inr (.inl h'))
    · subst h'; exact absurd h (lt_irrefl 0)
    · exact .inr (.inr (.inr h'))
  · simp only [setPeer, he] at h ⊢
    unfold setPeerUpdate at h ⊢
    split_ifs at h ⊢ with hrm
    · exact absurd h (lt_irrefl 0)
    · cases ha : tb WGPEER_A_ALLOWEDIPS with
      | none => simp only [ha] at h; split_ifs at h <;> exact absurd h (lt_irrefl 0)
      | some a =>
        simp only [ha] at h ⊢
        split_ifs at h ⊢ with hneg
        · exact .inr ⟨psk, flags, p, w₁, a, ⟨pk, hh⟩, not_not.1 hrm, rfl, hneg, rfl, rfl⟩
        · exact absurd h (lt_irrefl 0)

/-- The allowed-IP loop runs its first entries and, unless one failed, the rest after them. -/
lemma setAllowedips_append (p : PeerId) (buf : Bytes) (pre rest : List Nlattr) (w : World) :
    setAllowedips env p buf (pre ++ rest) w =
      if (setAllowedips env p buf pre w).1 < 0 then setAllowedips env p buf pre w
      else setAllowedips env p buf rest (setAllowedips env p buf pre w).2 := by
  induction pre generalizing w with
  | nil => simp [setAllowedips]
  | cons a pre ih =>
    simp only [List.cons_append, setAllowedips]
    split
    · rename_i e he; simp [nlaParseAttrs_error he]
    · rename_i tb _
      by_cases h : (setAllowedip env p buf tb w).1 < 0 <;> simp [h, ih]

end SetPeer

end WireGuardNetlink
