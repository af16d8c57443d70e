import WireGuardNetlink.RequestEdit

/-!
# Sending a request twice

A client that did not see the answer to a request may send it again. At the level of
`RequestEdit` this is safe for the requests that configure peers without removing any: applied a
second time, to the peers and the identity the first application left, such a request succeeds
again and changes nothing (`DeviceEdit.applyRequest_resend`), and so does one that replaces every
peer. A request that removes a peer is different: the second time the peer is gone, and the
removal fails with `-ENODEV` (`DeviceEdit.applyRequest_resend_remove`).

The proof describes what edits that remove nothing do (`PeerEdit.applyAll_closed`): every peer
gets the edits with its key in order (`PeerEdit.applyTo`), and the keys no peer had are appended
as new peers. Edits in order compose into one that sets each field its last edit sets
(`PeerEdit.andThen`), so applying them twice is applying them once (`PeerEdit.applyTo_applyTo`),
and the second time every key is there. The private key installs the same identity again
(`DeviceEdit.identity_identity`) and removes no peer the first time left (`rekeyPeers_of_applyAll`).

`set_device` inherits both through `setDeviceLocked_applyRequest` (`setDeviceLocked_resend`,
`setDeviceLocked_resend_remove`).
-/

namespace WireGuardNetlink

/-- The edits of a list that bear on a peer, applied to its fields in order. -/
def PeerEdit.applyTo (es : List PeerEdit) (v : PeerFields) : PeerFields :=
  es.foldl (fun v e => if v.key = e.key then v.edit e else v) v

/-- Two edits as one: the later's fields where it sets them, the earlier's elsewhere. -/
def PeerEdit.andThen (c e : PeerEdit) : PeerEdit :=
  ⟨c.key, c.remove, e.psk.or c.psk, e.endpoint.or c.endpoint, e.keepalive.or c.keepalive⟩

/-- The edit that sets nothing. -/
def PeerEdit.blank (k : Key) : PeerEdit := ⟨k, false, none, none, none⟩

@[simp] lemma PeerFields.key_edit (v : PeerFields) (e : PeerEdit) : (v.edit e).key = v.key := rfl

@[simp] lemma PeerFields.edit_blank (v : PeerFields) (k : Key) : v.edit (PeerEdit.blank k) = v := rfl

lemma option_getD_getD_or {α : Type} (a b : Option α) (x : α) :
    a.getD (b.getD x) = (a.or b).getD x := by
  cases a <;> rfl

lemma option_getD_getD_self {α : Type} (a : Option α) (x : α) : a.getD (a.getD x) = a.getD x := by
  cases a <;> rfl

lemma PeerFields.edit_andThen (v : PeerFields) (c e : PeerEdit) :
    (v.edit c).edit e = v.edit (c.andThen e) := by
  simp only [PeerFields.edit, PeerEdit.andThen, option_getD_getD_or]

lemma PeerFields.edit_edit_self (v : PeerFields) (c : PeerEdit) : (v.edit c).edit c = v.edit c := by
  simp only [PeerFields.edit, option_getD_getD_self]

/-- Edits in order are the edit they compose into. -/
lemma PeerEdit.foldl_edit (v : PeerFields) :
    ∀ (es : List PeerEdit) (c : PeerEdit),
      es.foldl (fun v e => if v.key = e.key then v.edit e else v) (v.edit c) =
        v.edit (es.foldl (fun c e => if v.key = e.key then c.andThen e else c) c)
  | [], _ => rfl
  | e :: es, c => by
    simp only [List.foldl_cons, PeerFields.key_edit]
    split
    · rw [PeerFields.edit_andThen, PeerEdit.foldl_edit v es]
    · exact PeerEdit.foldl_edit v es c

/-- Applying the edits twice is applying them once. -/
lemma PeerEdit.applyTo_applyTo (es : List PeerEdit) (v : PeerFields) :
    PeerEdit.applyTo es (PeerEdit.applyTo es v) = PeerEdit.applyTo es v := by
  have h : ∀ u : PeerFields, PeerEdit.applyTo es u =
      u.edit (es.foldl (fun c e => if u.key = e.key then c.andThen e else c) (PeerEdit.blank u.key)) :=
    fun u => by
      rw [PeerEdit.applyTo, ← PeerEdit.foldl_edit u es (PeerEdit.blank u.key), PeerFields.edit_blank]
  rw [h v, h (v.edit _), PeerFields.key_edit, PeerFields.edit_edit_self]

@[simp] lemma PeerEdit.key_applyTo (es : List PeerEdit) (v : PeerFields) :
    (PeerEdit.applyTo es v).key = v.key := by
  unfold PeerEdit.applyTo
  induction es generalizing v with
  | nil => rfl
  | cons e es ih => simp only [List.foldl_cons]; rw [ih]; split <;> rfl

@[simp] lemma PeerEdit.applyTo_nil : PeerEdit.applyTo [] = id := rfl

lemma PeerEdit.applyTo_cons (e : PeerEdit) (es : List PeerEdit) (v : PeerFields) :
    PeerEdit.applyTo (e :: es) v = PeerEdit.applyTo es (if v.key = e.key then v.edit e else v) :=
  rfl

/-- Editing the peers with a key keeps their keys. -/
lemma PeerEdit.keys_map_edit (e : PeerEdit) (l : List PeerFields) :
    (l.map fun v => if v.key = e.key then v.edit e else v).map (·.key) = l.map (·.key) := by
  rw [List.map_map]
  exact List.map_congr_left fun v _ => by simp only [Function.comp_apply]; split <;> rfl

lemma PeerEdit.any_key_iff (e : PeerEdit) (l : List PeerFields) :
    l.any (·.key = e.key) = true ↔ e.key ∈ l.map (·.key) := by
  simp only [List.any_eq_true, decide_eq_true_eq, List.mem_map]

section NoRemove

variable (cx : EditCtx) {e : PeerEdit} {l : List PeerFields}

/-- An edit that removes nothing, of a key a peer has, edits that peer. -/
lemma PeerEdit.apply_found (hre : e.remove = false) (hf : e.key ∈ l.map (·.key)) :
    e.apply cx l = (0, l.map fun v => if v.key = e.key then v.edit e else v) := by
  rw [PeerEdit.apply, if_pos ((PeerEdit.any_key_iff e l).2 hf), hre]; rfl

/-- An edit that removes nothing, of the device's own key no peer has, is skipped. -/
lemma PeerEdit.apply_own (hre : e.remove = false) (hf : e.key ∉ l.map (·.key))
    (hown : cx.own = some e.key) : e.apply cx l = (0, l) := by
  rw [PeerEdit.apply, if_neg (mt (PeerEdit.any_key_iff e l).1 hf), hre, if_pos hown]; rfl

/-- An edit that removes nothing, of another key no peer has, appends a new peer or fails. -/
lemma PeerEdit.apply_fresh (hre : e.remove = false) (hf : e.key ∉ l.map (·.key))
    (hown : cx.own ≠ some e.key) :
    e.apply cx l = if l.length < MAX_PEERS_PER_DEVICE ∧ cx.precompute e.key = true then
      (0, l ++ [(PeerFields.fresh e.key).edit e]) else (-ENOMEM, l) := by
  rw [PeerEdit.apply, if_neg (mt (PeerEdit.any_key_iff e l).1 hf), hre, if_neg hown]; rfl

lemma PeerEdit.applyAll_ok_cons (e : PeerEdit) (es : List (Except Int PeerEdit))
    (l : List PeerFields) :
    PeerEdit.applyAll cx (.ok e :: es) l =
      if (e.apply cx l).1 < 0 then e.apply cx l else PeerEdit.applyAll cx es (e.apply cx l).2 :=
  rfl

/-- Peers whose keys are not the key of an edit keep their fields under it. -/
lemma PeerEdit.applyTo_cons_of_ne (e : PeerEdit) (es : List PeerEdit) {v : PeerFields}
    (h : v.key ≠ e.key) : PeerEdit.applyTo (e :: es) v = PeerEdit.applyTo es v := by
  rw [PeerEdit.applyTo_cons, if_neg h]

/-- With every key of the edits on a peer or the device's own, edits that remove nothing succeed
and edit each peer with the edits of its key. -/
lemma PeerEdit.applyAll_present :
    ∀ (es : List PeerEdit) (l : List PeerFields), (∀ e ∈ es, e.remove = false) →
      (∀ e ∈ es, cx.own = some e.key ∨ e.key ∈ l.map (·.key)) →
      PeerEdit.applyAll cx (es.map .ok) l = (0, l.map (PeerEdit.applyTo es))
  | [], l, _, _ => by simp [PeerEdit.applyAll]
  | e :: es, l, hr, hk => by
    have hre := hr e (List.mem_cons_self _ _)
    have step : ∀ l' : List PeerFields, l'.map (·.key) = l.map (·.key) →
        PeerEdit.applyAll cx (es.map .ok) l' = (0, l'.map (PeerEdit.applyTo es)) := fun l' h' =>
      PeerEdit.applyAll_present es l' (fun x hx => hr x (List.mem_cons_of_mem _ hx))
        fun x hx => h' ▸ hk x (List.mem_cons_of_mem _ hx)
    rw [List.map_cons, PeerEdit.applyAll_ok_cons]
    by_cases hf : e.key ∈ l.map (·.key)
    · rw [PeerEdit.apply_found cx hre hf, if_neg (lt_irrefl 0),
        step _ (PeerEdit.keys_map_edit e l), List.map_map]
      rfl
    · have hown := (hk e (List.mem_cons_self _ _)).resolve_right hf
      rw [PeerEdit.apply_own cx hre hf hown, if_neg (lt_irrefl 0), step l rfl]
      exact congrArg _ (List.map_congr_left fun v hv => (PeerEdit.applyTo_cons_of_ne e es
        fun h => hf (h ▸ List.mem_map_of_mem _ hv)).symm)

/-- What edits that remove nothing do, when they succeed: each peer gets the edits of its key,
and the keys no peer had and that are not the device's own are appended as new peers. Every key
of the edits then is on a peer or the device's own. -/
lemma PeerEdit.applyAll_closed :
    ∀ (es : List PeerEdit) (l : List PeerFields), (∀ e ∈ es, e.remove = false) →
      (PeerEdit.applyAll cx (es.map .ok) l).1 = 0 →
      ∃ ks : List Key, (∀ k ∈ ks, k ∉ l.map (·.key) ∧ cx.own ≠ some k) ∧
        (PeerEdit.applyAll cx (es.map .ok) l).2 =
          (l ++ ks.map PeerFields.fresh).map (PeerEdit.applyTo es) ∧
        ∀ e ∈ es, cx.own = some e.key ∨ e.key ∈ l.map (·.key) ∨ e.key ∈ ks
  | [], l, _, _ => ⟨[], by simp [PeerEdit.applyAll]⟩
  | e :: es, l, hr, h0 => by
    have hre := hr e (List.mem_cons_self _ _)
    have hr' : ∀ x ∈ es, x.remove = false := fun x hx => hr x (List.mem_cons_of_mem _ hx)
    rw [List.map_cons, PeerEdit.applyAll_ok_cons] at h0 ⊢
    by_cases hf : e.key ∈ l.map (·.key)
    · -- the peer is there: its fields are edited
      rw [PeerEdit.apply_found cx hre hf, if_neg (lt_irrefl 0)] at h0 ⊢
      obtain ⟨ks, hks, hL, hcov⟩ := PeerEdit.applyAll_closed es _ hr' h0
      have hkeys := PeerEdit.keys_map_edit e l
      refine ⟨ks, fun k hk => by rw [← hkeys]; exact hks k hk, ?_, fun x hx => ?_⟩
      · rw [hL, List.map_append, List.map_append, List.map_map]
        congr 1
        refine List.map_congr_left fun v hv => ?_
        obtain ⟨k, hk, rfl⟩ := List.mem_map.1 hv
        exact (PeerEdit.applyTo_cons_of_ne e es fun (h : k = e.key) =>
          (hks k hk).1 (by rw [hkeys, h]; exact hf)).symm
      · rcases List.mem_cons.1 hx with rfl | hx
        · exact .inr (.inl hf)
        · rw [← hkeys]; exact hcov x hx
    · by_cases hown : cx.own = some e.key
      · -- the device's own key: skipped
        rw [PeerEdit.apply_own cx hre hf hown, if_neg (lt_irrefl 0)] at h0 ⊢
        obtain ⟨ks, hks, hL, hcov⟩ := PeerEdit.applyAll_closed es l hr' h0
        refine ⟨ks, hks, hL.trans (List.map_congr_left fun v hv => ?_), fun x hx => ?_⟩
        · refine (PeerEdit.applyTo_cons_of_ne e es ?_).symm
          rcases List.mem_append.1 hv with hv | hv
          · exact fun h => hf (h ▸ List.mem_map_of_mem _ hv)
          · obtain ⟨k, hk, rfl⟩ := List.mem_map.1 hv
            exact fun h => (hks k hk).2 (by rw [show k = e.key from h]; exact hown)
        · rcases List.mem_cons.1 hx with rfl | hx
          · exact .inl hown
          · exact hcov x hx
      · rw [PeerEdit.apply_fresh cx hre hf hown] at h0 ⊢
        by_cases hadm : l.length < MAX_PEERS_PER_DEVICE ∧ cx.precompute e.key = true
        · -- a new peer
          rw [if_pos hadm, if_neg (lt_irrefl 0)] at h0 ⊢
          obtain ⟨ks, hks, hL, hcov⟩ := PeerEdit.applyAll_closed es _ hr' h0
          have hnew : ∀ k ∈ ks, k ∉ l.map (·.key) ∧ k ≠ e.key := fun k hk => by
            have := (hks k hk).1
            simp only [List.map_append, List.mem_append, List.map_singleton, List.mem_singleton,
              PeerFields.key_edit, not_or] at this
            exact ⟨this.1, this.2⟩
          refine ⟨e.key :: ks, ?_, ?_, fun x hx => ?_⟩
          · intro k hk
            rcases List.mem_cons.1 hk with rfl | hk
            · exact ⟨hf, hown⟩
            · exact ⟨(hnew k hk).1, (hks k hk).2⟩
          · rw [hL]
            simp only [List.map_append, List.map_cons, List.append_assoc, List.singleton_append]
            congr 1
            · exact List.map_congr_left fun v hv =>
                (PeerEdit.applyTo_cons_of_ne e es fun h => hf (h ▸ List.mem_map_of_mem _ hv)).symm
            · congr 1
              · rw [PeerEdit.applyTo_cons, if_pos (show (PeerFields.fresh e.key).key = e.key from rfl)]
              · refine List.map_congr_left fun v hv => ?_
                obtain ⟨k, hk, rfl⟩ := List.mem_map.1 hv
                exact (PeerEdit.applyTo_cons_of_ne e es (hnew k hk).2).symm
          · rcases List.mem_cons.1 hx with rfl | hx
            · exact .inr (.inr (List.mem_cons_self _ _))
            · rcases hcov x hx with h | h | h
              · exact .inl h
              · simp only [List.map_append, List.mem_append, List.map_singleton,
                  List.mem_singleton, PeerFields.key_edit] at h
                rcases h with h | h
                · exact .inr (.inl h)
                · exact .inr (.inr (h ▸ List.mem_cons_self _ _))
              · exact .inr (.inr (List.mem_cons_of_mem _ h))
        · rw [if_neg hadm] at h0
          simp [ENOMEM] at h0

/-- Edits that remove nothing and succeed, applied again to the peers they leave, succeed and
change nothing. -/
theorem PeerEdit.applyAll_resend (es : List PeerEdit) (l : List PeerFields)
    (hr : ∀ e ∈ es, e.remove = false) (h0 : (PeerEdit.applyAll cx (es.map .ok) l).1 = 0) :
    PeerEdit.applyAll cx (es.map .ok) (PeerEdit.applyAll cx (es.map .ok) l).2 =
      (0, (PeerEdit.applyAll cx (es.map .ok) l).2) := by
  obtain ⟨ks, -, hL, hcov⟩ := PeerEdit.applyAll_closed cx es l hr h0
  rw [hL, PeerEdit.applyAll_present cx es _ hr fun e he => ?_, List.map_map]
  · exact congrArg _ (List.map_congr_left fun v _ => PeerEdit.applyTo_applyTo es v)
  · simp only [List.map_map, Function.comp_def, PeerEdit.key_applyTo, List.map_append,
      List.mem_append, List.map_map]
    rcases hcov e he with h | h | h
    · exact .inl h
    · exact .inr (.inl h)
    · exact .inr (.inr (by simpa [PeerFields.fresh] using h))

end NoRemove

section Removal

variable (cx : EditCtx) {e : PeerEdit} {l : List PeerFields}

/-- A removal of a key a peer has drops that peer. -/
lemma PeerEdit.apply_remove (hrm : e.remove = true) (hf : e.key ∈ l.map (·.key)) :
    e.apply cx l = (0, l.filter (·.key ≠ e.key)) := by
  rw [PeerEdit.apply, if_pos ((PeerEdit.any_key_iff e l).2 hf), if_pos hrm]

/-- A removal of a key no peer has fails with `-ENODEV`. -/
lemma PeerEdit.apply_remove_absent (hrm : e.remove = true) (hf : e.key ∉ l.map (·.key)) :
    e.apply cx l = (-ENODEV, l) := by
  rw [PeerEdit.apply, if_neg (mt (PeerEdit.any_key_iff e l).1 hf), if_pos hrm]

/-- The keys an edit leaves are keys the peers had, or its own when it adds a peer. -/
lemma PeerEdit.key_of_mem_apply {k : Key} (hk : k ∈ (e.apply cx l).2.map (·.key)) :
    k ∈ l.map (·.key) ∨ k = e.key ∧ e.remove = false := by
  unfold PeerEdit.apply at hk
  split_ifs at hk
  · obtain ⟨v, hv, rfl⟩ := List.mem_map.1 hk
    exact .inl (List.mem_map_of_mem _ (List.mem_filter.1 hv).1)
  · exact .inl ((PeerEdit.keys_map_edit e l) ▸ hk)
  · exact .inl hk
  · exact .inl hk
  · simp only [List.map_append, List.mem_append, List.map_singleton, List.mem_singleton,
      PeerFields.key_edit] at hk
    exact hk.imp_right fun h => ⟨h, by simpa using ‹¬e.remove = true›⟩
  · exact .inl hk

/-- A key no peer has, that the edits only remove, is on no peer after them. -/
lemma PeerEdit.applyAll_not_mem (k : Key) :
    ∀ (es : List PeerEdit) (l : List PeerFields), (∀ b ∈ es, b.key = k → b.remove = true) →
      k ∉ l.map (·.key) → k ∉ (PeerEdit.applyAll cx (es.map .ok) l).2.map (·.key)
  | [], _, _, hl => hl
  | b :: es, l, hes, hl => by
    have hb : k ∉ (b.apply cx l).2.map (·.key) := fun hk =>
      (PeerEdit.key_of_mem_apply cx hk).elim hl fun ⟨h, hr⟩ => by
        rw [hes b (List.mem_cons_self _ _) h.symm] at hr
        cases hr
    rw [List.map_cons, PeerEdit.applyAll_ok_cons]
    split
    · exact hb
    · exact PeerEdit.applyAll_not_mem k es _ (fun x hx => hes x (List.mem_cons_of_mem _ hx)) hb

end Removal

/-- A property of keys that every peer has, and that every key the edits may add as a new peer
has, holds of every peer after them. -/
lemma PeerEdit.applyAll_keys (cx : EditCtx) (Q : Key → Prop)
    (hQ : ∀ k, cx.own ≠ some k → cx.precompute k = true → Q k) :
    ∀ (bs : List (Except Int PeerEdit)) (l : List PeerFields), (∀ v ∈ l, Q v.key) →
      ∀ v ∈ (PeerEdit.applyAll cx bs l).2, Q v.key
  | [], _, h => h
  | .error _ :: _, _, h => h
  | .ok e :: bs, l, h => by
    have happ : ∀ v ∈ (e.apply cx l).2, Q v.key := by
      intro v hv
      unfold PeerEdit.apply at hv
      split_ifs at hv with h₁ h₂ h₃ h₄ h₅
      · exact h v (List.mem_filter.1 hv).1
      · obtain ⟨u, hu, rfl⟩ := List.mem_map.1 hv
        split
        · exact h u hu
        · exact h u hu
      · exact h v hv
      · exact h v hv
      · rcases List.mem_append.1 hv with hv | hv
        · exact h v hv
        · rw [List.mem_singleton.1 hv]; exact hQ _ h₄ h₅.2
      · exact h v hv
    rw [PeerEdit.applyAll_ok_cons]
    split
    · exact happ
    · exact PeerEdit.applyAll_keys cx Q hQ bs _ happ

/-- Installing a private key twice installs the identity installing it once does. -/
lemma wgNoiseSetStaticIdentityPrivateKey_twice (c : Curve25519) (si : StaticIdentity) (k : Key) :
    wgNoiseSetStaticIdentityPrivateKey c (wgNoiseSetStaticIdentityPrivateKey c si k) k =
      wgNoiseSetStaticIdentityPrivateKey c si k := by
  by_cases hk : k = Key.zero <;>
    simp [wgNoiseSetStaticIdentityPrivateKey, curve25519GeneratePublic, hk]

lemma DeviceEdit.identity_identity (env : Env) (e : DeviceEdit) (si : StaticIdentity) :
    e.identity env (e.identity env si) = e.identity env si := by
  cases h : e.privateKey <;>
    simp [DeviceEdit.identity, h, wgNoiseSetStaticIdentityPrivateKey_twice]

/-- When a public key can be derived from the new private key, it is the new identity's. -/
lemma own_of_generatePublic (env : Env) (si : StaticIdentity) (k : Key)
    (h : (curve25519GeneratePublic env.curve Key.zero k).2 = true) :
    (EditCtx.ofIdentity env (wgNoiseSetStaticIdentityPrivateKey env.curve si k)).own =
      some (curve25519GeneratePublic env.curve Key.zero k).1 := by
  have hk : k ≠ Key.zero := fun hk => by simp [curve25519GeneratePublic, hk] at h
  simp only [curve25519GeneratePublic, if_neg hk] at h ⊢
  simp [EditCtx.ofIdentity, wgNoiseSetStaticIdentityPrivateKey, curve25519GeneratePublic, hk, h]

/-- The peers the blocks leave after a new key are all ones the key keeps: the blocks add no
peer with the derived public key, which is the device's own, nor one the new identity cannot
precompute against. -/
lemma rekeyPeers_of_applyAll (env : Env) (si : StaticIdentity) (k : Key)
    (bs : List (Except Int PeerEdit)) (l : List PeerFields) :
    rekeyPeers env (wgNoiseSetStaticIdentityPrivateKey env.curve si k) k
        (PeerEdit.applyAll (EditCtx.ofIdentity env (wgNoiseSetStaticIdentityPrivateKey env.curve si k))
          bs (rekeyPeers env si k l)).2 =
      (PeerEdit.applyAll (EditCtx.ofIdentity env (wgNoiseSetStaticIdentityPrivateKey env.curve si k))
        bs (rekeyPeers env si k l)).2 := by
  have hL := PeerEdit.applyAll_keys
    (EditCtx.ofIdentity env (wgNoiseSetStaticIdentityPrivateKey env.curve si k)) (fun k' =>
      (!((curve25519GeneratePublic env.curve Key.zero k).2 &&
        decide (k' = (curve25519GeneratePublic env.curve Key.zero k).1))) = true ∧
      precomputeOk env (wgNoiseSetStaticIdentityPrivateKey env.curve si k) k' = true)
    (fun k' hown hpre => ⟨?_, hpre⟩) bs (rekeyPeers env si k l) fun v hv => ?_
  · rw [rekeyPeers, wgNoiseSetStaticIdentityPrivateKey_twice, List.filter_eq_self.2 fun v hv => (hL v hv).1,
      List.filter_eq_self.2 fun v hv => (hL v hv).2]
  · cases hp : (curve25519GeneratePublic env.curve Key.zero k).2
    · rfl
    · have := own_of_generatePublic env si k hp
      simp only [Bool.true_and, Bool.not_eq_true', decide_eq_false_iff_not]
      exact fun he => hown (he ▸ this)
  · simp only [rekeyPeers, List.mem_filter] at hv
    exact ⟨hv.1.2, hv.2⟩

/-- Without a replace, the device-level edit of a request sent again keeps the peers the first
time left: the new key removes none of them. -/
lemma DeviceEdit.applyPeers_applyAll (env : Env) (e : DeviceEdit) (hrep : e.replace = false)
    (bs : List (Except Int PeerEdit)) (si : StaticIdentity) (l : List PeerFields) :
    e.applyPeers env (e.identity env si)
        (PeerEdit.applyAll (EditCtx.ofIdentity env (e.identity env si)) bs (e.applyPeers env si l)).2 =
      (PeerEdit.applyAll (EditCtx.ofIdentity env (e.identity env si)) bs (e.applyPeers env si l)).2 := by
  cases hk : e.privateKey with
  | none => simp only [DeviceEdit.applyPeers, hrep, hk, Bool.false_eq_true, if_false]
  | some k =>
    simp only [DeviceEdit.applyPeers, DeviceEdit.identity, hrep, hk, Bool.false_eq_true, if_false]
    exact rekeyPeers_of_applyAll env si k bs l

/-- A request applied again, with the identity it left, to the peers it left: if it succeeded
and replaces every peer or removes none, it succeeds again and changes nothing. -/
theorem DeviceEdit.applyRequest_resend (env : Env) (e : DeviceEdit) (es : List PeerEdit)
    (si : StaticIdentity) (l : List PeerFields)
    (hkeep : e.replace = true ∨ ∀ b ∈ es, b.remove = false)
    (h0 : (e.applyRequest env (es.map .ok) si l).1 = 0) :
    e.applyRequest env (es.map .ok) (e.identity env si) (e.applyRequest env (es.map .ok) si l).2 =
      (0, (e.applyRequest env (es.map .ok) si l).2) := by
  unfold DeviceEdit.applyRequest at h0 ⊢
  rw [DeviceEdit.identity_identity]
  cases hrep : e.replace
  · rw [DeviceEdit.applyPeers_applyAll env e hrep]
    exact PeerEdit.applyAll_resend _ es _ (hkeep.resolve_left (by simp [hrep])) h0
  · have hnil : ∀ si' (l' : List PeerFields), e.applyPeers env si' l' = [] := fun si' l' => by
      cases hk : e.privateKey <;> simp [DeviceEdit.applyPeers, rekeyPeers, hrep, hk]
    rw [hnil] at h0 ⊢
    rw [hnil]
    exact Prod.ext h0 rfl

/-- A request whose first block removes a peer, and whose later blocks do not add that peer back,
applied again after it succeeded: the removal finds no peer, and the request fails with
`-ENODEV` and changes nothing. -/
theorem DeviceEdit.applyRequest_resend_remove (env : Env) (e : DeviceEdit) (pe : PeerEdit)
    (es : List PeerEdit) (si : StaticIdentity) (l : List PeerFields) (hrm : pe.remove = true)
    (hlast : ∀ b ∈ es, b.key = pe.key → b.remove = true)
    (h0 : (e.applyRequest env ((pe :: es).map .ok) si l).1 = 0) :
    e.applyRequest env ((pe :: es).map .ok) (e.identity env si)
        (e.applyRequest env ((pe :: es).map .ok) si l).2 =
      (-ENODEV, (e.applyRequest env ((pe :: es).map .ok) si l).2) := by
  unfold DeviceEdit.applyRequest at h0 ⊢
  rw [DeviceEdit.identity_identity]
  set cx := EditCtx.ofIdentity env (e.identity env si)
  -- the first time the removal finds its peer, so the device-level edit did not replace the peers
  have hf : pe.key ∈ (e.applyPeers env si l).map (·.key) := by
    by_contra hf
    rw [List.map_cons, PeerEdit.applyAll_ok_cons, PeerEdit.apply_remove_absent _ hrm hf] at h0
    simp [ENODEV] at h0
  have hrep : e.replace = false := by
    cases hrep : e.replace
    · rfl
    · cases hk : e.privateKey <;> simp [DeviceEdit.applyPeers, rekeyPeers, hrep, hk] at hf
  have hgone : pe.key ∉ (PeerEdit.applyAll cx ((pe :: es).map .ok) (e.applyPeers env si l)).2.map
      (·.key) := by
    rw [List.map_cons, PeerEdit.applyAll_ok_cons, PeerEdit.apply_remove _ hrm hf,
      if_neg (lt_irrefl 0)]
    exact PeerEdit.applyAll_not_mem _ pe.key es _ hlast (by simp)
  rw [DeviceEdit.applyPeers_applyAll env e hrep]
  set L₁ := (PeerEdit.applyAll cx ((pe :: es).map .ok) (e.applyPeers env si l)).2
  rw [List.map_cons, PeerEdit.applyAll_ok_cons, PeerEdit.apply_remove_absent _ hrm hgone,
    if_pos (by simp [ENODEV])]

/-- The peer blocks keep the device-level fields, so the locked part leaves those of the
device-level steps. -/
lemma setDeviceLocked_head (env : Env) (c : Caller) (attrs : AttrTable) (buf : Bytes)
    (w : World) :
    (setDeviceLocked env c attrs buf w).2.2.wg.head = (setDeviceConfig env c attrs buf w).2.wg.head := by
  simp only [setDeviceLocked]
  split
  · rfl
  · split
    · rw [setDevicePeers_eq, applyPeerBlocks_head]
    · rfl

lemma setDeviceLocked_roster (env : Env) (c : Caller) (attrs : AttrTable) (buf : Bytes)
    (w : World) (h : Roster w.wg) : Roster (setDeviceLocked env c attrs buf w).2.2.wg := by
  have hc := setDeviceConfig_roster env c attrs buf w h
  simp only [setDeviceLocked]
  split
  · exact hc
  · split
    · rw [setDevicePeers_eq]; exact applyPeerBlocks_roster env _ _ _ hc
    · exact hc

/-- A block of the peer nest that cannot be read fails with a negative error. -/
lemma blockEditOf_error_neg {buf : Bytes} {a : Nlattr} {e : Int}
    (h : blockEditOf buf a = .error e) : e < 0 := by
  unfold blockEditOf at h
  cases hp : nlaParseNested buf WGPEER_A_MAX peerPolicy a with
  | error e' => rw [hp] at h; cases h; exact nlaParseAttrs_error hp
  | ok tb => rw [hp] at h; exact peerEditOf_error_neg h

/-- Blocks whose errors are negative and that succeed are all read. -/
lemma applyAll_ok_of_zero (cx : EditCtx) :
    ∀ (bs : List (Except Int PeerEdit)) (l : List PeerFields),
      (∀ b ∈ bs, ∀ x, b = .error x → x < 0) → (PeerEdit.applyAll cx bs l).1 = 0 →
      ∃ es : List PeerEdit, bs = es.map .ok
  | [], _, _, _ => ⟨[], rfl⟩
  | .error x :: _, _, hneg, h0 => absurd h0 (hneg _ (List.mem_cons_self _ _) x rfl).ne
  | .ok e :: bs, l, hneg, h0 => by
    rw [PeerEdit.applyAll_ok_cons] at h0
    split at h0
    · omega
    · obtain ⟨es, rfl⟩ := applyAll_ok_of_zero cx bs _
        (fun b hb => hneg b (List.mem_cons_of_mem _ hb)) h0
      exact ⟨e :: es, rfl⟩

/-- A request the locked part of `set_device` carried out, sent again once the socket step
succeeds: its blocks all read as edits, the first time it computed the request's edit, with
success, and the second time it computes the request's edit from the identity and the peers the
first time left. -/
lemma setDeviceLocked_twice (env : Env) (c : Caller) (attrs : AttrTable) (buf : Bytes)
    (w : World) (hr : Roster w.wg)
    (hpeers : ∀ a, attrs WGDEVICE_A_PEERS = some a → a.off + a.len ≤ buf.length)
    (halloc : ∀ n, env.oom n = false)
    (hips : ∀ x ∈ (attrs WGDEVICE_A_PEERS).elim [] (nlaNested buf), ∀ tb,
      nlaParseNested buf WGPEER_A_MAX peerPolicy x = .ok tb →
      ∀ y ∈ (tb WGPEER_A_ALLOWEDIPS).elim [] (nlaNested buf), (entryPrefix buf y).isSome)
    (h₁ : (setDeviceLocked env c attrs buf w).1 = 0)
    (h₂ : (setDeviceConfig env c attrs buf (setDeviceLocked env c attrs buf w).2.2).1 = 0) :
    ∃ es : List PeerEdit,
      ((attrs WGDEVICE_A_PEERS).elim [] (nlaNested buf)).map (blockEditOf buf) = es.map .ok ∧
      (deviceEditOf attrs buf).applyRequest env (es.map .ok) w.wg.identity w.wg.lineup =
        (0, (setDeviceLocked env c attrs buf w).2.2.wg.lineup) ∧
      ((setDeviceLocked env c attrs buf (setDeviceLocked env c attrs buf w).2.2).1,
        (setDeviceLocked env c attrs buf (setDeviceLocked env c attrs buf w).2.2).2.2.wg.lineup) =
        (deviceEditOf attrs buf).applyRequest env (es.map .ok)
          ((deviceEditOf attrs buf).identity env w.wg.identity)
          (setDeviceLocked env c attrs buf w).2.2.wg.lineup := by
  have hcfg : (setDeviceConfig env c attrs buf w).1 = 0 := by
    by_contra hne
    simp only [setDeviceLocked, if_pos hne] at h₁
    exact hne h₁
  have hfirst := setDeviceLocked_applyRequest env c attrs buf w hr hpeers halloc hips hcfg
  rw [h₁] at hfirst
  obtain ⟨es, hes⟩ := applyAll_ok_of_zero _ _ _
    (fun b hb x hx => by
      obtain ⟨y, -, rfl⟩ := List.mem_map.1 hb
      exact blockEditOf_error_neg hx) (congrArg Prod.fst hfirst.symm)
  refine ⟨es, hes, hes ▸ hfirst.symm, ?_⟩
  rw [setDeviceLocked_applyRequest env c attrs buf _ (setDeviceLocked_roster env c attrs buf w hr)
    hpeers halloc hips h₂, Device.identity_eq_head, setDeviceLocked_head,
    ← Device.identity_eq_head, (setDeviceConfig_edit env c attrs buf w hr.nodup_keys hcfg).2, hes]

/-- Sending a request to the device again is safe when it succeeded and it replaces every peer
or removes none. Take a device whose peers have distinct keys, none the device's own, a request
whose peer nest lies within the buffer, with valid allowed-IP entries, and a kernel in which no
allocation fails. If the locked part of `set_device` succeeds on the request, and on the device
it leaves the socket step succeeds again, then the request succeeds again and leaves every peer's
key, preshared key, endpoint address and keepalive interval as the first time, in the same
order. -/
theorem setDeviceLocked_resend (env : Env) (c : Caller) (attrs : AttrTable) (buf : Bytes)
    (w : World) (hr : Roster w.wg)
    (hpeers : ∀ a, attrs WGDEVICE_A_PEERS = some a → a.off + a.len ≤ buf.length)
    (halloc : ∀ n, env.oom n = false)
    (hips : ∀ x ∈ (attrs WGDEVICE_A_PEERS).elim [] (nlaNested buf), ∀ tb,
      nlaParseNested buf WGPEER_A_MAX peerPolicy x = .ok tb →
      ∀ y ∈ (tb WGPEER_A_ALLOWEDIPS).elim [] (nlaNested buf), (entryPrefix buf y).isSome)
    (hkeep : (deviceEditOf attrs buf).replace = true ∨
      ∀ x ∈ (attrs WGDEVICE_A_PEERS).elim [] (nlaNested buf), ∀ pe,
        blockEditOf buf x = .ok pe → pe.remove = false)
    (h₁ : (setDeviceLocked env c attrs buf w).1 = 0)
    (h₂ : (setDeviceConfig env c attrs buf (setDeviceLocked env c attrs buf w).2.2).1 = 0) :
    ((setDeviceLocked env c attrs buf (setDeviceLocked env c attrs buf w).2.2).1,
      (setDeviceLocked env c attrs buf (setDeviceLocked env c attrs buf w).2.2).2.2.wg.lineup) =
      (0, (setDeviceLocked env c attrs buf w).2.2.wg.lineup) := by
  obtain ⟨es, hes, hfirst, hsecond⟩ :=
    setDeviceLocked_twice env c attrs buf w hr hpeers halloc hips h₁ h₂
  have hkeep' : (deviceEditOf attrs buf).replace = true ∨ ∀ b ∈ es, b.remove = false :=
    hkeep.imp_right fun hn b hb => by
      have hb' : Except.ok b ∈ ((attrs WGDEVICE_A_PEERS).elim [] (nlaNested buf)).map
          (blockEditOf buf) := hes ▸ List.mem_map_of_mem _ hb
      obtain ⟨x, hx, hxb⟩ := List.mem_map.1 hb'
      exact hn x hx b hxb
  have h := DeviceEdit.applyRequest_resend env _ es _ _ hkeep' (by rw [hfirst])
  rw [hfirst] at h
  rw [hsecond]
  exact h

set_option maxRecDepth 20000 in
/-- A request that installs a private key, sets the port and creates a peer with a preshared key,
sent twice to a new device: the second time it succeeds, finds the peer and leaves the peers as
the first time did. -/
theorem setDeviceLocked_resend_setconf :
    let env := Env.reliable ⟨fun s _ => s, Key.zero⟩
    let w := World.init (Device.create 1 [119] 0)
    let buf := nlaEncode [(WGDEVICE_A_PRIVATE_KEY, List.replicate 32 3),
      (WGDEVICE_A_LISTEN_PORT, u16Bytes 51820),
      (WGDEVICE_A_PEERS, nlaEncode [
        (0, nlaEncode [(WGPEER_A_PUBLIC_KEY, List.replicate 32 1),
          (WGPEER_A_PRESHARED_KEY, List.replicate 32 7)])])]
    let attrs := (nlaParse buf WGDEVICE_A_MAX devicePolicy 0 buf.length).toOption.getD fun _ => none
    let w₁ := (setDeviceLocked env (Caller.admin 0) attrs buf w).2.2
    ((setDeviceLocked env (Caller.admin 0) attrs buf w₁).1,
      (setDeviceLocked env (Caller.admin 0) attrs buf w₁).2.2.wg.lineup) = (0, w₁.wg.lineup) := by
  intro env w buf attrs w₁
  have hpeers : (attrs WGDEVICE_A_PEERS).all (fun a => decide (a.off + a.len ≤ buf.length)) = true := by
    decide
  have hips : ∀ x ∈ (attrs WGDEVICE_A_PEERS).elim [] (nlaNested buf),
      (nlaParseNested buf WGPEER_A_MAX peerPolicy x).toOption.map (· WGPEER_A_ALLOWEDIPS) =
        some none := by decide
  have hkeep : ∀ x ∈ (attrs WGDEVICE_A_PEERS).elim [] (nlaNested buf),
      (blockEditOf buf x).toOption.map (·.remove) = some false := by decide
  exact setDeviceLocked_resend env (Caller.admin 0) attrs buf w (Roster.of_nil rfl)
    (fun a ha => by rw [ha] at hpeers; exact of_decide_eq_true hpeers) (fun _ => rfl)
    (fun x hx tb htb y hy => by
      have h := hips x hx
      rw [htb] at h
      have h' : tb WGPEER_A_ALLOWEDIPS = none := Option.some.inj h
      rw [h'] at hy
      exact absurd hy (List.not_mem_nil _))
    (.inr fun x hx pe hpe => by
      have h := hkeep x hx
      rw [hpe] at h
      exact Option.some.inj h)
    (by decide) (by decide)

/-- Sending a request to the device again is not safe when its first block removes a peer that
no later block adds back. Under the assumptions of `setDeviceLocked_resend`, if the locked part of
`set_device` succeeds on such a request, and on the device it leaves the socket step succeeds
again, then the second time the removal finds no peer: the request fails with `-ENODEV` and
leaves every peer as the first time did. -/
theorem setDeviceLocked_resend_remove (env : Env) (c : Caller) (attrs : AttrTable) (buf : Bytes)
    (w : World) (hr : Roster w.wg)
    (hpeers : ∀ a, attrs WGDEVICE_A_PEERS = some a → a.off + a.len ≤ buf.length)
    (halloc : ∀ n, env.oom n = false)
    (hips : ∀ x ∈ (attrs WGDEVICE_A_PEERS).elim [] (nlaNested buf), ∀ tb,
      nlaParseNested buf WGPEER_A_MAX peerPolicy x = .ok tb →
      ∀ y ∈ (tb WGPEER_A_ALLOWEDIPS).elim [] (nlaNested buf), (entryPrefix buf y).isSome)
    (x : Nlattr) (rest : List Nlattr) (pe : PeerEdit)
    (hnest : (attrs WGDEVICE_A_PEERS).elim [] (nlaNested buf) = x :: rest)
    (hx : blockEditOf buf x = .ok pe) (hrm : pe.remove = true)
    (hlast : ∀ y ∈ rest, ∀ pe', blockEditOf buf y = .ok pe' → pe'.key = pe.key → pe'.remove = true)
    (h₁ : (setDeviceLocked env c attrs buf w).1 = 0)
    (h₂ : (setDeviceConfig env c attrs buf (setDeviceLocked env c attrs buf w).2.2).1 = 0) :
    ((setDeviceLocked env c attrs buf (setDeviceLocked env c attrs buf w).2.2).1,
      (setDeviceLocked env c attrs buf (setDeviceLocked env c attrs buf w).2.2).2.2.wg.lineup) =
      (-ENODEV, (setDeviceLocked env c attrs buf w).2.2.wg.lineup) := by
  obtain ⟨_ | ⟨b, es⟩, hes, hfirst, hsecond⟩ :=
    setDeviceLocked_twice env c attrs buf w hr hpeers halloc hips h₁ h₂
  · rw [hnest] at hes
    cases hes
  obtain ⟨rfl, hrest⟩ : pe = b ∧ rest.map (blockEditOf buf) = es.map .ok := by
    rw [hnest, List.map_cons, hx] at hes
    simpa only [List.map_cons, List.cons.injEq, Except.ok.injEq] using hes
  have h := DeviceEdit.applyRequest_resend_remove env _ pe es _ _ hrm (fun b hb hk => by
    have hb' : Except.ok b ∈ rest.map (blockEditOf buf) := hrest ▸ List.mem_map_of_mem _ hb
    obtain ⟨y, hy, hyb⟩ := List.mem_map.1 hb'
    exact hlast y hy b hyb hk) (by rw [hfirst])
  rw [hfirst] at h
  rw [hsecond]
  exact h

set_option maxRecDepth 20000 in
/-- A request that removes the one peer of a device, sent twice: the second time it fails with
`-ENODEV` and leaves the device with no peer. -/
theorem setDeviceLocked_resend_remove_one_peer :
    let env := Env.reliable ⟨fun s _ => s, Key.zero⟩
    let w := World.init { Device.create 1 [119] 0 with
      peers := [0]
      objs := fun _ => { Peer.blank with remoteStatic := ⟨List.replicate 32 1, rfl⟩, refcount := 1 }
      nextPeer := 1
      nodup_peers := by decide
      lt_nextPeer := by decide }
    let buf := nlaEncode [(WGDEVICE_A_PEERS, nlaEncode [
      (0, nlaEncode [(WGPEER_A_PUBLIC_KEY, List.replicate 32 1),
        (WGPEER_A_FLAGS, u32Bytes WGPEER_F_REMOVE_ME)])])]
    let attrs := (nlaParse buf WGDEVICE_A_MAX devicePolicy 0 buf.length).toOption.getD fun _ => none
    let w₁ := (setDeviceLocked env (Caller.admin 0) attrs buf w).2.2
    w₁.wg.lineup = [] ∧
      ((setDeviceLocked env (Caller.admin 0) attrs buf w₁).1,
        (setDeviceLocked env (Caller.admin 0) attrs buf w₁).2.2.wg.lineup) = (-ENODEV, []) := by
  intro env w buf attrs w₁
  have hpeers : (attrs WGDEVICE_A_PEERS).all (fun a => decide (a.off + a.len ≤ buf.length)) = true := by
    decide
  have hnest : (attrs WGDEVICE_A_PEERS).elim [] (nlaNested buf) = [⟨0, 8, 44⟩] := by decide
  have hnone : (nlaParseNested buf WGPEER_A_MAX peerPolicy ⟨0, 8, 44⟩).toOption.map
      (· WGPEER_A_ALLOWEDIPS) = some none := by decide
  have hL : w₁.wg.lineup = [] := by decide
  have hx : (blockEditOf buf ⟨0, 8, 44⟩).toOption =
      some ⟨⟨List.replicate 32 1, rfl⟩, true, none, none, none⟩ := by decide
  refine ⟨hL, hL ▸ setDeviceLocked_resend_remove env (Caller.admin 0) attrs buf w
    ⟨by decide, by decide⟩ (fun a ha => by rw [ha] at hpeers; exact of_decide_eq_true hpeers)
    (fun _ => rfl) (fun x hx tb htb y hy => ?_) ⟨0, 8, 44⟩ [] ⟨⟨List.replicate 32 1, rfl⟩, true, none, none, none⟩
    hnest (by revert hx; cases blockEditOf buf ⟨0, 8, 44⟩ <;> simp [Except.toOption]) rfl
    (fun _ h => nomatch h) (by decide) (by decide)⟩
  rw [hnest, List.mem_singleton] at hx
  subst x
  rw [htb] at hnone
  have h : tb WGPEER_A_ALLOWEDIPS = none := Option.some.inj hnone
  rw [h] at hy
  exact absurd hy (List.not_mem_nil _)

end WireGuardNetlink

