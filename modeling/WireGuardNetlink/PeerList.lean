import WireGuardNetlink.Basic
import Mathlib.Data.List.Nodup

/-!
# The peer list

The device's peer list is a kernel `list_head`: a circular doubly linked list through the
`peer_list` member of each peer, with its head in the device. The model keeps the list as the
order of its peers and derives every `next` pointer from it (`listNext`); a peer outside the list
points to itself, as `INIT_LIST_HEAD` and `list_del_init` leave it (`listNext_of_not_mem`), so
`list_empty` on a peer's node tells whether the peer is linked (`listEmpty_peer`).

The loops of `netlink.c` walk these pointers: `list_for_each_entry` (the body must not unlink the
node it stands on), `list_for_each_entry_safe` (it reads the next node before the body) and
`list_for_each_entry_continue` (it starts after a given node, with a body that may `break`). The
C loops stop when they come back to the head; the models carry a step bound, and the lemmas below
show that from the head or a member of a list of `n` peers, `n + 1` steps always reach it.
-/

namespace WireGuardNetlink

/-- A peer object (`struct wireguard_peer *`), named by its allocation. -/
abbrev PeerId := Nat

/-- A node of the circular peer list: the head in the device or a peer's `peer_list`. -/
inductive Node
  | head
  | peer (id : PeerId)
deriving DecidableEq, Repr

/-- The node for the first peer of a list, or the head when there is none. -/
def firstNode : List PeerId → Node
  | [] => .head
  | p :: _ => .peer p

/-- The peers after the first occurrence of `p`. -/
def suffixAfter : List PeerId → PeerId → List PeerId
  | [], _ => []
  | q :: rest, p => if q = p then rest else suffixAfter rest p

/-- The `next` pointer of each node of a list with this order. -/
def listNext (l : List PeerId) : Node → Node
  | .head => firstNode l
  | .peer p => if p ∈ l then firstNode (suffixAfter l p) else .peer p

/-- `list_prepare_entry`: the node a continued walk starts from, the cursor's or the head when
there is no cursor. -/
def listPrepareEntry : Option PeerId → Node
  | some p => .peer p
  | none => .head

/-- The `list_empty` test on a node: it points to itself. -/
def listEmpty (l : List PeerId) (n : Node) : Bool := listNext l n = n

lemma suffixAfter_append_cons {a r : List PeerId} {q : PeerId} (h : q ∉ a) :
    suffixAfter (a ++ q :: r) q = r := by
  induction a with
  | nil => simp [suffixAfter]
  | cons x a ih =>
    simp only [List.mem_cons, not_or] at h
    simp [suffixAfter, Ne.symm h.1, ih h.2]

lemma suffixAfter_of_not_mem {l : List PeerId} {p : PeerId} (h : p ∉ l) : suffixAfter l p = [] := by
  induction l with
  | nil => rfl
  | cons x l ih =>
    simp only [List.mem_cons, not_or] at h
    simp [suffixAfter, Ne.symm h.1, ih h.2]

/-- A member splits the list into what comes before it and what comes after. -/
lemma exists_split_of_mem {l : List PeerId} {p : PeerId} (h : p ∈ l) :
    ∃ a, p ∉ a ∧ l = a ++ p :: suffixAfter l p := by
  induction l with
  | nil => simp at h
  | cons x l ih =>
    by_cases hx : x = p
    · exact ⟨[], by simp, by simp [suffixAfter, hx]⟩
    · have hl : p ∈ l := by simpa [Ne.symm hx] using h
      obtain ⟨a, ha, e⟩ := ih hl
      exact ⟨x :: a, by simp [Ne.symm hx, ha], by simp [suffixAfter, hx]; exact e⟩

/-- In a list without repetitions, the peer after `p` is followed by the rest. -/
lemma suffixAfter_next {l r : List PeerId} {p q : PeerId} (hl : l.Nodup)
    (h : suffixAfter l p = q :: r) : suffixAfter l q = r := by
  have hp : p ∈ l := by
    by_contra hp; rw [suffixAfter_of_not_mem hp] at h; cases h
  obtain ⟨a, -, e⟩ := exists_split_of_mem hp
  rw [h] at e
  rw [e] at hl ⊢
  have hq : q ∉ a ++ [p] := by
    rw [show a ++ p :: q :: r = (a ++ [p]) ++ q :: r by simp] at hl
    exact fun hm => (List.nodup_append.1 hl).2.2 hm (List.mem_cons_self _ _)
  simpa using suffixAfter_append_cons (r := r) hq

lemma mem_of_suffixAfter {l : List PeerId} {p q : PeerId} (h : q ∈ suffixAfter l p) : q ∈ l := by
  induction l with
  | nil => simp [suffixAfter] at h
  | cons x l ih =>
    unfold suffixAfter at h
    split at h
    · exact List.mem_cons_of_mem _ h
    · exact List.mem_cons_of_mem _ (ih h)

@[simp] lemma listNext_head (l : List PeerId) : listNext l .head = firstNode l := rfl

lemma listNext_of_mem {l : List PeerId} {p : PeerId} (h : p ∈ l) :
    listNext l (.peer p) = firstNode (suffixAfter l p) := by simp [listNext, h]

lemma listNext_of_not_mem {l : List PeerId} {p : PeerId} (h : p ∉ l) :
    listNext l (.peer p) = .peer p := by simp [listNext, h]

/-- A peer's node is `list_empty` exactly when the peer is not in the list. -/
lemma listEmpty_peer {l : List PeerId} (hl : l.Nodup) (p : PeerId) :
    listEmpty l (.peer p) = true ↔ p ∉ l := by
  unfold listEmpty
  by_cases h : p ∈ l
  · rw [listNext_of_mem h]
    obtain ⟨a, -, e⟩ := exists_split_of_mem h
    simp only [h, not_true_eq_false, iff_false, decide_eq_true_eq]
    cases hs : suffixAfter l p with
    | nil => simp [firstNode]
    | cons q r =>
      simp only [firstNode, Node.peer.injEq]
      rintro rfl
      rw [hs] at e; rw [e] at hl
      simp [List.nodup_append] at hl
  · simp [listNext_of_not_mem h, h]

/-- The head is `list_empty` exactly when the list is. -/
lemma listEmpty_head (l : List PeerId) : listEmpty l .head = true ↔ l = [] := by
  cases l <;> simp [listEmpty, firstNode]

section Walks

variable {σ : Type}

/-- A walk over peers in order that may stop early: the body returns the new state and
whether to `break`. This is what the list walks below compute. -/
def foldBreak (body : σ → PeerId → σ × Bool) : List PeerId → σ → σ
  | [], s => s
  | p :: ps, s => if (body s p).2 then (body s p).1 else foldBreak body ps (body s p).1

/-- The peers after a node: the whole list after the head, the suffix after a member. -/
def nodesAfter (l : List PeerId) : Node → List PeerId
  | .head => l
  | .peer p => suffixAfter l p

/-- The nodes a walk may stand on: the head and the members. -/
def OnList (l : List PeerId) : Node → Prop
  | .head => True
  | .peer p => p ∈ l

lemma suffixAfter_sublist (l : List PeerId) (p : PeerId) : List.Sublist (suffixAfter l p) l := by
  induction l with
  | nil => exact List.Sublist.slnil
  | cons x l ih =>
    unfold suffixAfter
    split
    · exact List.sublist_cons_self x l
    · exact ih.cons x

lemma nodesAfter_sublist (l : List PeerId) : (n : Node) → List.Sublist (nodesAfter l n) l
  | .head => List.Sublist.refl l
  | .peer p => suffixAfter_sublist l p

instance (l : List PeerId) : (n : Node) → Decidable (OnList l n)
  | .head => isTrue trivial
  | .peer p => inferInstanceAs (Decidable (p ∈ l))

lemma listNext_onList {l : List PeerId} {n : Node} (h : OnList l n) :
    listNext l n = firstNode (nodesAfter l n) := by
  cases n with
  | head => rfl
  | peer p => exact listNext_of_mem h

/-- `list_for_each_entry_continue` from `pos`, over a list the body leaves alone. -/
def listForEachEntryContinue (l : List PeerId) (body : σ → PeerId → σ × Bool) :
    Nat → Node → σ → Option σ
  | 0, _, _ => none
  | fuel + 1, pos, s =>
    match listNext l pos with
    | .head => some s
    | .peer p =>
      if (body s p).2 then some (body s p).1
      else listForEachEntryContinue l body fuel (.peer p) (body s p).1

/-- From the head or a member, the continued walk visits exactly the peers after it. -/
theorem listForEachEntryContinue_eq {l : List PeerId} (hl : l.Nodup)
    (body : σ → PeerId → σ × Bool) :
    ∀ (fuel : Nat) (pos : Node) (s : σ), OnList l pos → (nodesAfter l pos).length < fuel →
      listForEachEntryContinue l body fuel pos s = some (foldBreak body (nodesAfter l pos) s)
  | 0, _, _, _, h => absurd h (Nat.not_lt_zero _)
  | fuel + 1, pos, s, hpos, hlen => by
    rw [listForEachEntryContinue, listNext_onList hpos]
    cases hn : nodesAfter l pos with
    | nil => rfl
    | cons q r =>
      have hq : q ∈ l := by
        cases pos with
        | head => simp [nodesAfter] at hn; simp [hn]
        | peer p => exact mem_of_suffixAfter (p := p) (by simp [nodesAfter] at hn; simp [hn])
      have hr : nodesAfter l (.peer q) = r := by
        cases pos with
        | head => simp only [nodesAfter] at hn ⊢; subst hn; exact suffixAfter_append_cons (a := []) (by simp)
        | peer p => exact suffixAfter_next hl hn
      simp only [firstNode, foldBreak]
      split
      · rfl
      · rw [← hr]
        exact listForEachEntryContinue_eq hl body fuel (.peer q) _ hq
          (by rw [hr]; rw [hn] at hlen; simpa using hlen)

/-- `list_for_each_entry_safe`: the next node is read before the body, which may unlink the
node it stands on. -/
def listForEachEntrySafe (lst : σ → List PeerId) (body : σ → PeerId → σ) :
    Nat → Node → σ → Option σ
  | 0, _, _ => none
  | _ + 1, .head, s => some s
  | fuel + 1, .peer p, s => listForEachEntrySafe lst body fuel (listNext (lst s) (.peer p)) (body s p)

/-- `list_for_each_entry`: the next node is read after the body. -/
def listForEachEntry (lst : σ → List PeerId) (body : σ → PeerId → σ) :
    Nat → Node → σ → Option σ
  | 0, _, _ => none
  | _ + 1, .head, s => some s
  | fuel + 1, .peer p, s =>
    listForEachEntry lst body fuel (listNext (lst (body s p)) (.peer p)) (body s p)

/-- The safe walk visits every peer the list held when the walk reached it exactly once and in
order, provided each step at most unlinks the peer it stands on. -/
theorem listForEachEntrySafe_eq (lst : σ → List PeerId) (body : σ → PeerId → σ)
    (hbody : ∀ s p, lst (body s p) = lst s ∨ lst (body s p) = (lst s).erase p) :
    ∀ (rest a : List PeerId) (s : σ) (fuel : Nat), lst s = a ++ rest → (lst s).Nodup →
      rest.length < fuel → listForEachEntrySafe lst body fuel (firstNode rest) s =
        some (rest.foldl body s)
  | _, _, _, 0, _, _, h => absurd h (Nat.not_lt_zero _)
  | [], _, _, _ + 1, _, _, _ => rfl
  | p :: r, a, s, fuel + 1, hs, hnd, hlen => by
    have hpa : p ∉ a := by rw [hs] at hnd; exact (List.nodup_middle.1 hnd |> List.nodup_cons.1).1 ∘
      (List.mem_append_left _)
    have hnext : listNext (lst s) (.peer p) = firstNode r := by
      rw [listNext_of_mem (by simp [hs]), hs, suffixAfter_append_cons hpa]
    rw [show firstNode (p :: r) = .peer p from rfl, listForEachEntrySafe, hnext, List.foldl_cons]
    rcases hbody s p with h | h
    · exact listForEachEntrySafe_eq lst body hbody r (a ++ [p]) _ fuel (by simp [h, hs])
        (by rw [h]; exact hnd) (by simpa using hlen)
    · have he : lst (body s p) = a ++ r := by
        rw [h, hs, List.erase_append_right _ hpa, List.erase_cons_head]
      exact listForEachEntrySafe_eq lst body hbody r a _ fuel he
        (by rw [he]; rw [hs] at hnd; exact List.nodup_middle.1 hnd |>.of_cons)
        (by simpa using hlen)

/-- The plain walk visits the whole list in order when the body leaves the list alone. -/
theorem listForEachEntry_eq (lst : σ → List PeerId) (body : σ → PeerId → σ)
    (hbody : ∀ s p, lst (body s p) = lst s) :
    ∀ (rest a : List PeerId) (s : σ) (fuel : Nat), lst s = a ++ rest → (lst s).Nodup →
      rest.length < fuel → listForEachEntry lst body fuel (firstNode rest) s =
        some (rest.foldl body s)
  | _, _, _, 0, _, _, h => absurd h (Nat.not_lt_zero _)
  | [], _, _, _ + 1, _, _, _ => rfl
  | p :: r, a, s, fuel + 1, hs, hnd, hlen => by
    have hpa : p ∉ a := by rw [hs] at hnd; exact (List.nodup_middle.1 hnd |> List.nodup_cons.1).1 ∘
      (List.mem_append_left _)
    have hnext : listNext (lst (body s p)) (.peer p) = firstNode r := by
      rw [hbody, listNext_of_mem (by simp [hs]), hs, suffixAfter_append_cons hpa]
    rw [show firstNode (p :: r) = .peer p from rfl, listForEachEntry, hnext, List.foldl_cons]
    exact listForEachEntry_eq lst body hbody r (a ++ [p]) _ fuel (by simp [hbody, hs])
      (by rw [hbody]; exact hnd) (by simpa using hlen)

end Walks

end WireGuardNetlink
