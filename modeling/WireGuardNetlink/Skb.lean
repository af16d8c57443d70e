import WireGuardNetlink.Nla

/-!
# Dump messages

The output side of the netlink library as the dump of `netlink.c` uses it: a message buffer
(`struct sk_buff`) of fixed room, filled by `genlmsg_put`, `nla_put`, `nla_nest_start` and
`nla_nest_end`, and rolled back by `nla_nest_cancel` and `genlmsg_cancel`.

The buffer is kept at the grain of its headers: a message header, a complete attribute, the
header of a nested attribute, and the point where `nla_nest_end` closes it (which writes no
byte; it only fills in the length of the header already counted). Each piece takes the room it
takes in the real buffer, so that every `-EMSGSIZE` happens where it happens in the kernel.

`Attr` is what a reader sees in a message: a tree of attributes. `readMsg` is the reader and
`readMsg_render` its round trip with `Attr.render`.
-/

namespace WireGuardNetlink

/-- The room of a generic netlink message header: `nlmsghdr` and `genlmsghdr`
(`nlmsg_total_size(GENL_HDRLEN)`). -/
def GENL_MSG_HDRLEN : Nat := 20

/-- Outside the sources (the netlink core): the least room `netlink_dump` gives the buffer of a
dump message, `NLMSG_GOODSIZE`, a page less the shared-info tail (`SKB_WITH_OVERHEAD(PAGE_SIZE)`)
on a kernel with 4096-byte pages and 64-byte cache lines. -/
def NLMSG_GOODSIZE : Nat := 3776

/-- One piece of a message buffer. `hdr intr` is the message header, with the
`NLM_F_DUMP_INTR` flag `genl_dump_check_consistent` may set. -/
inductive Tok
  | hdr (intr : Bool)
  | put (type : Nat) (data : Bytes)
  | nest (type : Nat)
  | close
deriving DecidableEq, Repr

/-- The room a piece takes in the buffer. -/
def Tok.size : Tok → Nat
  | .hdr _ => GENL_MSG_HDRLEN
  | .put _ d => nlaTotalSize d.length
  | .nest _ => NLA_HDRLEN
  | .close => 0

/-- A message buffer: its room (`skb_tailroom` when empty) and what has been written. -/
structure Skb where
  cap : Nat
  toks : List Tok
deriving DecidableEq, Repr

/-- The room a run of pieces takes. -/
def toksSize : List Tok → Nat
  | [] => 0
  | t :: ts => t.size + toksSize ts

@[simp] lemma toksSize_nil : toksSize [] = 0 := rfl
@[simp] lemma toksSize_cons (t : Tok) (ts : List Tok) : toksSize (t :: ts) = t.size + toksSize ts :=
  rfl
@[simp] lemma toksSize_append (ts us : List Tok) : toksSize (ts ++ us) = toksSize ts + toksSize us := by
  induction ts <;> simp [*, Nat.add_assoc]

/-- The bytes written so far (`skb->len`). -/
def Skb.len (skb : Skb) : Nat := toksSize skb.toks

/-- An empty buffer with room `cap`. -/
def Skb.empty (cap : Nat) : Skb := ⟨cap, []⟩

/-- Append a piece if the remaining room (`skb_tailroom`) holds it; `none` is `-EMSGSIZE`. -/
def Skb.push (skb : Skb) (t : Tok) : Option Skb :=
  if skb.len + t.size ≤ skb.cap then some ⟨skb.cap, skb.toks ++ [t]⟩ else none

/-- Put one attribute (`nla_put`). -/
def nlaPut (skb : Skb) (type : Nat) (data : Bytes) : Option Skb := skb.push (.put type data)
/-- Put a `u8` attribute (`nla_put_u8`). -/
def nlaPutU8 (skb : Skb) (type : Nat) (x : UInt8) : Option Skb := nlaPut skb type (u8Bytes x)
/-- Put a `u16` attribute (`nla_put_u16`). -/
def nlaPutU16 (skb : Skb) (type : Nat) (x : UInt16) : Option Skb := nlaPut skb type (u16Bytes x)
/-- Put a `u32` attribute (`nla_put_u32`). -/
def nlaPutU32 (skb : Skb) (type : Nat) (x : UInt32) : Option Skb := nlaPut skb type (u32Bytes x)
/-- Put a `u64` attribute (`nla_put_u64_64bit`; no pad attribute on x86). -/
def nlaPutU64 (skb : Skb) (type : Nat) (x : UInt64) : Option Skb := nlaPut skb type (u64Bytes x)
/-- Put a string with its NUL (`nla_put_string`). -/
def nlaPutString (skb : Skb) (type : Nat) (s : Bytes) : Option Skb := nlaPut skb type (s ++ [0])

/-- Open a nested attribute (`nla_nest_start`), returning where it starts. -/
def nlaNestStart (skb : Skb) (type : Nat) : Option (Nat × Skb) :=
  (skb.push (.nest type)).map (skb.toks.length, ·)

/-- Close a nested attribute (`nla_nest_end`). -/
def nlaNestEnd (skb : Skb) : Skb := ⟨skb.cap, skb.toks ++ [.close]⟩

/-- Drop everything from `start` on (`nla_nest_cancel`, `genlmsg_cancel`, `nlmsg_trim`). -/
def Skb.trim (skb : Skb) (start : Nat) : Skb := ⟨skb.cap, skb.toks.take start⟩

/-- Start a message (`genlmsg_put`), returning where it starts. -/
def genlmsgPut (skb : Skb) : Option (Nat × Skb) :=
  (skb.push (.hdr false)).map (skb.toks.length, ·)

/-- Set `NLM_F_DUMP_INTR` in the header that starts at `hdr`. -/
def Skb.setIntr (skb : Skb) (hdr : Nat) : Skb := ⟨skb.cap, skb.toks.set hdr (.hdr true)⟩

@[simp] lemma Skb.len_toks_append (skb : Skb) (ts : List Tok) :
    Skb.len ⟨skb.cap, skb.toks ++ ts⟩ = skb.len + toksSize ts := by
  simp [Skb.len]

lemma Skb.push_eq_some {skb skb' : Skb} {t : Tok} :
    skb.push t = some skb' ↔ skb.len + t.size ≤ skb.cap ∧ skb' = ⟨skb.cap, skb.toks ++ [t]⟩ := by
  unfold Skb.push; split <;> simp_all [eq_comm]

/-- An attribute as a reader of the message sees it. -/
inductive Attr
  | leaf (type : Nat) (data : Bytes)
  | nest (type : Nat) (children : List Attr)
deriving Repr

mutual
/-- Decide equality of attributes. -/
def Attr.decEq : (a b : Attr) → Decidable (a = b)
  | .leaf t d, .leaf t' d' =>
    if h : t = t' ∧ d = d' then isTrue (by rw [h.1, h.2]) else isFalse (by rintro ⟨⟩; simp at h)
  | .nest t cs, .nest t' cs' =>
    match Nat.decEq t t', Attr.decEqList cs cs' with
    | isTrue h, isTrue h' => isTrue (by rw [h, h'])
    | isFalse h, _ => isFalse (by rintro ⟨⟩; exact h rfl)
    | _, isFalse h' => isFalse (by rintro ⟨⟩; exact h' rfl)
  | .leaf _ _, .nest _ _ => isFalse Attr.noConfusion
  | .nest _ _, .leaf _ _ => isFalse Attr.noConfusion
/-- Decide equality of attribute lists. -/
def Attr.decEqList : (as bs : List Attr) → Decidable (as = bs)
  | [], [] => isTrue rfl
  | a :: as, b :: bs =>
    match Attr.decEq a b, Attr.decEqList as bs with
    | isTrue h, isTrue h' => isTrue (by rw [h, h'])
    | isFalse h, _ => isFalse (by rintro ⟨⟩; exact h rfl)
    | _, isFalse h' => isFalse (by rintro ⟨⟩; exact h' rfl)
  | [], _ :: _ => isFalse List.noConfusion
  | _ :: _, [] => isFalse List.noConfusion
end

instance : DecidableEq Attr := Attr.decEq

mutual
/-- The pieces an attribute is written as. -/
def Attr.render : Attr → List Tok
  | .leaf t d => [.put t d]
  | .nest t cs => .nest t :: Attr.renderList cs ++ [.close]
/-- The pieces a list of attributes is written as. -/
def Attr.renderList : List Attr → List Tok
  | [] => []
  | a :: as => a.render ++ Attr.renderList as
end

/-- Read attributes up to the close of the enclosing nest or the end of the message,
returning them and what follows; `none` when the pieces are not well nested. -/
def readAttrs : Nat → List Tok → Option (List Attr × List Tok)
  | 0, _ => none
  | _ + 1, [] => some ([], [])
  | _ + 1, .close :: rest => some ([], .close :: rest)
  | _ + 1, .hdr _ :: _ => none
  | f + 1, .put t d :: rest => (readAttrs f rest).map fun (as, r) => (.leaf t d :: as, r)
  | f + 1, .nest t :: rest =>
    match readAttrs f rest with
    | some (cs, .close :: r) => (readAttrs f r).map fun (as, r') => (.nest t cs :: as, r')
    | _ => none

/-- Read a whole message: a header and the attributes after it. -/
def readMsg (toks : List Tok) : Option (List Attr) :=
  match toks with
  | .hdr _ :: rest =>
    match readAttrs (rest.length + 1) rest with
    | some (as, []) => some as
    | _ => none
  | _ => none

/-- Reading what was rendered gives back the attributes, and stops at a close or at the
end, given fuel beyond the number of pieces read. -/
lemma readAttrs_renderList (rest : List Tok) (hrest : rest = [] ∨ rest.head? = some .close) :
    ∀ (f : Nat) (as : List Attr), (Attr.renderList as).length < f →
      readAttrs f (Attr.renderList as ++ rest) = some (as, rest)
  | 0, _, h => absurd h (Nat.not_lt_zero _)
  | f + 1, [], _ => by
    rcases hrest with rfl | h
    · rfl
    · obtain ⟨r, rfl⟩ : ∃ r, rest = .close :: r := by
        cases rest with
        | nil => simp at h
        | cons t r => simp at h; exact ⟨r, by rw [h]⟩
      rfl
  | f + 1, .leaf t d :: as, h => by
    simp only [Attr.renderList, Attr.render, List.cons_append, List.nil_append, List.length_cons,
      List.length_append] at h ⊢
    rw [readAttrs, readAttrs_renderList rest hrest f as (by omega)]
    rfl
  | f + 1, .nest t cs :: as, h => by
    simp only [Attr.renderList, Attr.render, List.cons_append, List.length_cons,
      List.length_append, List.append_assoc, List.singleton_append, List.nil_append] at h ⊢
    rw [readAttrs, readAttrs_renderList (.close :: (Attr.renderList as ++ rest)) (by simp) f cs
      (by omega)]
    simp only [readAttrs_renderList rest hrest f as (by omega), Option.map_some']

/-- Reading a message gives back the attributes that were rendered after its header. -/
theorem readMsg_render (intr : Bool) (as : List Attr) :
    readMsg (.hdr intr :: Attr.renderList as) = some as := by
  simp only [readMsg]
  rw [show Attr.renderList as = Attr.renderList as ++ [] from (List.append_nil _).symm,
    readAttrs_renderList [] (.inl rfl) _ as (by simp)]

end WireGuardNetlink
