import WireGuardNetlink.PeerList

/-!
# The allowed-IP table

Modelled from the spec: the longest-prefix-match table of `allowedips.c`, which is not among
the sources. `netlink.c` uses it through four calls: insert a prefix for a peer
(`wg_allowedips_insert_v4`/`_v6`), remove every prefix of a peer (`wg_allowedips_remove_by_peer`)
and walk the prefixes of a peer with a resumable cursor (`wg_allowedips_walk_by_peer`). The
spec describes it as "a prefix-table insert/remove/ordered-walk-with-resumable-cursor interface
keyed by peer" whose entries are "(address family, prefix, length, owning peer)".

The table is kept as its entries in walk order, each prefix at most once with its owner, and a
generation `seq` that every change advances. The cursor is what `get_peer` reads of
`struct allowedips_cursor`: its `seq`, zero until a walk starts (it is `kzalloc`ed and cleared
by `memset` between peers), and how far the walk got. A walk resumes where the last one stopped
as long as the table has not changed since it started; once it has, the walk ends there.
-/

namespace WireGuardNetlink

/-- A prefix as the table stores it: family, address with the host bits cleared, length. -/
structure AllowedIp where
  family : Nat
  addr : Bytes
  cidr : UInt8
deriving DecidableEq, Repr

/-- Keep the top `bits` bits of a byte (`bits ≤ 8`). -/
def maskByte (b : UInt8) (bits : Nat) : UInt8 :=
  UInt8.ofNat (b.toNat / 2 ^ (8 - bits) * 2 ^ (8 - bits))

/-- Clear every bit of an address past the first `cidr`. -/
def maskAddr : Bytes → Nat → Bytes
  | [], _ => []
  | b :: bs, cidr => maskByte b (min cidr 8) :: maskAddr bs (cidr - 8)

@[simp] lemma length_maskAddr (bs : Bytes) (cidr : Nat) : (maskAddr bs cidr).length = bs.length := by
  induction bs generalizing cidr <;> simp [maskAddr, *]

/-- Modelled from the spec: the table of allowed prefixes, with its generation. -/
structure AllowedIps where
  entries : List (AllowedIp × PeerId)
  seq : Nat
  seq_pos : 0 < seq

/-- Modelled from the spec: an empty table (`wg_allowedips_init`). -/
def AllowedIps.init : AllowedIps := ⟨[], 1, Nat.one_pos⟩

/-- The prefixes a peer owns, in walk order. -/
def AllowedIps.ownedBy (t : AllowedIps) (peer : PeerId) : List AllowedIp :=
  (t.entries.filter (·.2 = peer)).map (·.1)

/-- Modelled from the spec: insert a prefix for a peer (`wg_allowedips_insert_v4`/`_v6`). The
prefix is masked to its length; a prefix already in the table changes owner, a new one needs a
node, whose allocation may fail (`-ENOMEM`, table unchanged). The generation advances either way. -/
def AllowedIps.insert (t : AllowedIps) (family : Nat) (ip : Bytes) (cidr : UInt8)
    (peer : PeerId) (allocFails : Bool) : Int × AllowedIps :=
  let key : AllowedIp := ⟨family, maskAddr ip cidr.toNat, cidr⟩
  if t.entries.any (·.1 = key) then
    (0, ⟨t.entries.map fun e => if e.1 = key then (key, peer) else e, t.seq + 1, Nat.succ_pos _⟩)
  else if allocFails then (-ENOMEM, ⟨t.entries, t.seq + 1, Nat.succ_pos _⟩)
  else (0, ⟨t.entries ++ [(key, peer)], t.seq + 1, Nat.succ_pos _⟩)

/-- Modelled from the spec: insert an IPv4 prefix (`wg_allowedips_insert_v4`). -/
def wgAllowedipsInsertV4 (t : AllowedIps) (ip : Bytes) (cidr : UInt8) (peer : PeerId)
    (allocFails : Bool) : Int × AllowedIps :=
  t.insert AF_INET ip cidr peer allocFails

/-- Modelled from the spec: insert an IPv6 prefix (`wg_allowedips_insert_v6`). -/
def wgAllowedipsInsertV6 (t : AllowedIps) (ip : Bytes) (cidr : UInt8) (peer : PeerId)
    (allocFails : Bool) : Int × AllowedIps :=
  t.insert AF_INET6 ip cidr peer allocFails

/-- Modelled from the spec: drop every prefix of a peer (`wg_allowedips_remove_by_peer`). -/
def wgAllowedipsRemoveByPeer (t : AllowedIps) (peer : PeerId) : AllowedIps :=
  ⟨t.entries.filter (·.2 ≠ peer), t.seq + 1, Nat.succ_pos _⟩

/-- The part of `struct allowedips_cursor` the model needs. -/
structure AllowedIpsCursor where
  seq : Nat := 0
  pos : Nat := 0
deriving DecidableEq, Repr

section Walk

variable {σ : Type}

/-- Run a callback over prefixes until it fails: how many it took, whether it took all, and
the state after the last one it took. -/
def walkEntries (func : σ → AllowedIp → Option σ) : List AllowedIp → σ → Nat × Bool × σ
  | [], s => (0, true, s)
  | ip :: ips, s =>
    match func s ip with
    | none => (0, false, s)
    | some s' => let r := walkEntries func ips s'; (r.1 + 1, r.2.1, r.2.2)

/-- Modelled from the spec: walk a peer's prefixes from the cursor
(`wg_allowedips_walk_by_peer`). The first walk stamps the cursor with the table's generation;
a later one on a changed table does nothing. The result is `0` when the walk reached the end,
and the callback's `-EMSGSIZE` otherwise, with the cursor on the prefix that did not fit. -/
def wgAllowedipsWalkByPeer (t : AllowedIps) (cur : AllowedIpsCursor) (peer : PeerId)
    (func : σ → AllowedIp → Option σ) (s : σ) : Int × AllowedIpsCursor × σ :=
  if cur.seq ≠ 0 ∧ cur.seq ≠ t.seq then (0, cur, s)
  else
    let r := walkEntries func ((t.ownedBy peer).drop cur.pos) s
    (if r.2.1 then 0 else -EMSGSIZE, ⟨t.seq, cur.pos + r.1⟩, r.2.2)

end Walk

end WireGuardNetlink
