import WireGuardNetlink.Basic

/-!
# Netlink attributes

The attribute codec of a request, as the netlink library (`lib/nlattr.c`) runs it for
`netlink.c`: walking the attributes of a buffer (`nla_for_each_attr`), checking each against a
policy (`validate_nla`), filling the attribute table (`nla_parse`), reading payloads
(`nla_data`, `nla_get_u*`) and wiping them (`memzero_explicit`). The writer side, used by a
client to build a request, is `nlaEncode`; `nlaAttrs_encode` is the round trip between the two.

An attribute is a 4-byte header (a 16-bit length counting the header, a 16-bit type whose top
two bits are flags) followed by the payload, padded to a multiple of four. A parsed attribute is
kept as the pointer the kernel keeps: its type and the place of its payload in the buffer, so
that a wipe through it changes the request the caller sees.
-/

namespace WireGuardNetlink

/-- `NLA_HDRLEN`. -/
def NLA_HDRLEN : Nat := 4

/-- Round up to the 4-byte attribute alignment (`NLA_ALIGN`). -/
def nlaAlign (n : Nat) : Nat := (n + 3) / 4 * 4

/-- The room one attribute with a payload of `len` bytes takes (`nla_total_size`). -/
def nlaTotalSize (len : Nat) : Nat := nlaAlign (NLA_HDRLEN + len)

/-- A parsed attribute: the `struct nlattr *` that `nla_parse` stores, as the type it reads
(`nla_type`, flags masked) and the offset and length of its payload in the message buffer. -/
structure Nlattr where
  type : Nat
  off : Nat
  len : Nat
deriving DecidableEq, Repr

/-- The payload bytes an attribute points to (`nla_data`, `nla_len`). -/
def nlaData (buf : Bytes) (a : Nlattr) : Bytes := (buf.drop a.off).take a.len

/-- An attribute within the buffer has as many payload bytes as its length says. -/
lemma length_nlaData {buf : Bytes} {a : Nlattr} (h : a.off + a.len ≤ buf.length) :
    (nlaData buf a).length = a.len := by
  simp only [nlaData, List.length_take, List.length_drop]; omega

/-- The attribute whose header is at `pos` with `rem` bytes left, when `nla_ok` accepts it:
the header fits, and its length covers the header and stays within what is left. -/
def nlaAt (buf : Bytes) (pos rem : Nat) : Option Nlattr :=
  let l := leValue ((buf.drop pos).take 2)
  if NLA_HDRLEN ≤ rem ∧ NLA_HDRLEN ≤ l ∧ l ≤ rem then
    some ⟨leValue ((buf.drop (pos + 2)).take 2) % 16384, pos + NLA_HDRLEN, l - NLA_HDRLEN⟩
  else none

/-- The attributes in `rem` bytes of `buf` from `pos`, as `nla_for_each_attr` visits them: it
stops at the first header that `nla_ok` rejects and ignores what is left, and steps over each
attribute with its padding (`nla_next`). The `fuel` bounds the number of headers; each takes at
least four bytes, so `rem` is enough. -/
def nlaForEachAttr (buf : Bytes) : Nat → Nat → Nat → List Nlattr
  | 0, _, _ => []
  | fuel + 1, pos, rem =>
    match nlaAt buf pos rem with
    | none => []
    | some a => a :: nlaForEachAttr buf fuel (pos + nlaTotalSize a.len) (rem - nlaTotalSize a.len)

/-- No header fits in fewer than four bytes. -/
@[simp] lemma nlaAt_of_lt (buf : Bytes) (pos : Nat) {rem : Nat} (h : rem < NLA_HDRLEN) :
    nlaAt buf pos rem = none := by
  simp only [nlaAt]; rw [if_neg (by omega)]

/-- A header `nla_ok` accepts lies within what is left, and its payload follows it. -/
lemma nlaAt_eq_some {buf : Bytes} {pos rem : Nat} {a : Nlattr} (h : nlaAt buf pos rem = some a) :
    a.off = pos + NLA_HDRLEN ∧ NLA_HDRLEN + a.len ≤ rem := by
  simp only [nlaAt] at h
  split at h
  · cases h; exact ⟨rfl, by dsimp only; omega⟩
  · cases h

/-- A header accepted with some bytes left is accepted, as the same attribute, with any amount
left that still holds it. -/
lemma nlaAt_of_le {buf : Bytes} {pos rem rem' : Nat} {a : Nlattr} (h : nlaAt buf pos rem = some a)
    (hle : NLA_HDRLEN + a.len ≤ rem') : nlaAt buf pos rem' = some a := by
  simp only [nlaAt] at h ⊢
  split at h
  · cases h; rw [if_pos (by simp only [NLA_HDRLEN] at *; omega)]
  · cases h

/-- A header is read from the bytes at and after its position. -/
lemma nlaAt_congr {buf buf' : Bytes} {pos : Nat} (h : buf'.drop pos = buf.drop pos) (rem : Nat) :
    nlaAt buf' pos rem = nlaAt buf pos rem := by
  have h2 : buf'.drop (pos + 2) = buf.drop (pos + 2) := by rw [← List.drop_drop, h, List.drop_drop]
  simp only [nlaAt, h, h2]

/-- Two buffers that agree from a position on agree from every later one. -/
lemma drop_congr_of_le {buf buf' : Bytes} {pos n : Nat} (h : buf'.drop pos = buf.drop pos)
    (hn : pos ≤ n) : buf'.drop n = buf.drop n := by
  rw [← Nat.add_sub_cancel' hn, ← List.drop_drop, h, List.drop_drop]

/-- The walk reads only the bytes from its start on. -/
lemma nlaForEachAttr_congr {buf buf' : Bytes} :
    ∀ (fuel pos rem : Nat), buf'.drop pos = buf.drop pos →
      nlaForEachAttr buf' fuel pos rem = nlaForEachAttr buf fuel pos rem
  | 0, _, _, _ => rfl
  | fuel + 1, pos, rem, h => by
    simp only [nlaForEachAttr, nlaAt_congr h]
    split
    · rfl
    · rw [nlaForEachAttr_congr fuel _ _ (drop_congr_of_le h (Nat.le_add_right _ _))]

/-- Every attribute the walk finds lies within the bytes it walks. -/
lemma mem_nlaForEachAttr {buf : Bytes} :
    ∀ {fuel pos rem : Nat} {x : Nlattr}, x ∈ nlaForEachAttr buf fuel pos rem →
      pos + NLA_HDRLEN ≤ x.off ∧ x.off + x.len ≤ pos + rem
  | 0, _, _, _, h => by simp [nlaForEachAttr] at h
  | fuel + 1, pos, rem, x, h => by
    simp only [nlaForEachAttr] at h
    split at h
    · simp at h
    · rename_i a ha
      obtain ⟨hoff, hlen⟩ := nlaAt_eq_some ha
      have h4 : NLA_HDRLEN = 4 := rfl
      rcases List.mem_cons.1 h with rfl | h
      · omega
      · have := mem_nlaForEachAttr h
        omega

/-- The fuel of a walk does not matter once it covers the bytes walked, as each header takes
four of them. -/
lemma nlaForEachAttr_fuel {buf : Bytes} :
    ∀ {fuel fuel' pos rem : Nat}, rem ≤ fuel → rem ≤ fuel' →
      nlaForEachAttr buf fuel pos rem = nlaForEachAttr buf fuel' pos rem
  | 0, 0, _, _, _, _ => rfl
  | 0, _ + 1, pos, rem, h, _ => by
    rw [Nat.le_zero.1 h]; simp [nlaForEachAttr, nlaAt_of_lt _ _ (show 0 < NLA_HDRLEN by decide)]
  | _ + 1, 0, pos, rem, _, h => by
    rw [Nat.le_zero.1 h]; simp [nlaForEachAttr, nlaAt_of_lt _ _ (show 0 < NLA_HDRLEN by decide)]
  | fuel + 1, fuel' + 1, pos, rem, h, h' => by
    simp only [nlaForEachAttr]
    split
    · rfl
    · rename_i a ha
      have := (nlaAt_eq_some ha).2
      have hT : NLA_HDRLEN + a.len ≤ nlaTotalSize a.len := by
        simp only [nlaTotalSize, nlaAlign]; omega
      have h4 : NLA_HDRLEN = 4 := rfl
      rw [@nlaForEachAttr_fuel buf fuel fuel' _ _ (by omega) (by omega)]

/-- Cutting the walked bytes just before an attribute the walk finds leaves the attributes
before it. -/
lemma nlaForEachAttr_trim {buf : Bytes} :
    ∀ (pre : List Nlattr) {fuel pos rem : Nat} {b : Nlattr} {post : List Nlattr},
      nlaForEachAttr buf fuel pos rem = pre ++ b :: post →
      nlaForEachAttr buf fuel pos (b.off - NLA_HDRLEN - pos) = pre
  | pre, 0, _, _, _, _, h => by simp [nlaForEachAttr] at h
  | [], fuel + 1, pos, rem, b, post, h => by
    simp only [nlaForEachAttr, List.nil_append] at h
    split at h
    · cases h
    · rename_i a ha
      cases h
      rw [(nlaAt_eq_some ha).1, show pos + NLA_HDRLEN - NLA_HDRLEN - pos = 0 by omega]
      simp [nlaForEachAttr, nlaAt_of_lt _ _ (show 0 < NLA_HDRLEN by decide)]
  | a :: pre, fuel + 1, pos, rem, b, post, h => by
    simp only [nlaForEachAttr, List.cons_append] at h
    split at h
    · cases h
    · rename_i a' ha
      obtain ⟨rfl, hrest⟩ := List.cons.inj h
      have hb := mem_nlaForEachAttr (hrest ▸ List.mem_append_right pre (List.mem_cons_self b post))
      have hT : NLA_HDRLEN + a'.len ≤ nlaTotalSize a'.len := by
        simp only [nlaTotalSize, nlaAlign]; omega
      rw [nlaForEachAttr, nlaAt_of_le ha (by omega)]
      dsimp only
      rw [show b.off - NLA_HDRLEN - pos - nlaTotalSize a'.len =
        b.off - NLA_HDRLEN - (pos + nlaTotalSize a'.len) by omega, nlaForEachAttr_trim pre hrest]

/-- The attributes of the `len` bytes of `buf` at `pos`. -/
def nlaAttrs (buf : Bytes) (pos len : Nat) : List Nlattr := nlaForEachAttr buf len pos len

/-- The attributes nested in `a` (`nla_for_each_nested`). -/
def nlaNested (buf : Bytes) (a : Nlattr) : List Nlattr := nlaAttrs buf a.off a.len

/-- The attribute kinds the policy tables of `netlink.c` use (`NLA_*`). -/
inductive NlaType
  | unspec | u8 | u16 | u32 | u64 | nulString | nested
deriving DecidableEq, Repr

/-- One entry of a policy table (`struct nla_policy`); absent entries are zero, `unspec`. -/
structure NlaPolicy where
  type : NlaType := .unspec
  len : Nat := 0
deriving DecidableEq, Repr

/-- The minimum payload of each kind (`nla_attr_minlen`). -/
def NlaType.minLen : NlaType → Nat
  | .u8 => 1 | .u16 => 2 | .u32 => 4 | .u64 => 8 | .nested => NLA_HDRLEN
  | .unspec | .nulString => 0

/-- The policy check of one attribute (`validate_nla`): `0` or a negative error. A string
must hold a NUL within its bound and, without its trailing NUL, fit the bound; a nested
attribute is empty or holds at least a header; any other attribute must reach the policy's
length or its kind's minimum. -/
def validateNla (buf : Bytes) (a : Nlattr) (pt : NlaPolicy) : Int :=
  let data := nlaData buf a
  match pt.type with
  | .nulString =>
    let minlen := if pt.len ≠ 0 then min a.len (pt.len + 1) else a.len
    if minlen = 0 ∨ 0 ∉ data.take minlen then -EINVAL
    else if a.len < 1 then -ERANGE
    else
      let attrlen := if data.getLast? = some 0 then a.len - 1 else a.len
      if pt.len ≠ 0 ∧ pt.len < attrlen then -ERANGE else 0
  | .nested => if a.len = 0 ∨ NLA_HDRLEN ≤ a.len then 0 else -ERANGE
  | t =>
    let minlen := if pt.len ≠ 0 then pt.len else t.minLen
    if a.len < minlen then -ERANGE else 0

/-- An attribute table (`struct nlattr *tb[maxtype + 1]`), indexed by type. -/
abbrev AttrTable := Nat → Option Nlattr

/-- Fill a table from a list of attributes (`nla_parse`): attributes outside `1..maxtype`
are skipped, each other one is validated and stored over any earlier one of its type, and
the first that fails validation fails the whole parse. -/
def nlaParseAttrs (buf : Bytes) (maxtype : Nat) (policy : Nat → NlaPolicy) :
    List Nlattr → AttrTable → Except Int AttrTable
  | [], tb => .ok tb
  | a :: as, tb =>
    if 0 < a.type ∧ a.type ≤ maxtype then
      if validateNla buf a (policy a.type) < 0 then .error (validateNla buf a (policy a.type))
      else nlaParseAttrs buf maxtype policy as (fun t => if t = a.type then some a else tb t)
    else nlaParseAttrs buf maxtype policy as tb

/-- Parse the `len` bytes of `buf` at `pos` (`nla_parse`). -/
def nlaParse (buf : Bytes) (maxtype : Nat) (policy : Nat → NlaPolicy) (pos len : Nat) :
    Except Int AttrTable :=
  nlaParseAttrs buf maxtype policy (nlaAttrs buf pos len) (fun _ => none)

/-- Parse the payload of a nested attribute (`nla_parse_nested`). -/
def nlaParseNested (buf : Bytes) (maxtype : Nat) (policy : Nat → NlaPolicy) (a : Nlattr) :
    Except Int AttrTable :=
  nlaParse buf maxtype policy a.off a.len

/-- Every attribute a parse stores is one of those it walked, or was in the table before. -/
lemma nlaParseAttrs_mem {buf : Bytes} {maxtype : Nat} {policy : Nat → NlaPolicy} :
    ∀ {l : List Nlattr} {tb0 tb : AttrTable}, nlaParseAttrs buf maxtype policy l tb0 = .ok tb →
      ∀ t x, tb t = some x → x ∈ l ∨ tb0 t = some x
  | [], tb0, tb, h, t, x, hx => by cases h; exact .inr hx
  | a :: l, tb0, tb, h, t, x, hx => by
    simp only [nlaParseAttrs] at h
    split at h
    · split at h
      · cases h
      · rcases nlaParseAttrs_mem h t x hx with hl | h0
        · exact .inl (List.mem_cons_of_mem _ hl)
        · by_cases ht : t = a.type
          · simp only [ht, if_true, Option.some.injEq] at h0; exact .inl (h0 ▸ List.mem_cons_self _ _)
          · simp only [ht, if_false] at h0; exact .inr h0
    · rcases nlaParseAttrs_mem h t x hx with hl | h0
      · exact .inl (List.mem_cons_of_mem _ hl)
      · exact .inr h0

/-- A parse fails only with a negative error. -/
lemma nlaParseAttrs_error {buf : Bytes} {maxtype : Nat} {policy : Nat → NlaPolicy} :
    ∀ {l : List Nlattr} {tb0 : AttrTable} {e : Int},
      nlaParseAttrs buf maxtype policy l tb0 = .error e → e < 0
  | [], _, _, h => by cases h
  | a :: l, tb0, e, h => by
    simp only [nlaParseAttrs] at h
    split at h
    · split at h
      · cases h; assumption
      · exact nlaParseAttrs_error h
    · exact nlaParseAttrs_error h

/-- Every attribute of a nested parse lies within the payload of the nest. -/
lemma nlaParseNested_bounds {buf : Bytes} {maxtype : Nat} {policy : Nat → NlaPolicy} {a : Nlattr}
    {tb : AttrTable} (h : nlaParseNested buf maxtype policy a = .ok tb) {t : Nat} {x : Nlattr}
    (hx : tb t = some x) : a.off + NLA_HDRLEN ≤ x.off ∧ x.off + x.len ≤ a.off + a.len := by
  rcases nlaParseAttrs_mem h t x hx with hl | h0
  · exact mem_nlaForEachAttr hl
  · cases h0

/-- The fold of `nla_parse` read declaratively, from any table: it fails at the first attribute
with a type in `1..maxtype` that fails its policy, with that attribute's error; otherwise a type
in range holds the last attribute of that type, or what it held before there was one, and any
other type what it held before. -/
lemma nlaParseAttrs_eq (buf : Bytes) (maxtype : Nat) (policy : Nat → NlaPolicy) :
    ∀ (l : List Nlattr) (tb0 : AttrTable), nlaParseAttrs buf maxtype policy l tb0 =
      (l.find? fun a => decide (0 < a.type ∧ a.type ≤ maxtype ∧
          validateNla buf a (policy a.type) < 0)).elim
        (.ok fun t => if 0 < t ∧ t ≤ maxtype then (l.filter (·.type = t)).getLast?.or (tb0 t)
          else tb0 t)
        (fun a => .error (validateNla buf a (policy a.type)))
  | [], tb0 => by
    simp only [nlaParseAttrs, List.find?_nil, Option.elim_none, List.filter_nil, List.getLast?_nil,
      Option.none_or, ite_self]
  | a :: l, tb0 => by
    simp only [nlaParseAttrs]
    by_cases hr : 0 < a.type ∧ a.type ≤ maxtype
    · by_cases hv : validateNla buf a (policy a.type) < 0
      · rw [if_pos hr, if_pos hv, List.find?_cons_of_pos _ (by simp [hr, hv])]
        rfl
      · rw [if_pos hr, if_neg hv, nlaParseAttrs_eq buf maxtype policy l, List.find?_cons_of_neg _ (by simp [hv])]
        cases (l.find? _)
        · simp only [Option.elim_none, Except.ok.injEq]
          funext t
          by_cases ht : a.type = t
          · subst ht
            have hF : (a :: l).filter (·.type = a.type) = a :: l.filter (·.type = a.type) := by
              simp [List.filter_cons]
            simp only [hr, and_self, if_true, hF, List.getLast?_cons]
            cases (l.filter (·.type = a.type)).getLast? <;> rfl
          · simp [List.filter_cons, ht, Ne.symm ht]
        · rfl
    · rw [if_neg hr, nlaParseAttrs_eq buf maxtype policy l,
        List.find?_cons_of_neg _ (by simp only [decide_eq_true_eq]; tauto)]
      cases (l.find? _)
      · simp only [Option.elim_none, Except.ok.injEq]
        funext t
        split_ifs with ht
        · have hne : a.type ≠ t := fun h => hr (h ▸ ht)
          simp [List.filter_cons, hne]
        · rfl
      · rfl

/-- `nla_parse` read declaratively: it fails exactly when an attribute with a type in
`1..maxtype` fails its policy, with the error of the first such attribute; otherwise each type
in range holds the last attribute of that type, and every other type holds nothing. -/
lemma nlaParse_spec (buf : Bytes) (maxtype : Nat) (policy : Nat → NlaPolicy) (pos len : Nat) :
    nlaParse buf maxtype policy pos len =
      ((nlaAttrs buf pos len).find? fun a => decide (0 < a.type ∧ a.type ≤ maxtype ∧
          validateNla buf a (policy a.type) < 0)).elim
        (.ok fun t => if 0 < t ∧ t ≤ maxtype then ((nlaAttrs buf pos len).filter (·.type = t)).getLast?
          else none)
        (fun a => .error (validateNla buf a (policy a.type))) := by
  rw [nlaParse, nlaParseAttrs_eq]
  simp only [Option.or_none]

/-- Two 4-byte attributes of type 1, holding 5 and then 7: the table holds the second. -/
example : (nlaParse [8, 0, 1, 0, 5, 0, 0, 0, 8, 0, 1, 0, 7, 0, 0, 0] 3 (fun _ => {}) 0 16).toOption.bind
    (fun tb => tb 1) = some ⟨1, 12, 4⟩ := by decide

/-- Read a `u8` attribute (`nla_get_u8`). -/
def nlaGetU8 (buf : Bytes) (a : Nlattr) : UInt8 := getU8 (nlaData buf a)
/-- Read a `u16` attribute (`nla_get_u16`). -/
def nlaGetU16 (buf : Bytes) (a : Nlattr) : UInt16 := getU16 (nlaData buf a)
/-- Read a `u32` attribute (`nla_get_u32`). -/
def nlaGetU32 (buf : Bytes) (a : Nlattr) : UInt32 := getU32 (nlaData buf a)

/-- Overwrite `len` bytes at `off` with zeros (`memzero_explicit`). -/
def memzeroExplicit : Bytes → Nat → Nat → Bytes
  | [], _, _ => []
  | b :: bs, 0, 0 => b :: bs
  | _ :: bs, 0, len + 1 => 0 :: memzeroExplicit bs 0 len
  | b :: bs, off + 1, len => b :: memzeroExplicit bs off len

/-- Wipe the payload of an attribute. -/
def nlaWipe (buf : Bytes) (a : Nlattr) : Bytes := memzeroExplicit buf a.off a.len

@[simp] lemma length_memzeroExplicit (buf : Bytes) (off len : Nat) :
    (memzeroExplicit buf off len).length = buf.length := by
  induction buf generalizing off len with
  | nil => rfl
  | cons b bs ih => rcases off with _ | off <;> rcases len with _ | len <;> simp [memzeroExplicit, ih]

/-- A wipe leaves every byte outside its range as it was. -/
lemma getElem?_memzeroExplicit (buf : Bytes) (off len i : Nat) (h : i < off ∨ off + len ≤ i) :
    (memzeroExplicit buf off len)[i]? = buf[i]? := by
  induction buf generalizing off len i with
  | nil => rfl
  | cons b bs ih =>
    match off, len, i, h with
    | 0, 0, _, _ => rfl
    | 0, _ + 1, 0, h => exact absurd h (by omega)
    | 0, len + 1, i + 1, h =>
      simpa only [memzeroExplicit, List.getElem?_cons_succ] using ih 0 len i (by omega)
    | _ + 1, _, 0, _ => simp only [memzeroExplicit, List.getElem?_cons_zero]
    | off + 1, len, i + 1, h =>
      simpa only [memzeroExplicit, List.getElem?_cons_succ] using ih off len i (by omega)

/-- A wipe leaves the bytes after its range as they were. -/
lemma drop_memzeroExplicit (buf : Bytes) {off len n : Nat} (h : off + len ≤ n) :
    (memzeroExplicit buf off len).drop n = buf.drop n :=
  List.ext_getElem? fun i => by
    rw [List.getElem?_drop, List.getElem?_drop, getElem?_memzeroExplicit _ _ _ _ (.inr (by omega))]

/-- One attribute as a client writes it (`nla_put`): header, payload and zero padding. -/
def nlaPutBytes (type : Nat) (data : Bytes) : Bytes :=
  leBytes 2 (NLA_HDRLEN + data.length) ++ leBytes 2 type ++ data ++
    List.replicate (nlaTotalSize data.length - (NLA_HDRLEN + data.length)) 0

/-- Attributes written one after another. -/
def nlaEncode : List (Nat × Bytes) → Bytes
  | [] => []
  | (t, d) :: as => nlaPutBytes t d ++ nlaEncode as

@[simp] lemma length_nlaPutBytes (t : Nat) (d : Bytes) :
    (nlaPutBytes t d).length = nlaTotalSize d.length := by
  simp only [nlaPutBytes, List.length_append, length_leBytes, List.length_replicate, nlaTotalSize,
    nlaAlign, NLA_HDRLEN]
  omega

/-- An attribute a header can describe: no flag bits in its type, its length within 16 bits. -/
def NlaFits (a : Nat × Bytes) : Prop := a.1 < 16384 ∧ NLA_HDRLEN + a.2.length < 65536

/-- The walk over encoded attributes finds each one with its type and payload. -/
lemma nlaForEachAttr_encode (post : Bytes) :
    ∀ (as : List (Nat × Bytes)) (pre : Bytes) (fuel : Nat), (∀ a ∈ as, NlaFits a) →
      as.length ≤ fuel →
      (nlaForEachAttr (pre ++ nlaEncode as ++ post) fuel pre.length (nlaEncode as).length).map
        (fun a => (a.type, nlaData (pre ++ nlaEncode as ++ post) a)) = as
  | [], pre, fuel, _, _ => by
    cases fuel <;> simp [nlaEncode, nlaForEachAttr, nlaAt_of_lt _ _ (show 0 < NLA_HDRLEN by decide)]
  | (t, d) :: as, pre, fuel + 1, hfit, hlen => by
    obtain ⟨ht, hd⟩ := hfit (t, d) (List.mem_cons_self _ _)
    have hbuf : pre ++ nlaEncode ((t, d) :: as) ++ post =
        (pre ++ nlaPutBytes t d) ++ nlaEncode as ++ post := by simp [nlaEncode]
    have hdrop : (pre ++ nlaEncode ((t, d) :: as) ++ post).drop pre.length =
        leBytes 2 (NLA_HDRLEN + d.length) ++ (leBytes 2 t ++ (d ++
          (List.replicate (nlaTotalSize d.length - (NLA_HDRLEN + d.length)) 0 ++
            (nlaEncode as ++ post)))) := by
      simp [nlaEncode, nlaPutBytes]
    have hl : leValue (((pre ++ nlaEncode ((t, d) :: as) ++ post).drop pre.length).take 2) =
        NLA_HDRLEN + d.length := by
      rw [hdrop, List.take_left' (length_leBytes _ _), leValue_leBytes]
      exact Nat.mod_eq_of_lt hd
    have htype : leValue (((pre ++ nlaEncode ((t, d) :: as) ++ post).drop (pre.length + 2)).take 2)
        % 16384 = t := by
      rw [← List.drop_drop, hdrop, List.drop_left' (length_leBytes _ _),
        List.take_left' (length_leBytes _ _), leValue_leBytes]
      omega
    have hdata : (((pre ++ nlaEncode ((t, d) :: as) ++ post).drop (pre.length + NLA_HDRLEN)).take
        d.length) = d := by
      rw [← List.drop_drop, hdrop, show NLA_HDRLEN = 2 + 2 from rfl, ← List.drop_drop,
        List.drop_left' (length_leBytes _ _), List.drop_left' (length_leBytes _ _),
        List.take_left' rfl]
    have hrem : (nlaEncode ((t, d) :: as)).length = nlaTotalSize d.length + (nlaEncode as).length := by
      simp [nlaEncode]
    have hat : nlaAt (pre ++ nlaEncode ((t, d) :: as) ++ post) pre.length
        (nlaEncode ((t, d) :: as)).length = some ⟨t, pre.length + NLA_HDRLEN, d.length⟩ := by
      have : NLA_HDRLEN + d.length ≤ nlaTotalSize d.length := by
        simp only [nlaTotalSize, nlaAlign]; omega
      rw [nlaAt, hl, hrem, if_pos (by simp only [NLA_HDRLEN] at this ⊢; omega), htype,
        Nat.add_sub_cancel_left]
    have ih := nlaForEachAttr_encode post as (pre ++ nlaPutBytes t d) fuel
      (fun a ha => hfit a (List.mem_cons_of_mem _ ha)) (by simpa using hlen)
    rw [← hbuf] at ih
    rw [nlaForEachAttr, hat, List.map_cons]
    congr 1
    · exact Prod.ext rfl hdata
    · rw [show pre.length + nlaTotalSize d.length = (pre ++ nlaPutBytes t d).length by simp, hrem,
        Nat.add_sub_cancel_left]
      exact ih

/-- Round trip of the codec: parsing what `nlaEncode` wrote, wherever it sits in a buffer,
gives back every attribute with its type and payload. -/
theorem nlaAttrs_encode (pre post : Bytes) (as : List (Nat × Bytes)) (h : ∀ a ∈ as, NlaFits a) :
    (nlaAttrs (pre ++ nlaEncode as ++ post) pre.length (nlaEncode as).length).map
      (fun a => (a.type, nlaData (pre ++ nlaEncode as ++ post) a)) = as := by
  refine nlaForEachAttr_encode post as pre _ h ?_
  induction as with
  | nil => simp
  | cons a as ih =>
    obtain ⟨t, d⟩ := a
    have : 4 ≤ nlaTotalSize d.length := by simp only [nlaTotalSize, nlaAlign, NLA_HDRLEN]; omega
    simp only [nlaEncode, List.length_append, length_nlaPutBytes, List.length_cons]
    have := ih (fun a ha => h a (List.mem_cons_of_mem _ ha))
    omega

end WireGuardNetlink
