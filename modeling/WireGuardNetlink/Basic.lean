import Mathlib.Data.List.Basic
import Mathlib.Algebra.Group.Nat.Basic

/-!
# Bytes, words and keys

The machine-level vocabulary of `netlink.c`: byte buffers, the little-endian words that
`nla_put_u16`/`nla_get_u16` and their siblings write and read (the host order of the x86 kernels
the driver runs on), the 32-byte keys of `noise.h`, the attribute numbers of `uapi/wireguard.h`
and the error numbers the handlers return.

The uapi header is not among the sources; its enums list the attributes in the order in which the
policy tables of `netlink.c` index them, and the numbers below follow that order.
-/

namespace WireGuardNetlink

/-- A byte buffer, as the `u8 *` payloads that netlink attributes point into. -/
abbrev Bytes := List UInt8

/-- The low `w` bytes of `n`, least significant first (the store half of `nla_put_u*`). -/
def leBytes : Nat → Nat → Bytes
  | 0, _ => []
  | w + 1, n => UInt8.ofNat (n % 256) :: leBytes w (n / 256)

/-- The number a little-endian byte string stands for (the load half of `nla_get_u*`). -/
def leValue : Bytes → Nat
  | [] => 0
  | b :: bs => b.toNat + 256 * leValue bs

@[simp] lemma length_leBytes (w n : Nat) : (leBytes w n).length = w := by
  induction w generalizing n <;> simp [leBytes, *]

/-- Reading back `w` stored bytes gives the value modulo `2 ^ (8 * w)`. -/
lemma leValue_leBytes (w n : Nat) : leValue (leBytes w n) = n % 256 ^ w := by
  induction w generalizing n with
  | zero => simp [leBytes, leValue, Nat.mod_one]
  | succ w ih =>
    have h : (UInt8.ofNat (n % 256)).toNat = n % 256 :=
      UInt8.toNat_ofNat_of_lt (Nat.mod_lt _ (by decide))
    rw [leBytes, leValue, h, ih, Nat.pow_succ, Nat.mul_comm (256 ^ w) 256, Nat.mod_mul]

@[simp] lemma take_leBytes (w n : Nat) : (leBytes w n).take w = leBytes w n :=
  List.take_of_length_le (by simp)

/-- The payload of `nla_put_u8`. -/
def u8Bytes (x : UInt8) : Bytes := leBytes 1 x.toNat
/-- The payload of `nla_put_u16`. -/
def u16Bytes (x : UInt16) : Bytes := leBytes 2 x.toNat
/-- The payload of `nla_put_u32`. -/
def u32Bytes (x : UInt32) : Bytes := leBytes 4 x.toNat
/-- The payload of `nla_put_u64_64bit`. -/
def u64Bytes (x : UInt64) : Bytes := leBytes 8 x.toNat

/-- Read as `nla_get_u8` does: the first byte of the payload. -/
def getU8 (b : Bytes) : UInt8 := UInt8.ofNat (leValue (b.take 1))
/-- Read as `nla_get_u16` does: the first two bytes of the payload. -/
def getU16 (b : Bytes) : UInt16 := UInt16.ofNat (leValue (b.take 2))
/-- Read as `nla_get_u32` does: the first four bytes of the payload. -/
def getU32 (b : Bytes) : UInt32 := UInt32.ofNat (leValue (b.take 4))

@[simp] lemma getU8_u8Bytes (x : UInt8) : getU8 (u8Bytes x) = x := by
  have h : x.toNat < 256 ^ 1 := x.toNat_lt_size
  apply UInt8.toNat.inj
  rw [getU8, u8Bytes, take_leBytes, leValue_leBytes, Nat.mod_eq_of_lt h,
    UInt8.toNat_ofNat_of_lt x.toNat_lt_size]

@[simp] lemma getU16_u16Bytes (x : UInt16) : getU16 (u16Bytes x) = x := by
  have h : x.toNat < 256 ^ 2 := x.toNat_lt_size
  apply UInt16.toNat.inj
  rw [getU16, u16Bytes, take_leBytes, leValue_leBytes, Nat.mod_eq_of_lt h,
    UInt16.toNat_ofNat_of_lt x.toNat_lt_size]

@[simp] lemma getU32_u32Bytes (x : UInt32) : getU32 (u32Bytes x) = x := by
  have h : x.toNat < 256 ^ 4 := x.toNat_lt_size
  apply UInt32.toNat.inj
  rw [getU32, u32Bytes, take_leBytes, leValue_leBytes, Nat.mod_eq_of_lt h,
    UInt32.toNat_ofNat_of_lt x.toNat_lt_size]

@[simp] lemma length_u8Bytes (x : UInt8) : (u8Bytes x).length = 1 := length_leBytes _ _
@[simp] lemma length_u16Bytes (x : UInt16) : (u16Bytes x).length = 2 := length_leBytes _ _
@[simp] lemma length_u32Bytes (x : UInt32) : (u32Bytes x).length = 4 := length_leBytes _ _
@[simp] lemma length_u64Bytes (x : UInt64) : (u64Bytes x).length = 8 := length_leBytes _ _

/-- A 32-byte key, as the `u8[NOISE_PUBLIC_KEY_LEN]` arrays of `noise.h`; the length is part
of the type, so a key read from an attribute has been checked for it. -/
structure Key where
  bytes : Bytes
  length_bytes : bytes.length = 32
deriving DecidableEq, Repr

/-- The all-zero key (`null_point`, and what `memset(.., 0, ..)` leaves). -/
def Key.zero : Key := ⟨List.replicate 32 0, rfl⟩

/-- The key an attribute payload holds, when it has exactly the key length. -/
def Key.ofBytes? (b : Bytes) : Option Key :=
  if h : b.length = 32 then some ⟨b, h⟩ else none

lemma Key.ofBytes?_eq_some {b : Bytes} {k : Key} : Key.ofBytes? b = some k ↔ b = k.bytes := by
  unfold Key.ofBytes?
  split
  · constructor
    · rintro ⟨⟩; rfl
    · rintro rfl; rfl
  · constructor
    · rintro ⟨⟩
    · rintro rfl; exact absurd k.length_bytes ‹_›

@[simp] lemma Key.ofBytes?_bytes (k : Key) : Key.ofBytes? k.bytes = some k :=
  Key.ofBytes?_eq_some.2 rfl

/-- The public key length `NOISE_PUBLIC_KEY_LEN`. -/
def NOISE_PUBLIC_KEY_LEN : Nat := 32
/-- The symmetric key length `NOISE_SYMMETRIC_KEY_LEN`. -/
def NOISE_SYMMETRIC_KEY_LEN : Nat := 32
/-- The interface name buffer size `IFNAMSIZ`. -/
def IFNAMSIZ : Nat := 16
/-- The address family `AF_INET`. -/
def AF_INET : Nat := 2
/-- The address family `AF_INET6`. -/
def AF_INET6 : Nat := 10
/-- The size of `struct in_addr`. -/
def SIZEOF_IN_ADDR : Nat := 4
/-- The size of `struct in6_addr`. -/
def SIZEOF_IN6_ADDR : Nat := 16
/-- The size of `struct sockaddr`, which is also that of `struct sockaddr_in`. -/
def SIZEOF_SOCKADDR_IN : Nat := 16
/-- The size of `struct sockaddr_in6`. -/
def SIZEOF_SOCKADDR_IN6 : Nat := 28
/-- The size of `struct timespec` on a 64-bit kernel. -/
def SIZEOF_TIMESPEC : Nat := 16

/-- Device attributes, `WGDEVICE_A_*`. -/
def WGDEVICE_A_IFINDEX : Nat := 1
def WGDEVICE_A_IFNAME : Nat := 2
def WGDEVICE_A_PRIVATE_KEY : Nat := 3
def WGDEVICE_A_PUBLIC_KEY : Nat := 4
def WGDEVICE_A_FLAGS : Nat := 5
def WGDEVICE_A_LISTEN_PORT : Nat := 6
def WGDEVICE_A_FWMARK : Nat := 7
def WGDEVICE_A_PEERS : Nat := 8
def WGDEVICE_A_DEV_NETNS_PID : Nat := 9
def WGDEVICE_A_DEV_NETNS_FD : Nat := 10
def WGDEVICE_A_TRANSIT_NETNS_PID : Nat := 11
def WGDEVICE_A_TRANSIT_NETNS_FD : Nat := 12
def WGDEVICE_A_MAX : Nat := 12

/-- Peer attributes, `WGPEER_A_*`. -/
def WGPEER_A_UNSPEC : Nat := 0
def WGPEER_A_PUBLIC_KEY : Nat := 1
def WGPEER_A_PRESHARED_KEY : Nat := 2
def WGPEER_A_FLAGS : Nat := 3
def WGPEER_A_ENDPOINT : Nat := 4
def WGPEER_A_PERSISTENT_KEEPALIVE_INTERVAL : Nat := 5
def WGPEER_A_LAST_HANDSHAKE_TIME : Nat := 6
def WGPEER_A_RX_BYTES : Nat := 7
def WGPEER_A_TX_BYTES : Nat := 8
def WGPEER_A_ALLOWEDIPS : Nat := 9
def WGPEER_A_PROTOCOL_VERSION : Nat := 10
def WGPEER_A_MAX : Nat := 10

/-- Allowed-IP attributes, `WGALLOWEDIP_A_*`. -/
def WGALLOWEDIP_A_FAMILY : Nat := 1
def WGALLOWEDIP_A_IPADDR : Nat := 2
def WGALLOWEDIP_A_CIDR_MASK : Nat := 3
def WGALLOWEDIP_A_MAX : Nat := 3

/-- The device flag `WGDEVICE_F_REPLACE_PEERS`. -/
def WGDEVICE_F_REPLACE_PEERS : UInt32 := 1
/-- The peer flag `WGPEER_F_REMOVE_ME`. -/
def WGPEER_F_REMOVE_ME : UInt32 := 1
/-- The peer flag `WGPEER_F_REPLACE_ALLOWEDIPS`. -/
def WGPEER_F_REPLACE_ALLOWEDIPS : UInt32 := 2

def EPERM : Int := 1
def ESRCH : Int := 3
def ENOMEM : Int := 12
def ENODEV : Int := 19
def EINVAL : Int := 22
def ERANGE : Int := 34
def EBADR : Int := 53
def EMSGSIZE : Int := 90
def EOPNOTSUPP : Int := 95
def EPFNOSUPPORT : Int := 96

end WireGuardNetlink
