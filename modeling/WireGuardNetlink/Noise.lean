import WireGuardNetlink.Basic

/-!
# Keys

The key operations `netlink.c` reaches through `noise.c` and the Curve25519 library, none of
which is among the sources. The scalar multiplication itself is a parameter (`Curve25519`);
what the code does around it is kept: clamping of the secret (`curve25519_clamp_secret`), the
all-zero checks that make `curve25519` and `curve25519_generate_public` fail, and the static
identity and static-static precomputation of `noise.c` built on them.
-/

namespace WireGuardNetlink

/-- The X25519 function on a clamped scalar and a point, and the base point; their arithmetic
is outside the model. -/
structure Curve25519 where
  ladder : Key → Key → Key
  basepoint : Key

/-- Clamp a secret (`curve25519_clamp_secret`): clear the low three bits of the first byte,
clear the top bit and set the next one of the last. -/
def Key.clamp (k : Key) : Key :=
  ⟨(k.bytes.set 0 (k.bytes.getD 0 0 &&& 248)).set 31 ((k.bytes.getD 31 0 &&& 127) ||| 64),
    by simp [k.length_bytes]⟩

/-- `curve25519(out, secret, point)`: the product with the clamped secret, and whether it is
not all zero. -/
def curve25519 (c : Curve25519) (secret point : Key) : Key × Bool :=
  let out := c.ladder secret.clamp point
  (out, out ≠ Key.zero)

/-- `curve25519_generate_public(out, secret)`: fails on an all-zero secret, leaving `out`. -/
def curve25519GeneratePublic (c : Curve25519) (out secret : Key) : Key × Bool :=
  if secret = Key.zero then (out, false) else curve25519 c secret c.basepoint

/-- The device's identity (`struct noise_static_identity`). -/
structure StaticIdentity where
  hasIdentity : Bool
  staticPrivate : Key
  staticPublic : Key
deriving DecidableEq, Repr

/-- No identity (`kzalloc`ed). -/
def StaticIdentity.none : StaticIdentity := ⟨false, Key.zero, Key.zero⟩

/-- Install a private key (`wg_noise_set_static_identity_private_key`): the stored private key
is clamped, and there is an identity when a public key can be derived. -/
def wgNoiseSetStaticIdentityPrivateKey (c : Curve25519) (si : StaticIdentity) (k : Key) :
    StaticIdentity :=
  let pub := curve25519GeneratePublic c si.staticPublic k
  ⟨pub.2, k.clamp, pub.1⟩

/-- The static-static secret with a peer's public key (`wg_noise_precompute_static_static`):
with an identity, `curve25519` of the private key and the peer's key, which fails on an all-zero
result; without one, zero. -/
def wgNoisePrecomputeStaticStatic (c : Curve25519) (si : StaticIdentity) (remote : Key) :
    Key × Bool :=
  if si.hasIdentity then curve25519 c si.staticPrivate remote else (Key.zero, true)

end WireGuardNetlink
