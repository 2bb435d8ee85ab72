import NfsClient.Xdr.Decoder
import NfsClient.Lib.Wire

/-!
# The XDR encoder

`xdr.Encoder` serializes values into the XDR representation.  The client only ever encodes
into a `bytes.Buffer`, whose writes do not fail, so an encoder method is modelled by the
bytes it emits, and a sequence of calls by their concatenation.

The methods emit the wire forms of the standard (`Lib.Wire`).
-/

namespace NfsClient.Xdr.Encoder

open NfsClient.Lib

/-- `pad` emits `n` zero bytes. -/
def pad (n : ℕ) : Bytes := List.replicate n 0

/-- `Uint32` encodes a 32-bit unsigned integer in big-endian order. -/
def uint32 (v : UInt32) : Bytes := beBytes 4 v.toNat

/-- `Int32` encodes a signed 32-bit integer (two's complement, big-endian). -/
def int32 (v : Int32) : Bytes := uint32 v.toUInt32

/-- `Uint64` encodes a 64-bit unsigned integer in big-endian order. -/
def uint64 (v : UInt64) : Bytes := beBytes 8 v.toNat

/-- `Int64` encodes a signed 64-bit integer (two's complement, big-endian). -/
def int64 (v : Int64) : Bytes := uint64 v.toUInt64

/-- `Bool` encodes an XDR boolean as a 32-bit integer. -/
def bool (v : Bool) : Bytes := if v then uint32 1 else uint32 0

/-- `Opaque` encodes a variable-length opaque value: its length, the bytes, the padding. -/
def varOpaque (p : Bytes) : Bytes :=
  uint32 (UInt32.ofNat p.length) ++ (p ++ pad (pad4 p.length))

/-- `FixedOpaque` encodes a fixed-length opaque value: the bytes and the padding. -/
def fixedOpaque (p : Bytes) : Bytes := p ++ pad (pad4 p.length)

/-- `String` encodes a variable-length string, in the form of an opaque value. -/
def string (s : Bytes) : Bytes := uint32 (UInt32.ofNat s.length) ++ (s ++ pad (pad4 s.length))

/-- `Union` encodes a discriminated union: the discriminant, then the arm. -/
def union (discriminant : UInt32) (arm : Bytes) : Bytes := uint32 discriminant ++ arm

/-! ## The wire forms -/

lemma pad_pad4 (n : ℕ) : pad (pad4 n) = Wire.padding n := by
  unfold pad pad4 Wire.padding
  congr 1
  split <;> omega

lemma uint32_eq (v : UInt32) : uint32 v = Wire.uint v := rfl

lemma uint64_eq (v : UInt64) : uint64 v = Wire.hyper v := rfl

lemma bool_eq (v : Bool) : bool v = Wire.bool v := by
  cases v <;> rfl

lemma fixedOpaque_eq (p : Bytes) : fixedOpaque p = Wire.opaqueFixed p := by
  simp [fixedOpaque, Wire.opaqueFixed, pad_pad4]

lemma varOpaque_eq (p : Bytes) : varOpaque p = Wire.opaqueVar p := by
  simp [varOpaque, Wire.opaqueVar, Wire.opaqueFixed, pad_pad4, uint32_eq]

lemma string_eq (p : Bytes) : string p = Wire.opaqueVar p := varOpaque_eq p

/-! ## Lengths -/

/-- The length of `n` bytes with their padding. -/
def padded (n : ℕ) : ℕ := n + pad4 n

lemma padded_mono {m n : ℕ} (h : m ≤ n) : padded m ≤ padded n := by
  unfold padded pad4
  split <;> split <;> omega

lemma padded_lt (n : ℕ) : padded n < n + 4 := by
  unfold padded pad4
  split <;> omega

lemma length_uint32 (v : UInt32) : (uint32 v).length = 4 := length_beBytes 4 _

lemma length_words (vs : List UInt32) : (vs.flatMap uint32).length = 4 * vs.length := by
  rw [List.length_flatMap, List.map_congr_left fun v _ => length_uint32 v]
  simp [Nat.mul_comm]

lemma length_uint64 (v : UInt64) : (uint64 v).length = 8 := length_beBytes 8 _

lemma length_bool (v : Bool) : (bool v).length = 4 := by
  cases v <;> exact length_uint32 _

lemma length_fixedOpaque (p : Bytes) : (fixedOpaque p).length = padded p.length := by
  simp [fixedOpaque, pad, padded]

lemma length_varOpaque (p : Bytes) : (varOpaque p).length = 4 + padded p.length := by
  simp [varOpaque, pad, padded, length_uint32]

lemma length_string (p : Bytes) : (string p).length = 4 + padded p.length := length_varOpaque p

end NfsClient.Xdr.Encoder
