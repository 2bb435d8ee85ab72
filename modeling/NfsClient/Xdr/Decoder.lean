import NfsClient.Errors
import NfsClient.Lib.BigEndian

/-!
# The XDR decoder

`xdr.Decoder` deserializes XDR wire data.  It follows the sticky-error pattern: once a read
fails, every later operation returns a zero value and the first error is retained, so that
callers decode a sequence of fields and check `Err` once.

A decoder action is a function of the decoder's state.  The reader underneath is the
`bytes.Reader` over one reply, so its state is the unread rest of the input.
-/

namespace NfsClient.Xdr

open NfsClient.Lib

/-- The errors a decoder latches: those of the reader, and the length limit. -/
inductive DecodeErr
  | eof
  | unexpectedEOF
  | limitExceeded
deriving DecidableEq

/-- The error value. -/
def DecodeErr.toErr : DecodeErr → Err
  | .eof => .eof
  | .unexpectedEOF => .unexpectedEOF
  | .limitExceeded => .limitExceeded

/-- None of them carries an NFS status. -/
@[simp] lemma asStatus_toErr (e : DecodeErr) : e.toErr.asStatus = none := by
  cases e <;> rfl

/-- The state of an `xdr.Decoder`. -/
structure Decoder where
  /-- The unread input. -/
  r : Bytes
  /-- `MaxLen` bounds the declared length of variable-length fields; zero means
  `defaultMaxLen`. -/
  maxLen : UInt32 := 0
  /-- The first error encountered. -/
  err : Option DecodeErr := none
deriving DecidableEq

/-- A decoder method: it reads from the decoder and returns a value. -/
abbrev Dec (α : Type) : Type := StateM Decoder α

/-- `defaultMaxLen`, 64 MiB. -/
def defaultMaxLen : UInt32 := 67108864

/-- `NewDecoder` on a reader over the given bytes. -/
def newDecoder (r : Bytes) : Decoder := { r := r }

/-- `pad4` returns the number of padding bytes that round `n` up to a multiple of four. -/
def pad4 (n : ℕ) : ℕ := if n % 4 = 0 then 0 else 4 - n % 4

namespace Decoder

/-- The limit in force. -/
def effMaxLen (d : Decoder) : UInt32 := if d.maxLen = 0 then defaultMaxLen else d.maxLen

/-- `read` fills a buffer of `n` bytes, latching any error.  `io.ReadFull` consumes what
there is before it fails, and tells an input that was empty (`io.EOF`) from one that ended
midway (`io.ErrUnexpectedEOF`). -/
def read (n : ℕ) : Dec Bytes := fun d =>
  if d.err.isSome then ([], d)
  else if n ≤ d.r.length then (d.r.take n, { d with r := d.r.drop n })
  else ([], { d with r := [], err := some (if d.r = [] then .eof else .unexpectedEOF) })

/-- `discard` consumes and ignores `n` bytes of padding. -/
def discard (n : ℕ) : Dec Unit := fun d =>
  if n = 0 ∨ d.err.isSome then ((), d) else ((), (read n d).2)

/-- `Uint32` decodes a 32-bit unsigned integer in big-endian order. -/
def uint32 : Dec UInt32 := fun d =>
  match read 4 d with
  | (p, d') => if d'.err.isSome then (0, d') else (UInt32.ofNat (beNat p), d')

/-- `Int32` decodes a signed 32-bit integer (two's complement, big-endian). -/
def int32 : Dec Int32 := do return (← uint32).toInt32

/-- `Uint64` decodes a 64-bit unsigned integer in big-endian order. -/
def uint64 : Dec UInt64 := fun d =>
  match read 8 d with
  | (p, d') => if d'.err.isSome then (0, d') else (UInt64.ofNat (beNat p), d')

/-- `Int64` decodes a signed 64-bit integer (two's complement, big-endian). -/
def int64 : Dec Int64 := do return (← uint64).toInt64

/-- `Bool` decodes an XDR boolean: zero is false, anything else true. -/
def bool : Dec Bool := do return (← uint32) != 0

/-- The part that `Opaque` and `FixedOpaque` share: `n` bytes and their padding.  `none` is
Go's nil slice. -/
def body (n : ℕ) : Dec (Option Bytes) := fun d =>
  match read n d with
  | (out, d₁) =>
    if d₁.err.isSome then (none, d₁)
    else match discard (pad4 n) d₁ with
      | (_, d₂) => if d₂.err.isSome then (none, d₂) else (some out, d₂)

/-- `Opaque` decodes a variable-length opaque value: a length, the bytes, the padding. -/
def varOpaque : Dec (Option Bytes) := fun d =>
  match uint32 d with
  | (n, d₁) =>
    if d₁.err.isSome then (none, d₁)
    else if d₁.effMaxLen < n then (none, { d₁ with err := some .limitExceeded })
    else body n.toNat d₁

/-- `FixedOpaque` decodes exactly `n` bytes of fixed-length opaque data and their padding.
The lengths the client passes are constants, so none is negative. -/
def fixedOpaque (n : ℕ) : Dec (Option Bytes) := body n

/-- `String` decodes a variable-length string. -/
def string : Dec Bytes := do return (← varOpaque).getD []

/-- `Union` decodes a discriminated union: the discriminant, then the arm it selects.  The
arm is not decoded when the discriminant could not be read. -/
def union {α : Type} (decodeArm : UInt32 → Dec α) : Dec (UInt32 × Option α) := fun d =>
  match uint32 d with
  | (disc, d₁) =>
    if d₁.err.isSome then ((0, none), d₁)
    else match decodeArm disc d₁ with
      | (a, d₂) => ((disc, some a), d₂)

end Decoder

/-! ## Running decoder actions -/

section Run

variable {α β : Type} (d : Decoder)

@[simp] lemma pure_run (a : α) : (pure a : Dec α) d = (a, d) := rfl

@[simp] lemma bind_run (x : Dec α) (f : α → Dec β) : (x >>= f) d = f (x d).1 (x d).2 := rfl

@[simp] lemma map_run (f : α → β) (x : Dec α) : (f <$> x) d = (f (x d).1, (x d).2) := rfl

end Run

/-! ## The sticky error -/

namespace Decoder

/-- A decoder action is sticky when a decoder that has failed stays failed. -/
def Sticky {α : Type} (x : Dec α) : Prop := ∀ d : Decoder, d.err.isSome → (x d).2.err.isSome

lemma Sticky.pure {α : Type} (a : α) : Sticky (pure a : Dec α) := fun _ hd => hd

lemma Sticky.bind {α β : Type} {x : Dec α} {f : α → Dec β} (hx : Sticky x)
    (hf : ∀ a, Sticky (f a)) : Sticky (x >>= f) :=
  fun d hd => hf _ _ (hx d hd)

/-- A sticky action that ends without an error started without one. -/
lemma Sticky.err_eq_none {α : Type} {x : Dec α} (hx : Sticky x) {d : Decoder}
    (h : (x d).2.err = none) : d.err = none := by
  by_contra hne
  have := hx d (Option.isSome_iff_ne_none.mpr hne)
  rw [h] at this
  simp at this

lemma sticky_uint32 : Sticky uint32 := by
  intro d hd
  simp [uint32, read, hd]

/-- Fixed-length data that is read without an error has its length. -/
lemma body_of_err_eq_none {n : ℕ} {d : Decoder} (h : (body n d).2.err = none) :
    ∃ bs, (body n d).1 = some bs ∧ bs.length = n := by
  unfold body at h ⊢
  rcases hr : read n d with ⟨out, d₁⟩
  rcases hs : discard (pad4 n) d₁ with ⟨u, d₂⟩
  simp only [hr, hs] at h ⊢
  by_cases h₁ : d₁.err.isSome = true
  · simp only [h₁, if_true] at h
    simp [h] at h₁
  · by_cases h₂ : d₂.err.isSome = true
    · simp only [h₁, h₂, if_true, Bool.false_eq_true, if_false] at h
      simp [h] at h₂
    · simp only [h₁, h₂, Bool.false_eq_true, if_false]
      refine ⟨out, rfl, ?_⟩
      unfold read at hr
      split at hr
      · next hd =>
          obtain ⟨-, rfl⟩ := Prod.mk.inj hr
          exact absurd hd h₁
      · split at hr
        · next hlen =>
            obtain ⟨rfl, -⟩ := Prod.mk.inj hr
            simpa using hlen
        · obtain ⟨-, rfl⟩ := Prod.mk.inj hr
          simp at h₁

end Decoder

end NfsClient.Xdr
