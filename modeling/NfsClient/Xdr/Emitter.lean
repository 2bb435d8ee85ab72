import NfsClient.Lib.Writer
import NfsClient.Xdr.RoundTrip

/-!
# The encoder over a writer that can fail

`xdr.Encoder` writes to an `io.Writer`.  Once a write has failed, every later operation does
nothing, and the first error is retained.  Here the encoder is its state, the writer and the
error, and a method is a function on it.

Every method is a sequence of calls of `write` (`Item.writes`), and what a method writes in all
is what `Xdr.Encoder` says that it emits.
-/

namespace NfsClient.Xdr

open NfsClient.Lib

/-- The state of an `xdr.Encoder`: the writer and the first error. -/
abbrev Emitter (ω ε : Type) : Type := Latch ω ε

namespace Emitter

variable {ω ε : Type} (W : Writer UInt8 ω ε)

/-- `write` emits bytes to the underlying writer, latching any error. -/
def write (p : Bytes) (e : Emitter ω ε) : Emitter ω ε := Latch.write W p e

/-- `pad` emits `n` zero bytes. -/
def pad (n : ℕ) (e : Emitter ω ε) : Emitter ω ε :=
  if n = 0 then e else write W (List.replicate n 0) e

/-- `Uint32` -/
def uint32 (v : UInt32) (e : Emitter ω ε) : Emitter ω ε := write W (beBytes 4 v.toNat) e

/-- `Int32` -/
def int32 (v : Int32) (e : Emitter ω ε) : Emitter ω ε := uint32 W v.toUInt32 e

/-- `Uint64` -/
def uint64 (v : UInt64) (e : Emitter ω ε) : Emitter ω ε := write W (beBytes 8 v.toNat) e

/-- `Int64` -/
def int64 (v : Int64) (e : Emitter ω ε) : Emitter ω ε := uint64 W v.toUInt64 e

/-- `Bool` -/
def bool (v : Bool) (e : Emitter ω ε) : Emitter ω ε := if v then uint32 W 1 e else uint32 W 0 e

/-- `Opaque` -/
def varOpaque (p : Bytes) (e : Emitter ω ε) : Emitter ω ε :=
  pad W (pad4 p.length) (write W p (uint32 W (UInt32.ofNat p.length) e))

/-- `FixedOpaque` -/
def fixedOpaque (p : Bytes) (e : Emitter ω ε) : Emitter ω ε :=
  pad W (pad4 p.length) (write W p e)

/-- `String` -/
def string (s : Bytes) (e : Emitter ω ε) : Emitter ω ε :=
  pad W (pad4 s.length) (write W s (uint32 W (UInt32.ofNat s.length) e))

/-- `Union`; the arm is run even if the discriminant could not be written. -/
def union (discriminant : UInt32) (encodeArm : Emitter ω ε → Emitter ω ε) (e : Emitter ω ε) :
    Emitter ω ε :=
  encodeArm (uint32 W discriminant e)

end Emitter

section Items

variable {ω ε : Type} (W : Writer UInt8 ω ε)

mutual

/-- The call that encodes an item. -/
def Item.emit : Item → Emitter ω ε → Emitter ω ε
  | .uint32 v => Emitter.uint32 W v
  | .int32 v => Emitter.int32 W v
  | .uint64 v => Emitter.uint64 W v
  | .int64 v => Emitter.int64 W v
  | .bool v => Emitter.bool W v
  | .varOpaque p => Emitter.varOpaque W p
  | .string s => Emitter.string W s
  | .fixedOpaque p => Emitter.fixedOpaque W p
  | .union discriminant arm => Emitter.union W discriminant (emitItems arm)

/-- The calls that encode a sequence of items. -/
def emitItems : List Item → Emitter ω ε → Emitter ω ε
  | [] => id
  | i :: is => fun e => emitItems is (i.emit e)

end

end Items

/-! ## The writes of a method -/

/-- The call of `write` for the padding of `n` bytes, if there is any. -/
def padWrites (n : ℕ) : List Bytes :=
  if pad4 n = 0 then [] else [List.replicate (pad4 n) 0]

mutual

/-- What the calls of `write` for an item are given. -/
def Item.writes : Item → List Bytes
  | .uint32 v => [Encoder.uint32 v]
  | .int32 v => [Encoder.int32 v]
  | .uint64 v => [Encoder.uint64 v]
  | .int64 v => [Encoder.int64 v]
  | .bool v => [Encoder.bool v]
  | .varOpaque p | .string p => [Encoder.uint32 (UInt32.ofNat p.length), p] ++ padWrites p.length
  | .fixedOpaque p => [p] ++ padWrites p.length
  | .union discriminant arm => Encoder.uint32 discriminant :: itemsWrites arm

/-- What the calls of `write` for a sequence of items are given. -/
def itemsWrites : List Item → List Bytes
  | [] => []
  | i :: is => i.writes ++ itemsWrites is

end

section Writes

variable {ω ε : Type} {W : Writer UInt8 ω ε}

lemma pad_eq_writeAll (n : ℕ) (e : Emitter ω ε) :
    Emitter.pad W (pad4 n) e = e.writeAll W (padWrites n) := by
  unfold Emitter.pad padWrites
  split <;> rfl

mutual

/-- A method makes its writes. -/
lemma Item.emit_eq : ∀ (i : Item) (e : Emitter ω ε), i.emit W e = e.writeAll W i.writes
  | .uint32 _, _ | .int32 _, _ | .uint64 _, _ | .int64 _, _ => rfl
  | .bool v, e => by cases v <;> rfl
  | .varOpaque p, e | .string p, e => by
      rw [Item.writes, Latch.writeAll_append, ← pad_eq_writeAll]
      rfl
  | .fixedOpaque p, e => by
      rw [Item.writes, Latch.writeAll_append, ← pad_eq_writeAll]
      rfl
  | .union disc arm, e => emitItems_eq arm (Emitter.uint32 W disc e)

lemma emitItems_eq : ∀ (is : List Item) (e : Emitter ω ε),
    emitItems W is e = e.writeAll W (itemsWrites is)
  | [], _ => rfl
  | i :: is, e => by
      rw [itemsWrites, Latch.writeAll_append, ← i.emit_eq e]
      exact emitItems_eq is (i.emit W e)

end

lemma flatten_padWrites (n : ℕ) : (padWrites n).flatten = Encoder.pad (pad4 n) := by
  unfold padWrites Encoder.pad
  split
  · next h => simp [h]
  · simp

mutual

/-- In all, a method writes what it emits. -/
lemma Item.flatten_writes : ∀ i : Item, i.writes.flatten = i.encode
  | .uint32 _ | .int32 _ | .uint64 _ | .int64 _ | .bool _ => by
      simp [Item.writes, Item.encode]
  | .varOpaque p | .string p => by
      simp [Item.writes, Item.encode, Encoder.varOpaque, Encoder.string, flatten_padWrites]
  | .fixedOpaque p => by
      simp [Item.writes, Item.encode, Encoder.fixedOpaque, flatten_padWrites]
  | .union disc arm => by
      simp [Item.writes, Item.encode, Encoder.union, flatten_itemsWrites arm]

lemma flatten_itemsWrites : ∀ is : List Item, (itemsWrites is).flatten = encodeItems is
  | [] => rfl
  | i :: is => by
      rw [itemsWrites, List.flatten_append, i.flatten_writes, flatten_itemsWrites is, encodeItems]

end

/-- Encoding into a buffer. -/
lemma emitItems_buffer (is : List Item) (b : Bytes) :
    emitItems (ε := ε) Writer.buffer is ⟨b, none⟩ = ⟨b ++ encodeItems is, none⟩ := by
  rw [emitItems_eq, Latch.writeAll_buffer, flatten_itemsWrites]

end Writes

end NfsClient.Xdr
