import NfsClient.Rpc.Record
import NfsClient.Xdr.Emitter

/-!
# Length prefixes

The length of a record, of variable-length data and of a string travels in four bytes in front of
it.  The length is a Go `int`, and it is narrowed to 32 bits before it is checked or written:
`WriteRecord` compares the low 32 bits with the largest length of a fragment, and `Opaque` and
`String` write them without a check.
-/

namespace NfsClient.Rpc

open NfsClient.Lib NfsClient.Xdr

section

variable {ω ε : Type}

/-- `WriteRecord` on a writer: the error that it returns, and the writer after it. -/
def writeRecordTo (W : Writer UInt8 ω Err) (payload : Bytes) (w : ω) : Option Err × ω :=
  if fragmentSizeMask < UInt32.ofNat payload.length then (some .fragmentTooLarge, w)
  else match W.write (beBytes 4 (lastFragmentFlag ||| UInt32.ofNat payload.length).toNat) w with
    | (some e, w₁) => (some e, w₁)
    | (none, w₁) =>
      match W.write payload w₁ with
      | (some e, w₂) => (some e, w₂)
      | (none, w₂) => (none, w₂)

/-- On a buffer, it writes what `writeRecord` says. -/
lemma writeRecordTo_buffer (payload b : Bytes) :
    writeRecordTo Writer.buffer payload b
      = match writeRecord payload with
        | .error e => (some e, b)
        | .ok bs => (none, b ++ bs) := by
  unfold writeRecordTo writeRecord
  split
  · rfl
  · simp only [Writer.buffer, List.append_assoc]

/-! ## Records -/

/-- `WriteRecord` refuses the payload without writing anything; or it writes a marker whose low 31
bits are the length of the payload, and if it succeeds, the payload and no more. -/
def RecordFramed (W : Writer UInt8 ω Err) (payload : Bytes) (w : ω) : Prop :=
  let out := writeRecordTo W.recorded payload (w, [])
  (out.1 = some .fragmentTooLarge ∧ out.2.2 = []) ∨
    ∃ hdr hdrErr more, out.2.2 = (hdr, hdrErr) :: more ∧ hdr.length = 4 ∧
      beNat hdr % 2 ^ 31 = payload.length ∧
      (out.1 = none → out.2.2 = [(hdr, none), (payload, none)])

lemma toNat_ofNat_length (p : Bytes) : (UInt32.ofNat p.length).toNat = p.length % 2 ^ 32 :=
  UInt32.toNat_ofNat'

lemma fragmentSizeMask_lt_iff (n : UInt32) : fragmentSizeMask < n ↔ 2 ^ 31 ≤ n.toNat := by
  have hmask : fragmentSizeMask.toNat = 2 ^ 31 - 1 := rfl
  rw [UInt32.lt_iff_toNat_lt, hmask]
  omega

/-- The low bits of the marker are the low bits of the length. -/
lemma beNat_marker {n : UInt32} (h : n.toNat < 2 ^ 31) :
    beNat (beBytes 4 (lastFragmentFlag ||| n).toNat) % 2 ^ 31 = n.toNat := by
  have hflag := lastFragmentFlag_or h
  rw [UInt32.ofNat_toNat] at hflag
  rw [beNat_beBytes (UInt32.toNat_lt _), hflag, toNat_marker_mod h]

/-- The marker that `WriteRecord` writes. -/
def recordMarker (payload : Bytes) : Bytes :=
  beBytes 4 (lastFragmentFlag ||| UInt32.ofNat payload.length).toNat

/-- A payload that is not refused takes two writes, the second if the first one succeeds. -/
lemma writeRecordTo_eq (W : Writer UInt8 ω Err) {payload : Bytes} (w : ω)
    (h : ¬ fragmentSizeMask < UInt32.ofNat payload.length) :
    writeRecordTo W payload w
      = ((Latch.writeAll W [recordMarker payload, payload] ⟨w, none⟩).err,
        (Latch.writeAll W [recordMarker payload, payload] ⟨w, none⟩).w) := by
  rw [writeRecordTo, if_neg h]
  show (match W.write (recordMarker payload) w with
    | (some e, w₁) => (some e, w₁)
    | (none, w₁) => match W.write payload w₁ with
      | (some e, w₂) => (some e, w₂)
      | (none, w₂) => (none, w₂)) = _
  rcases hhdr : W.write (recordMarker payload) w with ⟨- | e, w₁⟩
  · rcases hpay : W.write payload w₁ with ⟨- | e, w₂⟩ <;>
      simp [Latch.writeAll, Latch.write, hhdr, hpay]
  · simp [Latch.writeAll, Latch.write, hhdr]

lemma recordFramed_iff (W : Writer UInt8 ω Err) (payload : Bytes) (w : ω) :
    RecordFramed W payload w ↔ payload.length < 2 ^ 32 ∨ 2 ^ 31 ≤ payload.length % 2 ^ 32 := by
  have hlow := toNat_ofNat_length payload
  by_cases hbig : fragmentSizeMask < UInt32.ofNat payload.length
  · have hrefused : writeRecordTo W.recorded payload (w, []) = (some .fragmentTooLarge, w, []) :=
      if_pos hbig
    rw [fragmentSizeMask_lt_iff, hlow] at hbig
    refine iff_of_true (Or.inl ?_) (Or.inr hbig)
    rw [hrefused]
    exact ⟨rfl, rfl⟩
  · obtain ⟨calls, hcalls, hrec⟩ :=
      Latch.calls_writeAll W [recordMarker payload, payload] w []
    have hout := writeRecordTo_eq W.recorded (w, []) hbig
    rw [fragmentSizeMask_lt_iff, hlow, Nat.not_le] at hbig
    have hmarker : beNat (recordMarker payload) % 2 ^ 31 = payload.length % 2 ^ 32 := by
      rw [← hlow]
      exact beNat_marker (by rw [hlow]; exact hbig)
    obtain ⟨hdrErr, more, rfl⟩ := hcalls.exists_eq_cons
    unfold RecordFramed
    rw [hout]
    simp only [hrec, List.nil_append]
    constructor
    · rintro (⟨-, hnone⟩ | ⟨hdr, e, rest, hsplit, -, hlen, -⟩)
      · cases hnone
      · obtain ⟨rfl, -⟩ := Prod.mk.inj (List.cons.inj hsplit).1
        rw [hmarker] at hlen
        omega
    · intro h
      have hlen : payload.length % 2 ^ 32 = payload.length := Nat.mod_eq_of_lt (by omega)
      refine Or.inr ⟨_, _, _, rfl, length_beBytes 4 _, hmarker.trans hlen, fun hnone => ?_⟩
      exact hcalls.eq_map_of_ok hnone

/-! ## Variable-length data -/

/-- A method of the encoder latches an error; or it writes four bytes that are the length of the
data, the data, and the padding. -/
def DataFramed (e : Emitter (ω × List (Bytes × Option ε)) ε) (p : Bytes) : Prop :=
  e.err ≠ none ∨ ∃ pre, pre.length = 4 ∧ beNat pre = p.length ∧
    e.w.2 = ([pre, p] ++ padWrites p.length).map (·, none)

/-- What `Opaque` and `String` write: the low 32 bits of the length, the data, and the padding. -/
def dataWrites (p : Bytes) : List Bytes :=
  [Encoder.uint32 (UInt32.ofNat p.length), p] ++ padWrites p.length

/-- A method that writes the low 32 bits of the length in front of the data. -/
lemma dataFramed_iff (W : Writer UInt8 ω ε) {i : Item} {p : Bytes} (w : ω)
    (hi : i.writes = dataWrites p) :
    DataFramed (i.emit W.recorded ⟨(w, []), none⟩) p ↔
      W.Fails (dataWrites p) w ∨ p.length < 2 ^ 32 := by
  have herr : (i.emit W.recorded ⟨(w, []), none⟩).err ≠ none ↔ W.Fails (dataWrites p) w := by
    rw [← hi, ← Latch.err_writeAll_ne_none_iff, Latch.writeAll_recorded W _ w none [], Item.emit_eq]
  obtain ⟨calls, hcalls, hrec⟩ := Latch.calls_writeAll W i.writes w []
  rw [← Item.emit_eq] at hcalls hrec
  rw [← herr, DataFramed]
  refine or_congr_right' fun hok => ?_
  have hpre : beNat (Encoder.uint32 (UInt32.ofNat p.length)) = p.length % 2 ^ 32 := by
    rw [Encoder.uint32, beNat_beBytes (UInt32.toNat_lt _), toNat_ofNat_length]
  rw [hrec, List.nil_append, hcalls.eq_map_of_ok (not_not.mp hok), hi, dataWrites]
  constructor
  · rintro ⟨pre, -, hlen, heq⟩
    obtain ⟨rfl, -⟩ := Prod.mk.inj (List.cons.inj heq).1
    rw [hpre] at hlen
    omega
  · intro hlt
    exact ⟨_, length_beBytes 4 _, hpre.trans (Nat.mod_eq_of_lt hlt), rfl⟩

lemma dataFramed_varOpaque_iff (W : Writer UInt8 ω ε) (p : Bytes) (w : ω) :
    DataFramed (Emitter.varOpaque W.recorded p ⟨(w, []), none⟩) p ↔
      W.Fails (dataWrites p) w ∨ p.length < 2 ^ 32 := by
  have h := dataFramed_iff W (i := .varOpaque p) (p := p) w (by rw [Item.writes, dataWrites])
  simpa only [Item.emit] using h

lemma dataFramed_string_iff (W : Writer UInt8 ω ε) (p : Bytes) (w : ω) :
    DataFramed (Emitter.string W.recorded p ⟨(w, []), none⟩) p ↔
      W.Fails (dataWrites p) w ∨ p.length < 2 ^ 32 := by
  have h := dataFramed_iff W (i := .string p) (p := p) w (by rw [Item.writes, dataWrites])
  simpa only [Item.emit] using h

/-- **When length prefixes are exact**, for payloads of any length.  `WriteRecord` refuses the
payload or writes a marker with its length, exactly if the length fits into 32 bits or its low 32
bits are over the limit.  `Opaque` and `String` latch an error or write a prefix with the length,
exactly if the writer fails or the length fits into 32 bits. -/
theorem lengthPrefix_exact_iff (p : Bytes) :
    (∀ (ω : Type) (W : Writer UInt8 ω Err) (w : ω),
      RecordFramed W p w ↔ p.length < 2 ^ 32 ∨ 2 ^ 31 ≤ p.length % 2 ^ 32) ∧
      (∀ (ω ε : Type) (W : Writer UInt8 ω ε) (w : ω),
        DataFramed (Emitter.varOpaque W.recorded p ⟨(w, []), none⟩) p ↔
          W.Fails (dataWrites p) w ∨ p.length < 2 ^ 32) ∧
      ∀ (ω ε : Type) (W : Writer UInt8 ω ε) (w : ω),
        DataFramed (Emitter.string W.recorded p ⟨(w, []), none⟩) p ↔
          W.Fails (dataWrites p) w ∨ p.length < 2 ^ 32 := by
  exact ⟨fun _ W w => recordFramed_iff W p w, fun _ _ W w => dataFramed_varOpaque_iff W p w,
    fun _ _ W w => dataFramed_string_iff W p w⟩

end

/-- A payload of `2 ^ 32` bytes is announced as empty by all of them. -/
theorem lengthPrefix_wraps :
    ∃ p : Bytes, p.length = 2 ^ 32 ∧
      (writeRecordTo Writer.buffer p [] = (none, [128, 0, 0, 0] ++ p) ∧
        ¬ RecordFramed Writer.buffer p []) ∧
      (Emitter.varOpaque (Writer.buffer (ε := Err)) p ⟨[], none⟩ = ⟨[0, 0, 0, 0] ++ p, none⟩ ∧
        ¬ DataFramed (Emitter.varOpaque (Writer.buffer (ε := Err)).recorded p ⟨([], []), none⟩) p) ∧
      Emitter.string (Writer.buffer (ε := Err)) p ⟨[], none⟩ = ⟨[0, 0, 0, 0] ++ p, none⟩ ∧
        ¬ DataFramed (Emitter.string (Writer.buffer (ε := Err)).recorded p ⟨([], []), none⟩) p := by
  obtain ⟨p, hlen⟩ : ∃ p : Bytes, p.length = 2 ^ 32 :=
    ⟨List.replicate (2 ^ 32) 0, List.length_replicate⟩
  have hzero : UInt32.ofNat p.length = 0 := by
    rw [hlen]
    rfl
  have hpad : pad4 p.length = 0 := by
    rw [hlen]
    rfl
  have hdata : Emitter.varOpaque (Writer.buffer (ε := Err)) p ⟨[], none⟩
      = ⟨[0, 0, 0, 0] ++ p, none⟩ := by
    rw [Emitter.varOpaque, hzero, hpad]
    rfl
  have hrecord : writeRecordTo Writer.buffer p [] = (none, [128, 0, 0, 0] ++ p) := by
    rw [writeRecordTo, hzero]
    rfl
  refine ⟨p, hlen, ⟨hrecord, fun h => ?_⟩, ⟨hdata, fun h => ?_⟩, hdata, fun h => ?_⟩
  · rw [recordFramed_iff, hlen] at h
    exact absurd h (by decide)
  · rw [dataFramed_varOpaque_iff, or_iff_right (Writer.not_fails_buffer _ _), hlen] at h
    exact absurd h (by decide)
  · rw [dataFramed_string_iff, or_iff_right (Writer.not_fails_buffer _ _), hlen] at h
    exact absurd h (by decide)

end NfsClient.Rpc
