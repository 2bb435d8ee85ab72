import Mathlib.Data.Nat.Bitwise
import NfsClient.Errors
import NfsClient.Lib.Wire

/-!
# Record marking

RPC messages travel over a stream as records: a message is cut into fragments, and each
fragment is preceded by a 4-byte marker whose high bit tells the last fragment and whose
other bits give the length.  `WriteRecord` writes a message as one fragment, `ReadRecord`
reassembles any cut.
-/

namespace NfsClient.Rpc

open NfsClient.Lib

def lastFragmentFlag : UInt32 := 0x80000000
def fragmentSizeMask : UInt32 := 0x7FFFFFFF

/-- The bound on a single fragment, 256 MiB. -/
def maxFragmentSize : ℕ := 268435456

/-- The bound on a reassembled message, 512 MiB. -/
def maxMessageSize : ℕ := 536870912

/-- `WriteRecord`: what it writes, a marker with the last-fragment flag and the payload. -/
def writeRecord (payload : Bytes) : Except Err Bytes :=
  if fragmentSizeMask < UInt32.ofNat payload.length then .error .fragmentTooLarge
  else .ok (beBytes 4 (lastFragmentFlag ||| UInt32.ofNat payload.length).toNat ++ payload)

/-- `io.ReadFull` on a stream that ends: it consumes what there is before it fails, and tells
a stream that had ended from one that ended midway. -/
def readFull (n : ℕ) (r : Bytes) : Except Err Bytes × Bytes :=
  if n ≤ r.length then (.ok (r.take n), r.drop n)
  else (.error (if r = [] then .eof else .unexpectedEOF), [])

/-- The loop of `ReadRecord`: `msg` is what is reassembled so far.  Every turn that continues
has consumed a marker, so a fuel above the length of the stream is never used up. -/
def readRecordLoop : ℕ → Bytes → Bytes → Except Err Bytes × Bytes
  | 0, _, r => (.error .unexpectedEOF, r)
  | fuel + 1, msg, r =>
    match readFull 4 r with
    | (.error e, r₁) => (.error e, r₁)
    | (.ok hdr, r₁) =>
      let marker := UInt32.ofNat (beNat hdr)
      let last := marker &&& lastFragmentFlag != 0
      let size := marker &&& fragmentSizeMask
      -- both limits are checked before anything of the fragment is read
      if maxFragmentSize < size.toNat then
        (.error (.wrapped .fragmentTooLarge (toString size ++ " bytes")), r₁)
      else if maxMessageSize < msg.length + size.toNat then
        (.error (.wrapped .fragmentTooLarge "reassembled message too large"), r₁)
      else
        match readFull size.toNat r₁ with
        -- a stream that ends behind a marker has ended midway
        | (.error e, r₂) => (.error (if e.is .eof then .unexpectedEOF else e), r₂)
        | (.ok frag, r₂) =>
          if last then (.ok (msg ++ frag), r₂) else readRecordLoop fuel (msg ++ frag) r₂

/-- `ReadRecord` reads one message from a stream. -/
def readRecord (r : Bytes) : Except Err Bytes × Bytes := readRecordLoop (r.length + 1) [] r

/-- `ReadRecord` called `k` times: what the calls return, and what they leave unread. -/
def readRecords : ℕ → Bytes → List (Except Err Bytes) × Bytes
  | 0, r => ([], r)
  | k + 1, r =>
    match readRecord r with
    | (out, r₁) =>
      match readRecords k r₁ with
      | (outs, r₂) => (out :: outs, r₂)

/-! ## Markers -/

/-- The marker of a fragment of `n` bytes. -/
def marker (last : Bool) (n : ℕ) : UInt32 := UInt32.ofNat ((if last then 2 ^ 31 else 0) + n)

/-- The length that a marker declares. -/
lemma and_fragmentSizeMask (m : UInt32) : (m &&& fragmentSizeMask).toNat = m.toNat % 2 ^ 31 := by
  rw [UInt32.toNat_and]
  exact Nat.and_two_pow_sub_one_eq_mod m.toNat 31

/-- The flag of a marker. -/
lemma and_lastFragmentFlag (m : UInt32) :
    (m &&& lastFragmentFlag != 0) = decide (2 ^ 31 ≤ m.toNat) := by
  have hm := m.toNat_lt
  have hand : (m &&& lastFragmentFlag).toNat = (m.toNat.testBit 31).toNat * 2 ^ 31 := by
    rw [UInt32.toNat_and]
    exact Nat.and_two_pow m.toNat 31
  have hbit : m.toNat.testBit 31 = decide (2 ^ 31 ≤ m.toNat) := by
    rw [Nat.testBit_eq_decide_div_mod_eq, decide_eq_decide]
    omega
  rw [Bool.eq_iff_iff, bne_iff_ne, ne_eq, ← UInt32.toNat_inj, hand, hbit, decide_eq_true_iff]
  by_cases h : 2 ^ 31 ≤ m.toNat <;> simp

lemma toNat_marker {last : Bool} {n : ℕ} (h : n < 2 ^ 31) :
    (marker last n).toNat = (if last then 2 ^ 31 else 0) + n :=
  UInt32.toNat_ofNat_of_lt' (by rw [UInt32.size]; split <;> omega)

lemma toNat_marker_mod {n : ℕ} (h : n < 2 ^ 31) (last : Bool) :
    (marker last n).toNat % 2 ^ 31 = n := by
  rw [toNat_marker h]
  split <;> omega

/-- `WriteRecord` sets the flag by or-ing it to the length. -/
lemma lastFragmentFlag_or {n : ℕ} (h : n < 2 ^ 31) :
    lastFragmentFlag ||| UInt32.ofNat n = marker true n := by
  have hn : (UInt32.ofNat n).toNat = n := UInt32.toNat_ofNat_of_lt' (by rw [UInt32.size]; omega)
  rw [← UInt32.toNat_inj, UInt32.toNat_or, hn, toNat_marker h]
  exact (Nat.two_pow_add_eq_or_of_lt h 1).symm

/-! ## One turn of the loop -/

lemma readFull_append {n : ℕ} {p : Bytes} (h : p.length = n) (rest : Bytes) :
    readFull n (p ++ rest) = (.ok p, rest) := by
  rw [readFull, if_pos (by simp [h]), List.take_left' h, List.drop_left' h]

/-- The next marker of the stream. -/
lemma readFull_uint (m : UInt32) (rest : Bytes) :
    readFull 4 (Wire.uint m ++ rest) = (.ok (Wire.uint m), rest) :=
  readFull_append (Wire.length_uint m) rest

lemma ofNat_beNat_uint (m : UInt32) : UInt32.ofNat (beNat (Wire.uint m)) = m := by
  rw [Wire.uint, beNat_beBytes (by simpa using m.toNat_lt), UInt32.ofNat_toNat]

/-- A fragment on the stream. -/
def fragment (last : Bool) (p : Bytes) : Bytes := Wire.uint (marker last p.length) ++ p

/-- A turn on a marker that declares too much: the call fails, whatever follows. -/
lemma readRecordLoop_too_large {m : UInt32} {msg : Bytes}
    (h : maxFragmentSize < m.toNat % 2 ^ 31 ∨ maxMessageSize < msg.length + m.toNat % 2 ^ 31)
    (fuel : ℕ) (rest : Bytes) :
    ∃ e, (readRecordLoop (fuel + 1) msg (Wire.uint m ++ rest)).1 = .error e ∧
      e.is .fragmentTooLarge = true := by
  simp only [readRecordLoop, readFull_uint, ofNat_beNat_uint, and_fragmentSizeMask]
  by_cases hfrag : maxFragmentSize < m.toNat % 2 ^ 31
  · simp only [if_pos hfrag]
    exact ⟨_, rfl, rfl⟩
  · simp only [if_neg hfrag, if_pos (h.resolve_left hfrag)]
    exact ⟨_, rfl, rfl⟩

/-- A turn on a fragment within the limits. -/
lemma readRecordLoop_fragment {last : Bool} {p msg : Bytes} (hp : p.length ≤ maxFragmentSize)
    (hmsg : msg.length + p.length ≤ maxMessageSize) (fuel : ℕ) (rest : Bytes) :
    readRecordLoop (fuel + 1) msg (fragment last p ++ rest)
      = if last then (.ok (msg ++ p), rest) else readRecordLoop fuel (msg ++ p) rest := by
  have hlt : p.length < 2 ^ 31 := by
    simp only [maxFragmentSize] at hp
    omega
  have hsize : (marker last p.length).toNat % 2 ^ 31 = p.length := toNat_marker_mod hlt last
  have hlast : decide (2 ^ 31 ≤ (marker last p.length).toNat) = last := by
    rw [toNat_marker hlt]
    cases last
    · simpa using hlt
    · simp
  simp only [fragment, List.append_assoc, readRecordLoop, readFull_uint, ofNat_beNat_uint,
    and_fragmentSizeMask, and_lastFragmentFlag, hsize, hlast, Nat.not_lt.mpr hp,
    Nat.not_lt.mpr hmsg, if_false, readFull_append]

/-! ## Cuts of a message -/

/-- A message cut into fragments within the limits: only the last fragment carries the flag,
and fragments may be empty. -/
structure Cut where
  /-- The fragments before the last one. -/
  init : List Bytes
  /-- The last fragment. -/
  last : Bytes
  fragment_le : ∀ p ∈ init ++ [last], p.length ≤ maxFragmentSize
  message_le : (init.flatten ++ last).length ≤ maxMessageSize

namespace Cut

/-- The message. -/
def message (c : Cut) : Bytes := c.init.flatten ++ c.last

/-- The record: the fragments on the stream. -/
def record (c : Cut) : Bytes := c.init.flatMap (fragment false) ++ fragment true c.last

end Cut

/-- The fragments that are not the last one are collected; each takes one unit of fuel. -/
lemma readRecordLoop_fragments {ps : List Bytes} {msg : Bytes}
    (hps : ∀ p ∈ ps, p.length ≤ maxFragmentSize)
    (hmsg : (msg ++ ps.flatten).length ≤ maxMessageSize) (fuel : ℕ) (rest : Bytes) :
    readRecordLoop (fuel + ps.length) msg (ps.flatMap (fragment false) ++ rest)
      = readRecordLoop fuel (msg ++ ps.flatten) rest := by
  induction ps generalizing msg with
  | nil => simp
  | cons p ps ih =>
      have hp : p.length ≤ maxFragmentSize := hps p (List.mem_cons_self ..)
      have hle : msg.length + p.length ≤ maxMessageSize := by
        simp only [List.flatten_cons, List.length_append] at hmsg
        omega
      rw [List.length_cons, ← Nat.add_assoc, List.flatMap_cons, List.append_assoc,
        readRecordLoop_fragment hp hle]
      simp only [Bool.false_eq_true, if_false]
      rw [ih (fun q hq => hps q (List.mem_cons_of_mem _ hq)) (by simpa using hmsg)]
      simp

lemma length_le_flatMap_fragment (ps : List Bytes) :
    ps.length ≤ (ps.flatMap (fragment false)).length := by
  induction ps with
  | nil => simp
  | cons p ps ih =>
      simp only [List.length_cons, List.flatMap_cons, List.length_append, fragment,
        Wire.length_uint]
      omega

/-- A call on fragments within the limits comes to what follows them: every fragment takes a
marker from the stream, so the fuel lasts. -/
lemma readRecord_fragments {ps : List Bytes} (hps : ∀ p ∈ ps, p.length ≤ maxFragmentSize)
    (hmsg : ps.flatten.length ≤ maxMessageSize) (rest : Bytes) :
    ∃ fuel, readRecord (ps.flatMap (fragment false) ++ rest)
      = readRecordLoop (fuel + 1) ps.flatten rest := by
  obtain ⟨fuel, hfuel⟩ : ∃ k,
      (ps.flatMap (fragment false) ++ rest).length + 1 = k + 1 + ps.length := by
    have := length_le_flatMap_fragment ps
    refine ⟨(ps.flatMap (fragment false) ++ rest).length - ps.length, ?_⟩
    simp only [List.length_append]
    omega
  refine ⟨fuel, ?_⟩
  rw [readRecord, hfuel, readRecordLoop_fragments hps (by simpa using hmsg), List.nil_append]

/-- One call reads one record. -/
lemma readRecord_record (c : Cut) (rest : Bytes) :
    readRecord (c.record ++ rest) = (.ok c.message, rest) := by
  have hinit : ∀ p ∈ c.init, p.length ≤ maxFragmentSize := fun p hp =>
    c.fragment_le p (by simp [hp])
  have hlast : c.last.length ≤ maxFragmentSize := c.fragment_le c.last (by simp)
  have hmsg := c.message_le
  have hinit' : c.init.flatten.length ≤ maxMessageSize := by
    rw [List.length_append] at hmsg
    omega
  obtain ⟨fuel, hread⟩ := readRecord_fragments hinit hinit' (fragment true c.last ++ rest)
  rw [Cut.record, List.append_assoc, hread, readRecordLoop_fragment hlast (by simpa using hmsg)]
  rfl

/-- `WriteRecord` cuts a payload into a single fragment. -/
def singleFragment (payload : Bytes) (h : payload.length ≤ maxFragmentSize) : Cut where
  init := []
  last := payload
  fragment_le := by simpa using h
  message_le := by
    simp only [maxFragmentSize] at h
    simp only [List.flatten_nil, List.nil_append, maxMessageSize]
    omega

lemma writeRecord_eq {payload : Bytes} (h : payload.length ≤ maxFragmentSize) :
    writeRecord payload = .ok (singleFragment payload h).record := by
  have hlt : payload.length < 2 ^ 31 := by
    simp only [maxFragmentSize] at h
    omega
  have hle : ¬ fragmentSizeMask < UInt32.ofNat payload.length := by
    rw [UInt32.lt_iff_toNat_lt, UInt32.toNat_ofNat_of_lt' (by rw [UInt32.size]; omega)]
    have : fragmentSizeMask.toNat = 2 ^ 31 - 1 := rfl
    omega
  rw [writeRecord, if_neg hle, lastFragmentFlag_or hlt]
  rfl

/-- **Record reassembly is exact.**  Repeated calls of `ReadRecord` on a stream of records,
cut in any way within the limits, return exactly the messages in order and leave exactly what
follows the records.  What `WriteRecord` writes for a payload up to 256 MiB is such a cut.  And
after any fragments within the limits, a marker that declares a fragment over 256 MiB, or one
that takes the message over 512 MiB, makes the call fail with `ErrFragmentTooLarge`. -/
theorem readRecords_exact :
    (∀ (cs : List Cut) (rest : Bytes),
      readRecords cs.length (cs.flatMap Cut.record ++ rest)
        = (cs.map fun c => .ok c.message, rest)) ∧
      (∀ payload : Bytes, payload.length ≤ maxFragmentSize →
        ∃ c : Cut, c.message = payload ∧ writeRecord payload = .ok c.record) ∧
      ∀ (ps : List Bytes) (m : UInt32) (rest : Bytes),
        (∀ p ∈ ps, p.length ≤ maxFragmentSize) → ps.flatten.length ≤ maxMessageSize →
        maxFragmentSize < m.toNat % 2 ^ 31 ∨
          maxMessageSize < ps.flatten.length + m.toNat % 2 ^ 31 →
        ∃ e, (readRecord (ps.flatMap (fragment false) ++ (Wire.uint m ++ rest))).1 = .error e ∧
          e.is .fragmentTooLarge = true := by
  refine ⟨fun cs rest => ?_, fun payload h => ?_, fun ps m rest hps hmsg hm => ?_⟩
  · induction cs with
    | nil => rfl
    | cons c cs ih =>
        simp only [List.flatMap_cons, List.append_assoc, List.length_cons, readRecords,
          readRecord_record, ih, List.map_cons]
  · exact ⟨singleFragment payload h, rfl, writeRecord_eq h⟩
  · obtain ⟨fuel, hread⟩ := readRecord_fragments hps hmsg (Wire.uint m ++ rest)
    rw [hread]
    exact readRecordLoop_too_large hm fuel rest

/-- A message in two fragments, the second of them empty, and an announcement of 2 GiB. -/
example :
    readRecords 2 (fragment false [222, 173] ++ fragment true [] ++ [127, 255, 255, 255, 0])
      = ([.ok [222, 173], .error (.wrapped .fragmentTooLarge "2147483647 bytes")], [0]) := by
  decide

end NfsClient.Rpc
