import NfsClient.Nfs4.Args

/-!
# Sessions and their slot table

A v4.1 session has a fixed number of slots.  Each carries its own sequence id and serves one
request at a time.  Free slots are tracked twice: by the `inUse` flags of the table, which a
mutex protects, and by the channel `free`, a counting semaphore that makes waiting for a
slot cancellable.  The functions below are the atomic sections of `AcquireSlot` and of
`slotLease.release`; how the callers interleave them is the subject of `SlotTable`.
-/

namespace NfsClient.Nfs4

/-- `slot` is one fore-channel SEQUENCE slot: the next sequence id to send and whether a
request holds the slot. -/
structure Slot where
  seq : UInt32 := 0
  inUse : Bool := false
deriving DecidableEq, Inhabited

/-- `Session` holds the session id, the slot table, the highest slot id ever handed out and
the number of tokens in the channel `free`, whose capacity is the number of slots. -/
structure Session where
  id : SessionID
  slots : List Slot
  highest : UInt32 := 0
  free : ℕ
deriving DecidableEq, Inhabited

/-- `NewSession` returns a session with `slotCount` slots (at least one), each starting at
sequence id 1, and one token per slot. -/
def newSession (id : SessionID) (slotCount : ℕ) : Session :=
  let n := if slotCount < 1 then 1 else slotCount
  { id := id, slots := List.replicate n { seq := 1, inUse := false }, free := n }

/-- `slotLease` is a held slot reservation. -/
structure SlotLease where
  slotID : UInt32
  seq : UInt32
  highest : UInt32
  released : Bool := false
deriving DecidableEq

namespace Session

/-- Receiving a token from `free`; `none` when the channel is empty. -/
def takeToken (s : Session) : Option Session :=
  if s.free = 0 then none else some { s with free := s.free - 1 }

/-- Sending a token on `free`; `none` when the channel is full and the send would block. -/
def putToken (s : Session) : Option Session :=
  if s.free < s.slots.length then some { s with free := s.free + 1 } else none

/-- The locked scan of `AcquireSlot`: the first slot that is not in use is marked and
leased.  `none` is the fall-through at the end of the loop. -/
def scan (s : Session) : Option (SlotLease × Session) :=
  match s.slots.findIdx? (fun sl => !sl.inUse) with
  | none => none
  | some i =>
      let sl := s.slots.getD i default
      let id := UInt32.ofNat i
      let highest := if s.highest < id then id else s.highest
      some ({ slotID := id, seq := sl.seq, highest := highest },
        { s with slots := s.slots.set i { sl with inUse := true }, highest := highest })

/-- The locked section of `release`: the slot is no longer in use, and its sequence id is
advanced on request. -/
def release (s : Session) (l : SlotLease) (advance : Bool) : Session :=
  { s with slots := s.slots.modify l.slotID.toNat fun sl =>
      { seq := if advance then sl.seq + 1 else sl.seq, inUse := false } }

/-- The whole of `release` when no other call intervenes: the locked section, then the
token. -/
def giveBack (s : Session) (l : SlotLease) (advance : Bool) : Session :=
  (s.release l advance).putToken.getD (s.release l advance)

/-- `SequenceArgs` for a lease, as `sessionCaller.CallCompound` fills it in. -/
def sequenceArgs (s : Session) (l : SlotLease) : SequenceArgs :=
  { sessionID := s.id, sequenceID := l.seq, slotID := l.slotID, highestSlotID := l.highest,
    cacheThis := false }

@[simp] lemma release_free (s : Session) (l : SlotLease) (a : Bool) :
    (s.release l a).free = s.free := rfl

@[simp] lemma length_release (s : Session) (l : SlotLease) (a : Bool) :
    (s.release l a).slots.length = s.slots.length := by
  simp [release]

/-! ### What the atomic sections do -/

/-- The table has a slot that the scan can take when not all slots are in use. -/
lemma exists_scan {s : Session} (h : s.slots.countP (·.inUse) < s.slots.length) :
    ∃ l t, s.scan = some (l, t) := by
  unfold scan
  split
  · next hnone =>
      -- no free slot: then every slot counts
      rw [List.findIdx?_eq_none_iff] at hnone
      have hall : s.slots.countP (·.inUse) = s.slots.length :=
        List.countP_eq_length.mpr fun sl hsl => by simpa using hnone sl hsl
      omega
  · exact ⟨_, _, rfl⟩

/-- A successful scan: a free slot is marked and leased with its sequence id, and the new
highest slot id is the larger one of the old one and the slot taken. -/
lemma scan_eq_some {s t : Session} {l : SlotLease} (hn : s.slots.length ≤ 2 ^ 32)
    (h : s.scan = some (l, t)) :
    s.slots[l.slotID.toNat]? = some { seq := l.seq, inUse := false } ∧ l.released = false ∧
      l.highest.toNat = max s.highest.toNat l.slotID.toNat ∧
      t = { s with
        slots := s.slots.set l.slotID.toNat { seq := l.seq, inUse := true }
        highest := l.highest } := by
  unfold scan at h
  split at h
  · simp at h
  · next i hi =>
      obtain ⟨hlt, hfree, -⟩ := List.findIdx?_eq_some_iff_getElem.mp hi
      have hid : (UInt32.ofNat i).toNat = i :=
        UInt32.toNat_ofNat_of_lt (by rw [UInt32.size]; omega)
      have hget : s.slots.getD i default = s.slots[i] := by simp [hlt]
      simp only [hget, Option.some.injEq, Prod.mk.injEq] at h
      obtain ⟨rfl, rfl⟩ := h
      have hunused : s.slots[i].inUse = false := by simpa using hfree
      refine ⟨?_, rfl, ?_, ?_⟩
      · simp only [hid, List.getElem?_eq_getElem hlt, ← hunused]
      · simp only [UInt32.lt_iff_toNat_lt]
        split <;> omega
      · simp only [hid]

/-- Releasing a leased slot. -/
lemma release_eq {s : Session} {l : SlotLease} {sl : Slot} (a : Bool)
    (h : s.slots[l.slotID.toNat]? = some sl) :
    s.release l a = { s with
      slots := s.slots.set l.slotID.toNat
        { seq := if a then sl.seq + 1 else sl.seq, inUse := false } } := by
  unfold release
  rw [List.modify_eq_set_getElem?, h]
  rfl

lemma takeToken_eq_some {s t : Session} :
    s.takeToken = some t ↔ 0 < s.free ∧ t = { s with free := s.free - 1 } := by
  unfold takeToken
  split
  · simp; omega
  · simp only [Option.some.injEq, eq_comm (a := t)]
    exact ⟨fun h => ⟨by omega, h⟩, And.right⟩

lemma putToken_eq_some {s t : Session} :
    s.putToken = some t ↔ s.free < s.slots.length ∧ t = { s with free := s.free + 1 } := by
  unfold putToken
  split
  · simp only [Option.some.injEq, eq_comm (a := t)]
    exact ⟨fun h => ⟨by omega, h⟩, And.right⟩
  · simp; omega

/-! ### The id of a session never changes -/

lemma takeToken_id {s t : Session} (h : s.takeToken = some t) : t.id = s.id := by
  obtain ⟨-, rfl⟩ := takeToken_eq_some.mp h
  rfl

lemma scan_id {s t : Session} {l : SlotLease} (h : s.scan = some (l, t)) : t.id = s.id := by
  unfold scan at h
  split at h
  · simp at h
  · simp only [Option.some.injEq, Prod.mk.injEq] at h
    rw [← h.2]

lemma giveBack_id (s : Session) (l : SlotLease) (advance : Bool) :
    (s.giveBack l advance).id = s.id := by
  unfold giveBack putToken
  split <;> rfl

end Session

/-- The compound that `sessionCaller` hands to its base caller: SEQUENCE first, then the
caller's operations. -/
def wrapCompound (a : SequenceArgs) (c : Compound) : Compound :=
  { newCompound c.tag with minorVersion := c.minorVersion, ops := .sequence a :: c.ops }

@[simp] lemma wrapCompound_ops (a : SequenceArgs) (c : Compound) :
    (wrapCompound a c).ops = .sequence a :: c.ops := rfl

end NfsClient.Nfs4
