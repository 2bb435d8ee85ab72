import NfsClient.Client.File
import NfsClient.Lib.Patch
import NfsClient.Lib.Run

/-!
# Files as byte arrays

What an open file is for: a byte array with a cursor.  `ByteFile.Step` says what each
operation returns and how it changes the array and the cursor; only `read` has a choice,
since it may return less than there is.  `ByteArrayServer` says what a server does that keeps
the array: it may read and write any part of what it is asked to, as long as it makes some
progress.
-/

namespace NfsClient.Client

open NfsClient.Lib NfsClient.Nfs4

/-! ## The reference file -/

/-- A byte array with a cursor. -/
@[ext] structure ByteFile where
  content : Bytes
  cursor : ℕ := 0
  append : Bool
  closed : Bool := false
deriving DecidableEq

/-- The name of an operation in its errors. -/
def FileOp.verb : FileOp → String
  | .read _ | .readAt .. => "read"
  | .write _ | .writeAt .. => "write"
  | .seek .. => "seek"
  | .truncate _ => "truncate"
  | .close => "close"

/-- The buffer of an operation. -/
def FileOp.buf : FileOp → Bytes
  | .read p | .readAt p _ | .write p | .writeAt p _ => p
  | .seek .. | .truncate _ | .close => []

namespace ByteFile

/-- Where `write` writes. -/
def writePos (b : ByteFile) : ℕ := if b.append then b.content.length else b.cursor

/-- The position that `seek` starts from. -/
def seekBase (b : ByteFile) (whence : ℤ) : Option ℕ :=
  if whence = 0 then some 0
  else if whence = 1 then some b.cursor
  else if whence = 2 then some b.content.length
  else none

/-- The operations that are refused: negative offsets, sizes and positions, and an unknown
whence. -/
def Invalid (b : ByteFile) : FileOp → Prop
  | .readAt _ off | .writeAt _ off => off.toInt < 0
  | .truncate size => size.toInt < 0
  | .seek offset whence => ∀ base ∈ b.seekBase whence, (base : ℤ) + offset.toInt < 0
  | _ => False

/-- What the operations of a file do. -/
inductive Step (name : Bytes) (b : ByteFile) : FileOp → FileRes → ByteFile → Prop
  /-- A closed file refuses everything. -/
  | closed (op : FileOp) (h : b.closed = true) :
      Step name b op { buf := op.buf, err := some (.path op.verb name .errClosed) } b
  | invalid (op : FileOp) (h : b.closed = false) (hop : b.Invalid op) :
      Step name b op { buf := op.buf, err := some (.path op.verb name .errInvalid) } b
  /-- `read` returns some of the bytes at the cursor, and `io.EOF` if there are none. -/
  | read (p : Bytes) (h : b.closed = false) (data : Bytes) (k : ℕ) (hk : 0 < k)
      (hle : k ≤ p.length) (hdata : data = (b.content.drop b.cursor).take k) :
      Step name b (.read p)
        { buf := data ++ p.drop data.length
          n := data.length
          err := if data.length = 0 then some .eof else none }
        { b with cursor := b.cursor + data.length }
  /-- `readAt` returns all bytes of the range that exist, and `io.EOF` if the range reaches the
  end of the file. -/
  | readAt (p : Bytes) (off : Int64) (h : b.closed = false) (o : ℕ) (ho : off.toInt = o)
      (data : Bytes) (hdata : data = (b.content.drop o).take p.length) :
      Step name b (.readAt p off)
        { buf := data ++ p.drop data.length
          n := data.length
          err := if b.content.length ≤ o + p.length then some .eof else none } b
  | write (p : Bytes) (h : b.closed = false) :
      Step name b (.write p) { buf := p, n := p.length }
        { b with
          content := patch 0 b.writePos p b.content
          cursor := b.writePos + p.length }
  | writeAt (p : Bytes) (off : Int64) (h : b.closed = false) (o : ℕ) (ho : off.toInt = o) :
      Step name b (.writeAt p off) { buf := p, n := p.length }
        { b with content := patch 0 o p b.content }
  | seek (offset : Int64) (whence : ℤ) (h : b.closed = false) (base pos : ℕ)
      (hbase : b.seekBase whence = some base) (hpos : (base : ℤ) + offset.toInt = pos) :
      Step name b (.seek offset whence) { n := pos } { b with cursor := pos }
  | truncate (size : Int64) (h : b.closed = false) (k : ℕ) (hk : size.toInt = k) :
      Step name b (.truncate size) {} { b with content := resize 0 k b.content }
  | close (h : b.closed = false) : Step name b .close {} { b with closed := true }

/-- A sequence of operations and what they return. -/
inductive Run (name : Bytes) (b : ByteFile) : List (FileOp × FileRes) → ByteFile → Prop
  | nil : Run name b [] b
  | snoc {trace : List (FileOp × FileRes)} {b' b'' : ByteFile} {op : FileOp} {res : FileRes}
      (h : Run name b trace b') (hs : Step name b' op res b'') :
      Run name b (trace ++ [(op, res)]) b''

/-- A file that was closed stays closed. -/
lemma Run.closed_of_mem {name : Bytes} {b b' : ByteFile} {trace : List (FileOp × FileRes)}
    (h : Run name b trace b') (hmem : .close ∈ trace.map Prod.fst) : b'.closed = true := by
  induction h with
  | nil => simp at hmem
  | snoc _ hs ih =>
      rw [List.map_append, List.mem_append] at hmem
      rcases hmem with hmem | hmem
      · have hclosed := ih hmem
        cases hs with
        | closed _ h => exact h
        | invalid _ h _ | read _ h | readAt _ _ h | write _ h | writeAt _ _ h | seek _ _ h
        | truncate _ h | close h => simp [hclosed] at h
      · obtain rfl : FileOp.close = _ := List.mem_singleton.mp hmem
        cases hs with
        | closed _ h => exact h
        | invalid _ _ hop => exact hop.elim
        | close _ => rfl

/-- The ranges of the arguments: buffers are not empty and shorter than 2³² bytes, and no offset
or size reaches 2⁶³. -/
def InRange (b : ByteFile) : FileOp → Prop
  | .read p | .readAt p _ => p ≠ [] ∧ p.length < 2 ^ 32
  | .write p => p ≠ [] ∧ p.length < 2 ^ 32 ∧ b.writePos + p.length < 2 ^ 63
  | .writeAt p off => p ≠ [] ∧ p.length < 2 ^ 32 ∧ off.toInt + p.length < 2 ^ 63
  | .seek offset whence => ∀ base ∈ b.seekBase whence, (base : ℤ) + offset.toInt < 2 ^ 63
  | .truncate _ | .close => True

instance (b : ByteFile) : ∀ op, Decidable (b.InRange op)
  | .read p | .readAt p _ => inferInstanceAs (Decidable (p ≠ [] ∧ p.length < 2 ^ 32))
  | .write p =>
      inferInstanceAs (Decidable (p ≠ [] ∧ p.length < 2 ^ 32 ∧ b.writePos + p.length < 2 ^ 63))
  | .writeAt p off =>
      inferInstanceAs (Decidable (p ≠ [] ∧ p.length < 2 ^ 32 ∧ off.toInt + p.length < 2 ^ 63))
  | .seek offset whence => inferInstanceAs
      (Decidable (∀ base ∈ b.seekBase whence, (base : ℤ) + offset.toInt < 2 ^ 63))
  | .truncate _ | .close => isTrue trivial

end ByteFile

/-! ## The server -/

/-- A server that keeps a byte array for the open file.  How much it reads and writes at a time
is up to its state. -/
structure ByteArrayServer {W : Type} (P : RWProtocol W) (fh : FileHandle) (sid : Stateid)
    (content : W → Bytes) : Prop where
  /-- READ returns a part of what is there, not empty if there is something; `eof` tells whether
  it reaches the end. -/
  read : ∀ (w : W) (off : UInt64) (count : UInt32), 0 < count.toNat →
    ∃ data eof w' k, P.read fh off count w = (.ok (data, eof), w') ∧ 0 < k ∧ k ≤ count.toNat ∧
      data = ((content w).drop off.toNat).take k ∧
      (eof = true ↔ (content w).length ≤ off.toNat + data.length) ∧ content w' = content w
  /-- WRITE stores a part of the data, not empty. -/
  write : ∀ (w : W) (off : UInt64) (data : Bytes) (stable : StableHow), data ≠ [] →
    ∃ k st w', P.write fh sid off data stable w = (.ok (k, st), w') ∧ 0 < k.toNat ∧
      k.toNat ≤ data.length ∧ content w' = patch 0 off.toNat (data.take k.toNat) (content w)
  /-- GETATTR reports the size. -/
  getAttr : ∀ w : W, (content w).length < 2 ^ 63 →
    ∃ mask vals attrs w', P.getAttr fh Attr.standardMask w = (.ok (mask, vals), w') ∧
      Attr.decode mask vals = .ok attrs ∧ attrs.size.toNat = (content w).length ∧
      content w' = content w
  /-- SETATTR of the size truncates or fills up with zeros. -/
  setAttr : ∀ (w : W) (mask : Bitmap) (vals : Bytes) (attrs : Attr.Attributes),
    Attr.setAttrs mask = [Attr.attrSize] → Attr.decode mask vals = .ok attrs →
    ∃ w', P.setAttr fh sid mask vals w = (.ok (), w') ∧
      content w' = resize 0 attrs.size.toNat (content w)
  closeFile : ∀ w : W, ∃ w', P.closeFile fh sid w = (.ok (), w') ∧ content w' = content w

/-! ## Runs of a file -/

/-- A file in use: what it has returned so far. -/
structure FileState (W : Type) where
  file : File
  world : W
  trace : List (FileOp × FileRes) := []

variable {W : Type}

/-- One operation on a file. -/
def FileState.step (P : RWProtocol W) (s : FileState W) (op : FileOp) : Option (FileState W) :=
  match op.run P s.file s.world with
  | (res, f, w) => some { file := f, world := w, trace := s.trace ++ [(op, res)] }

/-- The byte array with a cursor that a file and its server stand for. -/
def view (content : W → Bytes) (f : File) (w : W) : ByteFile where
  content := content w
  cursor := f.offset.toInt.toNat
  append := f.flag &&& oAppend ≠ 0
  closed := f.closed

end NfsClient.Client
