import NfsClient.Nfs4.Attr

/-!
# Open files

`File` is the handle to an open regular file.  It keeps a cursor and issues READ, WRITE,
GETATTR and SETATTR through `RWProtocol`.  The server may read and write less than it is asked
to; `ReadAt` and `WriteAt` go on until the buffer is done, `Read` returns what it got.
-/

namespace NfsClient.Client

open NfsClient.Nfs4

/-! ## Errors -/

/-- `canonicalSentinel` returns the `fs.Err*` sentinel that an error maps to. -/
def canonicalSentinel (e : Err) : Option Err :=
  if e.is .errExist then some .errExist
  else if e.is .errNotExist then some .errNotExist
  else if e.is .errPermission then some .errPermission
  else if e.is .errInvalid then some .errInvalid
  else none

/-- `pathError` wraps an error in an `*fs.PathError`. -/
def pathError (op : String) (name : Bytes) (e : Err) : Err :=
  .path op name ((canonicalSentinel e).getD e)

/-! ## The protocol -/

/-- The operations of `RWProtocol` that a `File` issues.  What they do depends on the state of
the server and of the connection to it. -/
structure RWProtocol (W : Type) where
  read : FileHandle → UInt64 → UInt32 → W → Except Err (Bytes × Bool) × W
  write : FileHandle → Stateid → UInt64 → Bytes → StableHow → W →
    Except Err (UInt32 × StableHow) × W
  getAttr : FileHandle → Bitmap → W → Except Err (Bitmap × Bytes) × W
  setAttr : FileHandle → Stateid → Bitmap → Bytes → W → Except Err Unit × W
  closeFile : FileHandle → Stateid → W → Except Err Unit × W

/-! ## Files -/

/-- `os.O_APPEND` -/
def oAppend : Int64 := 0x400

/-- `File` is an `os.File`-like handle to an open regular file. -/
structure File where
  name : Bytes
  fh : FileHandle
  stateid : Stateid
  flag : Int64
  offset : Int64 := 0
  closed : Bool := false
deriving DecidableEq

/-- What a method of `File` returns: the buffer as it is afterwards, the count or position, and
the error. -/
structure FileRes where
  buf : Bytes := []
  n : ℤ := 0
  err : Option Err := none
deriving DecidableEq

/-- `copy(p[i:], data)`: the buffer afterwards and the number of bytes copied. -/
def copyAt (p : Bytes) (i : ℕ) (data : Bytes) : Bytes × ℕ :=
  let src := data.take (p.length - i)
  (p.take i ++ src ++ p.drop (i + src.length), src.length)

namespace File

variable {W : Type} (P : RWProtocol W)

def errClosed (f : File) (op : String) : Err := .path op f.name .errClosed

def errInvalid (f : File) (op : String) : Err := .path op f.name .errInvalid

/-- `size` fetches the current file size via GETATTR. -/
def size (f : File) (w : W) : Except Err Int64 × W :=
  match P.getAttr f.fh Attr.standardMask w with
  | (.error e, w') => (.error e, w')
  | (.ok (mask, vals), w') =>
    match Attr.decode mask vals with
    | .error e => (.error e, w')
    | .ok attrs => (.ok attrs.size.toInt64, w')

/-- What is made of the answer to GETATTR. -/
lemma size_eq (f : File) :
    f.size P = fun w => ((P.getAttr f.fh Attr.standardMask w).1.bind fun a =>
      (Attr.decode a.1 a.2).map fun attrs => attrs.size.toInt64,
        (P.getAttr f.fh Attr.standardMask w).2) := by
  funext w
  unfold size
  rcases P.getAttr f.fh Attr.standardMask w with ⟨_ | ⟨mask, vals⟩, w'⟩
  · rfl
  · dsimp only [Except.bind]
    cases Attr.decode mask vals <;> rfl

/-- The loop of `ReadAt`.  A turn that goes on has copied something, so a fuel of `len(p)` is
never used up. -/
def readAtLoop (f : File) (off : Int64) : ℕ → Bytes → ℕ → W → FileRes × W
  | 0, p, total, w => ({ buf := p, n := total }, w)
  | fuel + 1, p, total, w =>
    if total < p.length then
      match P.read f.fh (off.toUInt64 + UInt64.ofNat total) (UInt32.ofNat (p.length - total)) w with
      | (.error e, w') => ({ buf := p, n := total, err := some (pathError "read" f.name e) }, w')
      | (.ok (data, eof), w') =>
        match copyAt p total data with
        | (p', k) =>
          if eof || data.length = 0 then ({ buf := p', n := (total + k : ℕ), err := some .eof }, w')
          else readAtLoop f off fuel p' (total + k) w'
    else ({ buf := p, n := total }, w)

/-- `ReadAt` reads `len(p)` bytes at offset `off`. -/
def readAt (f : File) (p : Bytes) (off : Int64) (w : W) : FileRes × W :=
  if f.closed then ({ buf := p, err := some (f.errClosed "read") }, w)
  else if off < 0 then ({ buf := p, err := some (f.errInvalid "read") }, w)
  else f.readAtLoop P off p.length p 0 w

/-- `Read` reads at the cursor and advances it. -/
def read (f : File) (p : Bytes) (w : W) : FileRes × File × W :=
  if f.closed then ({ buf := p, err := some (f.errClosed "read") }, f, w)
  else if p.length = 0 then ({ buf := p }, f, w)
  else
    match P.read f.fh f.offset.toUInt64 (UInt32.ofNat p.length) w with
    | (.error e, w') => ({ buf := p, err := some (pathError "read" f.name e) }, f, w')
    | (.ok (data, _), w') =>
      match copyAt p 0 data with
      | (p', n) =>
        ({ buf := p', n := n, err := if n = 0 then some .eof else none },
          { f with offset := f.offset + Int64.ofNat n }, w')

/-- The loop of `writeAt`.  A turn that goes on has written something, so a fuel of `len(p)` is
never used up. -/
def writeAtLoop (f : File) (p : Bytes) (off : Int64) : ℕ → ℕ → W → FileRes × W
  | 0, total, w => ({ buf := p, n := total }, w)
  | fuel + 1, total, w =>
    if total < p.length then
      match P.write f.fh f.stateid (off.toUInt64 + UInt64.ofNat total) (p.drop total) fileSync4
          w with
      | (.error e, w') => ({ buf := p, n := total, err := some (pathError "write" f.name e) }, w')
      | (.ok (n, _), w') =>
        if n = 0 then ({ buf := p, n := total, err := some .shortWrite }, w')
        else writeAtLoop f p off fuel (total + n.toNat) w'
    else ({ buf := p, n := total }, w)

/-- The unexported `writeAt` writes all of `p` at offset `off`. -/
def writeAllAt (f : File) (p : Bytes) (off : Int64) (w : W) : FileRes × W :=
  f.writeAtLoop P p off p.length 0 w

/-- `WriteAt` writes `len(p)` bytes at offset `off`. -/
def writeAt (f : File) (p : Bytes) (off : Int64) (w : W) : FileRes × W :=
  if f.closed then ({ buf := p, err := some (f.errClosed "write") }, w)
  else if off < 0 then ({ buf := p, err := some (f.errInvalid "write") }, w)
  else f.writeAllAt P p off w

/-- The end of `Write`: write at `off` and move the cursor behind what was written. -/
def writeFrom (f : File) (p : Bytes) (off : Int64) (w : W) : FileRes × File × W :=
  match f.writeAllAt P p off w with
  | (res, w') => (res, { f with offset := off + Int64.ofInt res.n }, w')

/-- `Write` writes at the cursor, or at the end of a file opened with `O_APPEND`, and advances
the cursor. -/
def write (f : File) (p : Bytes) (w : W) : FileRes × File × W :=
  if f.closed then ({ buf := p, err := some (f.errClosed "write") }, f, w)
  else if f.flag &&& oAppend ≠ 0 then
    match f.size P w with
    | (.error e, w') => ({ buf := p, err := some (pathError "write" f.name e) }, f, w')
    | (.ok sz, w') => f.writeFrom P p sz w'
  else f.writeFrom P p f.offset w

/-- The end of `Seek`: the new position relative to `base`. -/
def seekFrom (f : File) (base offset : Int64) : FileRes × File :=
  if base + offset < 0 then ({ err := some (f.errInvalid "seek") }, f)
  else ({ n := (base + offset).toInt }, { f with offset := base + offset })

/-- `Seek` sets the cursor; `whence` is 0 for the start, 1 for the cursor and 2 for the end of
the file. -/
def seek (f : File) (offset : Int64) (whence : ℤ) (w : W) : FileRes × File × W :=
  if f.closed then ({ err := some (f.errClosed "seek") }, f, w)
  else if whence = 0 then
    match f.seekFrom 0 offset with
    | (res, f') => (res, f', w)
  else if whence = 1 then
    match f.seekFrom f.offset offset with
    | (res, f') => (res, f', w)
  else if whence = 2 then
    match f.size P w with
    | (.error e, w') => ({ err := some (pathError "seek" f.name e) }, f, w')
    | (.ok sz, w') =>
      match f.seekFrom sz offset with
      | (res, f') => (res, f', w')
  else ({ err := some (f.errInvalid "seek") }, f, w)

/-- `Truncate` changes the size of the file. -/
def truncate (f : File) (size : Int64) (w : W) : FileRes × W :=
  if f.closed then ({ err := some (f.errClosed "truncate") }, w)
  else if size < 0 then ({ err := some (f.errInvalid "truncate") }, w)
  else
    match Attr.encodeFattr { size := some size.toUInt64 } with
    | (mask, vals) =>
      match P.setAttr f.fh f.stateid mask vals w with
      | (.error e, w') => ({ err := some (pathError "truncate" f.name e) }, w')
      | (.ok _, w') => ({}, w')

/-- `Close` closes the file. -/
def close (f : File) (w : W) : FileRes × File × W :=
  if f.closed then ({ err := some (f.errClosed "close") }, f, w)
  else
    match P.closeFile f.fh f.stateid w with
    | (.error e, w') =>
        ({ err := some (pathError "close" f.name e) }, { f with closed := true }, w')
    | (.ok _, w') => ({}, { f with closed := true }, w')

end File

/-- The operations on an open file. -/
inductive FileOp
  | read (p : Bytes)
  | readAt (p : Bytes) (off : Int64)
  | write (p : Bytes)
  | writeAt (p : Bytes) (off : Int64)
  | seek (offset : Int64) (whence : ℤ)
  | truncate (size : Int64)
  | close
deriving DecidableEq

/-- Run an operation: what it returns, the file and the world after it. -/
def FileOp.run {W : Type} (P : RWProtocol W) (f : File) (w : W) : FileOp → FileRes × File × W
  | .read p => f.read P p w
  | .readAt p off =>
    match f.readAt P p off w with
    | (res, w') => (res, f, w')
  | .write p => f.write P p w
  | .writeAt p off =>
    match f.writeAt P p off w with
    | (res, w') => (res, f, w')
  | .seek offset whence => f.seek P offset whence w
  | .truncate size =>
    match f.truncate P size w with
    | (res, w') => (res, f, w')
  | .close => f.close P w

/-- Two states of one open file. -/
structure SameOpen (f f' : File) : Prop where
  name : f'.name = f.name
  fh : f'.fh = f.fh
  stateid : f'.stateid = f.stateid

lemma SameOpen.refl (f : File) : SameOpen f f := ⟨rfl, rfl, rfl⟩

lemma SameOpen.trans {f₁ f₂ f₃ : File} (h₁ : SameOpen f₁ f₂) (h₂ : SameOpen f₂ f₃) :
    SameOpen f₁ f₃ :=
  ⟨h₂.name.trans h₁.name, h₂.fh.trans h₁.fh, h₂.stateid.trans h₁.stateid⟩

/-- No operation changes which file is open. -/
lemma sameOpen_run {W : Type} (P : RWProtocol W) (f : File) (op : FileOp) (w : W) :
    SameOpen f (op.run P f w).2.1 := by
  cases op with
  | readAt | writeAt | truncate => exact .refl f
  | read p =>
      simp only [FileOp.run, File.read]
      split_ifs
      · exact .refl f
      · exact .refl f
      · rcases P.read f.fh f.offset.toUInt64 (UInt32.ofNat p.length) w with ⟨_ | _, _⟩ <;>
          exact ⟨rfl, rfl, rfl⟩
  | write p =>
      simp only [FileOp.run, File.write]
      split_ifs
      · exact .refl f
      · rcases f.size P w with ⟨_ | _, _⟩ <;> exact ⟨rfl, rfl, rfl⟩
      · exact ⟨rfl, rfl, rfl⟩
  | seek offset whence =>
      have hfrom : ∀ base, SameOpen f (f.seekFrom base offset).2 := by
        intro base
        rw [File.seekFrom]
        split <;> exact ⟨rfl, rfl, rfl⟩
      simp only [FileOp.run, File.seek]
      split_ifs
      · exact .refl f
      · exact hfrom 0
      · exact hfrom f.offset
      · rcases f.size P w with ⟨_ | sz, _⟩
        · exact .refl f
        · exact hfrom sz
      · exact .refl f
  | close =>
      simp only [FileOp.run, File.close]
      split_ifs
      · exact .refl f
      · rcases P.closeFile f.fh f.stateid w with ⟨_ | _, _⟩ <;> exact ⟨rfl, rfl, rfl⟩

end NfsClient.Client
