import NfsClient.Client.File
import NfsClient.Client.Path

/-!
# The read-only file system

`FS` resolves paths, lists directories and opens files through the read operations of
`Protocol`.  A directory is listed page by page; each page goes on behind the cookie of the
last entry.  `file` reads an open file sequentially, `dirFile` hands out the listing of an open
directory in chunks.
-/

namespace NfsClient.Client

open NfsClient.Nfs4

/-- The operations of `Protocol` that the file system issues.  What they do depends on the state
of the server and of the connection to it. -/
structure Protocol (W : Type) where
  rootFH : W → FileHandle
  lookup : FileHandle → Bytes → W → Except Err FileHandle × W
  getAttr : FileHandle → Bitmap → W → Except Err (Bitmap × Bytes) × W
  read : FileHandle → UInt64 → UInt32 → W → Except Err (Bytes × Bool) × W
  readdir : FileHandle → UInt64 → ByteArr 8 → Bitmap → W → Except Err ReaddirRes × W

/-- The operations as a connection performs them. -/
def Protocol.ofConn {W : Type} (E : Env W) : Protocol (Conn × Net W) where
  rootFH s := s.1.rootFH
  lookup dir name s := match (lookupOp dir name).exec E s.1 s.2 with
    | (r, n) => (r, s.1, n)
  getAttr fh mask s := match (getAttrOp fh mask).exec E s.1 s.2 with
    | (r, n) => (r, s.1, n)
  read fh offset count s := match (readOp fh offset count).exec E s.1 s.2 with
    | (r, n) => (r, s.1, n)
  readdir dir cookie cookieverf mask s :=
    match (readdirOp dir cookie cookieverf mask).exec E s.1 s.2 with
    | (r, n) => (r, s.1, n)

/-- `fileInfo`: a name and the attributes of the file.  `fs.FileInfoToDirEntry` makes an
`fs.DirEntry` of it that shows the same. -/
structure FileInfo where
  name : Bytes
  attrs : Attr.Attributes
deriving DecidableEq

/-- `FS`; its context is part of the state of the protocol. -/
structure FS where
  readBlockSize : Int64 := 0
deriving DecidableEq

namespace FS

variable {W : Type} (P : Protocol W)

/-- `DefaultReadBlockSize` -/
def defaultReadBlockSize : Int64 := 1048576

def readBlock (fsys : FS) : Int64 :=
  if 0 < fsys.readBlockSize then fsys.readBlockSize else defaultReadBlockSize

/-! ## Paths -/

/-- `stat` fetches and decodes the standard attributes. -/
def stat (fh : FileHandle) (w : W) : Except Err Attr.Attributes × W :=
  match P.getAttr fh Attr.standardMask w with
  | (.error e, w') => (.error e, w')
  | (.ok (mask, vals), w') => (Attr.decode mask vals, w')

/-- `resolve` walks a path to its file handle and attributes. -/
def resolve (name : Bytes) (w : W) : Except Err (FileHandle × Attr.Attributes) × W :=
  let walked := if name ≠ ascii "." then Lib.walk P.lookup (splitSlash name) (P.rootFH w) w
    else (.ok (P.rootFH w), w)
  match walked with
  | (.error e, w₁) => (.error e, w₁)
  | (.ok fh, w₁) =>
    match stat P fh w₁ with
    | (.error e, w₂) => (.error e, w₂)
    | (.ok attrs, w₂) => (.ok (fh, attrs), w₂)

/-! ## Directories -/

/-- The two entries that a listing leaves out. -/
def isDot (name : Bytes) : Bool := name = ascii "." || name = ascii ".."

/-- The loop of `readDirAll` over the entries of a page: what is listed so far, and the cookie of
the last entry. -/
def addPage : List DirEntry → List FileInfo → UInt64 → Except Err (List FileInfo × UInt64)
  | [], out, cookie => .ok (out, cookie)
  | e :: es, out, _ =>
    if isDot e.name then addPage es out e.cookie
    else match Attr.decode e.attrMask e.attrVals with
      | .error derr => .error derr
      | .ok attrs => addPage es (out ++ [⟨e.name, attrs⟩]) e.cookie

/-- The loop of `readDirAll` over the pages.  A server can go on for ever; `none` is returned when
the given number of pages is used up. -/
def readDirLoop (fh : FileHandle) : ℕ → List FileInfo → UInt64 → ByteArr 8 → W →
    Option (Except Err (List FileInfo) × W)
  | 0, _, _, _, _ => none
  | pages + 1, out, cookie, cookieverf, w =>
    match P.readdir fh cookie cookieverf Attr.standardMask w with
    | (.error e, w') => some (.error e, w')
    | (.ok res, w') =>
      match addPage res.entries out cookie with
      | .error e => some (.error e, w')
      | .ok (out', cookie') =>
        if res.eof then some (.ok out', w')
        else if res.entries.length = 0 then some (.ok out', w')
        else readDirLoop fh pages out' cookie' res.cookieverf w'

/-- `readDirAll` pages through all directory entries, within a given number of pages. -/
def readDirAll (pages : ℕ) (fh : FileHandle) (w : W) : Option (Except Err (List FileInfo) × W) :=
  readDirLoop P fh pages [] 0 default w

/-- `ReadDir` lists the named directory. -/
def readDir (pages : ℕ) (name : Bytes) (w : W) : Option (Except Err (List FileInfo) × W) :=
  if !validPath name then some (.error (.path "readdir" name .errInvalid), w)
  else match resolve P name w with
    | (.error e, w₁) => some (.error (pathError "readdir" name e), w₁)
    | (.ok (fh, attrs), w₁) =>
      if !attrs.isDir then some (.error (.path "readdir" name (.text "not a directory")), w₁)
      else match readDirAll P pages fh w₁ with
        | none => none
        | some (.error e, w₂) => some (.error (pathError "readdir" name e), w₂)
        | some (.ok entries, w₂) => some (.ok entries, w₂)

/-! ## Open files -/

/-- `file` is an open regular file that is read sequentially. -/
structure File where
  fh : FileHandle
  name : Bytes
  attrs : Attr.Attributes
  offset : UInt64 := 0
  eof : Bool := false
deriving DecidableEq

/-- `file.Read` reads at the offset and advances it. -/
def File.read (fsys : FS) (f : File) (p : Bytes) (w : W) : FileRes × File × W :=
  if f.eof then ({ buf := p, err := some .eof }, f, w)
  else
    let want := if fsys.readBlock.toInt < p.length then fsys.readBlock.toInt.toNat else p.length
    match P.read f.fh f.offset (UInt32.ofNat want) w with
    | (.error e, w') => ({ buf := p, err := some (.path "read" f.name e) }, f, w')
    | (.ok (data, serverEOF), w') =>
      match copyAt p 0 data with
      | (p', n) =>
        ({ buf := p', n := n, err := if n = 0 && serverEOF then some .eof else none },
          { f with
            offset := f.offset + UInt64.ofNat n
            eof := f.eof || (serverEOF && data.length ≤ n) }, w')

/-- `dirFile` is an open directory; `pos` is a Go `int`. -/
structure DirFile where
  fh : FileHandle
  name : Bytes
  attrs : Attr.Attributes
  entries : List FileInfo := []
  read : Bool := false
  pos : Int64 := 0
deriving DecidableEq

/-- What a call of `dirFile.ReadDir` ends in. -/
inductive DirCall
  | returned (chunk : List FileInfo) (err : Option Err)
  /-- A slice index was out of range. -/
  | panicked
deriving DecidableEq

/-- `d.entries[lo:hi]`.  (Go allows `hi` up to the capacity; here it never exceeds the length.) -/
def slice (entries : List FileInfo) (lo hi : Int64) : Option (List FileInfo) :=
  if 0 ≤ lo.toInt ∧ lo.toInt ≤ hi.toInt ∧ hi.toInt ≤ entries.length then
    some ((entries.take hi.toInt.toNat).drop lo.toInt.toNat)
  else none

/-- The part of `dirFile.ReadDir` behind the loading of the listing. -/
def DirFile.next (d : DirFile) (n : Int64) : DirCall × DirFile :=
  let len := Int64.ofNat d.entries.length
  if n ≤ 0 then
    match slice d.entries d.pos len with
    | none => (.panicked, d)
    | some rest => (.returned rest none, { d with pos := len })
  else if len ≤ d.pos then (.returned [] (some .eof), d)
  else
    let stop := d.pos + n
    let stop := if len < stop then len else stop
    match slice d.entries d.pos stop with
    | none => (.panicked, d)
    | some out => (.returned out none, { d with pos := stop })

/-- `dirFile.ReadDir` loads the listing when it is called first, and returns the next chunk. -/
def DirFile.readDir (pages : ℕ) (d : DirFile) (n : Int64) (w : W) :
    Option (DirCall × DirFile × W) :=
  if d.read then
    match d.next n with
    | (call, d') => some (call, d', w)
  else match readDirAll P pages d.fh w with
    | none => none
    | some (.error e, w') => some (.returned [] (some e), d, w')
    | some (.ok entries, w') =>
      match { d with entries, read := true : DirFile }.next n with
      | (call, d') => some (call, d', w')

/-- What `Open` returns. -/
inductive Opened
  | file (f : File)
  | dir (d : DirFile)
deriving DecidableEq

/-- `Open` opens the named file or directory. -/
def openNamed (name : Bytes) (w : W) : Except Err Opened × W :=
  if !validPath name then (.error (.path "open" name .errInvalid), w)
  else match resolve P name w with
    | (.error e, w₁) => (.error (pathError "open" name e), w₁)
    | (.ok (fh, attrs), w₁) =>
      let base := if name = ascii "." then ascii "." else pathBase name
      if attrs.isDir then (.ok (.dir { fh, name := base, attrs }), w₁)
      else (.ok (.file { fh, name := base, attrs }), w₁)

end FS

end NfsClient.Client
