import NfsClient.Nfs4.Args
import NfsClient.Xdr.Decoder

/-!
# File attributes

The attribute bitmaps, the decoding of an `attrlist4` into typed attributes, and the encoding
of the attributes that a client may set.
-/

namespace NfsClient.Nfs4.Attr

open NfsClient.Lib NfsClient.Xdr NfsClient.Xdr.Decoder

/-! ## Attribute numbers and bitmaps -/

/-- `AttrNum` is an `fattr4` attribute number. -/
abbrev AttrNum : Type := UInt32

def attrType : AttrNum := 1
def attrSize : AttrNum := 4
def attrFSID : AttrNum := 8
def attrFileID : AttrNum := 20
def attrMode : AttrNum := 33
def attrNumLinks : AttrNum := 35
def attrOwner : AttrNum := 36
def attrOwnerGroup : AttrNum := 37
def attrRawDev : AttrNum := 41
def attrSpaceUsed : AttrNum := 45
def attrTimeAccess : AttrNum := 47
def attrTimeMetadata : AttrNum := 52
def attrTimeModify : AttrNum := 53

/-- `BitmapFor` builds a bitmap with the bits of the given attributes set. -/
def bitmapFor (attrs : List AttrNum) : Bitmap :=
  let max : AttrNum := attrs.foldl (fun max a => if max < a then a else max) 0
  let words := (max / 32).toNat + 1
  attrs.foldl (fun bm (a : AttrNum) => bm.modify (a / 32).toNat (· ||| (1 <<< (a % 32))))
    (List.replicate words 0)

/-- `SetAttrs` returns the attribute numbers that are set, in increasing order. -/
def setAttrs (b : Bitmap) : List AttrNum :=
  b.zipIdx.flatMap fun (w, word) =>
    (List.range 32).filterMap fun bit =>
      if w &&& (1 <<< UInt32.ofNat bit) ≠ 0 then some (UInt32.ofNat (word * 32 + bit)) else none

/-- `StandardMask` requests the standard attribute set. -/
def standardMask : Bitmap :=
  bitmapFor [attrType, attrSize, attrFSID, attrFileID, attrMode, attrNumLinks, attrOwner,
    attrOwnerGroup, attrRawDev, attrSpaceUsed, attrTimeAccess, attrTimeMetadata, attrTimeModify]

/-! ## Decoding -/

/-- A `time.Time` in UTC: seconds and nanoseconds since 1970. -/
structure Time where
  sec : Int64
  nsec : UInt32
deriving DecidableEq

/-- The zero `time.Time` is the beginning of the year 1. -/
instance : Inhabited Time := ⟨⟨-62135596800, 0⟩⟩

/-- `time.Unix(secs, int64(nsecs))` carries whole seconds over. -/
def unixTime (secs : Int64) (nsecs : UInt32) : Time :=
  ⟨secs + (nsecs / 1000000000).toUInt64.toInt64, nsecs % 1000000000⟩

/-- `Attributes` holds the decoded standard attributes. -/
structure Attributes where
  present : Bitmap := []
  type : UInt32 := 0
  size : UInt64 := 0
  fsid : UInt64 × UInt64 := (0, 0)
  fileID : UInt64 := 0
  mode : UInt32 := 0
  numLinks : UInt32 := 0
  owner : Bytes := []
  ownerGroup : Bytes := []
  rawDev : UInt32 × UInt32 := (0, 0)
  spaceUsed : UInt64 := 0
  timeAccess : Time := default
  timeMeta : Time := default
  timeModify : Time := default
deriving DecidableEq

/-- `decodeTime` reads an `nfstime4`. -/
def decodeTime : Dec Time := do
  let secs ← int64
  let nsecs ← uint32
  fun d => (if d.err.isSome then default else unixTime secs nsecs, d)

/-- The body of the loop of `Decode`: one attribute, or `none` for an attribute whose length is
not known. -/
def Attributes.decodeAttr (a : Attributes) (num : AttrNum) : Option (Dec Attributes) :=
  if num = attrType then some do return { a with type := ← uint32 }
  else if num = attrSize then some do return { a with size := ← uint64 }
  else if num = attrFSID then some do return { a with fsid := (← uint64, ← uint64) }
  else if num = attrFileID then some do return { a with fileID := ← uint64 }
  else if num = attrMode then some do return { a with mode := ← uint32 }
  else if num = attrNumLinks then some do return { a with numLinks := ← uint32 }
  else if num = attrOwner then some do return { a with owner := ← string }
  else if num = attrOwnerGroup then some do return { a with ownerGroup := ← string }
  else if num = attrRawDev then some do return { a with rawDev := (← uint32, ← uint32) }
  else if num = attrSpaceUsed then some do return { a with spaceUsed := ← uint64 }
  else if num = attrTimeAccess then some do return { a with timeAccess := ← decodeTime }
  else if num = attrTimeMetadata then some do return { a with timeMeta := ← decodeTime }
  else if num = attrTimeModify then some do return { a with timeModify := ← decodeTime }
  else none

/-- What a decoder of attribute lists does with an attribute number, and its error texts. -/
structure ListDecoder (α : Type) where
  field : α → AttrNum → Option (Dec α)
  unsupported : String
  decoding : String

/-- The loop over the attributes of the mask, which `Decode` and `DecodeStatvfs` run.  It returns
the decoder too, for what is left of the list. -/
def ListDecoder.loop {α : Type} (l : ListDecoder α) : List AttrNum → α → Dec (Except Err α)
  | [], a => pure (.ok a)
  | num :: nums, a => fun d =>
    match l.field a num with
    | none => (.error (.text (l.unsupported ++ toString num)), d)
    | some x =>
      match x d with
      | (a', d') =>
        match d'.err with
        | some e => (.error (.wrap (l.decoding ++ toString num) e.toErr), d')
        | none => loop l nums a' d'

/-- The decoder of the standard attributes. -/
def standard : ListDecoder Attributes where
  field := Attributes.decodeAttr
  unsupported := "attr: cannot decode unsupported attribute "
  decoding := "attr: decoding attribute "

/-- `Decode`, with the decoder as it is left. -/
def decodeRun (mask : Bitmap) (vals : Bytes) : Except Err Attributes × Decoder :=
  standard.loop (setAttrs mask) { present := mask } (newDecoder vals)

/-- `Decode` parses an `attrlist4` according to a mask. -/
def decode (mask : Bitmap) (vals : Bytes) : Except Err Attributes := (decodeRun mask vals).1

/-! ## File modes -/

def ftypeDir : UInt32 := 2
def ftypeBlk : UInt32 := 3
def ftypeChr : UInt32 := 4
def ftypeLnk : UInt32 := 5
def ftypeSock : UInt32 := 6
def ftypeFifo : UInt32 := 7
def ftypeAttrDir : UInt32 := 8

/-- `fs.ModeDir`, and below the other bits of `fs.FileMode`. -/
def modeDir : UInt32 := 0x80000000
def modeSymlink : UInt32 := 0x8000000
def modeDevice : UInt32 := 0x4000000
def modeNamedPipe : UInt32 := 0x2000000
def modeSocket : UInt32 := 0x1000000
def modeSetuid : UInt32 := 0x800000
def modeSetgid : UInt32 := 0x400000
def modeCharDevice : UInt32 := 0x200000
def modeSticky : UInt32 := 0x100000

/-- The bits of `FileMode` that stand for the type of the file. -/
def typeBits (type : UInt32) : UInt32 :=
  if type = ftypeDir ∨ type = ftypeAttrDir then modeDir
  else if type = ftypeLnk then modeSymlink
  else if type = ftypeBlk then modeDevice
  else if type = ftypeChr then modeDevice ||| modeCharDevice
  else if type = ftypeSock then modeSocket
  else if type = ftypeFifo then modeNamedPipe
  else 0

/-- `FileMode` maps the type and the mode bits onto an `fs.FileMode`. -/
def Attributes.fileMode (a : Attributes) : UInt32 :=
  (a.mode &&& 0o777) ||| (if a.mode &&& 0o4000 ≠ 0 then modeSetuid else 0) |||
    (if a.mode &&& 0o2000 ≠ 0 then modeSetgid else 0) |||
    (if a.mode &&& 0o1000 ≠ 0 then modeSticky else 0) ||| typeBits a.type

/-- `FileMode().IsDir()` -/
def Attributes.isDir (a : Attributes) : Bool := a.fileMode &&& modeDir ≠ 0

/-! ## Encoding -/

/-- `SettableAttrs` describes the attributes a client may set; `none` is left unset. -/
structure SettableAttrs where
  mode : Option UInt32 := none
  size : Option UInt64 := none
  timeAccess : Option Time := none
  timeModify : Option Time := none
deriving DecidableEq

/-- `encodeSettime` writes a `settime4` with the client's time. -/
def encodeSettime (t : Time) : Bytes :=
  beBytes 4 1 ++ beBytes 8 t.sec.toUInt64.toNat ++ beBytes 4 t.nsec.toNat

/-- `EncodeFattr` builds a `fattr4`: the bitmap and the values in increasing attribute
order. -/
def encodeFattr (s : SettableAttrs) : Bitmap × Bytes :=
  (bitmapFor
    ((if s.size.isSome then [attrSize] else []) ++ (if s.mode.isSome then [attrMode] else []) ++
      (if s.timeAccess.isSome then [attrTimeAccess] else []) ++
      (if s.timeModify.isSome then [attrTimeModify] else [])),
    s.size.elim [] (fun v => beBytes 8 v.toNat) ++ s.mode.elim [] (fun v => beBytes 4 v.toNat) ++
      s.timeAccess.elim [] encodeSettime ++ s.timeModify.elim [] encodeSettime)

end NfsClient.Nfs4.Attr
