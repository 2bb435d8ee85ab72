import NfsClient.Errors

/-!
# Operations and their arguments

The operation numbers, the small wire types and the argument structures of the operations
the client sends, and the `Compound` that carries them.
-/

namespace NfsClient.Nfs4

/-! ## Operation numbers -/

/-- `Opnum` is the `nfs_opnum4` operation number. -/
abbrev Opnum : Type := UInt32

def opClose : Opnum := 4
def opCommit : Opnum := 5
def opCreate : Opnum := 6
def opGetattr : Opnum := 9
def opGetfh : Opnum := 10
def opLink : Opnum := 11
def opLookup : Opnum := 15
def opOpen : Opnum := 18
def opOpenConfirm : Opnum := 20
def opPutfh : Opnum := 22
def opPutrootfh : Opnum := 24
def opRead : Opnum := 25
def opReaddir : Opnum := 26
def opReadlink : Opnum := 27
def opRemove : Opnum := 28
def opRename : Opnum := 29
def opRenew : Opnum := 30
def opRestorefh : Opnum := 31
def opSavefh : Opnum := 32
def opSetattr : Opnum := 34
def opSetclientid : Opnum := 35
def opSetclientidConfirm : Opnum := 36
def opWrite : Opnum := 38
def opExchangeID : Opnum := 42
def opCreateSession : Opnum := 43
def opDestroySession : Opnum := 44
def opSequence : Opnum := 53
def opDestroyClientID : Opnum := 57
def opReclaimComplete : Opnum := 58

/-! ## Wire types -/

/-- `FileHandle` is an `nfs_fh4`: an opaque server-assigned handle.  `none` is Go's nil. -/
abbrev FileHandle : Type := Option Bytes

/-- `Bitmap` is a `bitmap4`: an array of 32-bit words. -/
abbrev Bitmap : Type := List UInt32

/-- `SessionID` is the fixed-length `sessionid4`. -/
abbrev SessionID : Type := ByteArr 16

/-- `Stateid` is the `stateid4`: a sequence id and a 12-byte opaque part. -/
structure Stateid where
  seqid : UInt32 := 0
  other : ByteArr 12 := default
deriving DecidableEq, Inhabited

/-- `AnonStateid` is the all-zero stateid, valid for reading a file that was not opened. -/
def anonStateid : Stateid := {}

/-- `StableHow` is the `stable_how4` of WRITE. -/
abbrev StableHow : Type := UInt32

def fileSync4 : StableHow := 2

/-- `ChannelAttrs` are the `channel_attrs4` fore and back channel parameters. -/
structure ChannelAttrs where
  headerPadSize : UInt32 := 0
  maxRequestSize : UInt32 := 0
  maxResponseSize : UInt32 := 0
  maxResponseSizeCach : UInt32 := 0
  maxOperations : UInt32 := 0
  maxRequests : UInt32 := 0
deriving DecidableEq, Inhabited

/-! ## Argument structures -/

structure SetclientidArgs where
  verifier : ByteArr 8
  id : Bytes
  callbackProg : UInt32
  callbackNetID : Bytes
  callbackAddr : Bytes
  callbackIdent : UInt32
deriving DecidableEq

structure ReadArgs where
  stateid : Stateid
  offset : UInt64
  count : UInt32
deriving DecidableEq

structure ReaddirArgs where
  cookie : UInt64
  cookieverf : ByteArr 8
  dircount : UInt32
  maxcount : UInt32
  attrRequest : Bitmap
deriving DecidableEq

/-- `OpenArgs` opens, and optionally creates, a file in the current directory. -/
structure OpenArgs where
  seqid : UInt32
  shareAccess : UInt32
  shareDeny : UInt32
  clientID : UInt64
  owner : Bytes
  openType : UInt32 := 0
  createMode : UInt32 := 0
  createAttrMask : Bitmap := []
  createAttrVals : Bytes := []
  createVerf : ByteArr 8 := default
  name : Bytes
deriving DecidableEq

structure WriteArgs where
  stateid : Stateid
  offset : UInt64
  stable : StableHow
  data : Bytes
deriving DecidableEq

structure CreateArgs where
  type : UInt32
  linkData : Bytes := []
  objName : Bytes
  attrMask : Bitmap
  attrVals : Bytes
deriving DecidableEq

structure SetattrArgs where
  stateid : Stateid
  attrMask : Bitmap
  attrVals : Bytes
deriving DecidableEq

structure ExchangeIDArgs where
  verifier : ByteArr 8
  ownerID : Bytes
  flags : UInt32
deriving DecidableEq

structure CreateSessionArgs where
  clientID : UInt64
  sequenceID : UInt32
  flags : UInt32 := 0
  foreChan : ChannelAttrs
  backChan : ChannelAttrs
  cbProgram : UInt32 := 0
deriving DecidableEq

/-- `SequenceArgs` is the per-compound SEQUENCE op carrying session slot state. -/
structure SequenceArgs where
  sessionID : SessionID
  sequenceID : UInt32
  slotID : UInt32
  highestSlotID : UInt32
  cacheThis : Bool
deriving DecidableEq

/-- `Arg` is an operation argument: one constructor for each argument type. -/
inductive Arg
  | putrootfh
  | putfh (fh : FileHandle)
  | getfh
  | lookup (name : Bytes)
  | getattr (attrRequest : Bitmap)
  | setclientid (a : SetclientidArgs)
  | setclientidConfirm (clientID : UInt64) (verifier : ByteArr 8)
  | read (a : ReadArgs)
  | readdir (a : ReaddirArgs)
  | readlink
  | renew (clientID : UInt64)
  | openFile (a : OpenArgs)
  | openConfirm (stateid : Stateid) (seqid : UInt32)
  | write (a : WriteArgs)
  | commit (offset : UInt64) (count : UInt32)
  | close (seqid : UInt32) (stateid : Stateid)
  | create (a : CreateArgs)
  | remove (name : Bytes)
  | rename (oldName newName : Bytes)
  | link (newName : Bytes)
  | setattr (a : SetattrArgs)
  | savefh
  | restorefh
  | exchangeID (a : ExchangeIDArgs)
  | createSession (a : CreateSessionArgs)
  | destroySession (sessionID : SessionID)
  | destroyClientID (clientID : UInt64)
  | reclaimComplete (oneFS : Bool)
  | sequence (a : SequenceArgs)
deriving DecidableEq

/-- The seqid of an operation of an open-owner. -/
def Arg.seqid? : Arg → Option UInt32
  | .openFile a => some a.seqid
  | .openConfirm _ seqid => some seqid
  | .close seqid _ => some seqid
  | _ => none

/-- `Arg.Op` is the operation number of an argument. -/
def Arg.op : Arg → Opnum
  | .putrootfh => opPutrootfh
  | .putfh _ => opPutfh
  | .getfh => opGetfh
  | .lookup _ => opLookup
  | .getattr _ => opGetattr
  | .setclientid _ => opSetclientid
  | .setclientidConfirm .. => opSetclientidConfirm
  | .read _ => opRead
  | .readdir _ => opReaddir
  | .readlink => opReadlink
  | .renew _ => opRenew
  | .openFile _ => opOpen
  | .openConfirm .. => opOpenConfirm
  | .write _ => opWrite
  | .commit .. => opCommit
  | .close .. => opClose
  | .create _ => opCreate
  | .remove _ => opRemove
  | .rename .. => opRename
  | .link _ => opLink
  | .setattr _ => opSetattr
  | .savefh => opSavefh
  | .restorefh => opRestorefh
  | .exchangeID _ => opExchangeID
  | .createSession _ => opCreateSession
  | .destroySession _ => opDestroySession
  | .destroyClientID _ => opDestroyClientID
  | .reclaimComplete _ => opReclaimComplete
  | .sequence _ => opSequence

/-! ## Compounds -/

/-- `Compound` is a COMPOUND4args request: a tag, the minor version and the operations. -/
structure Compound where
  tag : Bytes
  minorVersion : UInt32 := 0
  ops : List Arg := []
deriving DecidableEq

/-- `NewCompound` returns a compound with the given tag and no operation. -/
def newCompound (tag : Bytes) : Compound := { tag := tag }

/-- `Compound.Add` appends an operation. -/
def Compound.add (c : Compound) (op : Arg) : Compound := { c with ops := c.ops ++ [op] }

@[simp] lemma Compound.add_ops (c : Compound) (op : Arg) : (c.add op).ops = c.ops ++ [op] := rfl

end NfsClient.Nfs4
