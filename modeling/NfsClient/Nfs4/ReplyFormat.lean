import NfsClient.Nfs4.Results
import NfsClient.Lib.Wire

/-!
# The COMPOUND4res format

The results of the operations as RFC 7530 and RFC 8881 define them, with all the fields that
a server sends, and their XDR encoding.  This is the server's side of the protocol, written
from the grammar of the standards and not from the client: the client keeps only some of the
fields, and skips the others.

Variable-length data carries the bound that the client's decoder puts on it, counted arrays
carry the bound of their counter, and a failed result carries a status other than NFS4_OK, so
that every value has an encoding that the grammar describes.
-/

namespace NfsClient.Nfs4.Format

open NfsClient.Lib NfsClient.Xdr

/-! ## Pieces -/

/-- Variable-length data within the default limit of the client's decoder. -/
abbrev Field : Type := { p : Bytes // p.length ≤ defaultMaxLen.toNat }

/-- An array whose length fits its counter. -/
abbrev Counted (α : Type) : Type := { as : List α // as.length < 2 ^ 32 }

def Field.encode (p : Field) : Bytes := Wire.opaqueVar p.1

/-- `bitmap4`. -/
abbrev Mask : Type := Counted UInt32

def Mask.encode (b : Mask) : Bytes := Wire.array Wire.uint b.1

/-- Fixed-length data. -/
def fixed {n : ℕ} (a : ByteArr n) : Bytes := Wire.opaqueFixed a.bytes

/-- `stateid4`. -/
def stateid (s : Stateid) : Bytes := [Wire.uint s.seqid, fixed s.other].flatten

/-- `change_info4`. -/
structure ChangeInfo where
  atomic : Bool
  before : UInt64
  after : UInt64

def ChangeInfo.encode (c : ChangeInfo) : Bytes :=
  [Wire.bool c.atomic, Wire.hyper c.before, Wire.hyper c.after].flatten

/-- A result that is a union switched on the status: the value on NFS4_OK, and void for any
other status. -/
inductive Result (α : Type)
  | ok (a : α)
  | failed (status : Status) (ne : status ≠ nfs4Ok)

namespace Result

variable {α β : Type}

def encode (enc : α → Bytes) : Result α → Bytes
  | .ok a => [Wire.uint nfs4Ok, enc a].flatten
  | .failed status _ => [Wire.uint status].flatten

/-- Case distinction: on success by the value, otherwise by the status. -/
def elim (r : Result α) (ok : α → β) (failed : Status → β) : β :=
  match r with
  | .ok a => ok a
  | .failed status _ => failed status

/-- The status. -/
def status : Result α → Status
  | .ok _ => nfs4Ok
  | .failed status _ => status

end Result

/-! ## Results on success -/

/-- `nfsace4`. -/
structure Ace where
  type : UInt32
  flag : UInt32
  accessMask : UInt32
  who : Field

def Ace.encode (a : Ace) : Bytes :=
  [Wire.uint a.type, Wire.uint a.flag, Wire.uint a.accessMask, a.who.encode].flatten

/-- `nfs_space_limit4`. -/
inductive SpaceLimit
  | size (filesize : UInt64)
  | blocks (numBlocks bytesPerBlock : UInt32)

def SpaceLimit.encode : SpaceLimit → Bytes
  | .size filesize => [Wire.uint 1, Wire.hyper filesize].flatten
  | .blocks numBlocks bytesPerBlock =>
      [Wire.uint 2, Wire.uint numBlocks, Wire.uint bytesPerBlock].flatten

/-- `open_delegation4`. -/
inductive Delegation
  | none
  | read (stateid : Stateid) (recalled : Bool) (permissions : Ace)
  | write (stateid : Stateid) (recalled : Bool) (limit : SpaceLimit) (permissions : Ace)

def Delegation.encode : Delegation → Bytes
  | .none => [Wire.uint 0].flatten
  | .read s recalled ace => [Wire.uint 1, stateid s, Wire.bool recalled, ace.encode].flatten
  | .write s recalled limit ace =>
      [Wire.uint 2, stateid s, Wire.bool recalled, limit.encode, ace.encode].flatten

/-- `OPEN4resok`. -/
structure Opened where
  stateid : Stateid
  cinfo : ChangeInfo
  rflags : UInt32
  attrset : Mask
  delegation : Delegation

def Opened.encode (o : Opened) : Bytes :=
  [Format.stateid o.stateid, o.cinfo.encode, Wire.uint o.rflags, o.attrset.encode,
    o.delegation.encode].flatten

/-- `fattr4`. -/
structure Attrs where
  mask : Mask
  vals : Field

def Attrs.encode (a : Attrs) : Bytes := [a.mask.encode, a.vals.encode].flatten

/-- `READ4resok`. -/
structure ReadData where
  eof : Bool
  data : Field

def ReadData.encode (r : ReadData) : Bytes := [Wire.bool r.eof, r.data.encode].flatten

/-- `entry4`, without the pointer to the next one. -/
structure Entry where
  cookie : UInt64
  name : Field
  attrs : Attrs

def Entry.encode (e : Entry) : Bytes :=
  [Wire.hyper e.cookie, e.name.encode, e.attrs.mask.encode, e.attrs.vals.encode].flatten

/-- The linked list of the entries: a boolean before each of them and after the last. -/
def encodeEntries : List Entry → Bytes
  | [] => [Wire.bool false].flatten
  | e :: es => [Wire.bool true, e.encode, encodeEntries es].flatten

/-- `READDIR4resok`. -/
structure Directory where
  cookieverf : ByteArr 8
  entries : List Entry
  eof : Bool

def Directory.encode (d : Directory) : Bytes :=
  [fixed d.cookieverf, encodeEntries d.entries, Wire.bool d.eof].flatten

/-- `WRITE4resok`. -/
structure Written where
  count : UInt32
  committed : StableHow
  verf : ByteArr 8

def Written.encode (w : Written) : Bytes :=
  [Wire.uint w.count, Wire.uint w.committed, fixed w.verf].flatten

/-- `CREATE4resok`. -/
structure Created where
  cinfo : ChangeInfo
  attrset : Mask

def Created.encode (c : Created) : Bytes := [c.cinfo.encode, c.attrset.encode].flatten

/-- `RENAME4resok`. -/
structure Renamed where
  source : ChangeInfo
  target : ChangeInfo

def Renamed.encode (r : Renamed) : Bytes := [r.source.encode, r.target.encode].flatten

/-- `SETCLIENTID4res` has a second arm that is not void. -/
inductive Setclientid
  | ok (clientID : UInt64) (confirm : ByteArr 8)
  | clidInuse (netID addr : Field)
  | failed (status : Status) (ne : status ≠ nfs4Ok ∧ status ≠ nfs4errClidInuse)

def Setclientid.encode : Setclientid → Bytes
  | .ok clientID confirm => [Wire.uint nfs4Ok, Wire.hyper clientID, fixed confirm].flatten
  | .clidInuse netID addr =>
      [Wire.uint nfs4errClidInuse, netID.encode, addr.encode].flatten
  | .failed status _ => [Wire.uint status].flatten

/-- `nfs_impl_id4`. -/
structure ImplID where
  domain : Field
  name : Field
  seconds : Int64
  nseconds : UInt32

def ImplID.encode (i : ImplID) : Bytes :=
  [i.domain.encode, i.name.encode, Wire.hyper i.seconds.toUInt64, Wire.uint i.nseconds].flatten

/-- `EXCHANGE_ID4resok` with state protection SP4_NONE. -/
structure Exchanged where
  clientID : UInt64
  sequenceID : UInt32
  flags : UInt32
  minorID : UInt64
  majorID : Field
  scope : Field
  implIDs : Counted ImplID

def Exchanged.encode (e : Exchanged) : Bytes :=
  [Wire.hyper e.clientID, Wire.uint e.sequenceID, Wire.uint e.flags, Wire.uint 0,
    Wire.hyper e.minorID, e.majorID.encode, e.scope.encode,
    Wire.array ImplID.encode e.implIDs.1].flatten

/-- `channel_attrs4`. -/
structure Channel where
  attrs : ChannelAttrs
  rdmaIrd : Counted UInt32

def Channel.encode (c : Channel) : Bytes :=
  [Wire.uint c.attrs.headerPadSize, Wire.uint c.attrs.maxRequestSize,
    Wire.uint c.attrs.maxResponseSize, Wire.uint c.attrs.maxResponseSizeCach,
    Wire.uint c.attrs.maxOperations, Wire.uint c.attrs.maxRequests,
    Wire.array Wire.uint c.rdmaIrd.1].flatten

/-- `CREATE_SESSION4resok`. -/
structure SessionCreated where
  sessionID : SessionID
  sequenceID : UInt32
  flags : UInt32
  foreChan : Channel
  backChan : Channel

def SessionCreated.encode (c : SessionCreated) : Bytes :=
  [fixed c.sessionID, Wire.uint c.sequenceID, Wire.uint c.flags, c.foreChan.encode,
    c.backChan.encode].flatten

/-- `SEQUENCE4resok`. -/
structure Sequenced where
  sessionID : SessionID
  sequenceID : UInt32
  slotID : UInt32
  highestSlotID : UInt32
  targetHighestSlot : UInt32
  statusFlags : UInt32

def Sequenced.encode (s : Sequenced) : Bytes :=
  [fixed s.sessionID, Wire.uint s.sequenceID, Wire.uint s.slotID, Wire.uint s.highestSlotID,
    Wire.uint s.targetHighestSlot, Wire.uint s.statusFlags].flatten

/-! ## Results of any operation -/

/-- `nfs_resop4`: one constructor for each operation, and `status` for those whose result is
a bare status. -/
inductive OpResult
  | status (op : Opnum) (status : Status)
  | getfh (r : Result Field)
  | getattr (r : Result Attrs)
  | setclientid (r : Setclientid)
  | read (r : Result ReadData)
  | readdir (r : Result Directory)
  | readlink (r : Result Field)
  | openFile (r : Result Opened)
  | openConfirm (r : Result Stateid)
  | write (r : Result Written)
  | commit (r : Result (ByteArr 8))
  | close (r : Result Stateid)
  | create (r : Result Created)
  | remove (r : Result ChangeInfo)
  | rename (r : Result Renamed)
  | link (r : Result ChangeInfo)
  | setattr (status : Status) (attrset : Mask)
  | exchangeID (r : Result Exchanged)
  | createSession (r : Result SessionCreated)
  | destroySession (status : Status)
  | destroyClientID (status : Status)
  | reclaimComplete (status : Status)
  | sequence (r : Result Sequenced)

namespace OpResult

/-- The operation number. -/
def op : OpResult → Opnum
  | .status op _ => op
  | .getfh _ => opGetfh
  | .getattr _ => opGetattr
  | .setclientid _ => opSetclientid
  | .read _ => opRead
  | .readdir _ => opReaddir
  | .readlink _ => opReadlink
  | .openFile _ => opOpen
  | .openConfirm _ => opOpenConfirm
  | .write _ => opWrite
  | .commit _ => opCommit
  | .close _ => opClose
  | .create _ => opCreate
  | .remove _ => opRemove
  | .rename _ => opRename
  | .link _ => opLink
  | .setattr .. => opSetattr
  | .exchangeID _ => opExchangeID
  | .createSession _ => opCreateSession
  | .destroySession _ => opDestroySession
  | .destroyClientID _ => opDestroyClientID
  | .reclaimComplete _ => opReclaimComplete
  | .sequence _ => opSequence

/-- The encoding of the result, without the operation number. -/
def body : OpResult → Bytes
  | .status _ st | .destroySession st | .destroyClientID st | .reclaimComplete st => Wire.uint st
  | .getfh r | .readlink r => r.encode Field.encode
  | .getattr r => r.encode Attrs.encode
  | .setclientid r => r.encode
  | .read r => r.encode ReadData.encode
  | .readdir r => r.encode Directory.encode
  | .openFile r => r.encode Opened.encode
  | .openConfirm r | .close r => r.encode Format.stateid
  | .write r => r.encode Written.encode
  | .commit r => r.encode fixed
  | .create r => r.encode Created.encode
  | .remove r | .link r => r.encode ChangeInfo.encode
  | .rename r => r.encode Renamed.encode
  | .setattr st attrset => [Wire.uint st, attrset.encode].flatten
  | .exchangeID r => r.encode Exchanged.encode
  | .createSession r => r.encode SessionCreated.encode
  | .sequence r => r.encode Sequenced.encode

/-- The encoding of a result. -/
def encode (v : OpResult) : Bytes := [Wire.uint v.op, v.body].flatten

/-- The status of a result. -/
def stat : OpResult → Status
  | .status _ st | .destroySession st | .destroyClientID st | .reclaimComplete st
  | .setattr st _ => st
  | .getfh r | .readlink r => r.status
  | .getattr r => r.status
  | .setclientid (.ok ..) => nfs4Ok
  | .setclientid (.clidInuse ..) => nfs4errClidInuse
  | .setclientid (.failed st _) => st
  | .read r => r.status
  | .readdir r => r.status
  | .openFile r => r.status
  | .openConfirm r | .close r => r.status
  | .write r => r.status
  | .commit r => r.status
  | .create r => r.status
  | .remove r | .link r => r.status
  | .rename r => r.status
  | .exchangeID r => r.status
  | .createSession r => r.status
  | .sequence r => r.status

/-- The result type that decodes this result, freshly declared. -/
def kind : OpResult → Res
  | .status .. => .status {}
  | .getfh _ => .getfh {}
  | .getattr _ => .getattr {}
  | .setclientid _ => .setclientid {}
  | .read _ => .read {}
  | .readdir _ => .readdir {}
  | .readlink _ => .readlink {}
  | .openFile _ => .openFile {}
  | .openConfirm _ => .openConfirm {}
  | .write _ => .write {}
  | .commit _ => .commit {}
  | .close _ => .close {}
  | .create _ => .create {}
  | .remove _ => .remove {}
  | .rename _ => .rename {}
  | .link _ => .link {}
  | .setattr .. => .setattr {}
  | .exchangeID _ => .exchangeID {}
  | .createSession _ => .createSession {}
  | .destroySession _ => .destroySession {}
  | .destroyClientID _ => .destroyClientID {}
  | .reclaimComplete _ => .reclaimComplete {}
  | .sequence _ => .sequence {}

end OpResult

/-- A `COMPOUND4res` with the given header: the status, the tag and the number of the
results, and the bytes that follow, well formed or not. -/
def replyBody (status : Status) (tag : Bytes) (count : UInt32) (resops : Bytes) : Bytes :=
  [Wire.uint status, Wire.opaqueVar tag, Wire.uint count, resops].flatten

/-- `COMPOUND4res`: the status, the tag and the results. -/
def encodeReply (status : Status) (tag : Field) (vs : List OpResult) : Bytes :=
  replyBody status tag.1 (UInt32.ofNat vs.length) (vs.flatMap OpResult.encode)

end NfsClient.Nfs4.Format
