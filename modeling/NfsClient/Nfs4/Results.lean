import NfsClient.Nfs4.Args
import NfsClient.Xdr.Decoder

/-!
# Operation results

The result decoders of the operations.  In Go a result is a pointer to a structure whose
`DecodeRes` method overwrites the fields it decodes; here `decodeRes` maps the old value of
the structure to the new one, so that the fields a reply does not reach keep what they had.
-/

namespace NfsClient.Nfs4

open NfsClient.Xdr NfsClient.Xdr.Decoder

/-! ## Shared pieces -/

/-- The loop of `DecodeBitmap` over the words. -/
def decodeWords : ℕ → Dec Bitmap
  | 0 => pure []
  | n + 1 => do
      let w ← uint32
      return w :: (← decodeWords n)

/-- `DecodeBitmap` reads a `bitmap4`. -/
def decodeBitmap : Dec Bitmap := fun d =>
  match uint32 d with
  | (n, d₁) => if d₁.err.isSome then ([], d₁) else decodeWords n.toNat d₁

/-- `DecodeStateid` reads a `stateid4`. -/
def decodeStateid : Dec Stateid := do
  let seqid ← uint32
  let other ← fixedOpaque 12
  return { seqid := seqid, other := (default : ByteArr 12).copyFrom (other.getD []) }

/-- A `change_info4`, decoded and dropped. -/
def skipChangeInfo : Dec Unit := do
  let _ ← bool
  let _ ← uint64
  let _ ← uint64

/-- `decodeNfsace4` consumes an `nfsace4`. -/
def decodeNfsace4 : Dec Unit := do
  let _ ← uint32
  let _ ← uint32
  let _ ← uint32
  let _ ← string

/-- `decodeSpaceLimit` consumes an `nfs_space_limit4` union. -/
def decodeSpaceLimit : Dec Unit := do
  let limitBy ← uint32
  if limitBy = 1 then
    let _ ← uint64
  else if limitBy = 2 then
    let _ ← uint32
    let _ ← uint32

/-- The `open_delegation4` of an OPEN result, decoded and dropped. -/
def skipDelegation : Dec Unit := do
  let delegType ← uint32
  if delegType = 1 then
    let _ ← decodeStateid
    let _ ← bool
    decodeNfsace4
  else if delegType = 2 then
    let _ ← decodeStateid
    let _ ← bool
    decodeSpaceLimit
    decodeNfsace4

/-- The loop over `ca_rdma_ird` in `decodeChannelAttrs`. -/
def skipWords : ℕ → Dec Unit
  | 0 => pure ()
  | n + 1 => do
      let _ ← uint32
      skipWords n

/-- `decodeChannelAttrs` reads a `channel_attrs4`. -/
def decodeChannelAttrs : Dec ChannelAttrs := do
  let headerPadSize ← uint32
  let maxRequestSize ← uint32
  let maxResponseSize ← uint32
  let maxResponseSizeCach ← uint32
  let maxOperations ← uint32
  let maxRequests ← uint32
  let n ← uint32
  skipWords n.toNat
  return { headerPadSize, maxRequestSize, maxResponseSize, maxResponseSizeCach,
           maxOperations, maxRequests }

/-- The loop over the server's `nfs_impl_id4` list in `ExchangeIDRes.DecodeRes`. -/
def skipImplIDs : ℕ → Dec Unit
  | 0 => pure ()
  | n + 1 => do
      let _ ← string
      let _ ← string
      let _ ← int64
      let _ ← uint32
      skipImplIDs n

/-! ## Result structures -/

/-- `StatusRes` decodes operations whose result is a bare `nfsstat4`. -/
structure StatusRes where
  status : Status := nfs4Ok
deriving DecidableEq

structure GetfhRes where
  status : Status := nfs4Ok
  fh : FileHandle := none
deriving DecidableEq

structure GetattrRes where
  status : Status := nfs4Ok
  attrMask : Bitmap := []
  attrVals : Bytes := []
deriving DecidableEq

structure SetclientidRes where
  status : Status := nfs4Ok
  clientID : UInt64 := 0
  confirm : ByteArr 8 := default
  clientUsingNetID : Bytes := []
  clientUsingAddr : Bytes := []
deriving DecidableEq

structure ReadRes where
  status : Status := nfs4Ok
  eof : Bool := false
  data : Bytes := []
deriving DecidableEq

/-- `DirEntry` is a decoded READDIR entry. -/
structure DirEntry where
  cookie : UInt64 := 0
  name : Bytes := []
  attrMask : Bitmap := []
  attrVals : Bytes := []
deriving DecidableEq

structure ReaddirRes where
  status : Status := nfs4Ok
  cookieverf : ByteArr 8 := default
  entries : List DirEntry := []
  eof : Bool := false
deriving DecidableEq

structure ReadlinkRes where
  status : Status := nfs4Ok
  link : Bytes := []
deriving DecidableEq

structure OpenRes where
  status : Status := nfs4Ok
  stateid : Stateid := {}
  rFlags : UInt32 := 0
  attrSet : Bitmap := []
deriving DecidableEq

/-- `OpenConfirmRes` and `CloseRes` carry a status and, on success, a stateid. -/
structure StateidRes where
  status : Status := nfs4Ok
  stateid : Stateid := {}
deriving DecidableEq

structure WriteRes where
  status : Status := nfs4Ok
  count : UInt32 := 0
  committed : StableHow := 0
  verf : ByteArr 8 := default
deriving DecidableEq

structure CommitRes where
  status : Status := nfs4Ok
  verf : ByteArr 8 := default
deriving DecidableEq

/-- `CreateRes` and `SetattrRes` carry a status and the set of attributes set. -/
structure AttrSetRes where
  status : Status := nfs4Ok
  attrSet : Bitmap := []
deriving DecidableEq

structure ExchangeIDRes where
  status : Status := nfs4Ok
  clientID : UInt64 := 0
  sequenceID : UInt32 := 0
  flags : UInt32 := 0
deriving DecidableEq

structure CreateSessionRes where
  status : Status := nfs4Ok
  sessionID : SessionID := default
  sequenceID : UInt32 := 0
  flags : UInt32 := 0
  foreChan : ChannelAttrs := {}
  backChan : ChannelAttrs := {}
deriving DecidableEq

structure SequenceRes where
  status : Status := nfs4Ok
  sessionID : SessionID := default
  sequenceID : UInt32 := 0
  slotID : UInt32 := 0
  highestSlotID : UInt32 := 0
  targetHighestSlot : UInt32 := 0
  statusFlags : UInt32 := 0
deriving DecidableEq

/-! ## Decoding one result -/

def StatusRes.decodeRes (r : StatusRes) : Dec StatusRes := do
  let status ← uint32
  return { r with status }

def GetfhRes.decodeRes (r : GetfhRes) : Dec GetfhRes := do
  let status ← uint32
  if status = nfs4Ok then
    let fh ← varOpaque
    return { r with status, fh }
  else return { r with status }

def GetattrRes.decodeRes (r : GetattrRes) : Dec GetattrRes := do
  let status ← uint32
  if status = nfs4Ok then
    let attrMask ← decodeBitmap
    let attrVals ← varOpaque
    return { r with status, attrMask, attrVals := attrVals.getD [] }
  else return { r with status }

def SetclientidRes.decodeRes (r : SetclientidRes) : Dec SetclientidRes := do
  let status ← uint32
  if status = nfs4Ok then
    let clientID ← uint64
    let confirm ← fixedOpaque 8
    return { r with status, clientID, confirm := r.confirm.copyFrom (confirm.getD []) }
  else if status = nfs4errClidInuse then
    let clientUsingNetID ← string
    let clientUsingAddr ← string
    return { r with status, clientUsingNetID, clientUsingAddr }
  else return { r with status }

def ReadRes.decodeRes (r : ReadRes) : Dec ReadRes := do
  let status ← uint32
  if status = nfs4Ok then
    let eof ← bool
    let data ← varOpaque
    return { r with status, eof, data := data.getD [] }
  else return { r with status }

/-- The body of one entry of a READDIR result. -/
def DirEntry.decode : Dec DirEntry := do
  let cookie ← uint64
  let name ← string
  let attrMask ← decodeBitmap
  let attrVals ← varOpaque
  return { cookie, name, attrMask, attrVals := attrVals.getD [] }

/-- The loop of `ReaddirRes.DecodeRes`: a value-follows boolean precedes each entry.  The
flag of the result tells how the loop was left: `true` by `break`, `false` by a `return`
from inside an entry.  Each turn that continues consumes input, so a fuel above the length
of the unread input is never used up. -/
def decodeEntries : ℕ → List DirEntry → Dec (List DirEntry × Bool)
  | 0, entries => pure (entries, true)
  | fuel + 1, entries => fun d =>
      match bool d with
      | (more, d₁) =>
        if d₁.err.isSome || !more then ((entries, true), d₁)
        else match DirEntry.decode d₁ with
          | (e, d₂) =>
            if d₂.err.isSome then ((entries, false), d₂)
            else decodeEntries fuel (entries ++ [e]) d₂

def ReaddirRes.decodeRes (r : ReaddirRes) : Dec ReaddirRes := do
  let status ← uint32
  if status = nfs4Ok then
    let cookieverf ← fixedOpaque 8
    let r := { r with status, cookieverf := r.cookieverf.copyFrom (cookieverf.getD []) }
    let (entries, broke) ← fun d => decodeEntries (d.r.length + 1) r.entries d
    if broke then
      let eof ← bool
      return { r with entries, eof }
    else return { r with entries }
  else return { r with status }

def ReadlinkRes.decodeRes (r : ReadlinkRes) : Dec ReadlinkRes := do
  let status ← uint32
  if status = nfs4Ok then
    let link ← string
    return { r with status, link }
  else return { r with status }

def OpenRes.decodeRes (r : OpenRes) : Dec OpenRes := do
  let status ← uint32
  if status = nfs4Ok then
    let stateid ← decodeStateid
    skipChangeInfo
    let rFlags ← uint32
    let attrSet ← decodeBitmap
    skipDelegation
    return { r with status, stateid, rFlags, attrSet }
  else return { r with status }

/-- `OpenRes.NeedsConfirm` reports whether the server requires OPEN_CONFIRM: the flag
`OpenResultConfirm` is bit 1. -/
def OpenRes.needsConfirm (r : OpenRes) : Bool := r.rFlags &&& 2 != 0

/-- `OpenConfirmRes.DecodeRes` and `CloseRes.DecodeRes`. -/
def StateidRes.decodeRes (r : StateidRes) : Dec StateidRes := do
  let status ← uint32
  if status = nfs4Ok then
    let stateid ← decodeStateid
    return { r with status, stateid }
  else return { r with status }

def WriteRes.decodeRes (r : WriteRes) : Dec WriteRes := do
  let status ← uint32
  if status = nfs4Ok then
    let count ← uint32
    let committed ← uint32
    let verf ← fixedOpaque 8
    return { r with status, count, committed, verf := r.verf.copyFrom (verf.getD []) }
  else return { r with status }

def CommitRes.decodeRes (r : CommitRes) : Dec CommitRes := do
  let status ← uint32
  if status = nfs4Ok then
    let verf ← fixedOpaque 8
    return { r with status, verf := r.verf.copyFrom (verf.getD []) }
  else return { r with status }

/-- `CreateRes.DecodeRes`: the change info and the attribute set follow on success only. -/
def AttrSetRes.decodeCreate (r : AttrSetRes) : Dec AttrSetRes := do
  let status ← uint32
  if status = nfs4Ok then
    skipChangeInfo
    let attrSet ← decodeBitmap
    return { r with status, attrSet }
  else return { r with status }

/-- `SetattrRes.DecodeRes`: the attribute set follows whatever the status. -/
def AttrSetRes.decodeSetattr (r : AttrSetRes) : Dec AttrSetRes := do
  let status ← uint32
  let attrSet ← decodeBitmap
  return { r with status, attrSet }

/-- `RemoveRes.DecodeRes` and `LinkRes.DecodeRes`: one `change_info4` on success. -/
def StatusRes.decodeChange (r : StatusRes) : Dec StatusRes := do
  let status ← uint32
  if status = nfs4Ok then
    skipChangeInfo
    return { r with status }
  else return { r with status }

/-- `RenameRes.DecodeRes`: the change info of the source and of the target on success. -/
def StatusRes.decodeRename (r : StatusRes) : Dec StatusRes := do
  let status ← uint32
  if status = nfs4Ok then
    skipChangeInfo
    skipChangeInfo
    return { r with status }
  else return { r with status }

def ExchangeIDRes.decodeRes (r : ExchangeIDRes) : Dec ExchangeIDRes := do
  let status ← uint32
  if status = nfs4Ok then
    let clientID ← uint64
    let sequenceID ← uint32
    let flags ← uint32
    let _ ← uint32
    let _ ← uint64
    let _ ← varOpaque
    let _ ← varOpaque
    let n ← uint32
    skipImplIDs n.toNat
    return { r with status, clientID, sequenceID, flags }
  else return { r with status }

def CreateSessionRes.decodeRes (r : CreateSessionRes) : Dec CreateSessionRes := do
  let status ← uint32
  if status = nfs4Ok then
    let sessionID ← fixedOpaque 16
    let sequenceID ← uint32
    let flags ← uint32
    let foreChan ← decodeChannelAttrs
    let backChan ← decodeChannelAttrs
    return { r with
      status, sessionID := r.sessionID.copyFrom (sessionID.getD []), sequenceID, flags,
      foreChan, backChan }
  else return { r with status }

def SequenceRes.decodeRes (r : SequenceRes) : Dec SequenceRes := do
  let status ← uint32
  if status = nfs4Ok then
    let sessionID ← fixedOpaque 16
    let sequenceID ← uint32
    let slotID ← uint32
    let highestSlotID ← uint32
    let targetHighestSlot ← uint32
    let statusFlags ← uint32
    return { r with
      status, sessionID := r.sessionID.copyFrom (sessionID.getD []), sequenceID, slotID,
      highestSlotID, targetHighestSlot, statusFlags }
  else return { r with status }

/-! ## Results of any kind -/

/-- `Res` is an operation result: one constructor for each result type. -/
inductive Res
  | status (r : StatusRes)
  | getfh (r : GetfhRes)
  | getattr (r : GetattrRes)
  | setclientid (r : SetclientidRes)
  | read (r : ReadRes)
  | readdir (r : ReaddirRes)
  | readlink (r : ReadlinkRes)
  | openFile (r : OpenRes)
  | openConfirm (r : StateidRes)
  | write (r : WriteRes)
  | commit (r : CommitRes)
  | close (r : StateidRes)
  | create (r : AttrSetRes)
  | remove (r : StatusRes)
  | rename (r : StatusRes)
  | link (r : StatusRes)
  | setattr (r : AttrSetRes)
  | exchangeID (r : ExchangeIDRes)
  | createSession (r : CreateSessionRes)
  | destroySession (r : StatusRes)
  | destroyClientID (r : StatusRes)
  | reclaimComplete (r : StatusRes)
  | sequence (r : SequenceRes)
deriving DecidableEq

namespace Res

/-- `DecodeRes` reads the operation-specific body of an `nfs_resop4`. -/
def decodeRes : Res → Dec Res
  | .status r => .status <$> r.decodeRes
  | .getfh r => .getfh <$> r.decodeRes
  | .getattr r => .getattr <$> r.decodeRes
  | .setclientid r => .setclientid <$> r.decodeRes
  | .read r => .read <$> r.decodeRes
  | .readdir r => .readdir <$> r.decodeRes
  | .readlink r => .readlink <$> r.decodeRes
  | .openFile r => .openFile <$> r.decodeRes
  | .openConfirm r => .openConfirm <$> r.decodeRes
  | .write r => .write <$> r.decodeRes
  | .commit r => .commit <$> r.decodeRes
  | .close r => .close <$> r.decodeRes
  | .create r => .create <$> r.decodeCreate
  | .remove r => .remove <$> r.decodeChange
  | .rename r => .rename <$> r.decodeRename
  | .link r => .link <$> r.decodeChange
  | .setattr r => .setattr <$> r.decodeSetattr
  | .exchangeID r => .exchangeID <$> r.decodeRes
  | .createSession r => .createSession <$> r.decodeRes
  | .destroySession r => .destroySession <$> r.decodeRes
  | .destroyClientID r => .destroyClientID <$> r.decodeRes
  | .reclaimComplete r => .reclaimComplete <$> r.decodeRes
  | .sequence r => .sequence <$> r.decodeRes

/-- `expectedOp` is the opnum a result decoder advertises, and 0 (no check) for the shared
`StatusRes`. -/
def expectedOp : Res → Opnum
  | .status _ => 0
  | .getfh _ => opGetfh
  | .getattr _ => opGetattr
  | .setclientid _ => opSetclientid
  | .read _ => opRead
  | .readdir _ => opReaddir
  | .readlink _ => opReadlink
  | .openFile _ => opOpen
  | .openConfirm _ => opOpenConfirm
  | .write _ => opWrite
  | .commit _ => opCommit
  | .close _ => opClose
  | .create _ => opCreate
  | .remove _ => opRemove
  | .rename _ => opRename
  | .link _ => opLink
  | .setattr _ => opSetattr
  | .exchangeID _ => opExchangeID
  | .createSession _ => opCreateSession
  | .destroySession _ => opDestroySession
  | .destroyClientID _ => opDestroyClientID
  | .reclaimComplete _ => opReclaimComplete
  | .sequence _ => opSequence

/-- The `Status` field, which every result type has. -/
def stat : Res → Status
  | .status r | .remove r | .rename r | .link r | .destroySession r | .destroyClientID r
  | .reclaimComplete r => r.status
  | .getfh r => r.status
  | .getattr r => r.status
  | .setclientid r => r.status
  | .read r => r.status
  | .readdir r => r.status
  | .readlink r => r.status
  | .openFile r => r.status
  | .openConfirm r | .close r => r.status
  | .write r => r.status
  | .commit r => r.status
  | .create r | .setattr r => r.status
  | .exchangeID r => r.status
  | .createSession r => r.status
  | .sequence r => r.status

/-- A freshly declared result of the same type: `var res T`. -/
def fresh : Res → Res
  | .status _ => .status {}
  | .getfh _ => .getfh {}
  | .getattr _ => .getattr {}
  | .setclientid _ => .setclientid {}
  | .read _ => .read {}
  | .readdir _ => .readdir {}
  | .readlink _ => .readlink {}
  | .openFile _ => .openFile {}
  | .openConfirm _ => .openConfirm {}
  | .write _ => .write {}
  | .commit _ => .commit {}
  | .close _ => .close {}
  | .create _ => .create {}
  | .remove _ => .remove {}
  | .rename _ => .rename {}
  | .link _ => .link {}
  | .setattr _ => .setattr {}
  | .exchangeID _ => .exchangeID {}
  | .createSession _ => .createSession {}
  | .destroySession _ => .destroySession {}
  | .destroyClientID _ => .destroyClientID {}
  | .reclaimComplete _ => .reclaimComplete {}
  | .sequence _ => .sequence {}

end Res

/-- The result type of an operation, freshly declared. -/
def Arg.decoder : Arg → Res
  | .putrootfh | .putfh _ | .lookup _ | .setclientidConfirm .. | .renew _ | .savefh | .restorefh =>
      .status {}
  | .getfh => .getfh {}
  | .getattr _ => .getattr {}
  | .setclientid _ => .setclientid {}
  | .read _ => .read {}
  | .readdir _ => .readdir {}
  | .readlink => .readlink {}
  | .openFile _ => .openFile {}
  | .openConfirm .. => .openConfirm {}
  | .write _ => .write {}
  | .commit .. => .commit {}
  | .close .. => .close {}
  | .create _ => .create {}
  | .remove _ => .remove {}
  | .rename .. => .rename {}
  | .link _ => .link {}
  | .setattr _ => .setattr {}
  | .exchangeID _ => .exchangeID {}
  | .createSession _ => .createSession {}
  | .destroySession _ => .destroySession {}
  | .destroyClientID _ => .destroyClientID {}
  | .reclaimComplete _ => .reclaimComplete {}
  | .sequence _ => .sequence {}

lemma Arg.fresh_decoder (a : Arg) : a.decoder.fresh = a.decoder := by
  cases a <;> rfl

@[simp] lemma Arg.stat_decoder (a : Arg) : a.decoder.stat = nfs4Ok := by
  cases a <;> rfl

end NfsClient.Nfs4
