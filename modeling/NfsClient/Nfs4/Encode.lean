import NfsClient.Nfs4.Args
import NfsClient.Xdr.Encoder

/-!
# Encoding a request

`EncodeArg` of the operation arguments and `Compound.Encode`.  Each writes its fields one
after the other, so an encoding is the concatenation of what the calls of the encoder emit.
-/

namespace NfsClient.Nfs4

open NfsClient.Xdr

/-- `opentype4` and `createmode4`: the values that select an arm. -/
def open4Create : UInt32 := 1
def createExclusive : UInt32 := 2

/-- `ClaimNull` is the only `open_claim_type4` that the client sends. -/
def claimNull : UInt32 := 0

/-- `spNone` is the only `state_protect_how4` that the client sends. -/
def spNone : UInt32 := 0

/-- `Bitmap.Encode` writes a `bitmap4`. -/
def Bitmap.encode (b : Bitmap) : Bytes :=
  [Encoder.uint32 (UInt32.ofNat b.length), b.flatMap Encoder.uint32].flatten

/-- `Stateid.Encode` writes a `stateid4`. -/
def Stateid.encode (s : Stateid) : Bytes :=
  [Encoder.uint32 s.seqid, Encoder.fixedOpaque s.other.bytes].flatten

/-- `ChannelAttrs.encode`, with an empty `ca_rdma_ird`. -/
def ChannelAttrs.encode (c : ChannelAttrs) : Bytes :=
  [Encoder.uint32 c.headerPadSize, Encoder.uint32 c.maxRequestSize,
    Encoder.uint32 c.maxResponseSize, Encoder.uint32 c.maxResponseSizeCach,
    Encoder.uint32 c.maxOperations, Encoder.uint32 c.maxRequests, Encoder.uint32 0].flatten

/-- The `createhow4` of `OpenArgs.EncodeArg`. -/
def OpenArgs.encodeHow (a : OpenArgs) : Bytes :=
  if a.createMode = createExclusive then
    [Encoder.uint32 a.createMode, Encoder.fixedOpaque a.createVerf.bytes].flatten
  else
    [Encoder.uint32 a.createMode, Bitmap.encode a.createAttrMask,
      Encoder.varOpaque a.createAttrVals].flatten

/-- The `openflag4` of `OpenArgs.EncodeArg`. -/
def OpenArgs.encodeFlag (a : OpenArgs) : Bytes :=
  if a.openType = open4Create then [Encoder.uint32 a.openType, a.encodeHow].flatten
  else [Encoder.uint32 a.openType].flatten

/-- The `createtype4` of `CreateArgs.EncodeArg`: a link has its text, a device its numbers,
which are zero. -/
def CreateArgs.encodeType (a : CreateArgs) : Bytes :=
  if a.type = 5 then [Encoder.uint32 a.type, Encoder.string a.linkData].flatten
  else if a.type = 3 ∨ a.type = 4 then
    [Encoder.uint32 a.type, Encoder.uint32 0, Encoder.uint32 0].flatten
  else [Encoder.uint32 a.type].flatten

/-- `EncodeArg` without the operation number. -/
def Arg.encodeBody : Arg → Bytes
  | .putrootfh | .getfh | .readlink | .savefh | .restorefh => ([] : List Bytes).flatten
  | .putfh fh => [Encoder.varOpaque (fh.getD [])].flatten
  | .lookup name | .remove name | .link name => [Encoder.string name].flatten
  | .getattr attrRequest => [Bitmap.encode attrRequest].flatten
  | .setclientid a =>
      [Encoder.fixedOpaque a.verifier.bytes, Encoder.varOpaque a.id,
        Encoder.uint32 a.callbackProg, Encoder.string a.callbackNetID,
        Encoder.string a.callbackAddr, Encoder.uint32 a.callbackIdent].flatten
  | .setclientidConfirm clientID verifier =>
      [Encoder.uint64 clientID, Encoder.fixedOpaque verifier.bytes].flatten
  | .read a => [a.stateid.encode, Encoder.uint64 a.offset, Encoder.uint32 a.count].flatten
  | .readdir a =>
      [Encoder.uint64 a.cookie, Encoder.fixedOpaque a.cookieverf.bytes,
        Encoder.uint32 a.dircount, Encoder.uint32 a.maxcount,
        Bitmap.encode a.attrRequest].flatten
  | .renew clientID | .destroyClientID clientID => [Encoder.uint64 clientID].flatten
  | .openFile a =>
      [Encoder.uint32 a.seqid, Encoder.uint32 a.shareAccess, Encoder.uint32 a.shareDeny,
        Encoder.uint64 a.clientID, Encoder.varOpaque a.owner, a.encodeFlag,
        Encoder.uint32 claimNull, Encoder.string a.name].flatten
  | .openConfirm stateid seqid => [stateid.encode, Encoder.uint32 seqid].flatten
  | .write a =>
      [a.stateid.encode, Encoder.uint64 a.offset, Encoder.uint32 a.stable,
        Encoder.varOpaque a.data].flatten
  | .commit offset count => [Encoder.uint64 offset, Encoder.uint32 count].flatten
  | .close seqid stateid => [Encoder.uint32 seqid, stateid.encode].flatten
  | .create a =>
      [a.encodeType, Encoder.string a.objName, Bitmap.encode a.attrMask,
        Encoder.varOpaque a.attrVals].flatten
  | .rename oldName newName => [Encoder.string oldName, Encoder.string newName].flatten
  | .setattr a =>
      [a.stateid.encode, Bitmap.encode a.attrMask, Encoder.varOpaque a.attrVals].flatten
  | .exchangeID a =>
      -- no state protection and no implementation id
      [Encoder.fixedOpaque a.verifier.bytes, Encoder.varOpaque a.ownerID,
        Encoder.uint32 a.flags, Encoder.uint32 spNone, Encoder.uint32 0].flatten
  | .createSession a =>
      -- no callback security parameters
      [Encoder.uint64 a.clientID, Encoder.uint32 a.sequenceID, Encoder.uint32 a.flags,
        a.foreChan.encode, a.backChan.encode, Encoder.uint32 a.cbProgram,
        Encoder.uint32 0].flatten
  | .destroySession sessionID => [Encoder.fixedOpaque sessionID.bytes].flatten
  | .reclaimComplete oneFS => [Encoder.bool oneFS].flatten
  | .sequence a =>
      [Encoder.fixedOpaque a.sessionID.bytes, Encoder.uint32 a.sequenceID,
        Encoder.uint32 a.slotID, Encoder.uint32 a.highestSlotID,
        Encoder.bool a.cacheThis].flatten

/-- `EncodeArg` writes the `nfs_argop4`: the operation number, then the arguments. -/
def Arg.encodeArg (a : Arg) : Bytes := [Encoder.uint32 a.op, a.encodeBody].flatten

/-- `Compound.Encode` writes the COMPOUND4args: the tag, the minor version and the
operations. -/
def Compound.encode (c : Compound) : Bytes :=
  [Encoder.string c.tag, Encoder.uint32 c.minorVersion,
    Encoder.uint32 (UInt32.ofNat c.ops.length), c.ops.flatMap Arg.encodeArg].flatten

end NfsClient.Nfs4
