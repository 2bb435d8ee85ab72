import NfsClient.Nfs4.Encode

/-!
# The COMPOUND4args format

A parser of requests that follows the grammar of RFC 7530 and RFC 8881, and the theorem that
it recovers from the bytes of a request the request itself.

The parser is the server's side: it switches on the operation number, on the discriminants of
the unions (`openflag4`, `createhow4`, `createtype4`) and on the counters of the arrays.  The
arms of the grammar for which the client has no argument type (other claims, state protection,
implementation ids, callback security) are rejected.
-/

namespace NfsClient.Nfs4

open NfsClient.Lib NfsClient.Lib.Wire NfsClient.Xdr

/-! ## The grammar -/

namespace Grammar

/-- Fixed-length opaque data. -/
def fixed (n : ℕ) : Parser (ByteArr n) := do
  return (default : ByteArr n).copyFrom (← Parser.opaqueFixed n)

/-- `bitmap4`. -/
def bitmap : Parser Bitmap := Parser.array Parser.uint

/-- `stateid4`. -/
def stateid : Parser Stateid := do
  let seqid ← Parser.uint
  let other ← fixed 12
  return { seqid, other }

/-- An array of which only the empty one is accepted. -/
def emptyArray : Parser Unit := do
  let n ← Parser.uint
  Parser.guard (n = 0)

/-- `channel_attrs4`. -/
def channelAttrs : Parser ChannelAttrs := do
  let headerPadSize ← Parser.uint
  let maxRequestSize ← Parser.uint
  let maxResponseSize ← Parser.uint
  let maxResponseSizeCach ← Parser.uint
  let maxOperations ← Parser.uint
  let maxRequests ← Parser.uint
  emptyArray
  return { headerPadSize, maxRequestSize, maxResponseSize, maxResponseSizeCach,
           maxOperations, maxRequests }

/-- `openflag4` and the `createhow4` in it. -/
inductive OpenHow
  | noCreate
  | unchecked (attrMask : Bitmap) (attrVals : Bytes)
  | guarded (attrMask : Bitmap) (attrVals : Bytes)
  | exclusive (verf : ByteArr 8)

/-- `createhow4`, switched on the mode. -/
def createHow : Parser OpenHow := do
  let mode ← Parser.uint
  if mode = 0 then
    let attrMask ← bitmap
    let attrVals ← Parser.opaqueVar
    return .unchecked attrMask attrVals
  else if mode = 1 then
    let attrMask ← bitmap
    let attrVals ← Parser.opaqueVar
    return .guarded attrMask attrVals
  else do
    Parser.guard (mode = 2)
    let verf ← fixed 8
    return .exclusive verf

/-- `openflag4`, switched on the open type. -/
def openFlag : Parser OpenHow := do
  let opentype ← Parser.uint
  if opentype = 0 then return .noCreate
  else do
    Parser.guard (opentype = 1)
    createHow

/-- The arguments with the create parameters of an arm. -/
def OpenHow.fill (h : OpenHow) (a : OpenArgs) : OpenArgs :=
  match h with
  | .noCreate => a
  | .unchecked createAttrMask createAttrVals =>
      { a with openType := 1, createMode := 0, createAttrMask, createAttrVals }
  | .guarded createAttrMask createAttrVals =>
      { a with openType := 1, createMode := 1, createAttrMask, createAttrVals }
  | .exclusive createVerf => { a with openType := 1, createMode := 2, createVerf }

/-- `OPEN4args`. -/
def openArgs : Parser OpenArgs := do
  let seqid ← Parser.uint
  let shareAccess ← Parser.uint
  let shareDeny ← Parser.uint
  let clientID ← Parser.hyper
  let owner ← Parser.opaqueVar
  let how ← openFlag
  let claim ← Parser.uint
  Parser.guard (claim = 0)
  let name ← Parser.opaqueVar
  return how.fill { seqid, shareAccess, shareDeny, clientID, owner, name }

/-- `createtype4`, switched on the file type: the text of a link. -/
def createType : Parser (UInt32 × Bytes) := do
  let type ← Parser.uint
  if type = 5 then
    let linkData ← Parser.opaqueVar
    return (type, linkData)
  else if type = 3 ∨ type = 4 then
    let specdata1 ← Parser.uint
    let specdata2 ← Parser.uint
    Parser.guard (specdata1 = 0 ∧ specdata2 = 0)
    return (type, [])
  else return (type, [])

/-- `CREATE4args`. -/
def createArgs : Parser CreateArgs := do
  let (type, linkData) ← createType
  let objName ← Parser.opaqueVar
  let attrMask ← bitmap
  let attrVals ← Parser.opaqueVar
  return { type, linkData, objName, attrMask, attrVals }

/-- `SETCLIENTID4args`. -/
def setclientidArgs : Parser SetclientidArgs := do
  let verifier ← fixed 8
  let id ← Parser.opaqueVar
  let callbackProg ← Parser.uint
  let callbackNetID ← Parser.opaqueVar
  let callbackAddr ← Parser.opaqueVar
  let callbackIdent ← Parser.uint
  return { verifier, id, callbackProg, callbackNetID, callbackAddr, callbackIdent }

/-- `READ4args`. -/
def readArgs : Parser ReadArgs := do
  let stateid ← stateid
  let offset ← Parser.hyper
  let count ← Parser.uint
  return { stateid, offset, count }

/-- `READDIR4args`. -/
def readdirArgs : Parser ReaddirArgs := do
  let cookie ← Parser.hyper
  let cookieverf ← fixed 8
  let dircount ← Parser.uint
  let maxcount ← Parser.uint
  let attrRequest ← bitmap
  return { cookie, cookieverf, dircount, maxcount, attrRequest }

/-- `WRITE4args`. -/
def writeArgs : Parser WriteArgs := do
  let stateid ← stateid
  let offset ← Parser.hyper
  let stable ← Parser.uint
  let data ← Parser.opaqueVar
  return { stateid, offset, stable, data }

/-- `SETATTR4args`. -/
def setattrArgs : Parser SetattrArgs := do
  let stateid ← stateid
  let attrMask ← bitmap
  let attrVals ← Parser.opaqueVar
  return { stateid, attrMask, attrVals }

/-- `EXCHANGE_ID4args` with SP4_NONE and no implementation id. -/
def exchangeIDArgs : Parser ExchangeIDArgs := do
  let verifier ← fixed 8
  let ownerID ← Parser.opaqueVar
  let flags ← Parser.uint
  let how ← Parser.uint
  Parser.guard (how = 0)
  emptyArray
  return { verifier, ownerID, flags }

/-- `CREATE_SESSION4args` without callback security parameters. -/
def createSessionArgs : Parser CreateSessionArgs := do
  let clientID ← Parser.hyper
  let sequenceID ← Parser.uint
  let flags ← Parser.uint
  let foreChan ← channelAttrs
  let backChan ← channelAttrs
  let cbProgram ← Parser.uint
  emptyArray
  return { clientID, sequenceID, flags, foreChan, backChan, cbProgram }

/-- `SEQUENCE4args`. -/
def sequenceArgs : Parser SequenceArgs := do
  let sessionID ← fixed 16
  let sequenceID ← Parser.uint
  let slotID ← Parser.uint
  let highestSlotID ← Parser.uint
  let cacheThis ← Parser.bool
  return { sessionID, sequenceID, slotID, highestSlotID, cacheThis }

/-- `nfs_argop4` after the operation number. -/
def argBody (op : Opnum) : Parser Arg :=
  if op = 4 then do
    let seqid ← Parser.uint
    let s ← stateid
    return .close seqid s
  else if op = 5 then do
    let offset ← Parser.hyper
    let count ← Parser.uint
    return .commit offset count
  else if op = 6 then Arg.create <$> createArgs
  else if op = 9 then Arg.getattr <$> bitmap
  else if op = 10 then return .getfh
  else if op = 11 then Arg.link <$> Parser.opaqueVar
  else if op = 15 then Arg.lookup <$> Parser.opaqueVar
  else if op = 18 then Arg.openFile <$> openArgs
  else if op = 20 then do
    let s ← stateid
    let seqid ← Parser.uint
    return .openConfirm s seqid
  else if op = 22 then (fun fh => Arg.putfh (some fh)) <$> Parser.opaqueVar
  else if op = 24 then return .putrootfh
  else if op = 25 then Arg.read <$> readArgs
  else if op = 26 then Arg.readdir <$> readdirArgs
  else if op = 27 then return .readlink
  else if op = 28 then Arg.remove <$> Parser.opaqueVar
  else if op = 29 then do
    let oldName ← Parser.opaqueVar
    let newName ← Parser.opaqueVar
    return .rename oldName newName
  else if op = 30 then Arg.renew <$> Parser.hyper
  else if op = 31 then return .restorefh
  else if op = 32 then return .savefh
  else if op = 34 then Arg.setattr <$> setattrArgs
  else if op = 35 then Arg.setclientid <$> setclientidArgs
  else if op = 36 then do
    let clientID ← Parser.hyper
    let verifier ← fixed 8
    return .setclientidConfirm clientID verifier
  else if op = 38 then Arg.write <$> writeArgs
  else if op = 42 then Arg.exchangeID <$> exchangeIDArgs
  else if op = 43 then Arg.createSession <$> createSessionArgs
  else if op = 44 then Arg.destroySession <$> fixed 16
  else if op = 53 then Arg.sequence <$> sequenceArgs
  else if op = 57 then Arg.destroyClientID <$> Parser.hyper
  else do
    Parser.guard (op = 58)
    Arg.reclaimComplete <$> Parser.bool

/-- `nfs_argop4`. -/
def argop : Parser Arg := do
  let op ← Parser.uint
  argBody op

/-- `COMPOUND4args`. -/
def compound : Parser Compound := do
  let tag ← Parser.opaqueVar
  let minorVersion ← Parser.uint
  let ops ← Parser.array argop
  return { tag, minorVersion, ops }

end Grammar

/-! ## What the bytes of an argument stand for -/

/-- The create parameters that OPEN sends, the others reset: those of the mode on a create,
and none otherwise. -/
def OpenArgs.normal (a : OpenArgs) : OpenArgs :=
  if a.openType = open4Create then
    if a.createMode = createExclusive then { a with createAttrMask := [], createAttrVals := [] }
    else { a with createVerf := default }
  else
    { a with createMode := 0, createAttrMask := [], createAttrVals := [], createVerf := default }

/-- The link text is sent for a link only. -/
def CreateArgs.normal (a : CreateArgs) : CreateArgs :=
  if a.type = 5 then a else { a with linkData := [] }

/-- The argument with what it does not send reset.  A nil handle is sent as an empty one. -/
def Arg.normal : Arg → Arg
  | .putfh fh => .putfh (some (fh.getD []))
  | .openFile a => .openFile a.normal
  | .create a => .create a.normal
  | a => a

def Compound.normal (c : Compound) : Compound := { c with ops := c.ops.map Arg.normal }

/-- The variable-length fields of an argument have lengths that fit their counters, and an
OPEN has one of the declared open types and create modes. -/
def Arg.Fits : Arg → Prop
  | .putfh fh => (fh.getD []).length < 2 ^ 32
  | .lookup name | .remove name | .link name => name.length < 2 ^ 32
  | .getattr attrRequest => attrRequest.length < 2 ^ 32
  | .setclientid a =>
      a.id.length < 2 ^ 32 ∧ a.callbackNetID.length < 2 ^ 32 ∧ a.callbackAddr.length < 2 ^ 32
  | .readdir a => a.attrRequest.length < 2 ^ 32
  | .openFile a =>
      a.owner.length < 2 ^ 32 ∧ a.createAttrMask.length < 2 ^ 32 ∧
        a.createAttrVals.length < 2 ^ 32 ∧ a.name.length < 2 ^ 32 ∧
        (a.openType = 0 ∨ a.openType = 1) ∧
        (a.createMode = 0 ∨ a.createMode = 1 ∨ a.createMode = 2)
  | .write a => a.data.length < 2 ^ 32
  | .create a =>
      a.linkData.length < 2 ^ 32 ∧ a.objName.length < 2 ^ 32 ∧ a.attrMask.length < 2 ^ 32 ∧
        a.attrVals.length < 2 ^ 32
  | .rename oldName newName => oldName.length < 2 ^ 32 ∧ newName.length < 2 ^ 32
  | .setattr a => a.attrMask.length < 2 ^ 32 ∧ a.attrVals.length < 2 ^ 32
  | .exchangeID a => a.ownerID.length < 2 ^ 32
  | _ => True

/-- The tag, the number of operations and the arguments fit. -/
def Compound.Fits (c : Compound) : Prop :=
  c.tag.length < 2 ^ 32 ∧ c.ops.length < 2 ^ 32 ∧ ∀ a ∈ c.ops, a.Fits

/-! ## Reading the pieces back -/

namespace Grammar

lemma parses_uint32 (v : UInt32) : Parses Parser.uint (Encoder.uint32 v) v := Wire.parses_uint v

lemma parses_uint64 (v : UInt64) : Parses Parser.hyper (Encoder.uint64 v) v :=
  Wire.parses_hyper v

lemma parses_bool (v : Bool) : Parses Parser.bool (Encoder.bool v) v := by
  rw [Encoder.bool_eq]
  exact Wire.parses_bool v

lemma parses_varOpaque {p : Bytes} (h : p.length < 2 ^ 32) :
    Parses Parser.opaqueVar (Encoder.varOpaque p) p := by
  rw [Encoder.varOpaque_eq]
  exact Wire.parses_opaqueVar h

lemma parses_string {p : Bytes} (h : p.length < 2 ^ 32) :
    Parses Parser.opaqueVar (Encoder.string p) p :=
  parses_varOpaque h

lemma parses_fixed {n : ℕ} (a : ByteArr n) :
    Parses (fixed n) (Encoder.fixedOpaque a.bytes) a := by
  rw [Encoder.fixedOpaque_eq]
  exact .to_eq ((Wire.parses_opaqueFixed a.length_eq).last (.pure _))
    (ByteArr.ext (ByteArr.copyFrom_of_length a.length_eq))

lemma parses_bitmap {b : Bitmap} (h : b.length < 2 ^ 32) : Parses bitmap (Bitmap.encode b) b :=
  .to_eq (Wire.parses_array h fun w _ => parses_uint32 w) (List.map_id b)

lemma parses_stateid (s : Stateid) : Parses stateid s.encode s :=
  (parses_uint32 _).bind ((parses_fixed _).bind (.pure _))

lemma parses_emptyArray : Parses emptyArray (Encoder.uint32 0) () :=
  (parses_uint32 0).last (Wire.parses_guard rfl)

lemma parses_channelAttrs (c : ChannelAttrs) : Parses channelAttrs c.encode c :=
  (parses_uint32 _).bind ((parses_uint32 _).bind ((parses_uint32 _).bind ((parses_uint32 _).bind
    ((parses_uint32 _).bind ((parses_uint32 _).bind (parses_emptyArray.bind (.pure _)))))))

/-! ## Reading the unions back -/

/-- The arm of `openflag4` that the arguments select. -/
def howOf (a : OpenArgs) : OpenHow :=
  if a.openType = 0 then .noCreate
  else if a.createMode = 0 then .unchecked a.createAttrMask a.createAttrVals
  else if a.createMode = 1 then .guarded a.createAttrMask a.createAttrVals
  else .exclusive a.createVerf

lemma fill_howOf {a : OpenArgs} (ht : a.openType = 0 ∨ a.openType = 1)
    (hm : a.createMode = 0 ∨ a.createMode = 1 ∨ a.createMode = 2) :
    (howOf a).fill { seqid := a.seqid, shareAccess := a.shareAccess, shareDeny := a.shareDeny,
                     clientID := a.clientID, owner := a.owner, name := a.name } = a.normal := by
  obtain ⟨seqid, shareAccess, shareDeny, clientID, owner, openType, createMode, mask, vals, verf,
    name⟩ := a
  simp only at ht hm
  rcases ht with rfl | rfl
  · rfl
  · rcases hm with rfl | rfl | rfl <;> rfl

lemma parses_openFlag {a : OpenArgs} (hmask : a.createAttrMask.length < 2 ^ 32)
    (hvals : a.createAttrVals.length < 2 ^ 32) (ht : a.openType = 0 ∨ a.openType = 1)
    (hm : a.createMode = 0 ∨ a.createMode = 1 ∨ a.createMode = 2) :
    Parses openFlag a.encodeFlag (howOf a) := by
  obtain ⟨seqid, shareAccess, shareDeny, clientID, owner, openType, createMode, mask, vals, verf,
    name⟩ := a
  simp only at hmask hvals ht hm
  rcases ht with rfl | rfl
  · exact (parses_uint32 0).bind (.pure _)
  · refine (parses_uint32 1).bind (Reads.silent (Wire.parses_guard rfl) (Reads.single ?_))
    rcases hm with rfl | rfl | rfl
    · exact (parses_uint32 0).bind ((parses_bitmap hmask).bind
        ((parses_varOpaque hvals).bind (.pure _)))
    · exact (parses_uint32 1).bind ((parses_bitmap hmask).bind
        ((parses_varOpaque hvals).bind (.pure _)))
    · exact (parses_uint32 2).bind (.silent (Wire.parses_guard rfl)
        ((parses_fixed verf).bind (.pure _)))

lemma parses_openArgs {a : OpenArgs} (h : (Arg.openFile a).Fits) :
    Parses openArgs (Arg.openFile a).encodeBody a.normal := by
  obtain ⟨howner, hmask, hvals, hname, ht, hm⟩ := h
  exact .to_eq ((parses_uint32 _).bind ((parses_uint32 _).bind ((parses_uint32 _).bind
    ((parses_uint64 _).bind ((parses_varOpaque howner).bind
      ((parses_openFlag hmask hvals ht hm).bind ((parses_uint32 claimNull).bind
        (.silent (Wire.parses_guard rfl) ((parses_string hname).bind (.pure _))))))))))
    (fill_howOf ht hm)

lemma parses_createType {a : CreateArgs} (h : a.linkData.length < 2 ^ 32) :
    Parses createType a.encodeType (a.type, a.normal.linkData) := by
  unfold CreateArgs.encodeType CreateArgs.normal
  by_cases h5 : a.type = 5
  · simp only [if_pos h5]
    refine (parses_uint32 a.type).bind ?_
    rw [if_pos h5]
    exact (parses_string h).bind (.pure _)
  · by_cases h34 : a.type = 3 ∨ a.type = 4
    · simp only [if_neg h5, if_pos h34]
      refine (parses_uint32 a.type).bind ?_
      rw [if_neg h5, if_pos h34]
      exact (parses_uint32 0).bind ((parses_uint32 0).bind
        (.silent (Wire.parses_guard ⟨rfl, rfl⟩) (.pure _)))
    · simp only [if_neg h5, if_neg h34]
      refine (parses_uint32 a.type).bind ?_
      rw [if_neg h5, if_neg h34]
      exact .pure _

lemma parses_createArgs {a : CreateArgs} (h : (Arg.create a).Fits) :
    Parses createArgs (Arg.create a).encodeBody a.normal := by
  obtain ⟨hlink, hname, hmask, hvals⟩ := h
  refine .to_eq ((parses_createType hlink).bind ((parses_string hname).bind
    ((parses_bitmap hmask).bind ((parses_varOpaque hvals).bind (.pure _))))) ?_
  unfold CreateArgs.normal
  split <;> rfl

/-! ## Reading the operations back -/

/-- The parser reads the arguments of each operation back, in their normal form. -/
lemma parses_argBody {a : Arg} (h : a.Fits) : Parses (argBody a.op) a.encodeBody a.normal := by
  cases a with
  | putrootfh | getfh | readlink | savefh | restorefh => exact .pure _
  | putfh fh => exact .map _ (parses_varOpaque h).single
  | lookup name | remove name | link name => exact .map _ (parses_string h).single
  | getattr attrRequest => exact .map _ (parses_bitmap h).single
  | setclientid a =>
      exact .map _ ((parses_fixed _).bind ((parses_varOpaque h.1).bind ((parses_uint32 _).bind
        ((parses_string h.2.1).bind ((parses_string h.2.2).bind ((parses_uint32 _).bind
          (.pure _)))))))
  | setclientidConfirm clientID verifier =>
      exact (parses_uint64 _).bind ((parses_fixed _).bind (.pure _))
  | read a =>
      exact .map _ ((parses_stateid _).bind ((parses_uint64 _).bind ((parses_uint32 _).bind
        (.pure _))))
  | readdir a =>
      exact .map _ ((parses_uint64 _).bind ((parses_fixed _).bind ((parses_uint32 _).bind
        ((parses_uint32 _).bind ((parses_bitmap h).bind (.pure _))))))
  | renew clientID | destroyClientID clientID => exact .map _ (parses_uint64 _).single
  | openFile a => exact .map _ (parses_openArgs h)
  | openConfirm s seqid => exact (parses_stateid _).bind ((parses_uint32 _).bind (.pure _))
  | write a =>
      exact .map _ ((parses_stateid _).bind ((parses_uint64 _).bind ((parses_uint32 _).bind
        ((parses_varOpaque h).bind (.pure _)))))
  | commit offset count => exact (parses_uint64 _).bind ((parses_uint32 _).bind (.pure _))
  | close seqid s => exact (parses_uint32 _).bind ((parses_stateid _).bind (.pure _))
  | create a => exact .map _ (parses_createArgs h)
  | rename oldName newName =>
      exact (parses_string h.1).bind ((parses_string h.2).bind (.pure _))
  | setattr a =>
      exact .map _ ((parses_stateid _).bind ((parses_bitmap h.1).bind
        ((parses_varOpaque h.2).bind (.pure _))))
  | exchangeID a =>
      exact .map _ ((parses_fixed _).bind ((parses_varOpaque h).bind ((parses_uint32 _).bind
        ((parses_uint32 spNone).bind (.silent (Wire.parses_guard rfl)
          (parses_emptyArray.bind (.pure _)))))))
  | createSession a =>
      exact .map _ ((parses_uint64 _).bind ((parses_uint32 _).bind ((parses_uint32 _).bind
        ((parses_channelAttrs _).bind ((parses_channelAttrs _).bind ((parses_uint32 _).bind
          (parses_emptyArray.bind (.pure _))))))))
  | destroySession sessionID => exact .map _ (parses_fixed _).single
  | reclaimComplete oneFS =>
      exact .silent (Wire.parses_guard rfl) (.map _ (parses_bool _).single)
  | sequence a =>
      exact .map _ ((parses_fixed _).bind ((parses_uint32 _).bind ((parses_uint32 _).bind
        ((parses_uint32 _).bind ((parses_bool _).bind (.pure _))))))

lemma parses_argop {a : Arg} (h : a.Fits) : Parses argop a.encodeArg a.normal :=
  (parses_uint32 _).bind (parses_argBody h).single

end Grammar

/-- The normal form is sent as the argument itself. -/
lemma Arg.encodeArg_normal (a : Arg) : a.normal.encodeArg = a.encodeArg := by
  cases a with
  | openFile a =>
      simp only [Arg.normal, Arg.encodeArg, Arg.op, Arg.encodeBody, OpenArgs.normal,
        OpenArgs.encodeFlag, OpenArgs.encodeHow]
      split
      · next ht => split <;> simp [ht]
      · simp
  | create a =>
      simp only [Arg.normal, Arg.encodeArg, Arg.op, Arg.encodeBody, CreateArgs.normal,
        CreateArgs.encodeType]
      split
      · next h5 => simp [h5]
      · simp
  | _ => rfl

lemma Compound.encode_normal (c : Compound) : c.normal.encode = c.encode := by
  simp [Compound.encode, Compound.normal, List.flatMap_map, Arg.encodeArg_normal]

lemma parses_compound {c : Compound} (h : c.Fits) :
    Parses Grammar.compound c.encode c.normal := by
  obtain ⟨htag, hlen, hops⟩ := h
  -- the minor version stands between the tag and the array, which carries its own counter
  have hargs := Wire.parses_array hlen fun a ha => Grammar.parses_argop (hops a ha)
  exact .of_eq ((Grammar.parses_string htag).bind ((Grammar.parses_uint32 _).bind
    (hargs.bind (.pure _)))) (by simp [Compound.encode, Wire.array, Encoder.uint32_eq])

/-- **The encoding of a request is faithful.**  A parser that follows the grammar of the
standards recovers from the bytes of a request its tag, its minor version and its operations
in order, field for field, and consumes exactly these bytes.  What it cannot recover is what
the arguments do not send: the create parameters of an OPEN that does not create, or of the
other create mode, and the link text of a CREATE of anything but a link.  So two requests have
the same bytes exactly when they are the same request up to that. -/
theorem compound_encode_faithful {c : Compound} (h : c.Fits) :
    (∀ rest, Grammar.compound (c.encode ++ rest) = some (c.normal, rest)) ∧
      ∀ c' : Compound, c'.Fits → (c'.encode = c.encode ↔ c'.normal = c.normal) := by
  refine ⟨parses_compound h, fun c' h' => ⟨fun heq => ?_, fun heq => ?_⟩⟩
  -- the parser is a function: from the same bytes it reads the same normal form
  · have happ : c'.encode ++ [] = c.encode ++ [] := by rw [heq]
    exact ((parses_compound h').unique (parses_compound h) happ).1
  · rw [← c'.encode_normal, heq, c.encode_normal]

/-- A request that opens a file with an exclusive create and makes a symbolic link. -/
def openAndLink : Compound where
  tag := [116]
  ops :=
    [.putfh none,
      .openFile { seqid := 1, shareAccess := 3, shareDeny := 0, clientID := 9, owner := [111],
                  openType := 1, createMode := 2, createAttrVals := [5], name := [97] },
      .create { type := 5, linkData := [98], objName := [108], attrMask := [0, 2],
                attrVals := [0, 0, 1, 255] }]

theorem compound_encode_faithful_openAndLink :
    openAndLink.Fits ∧
      Grammar.compound (openAndLink.encode ++ [7]) = some (openAndLink.normal, [7]) := by
  have h : openAndLink.Fits := by simp [openAndLink, Compound.Fits, Arg.Fits]
  exact ⟨h, (compound_encode_faithful h).1 [7]⟩

end NfsClient.Nfs4
