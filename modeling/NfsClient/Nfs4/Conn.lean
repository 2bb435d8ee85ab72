import NfsClient.Lib.Walk
import NfsClient.Nfs4.Caller

/-!
# The connection

`Conn` owns the client id, the root file handle and the v4.1 session, and issues compounds
through its caller stack.  Its methods come in two families.

* A *single-op* method (bootstrap and RENEW) sends one operation and looks only at the status
  in that operation's result; the `CompoundResult` is discarded.
* A *multi-op* method sends PUTFH and more, and looks at the overall status and at the status
  of one of the results.

Each method keeps its own definition, with the operations, results, texts and the checked
result of the source; what the members of a family do in common is said once.
-/

namespace NfsClient.Nfs4

/-- The bytes of an ASCII string literal. -/
def ascii (s : String) : Bytes := s.toList.map fun c => UInt8.ofNat c.toNat

/-- `ConnConfig` configures the bootstrap of a connection. -/
structure ConnConfig where
  clientName : Bytes := []
  minorVersion : UInt32 := 0
  retry : RetryConfig := {}
deriving DecidableEq

/-- `Conn` is a logical NFSv4 connection.  `session` points to the negotiated session. -/
structure Conn where
  caller : Caller
  cfg : ConnConfig
  clientID : UInt64 := 0
  confirm : ByteArr 8 := default
  rootFH : FileHandle := none
  session : Option ℕ := none
  eirSequence : UInt32 := 0
  openSeqid : UInt32 := 0
deriving DecidableEq

/-- `NewConn` wraps the transport in a `retryCaller`. -/
def newConn (caller : Caller) (cfg : ConnConfig) : Conn :=
  { caller := newRetryCaller caller cfg.retry, cfg := cfg }

/-- `Conn.compound`: a new compound with the connection's minor version. -/
def Conn.compound (c : Conn) : Compound :=
  { newCompound [] with minorVersion := c.cfg.minorVersion }

/-- `c.compound().Add(op₁).Add(op₂)…` -/
def Conn.request (c : Conn) (ops : List Arg) : Compound := ops.foldl Compound.add c.compound

lemma foldl_add (ops : List Arg) (comp : Compound) :
    ops.foldl Compound.add comp = { comp with ops := comp.ops ++ ops } := by
  induction ops generalizing comp with
  | nil => simp
  | cons op ops ih => simp [ih, Compound.add]

lemma request_eq (c : Conn) (ops : List Arg) : c.request ops = { c.compound with ops := ops } :=
  foldl_add ops c.compound

@[simp] lemma request_ops (c : Conn) (ops : List Arg) : (c.request ops).ops = ops := by
  rw [request_eq]

/-! ## Reading a result -/

instance : Inhabited Res := ⟨.status {}⟩

namespace Res

def fh : Res → FileHandle
  | .getfh r => r.fh
  | _ => none

def attrs : Res → Bitmap × Bytes
  | .getattr r => (r.attrMask, r.attrVals)
  | _ => ([], [])

def readData : Res → Bytes × Bool
  | .read r => (r.data, r.eof)
  | _ => ([], false)

def toReaddir : Res → ReaddirRes
  | .readdir r => r
  | _ => {}

def linkText : Res → Bytes
  | .readlink r => r.link
  | _ => []

def toOpen : Res → OpenRes
  | .openFile r => r
  | _ => {}

def stateid : Res → Stateid
  | .openConfirm r | .close r => r.stateid
  | _ => {}

def written : Res → UInt32 × StableHow
  | .write r => (r.count, r.committed)
  | _ => (0, 0)

def toSetclientid : Res → SetclientidRes
  | .setclientid r => r
  | _ => {}

def toExchangeID : Res → ExchangeIDRes
  | .exchangeID r => r
  | _ => {}

def toCreateSession : Res → CreateSessionRes
  | .createSession r => r
  | _ => {}

end Res

/-! ## Multi-op methods -/

/-- What a multi-op method sends, how it words its errors, which result it checks and what it
returns. -/
structure MultiOp (α : Type) where
  ops : List Arg
  /-- The result variables, one for each operation. -/
  results : List Res
  results_eq : results = ops.map Arg.decoder := by rfl
  /-- The error of `CallCompound`, wrapped. -/
  wrapCall : Err → Err
  /-- The error of a non-OK overall status, wrapped. -/
  wrapOverall : Err → Err := id
  /-- The index of the result whose status is checked. -/
  checked : ℕ
  /-- The error of a non-OK status of that result, wrapped. -/
  wrapStatus : Err → Err := id
  value : List Res → α

namespace MultiOp

variable {α W : Type}

/-- What a multi-op method makes of the outcome of `CallCompound`. -/
def finish (m : MultiOp α) : Outcome → Except Err α
  | (_, .error e) => .error (m.wrapCall e)
  | (rs, .ok r) =>
    match statusErr r.status with
    | some e => .error (m.wrapOverall e)
    | none =>
      match statusErr (rs.getD m.checked default).stat with
      | some e => .error (m.wrapStatus e)
      | none => .ok (m.value rs)

/-- A multi-op method. -/
def exec (E : Env W) (c : Conn) (m : MultiOp α) (n : Net W) : Except Err α × Net W :=
  match c.caller.callCompound E (c.request m.ops) m.results n with
  | (out, n') => (m.finish out, n')

end MultiOp

/-- `fetchRootFH`: PUTROOTFH + GETFH. -/
def fetchRootFHOp : MultiOp FileHandle where
  ops := [.putrootfh, .getfh]
  results := [.status {}, .getfh {}]
  wrapCall := .wrap "nfs4: PUTROOTFH/GETFH"
  wrapOverall := .wrap "nfs4: fetching root filehandle"
  checked := 1
  wrapStatus := .wrap "nfs4: GETFH on root"
  value rs := (rs.getD 1 default).fh

/-- `Lookup`: PUTFH(dir) + LOOKUP(name) + GETFH. -/
def lookupOp (dir : FileHandle) (name : Bytes) : MultiOp FileHandle where
  ops := [.putfh dir, .lookup name, .getfh]
  results := [.status {}, .status {}, .getfh {}]
  wrapCall := .wrapName "nfs4: LOOKUP" name
  checked := 2
  value rs := (rs.getD 2 default).fh

/-- `GetAttr`: PUTFH(fh) + GETATTR(mask). -/
def getAttrOp (fh : FileHandle) (mask : Bitmap) : MultiOp (Bitmap × Bytes) where
  ops := [.putfh fh, .getattr mask]
  results := [.status {}, .getattr {}]
  wrapCall := .wrap "nfs4: GETATTR"
  checked := 1
  value rs := (rs.getD 1 default).attrs

/-- `Read`: PUTFH(fh) + READ with the anonymous stateid. -/
def readOp (fh : FileHandle) (offset : UInt64) (count : UInt32) : MultiOp (Bytes × Bool) where
  ops := [.putfh fh, .read { stateid := anonStateid, offset, count }]
  results := [.status {}, .read {}]
  wrapCall := .wrap "nfs4: READ"
  checked := 1
  value rs := (rs.getD 1 default).readData

/-- `Readdir`: PUTFH(dir) + READDIR for one page. -/
def readdirOp (dir : FileHandle) (cookie : UInt64) (cookieverf : ByteArr 8) (attrMask : Bitmap) :
    MultiOp ReaddirRes where
  ops := [.putfh dir,
    .readdir { cookie, cookieverf, dircount := 8192, maxcount := 65536, attrRequest := attrMask }]
  results := [.status {}, .readdir {}]
  wrapCall := .wrap "nfs4: READDIR"
  checked := 1
  value rs := (rs.getD 1 default).toReaddir

/-- `Readlink`: PUTFH(fh) + READLINK. -/
def readlinkOp (fh : FileHandle) : MultiOp Bytes where
  ops := [.putfh fh, .readlink]
  results := [.status {}, .readlink {}]
  wrapCall := .wrap "nfs4: READLINK"
  checked := 1
  value rs := (rs.getD 1 default).linkText

/-- The first compound of `Open`: PUTFH(dir) + OPEN + GETFH.  The status of GETFH is not
looked at. -/
def openOp (dir : FileHandle) (args : OpenArgs) : MultiOp (FileHandle × OpenRes) where
  ops := [.putfh dir, .openFile args, .getfh]
  results := [.status {}, .openFile {}, .getfh {}]
  wrapCall := .wrap "nfs4: OPEN"
  checked := 1
  value rs := ((rs.getD 2 default).fh, (rs.getD 1 default).toOpen)

/-- `openConfirm`: PUTFH(fh) + OPEN_CONFIRM. -/
def openConfirmOp (fh : FileHandle) (sid : Stateid) (seqid : UInt32) : MultiOp Stateid where
  ops := [.putfh fh, .openConfirm sid seqid]
  results := [.status {}, .openConfirm {}]
  wrapCall := .wrap "nfs4: OPEN_CONFIRM"
  checked := 1
  value rs := (rs.getD 1 default).stateid

/-- `Write`: PUTFH(fh) + WRITE. -/
def writeOp (fh : FileHandle) (sid : Stateid) (offset : UInt64) (data : Bytes)
    (stable : StableHow) : MultiOp (UInt32 × StableHow) where
  ops := [.putfh fh, .write { stateid := sid, offset, stable, data }]
  results := [.status {}, .write {}]
  wrapCall := .wrap "nfs4: WRITE"
  checked := 1
  value rs := (rs.getD 1 default).written

/-- `Commit`: PUTFH(fh) + COMMIT. -/
def commitOp (fh : FileHandle) (offset : UInt64) (count : UInt32) : MultiOp Unit where
  ops := [.putfh fh, .commit offset count]
  results := [.status {}, .commit {}]
  wrapCall := .wrap "nfs4: COMMIT"
  checked := 1
  value _ := ()

/-- `CloseFile`: PUTFH(fh) + CLOSE. -/
def closeFileOp (fh : FileHandle) (sid : Stateid) (seqid : UInt32) : MultiOp Unit where
  ops := [.putfh fh, .close seqid sid]
  results := [.status {}, .close {}]
  wrapCall := .wrap "nfs4: CLOSE"
  checked := 1
  value _ := ()

/-- `create`: PUTFH(dir) + CREATE + GETFH.  The status of GETFH is not looked at. -/
def createOp (dir : FileHandle) (args : CreateArgs) : MultiOp FileHandle where
  ops := [.putfh dir, .create args, .getfh]
  results := [.status {}, .create {}, .getfh {}]
  wrapCall := .wrap "nfs4: CREATE"
  checked := 1
  value rs := (rs.getD 2 default).fh

/-- `Mkdir`: CREATE of type NF4DIR. -/
def mkdirOp (dir : FileHandle) (name : Bytes) (attrMask : Bitmap) (attrVals : Bytes) :
    MultiOp FileHandle :=
  createOp dir { type := 2, objName := name, attrMask, attrVals }

/-- `Symlink`: CREATE of type NF4LNK. -/
def symlinkOp (dir : FileHandle) (name target : Bytes) (attrMask : Bitmap) (attrVals : Bytes) :
    MultiOp FileHandle :=
  createOp dir { type := 5, linkData := target, objName := name, attrMask, attrVals }

/-- `Remove`: PUTFH(dir) + REMOVE. -/
def removeOp (dir : FileHandle) (name : Bytes) : MultiOp Unit where
  ops := [.putfh dir, .remove name]
  results := [.status {}, .remove {}]
  wrapCall := .wrap "nfs4: REMOVE"
  checked := 1
  value _ := ()

/-- `Rename`: PUTFH(srcDir) + SAVEFH + PUTFH(dstDir) + RENAME. -/
def renameOp (srcDir : FileHandle) (oldName : Bytes) (dstDir : FileHandle) (newName : Bytes) :
    MultiOp Unit where
  ops := [.putfh srcDir, .savefh, .putfh dstDir, .rename oldName newName]
  results := [.status {}, .status {}, .status {}, .rename {}]
  wrapCall := .wrap "nfs4: RENAME"
  checked := 3
  value _ := ()

/-- `Link`: PUTFH(src) + SAVEFH + PUTFH(dstDir) + LINK. -/
def linkOp (src dstDir : FileHandle) (newName : Bytes) : MultiOp Unit where
  ops := [.putfh src, .savefh, .putfh dstDir, .link newName]
  results := [.status {}, .status {}, .status {}, .link {}]
  wrapCall := .wrap "nfs4: LINK"
  checked := 3
  value _ := ()

/-- `SetAttr`: PUTFH(fh) + SETATTR. -/
def setAttrOp (fh : FileHandle) (sid : Stateid) (attrMask : Bitmap) (attrVals : Bytes) :
    MultiOp Unit where
  ops := [.putfh fh, .setattr { stateid := sid, attrMask, attrVals }]
  results := [.status {}, .setattr {}]
  wrapCall := .wrap "nfs4: SETATTR"
  checked := 1
  value _ := ()

/-! ## Single-op methods -/

/-- What a single-op method sends, how it words its errors and which statuses it takes for
success. -/
structure SingleOp where
  op : Arg
  result : Res
  result_eq : result = op.decoder := by rfl
  /-- The error of `CallCompound`, wrapped. -/
  wrapCall : Err → Err
  accepts : Status → Bool := (· = nfs4Ok)
  /-- The error of any other status, wrapped. -/
  wrapStatus : Err → Err
  /-- Wrapping keeps the status that the error carries. -/
  asStatus_wrapCall : ∀ e, (wrapCall e).asStatus = e.asStatus := by intro e; rfl
  asStatus_wrapStatus : ∀ e, (wrapStatus e).asStatus = e.asStatus := by intro e; rfl

namespace SingleOp

variable {W : Type}

/-- What a single-op method makes of the outcome of `CallCompound`: the overall status is not
looked at. -/
def finish (m : SingleOp) : Outcome → Except Err Res
  | (_, .error e) => .error (m.wrapCall e)
  | (rs, .ok _) =>
    let res := rs.getD 0 default
    if m.accepts res.stat then .ok res else .error (m.wrapStatus (.status res.stat))

/-- A single-op method, up to what it stores in the connection. -/
def exec (E : Env W) (c : Conn) (m : SingleOp) (n : Net W) : Except Err Res × Net W :=
  match c.caller.callCompound E (c.request [m.op]) [m.result] n with
  | (out, n') => (m.finish out, n')

end SingleOp

def exchangeIDOp (verifier : ByteArr 8) (ownerID : Bytes) : SingleOp where
  op := .exchangeID { verifier, ownerID, flags := 0x00040000 }
  result := .exchangeID {}
  wrapCall := .wrap "nfs4: EXCHANGE_ID"
  wrapStatus := .wrap "nfs4: EXCHANGE_ID rejected"

/-- The channel attributes that `createSession` asks for, on both channels. -/
def sessionChannel : ChannelAttrs where
  maxRequestSize := 1048576
  maxResponseSize := 1048576
  maxResponseSizeCach := 65536
  maxOperations := 16
  maxRequests := 16

def createSessionOp (clientID : UInt64) (sequenceID : UInt32) : SingleOp where
  op := .createSession
    { clientID, sequenceID, foreChan := sessionChannel, backChan := sessionChannel }
  result := .createSession {}
  wrapCall := .wrap "nfs4: CREATE_SESSION"
  wrapStatus := .wrap "nfs4: CREATE_SESSION rejected"

/-- NFS4ERR_COMPLETE_ALREADY is benign. -/
def reclaimCompleteOp : SingleOp where
  op := .reclaimComplete false
  result := .reclaimComplete {}
  wrapCall := .wrap "nfs4: RECLAIM_COMPLETE"
  accepts s := s = nfs4Ok || s = nfs4errCompleteAlready
  wrapStatus := .wrap "nfs4: RECLAIM_COMPLETE rejected"

def setClientIDOp (verifier : ByteArr 8) (id : Bytes) : SingleOp where
  op := .setclientid
    { verifier, id, callbackProg := 0, callbackNetID := ascii "tcp",
      callbackAddr := ascii "0.0.0.0.0.0", callbackIdent := 0 }
  result := .setclientid {}
  wrapCall := .wrap "nfs4: SETCLIENTID"
  wrapStatus := .wrap "nfs4: SETCLIENTID rejected"

def confirmClientIDOp (clientID : UInt64) (verifier : ByteArr 8) : SingleOp where
  op := .setclientidConfirm clientID verifier
  result := .status {}
  wrapCall := .wrap "nfs4: SETCLIENTID_CONFIRM"
  wrapStatus := .wrap "nfs4: SETCLIENTID_CONFIRM rejected"

def renewOp (clientID : UInt64) : SingleOp where
  op := .renew clientID
  result := .status {}
  wrapCall := .wrap "nfs4: RENEW"
  wrapStatus := id

namespace Conn

variable {W : Type} (E : Env W)

/-- What a method returns, the connection and the network after it. -/
abbrev Ret (W α : Type) : Type := Except Err α × Conn × Net W

/-- Run a single-op method and store what it returned. -/
def single (c : Conn) (m : SingleOp) (store : Conn → Res → Conn) (n : Net W) : Ret W Unit :=
  match m.exec E c n with
  | (.error e, n') => (.error e, c, n')
  | (.ok res, n') => (.ok (), store c res, n')

/-- `clientName` returns the configured client name or a default derived from the
hostname. -/
def clientName (c : Conn) (n : Net W) : Bytes × Net W :=
  if c.cfg.clientName ≠ [] then (c.cfg.clientName, n)
  else match E.hostname n.world with
    | (host, w) =>
      let host := match host with
        | .error _ => ascii "go-nfs-client"
        | .ok h => if h = [] then ascii "go-nfs-client" else h
      (ascii "go-nfs-client/" ++ host, { n with world := w })

/-- The client presents itself to the server, with a verifier from `rand.Read(verifier[:])` and its
name. -/
def introduce (c : Conn) (text : String) (op : ByteArr 8 → Bytes → SingleOp)
    (store : Conn → Res → Conn) (n : Net W) : Ret W Unit :=
  match E.rand n.world with
  | (.error e, w) => (.error (.wrap text e), c, { n with world := w })
  | (.ok v, w) => match c.clientName E { n with world := w } with
    | (name, n₁) => c.single E (op v name) store n₁

lemma clientName_net (c : Conn) (n : Net W) :
    ∃ w, (c.clientName E n).2 = { n with world := w } := by
  unfold clientName
  split
  · exact ⟨n.world, rfl⟩
  · exact ⟨_, rfl⟩

/-- There is no verifier and nothing is sent, or one operation is. -/
lemma introduce_cases (c : Conn) (text : String) (op : ByteArr 8 → Bytes → SingleOp)
    (store : Conn → Res → Conn) (n : Net W) :
    (∃ e w, c.introduce E text op store n = (.error e, c, { n with world := w })) ∨
      ∃ v name w, c.introduce E text op store n
        = c.single E (op v name) store { n with world := w } := by
  rcases hrand : E.rand n.world with ⟨e | v, w⟩
  · refine .inl ⟨.wrap text e, w, ?_⟩
    simp only [introduce, hrand]
  · obtain ⟨w', hname⟩ := clientName_net E c { n with world := w }
    refine .inr ⟨v, (c.clientName E { n with world := w }).1, w', ?_⟩
    simp only [introduce, hrand, hname]

/-- `exchangeID` issues EXCHANGE_ID and stores the returned client id and sequence. -/
def exchangeID (c : Conn) (n : Net W) : Ret W Unit :=
  c.introduce E "nfs4: generating exchange-id verifier" exchangeIDOp (fun c res =>
    { c with
      clientID := res.toExchangeID.clientID
      eirSequence := res.toExchangeID.sequenceID }) n

/-- Insert a session caller beneath the outer retry caller. -/
def insertSession (caller : Caller) (p : ℕ) : Caller :=
  match caller with
  | .retry base cfg => .retry (.session base p) cfg
  | other => .session other p

/-- `createSession` issues CREATE_SESSION, builds the slot table and installs the caller that
prepends SEQUENCE. -/
def createSession (c : Conn) (n : Net W) : Ret W Unit :=
  match (createSessionOp c.clientID c.eirSequence).exec E c n with
  | (.error e, n') => (.error e, c, n')
  | (.ok res, n') =>
    let r := res.toCreateSession
    let p := n'.sessions.length
    (.ok (), { c with session := some p, caller := insertSession c.caller p },
      { n' with sessions := n'.sessions ++ [newSession r.sessionID r.foreChan.maxRequests.toNat] })

/-- `reclaimComplete` issues RECLAIM_COMPLETE (global form) through the session. -/
def reclaimComplete (c : Conn) (n : Net W) : Ret W Unit :=
  c.single E reclaimCompleteOp (fun c _ => c) n

/-- `setClientID` issues SETCLIENTID and stores the returned client id and verifier. -/
def setClientID (c : Conn) (n : Net W) : Ret W Unit :=
  c.introduce E "nfs4: generating clientid verifier" setClientIDOp (fun c res =>
    { c with clientID := res.toSetclientid.clientID, confirm := res.toSetclientid.confirm }) n

/-- `confirmClientID` issues SETCLIENTID_CONFIRM for the stored client id. -/
def confirmClientID (c : Conn) (n : Net W) : Ret W Unit :=
  c.single E (confirmClientIDOp c.clientID c.confirm) (fun c _ => c) n

/-- `Renew` issues RENEW for the connection's client id. -/
def renew (c : Conn) (n : Net W) : Ret W Unit :=
  c.single E (renewOp c.clientID) (fun c _ => c) n

/-- `fetchRootFH` stores the root file handle. -/
def fetchRootFH (c : Conn) (n : Net W) : Ret W Unit :=
  match fetchRootFHOp.exec E c n with
  | (.error e, n') => (.error e, c, n')
  | (.ok fh, n') => (.ok (), { c with rootFH := fh }, n')

/-- Continue after a step that may fail. -/
def andThen (r : Ret W Unit) (k : Conn → Net W → Ret W Unit) : Ret W Unit :=
  match r with
  | (.error e, c, n) => (.error e, c, n)
  | (.ok _, c, n) => k c n

/-- `mountV41`: EXCHANGE_ID, CREATE_SESSION, RECLAIM_COMPLETE, PUTROOTFH + GETFH. -/
def mountV41 (c : Conn) (n : Net W) : Ret W Unit :=
  andThen (c.exchangeID E n) fun c n =>
    andThen (c.createSession E n) fun c n =>
      andThen (c.reclaimComplete E n) fun c n => c.fetchRootFH E n

/-- `Mount` performs the bootstrap of the configured minor version. -/
def mount (c : Conn) (n : Net W) : Ret W Unit :=
  if 1 ≤ c.cfg.minorVersion then c.mountV41 E n
  else
    andThen (c.setClientID E n) fun c n =>
      andThen (c.confirmClientID E n) fun c n => c.fetchRootFH E n

/-- The caller that `teardownSession` uses: one retry caller and one session caller are
unwrapped. -/
def teardownCaller (caller : Caller) : Caller :=
  let base := match caller with
    | .retry base _ => base
    | other => other
  match base with
  | .session base _ => base
  | other => other

/-- `teardownSession` issues DESTROY_SESSION and DESTROY_CLIENTID, best effort. -/
def teardownSession (c : Conn) (n : Net W) : Net W :=
  match c.session with
  | none => n
  | some p =>
    let base := teardownCaller c.caller
    let n₁ := (base.callCompound E (c.request [.destroySession (n.session p).id])
      [.destroySession {}] n).2
    (base.callCompound E (c.request [.destroyClientID c.clientID]) [.destroyClientID {}] n₁).2

/-! ## Opening and closing files -/

/-- `nextSeqid` returns the next open-owner seqid. -/
def nextSeqid (c : Conn) : UInt32 × Conn :=
  (c.openSeqid + 1, { c with openSeqid := c.openSeqid + 1 })

/-- `ownerID` is the open-owner derived from the client id. -/
def ownerID (c : Conn) : Bytes := ascii "go-nfs-owner-" ++ ascii (toString c.clientID.toNat)

/-- The parameters of `Open`. -/
structure OpenParams where
  dir : FileHandle
  name : Bytes
  share : UInt32
  createAttrMask : Bitmap
  createAttrVals : Bytes
  doCreate : Bool
  excl : Bool
deriving DecidableEq

/-- The `OpenArgs` that `Open` builds with a given seqid. -/
def openArgs (c : Conn) (q : OpenParams) (seqid : UInt32) : OpenArgs :=
  let args : OpenArgs :=
    { seqid, shareAccess := q.share, shareDeny := 0, clientID := c.clientID, owner := c.ownerID,
      name := q.name }
  if q.doCreate then
    { args with
      openType := 1
      createMode := if q.excl then 1 else 0
      createAttrMask := q.createAttrMask
      createAttrVals := q.createAttrVals }
  else args

/-- `openConfirm` issues OPEN_CONFIRM and returns the confirmed stateid. -/
def openConfirm (c : Conn) (fh : FileHandle) (sid : Stateid) (n : Net W) : Ret W Stateid :=
  match c.nextSeqid with
  | (seqid, c₁) =>
    match (openConfirmOp fh sid seqid).exec E c₁ n with
    | (out, n') => (out, c₁, n')

/-- `Open` opens, and optionally creates, a file; it returns the file handle and the confirmed
stateid. -/
def openFile (c : Conn) (q : OpenParams) (n : Net W) : Ret W (FileHandle × Stateid) :=
  match c.nextSeqid with
  | (seqid, c₁) =>
    match (openOp q.dir (c.openArgs q seqid)).exec E c₁ n with
    | (.error e, n₁) => (.error e, c₁, n₁)
    | (.ok (fh, res), n₁) =>
      if res.needsConfirm then
        match c₁.openConfirm E fh res.stateid n₁ with
        | (.error e, c₂, n₂) => (.error e, c₂, n₂)
        | (.ok sid, c₂, n₂) => (.ok (fh, sid), c₂, n₂)
      else (.ok (fh, res.stateid), c₁, n₁)

/-- What `Open` can do: the compounds that it sends, with their outcomes, and what follows for the
result, the connection and the network. -/
inductive Opens (c : Conn) (q : OpenParams) (n : Net W) : Ret W (FileHandle × Stateid) → Prop
  /-- OPEN fails. -/
  | failed {e : Err} {n₁ : Net W}
      (hopen : (openOp q.dir (c.openArgs q c.nextSeqid.1)).exec E c.nextSeqid.2 n
        = (.error e, n₁)) :
      Opens c q n (.error e, c.nextSeqid.2, n₁)
  /-- OPEN succeeds, and there is nothing to confirm. -/
  | opened {fh : FileHandle} {res : OpenRes} {n₁ : Net W}
      (hopen : (openOp q.dir (c.openArgs q c.nextSeqid.1)).exec E c.nextSeqid.2 n
        = (.ok (fh, res), n₁)) (hconf : res.needsConfirm = false) :
      Opens c q n (.ok (fh, res.stateid), c.nextSeqid.2, n₁)
  /-- OPEN succeeds, and OPEN_CONFIRM decides. -/
  | confirm {fh : FileHandle} {res : OpenRes} {n₁ : Net W}
      (hopen : (openOp q.dir (c.openArgs q c.nextSeqid.1)).exec E c.nextSeqid.2 n
        = (.ok (fh, res), n₁)) (hconf : res.needsConfirm = true) :
      Opens c q n ((c.nextSeqid.2.openConfirm E fh res.stateid n₁).1.map (fh, ·),
        (c.nextSeqid.2.openConfirm E fh res.stateid n₁).2)

lemma opens_openFile (c : Conn) (q : OpenParams) (n : Net W) :
    Opens E c q n (c.openFile E q n) := by
  simp only [openFile]
  rcases hopen : (openOp q.dir (c.openArgs q c.nextSeqid.1)).exec E c.nextSeqid.2 n with
    ⟨e | ⟨fh, res⟩, n₁⟩
  · exact .failed hopen
  · by_cases hconf : res.needsConfirm = true
    · have h := Opens.confirm hopen hconf
      simp only [hconf, if_true]
      generalize c.nextSeqid.2.openConfirm E fh res.stateid n₁ = R at h ⊢
      rcases R with ⟨e | sid, c₂, n₂⟩ <;> exact h
    · simp only [hconf, Bool.false_eq_true, if_false]
      exact .opened hopen (by simpa using hconf)

/-- The connection and the network after `Open`: after its first compound, or after the
OPEN_CONFIRM that followed. -/
lemma openFile_cases (c : Conn) (q : OpenParams) (n : Net W) :
    let c₁ := c.nextSeqid.2
    let n₁ := ((openOp q.dir (c.openArgs q c.nextSeqid.1)).exec E c₁ n).2
    (c.openFile E q n).2 = (c₁, n₁) ∨
      ∃ fh sid, (c.openFile E q n).2 = (c₁.openConfirm E fh sid n₁).2 := by
  intro c₁ n₁
  have h := opens_openFile E c q n
  generalize c.openFile E q n = R at h ⊢
  cases h with
  | failed hopen | opened hopen => exact .inl (by simp only [c₁, n₁, hopen])
  | @confirm fh res _ hopen => exact .inr ⟨fh, res.stateid, by simp only [c₁, n₁, hopen]⟩

/-- `CloseFile` closes an open file. -/
def closeFile (c : Conn) (fh : FileHandle) (sid : Stateid) (n : Net W) : Ret W Unit :=
  match c.nextSeqid with
  | (seqid, c₁) =>
    match (closeFileOp fh sid seqid).exec E c₁ n with
    | (out, n') => (out, c₁, n')

/-- `Lookup` resolves a name in a directory. -/
def lookup (c : Conn) (dir : FileHandle) (name : Bytes) : Net W → Except Err FileHandle × Net W :=
  (lookupOp dir name).exec E c

end Conn

/-! ## Paths -/

section LookupPath

variable {W : Type} (lookup : FileHandle → Bytes → W → Except Err FileHandle × W)

/-- The loop of `LookupPath`, over any `Lookup`. -/
def lookupLoop : List Bytes → FileHandle → W → Except Err FileHandle × W
  | [], cur, w => (.ok cur, w)
  | comp :: comps, cur, w =>
    if comp = [] ∨ comp = ascii "." then lookupLoop comps cur w
    else match lookup cur comp w with
      | (.error e, w') => (.error e, w')
      | (.ok fh, w') => lookupLoop comps fh w'

/-- `LookupPath` resolves a path relative to the root file handle. -/
def lookupPath (root : FileHandle) (components : List Bytes) (w : W) : Except Err FileHandle × W :=
  if root = none then (.error (.text "nfs4: not mounted (no root filehandle)"), w)
  else lookupLoop lookup components root w

/-- `LookupPath` skips what is not a component. -/
lemma lookupLoop_eq (comps : List Bytes) (cur : FileHandle) (w : W) :
    lookupLoop lookup comps cur w =
      Lib.walk lookup (comps.filter fun comp => !(comp = [] || comp = ascii ".")) cur w := by
  induction comps generalizing cur w with
  | nil => rfl
  | cons comp comps ih =>
      by_cases hskip : comp = [] ∨ comp = ascii "."
      · rw [List.filter_cons_of_neg (by simpa [or_iff_not_imp_left] using hskip), lookupLoop,
          if_pos hskip]
        exact ih cur w
      · rw [List.filter_cons_of_pos (by simpa using hskip), lookupLoop, if_neg hskip, Lib.walk]
        rcases lookup cur comp w with ⟨e | next, w'⟩
        · rfl
        · exact ih next w'

end LookupPath

/-- `LookupPath` of a connection. -/
def Conn.lookupPath {W : Type} (E : Env W) (c : Conn) (components : List Bytes) (n : Net W) :
    Except Err FileHandle × Net W :=
  Nfs4.lookupPath (c.lookup E) c.rootFH components n

end NfsClient.Nfs4
