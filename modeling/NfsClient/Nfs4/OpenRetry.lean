import NfsClient.Nfs4.OpenSeqid

/-!
# Retrying an operation that carries a seqid

The retry caller sends the same compound again when the server answers DELAY or GRACE.  For
OPEN, OPEN_CONFIRM and CLOSE the seqid is part of the compound.  A v4.0 server counts an
operation that it answered with DELAY as evaluated and answers a repeated seqid from its
cache, so every later attempt gets the first answer again, also when the server has become
ready in the meantime.
-/

namespace NfsClient.Nfs4

/-! ## A server with a replay cache -/

/-- The state of an open-owner in the server. -/
structure OwnerServer where
  /-- The last seqid that was evaluated, and the reply to it. -/
  last : Option UInt32 := none
  cached : Bytes := []
  /-- For each operation, the retriable answers that are still to come. -/
  busy : Opnum → List Status := fun _ => []

/-- PUTFH succeeds and the operation fails. -/
def failedReply (op : Opnum) (st : Status) : Bytes :=
  replyBytes st [⟨opPutfh, nfs4Ok, []⟩, ⟨op, st, []⟩]

/-- The reply of the server to a compound.  `ready` is what it answers when it is not busy. -/
def OwnerServer.answer (ready : Compound → Bytes) (c : Compound) (w : OwnerServer) :
    Bytes × OwnerServer :=
  match seqidIn c.ops with
  | none => (ready c, w)
  | some (_, op, q) =>
    if w.last = some q then (w.cached, w)
    else if w.last.any (fun prev => q ≠ prev + 1) then (failedReply op nfs4errBadSeqid, w)
    else
      match w.busy op with
      | st :: rest =>
          (failedReply op st,
            { last := some q, cached := failedReply op st, busy := Function.update w.busy op rest })
      | [] => (ready c, { w with last := some q, cached := ready c })

/-- The environment with this server, in which no context is ever done. -/
def ownerEnv (ready : Compound → Bytes) : Env OwnerServer where
  ctxErr w := (none, w)
  select w := (none, w)
  sleep _ w := (none, w)
  base c w := (.ok (w.answer ready c).1, (w.answer ready c).2)
  rand w := (.ok default, w)
  hostname w := (.ok [], w)

/-- The server expects the seqid that the connection draws next. -/
def Synced (c : Conn) (w : OwnerServer) : Prop := ∀ q ∈ w.last, q = c.openSeqid

variable {α : Type} {ready : Compound → Bytes} {c : Conn} {cfg : RetryConfig}

/-! ## One compound -/

/-- A seqid that the server has evaluated is answered from the cache. -/
lemma answer_cached {comp : Compound} {i : ℕ} {op : Opnum} {q : UInt32} {w : OwnerServer}
    (hop : seqidIn comp.ops = some (i, op, q)) (hw : w.last = some q) :
    w.answer ready comp = (w.cached, w) := by
  simp [OwnerServer.answer, hop, hw]

lemma not_bad_of_synced {w : OwnerServer} (hw : Synced c w) :
    w.last ≠ some c.nextSeqid.1 ∧ w.last.any (fun prev => c.nextSeqid.1 ≠ prev + 1) = false := by
  cases hl : w.last with
  | none => simp
  | some prev =>
      obtain rfl : prev = c.openSeqid := hw prev hl
      have hne : c.openSeqid ≠ c.openSeqid + 1 := by simp
      exact ⟨by simp [Conn.nextSeqid, hne], by simp [Conn.nextSeqid]⟩

/-- A busy server answers a new seqid with its first retriable answer. -/
lemma answer_busy {comp : Compound} {i : ℕ} {op : Opnum} {w : OwnerServer} {st : Status}
    {rest : List Status} (hop : seqidIn comp.ops = some (i, op, c.nextSeqid.1)) (hw : Synced c w)
    (hb : w.busy op = st :: rest) :
    (w.answer ready comp).1 = failedReply op st ∧
      (w.answer ready comp).2.last = some c.nextSeqid.1 ∧
      (w.answer ready comp).2.cached = failedReply op st := by
  obtain ⟨h₁, h₂⟩ := not_bad_of_synced hw
  simp only [OwnerServer.answer, hop, if_neg h₁, h₂, Bool.false_eq_true, if_false, hb, and_self]

/-- A server that is ready performs a compound with a new seqid. -/
lemma answer_ready {comp : Compound} {i : ℕ} {op : Opnum} {w : OwnerServer}
    (hop : seqidIn comp.ops = some (i, op, c.nextSeqid.1)) (hw : Synced c w)
    (hb : w.busy op = []) :
    w.answer ready comp =
      (ready comp, { w with last := some c.nextSeqid.1, cached := ready comp }) := by
  obtain ⟨h₁, h₂⟩ := not_bad_of_synced hw
  simp only [OwnerServer.answer, hop, if_neg h₁, h₂, Bool.false_eq_true, if_false, hb]

/-- If the transport always answers with the same retriable reply, the retry loop ends in an
error. -/
lemma retryLoop_stuck {W : Type} {E : Env W} (comp : Compound) (b : Bytes) (Stuck : W → Prop)
    (hctx : ∀ w, E.ctxErr w = (none, w)) (hsleep : ∀ d w, E.sleep d w = (none, w))
    (hbase : ∀ w, Stuck w → ∃ w', E.base comp w = (.ok b, w') ∧ Stuck w')
    (hret : ∀ rs, kinds rs = comp.ops.map Arg.decoder →
      retriable (decodeReply rs (.ok b)).2 = true)
    (cfg : RetryConfig) (left : ℕ) (delay : Int64) (lastErr : Option Err) {rs : List Res}
    (hrs : kinds rs = comp.ops.map Arg.decoder) {n : Net W} (hn : Stuck n.world) :
    ∃ e, (retryLoop E cfg (fun rs n => Caller.rpc.callCompound E comp rs n) left delay lastErr rs
      n).1.2 = .error e := by
  -- every attempt gets the same reply, whatever the decoders hold
  have hattempt : ∀ {rs : List Res} {n : Net W}, kinds rs = comp.ops.map Arg.decoder →
      Stuck n.world → ∃ rs₁ out w',
        Caller.rpc.callCompound E comp rs (n.push (.ctxErr none) n.world) =
          ((rs₁, out), (n.push (.ctxErr none) n.world).push (.call comp (.ok b)) w') ∧
        retriable out = true ∧ kinds rs₁ = comp.ops.map Arg.decoder ∧ Stuck w' := by
    intro rs n hrs hn
    obtain ⟨w', hb, hw'⟩ := hbase n.world hn
    have hr := hret rs hrs
    have hkinds := decodeReply_kinds rs (.ok b)
    rcases hd : decodeReply rs (.ok b) with ⟨rs₁, out⟩
    rw [hd] at hr hkinds
    refine ⟨rs₁, out, w', ?_, hr, hkinds.trans hrs, hw'⟩
    simp only [Caller.callCompound, Net.push, hb, hd]
  induction left generalizing delay lastErr rs n with
  | zero =>
      obtain ⟨rs₁, out, w', hcall, hr, -, -⟩ := hattempt hrs hn
      rw [retryLoop_exhausted (hctx _) hcall hr]
      exact ⟨_, rfl⟩
  | succ left ih =>
      obtain ⟨rs₁, out, w', hcall, hr, hkinds, hw'⟩ := hattempt hrs hn
      rw [retryLoop_again (hctx _) hcall hr (hsleep _ _)]
      exact ih _ _ hkinds hw'

/-- The operations of the open-owner, with the decoders of their compounds. -/
def ownerDecoders (op : Opnum) : List Res :=
  if op = opOpen then [.status {}, .openFile {}, .getfh {}]
  else if op = opOpenConfirm then [.status {}, .openConfirm {}]
  else [.status {}, .close {}]

/-- DELAY or GRACE for an operation of the open-owner is accepted, and retried. -/
lemma parseReply_failed {op : Opnum} (hop : op = opOpen ∨ op = opOpenConfirm ∨ op = opClose)
    {st : Status} (hst : isRetriableStatus st = true) :
    parseReply (ownerDecoders op) (failedReply op st) =
      some ({ status := st, tag := [], numResults := 2 }, [nfs4Ok, st]) := by
  have hst' : st = nfs4errDelay ∨ st = nfs4errGrace := by simpa [isRetriableStatus] using hst
  rcases hop with rfl | rfl | rfl <;> rcases hst' with rfl | rfl <;> rfl

/-- A reply to an operation of the open-owner in which every status is NFS4_OK. -/
def Performs (op : Opnum) (b : Bytes) : Prop :=
  ∃ r sts, parseReply (ownerDecoders op) b = some (r, sts) ∧ r.status = nfs4Ok ∧
    ∀ s ∈ sts, s = nfs4Ok

/-- A multi-op method that sends one operation of the open-owner with the seqid drawn last. -/
structure OwnerMethod (c : Conn) (m : MultiOp α) (op : Opnum) : Prop where
  op_mem : op = opOpen ∨ op = opOpenConfirm ∨ op = opClose
  decoders : m.results = ownerDecoders op
  seqid : seqidIn m.ops = some (1, op, c.nextSeqid.1)

/-- A busy server: the method fails. -/
lemma OwnerMethod.exec_busy {m : MultiOp α} {op : Opnum} (hm : OwnerMethod c m op)
    (hc : c.caller = .retry .rpc cfg) {n : Net OwnerServer} (hn : Synced c n.world) {st : Status}
    {rest : List Status} (hb : n.world.busy op = st :: rest) (hst : isRetriableStatus st = true) :
    errorOf (m.exec (ownerEnv ready) c.nextSeqid.2 n).1 ≠ none := by
  have hop : seqidIn (c.nextSeqid.2.request m.ops).ops = some (1, op, c.nextSeqid.1) := by
    rw [request_ops, hm.seqid]
  have hkinds : kinds m.results = (c.nextSeqid.2.request m.ops).ops.map Arg.decoder := by
    rw [m.results_eq, request_ops]
    simp [kinds, Arg.fresh_decoder]
  -- the answer now, and the cached one from then on
  have hstuck := retryLoop_stuck (E := ownerEnv ready) (c.nextSeqid.2.request m.ops)
    (failedReply op st)
    (fun w => (w.answer ready (c.nextSeqid.2.request m.ops)).1 = failedReply op st ∧
      (w.answer ready (c.nextSeqid.2.request m.ops)).2.last = some c.nextSeqid.1 ∧
      (w.answer ready (c.nextSeqid.2.request m.ops)).2.cached = failedReply op st)
    (fun _ => rfl) (fun _ _ => rfl)
    (by
      rintro w ⟨hans, hlast, hcached⟩
      refine ⟨(w.answer ready (c.nextSeqid.2.request m.ops)).2, ?_, ?_⟩
      · simp only [ownerEnv, hans]
      · rw [answer_cached hop hlast]
        exact ⟨hcached, hlast, hcached⟩)
    (by
      intro rs hrs
      have hk : kinds rs = kinds (ownerDecoders op) := by
        rw [hrs, ← hkinds, hm.decoders]
      obtain ⟨rs', hdec, -⟩ := decodeReply_of_parseReply
        ((parseReply_kinds hk _).trans (parseReply_failed hm.op_mem hst))
      rw [hdec]
      exact hst)
    cfg (cfg.maxAttempts.toNat - 1) cfg.initial none hkinds (n := n) (answer_busy hop hn hb)
  obtain ⟨e, he⟩ := hstuck
  have hcaller : c.nextSeqid.2.caller = .retry .rpc cfg := hc
  simp only [MultiOp.exec, hcaller, Caller.callCompound]
  rcases hl : retryLoop (ownerEnv ready) cfg
    (fun rs n => Caller.rpc.callCompound (ownerEnv ready) (c.nextSeqid.2.request m.ops) rs n)
    (cfg.maxAttempts.toNat - 1) cfg.initial none m.results n with ⟨⟨rs, out⟩, n'⟩
  rw [hl] at he
  obtain rfl : out = .error e := he
  simp only [Caller.callCompound] at hl
  rw [hl]
  simp [MultiOp.finish, errorOf]

/-- A server that is ready: the method succeeds, with what it decodes from the first reply. -/
lemma OwnerMethod.exec_ready {m : MultiOp α} {op : Opnum} (hm : OwnerMethod c m op)
    (hc : c.caller = .retry .rpc cfg) {n : Net OwnerServer} (hn : Synced c n.world)
    (hb : n.world.busy op = [])
    (hperf : Performs op (ready (c.nextSeqid.2.request m.ops))) :
    (m.exec (ownerEnv ready) c.nextSeqid.2 n).1 = .ok (m.value
        (decodeReply (ownerDecoders op) (.ok (ready (c.nextSeqid.2.request m.ops)))).1) ∧
      (m.exec (ownerEnv ready) c.nextSeqid.2 n).2.world =
        { n.world with
          last := some c.nextSeqid.1
          cached := ready (c.nextSeqid.2.request m.ops) } := by
  set comp := c.nextSeqid.2.request m.ops with hcomp
  have hop : seqidIn comp.ops = some (1, op, c.nextSeqid.1) := by
    rw [hcomp, request_ops, hm.seqid]
  obtain ⟨r, sts, hparse, hstatus, hsts⟩ := hperf
  obtain ⟨rs, hdec, -, -, hstat⟩ := decodeReply_of_parseReply hparse
  have hans : n.world.answer ready comp = _ := answer_ready hop hn hb
  -- every status in the results is NFS4_OK: those of the reply, and those not reached
  have hall : ∀ j, (rs.getD j default).stat = nfs4Ok := by
    refine statAt_of_forall ?_
    rw [hstat, ← hm.decoders, m.results_eq]
    intro s hs
    rcases List.mem_append.mp hs with hs | hs
    · exact hsts s hs
    · obtain ⟨res, hres, rfl⟩ := List.mem_map.mp hs
      obtain ⟨a, -, rfl⟩ := List.mem_map.mp (List.mem_of_mem_drop hres)
      exact a.stat_decoder
  have hcall : Caller.rpc.callCompound (ownerEnv ready) comp m.results
      (n.push (.ctxErr none) n.world) = ((rs, .ok r), (n.push (.ctxErr none) n.world).push
        (.call comp (.ok (ready comp)))
        { n.world with last := some c.nextSeqid.1, cached := ready comp }) := by
    simp only [Caller.callCompound, ownerEnv, Net.push, hans, hm.decoders, hdec]
  have hloop : (Caller.retry .rpc cfg).callCompound (ownerEnv ready) comp m.results n = _ :=
    retryLoop_final rfl hcall
      (by simp [retriable, hstatus, isRetriableStatus, nfs4Ok, nfs4errDelay, nfs4errGrace])
  have hcaller : c.nextSeqid.2.caller = .retry .rpc cfg := hc
  have hexec : m.exec (ownerEnv ready) c.nextSeqid.2 n = (m.finish (rs, .ok r),
      (n.push (.ctxErr none) n.world).push (.call comp (.ok (ready comp)))
        { n.world with last := some c.nextSeqid.1, cached := ready comp }) := by
    rw [MultiOp.exec, hcaller, ← hcomp, hloop]
  rw [hexec, hdec]
  refine ⟨?_, rfl⟩
  simp only [MultiOp.finish, hstatus, hall, statusErr_ok]

/-- A method succeeds exactly when the server is not busy with its operation. -/
lemma OwnerMethod.ok_iff {m : MultiOp α} {op : Opnum} (hm : OwnerMethod c m op)
    (hc : c.caller = .retry .rpc cfg) {n : Net OwnerServer} (hn : Synced c n.world)
    (hperf : Performs op (ready (c.nextSeqid.2.request m.ops)))
    (hbusy : ∀ st ∈ n.world.busy op, isRetriableStatus st = true) :
    errorOf (m.exec (ownerEnv ready) c.nextSeqid.2 n).1 = none ↔ n.world.busy op = [] := by
  cases hb : n.world.busy op with
  | nil => simp [(hm.exec_ready hc hn hb hperf).1, errorOf]
  | cons st rest =>
      have hst := hbusy st (by simp [hb])
      simp [hm.exec_busy hc hn hb hst]

/-! ## `Open` and `CloseFile` -/

lemma ownerMethod_open (c : Conn) (q : Conn.OpenParams) :
    OwnerMethod c (openOp q.dir (c.openArgs q c.nextSeqid.1)) opOpen :=
  ⟨Or.inl rfl, rfl, seqidIn_open c q c.nextSeqid.1⟩

lemma ownerMethod_confirm (c : Conn) (fh : FileHandle) (sid : Stateid) :
    OwnerMethod c (openConfirmOp fh sid c.nextSeqid.1) opOpenConfirm :=
  ⟨Or.inr (Or.inl rfl), rfl, rfl⟩

lemma ownerMethod_close (c : Conn) (fh : FileHandle) (sid : Stateid) :
    OwnerMethod c (closeFileOp fh sid c.nextSeqid.1) opClose :=
  ⟨Or.inr (Or.inr rfl), rfl, rfl⟩

/-- Whether the OPEN result in a reply asks for a confirmation. -/
def asksConfirm (b : Bytes) : Bool :=
  ((decodeReply (ownerDecoders opOpen) (.ok b)).1.getD 1 default).toOpen.needsConfirm

/-- The operations with a seqid that `Open` and `CloseFile` send to a server that is ready. -/
def OwnerOp.sends (ready : Compound → Bytes) (c : Conn) : OwnerOp → List Opnum
  | .openFile q =>
      if asksConfirm
          (ready (c.nextSeqid.2.request (openOp q.dir (c.openArgs q c.nextSeqid.1)).ops)) then
        [opOpen, opOpenConfirm]
      else [opOpen]
  | .closeFile .. => [opClose]

/-- What the server answers when it is ready performs the compounds of the open-owner. -/
def ReadyPerforms (ready : Compound → Bytes) : Prop :=
  ∀ op comp, comp.ops.map Arg.decoder = ownerDecoders op → Performs op (ready comp)

lemma OwnerMethod.performs {m : MultiOp α} {op : Opnum} (hm : OwnerMethod c m op)
    (hready : ReadyPerforms ready) : Performs op (ready (c.nextSeqid.2.request m.ops)) :=
  hready op _ (by rw [request_ops, ← m.results_eq, hm.decoders])

/-- OPEN succeeds: the server was not busy, and is ready for the next seqid. -/
lemma OwnerMethod.granted {q : Conn.OpenParams}
    (hm : OwnerMethod c (openOp q.dir (c.openArgs q c.nextSeqid.1)) opOpen)
    (hc : c.caller = .retry .rpc cfg)
    {n n₁ : Net OwnerServer} (hn : Synced c n.world) (hready : ReadyPerforms ready)
    (hbusy : ∀ op, ∀ st ∈ n.world.busy op, isRetriableStatus st = true) {fh : FileHandle}
    {res : OpenRes}
    (hr : (openOp q.dir (c.openArgs q c.nextSeqid.1)).exec (ownerEnv ready) c.nextSeqid.2 n
      = (.ok (fh, res), n₁)) :
    n.world.busy opOpen = [] ∧
      res.needsConfirm = asksConfirm
        (ready (c.nextSeqid.2.request (openOp q.dir (c.openArgs q c.nextSeqid.1)).ops)) ∧
      Synced c.nextSeqid.2 n₁.world ∧ n₁.world.busy = n.world.busy := by
  have hb : n.world.busy opOpen = [] := by
    rw [← hm.ok_iff hc hn (hm.performs hready) (hbusy opOpen), hr]
    rfl
  obtain ⟨hok, hworld⟩ := hm.exec_ready hc hn hb (hm.performs hready)
  rw [hr] at hok hworld
  refine ⟨hb, ?_, ?_, by rw [hworld]⟩
  · rw [asksConfirm, (Prod.mk.inj (Except.ok.inj hok)).2]
  · rw [hworld]
    rintro p ⟨⟩
    rfl

lemma openFile_ok_iff (hc : c.caller = .retry .rpc cfg) (q : Conn.OpenParams)
    {n : Net OwnerServer} (hn : Synced c n.world) (hready : ReadyPerforms ready)
    (hbusy : ∀ op, ∀ st ∈ n.world.busy op, isRetriableStatus st = true) :
    errorOf (c.openFile (ownerEnv ready) q n).1 = none ↔
      ∀ op ∈ (OwnerOp.openFile q).sends ready c, n.world.busy op = [] := by
  have hm := ownerMethod_open c q
  have hiff := hm.ok_iff hc hn (hm.performs hready) (hbusy opOpen)
  have hopens := c.opens_openFile (ownerEnv ready) q n
  generalize c.openFile (ownerEnv ready) q n = R at hopens ⊢
  cases hopens with
  | @failed e n₁ hr =>
      -- the server is busy with OPEN
      have hb : n.world.busy opOpen ≠ [] := by
        rw [ne_eq, ← hiff, hr]
        simp [errorOf]
      have hmem : opOpen ∈ (OwnerOp.openFile q).sends ready c := by
        simp only [OwnerOp.sends]
        split <;> exact List.mem_cons_self
      exact iff_of_false (Option.some_ne_none e) fun h => hb (h opOpen hmem)
  | @opened fh res n₁ hr hconf =>
      obtain ⟨hb, hres, -⟩ := hm.granted hc hn hready hbusy hr
      simp [OwnerOp.sends, ← hres, hconf, hb, errorOf]
  | @confirm fh res n₁ hr hconf =>
      -- OPEN_CONFIRM is sent to a server that has evaluated OPEN
      obtain ⟨hb, hres, hn₁, hbusy₁⟩ := hm.granted hc hn hready hbusy hr
      have hm' := ownerMethod_confirm c.nextSeqid.2 fh res.stateid
      have hiff' := hm'.ok_iff hc hn₁ (hm'.performs hready) (by rw [hbusy₁]; exact hbusy _)
      rw [hbusy₁] at hiff'
      simp only [OwnerOp.sends, ← hres, hconf, if_true, List.forall_mem_cons, hb, true_and,
        errorOf_map, Conn.openConfirm, hiff']
      simp

/-- **Retry of an operation with a seqid.**  Against a server that counts a DELAY or GRACE answer
as the evaluation of its seqid, `Open` and `CloseFile` succeed exactly when the server has no
such answer for any of the operations they send. -/
theorem owner_retry_iff (hc : c.caller = .retry .rpc cfg) (op : OwnerOp) (n : Net OwnerServer)
    (hn : Synced c n.world) (hready : ReadyPerforms ready)
    (hbusy : ∀ o, ∀ st ∈ n.world.busy o, isRetriableStatus st = true) :
    op.method.err (ownerEnv ready) c n = none ↔ ∀ o ∈ op.sends ready c, n.world.busy o = [] := by
  cases op with
  | openFile q => exact openFile_ok_iff hc q hn hready hbusy
  | closeFile fh sid =>
      have hm := ownerMethod_close c fh sid
      have hiff := hm.ok_iff hc hn (hm.performs hready) (hbusy opClose)
      simp only [OwnerOp.sends, List.mem_singleton, forall_eq, ← hiff]
      rfl

/-- OPEN succeeds and asks for a confirmation. -/
def unconfirmedReply : Bytes :=
  replyBytes nfs4Ok [⟨opPutfh, nfs4Ok, []⟩,
    ⟨opOpen, nfs4Ok, List.replicate 36 0 ++ word 2 ++ List.replicate 8 0⟩,
    ⟨opGetfh, nfs4Ok, word 0⟩]

/-- OPEN_CONFIRM succeeds. -/
def confirmedReply : Bytes :=
  replyBytes nfs4Ok [⟨opPutfh, nfs4Ok, []⟩, ⟨opOpenConfirm, nfs4Ok, List.replicate 16 0⟩]

/-- What a server that asks for confirmations answers when it is ready. -/
def confirmingServer (comp : Compound) : Bytes :=
  if comp.ops.map Arg.decoder = ownerDecoders opOpen then unconfirmedReply
  else if comp.ops.map Arg.decoder = ownerDecoders opOpenConfirm then confirmedReply
  else fileClosedReply

lemma readyPerforms_confirmingServer : ReadyPerforms confirmingServer := by
  intro op comp hcomp
  unfold Performs confirmingServer
  rw [hcomp]
  by_cases h₁ : op = opOpen
  · subst h₁
    exact ⟨{ status := nfs4Ok, tag := [], numResults := 3 }, [nfs4Ok, nfs4Ok, nfs4Ok],
      by decide +kernel, rfl, by simp⟩
  · by_cases h₂ : op = opOpenConfirm
    · subst h₂
      exact ⟨{ status := nfs4Ok, tag := [], numResults := 2 }, [nfs4Ok, nfs4Ok], by decide +kernel,
        rfl, by simp⟩
    · have hclose : ownerDecoders op = ownerDecoders opClose := by
        rw [ownerDecoders, if_neg h₁, if_neg h₂]
        rfl
      rw [hclose]
      exact ⟨{ status := nfs4Ok, tag := [], numResults := 2 }, [nfs4Ok, nfs4Ok], by decide +kernel,
        rfl, by simp⟩

/-- A server that is ready: `Open` succeeds, with a confirmation. -/
theorem owner_retry_ready :
    openRead.sends confirmingServer (newConn .rpc {}) = [opOpen, opOpenConfirm] ∧
      openRead.method.err (ownerEnv confirmingServer) (newConn .rpc {}) { world := {} } = none := by
  refine ⟨by decide +kernel, ?_⟩
  rw [owner_retry_iff rfl openRead { world := {} } (by simp [Synced]) readyPerforms_confirmingServer
    (by simp)]
  intro o _
  rfl

/-- A server that answers OPEN with DELAY once and is ready then. -/
def delayedOpen : OwnerServer := { busy := fun op => if op = opOpen then [nfs4errDelay] else [] }

/-- One DELAY, with ten attempts: `Open` gets the cached DELAY on all of them. -/
theorem owner_retry_delayed :
    (delayedOpen.busy opOpen).length = 1 ∧ (RetryConfig.withDefaults {}).maxAttempts = 10 ∧
      openRead.method.err (ownerEnv confirmingServer) (newConn .rpc {}) { world := delayedOpen } =
        some (.wrap "nfs4: OPEN" (.status nfs4errDelay)) := by
  decide +kernel

end NfsClient.Nfs4
