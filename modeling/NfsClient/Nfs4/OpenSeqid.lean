import Mathlib.Data.List.ReduceOption
import NfsClient.Lib.Run
import NfsClient.Nfs4.Completeness
import NfsClient.Nfs4.EnvRun

/-!
# The seqids of the open-owner

A v4.0 connection uses one open-owner.  `nextSeqid` is called before OPEN, OPEN_CONFIRM and
CLOSE are sent and is never taken back.  The server, however, counts only those operations that
it gets to evaluate.  A compound is not sent if the context is done, the PUTFH in front of the
operation may fail, and the connection may break before or after the server has seen the
compound.  What the server evaluates is in order exactly when between two operations that it
evaluates no seqid, or a multiple of 2³² seqids, was drawn in vain.
-/

namespace NfsClient.Nfs4

open NfsClient.Lib

variable {W α : Type} {E : Env W}

/-! ## What the server evaluates -/

/-- The first operation that carries a seqid: its position, its number and the seqid. -/
def seqidIn : List Arg → Option (ℕ × Opnum × UInt32)
  | [] => none
  | a :: ops =>
    match a.seqid? with
    | some q => some (0, a.op, q)
    | none => (seqidIn ops).map fun (i, x) => (i + 1, x)

/-- The seqid that was drawn for the compound of an event, if the server evaluated the operation
that carries it.  There is no such event for other questions, and none is evaluated if the
context was done.  An accepted reply has a resop for each operation that was evaluated, since
the server stops at the first one that fails; where no reply tells, `got` says whether the
server has evaluated the operation all the same. -/
def Event.draw? (got : Bool) : Event → Option (Option UInt32)
  | .ctxErr (some _) => some none
  | .call c reply => (seqidIn c.ops).map fun (i, _, q) =>
      if (Event.call c reply).reply?.elim got (fun r => i < r.2.length) then some q else none
  | _ => none

/-- What became of the seqids that were drawn, in order.  `got` is asked with the position of the
event. -/
def draws (got : ℕ → Bool) (es : List Event) : List (Option UInt32) :=
  es.zipIdx.filterMap fun (ev, k) => ev.draw? (got k)

/-- The server's check: each operation that is evaluated carries the seqid after the last one
that was, and the first is accepted as it is. -/
def inOrder : Option UInt32 → List UInt32 → Bool
  | _, [] => true
  | last, q :: l => last.all (fun prev => q = prev + 1) && inOrder (some q) l

/-- Nothing, or a multiple of 2³² seqids, is lost between two operations that are evaluated.
The first argument counts what was lost since the last one. -/
def gapsClosed : Option ℕ → List Bool → Bool
  | _, [] => true
  | lost, false :: l => gapsClosed (lost.map (· + 1)) l
  | lost, true :: l => lost.all (fun k => k % 2 ^ 32 = 0) && gapsClosed (some 0) l

/-- The `k` seqids after `q`. -/
def seqidsFrom : UInt32 → ℕ → List UInt32
  | _, 0 => []
  | q, k + 1 => (q + 1) :: seqidsFrom (q + 1) k

lemma seqidsFrom_succ (q : UInt32) (k : ℕ) :
    seqidsFrom q (k + 1) = seqidsFrom q k ++ [q + UInt32.ofNat k + 1] := by
  induction k generalizing q with
  | zero => simp [seqidsFrom]
  | succ k ih =>
      have hlast : q + 1 + UInt32.ofNat k + 1 = q + UInt32.ofNat (k + 1) + 1 := by
        rw [UInt32.ofNat_add, UInt32.add_assoc q, UInt32.add_comm 1]
        rfl
      rw [seqidsFrom, ih, seqidsFrom, List.cons_append, hlast]

/-- Each seqid that was evaluated is the one of its draw, counted from `q`. -/
def Counted : UInt32 → List (Option UInt32) → Prop
  | _, [] => True
  | q, d :: ds => (∀ x ∈ d, x = q + 1) ∧ Counted (q + 1) ds

lemma counted_concat {q : UInt32} {ds : List (Option UInt32)} {d : Option UInt32}
    (h : Counted q ds) (hd : ∀ x ∈ d, x = q + UInt32.ofNat ds.length + 1) :
    Counted q (ds ++ [d]) := by
  induction ds generalizing q with
  | nil => exact ⟨fun x hx => by simpa using hd x hx, trivial⟩
  | cons d' ds ih =>
      refine ⟨h.1, ih h.2 fun x hx => ?_⟩
      rw [hd x hx, List.length_cons, UInt32.ofNat_add, UInt32.add_assoc q 1, UInt32.add_comm 1]
      rfl

/-- Seqids that are drawn one after the other are in order exactly when the gaps are closed. -/
lemma inOrder_eq_gapsClosed {last : Option UInt32} {lost : Option ℕ} {q : UInt32}
    {ds : List (Option UInt32)} (hds : Counted q ds)
    (h : (last = none ∧ lost = none) ∨
      ∃ prev k, last = some prev ∧ lost = some k ∧ q = prev + UInt32.ofNat k) :
    inOrder last ds.reduceOption = gapsClosed lost (ds.map Option.isSome) := by
  induction ds generalizing last lost q with
  | nil => rfl
  | cons d ds ih =>
      obtain ⟨hd, hds⟩ := hds
      cases d with
      | none =>
          simp only [List.reduceOption_cons_of_none, List.map_cons, Option.isSome_none, gapsClosed]
          refine ih hds ?_
          rcases h with ⟨rfl, rfl⟩ | ⟨prev, k, rfl, rfl, rfl⟩
          · exact Or.inl ⟨rfl, rfl⟩
          · refine Or.inr ⟨prev, k + 1, rfl, rfl, ?_⟩
            rw [UInt32.ofNat_add, ← UInt32.add_assoc]
            rfl
      | some x =>
          obtain rfl : x = q + 1 := hd x rfl
          have hrest : inOrder (some (q + 1)) ds.reduceOption
              = gapsClosed (some 0) (ds.map Option.isSome) :=
            ih hds (Or.inr ⟨q + 1, 0, rfl, rfl, by simp⟩)
          simp only [List.reduceOption_cons_of_some, List.map_cons, Option.isSome_some, inOrder,
            gapsClosed, hrest]
          rcases h with ⟨rfl, rfl⟩ | ⟨prev, k, rfl, rfl, rfl⟩
          · rfl
          · -- the seqid is the expected one when the seqids lost since make a full turn
            have hiff : prev + UInt32.ofNat k + 1 = prev + 1 ↔ k % 2 ^ 32 = 0 := by
              rw [UInt32.add_left_inj, UInt32.add_eq_left, ← UInt32.toNat_inj, UInt32.toNat_ofNat']
              rfl
            simp only [Option.all_some, hiff]

/-! ## One compound -/

/-- The server, or the transport, answered with NFS4ERR_DELAY or NFS4ERR_GRACE. -/
def Event.putOff : Event → Bool
  | .call c (.ok b) => (Event.call c (.ok b)).reply?.any fun r => isRetriableStatus r.1.status
  | .call _ (.error e) => errorHasStatus e nfs4errDelay || errorHasStatus e nfs4errGrace
  | _ => false

/-- These are the answers that are retried. -/
lemma retriable_eq_putOff {comp : Compound} {rs : List Res} (reply : Except Err Bytes)
    (hrs : kinds rs = comp.ops.map Arg.decoder) :
    retriable (decodeReply rs reply).2 = (Event.call comp reply).putOff := by
  cases reply with
  | error e => rfl
  | ok b =>
      have hreply : (Event.call comp (.ok b)).reply? = parseReply rs b := by
        rw [Event.reply?, ← hrs]
        exact parseReply_kinds (kinds_kinds rs) b
      rw [Event.putOff, hreply]
      cases hp : parseReply rs b with
      | none =>
          obtain ⟨rs', e, hdec, hplain⟩ := decodeReply_of_parseReply_none hp
          simp [hdec, retriable, errorHasStatus, hplain]
      | some v =>
          obtain ⟨rs', hdec, -⟩ := decodeReply_of_parseReply hp
          simp [hdec, retriable]

/-- The retry caller over the transport: the context is done, or the compound is sent, once unless
it is put off. -/
lemma retryLoop_sends (cfg : RetryConfig) (comp : Compound) (left : ℕ) (delay : Int64)
    (lastErr : Option Err) {rs : List Res} (hrs : kinds rs = comp.ops.map Arg.decoder)
    (n : Net W) :
    (∃ e, (retryLoop E cfg (fun rs n => Caller.rpc.callCompound E comp rs n) left delay lastErr rs
        n).2.log = n.log ++ [.ctxErr (some e)]) ∨
      ∃ reply es, (retryLoop E cfg (fun rs n => Caller.rpc.callCompound E comp rs n) left delay
          lastErr rs n).2.log = n.log ++ .ctxErr none :: .call comp reply :: es ∧
        ((Event.call comp reply).putOff = false → es = []) := by
  rcases hctx : E.ctxErr n.world with ⟨_ | e, w⟩
  · rcases hb : E.base comp w with ⟨reply, w₁⟩
    have hputOff := retriable_eq_putOff reply hrs
    rcases hd : decodeReply rs reply with ⟨rs₁, out⟩
    rw [hd] at hputOff
    have hcall : Caller.rpc.callCompound E comp rs (n.push (.ctxErr none) w)
        = ((rs₁, out), (n.push (.ctxErr none) w).push (.call comp reply) w₁) := by
      simp only [Caller.callCompound, Net.push, hb, hd]
    refine .inr ⟨reply, ?_⟩
    cases hr : (Event.call comp reply).putOff with
    | false =>
        rw [retryLoop_final hctx hcall (hputOff.trans hr)]
        exact ⟨[], by simp [Net.push], fun _ => rfl⟩
    | true =>
        have hretry : retriable out = true := hputOff.trans hr
        -- whatever follows is behind the first attempt
        cases left with
        | zero =>
            rw [retryLoop_exhausted hctx hcall hretry]
            exact ⟨[], by simp [Net.push], fun h => by simp at h⟩
        | succ left =>
            rcases hs : E.sleep delay w₁ with ⟨_ | e, w₂⟩
            · rw [retryLoop_again hctx hcall hretry hs]
              obtain ⟨es, hlog, -⟩ := kept_runsTo.retryRun (E := E)
                (fun rs n => runsTo_callCompound .rpc comp rs n)
                (retryRun_retryLoop cfg _ left (nextDelay cfg delay) (errOf out) rs₁
                  (((n.push (.ctxErr none) w).push (.call comp reply) w₁).push
                    (.sleep delay none) w₂))
              exact ⟨.sleep delay none :: es, by rw [hlog]; simp [Net.push], fun h => by simp at h⟩
            · rw [retryLoop_interrupted hctx hcall hretry hs]
              exact ⟨[.sleep delay (some e)], by simp [Net.push], fun h => by simp at h⟩
  · rw [retryLoop_stopped hctx]
    exact .inl ⟨e, rfl⟩

lemma draws_append (got : ℕ → Bool) (es es' : List Event) :
    draws got (es ++ es') = draws got es ++ draws (fun k => got (es.length + k)) es' := by
  rw [draws, List.zipIdx_append, List.filterMap_append, draws, draws, Nat.zero_add]
  congr 1
  conv_lhs => rw [List.zipIdx_eq_map_add, List.filterMap_map]
  rfl

lemma draws_sent {comp : Compound} {reply : Except Err Bytes} {d : Option UInt32}
    (got : ℕ → Bool) (h : (Event.call comp reply).draw? (got 1) = some d) :
    draws got [.ctxErr none, .call comp reply] = [d] :=
  (List.filterMap_cons_none rfl).trans (List.filterMap_cons_some h)

/-- What a multi-op method with one seqid adds to the draws. -/
lemma MultiOp.exec_draws {c : Conn} {cfg : RetryConfig} (hc : c.caller = .retry .rpc cfg)
    (m : MultiOp α) {i : ℕ} {o : Opnum} {q : UInt32} (hq : seqidIn m.ops = some (i, o, q))
    (n : Net W) (hno : ∀ ev ∈ eventsSince n (m.exec E c n).2, ev.putOff = false)
    (got : ℕ → Bool) :
    ∃ d, draws got (m.exec E c n).2.log = draws got n.log ++ [d] ∧ ∀ x ∈ d, x = q := by
  have hkinds : kinds m.results = (c.request m.ops).ops.map Arg.decoder := by
    rw [m.results_eq, request_ops]
    simp [kinds, Arg.fresh_decoder]
  have hloop : (m.exec E c n).2 = (retryLoop E cfg
      (fun rs n => Caller.rpc.callCompound E (c.request m.ops) rs n) (cfg.maxAttempts.toNat - 1)
      cfg.initial none m.results n).2 := by
    rw [MultiOp.exec, hc, Caller.callCompound]
  rw [hloop] at hno ⊢
  rcases retryLoop_sends (E := E) cfg (c.request m.ops) (cfg.maxAttempts.toNat - 1) cfg.initial none
    hkinds n with ⟨e, hlog⟩ | ⟨reply, es, hlog, hes⟩
  · rw [hlog, draws_append]
    exact ⟨none, rfl, by simp⟩
  · rw [eventsSince, hlog, List.drop_left] at hno
    obtain rfl := hes (hno _ (by simp))
    rw [hlog, draws_append]
    have hops : seqidIn (c.request m.ops).ops = some (i, o, q) := by rw [request_ops, hq]
    set reached := (Event.call (c.request m.ops) reply).reply?.elim (got (n.log.length + 1))
      (fun r => i < r.2.length)
    refine ⟨if reached then some q else none, ?_, ?_⟩
    · have hdraw : (Event.call (c.request m.ops) reply).draw? (got (n.log.length + 1))
          = some (if reached then some q else none) := by
        rw [Event.draw?, hops]
        rfl
      exact congrArg _ (draws_sent _ hdraw)
    · intro x hx
      split at hx
      · exact (Option.some.inj hx).symm
      · simp at hx

/-! ## Whole runs -/

/-- The operations of the open-owner that a user of a connection can call. -/
inductive OwnerOp
  | openFile (q : Conn.OpenParams)
  | closeFile (fh : FileHandle) (sid : Stateid)

def OwnerOp.method : OwnerOp → Method
  | .openFile q => .openFile q
  | .closeFile fh sid => .closeFile fh sid

/-- The connection and the network after an operation, whatever it returned. -/
def OwnerOp.step (E : Env W) (s : Conn × Net W) (op : OwnerOp) : Option (Conn × Net W) :=
  some (op.method.run E s.1 s.2).2

/-- The server answers none of the compounds of an operation with NFS4ERR_DELAY or
NFS4ERR_GRACE. -/
def OwnerOp.NotPutOff (E : Env W) (s : Conn × Net W) (op : OwnerOp) : Prop :=
  ∀ ev ∈ eventsSince s.2 (op.method.run E s.1 s.2).2.2, ev.putOff = false

/-- The seqids that were evaluated are those of their draws, counted from `q₀`. -/
structure Numbered (cfg : RetryConfig) (got : ℕ → Bool) (q₀ : UInt32) (c : Conn) (n : Net W) :
    Prop where
  caller : c.caller = .retry .rpc cfg
  counted : Counted q₀ (draws got n.log)
  drawn : c.openSeqid = q₀ + UInt32.ofNat (draws got n.log).length

variable {cfg : RetryConfig} {got : ℕ → Bool} {q₀ : UInt32} {c : Conn} {n : Net W}

/-- A seqid is drawn, and sent or not. -/
lemma Numbered.request (h : Numbered cfg got q₀ c n) (m : MultiOp α) {i : ℕ} {o : Opnum}
    (hq : seqidIn m.ops = some (i, o, c.nextSeqid.1))
    (hno : ∀ ev ∈ eventsSince n (m.exec E c.nextSeqid.2 n).2, ev.putOff = false) :
    Numbered cfg got q₀ c.nextSeqid.2 (m.exec E c.nextSeqid.2 n).2 := by
  obtain ⟨d, hdraws, hd⟩ := m.exec_draws (c := c.nextSeqid.2) h.caller hq n hno got
  have hseqid : c.nextSeqid.1 = q₀ + UInt32.ofNat (draws got n.log).length + 1 := by
    rw [← h.drawn]
    rfl
  refine ⟨h.caller, ?_, ?_⟩
  · rw [hdraws]
    exact counted_concat h.counted fun x hx => (hd x hx).trans hseqid
  · have hdrawn : c.nextSeqid.2.openSeqid = c.nextSeqid.1 := rfl
    rw [hdraws, List.length_append, List.length_singleton, hdrawn, hseqid, UInt32.ofNat_add,
      ← UInt32.add_assoc]
    rfl

/-- The compounds of a method only add to the log. -/
lemma MultiOp.exec_log (c : Conn) (m : MultiOp α) (n : Net W) :
    ∃ es, (m.exec E c n).2.log = n.log ++ es := by
  obtain ⟨es, hlog, -⟩ := runsTo_callCompound (E := E) c.caller (c.request m.ops) m.results n
  exact ⟨es, hlog⟩

lemma openArgs_seqid (c : Conn) (q : Conn.OpenParams) (seqid : UInt32) :
    (c.openArgs q seqid).seqid = seqid := by
  unfold Conn.openArgs
  split <;> rfl

lemma seqidIn_open (c : Conn) (q : Conn.OpenParams) (seqid : UInt32) :
    seqidIn (openOp q.dir (c.openArgs q seqid)).ops = some (1, opOpen, seqid) := by
  simp [openOp, seqidIn, Arg.seqid?, Arg.op, openArgs_seqid]

/-- `Open` draws one seqid, or two if the server asks for a confirmation. -/
lemma Numbered.openFile (h : Numbered cfg got q₀ c n) (q : Conn.OpenParams)
    (hno : ∀ ev ∈ eventsSince n (c.openFile E q n).2.2, ev.putOff = false) :
    Numbered cfg got q₀ (c.openFile E q n).2.1 (c.openFile E q n).2.2 := by
  have hreq := h.request (E := E) (openOp q.dir (c.openArgs q c.nextSeqid.1))
    (seqidIn_open c q c.nextSeqid.1)
  rcases Conn.openFile_cases E c q n with heq | ⟨fh, sid, heq⟩
  · rw [heq] at hno ⊢
    exact hreq hno
  · rw [heq] at hno ⊢
    -- the events of the second compound come after those of the first
    obtain ⟨es, hlog⟩ := (openOp q.dir (c.openArgs q c.nextSeqid.1)).exec_log (E := E)
      c.nextSeqid.2 n
    set n₁ := ((openOp q.dir (c.openArgs q c.nextSeqid.1)).exec E c.nextSeqid.2 n).2 with hn₁
    obtain ⟨es', hlog'⟩ := (openConfirmOp fh sid c.nextSeqid.2.nextSeqid.1).exec_log
      (E := E) c.nextSeqid.2.nextSeqid.2 n₁
    have hsince : eventsSince n (c.nextSeqid.2.openConfirm E fh sid n₁).2.2 = es ++ es' := by
      rw [eventsSince]
      simp only [Conn.openConfirm]
      rw [hlog', hlog, List.append_assoc, List.drop_left]
    rw [hsince] at hno
    have h₁ := hreq fun ev hev => hno ev (by
      rw [eventsSince, hlog, List.drop_left] at hev
      exact List.mem_append_left _ hev)
    exact h₁.request (openConfirmOp fh sid c.nextSeqid.2.nextSeqid.1) rfl
      fun ev hev => hno ev (by
        rw [eventsSince, hlog', List.drop_left] at hev
        exact List.mem_append_right _ hev)

/-- One operation of the open-owner. -/
lemma Numbered.step {s s' : Conn × Net W} {op : OwnerOp} (h : Numbered cfg got q₀ s.1 s.2)
    (hno : op.NotPutOff E s) (hs : op.step E s = some s') : Numbered cfg got q₀ s'.1 s'.2 := by
  obtain rfl := Option.some.inj hs
  cases op with
  | openFile q => exact h.openFile q hno
  | closeFile fh sid => exact h.request (closeFileOp fh sid s.1.nextSeqid.1) rfl hno

/-- **The seqids the server evaluates.**  In every run of `Open` and `CloseFile` calls, issued one
after the other on a v4.0 connection, without a DELAY or GRACE answer but whatever else comes
back, every operation that the server evaluates carries the seqid that it expects, exactly when
the gaps between them are closed: no seqid, or a multiple of 2³² seqids, was drawn in between
for a compound that was not sent, got lost or failed at its PUTFH. -/
theorem seqids_inOrder_iff (c : Conn) (hc : c.caller = .retry .rpc cfg) (w : W)
    (ops : List OwnerOp) (s : Conn × Net W) (got : ℕ → Bool)
    (hops : Along (OwnerOp.step E) (fun s op => op.NotPutOff E s) (c, { world := w }) ops)
    (hrun : run (OwnerOp.step E) (c, { world := w }) ops = some s) :
    inOrder none (draws got s.2.log).reduceOption = true ↔
      gapsClosed none ((draws got s.2.log).map Option.isSome) = true := by
  have hinit : Numbered (W := W) cfg got c.openSeqid c { world := w } :=
    ⟨hc, trivial, by simp [draws]⟩
  have hs := run_invariant (I := fun s => Numbered cfg got c.openSeqid s.1 s.2)
    (fun _ _ _ h hno hstep => h.step hno hstep) hinit hops hrun
  rw [inOrder_eq_gapsClosed hs.counted (Or.inl ⟨rfl, rfl⟩)]

instance (s : Conn × Net W) (op : OwnerOp) : Decidable (op.NotPutOff E s) :=
  inferInstanceAs (Decidable (∀ ev ∈ eventsSince s.2 _, Event.putOff ev = false))

/-- PUTFH, OPEN and GETFH succeed; no confirmation is asked for. -/
def fileOpenedReply : Bytes :=
  replyBytes nfs4Ok [⟨opPutfh, nfs4Ok, []⟩, ⟨opOpen, nfs4Ok, List.replicate 48 0⟩,
    ⟨opGetfh, nfs4Ok, word 0⟩]

/-- PUTFH and CLOSE succeed. -/
def fileClosedReply : Bytes :=
  replyBytes nfs4Ok [⟨opPutfh, nfs4Ok, []⟩, ⟨opClose, nfs4Ok, List.replicate 16 0⟩]

/-- PUTFH fails. -/
def putfhStaleReply : Bytes := replyBytes nfs4errStale [⟨opPutfh, nfs4errStale, []⟩]

/-- The server does not expect the seqid of OPEN. -/
def badSeqidReply : Bytes :=
  replyBytes nfs4errBadSeqid [⟨opPutfh, nfs4Ok, []⟩, ⟨opOpen, nfs4errBadSeqid, []⟩]

/-- A file is opened for reading. -/
def openRead : OwnerOp :=
  .openFile { dir := none, name := [97], share := 1, createAttrMask := [], createAttrVals := [],
              doCreate := false, excl := false }

theorem seqids_inOrder_opened :
    ∃ s ∈ run (OwnerOp.step scriptEnv)
        (newConn .rpc {}, { world := [fileOpenedReply, fileClosedReply, fileOpenedReply].map .ok })
        [openRead, .closeFile none {}, openRead],
      draws (fun _ => false) s.2.log = [some 1, some 2, some 3] ∧
        inOrder none (draws (fun _ => false) s.2.log).reduceOption = true := by
  obtain ⟨s, hs, hdraws⟩ : ∃ s ∈ run (OwnerOp.step scriptEnv)
        (newConn .rpc {}, { world := [fileOpenedReply, fileClosedReply, fileOpenedReply].map .ok })
        [openRead, .closeFile none {}, openRead],
      draws (fun _ => false) s.2.log = [some 1, some 2, some 3] := by decide +kernel
  have hops : Along (OwnerOp.step scriptEnv) (fun s op => op.NotPutOff scriptEnv s)
      (newConn .rpc {}, { world := [fileOpenedReply, fileClosedReply, fileOpenedReply].map .ok })
      [openRead, .closeFile none {}, openRead] := by decide +kernel
  refine ⟨s, hs, hdraws, (seqids_inOrder_iff (newConn .rpc {}) rfl _ _ s _ hops hs).mpr ?_⟩
  rw [hdraws]
  decide

/-- The PUTFH of the second `Open` fails: the third one carries a seqid that the server does not
expect. -/
theorem seqids_not_inOrder_stale :
    ∃ s ∈ run (OwnerOp.step scriptEnv)
        (newConn .rpc {}, { world := [fileOpenedReply, putfhStaleReply, badSeqidReply].map .ok })
        [openRead, openRead, openRead],
      Along (OwnerOp.step scriptEnv) (fun s op => op.NotPutOff scriptEnv s)
        (newConn .rpc {}, { world := [fileOpenedReply, putfhStaleReply, badSeqidReply].map .ok })
        [openRead, openRead, openRead] ∧
      draws (fun _ => false) s.2.log = [some 1, none, some 3] ∧
      inOrder none (draws (fun _ => false) s.2.log).reduceOption = false := by
  decide +kernel

end NfsClient.Nfs4
