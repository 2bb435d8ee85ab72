import NfsClient.Nfs4.Bootstrap
import NfsClient.Nfs4.EnvRun

/-!
# Negotiating the minor version

`DialAuto` mounts with v4.1 and, when the error carries one of three statuses, mounts again
with v4.0.  A server without v4.1 has three ways to refuse a compound: it rejects the minor
version and returns no resop; it answers the first operation with NFS4ERR_NOTSUPP; or it
answers it with the operation number OP_ILLEGAL.  The first refusal is not seen by the three
single-op methods of the bootstrap, whose results are then still NFS4_OK, but it is by
`fetchRootFH`.  The third one never gets as far as a status: `DecodeCompound` rejects the
operation number.
-/

namespace NfsClient.Nfs4

open NfsClient.Xdr NfsClient.Xdr.Decoder

variable {W : Type} {E : Env W}

/-- `MinorV40` -/
def minorV40 : UInt32 := 0

/-- `MinorV41` -/
def minorV41 : UInt32 := 1

/-- `Conn.MinorVersion` returns the negotiated minor version. -/
def Conn.minorVersion (c : Conn) : UInt32 := c.cfg.minorVersion

/-- `Dial`, once the TCP connection stands. -/
def dial (E : Env W) (cfg : ConnConfig) (n : Net W) : Except Err Conn × Net W :=
  match (newConn .rpc cfg).mount E n with
  | (.error e, _, n') => (.error e, n')
  | (.ok _, c, n') => (.ok c, n')

/-- `isMinorVersionFallback` reports whether the error indicates that the server does not support
v4.1. -/
def isMinorVersionFallback (e : Err) : Bool :=
  [nfs4errMinorVersMismatch, nfs4errNotsupp, nfs4errOpIllegal].any fun s => errorHasStatus e s

/-- `DialAuto` attempts v4.1 first and falls back to v4.0. -/
def dialAuto (E : Env W) (cfg : ConnConfig) (n : Net W) : Except Err Conn × Net W :=
  match dial E { cfg with minorVersion := minorV41 } n with
  | (.ok c, n') => (.ok c, n')
  | (.error e, n') =>
    if !isMinorVersionFallback e then (.error e, n')
    else dial E { cfg with minorVersion := minorV40 } n'

/-! ## Servers without v4.1 -/

/-- How a server refuses a v4.1 compound. -/
inductive Refusal
  /-- NFS4ERR_MINOR_VERS_MISMATCH and no resop -/
  | minorVersMismatch
  /-- the first operation fails with NFS4ERR_NOTSUPP -/
  | notsupp
  /-- a resop with the operation number OP_ILLEGAL and NFS4ERR_OP_ILLEGAL -/
  | opIllegal
deriving DecidableEq

/-- The operation number of an operation that the server does not know. -/
def opIllegal : Opnum := 10044

/-- The reply to a compound whose first operation has the given number. -/
def Refusal.reply (op : Opnum) : Refusal → Bytes
  | .minorVersMismatch => replyBytes nfs4errMinorVersMismatch []
  | .notsupp => replyBytes nfs4errNotsupp [⟨op, nfs4errNotsupp, []⟩]
  | .opIllegal => replyBytes nfs4errOpIllegal [⟨Nfs4.opIllegal, nfs4errOpIllegal, []⟩]

/-- The number of the first operation of a compound. -/
def Compound.firstOp (c : Compound) : Opnum := (c.ops.head?.map Arg.op).getD 0

/-- The environment `E` with a server that refuses every compound of a minor version other than
0: the `k`-th one, counted in the second component of the state, in the way `forms k`. -/
def refusing (E : Env W) (forms : ℕ → Refusal) : Env (W × ℕ) where
  ctxErr w := match E.ctxErr w.1 with
    | (e, w') => (e, w', w.2)
  select w := match E.select w.1 with
    | (e, w') => (e, w', w.2)
  sleep d w := match E.sleep d w.1 with
    | (e, w') => (e, w', w.2)
  base c w := match E.base c w.1 with
    | (reply, w') =>
      if c.minorVersion = minorV40 then (reply, w', w.2)
      else (.ok ((forms w.2).reply c.firstOp), w', w.2 + 1)
  rand w := match E.rand w.1 with
    | (v, w') => (v, w', w.2)
  hostname w := match E.hostname w.1 with
    | (host, w') => (host, w', w.2)

/-- No context is done and `rand.Read` does not fail. -/
structure Undisturbed (E : Env W) : Prop where
  ctxErr : ∀ w, (E.ctxErr w).1 = none
  select : ∀ w, (E.select w).1 = none
  rand : ∀ w, ∃ v, (E.rand w).1 = .ok v

/-! ## What the decoders make of a refusal -/

/-- The decoder of the first result of a v4.1 compound of the bootstrap. -/
def IsFirst (r : Res) : Prop := r = .exchangeID {} ∨ r = .createSession {} ∨ r = .sequence {}

lemma decodeReply_mismatch (op : Opnum) (rs : List Res) :
    decodeReply rs (.ok (Refusal.minorVersMismatch.reply op))
      = (rs, .ok { status := nfs4errMinorVersMismatch, tag := [], numResults := 0 }) := by
  have hst : uint32 (newDecoder (Refusal.minorVersMismatch.reply op))
      = (nfs4errMinorVersMismatch, newDecoder (word 0 ++ word 0)) := rfl
  have htag : string (newDecoder (word 0 ++ word 0)) = ([], newDecoder (word 0)) := rfl
  have hcount : uint32 (newDecoder (word 0)) = (0, newDecoder []) := rfl
  have hread : readHeader (newDecoder (Refusal.minorVersMismatch.reply op))
      = ((nfs4errMinorVersMismatch, [], 0), newDecoder []) := by
    simp only [readHeader, bind_run, pure_run, hst, htag, hcount]
  have hh : decodeHeader rs.length (newDecoder (Refusal.minorVersMismatch.reply op))
      = (.ok { status := nfs4errMinorVersMismatch, tag := [], numResults := 0 },
          newDecoder []) := by
    simp only [decodeHeader, hread]
    rfl
  simp only [decodeReply, decodeCompound_of_header hh]
  rfl

lemma decodeReply_notsupp {r : Res} (hr : IsFirst r) (rs : List Res) :
    ∃ r', decodeReply (r :: rs) (.ok (Refusal.notsupp.reply r.expectedOp))
        = (r' :: rs, .ok { status := nfs4errNotsupp, tag := [], numResults := 1 }) ∧
      r'.stat = nfs4errNotsupp := by
  rcases hr with rfl | rfl | rfl <;> exact ⟨_, rfl, rfl⟩

lemma decodeReply_opIllegal {r : Res} (hr : IsFirst r) (op : Opnum) (rs : List Res) :
    ∃ rs' e, decodeReply (r :: rs) (.ok (Refusal.opIllegal.reply op)) = (rs', .error e) ∧
      e.asStatus = none := by
  refine decodeReply_of_parseReply_none ?_
  rcases hr with rfl | rfl | rfl <;> rfl

/-- What the session caller passes on. -/
def sessionOutcome (f : Refusal) (rs : List Res) : Outcome :=
  (afterBase (decodeReply (.sequence {} :: rs) (.ok (f.reply opSequence)))).2

lemma isFirst_sequence : IsFirst (.sequence {}) := Or.inr (Or.inr rfl)

lemma sessionOutcome_mismatch (rs : List Res) :
    sessionOutcome .minorVersMismatch rs
      = (rs, .ok { status := nfs4errMinorVersMismatch, tag := [], numResults := 0 }) := by
  rw [sessionOutcome, decodeReply_mismatch]
  rfl

lemma sessionOutcome_notsupp (rs : List Res) :
    ∃ rs' e, sessionOutcome .notsupp rs = (rs', .error e) ∧ e.asStatus = some nfs4errNotsupp := by
  obtain ⟨r', hdec, hst⟩ := decodeReply_notsupp isFirst_sequence rs
  have hbad : statusErr nfs4errNotsupp = some (.status nfs4errNotsupp) := rfl
  refine ⟨rs, .wrap "nfs4: SEQUENCE" (.status nfs4errNotsupp), ?_, rfl⟩
  rw [sessionOutcome, show opSequence = (Res.sequence {}).expectedOp from rfl, hdec]
  simp only [afterBase, List.headD_cons, hst, hbad, List.tail_cons]

lemma sessionOutcome_opIllegal (rs : List Res) :
    ∃ rs' e, sessionOutcome .opIllegal rs = (rs', .error e) ∧ e.asStatus = none := by
  obtain ⟨rs', e, hdec, hst⟩ := decodeReply_opIllegal isFirst_sequence opSequence rs
  exact ⟨rs'.tail, e, by rw [sessionOutcome, hdec, afterBase_error], hst⟩

/-- A refusal is never retried. -/
lemma retriable_decodeReply (f : Refusal) {r : Res} (hr : IsFirst r) (rs : List Res) :
    retriable (decodeReply (r :: rs) (.ok (f.reply r.expectedOp))).2 = false := by
  cases f with
  | minorVersMismatch =>
      rw [decodeReply_mismatch]
      rfl
  | notsupp =>
      obtain ⟨r', hdec, -⟩ := decodeReply_notsupp hr rs
      rw [hdec]
      rfl
  | opIllegal =>
      obtain ⟨rs', e, hdec, hst⟩ := decodeReply_opIllegal hr r.expectedOp rs
      rw [hdec]
      simp [retriable, errorHasStatus, hst]

lemma retriable_sessionOutcome (f : Refusal) (rs : List Res) :
    retriable (sessionOutcome f rs).2 = false := by
  cases f with
  | minorVersMismatch =>
      rw [sessionOutcome_mismatch]
      rfl
  | notsupp =>
      obtain ⟨rs', e, hout, hst⟩ := sessionOutcome_notsupp rs
      rw [hout]
      simp only [retriable, errorHasStatus, hst]
      rfl
  | opIllegal =>
      obtain ⟨rs', e, hout, hst⟩ := sessionOutcome_opIllegal rs
      rw [hout]
      simp [retriable, errorHasStatus, hst]

/-! ## A refused call -/

section Calls

variable {forms : ℕ → Refusal} {comp : Compound} {n : Net (W × ℕ)}

lemma refusing_ctxErr (forms : ℕ → Refusal) (hE : Undisturbed E) (w : W × ℕ) :
    (refusing E forms).ctxErr w = (none, (E.ctxErr w.1).2, w.2) := by
  simp only [refusing, hE.ctxErr]

lemma refusing_select (forms : ℕ → Refusal) (hE : Undisturbed E) (w : W × ℕ) :
    (refusing E forms).select w = (none, (E.select w.1).2, w.2) := by
  simp only [refusing, hE.select]

lemma refusing_base (hv : comp.minorVersion ≠ minorV40) (w : W × ℕ) :
    (refusing E forms).base comp w
      = (.ok ((forms w.2).reply comp.firstOp), (E.base comp w.1).2, w.2 + 1) := by
  simp only [refusing, if_neg hv]

lemma rpc_refused (forms : ℕ → Refusal) (hv : comp.minorVersion ≠ minorV40) (rs : List Res)
    (n : Net (W × ℕ)) :
    Caller.rpc.callCompound (refusing E forms) comp rs n
      = (decodeReply rs (.ok ((forms n.world.2).reply comp.firstOp)),
        n.push (.call comp (.ok ((forms n.world.2).reply comp.firstOp)))
          ((E.base comp n.world.1).2, n.world.2 + 1)) := by
  simp only [Caller.callCompound, refusing_base hv]

/-- A call over the transport: one attempt, answered by the next refusal. -/
lemma call_refused (forms : ℕ → Refusal) (rc : RetryConfig) (hE : Undisturbed E)
    (hv : comp.minorVersion ≠ minorV40) {r : Res} (hr : IsFirst r)
    (hop : comp.firstOp = r.expectedOp) (rs : List Res) (n : Net (W × ℕ)) :
    ∃ n', (Caller.retry .rpc rc).callCompound (refusing E forms) comp (r :: rs) n
        = (decodeReply (r :: rs) (.ok ((forms n.world.2).reply r.expectedOp)), n') ∧
      n'.world.2 = n.world.2 + 1 ∧ n'.sessions = n.sessions := by
  have hctx := refusing_ctxErr forms hE n.world
  have hcall := rpc_refused (E := E) forms hv (r :: rs)
    (n.push (.ctxErr none) ((E.ctxErr n.world.1).2, n.world.2))
  have hretry := retriable_decodeReply (forms n.world.2) hr rs
  rw [hop] at hcall
  exact ⟨_, retryLoop_final hctx hcall hretry, rfl, rfl⟩

/-- The session that a refused CREATE_SESSION leaves: one slot, which is free. -/
def oneSlot (seq : UInt32) : Session :=
  { id := default, slots := [{ seq, inUse := false }], free := 1 }

/-- Its slot, leased and given back. -/
lemma oneSlot_lease (seq : UInt32) :
    ∃ s₁ s₂ l, (oneSlot seq).takeToken = some s₁ ∧ s₁.scan = some (l, s₂) ∧
      ∀ advance, ∃ seq', s₂.giveBack l advance = oneSlot seq' := by
  refine ⟨{ oneSlot seq with free := 0 },
    { oneSlot seq with slots := [{ seq, inUse := true }], free := 0 },
    { slotID := 0, seq, highest := 0 }, rfl, rfl, ?_⟩
  intro advance
  cases advance with
  | false => exact ⟨seq, rfl⟩
  | true => exact ⟨seq + 1, rfl⟩

/-- One attempt through that session: the slot is leased, the refusal comes in, the slot is given
back. -/
lemma session_refused (forms : ℕ → Refusal) (hE : Undisturbed E)
    (hv : comp.minorVersion ≠ minorV40) {p : ℕ} {seq : UInt32}
    (hp : n.sessions[p]? = some (oneSlot seq)) (rs : List Res) :
    ∃ n' seq', (Caller.session .rpc p).callCompound (refusing E forms) comp rs n
        = (sessionOutcome (forms n.world.2) rs, n') ∧
      n'.world.2 = n.world.2 + 1 ∧ n'.sessions[p]? = some (oneSlot seq') := by
  obtain ⟨hlt, -⟩ := List.getElem?_eq_some_iff.mp hp
  have hs := refusing_select forms hE n.world
  have hsession : (n.push (.select none) ((E.select n.world.1).2, n.world.2)).session p
      = oneSlot seq := by simp [Net.session, Net.push, hp]
  obtain ⟨s₁, s₂, l, ht, hscan, hback⟩ := oneSlot_lease seq
  rw [← hsession] at ht
  have hv' : (wrapCompound (s₂.sequenceArgs l) comp).minorVersion ≠ minorV40 := hv
  have hbase := rpc_refused (E := E) forms hv' (.sequence {} :: rs)
    ((n.push (.select none) ((E.select n.world.1).2, n.world.2)).setSession p s₂)
  obtain ⟨seq', hseq⟩ := hback (afterBase (decodeReply (.sequence {} :: rs)
    (.ok ((forms n.world.2).reply opSequence)))).1
  refine ⟨_, seq', callCompound_leased hs ht hscan hbase, rfl, ?_⟩
  rw [← hseq]
  simp [Net.setSession, Net.push, Net.session, hlt, Compound.firstOp, Arg.op]

/-- A call through that session. -/
lemma call_refused_session (forms : ℕ → Refusal) (rc : RetryConfig) (hE : Undisturbed E)
    (hv : comp.minorVersion ≠ minorV40) {p : ℕ} {seq : UInt32}
    (hp : n.sessions[p]? = some (oneSlot seq)) (rs : List Res) :
    ∃ n' seq', (Caller.retry (.session .rpc p) rc).callCompound (refusing E forms) comp rs n
        = (sessionOutcome (forms n.world.2) rs, n') ∧
      n'.world.2 = n.world.2 + 1 ∧ n'.sessions[p]? = some (oneSlot seq') := by
  have hctx := refusing_ctxErr forms hE n.world
  have hp' : (n.push (.ctxErr none) ((E.ctxErr n.world.1).2, n.world.2)).sessions[p]?
      = some (oneSlot seq) := hp
  obtain ⟨n', seq', hcall, hworld, hsession⟩ := session_refused forms hE hv hp' rs
  exact ⟨n', seq', retryLoop_final hctx hcall (retriable_sessionOutcome _ rs), hworld, hsession⟩

end Calls

/-! ## The v4.1 bootstrap -/

section Bootstrap41

variable {forms : ℕ → Refusal} {rc : RetryConfig} {c : Conn} {n : Net (W × ℕ)} {i : ℕ}

/-- A method that fails, with an error that carries the given status. -/
def FailsWith (st : Option Status) (R : Conn.Ret W Unit) : Prop :=
  ∃ e, R.1 = .error e ∧ e.asStatus = st

/-- A single-op method whose compound was refused: it takes the rejection of the minor version
for a success. -/
def Refusal.Stage (f : Refusal) (P : Conn → Net W → Prop) (R : Conn.Ret W Unit) : Prop :=
  match f with
  | .minorVersMismatch => ∃ c n, R = (.ok (), c, n) ∧ P c n
  | .notsupp => FailsWith (some nfs4errNotsupp) R
  | .opIllegal => FailsWith none R

/-- The status in the error of a bootstrap whose compounds are refused one after the other. -/
def refusedStatus (fs : List Refusal) : Option Status :=
  match fs.find? (· ≠ .minorVersMismatch) with
  | none => some nfs4errMinorVersMismatch
  | some .opIllegal => none
  | some _ => some nfs4errNotsupp

lemma andThen_refused {f : Refusal} {fs : List Refusal} {P : Conn → Net W → Prop}
    {R : Conn.Ret W Unit} {k : Conn → Net W → Conn.Ret W Unit} (hR : f.Stage P R)
    (hk : ∀ c n, P c n → FailsWith (refusedStatus fs) (k c n)) :
    FailsWith (refusedStatus (f :: fs)) (Conn.andThen R k) := by
  cases f with
  | minorVersMismatch =>
      obtain ⟨c, n, rfl, hP⟩ := hR
      exact hk c n hP
  | notsupp | opIllegal =>
      obtain ⟨e, he, hst⟩ := hR
      obtain ⟨_, c, n⟩ := R
      obtain rfl := he
      exact ⟨e, rfl, hst⟩

/-- The connection before it has a session; `i` v4.1 compounds have been refused. -/
structure NoSession (rc : RetryConfig) (i : ℕ) (c : Conn) (n : Net (W × ℕ)) : Prop where
  caller : c.caller = .retry .rpc rc
  version : c.cfg.minorVersion ≠ minorV40
  count : n.world.2 = i

/-- The connection with the session of a refused CREATE_SESSION. -/
structure HasSession (rc : RetryConfig) (i : ℕ) (c : Conn) (n : Net (W × ℕ)) : Prop where
  caller : ∃ p seq, c.caller = .retry (.session .rpc p) rc ∧ n.sessions[p]? = some (oneSlot seq)
  version : c.cfg.minorVersion ≠ minorV40
  count : n.world.2 = i

lemma request_minorVersion (c : Conn) (ops : List Arg) :
    (c.request ops).minorVersion = c.cfg.minorVersion := by
  rw [request_eq]
  rfl

/-- The run of a single-op compound that was refused. -/
def Refusal.Ended (f : Refusal) (res : Res) (P : Net W → Prop) (r : Except Err Res × Net W) :
    Prop :=
  match f with
  | .minorVersMismatch => ∃ n, r = (.ok res, n) ∧ P n
  | .notsupp => ∃ e n, r = (.error e, n) ∧ e.asStatus = some nfs4errNotsupp
  | .opIllegal => ∃ e n, r = (.error e, n) ∧ e.asStatus = none

lemma stage_single {f : Refusal} {m : SingleOp} {P : Net W → Prop} {Q : Conn → Net W → Prop}
    {c : Conn} {n : Net W} {store : Conn → Res → Conn} (h : f.Ended m.result P (m.exec E c n))
    (hQ : ∀ n', P n' → Q (store c m.result) n') : f.Stage Q (c.single E m store n) := by
  cases f with
  | minorVersMismatch =>
      obtain ⟨n', hexec, hP⟩ := h
      exact ⟨store c m.result, n', by simp only [Conn.single, hexec], hQ n' hP⟩
  | notsupp | opIllegal =>
      obtain ⟨e, n', hexec, hst⟩ := h
      exact ⟨e, by simp only [Conn.single, hexec], hst⟩

lemma SingleOp.result_stat (m : SingleOp) : m.result.stat = nfs4Ok := by
  rw [m.result_eq]
  exact m.op.stat_decoder

/-- A single-op compound over the transport. -/
lemma SingleOp.exec_refused (forms : ℕ → Refusal) (hE : Undisturbed E) (h : NoSession rc i c n)
    (m : SingleOp)
    (hr : IsFirst m.result) (hop : m.op.op = m.result.expectedOp)
    (hacc : ∀ s, m.accepts s = true ↔ s = nfs4Ok) :
    (forms i).Ended m.result (fun n' => n'.world.2 = i + 1 ∧ n'.sessions = n.sessions)
      (m.exec (refusing E forms) c n) := by
  obtain ⟨hcaller, hversion, rfl⟩ := h
  have hv : (c.request [m.op]).minorVersion ≠ minorV40 := by rwa [request_minorVersion]
  have hfirst : (c.request [m.op]).firstOp = m.result.expectedOp := by
    rw [← hop, Compound.firstOp, request_ops]
    rfl
  obtain ⟨n', hcall, hworld, hsessions⟩ :=
    call_refused forms rc hE hv hr hfirst [] n
  rw [← hcaller] at hcall
  cases hf : forms n.world.2 with
  | minorVersMismatch =>
      -- the method looks at the status of its result, which the reply has left at NFS4_OK
      rw [hf, decodeReply_mismatch] at hcall
      refine ⟨n', ?_, hworld, hsessions⟩
      simp [SingleOp.exec, hcall, SingleOp.finish, m.result_stat, (hacc _).mpr rfl]
  | notsupp =>
      obtain ⟨r', hdec, hst⟩ := decodeReply_notsupp hr []
      rw [hf, hdec] at hcall
      have hrej : m.accepts nfs4errNotsupp = false := by
        rw [← Bool.not_eq_true, hacc]
        decide
      refine ⟨m.wrapStatus (.status nfs4errNotsupp), n', ?_, m.asStatus_wrapStatus _⟩
      simp [SingleOp.exec, hcall, SingleOp.finish, hst, hrej]
  | opIllegal =>
      obtain ⟨rs', e, hdec, hst⟩ := decodeReply_opIllegal hr m.result.expectedOp []
      rw [hf, hdec] at hcall
      refine ⟨m.wrapCall e, n', ?_, (m.asStatus_wrapCall e).trans hst⟩
      simp only [SingleOp.exec, hcall, SingleOp.finish]

lemma exchangeID_refused (hE : Undisturbed E) (h : NoSession rc i c n) :
    (forms i).Stage (NoSession rc (i + 1)) (c.exchangeID (refusing E forms) n) := by
  obtain ⟨v, hrand⟩ := hE.rand n.world.1
  have hrand' : (refusing E forms).rand n.world = (.ok v, (E.rand n.world.1).2, n.world.2) := by
    simp only [refusing, hrand]
  rcases hname : c.clientName (refusing E forms)
    { n with world := ((E.rand n.world.1).2, n.world.2) } with ⟨name, n₂⟩
  have hcount : n₂.world.2 = i := by
    have h₂ : n₂ = (c.clientName (refusing E forms)
      { n with world := ((E.rand n.world.1).2, n.world.2) }).2 := by rw [hname]
    rw [h₂, ← h.count]
    unfold Conn.clientName
    split <;> rfl
  simp only [Conn.exchangeID, Conn.introduce, hrand', hname]
  refine stage_single (SingleOp.exec_refused forms hE ⟨h.caller, h.version, hcount⟩ _
    (Or.inl rfl) rfl (by simp [exchangeIDOp])) ?_
  rintro n' ⟨hworld, -⟩
  exact ⟨h.caller, h.version, hworld⟩

/-- CREATE_SESSION whose result says nothing makes a session with the zero id and one slot. -/
lemma createSession_refused (hE : Undisturbed E) (h : NoSession rc i c n) :
    (forms i).Stage (HasSession rc (i + 1)) (c.createSession (refusing E forms) n) := by
  have hexec := SingleOp.exec_refused forms hE h
    (createSessionOp c.clientID c.eirSequence) (Or.inr (Or.inl rfl)) rfl
    (by simp [createSessionOp])
  cases hf : forms i with
  | minorVersMismatch =>
      rw [hf] at hexec
      obtain ⟨n', hrun, hworld, -⟩ := hexec
      -- the number of slots in the empty result is 0, which counts as 1
      refine ⟨{ c with session := some n'.sessions.length,
                       caller := .retry (.session .rpc n'.sessions.length) rc },
        { n' with sessions := n'.sessions ++ [oneSlot 1] }, ?_, ⟨_, 1, rfl, ?_⟩, h.version, hworld⟩
      · simp only [Conn.createSession, hrun, h.caller, Conn.insertSession]
        rfl
      · exact List.getElem?_concat_length
  | notsupp | opIllegal =>
      rw [hf] at hexec
      obtain ⟨e, n', hrun, hst⟩ := hexec
      exact ⟨e, by simp only [Conn.createSession, hrun], hst⟩

lemma reclaimComplete_refused (hE : Undisturbed E) (h : HasSession rc i c n) :
    (forms i).Stage (HasSession rc (i + 1)) (c.reclaimComplete (refusing E forms) n) := by
  obtain ⟨⟨p, seq, hcaller, hsession⟩, hversion, rfl⟩ := h
  have hv : (c.request [reclaimCompleteOp.op]).minorVersion ≠ minorV40 := by
    rwa [request_minorVersion]
  obtain ⟨n', seq', hcall, hworld, hsession'⟩ :=
    call_refused_session forms rc hE hv hsession [reclaimCompleteOp.result]
  rw [← hcaller] at hcall
  refine stage_single (P := fun n'' => n'' = n') ?_ ?_
  · cases hf : forms n.world.2 with
    | minorVersMismatch =>
        rw [hf, sessionOutcome_mismatch] at hcall
        exact ⟨n', by simp only [SingleOp.exec, hcall]; rfl, rfl⟩
    | notsupp =>
        obtain ⟨rs', e, hout, hst⟩ := sessionOutcome_notsupp [reclaimCompleteOp.result]
        rw [hf, hout] at hcall
        exact ⟨reclaimCompleteOp.wrapCall e, n',
          by simp only [SingleOp.exec, hcall, SingleOp.finish], hst⟩
    | opIllegal =>
        obtain ⟨rs', e, hout, hst⟩ := sessionOutcome_opIllegal [reclaimCompleteOp.result]
        rw [hf, hout] at hcall
        exact ⟨reclaimCompleteOp.wrapCall e, n',
          by simp only [SingleOp.exec, hcall, SingleOp.finish], hst⟩
  · rintro _ rfl
    exact ⟨⟨p, seq', hcaller, hsession'⟩, hversion, hworld⟩

lemma fetchRootFH_refused (hE : Undisturbed E) (h : HasSession rc i c n) :
    FailsWith (refusedStatus [forms i]) (c.fetchRootFH (refusing E forms) n) := by
  obtain ⟨⟨p, seq, hcaller, hsession⟩, hversion, rfl⟩ := h
  have hv : (c.request fetchRootFHOp.ops).minorVersion ≠ minorV40 := by
    rwa [request_minorVersion]
  obtain ⟨n', seq', hcall, -, -⟩ :=
    call_refused_session forms rc hE hv hsession fetchRootFHOp.results
  rw [← hcaller] at hcall
  have hfail : ∀ {e : Err}, fetchRootFHOp.finish
      (sessionOutcome (forms n.world.2) fetchRootFHOp.results) = .error e →
      (c.fetchRootFH (refusing E forms) n).1 = .error e := by
    intro e he
    simp only [Conn.fetchRootFH, MultiOp.exec, hcall, he]
  cases hf : forms n.world.2 with
  | minorVersMismatch =>
      refine ⟨.wrap "nfs4: fetching root filehandle" (.status nfs4errMinorVersMismatch),
        hfail ?_, rfl⟩
      rw [hf, sessionOutcome_mismatch]
      rfl
  | notsupp =>
      obtain ⟨rs', e, hout, hst⟩ := sessionOutcome_notsupp fetchRootFHOp.results
      exact ⟨.wrap "nfs4: PUTROOTFH/GETFH" e, hfail (by rw [hf, hout]; rfl), hst⟩
  | opIllegal =>
      obtain ⟨rs', e, hout, hst⟩ := sessionOutcome_opIllegal fetchRootFHOp.results
      exact ⟨.wrap "nfs4: PUTROOTFH/GETFH" e, hfail (by rw [hf, hout]; rfl), hst⟩

/-- The v4.1 bootstrap fails, with the status of the first refusal that is not a rejection of the
minor version. -/
lemma mountV41_refused (forms : ℕ → Refusal) (hE : Undisturbed E) (h : NoSession rc i c n) :
    FailsWith (refusedStatus ((List.range 4).map fun k => forms (i + k)))
      (c.mountV41 (refusing E forms) n) :=
  andThen_refused (exchangeID_refused hE h) fun _ _ h =>
    andThen_refused (createSession_refused hE h) fun _ _ h =>
      andThen_refused (reclaimComplete_refused hE h) fun _ _ h => fetchRootFH_refused hE h

end Bootstrap41

/-! ## Which compounds are sent -/

section Speaks

variable {v : UInt32} {c : Conn} {n : Net W}

/-- All compounds that were sent have minor version `v`. -/
def Net.Speaks (v : UInt32) (n n' : Net W) : Prop :=
  ∃ es, n'.log = n.log ++ es ∧ ∀ comp reply, .call comp reply ∈ es → comp.minorVersion = v

lemma Net.Speaks.trans {n n' n'' : Net W} (h : n.Speaks v n') (h' : n'.Speaks v n'') :
    n.Speaks v n'' := Net.Sends.trans h h'

lemma kept_speaks : Kept E (fun comp => comp.minorVersion = v) (Net.Speaks v) :=
  kept_sends fun _ h => h

lemma Net.speaks_of_log {n' : Net W} (h : n'.log = n.log) : n.Speaks v n' :=
  ⟨[], by simp [h], by simp⟩

/-- A method that keeps the configuration and sends compounds of its minor version. -/
def Stays (c : Conn) (n : Net W) (R : Conn.Ret W Unit) : Prop :=
  R.2.1.cfg = c.cfg ∧ n.Speaks c.cfg.minorVersion R.2.2

lemma speaks_call (c : Conn) (ops : List Arg) (rs : List Res) (n : Net W) :
    n.Speaks c.cfg.minorVersion (c.caller.callCompound E (c.request ops) rs n).2 :=
  kept_speaks.callCompound c.caller (request_minorVersion c ops) rs n

lemma speaks_single (c : Conn) (m : SingleOp) (n : Net W) :
    n.Speaks c.cfg.minorVersion (m.exec E c n).2 :=
  speaks_call c [m.op] [m.result] n

lemma stays_single {m : SingleOp} {store : Conn → Res → Conn}
    (hstore : ∀ res, (store c res).cfg = c.cfg) : Stays c n (c.single E m store n) := by
  have hspeaks := speaks_single (E := E) c m n
  rcases hexec : m.exec E c n with ⟨e | res, n'⟩ <;> rw [hexec] at hspeaks <;>
    simp only [Conn.single, hexec]
  · exact ⟨rfl, hspeaks⟩
  · exact ⟨hstore res, hspeaks⟩

lemma stays_introduce {text : String} {op : ByteArr 8 → Bytes → SingleOp}
    {store : Conn → Res → Conn} (hstore : ∀ res, (store c res).cfg = c.cfg) :
    Stays c n (c.introduce E text op store n) := by
  rcases c.introduce_cases E text op store n with ⟨e, w, heq⟩ | ⟨v, name, w, heq⟩
  · rw [heq]
    exact ⟨rfl, Net.speaks_of_log rfl⟩
  · rw [heq]
    obtain ⟨hcfg, hspeaks⟩ := stays_single (E := E) (m := op v name) (n := { n with world := w })
      hstore
    exact ⟨hcfg, hspeaks⟩

lemma stays_createSession : Stays c n (c.createSession E n) := by
  have hspeaks := speaks_single (E := E) c (createSessionOp c.clientID c.eirSequence) n
  rcases hexec : (createSessionOp c.clientID c.eirSequence).exec E c n with ⟨e | res, n'⟩ <;>
    rw [hexec] at hspeaks <;> simp only [Conn.createSession, hexec] <;> exact ⟨rfl, hspeaks⟩

lemma stays_fetchRootFH : Stays c n (c.fetchRootFH E n) := by
  have hspeaks : n.Speaks c.cfg.minorVersion (fetchRootFHOp.exec E c n).2 :=
    speaks_call c fetchRootFHOp.ops fetchRootFHOp.results n
  rcases hexec : fetchRootFHOp.exec E c n with ⟨e | fh, n'⟩ <;>
    rw [hexec] at hspeaks <;> simp only [Conn.fetchRootFH, hexec] <;> exact ⟨rfl, hspeaks⟩

lemma stays_andThen {R : Conn.Ret W Unit} {k : Conn → Net W → Conn.Ret W Unit}
    (hR : Stays c n R) (hk : ∀ c' n', Stays c' n' (k c' n')) :
    Stays c n (Conn.andThen R k) := by
  obtain ⟨e | _, c', n'⟩ := R
  · exact hR
  · obtain ⟨hcfg, hspeaks⟩ := hR
    obtain ⟨hcfg', hspeaks'⟩ := hk c' n'
    rw [show c'.cfg = c.cfg from hcfg] at hcfg' hspeaks'
    exact ⟨hcfg', hspeaks.trans hspeaks'⟩

/-- A mount speaks the minor version of its configuration. -/
lemma stays_mount : Stays c n (c.mount E n) := by
  unfold Conn.mount
  split
  · refine stays_andThen (stays_introduce fun _ => rfl) fun c n => ?_
    refine stays_andThen stays_createSession fun c n => ?_
    exact stays_andThen (stays_single fun _ => rfl) fun c n => stays_fetchRootFH
  · refine stays_andThen (stays_introduce fun _ => rfl) fun c n => ?_
    exact stays_andThen (stays_single fun _ => rfl) fun c n => stays_fetchRootFH

lemma dial_minorVersion {cfg : ConnConfig} (h : (dial E cfg n).1 = .ok c) :
    c.minorVersion = cfg.minorVersion := by
  obtain ⟨hcfg, -⟩ := stays_mount (E := E) (c := newConn .rpc cfg) (n := n)
  rcases hm : (newConn .rpc cfg).mount E n with ⟨e | _, c', n'⟩
  · simp [dial, hm] at h
  · rw [hm] at hcfg
    simp only [dial, hm, Except.ok.injEq] at h
    rw [← h]
    exact congrArg ConnConfig.minorVersion hcfg

lemma dial_speaks (cfg : ConnConfig) (n : Net W) : n.Speaks cfg.minorVersion (dial E cfg n).2 := by
  obtain ⟨-, hspeaks⟩ := stays_mount (E := E) (c := newConn .rpc cfg) (n := n)
  rcases hm : (newConn .rpc cfg).mount E n with ⟨e | _, c', n'⟩ <;>
  · rw [hm] at hspeaks
    simp only [dial, hm]
    exact hspeaks

end Speaks

/-! ## The result -/

lemma isMinorVersionFallback_iff {e : Err} :
    isMinorVersionFallback e = true ↔
      e.asStatus = some nfs4errMinorVersMismatch ∨ e.asStatus = some nfs4errNotsupp ∨
        e.asStatus = some nfs4errOpIllegal := by
  simp [isMinorVersionFallback, errorHasStatus]

/-- The status of a refused bootstrap is one of the three, or there is none. -/
lemma fallback_of_refusedStatus {e : Err} {fs : List Refusal} (h : e.asStatus = refusedStatus fs) :
    isMinorVersionFallback e = true ↔
      fs.find? (· ≠ .minorVersMismatch) ≠ some .opIllegal := by
  rw [isMinorVersionFallback_iff, h, refusedStatus]
  cases hfind : fs.find? (· ≠ .minorVersMismatch) with
  | none => simp
  | some f =>
      have hne : f ≠ .minorVersMismatch := by simpa using List.find?_some hfind
      cases f <;> simp_all

/-- The v4.1 attempt against a server that refuses it. -/
lemma dial_refused (hE : Undisturbed E) (forms : ℕ → Refusal) (cfg : ConnConfig)
    (n : Net (W × ℕ)) :
    ∃ e, (dial (refusing E forms) { cfg with minorVersion := minorV41 } n).1 = .error e ∧
      (isMinorVersionFallback e = true ↔
        ((List.range 4).map fun k => forms (n.world.2 + k)).find? (· ≠ .minorVersMismatch)
          ≠ some .opIllegal) := by
  have hstart : NoSession cfg.retry.withDefaults n.world.2
      (newConn .rpc { cfg with minorVersion := minorV41 }) n :=
    ⟨rfl, by simp [newConn, minorV40, minorV41], rfl⟩
  obtain ⟨e, he, hst⟩ := mountV41_refused forms hE hstart
  refine ⟨e, ?_, fallback_of_refusedStatus hst⟩
  have hmount : (newConn .rpc { cfg with minorVersion := minorV41 }).mount (refusing E forms) n
      = (newConn .rpc { cfg with minorVersion := minorV41 }).mountV41 (refusing E forms) n := by
    simp [Conn.mount, newConn, minorV41]
  rw [← hmount] at he
  rcases hm : (newConn .rpc { cfg with minorVersion := minorV41 }).mount (refusing E forms) n with
    ⟨r, c', n'⟩
  rw [hm] at he
  obtain rfl : r = .error e := he
  simp only [dial, hm]

/-- **Falling back to v4.0.**  Against a server that supports v4.0 and refuses every v4.1
compound, `DialAuto` returns a v4.0 connection exactly when, of the four compounds of the v4.1
bootstrap, the first one that is not refused with NFS4ERR_MINOR_VERS_MISMATCH is not refused
with OP_ILLEGAL.  In every environment, an error of the v4.1 mount that carries none of the three
statuses is returned, and no v4.0 compound has been sent. -/
theorem dialAuto_fallback_iff (hE : Undisturbed E) (forms : ℕ → Refusal) (cfg : ConnConfig)
    (n : Net (W × ℕ))
    (hv40 : ∃ c, (dial (refusing E forms) { cfg with minorVersion := minorV40 }
      (dial (refusing E forms) { cfg with minorVersion := minorV41 } n).2).1 = .ok c) :
    ((∃ c, (dialAuto (refusing E forms) cfg n).1 = .ok c ∧ c.minorVersion = minorV40) ↔
        ((List.range 4).map fun k => forms (n.world.2 + k)).find? (· ≠ .minorVersMismatch)
          ≠ some .opIllegal) ∧
      ∀ {W' : Type} (E' : Env W') (cfg' : ConnConfig) (m m' : Net W') (e : Err),
        dial E' { cfg' with minorVersion := minorV41 } m = (.error e, m') →
        (∀ s ∈ [nfs4errMinorVersMismatch, nfs4errNotsupp, nfs4errOpIllegal],
          errorHasStatus e s = false) →
        dialAuto E' cfg' m = (.error e, m') ∧
          ∀ comp reply, .call comp reply ∈ eventsSince m m' → comp.minorVersion = minorV41 := by
  refine ⟨?_, ?_⟩
  · obtain ⟨e, he, hiff⟩ := dial_refused hE forms cfg n
    rw [← hiff]
    obtain ⟨c, hc⟩ := hv40
    rcases hd : dial (refusing E forms) { cfg with minorVersion := minorV41 } n with ⟨r, n'⟩
    rw [hd] at he hc
    obtain rfl : r = .error e := he
    simp only [dialAuto, hd]
    cases hfall : isMinorVersionFallback e with
    | false => simp
    | true =>
        simp only [Bool.not_true, Bool.false_eq_true, if_false, iff_true]
        exact ⟨c, hc, dial_minorVersion hc⟩
  · intro W' E' cfg' m m' e hd hnone
    obtain ⟨es, hlog, hes⟩ := dial_speaks (E := E') { cfg' with minorVersion := minorV41 } m
    rw [hd] at hlog
    have hfall : isMinorVersionFallback e = false := by
      simpa [isMinorVersionFallback] using hnone
    refine ⟨by simp only [dialAuto, hd, hfall, Bool.not_false, if_true], ?_⟩
    rw [eventsSince, show m'.log = m.log ++ es from hlog, List.drop_left]
    exact hes

/-- The replies of a v4.0 mount that succeeds, after one compound that is refused. -/
def v40Replies : List Bytes :=
  [[], replyBytes nfs4Ok [⟨opSetclientid, nfs4Ok, List.replicate 16 0⟩],
    replyBytes nfs4Ok [⟨opSetclientidConfirm, nfs4Ok, []⟩],
    replyBytes nfs4Ok [⟨opPutrootfh, nfs4Ok, []⟩,
      ⟨opGetfh, nfs4Ok, word 4 ++ [1, 2, 3, 4]⟩]]

/-- The network of a server with these replies. -/
def v40Net : Net (List (Except Err Bytes) × ℕ) := { world := (v40Replies.map .ok, 0) }

lemma undisturbed_scriptEnv : Undisturbed scriptEnv :=
  ⟨fun _ => rfl, fun _ => rfl, fun _ => ⟨_, rfl⟩⟩

/-- The v4.0 mount of that server, after one compound refused with the given form. -/
lemma v40Net_supported (f : Refusal) (hf : f ≠ .minorVersMismatch) :
    ∃ c, (dial (refusing scriptEnv fun _ => f) { minorVersion := minorV40 }
      (dial (refusing scriptEnv fun _ => f) { minorVersion := minorV41 } v40Net).2).1 = .ok c := by
  have hok : (dial (refusing scriptEnv fun _ => f) { minorVersion := minorV40 }
      (dial (refusing scriptEnv fun _ => f) { minorVersion := minorV41 } v40Net).2).1.isOk
        = true := by
    cases f with
    | minorVersMismatch => exact absurd rfl hf
    | notsupp => decide +kernel
    | opIllegal => decide +kernel
  rcases h : (dial (refusing scriptEnv fun _ => f) { minorVersion := minorV40 }
    (dial (refusing scriptEnv fun _ => f) { minorVersion := minorV41 } v40Net).2).1 with e | c
  · rw [h] at hok
    cases hok
  · exact ⟨c, rfl⟩

theorem dialAuto_fallback_notsupp :
    ∃ c, (dialAuto (refusing scriptEnv fun _ => .notsupp) {} v40Net).1 = .ok c ∧
      c.minorVersion = minorV40 :=
  (dialAuto_fallback_iff undisturbed_scriptEnv (fun _ => .notsupp) {} v40Net
    (v40Net_supported .notsupp (by decide))).1.mpr (by decide)

/-- A server that answers with OP_ILLEGAL is given up on, though it supports v4.0. -/
theorem dialAuto_no_fallback_opIllegal :
    (∃ c, (dial (refusing scriptEnv fun _ => .opIllegal) { minorVersion := minorV40 }
        (dial (refusing scriptEnv fun _ => .opIllegal) { minorVersion := minorV41 } v40Net).2).1
          = .ok c) ∧
      ¬ ∃ c, (dialAuto (refusing scriptEnv fun _ => .opIllegal) {} v40Net).1 = .ok c ∧
        c.minorVersion = minorV40 := by
  refine ⟨v40Net_supported .opIllegal (by decide), ?_⟩
  rintro ⟨c, hc, -⟩
  have herr : (dialAuto (refusing scriptEnv fun _ => .opIllegal) {} v40Net).1.isOk = false := by
    decide +kernel
  rw [hc] at herr
  cases herr

end NfsClient.Nfs4
