import NfsClient.Nfs4.Bootstrap
import NfsClient.Nfs4.Completeness
import NfsClient.Nfs4.Conforming
import NfsClient.Nfs4.SequenceLog

/-!
# Retries leave no residue

The values and the error that a method returns after conforming replies that were retried are
those that the last reply alone yields.  Two runs are compared: in one the method was answered
by a sequence of replies that ends with `b`, in the other by `b` only.
-/

namespace NfsClient.Nfs4

open NfsClient.Xdr

/-! ## The same reply with and without retries -/

/-- The one compound sent was answered by `b`. -/
def AnsweredBy (b : Bytes) (es : List Event) : Prop := ∃ c, callsOf es = [.call c (.ok b)]

/-- Two outcomes of a call that differ only in the clean decoders that read the last reply, one
with status `st`. -/
structure SameReply (ops : List Arg) (st : Status) (out out' : Outcome) (ds : List Decoder)
    (rs rs' : List Res) : Prop where
  fst : out.1 = decodeAll ds rs
  fst' : out'.1 = decodeAll ds rs'
  snd : out.2 = out'.2
  kinds_eq : kinds rs = ops.map Arg.decoder
  kinds_eq' : kinds rs' = ops.map Arg.decoder
  clean : ∀ r ∈ rs, r.Clean
  clean' : ∀ r ∈ rs', r.Clean
  length_le : ds.length ≤ ops.length
  last : ∀ s, (ds.map statusAt).getLast? = some s → s = st
  full : st = nfs4Ok → ds.length = ops.length ∧ ∀ s ∈ ds.map statusAt, s = nfs4Ok
  status : (∃ e, out.2 = .error e) ∨ ∃ r, out.2 = .ok r ∧ r.status = st ∧ ds ≠ []

/-- If the reply is NFS4_OK, the outcomes are the same. -/
lemma SameReply.eq_of_ok {ops : List Arg} {st : Status} {out out' : Outcome} {ds : List Decoder}
    {rs rs' : List Res} (h : SameReply ops st out out' ds rs rs') (hst : st = nfs4Ok) :
    out = out' := by
  obtain ⟨hlen, hok⟩ := h.full hst
  have hlens : ∀ {rs : List Res}, kinds rs = ops.map Arg.decoder → ds.length = rs.length := by
    intro rs hrs
    rw [← length_kinds, hrs, List.length_map, hlen]
  refine Prod.ext ?_ h.snd
  rw [h.fst, h.fst', decodeAll_of_ok (hlens h.kinds_eq) h.clean hok,
    decodeAll_of_ok (hlens h.kinds_eq') h.clean' hok, h.kinds_eq, h.kinds_eq']

section Outcomes

variable {W W' : Type} {E : Env W} {E' : Env W'} {c : Conn} {ps : List ℕ} {cfg : RetryConfig}
  {b : Bytes} {ops ops' : List Arg} {n : Net W} {n' : Net W'}

lemma clean_decoders (ops : List Arg) : ∀ r ∈ ops.map Arg.decoder, r.Clean := by
  intro r hr
  obtain ⟨a, -, rfl⟩ := List.mem_map.mp hr
  rw [← a.fresh_decoder]
  exact Res.clean_fresh _

/-- The outcome of a call that is retried until `b`. -/
lemma outcome_of_retriedUntil (hc : c.caller = .retry (sessionStack ps) cfg) (hne : ops ≠ [])
    (hkeeps : KeepsLast ops)
    (h : RetriedUntil b (eventsSince n
      (c.caller.callCompound E (c.request ops) (ops.map Arg.decoder) n).2)) :
    ∃ rs comp st, kinds rs = ops.map Arg.decoder ∧ (∀ r ∈ rs, r.Clean) ∧
      Prefixed (n.stackIDs ps) (c.request ops) comp ∧ Conforming comp b st ∧
      isRetriableStatus st = false ∧
      (c.caller.callCompound E (c.request ops) (ops.map Arg.decoder) n).1
        = unwrap ps.length (decodeReply (sequenceDecoders ps.length rs) (.ok b)) := by
  obtain ⟨es, hlog, htr, -⟩ :=
    transcript_of_call (E := E) cfg ps (c.request ops) (ops.map Arg.decoder) n
  rw [← hc] at hlog htr
  rw [eventsSince, hlog, List.drop_left] at h
  obtain ⟨rs, comp, st, hk, hclean, hpre, hconf, hst, hout⟩ := htr.of_retriedUntil
    (by rw [request_ops, kinds_decoders]) (by rwa [request_ops]) (by rwa [request_ops])
    (clean_decoders ops) h
  rw [Net.length_stackIDs] at hout
  exact ⟨rs, comp, st, hk.trans (kinds_decoders ops), hclean, hpre, hconf, hst, hout⟩

/-- The one compound that was sent. -/
lemma AnsweredBy.sent (hc : c.caller = .retry (sessionStack ps) cfg)
    (h : AnsweredBy b (eventsSince n
      (c.caller.callCompound E (c.request ops) (ops.map Arg.decoder) n).2)) :
    ∃ comp, Prefixed (n.stackIDs ps) (c.request ops) comp ∧
      callsOf (eventsSince n
        (c.caller.callCompound E (c.request ops) (ops.map Arg.decoder) n).2)
        = [.call comp (.ok b)] := by
  obtain ⟨es, hlog, htr, -⟩ :=
    transcript_of_call (E := E) cfg ps (c.request ops) (ops.map Arg.decoder) n
  rw [← hc] at hlog
  rw [eventsSince, hlog, List.drop_left] at h ⊢
  obtain ⟨comp, hcalls⟩ := h
  have hmem : Event.call comp (.ok b) ∈ callsOf es := by
    rw [hcalls]
    exact List.mem_singleton_self _
  exact ⟨comp, htr.calls (List.mem_of_mem_filter hmem), hcalls⟩

/-- **Two calls with the same last reply.** -/
lemma sameReply_of_calls (hc : c.caller = .retry (sessionStack ps) cfg)
    (hdec : ops.map Arg.decoder = ops'.map Arg.decoder) (hne : ops ≠ []) (hkeeps : KeepsLast ops)
    (h : RetriedUntil b (eventsSince n
      (c.caller.callCompound E (c.request ops) (ops.map Arg.decoder) n).2))
    (h' : AnsweredBy b (eventsSince n'
      (c.caller.callCompound E' (c.request ops') (ops'.map Arg.decoder) n').2)) :
    ∃ st ds rs rs', SameReply ops st
      (c.caller.callCompound E (c.request ops) (ops.map Arg.decoder) n).1
      (c.caller.callCompound E' (c.request ops') (ops'.map Arg.decoder) n').1 ds rs rs' := by
  have hne' : ops' ≠ [] := by
    rintro rfl
    simp at hdec
    exact hne hdec
  have hkeeps' : KeepsLast ops' := by rwa [KeepsLast, ← hdec]
  obtain ⟨rs, comp, st, hk, hclean, hpre, hconf, hst, hout⟩ :=
    outcome_of_retriedUntil hc hne hkeeps h
  -- the only reply of the second call is a conforming reply to its compound, too
  obtain ⟨comp', hpre', hcalls'⟩ := h'.sent hc
  have hconf' : Conforming comp' b st := by
    refine hconf.congr ?_
    rw [hpre.decoders, hpre'.decoders, request_ops, request_ops, hdec, Net.length_stackIDs,
      Net.length_stackIDs]
  obtain ⟨rs', -, -, hk', hclean', -, -, -, hout'⟩ :=
    outcome_of_retriedUntil hc hne' hkeeps' ⟨[], comp', hcalls', by simp, st, hconf', hst⟩
  -- both decode that reply in the same way
  have hrs₀ : kinds (ops.map Arg.decoder) = (c.request ops).ops.map Arg.decoder := by
    rw [request_ops, kinds_decoders]
  obtain ⟨ds, o, hall, hlen, hlast, hfull, ho⟩ := hconf.decoded hpre hrs₀ (by rwa [request_ops])
  rw [Net.length_stackIDs] at hall
  rw [hall rs (by rw [hk, kinds_decoders])] at hout
  rw [hall rs' (by rw [hk', ← hdec, kinds_decoders])] at hout'
  rw [List.length_map] at hlen hfull
  refine ⟨st, ds, rs, rs', ?_⟩
  rw [hout, hout']
  exact {
    fst := rfl
    fst' := rfl
    snd := rfl
    kinds_eq := hk
    kinds_eq' := hk'.trans hdec.symm
    clean := hclean
    clean' := hclean'
    length_le := hlen
    last := hlast
    full := hfull
    status := by
      rcases ho with ⟨e, he, -⟩ | ho
      · exact .inl ⟨e, he⟩
      · exact .inr ho }

/-- A multi-op method makes the same of both outcomes. -/
lemma SameReply.finish_multi {α : Type} {st : Status} {out out' : Outcome} {ds : List Decoder}
    {rs rs' : List Res} (h : SameReply ops st out out' ds rs rs') (m : MultiOp α) :
    m.finish out = m.finish out' := by
  by_cases hst : st = nfs4Ok
  · rw [h.eq_of_ok hst]
  · obtain ⟨a, o⟩ := out
    obtain ⟨a', o'⟩ := out'
    obtain rfl : o = o' := h.snd
    rcases h.status with ⟨e, he⟩ | ⟨r, hr, rfl, -⟩
    · obtain rfl : o = .error e := he
      rfl
    · obtain rfl : o = .ok r := hr
      simp only [MultiOp.finish, statusErr_of_ne hst]

/-- A single-op method makes the same of both outcomes, if it takes NFS4_OK alone for success
or has a result that is a bare status. -/
lemma SameReply.finish_single {st : Status} {out out' : Outcome} {ds : List Decoder}
    {rs rs' : List Res} {a : Arg} (h : SameReply [a] st out out' ds rs rs') (m : SingleOp)
    (hm : ∀ s, m.accepts s = true → s = nfs4Ok ∨ a.decoder = .reclaimComplete {}) :
    m.finish out = m.finish out' := by
  by_cases hst : st = nfs4Ok
  · rw [h.eq_of_ok hst]
  · obtain ⟨x, o⟩ := out
    obtain ⟨x', o'⟩ := out'
    obtain rfl : o = o' := h.snd
    rcases h.status with ⟨e, he⟩ | ⟨r, hr, -, hds⟩
    · obtain rfl : o = .error e := he
      rfl
    · obtain rfl : o = .ok r := hr
      obtain ⟨d, rfl⟩ : ∃ d, ds = [d] := by
        have := h.length_le
        match ds, hds, this with
        | [d], _, _ => exact ⟨d, rfl⟩
      have hshape : ∀ {rs : List Res}, kinds rs = [a].map Arg.decoder → ∃ r, rs = [r] := by
        intro rs hrs
        have := congrArg List.length hrs
        rw [length_kinds] at this
        exact List.length_eq_one_iff.mp this
      obtain ⟨q, rfl⟩ := hshape h.kinds_eq
      obtain ⟨q', rfl⟩ := hshape h.kinds_eq'
      obtain rfl : x = [(q.decodeRes d).1] := h.fst
      obtain rfl : x' = [(q'.decodeRes d).1] := h.fst'
      have hd : statusAt d = st := h.last _ rfl
      simp only [SingleOp.finish, List.getD_cons_zero, decodeRes_stat]
      split
      · next hacc =>
          rw [show (Decoder.uint32 d).1 = st from hd] at hacc
          rcases hm st hacc with hok | hdec
          · exact absurd hok hst
          · -- the status is all there is
            have hq : q.fresh = .reclaimComplete {} := by simpa [kinds, hdec] using h.kinds_eq
            have hq' : q'.fresh = .reclaimComplete {} := by simpa [kinds, hdec] using h.kinds_eq'
            cases q <;> first | exact Res.noConfusion hq | skip
            cases q' <;> first | exact Res.noConfusion hq' | skip
            rfl
      · rfl

end Outcomes

/-! ## The methods -/

namespace Method

/-- What a method returns.  For `Open` this is what its first compound yields. -/
@[reducible] def Value : Method → Type
  | .fetchRootFH | .lookup .. | .mkdir .. | .symlink .. => FileHandle
  | .getAttr .. => Bitmap × Bytes
  | .read .. => Bytes × Bool
  | .readdir .. => ReaddirRes
  | .readlink _ => Bytes
  | .openFile _ => FileHandle × OpenRes
  | .openConfirm .. => Stateid
  | .write .. => UInt32 × StableHow
  | .commit .. | .closeFile .. | .remove .. | .rename .. | .link .. | .setAttr .. => Unit

/-- The compound of a method. -/
def multiOp (c : Conn) : (m : Method) → MultiOp m.Value
  | .fetchRootFH => fetchRootFHOp
  | .lookup dir name => lookupOp dir name
  | .getAttr fh mask => getAttrOp fh mask
  | .read fh offset count => readOp fh offset count
  | .readdir dir cookie verf mask => readdirOp dir cookie verf mask
  | .readlink fh => readlinkOp fh
  | .openFile q => openOp q.dir (c.openArgs q c.nextSeqid.1)
  | .openConfirm fh sid => openConfirmOp fh sid c.nextSeqid.1
  | .write fh sid offset data stable => writeOp fh sid offset data stable
  | .commit fh offset count => commitOp fh offset count
  | .closeFile fh sid => closeFileOp fh sid c.nextSeqid.1
  | .mkdir dir name mask vals => mkdirOp dir name mask vals
  | .symlink dir name target mask vals => symlinkOp dir name target mask vals
  | .remove dir name => removeOp dir name
  | .rename src old dst new => renameOp src old dst new
  | .link src dst new => linkOp src dst new
  | .setAttr fh sid mask vals => setAttrOp fh sid mask vals

/-- The connection as the method uses it: a seqid may be drawn first. -/
def conn (c : Conn) : Method → Conn
  | .openFile _ | .openConfirm .. | .closeFile .. => c.nextSeqid.2
  | _ => c

variable {W : Type} (E : Env W)

/-- The values and the error of a method, and the network after it. -/
def exec (c : Conn) (n : Net W) (m : Method) : Except Err m.Value × Net W :=
  (m.multiOp c).exec E (m.conn c) n

/-- Decoders that keep part of what they held come last. -/
lemma keepsLast (c : Conn) (m : Method) : KeepsLast (m.multiOp c).ops := by
  cases m <;>
    simp [KeepsLast, multiOp, fetchRootFHOp, lookupOp, getAttrOp, readOp, readdirOp, readlinkOp,
      openOp, openConfirmOp, writeOp, commitOp, closeFileOp, mkdirOp, symlinkOp, createOp, removeOp,
      renameOp, linkOp, setAttrOp, Arg.decoder, Res.keeps]

lemma ops_ne_nil (c : Conn) (m : Method) : (m.multiOp c).ops ≠ [] := by
  cases m <;> exact List.cons_ne_nil _ _

end Method

section Methods

variable {W W' : Type} {E : Env W} {E' : Env W'} {c : Conn} {ps : List ℕ} {cfg : RetryConfig}
  {b : Bytes} {n : Net W} {n' : Net W'}

/-- A multi-op method returns the same with and without retries. -/
lemma MultiOp.exec_eq {α : Type} (hc : c.caller = .retry (sessionStack ps) cfg) (m : MultiOp α)
    (hne : m.ops ≠ []) (hkeeps : KeepsLast m.ops)
    (h : RetriedUntil b (eventsSince n (m.exec E c n).2))
    (h' : AnsweredBy b (eventsSince n' (m.exec E' c n').2)) :
    (m.exec E c n).1 = (m.exec E' c n').1 := by
  simp only [MultiOp.exec, m.results_eq] at h h' ⊢
  obtain ⟨st, ds, rs, rs', hsame⟩ := sameReply_of_calls hc rfl hne hkeeps h h'
  exact hsame.finish_multi m

/-- A single-op method returns the same with and without retries. -/
lemma SingleOp.exec_eq (hc : c.caller = .retry (sessionStack ps) cfg) {m m' : SingleOp}
    (hdec : m.op.decoder = m'.op.decoder) (hfinish : m.finish = m'.finish)
    (hm : ∀ s, m.accepts s = true → s = nfs4Ok ∨ m.op.decoder = .reclaimComplete {})
    (h : RetriedUntil b (eventsSince n (m.exec E c n).2))
    (h' : AnsweredBy b (eventsSince n' (m'.exec E' c n').2)) :
    (m.exec E c n).1 = (m'.exec E' c n').1 := by
  simp only [SingleOp.exec, m.result_eq, m'.result_eq] at h h' ⊢
  have hdecs : [m.op].map Arg.decoder = [m'.op].map Arg.decoder := by simp [hdec]
  have hkeeps : KeepsLast [m.op] := by simp [KeepsLast]
  obtain ⟨st, ds, rs, rs', hsame⟩ :=
    sameReply_of_calls hc hdecs (by simp) hkeeps h h'
  rw [← hfinish]
  exact hsame.finish_single m hm

lemma single_eq {m m' : SingleOp} (store : Conn → Res → Conn)
    (h : (m.exec E c n).1 = (m'.exec E' c n').1) :
    (c.single E m store n).1 = (c.single E' m' store n').1 ∧
      (c.single E m store n).2.1 = (c.single E' m' store n').2.1 := by
  unfold Conn.single
  rcases h₁ : m.exec E c n with ⟨_ | _, n₁⟩ <;> rcases h₂ : m'.exec E' c n' with ⟨_ | _, n₂⟩ <;>
    simp_all

lemma single_net (m : SingleOp) (store : Conn → Res → Conn) :
    (c.single E m store n).2.2 = (m.exec E c n).2 := by
  unfold Conn.single
  rcases h : m.exec E c n with ⟨_ | _, n₁⟩ <;> rfl

lemma not_retriedUntil_of_log {n₁ : Net W} (h : n₁.log = n.log) :
    ¬ RetriedUntil b (eventsSince n n₁) :=
  not_retriedUntil (by simp [eventsSince, h, callsOf])

lemma not_answeredBy_of_log {n₁ : Net W} (h : n₁.log = n.log) :
    ¬ AnsweredBy b (eventsSince n n₁) := by
  rintro ⟨c, hc⟩
  simp [eventsSince, h, callsOf] at hc

/-- EXCHANGE_ID and SETCLIENTID, which draw a verifier. -/
lemma introduce_eq (hc : c.caller = .retry (sessionStack ps) cfg) {text : String}
    {op : ByteArr 8 → Bytes → SingleOp} {store : Conn → Res → Conn}
    (hdec : ∀ v name v' name', (op v name).op.decoder = (op v' name').op.decoder)
    (hfinish : ∀ v name v' name', (op v name).finish = (op v' name').finish)
    (hm : ∀ v name s, (op v name).accepts s = true → s = nfs4Ok)
    (h : RetriedUntil b (eventsSince n (c.introduce E text op store n).2.2))
    (h' : AnsweredBy b (eventsSince n' (c.introduce E' text op store n').2.2)) :
    (c.introduce E text op store n).1 = (c.introduce E' text op store n').1 ∧
      (c.introduce E text op store n).2.1 = (c.introduce E' text op store n').2.1 := by
  rcases c.introduce_cases E text op store n with ⟨e, w, heq⟩ | ⟨v, name, w, heq⟩
  · exact absurd h (not_retriedUntil_of_log (by rw [heq]))
  · rcases c.introduce_cases E' text op store n' with ⟨e', w', heq'⟩ | ⟨v', name', w', heq'⟩
    · exact absurd h' (not_answeredBy_of_log (by rw [heq']))
    -- the verifiers and names of the two runs differ, but they are only arguments of the
    -- request: the decoders and the acceptance of the result are the same
    · rw [heq, single_net] at h
      rw [heq', single_net] at h'
      rw [heq, heq']
      exact single_eq store (SingleOp.exec_eq hc (hdec ..) (hfinish ..)
        (fun s hs => .inl (hm v name s hs)) h h')

lemma length_sessions_exec (hc : c.caller = .retry (sessionStack ps) cfg) (m : SingleOp) :
    (m.exec E c n).2.sessions.length = n.sessions.length := by
  obtain ⟨es, -, -, hids⟩ := transcript_of_call (E := E) cfg ps (c.request [m.op]) [m.result] n
  rw [← hc] at hids
  simpa [SingleOp.exec] using congrArg List.length hids

/-- CREATE_SESSION, which also builds a session. -/
lemma createSession_eq (hc : c.caller = .retry (sessionStack ps) cfg)
    (h : RetriedUntil b (eventsSince n (c.createSession E n).2.2))
    (h' : AnsweredBy b (eventsSince n' (c.createSession E' n').2.2)) :
    (c.createSession E n).1 = (c.createSession E' n').1 ∧
      (n.sessions.length = n'.sessions.length →
        (c.createSession E n).2.1 = (c.createSession E' n').2.1) := by
  have hlog : ∀ {W : Type} (E : Env W) (n : Net W), (c.createSession E n).2.2.log
      = ((createSessionOp c.clientID c.eirSequence).exec E c n).2.log := by
    intro W E n
    unfold Conn.createSession
    rcases (createSessionOp c.clientID c.eirSequence).exec E c n with ⟨_ | _, n₁⟩ <;> rfl
  rw [eventsSince, hlog] at h h'
  have hexec := SingleOp.exec_eq hc (m := createSessionOp c.clientID c.eirSequence) rfl rfl
    (fun s hs => .inl (by simpa [createSessionOp] using hs)) h h'
  have hlen := length_sessions_exec (E := E) (n := n) hc (createSessionOp c.clientID c.eirSequence)
  have hlen' := length_sessions_exec (E := E') (n := n') hc
    (createSessionOp c.clientID c.eirSequence)
  unfold Conn.createSession
  rcases h₁ : (createSessionOp c.clientID c.eirSequence).exec E c n with ⟨e₁ | res₁, n₁⟩ <;>
    rcases h₂ : (createSessionOp c.clientID c.eirSequence).exec E' c n' with ⟨e₂ | res₂, n₂⟩ <;>
    rw [h₁, h₂] at hexec <;> rw [h₁] at hlen <;> rw [h₂] at hlen'
  · exact ⟨by simpa using hexec, fun _ => rfl⟩
  · simp at hexec
  · simp at hexec
  -- the new session is named by its place, which is the number of sessions before it
  · refine ⟨rfl, fun hl => ?_⟩
    simp only at hlen hlen' ⊢
    rw [hlen, hlen', hl]

end Methods

/-! ## Every sequence of replies is taken -/

/-- The loop over the transport takes one reply after the other, up to the first that is not
retried. -/
lemma scripted_loop {cfg : RetryConfig} {comp : Compound} {b : Bytes} {bs : List Bytes}
    (hne : comp.ops ≠ [])
    (hbs : ∀ b' ∈ bs, ∃ st, Conforming comp b' st ∧ isRetriableStatus st = true)
    (hb : ∃ st, Conforming comp b st ∧ isRetriableStatus st = false) {left : ℕ}
    (hleft : bs.length ≤ left) (delay : Int64) (lastErr : Option Err) {rs : List Res}
    (hrs : kinds rs = comp.ops.map Arg.decoder) {n : Net (List (Except Err Bytes))}
    (hn : n.world = (bs ++ [b]).map .ok) :
    ∃ es, (retryLoop scriptEnv cfg (fun rs n => Caller.rpc.callCompound scriptEnv comp rs n) left
        delay lastErr rs n).2.log = n.log ++ es ∧
      callsOf es = (bs ++ [b]).map fun b => .call comp (.ok b) := by
  have hret : ∀ {b' : Bytes} {st : Status} {rs : List Res}, Conforming comp b' st →
      kinds rs = comp.ops.map Arg.decoder →
      retriable (decodeReply rs (.ok b')).2 = isRetriableStatus st := by
    intro b' st rs hconf hrs
    have hpre : Prefixed [] comp comp := ⟨[], rfl, rfl⟩
    simpa [sequenceDecoders, unwrap] using hconf.retriable_eq hpre hrs hne
  -- what the results hold is left open: the loop hands the results of one attempt to the next
  induction bs generalizing left delay lastErr rs n with
  | nil =>
      obtain ⟨st, hconf, hst⟩ := hb
      have hctx : scriptEnv.ctxErr n.world = (none, n.world) := rfl
      have hr := hret hconf hrs
      rcases hd : decodeReply rs (.ok b) with ⟨rs₁, out⟩
      rw [hd] at hr
      have hcall : Caller.rpc.callCompound scriptEnv comp rs (n.push (.ctxErr none) n.world)
          = ((rs₁, out), (n.push (.ctxErr none) n.world).push (.call comp (.ok b)) []) := by
        simp [Caller.callCompound, scriptEnv, Net.push, hn, hd]
      rw [retryLoop_final hctx hcall (hr.trans hst)]
      exact ⟨[.ctxErr none, .call comp (.ok b)], by simp [Net.push], rfl⟩
  | cons b' bs ih =>
      obtain ⟨left, rfl⟩ : ∃ k, left = k + 1 := ⟨left - 1, by simp at hleft; omega⟩
      obtain ⟨st, hconf, hst⟩ := hbs b' (by simp)
      have hctx : scriptEnv.ctxErr n.world = (none, n.world) := rfl
      have hr := hret hconf hrs
      have hkinds := decodeReply_kinds rs (.ok b')
      rcases hd : decodeReply rs (.ok b') with ⟨rs₁, out⟩
      rw [hd] at hr hkinds
      have hcall : Caller.rpc.callCompound scriptEnv comp rs (n.push (.ctxErr none) n.world)
          = ((rs₁, out), (n.push (.ctxErr none) n.world).push (.call comp (.ok b'))
              ((bs ++ [b]).map .ok)) := by
        simp [Caller.callCompound, scriptEnv, Net.push, hn, hd]
      generalize hn₁ : (n.push (.ctxErr none) n.world).push (.call comp (.ok b'))
        ((bs ++ [b]).map .ok) = n₁ at hcall
      have hworld : (n₁.push (.sleep delay none) n₁.world).world = (bs ++ [b]).map .ok := by
        rw [← hn₁]
        rfl
      have hsleep : scriptEnv.sleep delay n₁.world = (none, n₁.world) := rfl
      obtain ⟨es, hlog, hcalls⟩ :=
        ih (fun b'' hb'' => hbs b'' (by simp [hb''])) (by simpa using hleft) (nextDelay cfg delay)
          (errOf out) (hkinds.trans hrs) hworld
      rw [retryLoop_again hctx hcall (hr.trans hst) hsleep, hlog]
      refine ⟨.ctxErr none :: .call comp (.ok b') :: .sleep delay none :: es,
        by simp [Net.push, ← hn₁], ?_⟩
      rw [List.cons_append, List.map_cons, ← hcalls]
      rfl

/-- The replies that a v4.0 connection takes in a method, within its attempts. -/
lemma scripted_calls {c : Conn} {cfg : RetryConfig} (hc : c.caller = .retry .rpc cfg)
    {b : Bytes} {bs : List Bytes} (hlen : bs.length < cfg.maxAttempts.toNat) (m : Method)
    (hbs : ∀ b' ∈ bs, ∃ st, Conforming ((m.conn c).request (m.multiOp c).ops) b' st ∧
      isRetriableStatus st = true)
    (hb : ∃ st, Conforming ((m.conn c).request (m.multiOp c).ops) b st ∧
      isRetriableStatus st = false) :
    callsOf (eventsSince (scripted (bs ++ [b])) (m.exec scriptEnv c (scripted (bs ++ [b]))).2)
      = (bs ++ [b]).map fun b => .call ((m.conn c).request (m.multiOp c).ops) (.ok b) := by
  have hcaller : (m.conn c).caller = .retry .rpc cfg := by
    cases m <;> exact hc
  have hrs : kinds (m.multiOp c).results
      = ((m.conn c).request (m.multiOp c).ops).ops.map Arg.decoder := by
    rw [request_ops, (m.multiOp c).results_eq, kinds_decoders]
  have hne : ((m.conn c).request (m.multiOp c).ops).ops ≠ [] := by
    rw [request_ops]
    exact m.ops_ne_nil c
  have hworld : (scripted (bs ++ [b])).world = (bs ++ [b]).map .ok := rfl
  obtain ⟨es, hlog, hcalls⟩ :=
    scripted_loop hne hbs hb (Nat.le_sub_one_of_lt hlen) cfg.initial none hrs hworld
  have hexec : (m.exec scriptEnv c (scripted (bs ++ [b]))).2
      = ((m.conn c).caller.callCompound scriptEnv ((m.conn c).request (m.multiOp c).ops)
        (m.multiOp c).results (scripted (bs ++ [b]))).2 := rfl
  rw [hexec, hcaller, eventsSince, Caller.callCompound, hlog, List.drop_left]
  exact hcalls

/-! ## The result -/

section Result

variable {W W' : Type} {E : Env W} {E' : Env W'} {c : Conn} {ps : List ℕ} {cfg : RetryConfig}
  {b : Bytes} {n : Net W} {n' : Net W'}

/-- The multi-op methods. -/
lemma Method.exec_eq (hc : c.caller = .retry (sessionStack ps) cfg) (m : Method)
    (h : RetriedUntil b (eventsSince n (m.exec E c n).2))
    (h' : AnsweredBy b (eventsSince n' (m.exec E' c n').2)) :
    (m.exec E c n).1 = (m.exec E' c n').1 := by
  have hcaller : (m.conn c).caller = .retry (sessionStack ps) cfg := by
    cases m <;> exact hc
  exact MultiOp.exec_eq hcaller (m.multiOp c) (m.ops_ne_nil c) (m.keepsLast c) h h'

/-- The single-op methods. -/
lemma Bootstrap.run_eq (hc : c.caller = .retry (sessionStack ps) cfg) (m : Bootstrap)
    (h : RetriedUntil b (eventsSince n (m.run E c n).2.2))
    (h' : AnsweredBy b (eventsSince n' (m.run E' c n').2.2)) :
    (m.run E c n).1 = (m.run E' c n').1 ∧
      (n.sessions.length = n'.sessions.length → (m.run E c n).2.1 = (m.run E' c n').2.1) := by
  cases m with
  | createSession => exact createSession_eq hc h h'
  | setClientID =>
      obtain ⟨h₁, h₂⟩ := introduce_eq hc (fun _ _ _ _ => rfl) (fun _ _ _ _ => rfl)
        (fun _ _ s hs => by simpa [setClientIDOp] using hs) h h'
      exact ⟨h₁, fun _ => h₂⟩
  | exchangeID =>
      obtain ⟨h₁, h₂⟩ := introduce_eq hc (fun _ _ _ _ => rfl) (fun _ _ _ _ => rfl)
        (fun _ _ s hs => by simpa [exchangeIDOp] using hs) h h'
      exact ⟨h₁, fun _ => h₂⟩
  | confirmClientID =>
      simp only [Bootstrap.run, Conn.confirmClientID, single_net] at h h'
      obtain ⟨h₁, h₂⟩ := single_eq (fun c _ => c) (SingleOp.exec_eq hc rfl rfl
        (fun s hs => .inl (by simpa [confirmClientIDOp] using hs)) h h')
      exact ⟨h₁, fun _ => h₂⟩
  | reclaimComplete =>
      simp only [Bootstrap.run, Conn.reclaimComplete, single_net] at h h'
      obtain ⟨h₁, h₂⟩ := single_eq (fun c _ => c) (SingleOp.exec_eq hc rfl rfl
        (fun s hs => .inr rfl) h h')
      exact ⟨h₁, fun _ => h₂⟩
  | renew =>
      simp only [Bootstrap.run, Conn.renew, single_net] at h h'
      obtain ⟨h₁, h₂⟩ := single_eq (fun c _ => c) (SingleOp.exec_eq hc rfl rfl
        (fun s hs => .inl (by simpa [renewOp] using hs)) h h')
      exact ⟨h₁, fun _ => h₂⟩

/-- **Retries leave no residue.**  Let the compounds that a method sends be answered by conforming
replies with NFS4ERR_DELAY or NFS4ERR_GRACE and then by a conforming reply `b` with another
status; and let `b` be the only reply in another run of the method.  Then the method returns
the same values and the same error in both runs, and the bootstrap methods, which store what
they get in the connection, leave the same connection.  Every such sequence of replies that is
not longer than the number of attempts is taken to its end by a v4.0 connection. -/
theorem retries_leave_no_residue (hc : c.caller = .retry (sessionStack ps) cfg) :
    (∀ m : Method, RetriedUntil b (eventsSince n (m.exec E c n).2) →
        AnsweredBy b (eventsSince n' (m.exec E' c n').2) →
        (m.exec E c n).1 = (m.exec E' c n').1) ∧
      (∀ m : Bootstrap, RetriedUntil b (eventsSince n (m.run E c n).2.2) →
        AnsweredBy b (eventsSince n' (m.run E' c n').2.2) →
        (m.run E c n).1 = (m.run E' c n').1 ∧
          (n.sessions.length = n'.sessions.length →
            (m.run E c n).2.1 = (m.run E' c n').2.1)) ∧
      (ps = [] → ∀ (m : Method) (bs : List Bytes), bs.length < cfg.maxAttempts.toNat →
        (∀ b' ∈ bs, ∃ st, Conforming ((m.conn c).request (m.multiOp c).ops) b' st ∧
          isRetriableStatus st = true) →
        (∃ st, Conforming ((m.conn c).request (m.multiOp c).ops) b st ∧
          isRetriableStatus st = false) →
        (m.exec scriptEnv c (scripted (bs ++ [b]))).1 = (m.exec scriptEnv c (scripted [b])).1) := by
  refine ⟨fun m => m.exec_eq hc, fun m => m.run_eq hc, ?_⟩
  rintro rfl m bs hlen hbs hb
  have hcalls := scripted_calls hc hlen m hbs hb
  have hone : ([] : List Bytes).length < cfg.maxAttempts.toNat := Nat.zero_lt_of_lt hlen
  have hcalls' := scripted_calls hc hone m (by simp) hb
  refine m.exec_eq hc ?_ ⟨_, hcalls'⟩
  refine ⟨_, _, hcalls.trans (List.map_append ..), ?_, hb⟩
  intro ev hev
  obtain ⟨b', hb', rfl⟩ := List.mem_map.mp hev
  obtain ⟨st, hconf, hst⟩ := hbs b' hb'
  exact ⟨_, b', st, rfl, hconf, hst⟩

end Result

/-- A reply to SEQUENCE, PUTFH and READDIR with one entry. -/
def listedReply : Bytes :=
  replyBytes nfs4Ok
    [⟨opSequence, nfs4Ok, List.replicate 36 0⟩, ⟨opPutfh, nfs4Ok, []⟩,
      ⟨opReaddir, nfs4Ok, List.replicate 8 0 ++ word 1 ++ word 0 ++ word 3 ++ word 1
        ++ [97, 0, 0, 0] ++ word 0 ++ word 0 ++ word 0 ++ word 1⟩]

/-- The same compound, with READDIR put off. -/
def readdirDelayedReply : Bytes :=
  replyBytes nfs4errDelay
    [⟨opSequence, nfs4Ok, List.replicate 36 0⟩, ⟨opPutfh, nfs4Ok, []⟩,
      ⟨opReaddir, nfs4errDelay, []⟩]

/-- A connection with one session. -/
def sessionConn : Conn :=
  { caller := .retry (sessionStack [0]) (RetryConfig.withDefaults {}), cfg := {} }

/-- The network of a session with one slot, and the replies to come. -/
def sessionNet (replies : List Bytes) : Net (List (Except Err Bytes)) :=
  { scripted replies with sessions := [newSession default 1] }

/-- The compound of `Readdir` on that session. -/
def readdirCompound (sequenceID : UInt32) : Compound :=
  wrapCompound
    { sessionID := default, sequenceID, slotID := 0, highestSlotID := 0, cacheThis := false }
    (sessionConn.request (readdirOp none 0 default []).ops)

/-- READDIR is put off once. -/
lemma readdir_retriedUntil :
    RetriedUntil listedReply (eventsSince (sessionNet [readdirDelayedReply, listedReply])
      ((Method.readdir none 0 default []).exec scriptEnv sessionConn
        (sessionNet [readdirDelayedReply, listedReply])).2) := by
  have hcalls : callsOf (eventsSince (sessionNet [readdirDelayedReply, listedReply])
      ((Method.readdir none 0 default []).exec scriptEnv sessionConn
        (sessionNet [readdirDelayedReply, listedReply])).2)
      = [.call (readdirCompound 1) (.ok readdirDelayedReply)]
        ++ [.call (readdirCompound 2) (.ok listedReply)] := by decide +kernel
  have hdelayed : Conforming (readdirCompound 1) readdirDelayedReply nfs4errDelay :=
    ⟨⟨nfs4errDelay, [], 3⟩, [nfs4Ok, nfs4Ok, nfs4errDelay], by decide +kernel, rfl, rfl,
      by simp, by simp [nfs4errDelay, nfs4Ok]⟩
  have hlisted : Conforming (readdirCompound 2) listedReply nfs4Ok :=
    ⟨⟨nfs4Ok, [], 3⟩, [nfs4Ok, nfs4Ok, nfs4Ok], by decide +kernel, rfl, rfl, by simp,
      fun _ => rfl⟩
  refine ⟨_, _, hcalls, ?_, nfs4Ok, hlisted, by decide⟩
  intro ev hev
  obtain rfl := List.mem_singleton.mp hev
  exact ⟨_, _, nfs4errDelay, rfl, hdelayed, by decide⟩

lemma readdir_answeredBy :
    AnsweredBy listedReply (eventsSince (sessionNet [listedReply])
      ((Method.readdir none 0 default []).exec scriptEnv sessionConn
        (sessionNet [listedReply])).2) := by
  have hcalls : callsOf (eventsSince (sessionNet [listedReply])
      ((Method.readdir none 0 default []).exec scriptEnv sessionConn
        (sessionNet [listedReply])).2)
      = [.call (readdirCompound 1) (.ok listedReply)] := by decide +kernel
  exact ⟨_, hcalls⟩

/-- The entry is listed once. -/
theorem retries_leave_no_residue_readdir :
    ((Method.readdir none 0 default []).exec scriptEnv sessionConn
        (sessionNet [readdirDelayedReply, listedReply])).1
      = ((Method.readdir none 0 default []).exec scriptEnv sessionConn
        (sessionNet [listedReply])).1 := by
  have hc : sessionConn.caller = .retry (sessionStack [0]) (RetryConfig.withDefaults {}) := rfl
  exact (retries_leave_no_residue hc).1 _ readdir_retriedUntil readdir_answeredBy

end NfsClient.Nfs4
