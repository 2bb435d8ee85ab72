import NfsClient.Nfs4.Answers
import NfsClient.Nfs4.Encode
import NfsClient.Nfs4.EnvRun
import NfsClient.Rpc.Client

/-!
# The size of requests

`RPCCaller` sends a compound as the arguments of one RPC call.  The request has the length of the
call header with its credential, and of the operations; on a connection with a session a SEQUENCE
comes first.
-/

namespace NfsClient.Nfs4

open NfsClient.Xdr

/-! ## The size of a request -/

/-- `Program`, `Version4` and `ProcCompound`. -/
def program : UInt32 := 100003
def version4 : UInt32 := 4
def procCompound : UInt32 := 1

/-- What `RPCCaller.CallCompound` passes to `Call`, as far as the request is concerned. -/
def Compound.invocation (c : Compound) : Rpc.Invocation where
  prog := program
  vers := version4
  proc := procCompound
  args := c.encode

/-- The length of the request that carries a compound: the call header and the COMPOUND4args. -/
def requestSize (cli : Rpc.Client) (c : Compound) : ℕ :=
  (cli.payload (Rpc.allocXID cli.nextID) c.invocation).length

/-- The length of the request that an event sends. -/
def Event.requestSize (cli : Rpc.Client) : Event → Option ℕ
  | .call c _ => some (Nfs4.requestSize cli c)
  | _ => none

/-- The part of a request that is the same for all compounds of a client. -/
def headerSize (cli : Rpc.Client) : ℕ :=
  40 + Encoder.padded cli.opts.cred.body.length + Encoder.padded cli.opts.verf.body.length

lemma requestSize_eq (cli : Rpc.Client) (c : Compound) :
    requestSize cli c = headerSize cli + 12 + Encoder.padded c.tag.length
      + (c.ops.flatMap Arg.encodeArg).length := by
  simp only [requestSize, headerSize, Rpc.Client.payload, Rpc.CallHeader.encode,
    Rpc.OpaqueAuth.encode, Compound.invocation, Compound.encode, List.length_append,
    List.flatten_cons, List.flatten_nil, List.length_nil, Encoder.length_uint32,
    Encoder.length_varOpaque, Encoder.length_string]
  omega

lemma length_encodeArg_sequence (q : SequenceArgs) : (Arg.sequence q).encodeArg.length = 36 := by
  simp only [Arg.encodeArg, Arg.encodeBody, List.length_append, List.flatten_cons, List.flatten_nil,
    List.length_nil, Encoder.length_uint32, Encoder.length_fixedOpaque, Encoder.length_bool,
    q.sessionID.length_eq]
  rfl

lemma length_encodeArg_putfh (fh : FileHandle) :
    (Arg.putfh fh).encodeArg.length = 8 + Encoder.padded (fh.getD []).length := by
  simp only [Arg.encodeArg, Arg.encodeBody, List.length_append, List.flatten_cons, List.flatten_nil,
    List.length_nil, Encoder.length_uint32, Encoder.length_varOpaque]
  omega

lemma length_encodeArg_write (a : WriteArgs) :
    (Arg.write a).encodeArg.length = 36 + Encoder.padded a.data.length := by
  have hother : Encoder.padded 12 = 12 := rfl
  simp only [Arg.encodeArg, Arg.encodeBody, Stateid.encode, List.length_append, List.flatten_cons,
    List.flatten_nil, List.length_nil, Encoder.length_uint32, Encoder.length_uint64,
    Encoder.length_fixedOpaque, Encoder.length_varOpaque, a.stateid.other.length_eq, hother]
  omega

lemma length_encodeArg_getattr (mask : Bitmap) :
    (Arg.getattr mask).encodeArg.length = 8 + 4 * mask.length := by
  simp only [Arg.encodeArg, Arg.encodeBody, Bitmap.encode, List.length_append, List.flatten_cons,
    List.flatten_nil, List.length_nil, Encoder.length_uint32, Encoder.length_words]
  omega

/-- The compound carries these operations behind one SEQUENCE. -/
def Compound.Carries (ops : List Arg) (c : Compound) : Prop :=
  c.tag = [] ∧ ∃ q, c.ops = .sequence q :: ops

lemma requestSize_of_carries {cli : Rpc.Client} {ops : List Arg} {c : Compound}
    (h : c.Carries ops) :
    requestSize cli c = headerSize cli + 48 + (ops.flatMap Arg.encodeArg).length := by
  obtain ⟨htag, q, hops⟩ := h
  have hpad : Encoder.padded 0 = 0 := rfl
  rw [requestSize_eq, htag, hops, List.flatMap_cons, List.length_append,
    length_encodeArg_sequence, List.length_nil, hpad]
  omega

/-! ## The session -/

variable {W α : Type} {E : Env W}

/-- The connection has one session, and the reply to its CREATE_SESSION grants requests of this
size. -/
def GrantsRequests (E : Env W) (c : Conn) (size : ℕ) : Prop :=
  ∃ (c₀ : Conn) (cfg : RetryConfig) (n₀ : Net W) (res : Res) (n₁ : Net W),
    c₀.caller = .retry .rpc cfg ∧
    (createSessionOp c₀.clientID c₀.eirSequence).exec E c₀ n₀ = (.ok res, n₁) ∧
    res.toCreateSession.foreChan.maxRequestSize.toNat = size ∧
    c.caller = (c₀.createSession E n₀).2.1.caller

lemma GrantsRequests.caller {c : Conn} {size : ℕ} (h : GrantsRequests E c size) :
    ∃ p cfg, c.caller = .retry (sessionStack [p]) cfg := by
  obtain ⟨c₀, cfg, n₀, res, n₁, hcaller, hexec, -, hc⟩ := h
  refine ⟨n₁.sessions.length, cfg, ?_⟩
  rw [hc]
  simp only [Conn.createSession, hexec, Conn.insertSession, hcaller]
  rfl

lemma grantsRequests_createSession {c : Conn} {cfg : RetryConfig} {n : Net W} {size : ℕ}
    (hcaller : c.caller = .retry .rpc cfg)
    (h : (((createSessionOp c.clientID c.eirSequence).exec E c n).1.toOption.map
      fun res => res.toCreateSession.foreChan.maxRequestSize.toNat) = some size) :
    GrantsRequests E (c.createSession E n).2.1 size := by
  rcases hexec : (createSessionOp c.clientID c.eirSequence).exec E c n with ⟨e | res, n₁⟩
  · rw [hexec] at h
    cases h
  · rw [hexec] at h
    exact ⟨c, cfg, n, res, n₁, hcaller, hexec, Option.some.inj h, rfl⟩

/-- What a multi-op method sends through one session.  It sends something exactly if it reaches the
transport, and cannot succeed otherwise. -/
lemma MultiOp.exec_carries {c : Conn} {p : ℕ} {cfg : RetryConfig}
    (hc : c.caller = .retry (sessionStack [p]) cfg) (m : MultiOp α) (n : Net W) :
    ∃ es, (m.exec E c n).2.log = n.log ++ es ∧
      (∀ c' reply, .call c' reply ∈ es → c'.Carries m.ops) ∧
      ((∃ c' reply, .call c' reply ∈ es) ↔ c.caller.Reaches E n) ∧
      (errorOf (m.exec E c n).1 = none → c.caller.Reaches E n) := by
  obtain ⟨es, out, hlog, -, htr⟩ := m.exec_transcript (E := E) hc n
  have htag : (c.request m.ops).tag = [] := by
    rw [request_eq]
    rfl
  obtain ⟨es', hlog', htags⟩ := (kept_sends (E := E) (Q := fun comp => comp.tag = [])
    fun _ h => h).callCompound c.caller htag m.results n
  obtain rfl : es = es' := List.append_cancel_left (hlog.symm.trans hlog')
  refine ⟨es, hlog, fun c' reply hmem => ?_, c.caller.sends_iff_reaches _ _ n hlog, fun hok => ?_⟩
  · obtain ⟨args, hids, hops⟩ := htr.calls hmem
    have hone : args.length = 1 := by
      rw [← List.length_map, hids, Net.length_stackIDs]
      rfl
    obtain ⟨q, rfl⟩ := List.length_eq_one_iff.mp hone
    rw [request_ops] at hops
    exact ⟨htags c' reply hmem, q, hops⟩
  · by_contra hnot
    obtain ⟨-, e, he⟩ := Caller.silent_of_not_reaches hnot (c.request m.ops) m.results
    rcases hcall : c.caller.callCompound E (c.request m.ops) m.results n with ⟨⟨rs, o⟩, n'⟩
    rw [hcall] at he
    obtain rfl : o = .error (.ctx e) := he
    simp [MultiOp.exec, hcall, MultiOp.finish, errorOf] at hok

end NfsClient.Nfs4
