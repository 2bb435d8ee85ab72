import NfsClient.Nfs4.Compound
import NfsClient.Nfs4.Session

/-!
# The caller stack

A connection issues its compounds through a stack of decorators over a base caller: a
`retryCaller` outermost, below it one `sessionCaller` for each session that was created, at
the bottom the RPC transport.  The environment of a call (server, network, contexts, clock)
is a state machine `Env W` over an arbitrary state `W`: each question the client asks it
changes the state and yields an answer.  Every question and its answer is recorded as an
`Event`, so that what was handed to the base caller, and what came back, can be read off the
log.
-/

namespace NfsClient.Nfs4

open NfsClient.Xdr

/-! ## Environments -/

/-- The interactions of the client with its environment. -/
inductive Event
  /-- `ctx.Err()`, looked at before an attempt. -/
  | ctxErr (e : Option CtxErr)
  /-- The `select` of `AcquireSlot`: `some` when the branch `ctx.Done()` was taken. -/
  | select (e : Option CtxErr)
  /-- A backoff sleep, in nanoseconds. -/
  | sleep (d : Int64) (e : Option CtxErr)
  /-- A compound handed to the base caller, and the body of the reply (or the transport's
  error). -/
  | call (c : Compound) (reply : Except Err Bytes)
deriving DecidableEq

/-- What the client's environment does: the answers to its questions, as a state
machine. -/
structure Env (W : Type) where
  ctxErr : W → Option CtxErr × W
  select : W → Option CtxErr × W
  sleep : Int64 → W → Option CtxErr × W
  base : Compound → W → Except Err Bytes × W
  /-- `rand.Read` on an 8-byte verifier. -/
  rand : W → Except Err (ByteArr 8) × W
  /-- `os.Hostname`. -/
  hostname : W → Except Err Bytes × W

/-- The state that a call can change outside of the connection: the environment, the
sessions (which are shared by pointer) and the log. -/
structure Net (W : Type) where
  world : W
  sessions : List Session := []
  log : List Event := []

namespace Net

variable {W : Type}

/-- The session a pointer points to. -/
def session (n : Net W) (p : ℕ) : Session := n.sessions.getD p default

/-- Update the session a pointer points to. -/
def setSession (n : Net W) (p : ℕ) (s : Session) : Net W :=
  { n with sessions := n.sessions.set p s }

/-- Record an event and the new state of the environment. -/
def push (n : Net W) (e : Event) (w : W) : Net W := { n with world := w, log := n.log ++ [e] }

end Net

/-! ## Retry configuration -/

/-- `RetryConfig` tunes the backoff: durations are `int64` nanoseconds. -/
structure RetryConfig where
  initial : Int64 := 0
  max : Int64 := 0
  maxAttempts : Int := 0
deriving DecidableEq

/-- `withDefaults` replaces unset fields by the package defaults: 10 ms, 1 s and 10
attempts. -/
def RetryConfig.withDefaults (cfg : RetryConfig) : RetryConfig :=
  { initial := if cfg.initial ≤ 0 then 10000000 else cfg.initial
    max := if cfg.max ≤ 0 then 1000000000 else cfg.max
    maxAttempts := if cfg.maxAttempts < 1 then 10 else cfg.maxAttempts }

/-- `isRetriableStatus`: NFS4ERR_DELAY and NFS4ERR_GRACE. -/
def isRetriableStatus (s : Status) : Bool := s = nfs4errDelay || s = nfs4errGrace

/-- `retriable` reports whether the outcome of a call is a retriable server response. -/
def retriable : Except Err CompoundResult → Bool
  | .ok r => isRetriableStatus r.status
  | .error e => errorHasStatus e nfs4errDelay || errorHasStatus e nfs4errGrace

/-! ## The callers -/

/-- `CompoundCaller`: the RPC transport, or a decorator over another caller.  A
`sessionCaller` points to its session. -/
inductive Caller
  | rpc
  | session (base : Caller) (session : ℕ)
  | retry (base : Caller) (cfg : RetryConfig)
deriving DecidableEq

/-- The outcome of `CallCompound`: the result decoders as they are afterwards, and the
result or error returned. -/
abbrev Outcome : Type := List Res × Except Err CompoundResult

/-- `newRetryCaller`. -/
def newRetryCaller (base : Caller) (cfg : RetryConfig) : Caller := .retry base cfg.withDefaults

/-- `rpc.Client` looks at the decoder once the results are decoded: an error it has latched
is reported before the one `DecodeCompound` made of it. -/
def checkDecoder : (List Res × Except Err CompoundResult) × Decoder → Outcome
  | ((rs, out), d) =>
    match d.err with
    | some e => (rs, .error (.wrap "rpc: decoding result" e.toErr))
    | none => (rs, out)

/-- `RPCCaller.CallCompound` on the body of a reply, or on the error of the transport. -/
def decodeReply (results : List Res) : Except Err Bytes → Outcome
  | .error e => (results, .error e)
  | .ok b => checkDecoder (decodeCompound results (newDecoder b))

/-- What `sessionCaller.CallCompound` makes of the outcome of its base: whether the sequence
id is advanced, and the outcome for its own caller.  The first decoder is the one of
SEQUENCE. -/
def afterBase : Outcome → Bool × Outcome
  | (rs, .error e) => (false, (rs.tail, .error e))
  | (rs, .ok r) =>
    let seqStatus := (rs.headD (.sequence {})).stat
    match statusErr seqStatus with
    | some e => (true, (rs.tail, .error (.wrap "nfs4: SEQUENCE" e)))
    | none =>
      (true, (rs.tail,
        .ok { r with numResults := if 0 < r.numResults then r.numResults - 1 else 0 }))

/-! ### Accepted and rejected replies -/

section DecodeReply

variable {rs : List Res} {b : Bytes}

lemma decodeReply_kinds (rs : List Res) (reply : Except Err Bytes) :
    kinds (decodeReply rs reply).1 = kinds rs := by
  cases reply with
  | error e => rfl
  | ok b =>
      have hk := decodeCompound_kinds rs (newDecoder b)
      rcases h : decodeCompound rs (newDecoder b) with ⟨⟨rs', out⟩, d⟩
      rw [h] at hk
      simp only [decodeReply, h, checkDecoder]
      cases d.err <;> exact hk

/-- The outcome of an accepted reply. -/
lemma decodeReply_of_parseReply {r : CompoundResult} {sts : List Status}
    (h : parseReply rs b = some (r, sts)) :
    ∃ rs', decodeReply rs (.ok b) = (rs', .ok r) ∧ sts.length = r.numResults ∧
      r.numResults ≤ rs.length ∧
      rs'.map Res.stat = sts ++ (rs.drop r.numResults).map Res.stat := by
  obtain ⟨hok, hlen, hle, hst⟩ := decodeCompound_of_parseReply h
  have herr := decodeCompound_err hok
  rcases hd : decodeCompound rs (newDecoder b) with ⟨⟨rs', out⟩, d⟩
  rw [hd] at hok hst herr
  obtain rfl : out = .ok r := hok
  refine ⟨rs', ?_, hlen, hle, hst⟩
  have hnone : d.err = none := herr
  simp only [decodeReply, hd, checkDecoder, hnone]

/-- The outcome of a rejected reply: an error without an NFS status. -/
lemma decodeReply_of_parseReply_none (h : parseReply rs b = none) :
    ∃ rs' e, decodeReply rs (.ok b) = (rs', .error e) ∧ e.asStatus = none := by
  obtain ⟨e, he⟩ := decodeCompound_of_parseReply_none h
  have hplain := decodeCompound_plain he
  rcases hd : decodeCompound rs (newDecoder b) with ⟨⟨rs', out⟩, d⟩
  rw [hd] at he
  obtain rfl : out = .error e := he
  simp only [decodeReply, hd, checkDecoder]
  cases d.err with
  | some e' => exact ⟨rs', _, rfl, by rw [asStatus_wrap, asStatus_toErr]⟩
  | none => exact ⟨rs', e, rfl, hplain⟩

/-- The sequence id is advanced whenever the base call returns without an error. -/
lemma afterBase_of_isOk {out : Outcome} (h : out.2.isOk = true) : (afterBase out).1 = true := by
  obtain ⟨rs, e | r⟩ := out
  · simp [Except.isOk, Except.toBool] at h
  · simp only [afterBase]
    split <;> rfl

lemma afterBase_error (rs : List Res) (e : Err) :
    afterBase (rs, .error e) = (false, (rs.tail, .error e)) := rfl

end DecodeReply

/-- A call in the environment. -/
abbrev Call (W : Type) : Type := List Res → Net W → Outcome × Net W

/-- The error that the retry caller returns when its attempts are used up: a retriable status
becomes an error. -/
def exhaustedErr : Except Err CompoundResult → Err
  | .ok r => .status r.status
  | .error e => e

/-- The error of an attempt, as the next one remembers it. -/
def errOf : Except Err CompoundResult → Option Err
  | .ok _ => none
  | .error e => some e

/-- The delay after `delay`. -/
def nextDelay (cfg : RetryConfig) (delay : Int64) : Int64 :=
  if cfg.max < delay * 2 then cfg.max else delay * 2

/-- The loop of `retryCaller.CallCompound`; the first argument is the number of attempts
left after this one, `lastErr` the error of the previous attempt. -/
def retryLoop {W : Type} (E : Env W) (cfg : RetryConfig) (call : Call W) :
    ℕ → Int64 → Option Err → Call W
  | left, delay, lastErr, rs, n =>
    match E.ctxErr n.world with
    | (some e, w) =>
        ((rs, .error (lastErr.getD (.ctx e))), n.push (.ctxErr (some e)) w)
    | (none, w) =>
      match call rs (n.push (.ctxErr none) w) with
      | ((rs₁, out), n₁) =>
        if !retriable out then ((rs₁, out), n₁)
        else match left with
          | 0 => ((rs₁, .error (exhaustedErr out)), n₁)
          | left + 1 =>
            match E.sleep delay n₁.world with
            | (some e, w₁) => ((rs₁, .error (.ctx e)), n₁.push (.sleep delay (some e)) w₁)
            | (none, w₁) =>
              retryLoop E cfg call left (nextDelay cfg delay) (errOf out) rs₁
                (n₁.push (.sleep delay none) w₁)

/-- `CallCompound` of the three kinds of callers. -/
def Caller.callCompound {W : Type} (E : Env W) : Caller → Compound → Call W
  | .rpc, c, rs, n =>
    match E.base c n.world with
    | (reply, w) => (decodeReply rs reply, n.push (.call c reply) w)
  | .session base p, c, rs, n =>
    match E.select n.world with
    | (some e, w) => ((rs, .error (.ctx e)), n.push (.select (some e)) w)
    | (none, w) =>
      let n₁ := n.push (.select none) w
      match (n₁.session p).takeToken with
      -- no token: the call waits until its context is done
      | none => ((rs, .error (.ctx .canceled)), n₁)
      | some s₁ =>
        match s₁.scan with
        | none => ((rs, .error (.ctx .canceled)), n₁)
        | some (l, s₂) =>
          match base.callCompound E (wrapCompound (s₂.sequenceArgs l) c)
              (.sequence {} :: rs) (n₁.setSession p s₂) with
          | (out, n₂) =>
            match afterBase out with
            | (advance, out') => (out', n₂.setSession p ((n₂.session p).giveBack l advance))
  | .retry base cfg, c, rs, n =>
    retryLoop E cfg (fun rs n => base.callCompound E c rs n) (cfg.maxAttempts.toNat - 1)
      cfg.initial none rs n

/-! ### The retry loop, case by case -/

section RetryLoop

variable {W : Type} {E : Env W} {cfg : RetryConfig} {call : Call W} {left : ℕ} {delay : Int64}
  {lastErr : Option Err} {rs rs₁ : List Res} {out : Except Err CompoundResult} {n n₁ : Net W}
  {w w₁ : W} {e : CtxErr}

lemma retryLoop_stopped (hctx : E.ctxErr n.world = (some e, w)) :
    retryLoop E cfg call left delay lastErr rs n =
      ((rs, .error (lastErr.getD (.ctx e))), n.push (.ctxErr (some e)) w) := by
  unfold retryLoop
  rw [hctx]

lemma retryLoop_final (hctx : E.ctxErr n.world = (none, w))
    (hcall : call rs (n.push (.ctxErr none) w) = ((rs₁, out), n₁)) (hr : retriable out = false) :
    retryLoop E cfg call left delay lastErr rs n = ((rs₁, out), n₁) := by
  unfold retryLoop
  simp only [hctx, hcall, hr, Bool.not_false, if_true]

lemma retryLoop_exhausted (hctx : E.ctxErr n.world = (none, w))
    (hcall : call rs (n.push (.ctxErr none) w) = ((rs₁, out), n₁)) (hr : retriable out = true) :
    retryLoop E cfg call 0 delay lastErr rs n = ((rs₁, .error (exhaustedErr out)), n₁) := by
  unfold retryLoop
  simp only [hctx, hcall, hr, Bool.not_true, Bool.false_eq_true, if_false]

lemma retryLoop_interrupted (hctx : E.ctxErr n.world = (none, w))
    (hcall : call rs (n.push (.ctxErr none) w) = ((rs₁, out), n₁)) (hr : retriable out = true)
    (hs : E.sleep delay n₁.world = (some e, w₁)) :
    retryLoop E cfg call (left + 1) delay lastErr rs n =
      ((rs₁, .error (.ctx e)), n₁.push (.sleep delay (some e)) w₁) := by
  rw [retryLoop]
  simp only [hctx, hcall, hr, Bool.not_true, Bool.false_eq_true, if_false, hs]

lemma retryLoop_again (hctx : E.ctxErr n.world = (none, w))
    (hcall : call rs (n.push (.ctxErr none) w) = ((rs₁, out), n₁)) (hr : retriable out = true)
    (hs : E.sleep delay n₁.world = (none, w₁)) :
    retryLoop E cfg call (left + 1) delay lastErr rs n =
      retryLoop E cfg call left (nextDelay cfg delay) (errOf out) rs₁
        (n₁.push (.sleep delay none) w₁) := by
  rw [retryLoop]
  simp only [hctx, hcall, hr, Bool.not_true, Bool.false_eq_true, if_false, hs]

/-- A run of the loop from given decoders, one constructor for each way in which a turn ends. -/
inductive RetryRun (E : Env W) (call : Call W) : List Res → Net W → Outcome × Net W → Prop
  /-- The context is done before the attempt. -/
  | stopped {rs : List Res} {n : Net W} {e : CtxErr} {w : W} (err : Err)
      (hctx : E.ctxErr n.world = (some e, w)) :
      RetryRun E call rs n ((rs, .error err), n.push (.ctxErr (some e)) w)
  | final {rs rs₁ : List Res} {out : Except Err CompoundResult} {n n₁ : Net W} {w : W}
      (hctx : E.ctxErr n.world = (none, w))
      (hcall : call rs (n.push (.ctxErr none) w) = ((rs₁, out), n₁))
      (hr : retriable out = false) : RetryRun E call rs n ((rs₁, out), n₁)
  /-- No attempts are left. -/
  | exhausted {rs rs₁ : List Res} {out : Except Err CompoundResult} {n n₁ : Net W} {w : W}
      (hctx : E.ctxErr n.world = (none, w))
      (hcall : call rs (n.push (.ctxErr none) w) = ((rs₁, out), n₁))
      (hr : retriable out = true) :
      RetryRun E call rs n ((rs₁, .error (exhaustedErr out)), n₁)
  /-- The context is done during the backoff. -/
  | interrupted {rs rs₁ : List Res} {out : Except Err CompoundResult} {n n₁ : Net W} {w w₁ : W}
      {delay : Int64} {e : CtxErr} (hctx : E.ctxErr n.world = (none, w))
      (hcall : call rs (n.push (.ctxErr none) w) = ((rs₁, out), n₁))
      (hr : retriable out = true) (hs : E.sleep delay n₁.world = (some e, w₁)) :
      RetryRun E call rs n ((rs₁, .error (.ctx e)), n₁.push (.sleep delay (some e)) w₁)
  | again {rs rs₁ : List Res} {out : Except Err CompoundResult} {n n₁ : Net W} {w w₁ : W}
      {delay : Int64} {R : Outcome × Net W} (hctx : E.ctxErr n.world = (none, w))
      (hcall : call rs (n.push (.ctxErr none) w) = ((rs₁, out), n₁))
      (hr : retriable out = true) (hs : E.sleep delay n₁.world = (none, w₁))
      (h : RetryRun E call rs₁ (n₁.push (.sleep delay none) w₁) R) : RetryRun E call rs n R

/-- The loop runs like that, whatever number of attempts it has. -/
lemma retryRun_retryLoop (cfg : RetryConfig) (call : Call W) (left : ℕ) (delay : Int64)
    (lastErr : Option Err) (rs : List Res) (n : Net W) :
    RetryRun E call rs n (retryLoop E cfg call left delay lastErr rs n) := by
  induction left using Nat.strongRecOn generalizing delay lastErr rs n with
  | ind left ih =>
      rcases hctx : E.ctxErr n.world with ⟨_ | e, w⟩
      · rcases hcall : call rs (n.push (.ctxErr none) w) with ⟨⟨rs₁, out⟩, n₁⟩
        cases hr : retriable out with
        | false =>
            rw [retryLoop_final hctx hcall hr]
            exact .final hctx hcall hr
        | true =>
            cases left with
            | zero =>
                rw [retryLoop_exhausted hctx hcall hr]
                exact .exhausted hctx hcall hr
            | succ left =>
                rcases hs : E.sleep delay n₁.world with ⟨_ | e, w₁⟩
                · -- the next attempt starts with the decoders as this one left them
                  rw [retryLoop_again hctx hcall hr hs]
                  exact .again hctx hcall hr hs (ih left (Nat.lt_succ_self left) _ _ _ _)
                · rw [retryLoop_interrupted hctx hcall hr hs]
                  exact .interrupted hctx hcall hr hs
      · rw [retryLoop_stopped hctx]
        exact .stopped _ hctx

end RetryLoop

/-! ### The session caller, case by case -/

section SessionCaller

variable {W : Type} {E : Env W} {base : Caller} {p : ℕ} {c : Compound} {rs : List Res}
  {n n₂ : Net W} {w : W} {s₁ s₂ : Session} {l : SlotLease} {out : Outcome}

lemma callCompound_cancelled {e : CtxErr} (hs : E.select n.world = (some e, w)) :
    (Caller.session base p).callCompound E c rs n =
      ((rs, .error (.ctx e)), n.push (.select (some e)) w) := by
  simp only [Caller.callCompound, hs]

lemma callCompound_no_token (hs : E.select n.world = (none, w))
    (ht : ((n.push (.select none) w).session p).takeToken = none) :
    (Caller.session base p).callCompound E c rs n =
      ((rs, .error (.ctx .canceled)), n.push (.select none) w) := by
  simp only [Caller.callCompound, hs, ht]

lemma callCompound_no_slot (hs : E.select n.world = (none, w))
    (ht : ((n.push (.select none) w).session p).takeToken = some s₁) (hc : s₁.scan = none) :
    (Caller.session base p).callCompound E c rs n =
      ((rs, .error (.ctx .canceled)), n.push (.select none) w) := by
  simp only [Caller.callCompound, hs, ht, hc]

lemma callCompound_leased (hs : E.select n.world = (none, w))
    (ht : ((n.push (.select none) w).session p).takeToken = some s₁)
    (hc : s₁.scan = some (l, s₂))
    (hb : base.callCompound E (wrapCompound (s₂.sequenceArgs l) c) (.sequence {} :: rs)
      ((n.push (.select none) w).setSession p s₂) = (out, n₂)) :
    (Caller.session base p).callCompound E c rs n =
      ((afterBase out).2, n₂.setSession p ((n₂.session p).giveBack l (afterBase out).1)) := by
  simp only [Caller.callCompound, hs, ht, hc, hb]

end SessionCaller

end NfsClient.Nfs4
