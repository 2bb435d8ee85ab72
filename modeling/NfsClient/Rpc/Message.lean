import NfsClient.Xdr.Encoder

/-!
# RPC messages

The header of a call, which precedes the arguments of the procedure, and the header of a
reply, which precedes its results.  `DecodeReplyHeader` stops just before the results, and
`ReplyHeader.Error` is nil exactly for an accepted SUCCESS reply.
-/

namespace NfsClient.Rpc

open NfsClient.Xdr NfsClient.Xdr.Decoder

def rpcVersion : UInt32 := 2

def msgCall : UInt32 := 0
def msgReply : UInt32 := 1

def msgAccepted : UInt32 := 0
def msgDenied : UInt32 := 1

def acceptSuccess : UInt32 := 0
def acceptProgMismatch : UInt32 := 2

def rejectRPCMismatch : UInt32 := 0
def rejectAuthError : UInt32 := 1

/-- `OpaqueAuth`: an authentication flavor and a body. -/
structure OpaqueAuth where
  flavor : UInt32 := 0
  body : Bytes := []
deriving DecidableEq

/-- `OpaqueAuth.Encode`. -/
def OpaqueAuth.encode (a : OpaqueAuth) : Bytes :=
  [Encoder.uint32 a.flavor, Encoder.varOpaque a.body].flatten

/-- `DecodeOpaqueAuth`. -/
def decodeOpaqueAuth : Dec OpaqueAuth := do
  let flavor ← uint32
  let body ← varOpaque
  return { flavor, body := body.getD [] }

/-- `CallHeader`: the transaction id and the fields of the call body. -/
structure CallHeader where
  xid : UInt32
  prog : UInt32
  vers : UInt32
  proc : UInt32
  cred : OpaqueAuth
  verf : OpaqueAuth
deriving DecidableEq

/-- `CallHeader.Encode`. -/
def CallHeader.encode (h : CallHeader) : Bytes :=
  [Encoder.uint32 h.xid, Encoder.uint32 msgCall, Encoder.uint32 rpcVersion,
    Encoder.uint32 h.prog, Encoder.uint32 h.vers, Encoder.uint32 h.proc, h.cred.encode,
    h.verf.encode].flatten

/-- `ReplyHeader`: the transaction id, the `reply_stat`, and the fields of an accepted and of
a denied reply. -/
structure ReplyHeader where
  xid : UInt32 := 0
  stat : UInt32 := 0
  verf : OpaqueAuth := {}
  acceptStat : UInt32 := 0
  low : UInt32 := 0
  high : UInt32 := 0
  rejectStat : UInt32 := 0
  authStat : UInt32 := 0
deriving DecidableEq

/-- The check at the end of `DecodeReplyHeader`. -/
def checked (r : ReplyHeader) : Dec (Except Err ReplyHeader) := fun d =>
  match d.err with
  | some e => (.error e.toErr, d)
  | none => (.ok r, d)

/-- The part of `DecodeReplyHeader` that follows the message type. -/
def decodeReplyBody (xid : UInt32) : Dec (Except Err ReplyHeader) := do
  let stat ← uint32
  if stat = msgAccepted then
    let verf ← decodeOpaqueAuth
    let acceptStat ← uint32
    if acceptStat = acceptProgMismatch then
      let low ← uint32
      let high ← uint32
      checked { xid, stat, verf, acceptStat, low, high }
    else checked { xid, stat, verf, acceptStat }
  else if stat = msgDenied then
    let rejectStat ← uint32
    if rejectStat = rejectRPCMismatch then
      let low ← uint32
      let high ← uint32
      checked { xid, stat, rejectStat, low, high }
    else if rejectStat = rejectAuthError then
      let authStat ← uint32
      checked { xid, stat, rejectStat, authStat }
    -- an unknown arm is reported as such even if the decoder has failed
    else return .error (.text ("rpc: unknown reject_stat " ++ toString rejectStat))
  else return .error (.text ("rpc: unknown reply_stat " ++ toString stat))

/-- `DecodeReplyHeader` decodes the header of a reply, stopping just before the results. -/
def decodeReplyHeader : Dec (Except Err ReplyHeader) := do
  let xid ← uint32
  let mtype ← uint32
  fun d =>
    match d.err with
    | some e => (.error e.toErr, d)
    | none =>
      if mtype ≠ msgReply then
        (.error (.text ("rpc: expected REPLY message type, got " ++ toString mtype)), d)
      else decodeReplyBody xid d

/-- `ReplyHeader.Error`: nil for an accepted SUCCESS reply. -/
def ReplyHeader.error (r : ReplyHeader) : Option Err :=
  if r.stat = msgAccepted then
    if r.acceptStat = acceptSuccess then none
    else if r.acceptStat = acceptProgMismatch then
      some (.text ("rpc: program version mismatch (low=" ++ toString r.low ++ " high="
        ++ toString r.high ++ ")"))
    else some (.text ("rpc: call rejected with accept_stat " ++ toString r.acceptStat))
  else if r.stat = msgDenied then
    if r.rejectStat = rejectRPCMismatch then
      some (.text ("rpc: RPC version mismatch (low=" ++ toString r.low ++ " high="
        ++ toString r.high ++ ")"))
    else if r.rejectStat = rejectAuthError then some (.authError r.authStat)
    else some (.text ("rpc: denied with reject_stat " ++ toString r.rejectStat))
  else some (.text ("rpc: unknown reply_stat " ++ toString r.stat))

lemma ReplyHeader.error_eq_none {r : ReplyHeader} (h : r.error = none) :
    r.stat = msgAccepted ∧ r.acceptStat = acceptSuccess := by
  unfold ReplyHeader.error at h
  by_cases hs : r.stat = msgAccepted
  · by_cases ha : r.acceptStat = acceptSuccess
    · exact ⟨hs, ha⟩
    · simp only [hs, if_true, ha, if_false] at h
      split at h <;> simp at h
  · simp only [hs, if_false] at h
    split at h
    · split at h
      · simp at h
      · split at h <;> simp at h
    · simp at h

/-! ## What the header leaves -/

/-- The action leaves an end of its input. -/
def Leaves {α : Type} (x : Dec α) : Prop := ∀ d, (x d).2.r <:+ d.r

section Leaves

variable {α β : Type}

lemma Leaves.pure (a : α) : Leaves (pure a : Dec α) := fun _ => List.suffix_refl _

lemma Leaves.bind {x : Dec α} {f : α → Dec β} (hx : Leaves x) (hf : ∀ a, Leaves (f a)) :
    Leaves (x >>= f) := fun d => (hf _ _).trans (hx d)

lemma leaves_read (n : ℕ) : Leaves (Decoder.read n) := by
  intro d
  unfold Decoder.read
  split
  · exact List.suffix_refl _
  · split
    · exact List.drop_suffix _ _
    · exact List.nil_suffix

lemma leaves_discard (n : ℕ) : Leaves (Decoder.discard n) := by
  intro d
  unfold Decoder.discard
  split
  · exact List.suffix_refl _
  · exact leaves_read n d

lemma leaves_uint32 : Leaves uint32 := by
  intro d
  have h := leaves_read 4 d
  unfold uint32
  generalize Decoder.read 4 d = o at h ⊢
  obtain ⟨p, d₁⟩ := o
  dsimp only
  split <;> exact h

lemma leaves_body (n : ℕ) : Leaves (body n) := by
  intro d
  have hread := leaves_read n d
  unfold body
  generalize Decoder.read n d = o at hread ⊢
  obtain ⟨p, d₁⟩ := o
  have hpad := (leaves_discard (pad4 n) d₁).trans hread
  dsimp only
  generalize Decoder.discard (pad4 n) d₁ = o₂ at hpad ⊢
  obtain ⟨u, d₂⟩ := o₂
  dsimp only
  split
  · exact hread
  · split <;> exact hpad

lemma leaves_varOpaque : Leaves varOpaque := by
  intro d
  have hlen := leaves_uint32 d
  unfold varOpaque
  generalize uint32 d = o at hlen ⊢
  obtain ⟨n, d₁⟩ := o
  dsimp only
  split
  · exact hlen
  · split
    · exact hlen
    · exact (leaves_body n.toNat d₁).trans hlen

lemma leaves_decodeOpaqueAuth : Leaves decodeOpaqueAuth :=
  leaves_uint32.bind fun _ => leaves_varOpaque.bind fun _ => .pure _

lemma leaves_checked (r : ReplyHeader) : Leaves (checked r) := by
  intro d
  unfold checked
  split <;> exact List.suffix_refl _

lemma leaves_decodeReplyBody (xid : UInt32) : Leaves (decodeReplyBody xid) := by
  refine leaves_uint32.bind fun stat => ?_
  split
  · refine leaves_decodeOpaqueAuth.bind fun verf => leaves_uint32.bind fun acceptStat => ?_
    split
    · exact leaves_uint32.bind fun _ => leaves_uint32.bind fun _ => leaves_checked _
    · exact leaves_checked _
  · split
    · refine leaves_uint32.bind fun rejectStat => ?_
      split
      · exact leaves_uint32.bind fun _ => leaves_uint32.bind fun _ => leaves_checked _
      · split
        · exact leaves_uint32.bind fun _ => leaves_checked _
        · exact .pure _
    · exact .pure _

/-- What follows the header is an end of the record. -/
lemma leaves_decodeReplyHeader : Leaves decodeReplyHeader := by
  refine leaves_uint32.bind fun xid => leaves_uint32.bind fun mtype => ?_
  intro d
  dsimp only
  split
  · exact List.suffix_refl _
  · split
    · exact List.suffix_refl _
    · exact leaves_decodeReplyBody xid d

end Leaves

end NfsClient.Rpc
