import NfsClient.Rpc.Message
import NfsClient.Xdr.Decodes

/-!
# Reply headers

A reply is accepted or denied, and what follows in its header depends on how.  `Reply` is the
header as RFC 5531 defines it, with the fields that it has and no others, and `Reply.encode` is
its wire form.

`DecodeReplyHeader` branches on numbers that it has read, and a number that could not be read is
zero, which selects an arm.  The decoder has latched an error then, and the check at the end of
every arm reports it.
-/

namespace NfsClient.Rpc

open NfsClient.Lib NfsClient.Xdr NfsClient.Xdr.Decoder

/-! ## The wire form -/

/-- The `reply_body` of a reply, up to the results. -/
inductive ReplyBody
  /-- MSG_ACCEPTED, with an `accept_stat` that has no fields. -/
  | accepted (verf : OpaqueAuth) (stat : UInt32) (ne : stat ≠ 2)
  /-- MSG_ACCEPTED and PROG_MISMATCH, with the versions that are supported. -/
  | progMismatch (verf : OpaqueAuth) (low high : UInt32)
  /-- MSG_DENIED and RPC_MISMATCH, with the versions that are supported. -/
  | rpcMismatch (low high : UInt32)
  /-- MSG_DENIED and AUTH_ERROR, with the `auth_stat`. -/
  | authError (stat : UInt32)

/-- The header of a reply. -/
structure Reply where
  xid : UInt32
  body : ReplyBody

/-- An `opaque_auth`. -/
def OpaqueAuth.wire (a : OpaqueAuth) : Bytes := [Wire.uint a.flavor, Wire.opaqueVar a.body].flatten

namespace ReplyBody

/-- The wire form of a `reply_body`. -/
def encode : ReplyBody → Bytes
  | .accepted verf stat _ => [Wire.uint 0, verf.wire, Wire.uint stat].flatten
  | .progMismatch verf low high =>
      [Wire.uint 0, verf.wire, Wire.uint 2, Wire.uint low, Wire.uint high].flatten
  | .rpcMismatch low high => [Wire.uint 1, Wire.uint 0, Wire.uint low, Wire.uint high].flatten
  | .authError stat => [Wire.uint 1, Wire.uint 1, Wire.uint stat].flatten

/-- The fields of a `ReplyHeader` that a `reply_body` fills. -/
def header (xid : UInt32) : ReplyBody → ReplyHeader
  | .accepted verf stat _ => { xid, stat := 0, verf, acceptStat := stat }
  | .progMismatch verf low high => { xid, stat := 0, verf, acceptStat := 2, low, high }
  | .rpcMismatch low high => { xid, stat := 1, rejectStat := 0, low, high }
  | .authError stat => { xid, stat := 1, rejectStat := 1, authStat := stat }

/-- The body of the verifier is within the limit of the decoder. -/
def Within (m : UInt32) : ReplyBody → Prop
  | .accepted verf .. | .progMismatch verf .. => Decoder.Within m verf.body
  | .rpcMismatch .. | .authError .. => True

/-- The reply is accepted with SUCCESS. -/
def IsSuccess : ReplyBody → Prop
  | .accepted _ stat _ => stat = 0
  | _ => False

end ReplyBody

namespace Reply

/-- The wire form of the header of a reply; 1 is REPLY. -/
def encode (x : Reply) : Bytes := [Wire.uint x.xid, Wire.uint 1, x.body.encode].flatten

/-- The header with all its fields. -/
def header (x : Reply) : ReplyHeader := x.body.header x.xid

end Reply

/-! ## The arms -/

section Arms

variable {m : UInt32}

/-- The two versions of a mismatch. -/
def decodeRange (r : UInt32 → UInt32 → ReplyHeader) : Dec (Except Err ReplyHeader) :=
  uint32 >>= fun low => uint32 >>= fun high => checked (r low high)

/-- The arm of an accepted reply. -/
def decodeAccepted (xid : UInt32) : Dec (Except Err ReplyHeader) :=
  decodeOpaqueAuth >>= fun verf => uint32 >>= fun acceptStat =>
    if acceptStat = acceptProgMismatch then
      decodeRange fun low high => { xid, stat := msgAccepted, verf, acceptStat, low, high }
    else checked { xid, stat := msgAccepted, verf, acceptStat }

/-- The arm of a denied reply. -/
def decodeDenied (xid : UInt32) : Dec (Except Err ReplyHeader) :=
  uint32 >>= fun rejectStat =>
    if rejectStat = rejectRPCMismatch then
      decodeRange fun low high => { xid, stat := msgDenied, rejectStat, low, high }
    else if rejectStat = rejectAuthError then
      uint32 >>= fun authStat => checked { xid, stat := msgDenied, rejectStat, authStat }
    else pure (.error (.text ("rpc: unknown reject_stat " ++ toString rejectStat)))

lemma decodeReplyBody_eq (xid : UInt32) :
    decodeReplyBody xid = uint32 >>= fun stat =>
      if stat = msgAccepted then decodeAccepted xid
      else if stat = msgDenied then decodeDenied xid
      else pure (.error (.text ("rpc: unknown reply_stat " ++ toString stat))) := by
  unfold decodeReplyBody decodeAccepted decodeDenied decodeRange
  congr 1
  funext stat
  split
  · next h => rw [h]
  · split
    · next h => rw [h]
    · rfl

lemma keeps_uint32 : Keeps Failed uint32 := (decodes_uint32 (m := 0) 0).keeps

lemma keeps_checked (r : ReplyHeader) : Keeps Failed (checked r) := by
  intro d hd
  unfold checked
  split <;> exact hd

lemma keeps_decodeRange (r : UInt32 → UInt32 → ReplyHeader) : Keeps Failed (decodeRange r) :=
  keeps_uint32.bind fun _ => keeps_uint32.bind fun _ => keeps_checked _

lemma decodes_checked (r : ReplyHeader) : Decodes m (checked r) ([] : List Bytes).flatten (.ok r) :=
  ⟨fun _ => rfl, .nil _, keeps_checked r⟩

lemma decodes_decodeRange (r : UInt32 → UInt32 → ReplyHeader) (low high : UInt32) :
    Decodes m (decodeRange r) [Wire.uint low, Wire.uint high].flatten (.ok (r low high)) := by
  refine (decodes_uint32 low).bind (fun _ => keeps_uint32.bind fun _ => keeps_checked _) ?_
  exact (decodes_uint32 high).bind (fun _ => keeps_checked _) (decodes_checked _)

lemma decodes_decodeOpaqueAuth {a : OpaqueAuth} (h : Decoder.Within m a.body) :
    Decodes m decodeOpaqueAuth a.wire a := by
  have hbody := decodes_varOpaque h
  refine (decodes_uint32 a.flavor).bind (fun _ => hbody.keeps.bind fun _ => .pure _) ?_
  exact hbody.bind (fun _ => .pure _) (.pure _)

lemma keeps_acceptStat (xid : UInt32) (verf : OpaqueAuth) (acceptStat : UInt32) :
    Keeps Failed (if acceptStat = acceptProgMismatch then
        decodeRange fun low high => { xid, stat := msgAccepted, verf, acceptStat, low, high }
      else checked { xid, stat := msgAccepted, verf, acceptStat }) := by
  split
  · exact keeps_decodeRange _
  · exact keeps_checked _

lemma keeps_decodeAccepted (xid : UInt32) : Keeps Failed (decodeAccepted xid) := by
  have hauth : Keeps Failed decodeOpaqueAuth :=
    (decodes_decodeOpaqueAuth (m := 0) (a := {}) (Nat.zero_le _)).keeps
  exact hauth.bind fun verf => keeps_uint32.bind fun stat => keeps_acceptStat xid verf stat

lemma keeps_rejectStat (xid rejectStat : UInt32) :
    Keeps Failed (if rejectStat = rejectRPCMismatch then
        decodeRange fun low high => { xid, stat := msgDenied, rejectStat, low, high }
      else if rejectStat = rejectAuthError then
        uint32 >>= fun authStat => checked { xid, stat := msgDenied, rejectStat, authStat }
      else pure (.error (.text ("rpc: unknown reject_stat " ++ toString rejectStat)))) := by
  split
  · exact keeps_decodeRange _
  · split
    · exact keeps_uint32.bind fun _ => keeps_checked _
    · exact .pure _

lemma keeps_replyStat (xid stat : UInt32) :
    Keeps Failed (if stat = msgAccepted then decodeAccepted xid
      else if stat = msgDenied then decodeDenied xid
      else pure (.error (.text ("rpc: unknown reply_stat " ++ toString stat)))) := by
  split
  · exact keeps_decodeAccepted xid
  · split
    · exact keeps_uint32.bind fun rejectStat => keeps_rejectStat xid rejectStat
    · exact .pure _

/-- Every arm reads the fields that its wire form has. -/
lemma decodes_decodeReplyBody (xid : UInt32) {b : ReplyBody} (hw : b.Within m) :
    Decodes m (decodeReplyBody xid) b.encode (.ok (b.header xid)) := by
  rw [decodeReplyBody_eq]
  cases b with
  | accepted verf stat ne =>
      refine (decodes_uint32 0).bind (keeps_replyStat xid) ?_
      refine (decodes_decodeOpaqueAuth hw).bind
        (fun verf => keeps_uint32.bind fun stat => keeps_acceptStat xid verf stat) ?_
      refine (decodes_uint32 stat).bind (fun stat => keeps_acceptStat xid verf stat) ?_
      rw [if_neg (show stat ≠ acceptProgMismatch from ne)]
      exact decodes_checked _
  | progMismatch verf low high =>
      refine (decodes_uint32 0).bind (keeps_replyStat xid) ?_
      refine (decodes_decodeOpaqueAuth hw).bind
        (fun verf => keeps_uint32.bind fun stat => keeps_acceptStat xid verf stat) ?_
      refine (decodes_uint32 2).bind (fun stat => keeps_acceptStat xid verf stat) ?_
      exact decodes_decodeRange _ low high
  | rpcMismatch low high =>
      refine (decodes_uint32 1).bind (keeps_replyStat xid) ?_
      refine (decodes_uint32 0).bind (keeps_rejectStat xid) ?_
      exact decodes_decodeRange _ low high
  | authError stat =>
      refine (decodes_uint32 1).bind (keeps_replyStat xid) ?_
      refine (decodes_uint32 1).bind (keeps_rejectStat xid) ?_
      exact (decodes_uint32 stat).bind (fun _ => keeps_checked _) (decodes_checked _)

/-- The part of `DecodeReplyHeader` that checks the message type. -/
def decodeTyped (xid mtype : UInt32) : Dec (Except Err ReplyHeader) := fun d =>
  match d.err with
  | some e => (.error e.toErr, d)
  | none =>
    if mtype ≠ msgReply then
      (.error (.text ("rpc: expected REPLY message type, got " ++ toString mtype)), d)
    else decodeReplyBody xid d

lemma decodeReplyHeader_eq :
    decodeReplyHeader = uint32 >>= fun xid => uint32 >>= fun mtype => decodeTyped xid mtype := rfl

lemma keeps_decodeTyped (xid mtype : UInt32) : Keeps Failed (decodeTyped xid mtype) := by
  intro d hd
  obtain ⟨e, he⟩ := Option.isSome_iff_exists.mp hd
  simp only [decodeTyped, he]
  exact hd

lemma decodes_decodeTyped {xid : UInt32} {bs : Bytes} {out : Except Err ReplyHeader}
    (h : Decodes m (decodeReplyBody xid) bs out) : Decodes m (decodeTyped xid msgReply) bs out :=
  ⟨h.reads, h.cuts, keeps_decodeTyped xid msgReply⟩

lemma decodes_decodeReplyHeader {x : Reply} (hw : x.body.Within m) :
    Decodes m decodeReplyHeader x.encode (.ok x.header) := by
  rw [decodeReplyHeader_eq]
  refine (decodes_uint32 x.xid).bind
    (fun _ => keeps_uint32.bind fun _ => keeps_decodeTyped _ _) ?_
  refine (decodes_uint32 1).bind (fun _ => keeps_decodeTyped _ _) ?_
  exact (decodes_decodeTyped (decodes_decodeReplyBody x.xid hw)).single

end Arms

/-! ## Failures are reported -/

/-- An action that leaves a decoder that has failed returns an error. -/
def Reports {α : Type} (x : Dec (Except Err α)) : Prop :=
  ∀ d, Failed (x d).2 → ∃ e, (x d).1 = .error e

lemma Reports.bind {α β : Type} {x : Dec β} {f : β → Dec (Except Err α)}
    (h : ∀ b, Reports (f b)) : Reports (x >>= f) :=
  fun _ => h _ _

lemma Reports.error {α : Type} (e : Err) : Reports (pure (.error e) : Dec (Except Err α)) :=
  fun _ _ => ⟨e, rfl⟩

lemma reports_checked (r : ReplyHeader) : Reports (checked r) := by
  intro d hd
  unfold checked at hd ⊢
  split
  · exact ⟨_, rfl⟩
  · next he =>
      rw [he] at hd
      simp [Failed, he] at hd

lemma reports_decodeReplyBody (xid : UInt32) : Reports (decodeReplyBody xid) := by
  rw [decodeReplyBody_eq]
  refine .bind fun stat => ?_
  split
  · refine .bind fun verf => .bind fun acceptStat => ?_
    split
    · exact .bind fun _ => .bind fun _ => reports_checked _
    · exact reports_checked _
  · split
    · refine .bind fun rejectStat => ?_
      split
      · exact .bind fun _ => .bind fun _ => reports_checked _
      · split
        · exact .bind fun _ => reports_checked _
        · exact .error _
    · exact .error _

lemma reports_decodeReplyHeader : Reports decodeReplyHeader := by
  rw [decodeReplyHeader_eq]
  refine .bind fun xid => .bind fun mtype => ?_
  intro d hd
  unfold decodeTyped at hd ⊢
  split
  · exact ⟨_, rfl⟩
  · next he =>
      rw [he] at hd
      split
      · exact ⟨_, rfl⟩
      · next hm =>
          simp only [hm, if_false] at hd
          exact reports_decodeReplyBody xid d hd

/-! ## The header -/

section Header

variable {m : UInt32}

lemma uint32_run (v : UInt32) (rest : Bytes) :
    uint32 (input m (Wire.uint v ++ rest)) = (v, input m rest) :=
  (decodes_uint32 v).reads rest

/-- The first two fields of any message. -/
lemma decodeReplyHeader_run (xid mtype : UInt32) (rest : Bytes) :
    decodeReplyHeader (input m (Wire.uint xid ++ (Wire.uint mtype ++ rest)))
      = decodeTyped xid mtype (input m rest) := by
  simp only [decodeReplyHeader_eq, bind_run, uint32_run]

/-- The `reply_stat` of a reply selects an arm. -/
lemma decodeTyped_run (xid stat : UInt32) (rest : Bytes) :
    decodeTyped xid 1 (input m (Wire.uint stat ++ rest))
      = (if stat = msgAccepted then decodeAccepted xid
        else if stat = msgDenied then decodeDenied xid
        else pure (.error (.text ("rpc: unknown reply_stat " ++ toString stat))))
          (input m rest) := by
  show decodeReplyBody xid (input m (Wire.uint stat ++ rest)) = _
  simp only [decodeReplyBody_eq, bind_run, uint32_run]

lemma decodeReplyHeader_of_type {mtype : UInt32} (h : mtype ≠ 1) (xid : UInt32) (rest : Bytes) :
    ∃ e, (decodeReplyHeader (input m (Wire.uint xid ++ (Wire.uint mtype ++ rest)))).1
      = .error e := by
  have htype : decodeTyped xid mtype (input m rest) = (.error _, input m rest) :=
    if_pos (show mtype ≠ msgReply from h)
  rw [decodeReplyHeader_run, htype]
  exact ⟨_, rfl⟩

lemma decodeReplyHeader_of_stat {stat : UInt32} (h₀ : stat ≠ 0) (h₁ : stat ≠ 1) (xid : UInt32)
    (rest : Bytes) :
    ∃ e, (decodeReplyHeader (input m
      (Wire.uint xid ++ (Wire.uint 1 ++ (Wire.uint stat ++ rest))))).1 = .error e := by
  rw [decodeReplyHeader_run, decodeTyped_run, if_neg (show stat ≠ msgAccepted from h₀),
    if_neg (show stat ≠ msgDenied from h₁)]
  exact ⟨_, rfl⟩

lemma decodeReplyHeader_of_reject {stat : UInt32} (h₀ : stat ≠ 0) (h₁ : stat ≠ 1) (xid : UInt32)
    (rest : Bytes) :
    ∃ e, (decodeReplyHeader (input m
      (Wire.uint xid ++ (Wire.uint 1 ++ (Wire.uint 1 ++ (Wire.uint stat ++ rest)))))).1
        = .error e := by
  rw [decodeReplyHeader_run, decodeTyped_run]
  show ∃ e, (decodeDenied xid (input m (Wire.uint stat ++ rest))).1 = .error e
  simp only [decodeDenied, bind_run, uint32_run]
  rw [if_neg (show stat ≠ rejectRPCMismatch from h₀), if_neg (show stat ≠ rejectAuthError from h₁)]
  exact ⟨_, rfl⟩

/-! ## What `Error` makes of it -/

lemma error_header_eq_none_iff (xid : UInt32) (b : ReplyBody) :
    (b.header xid).error = none ↔ b.IsSuccess := by
  cases b with
  | accepted verf stat ne =>
      constructor
      · intro h
        exact (ReplyHeader.error_eq_none h).2
      · intro h
        have hs : stat = acceptSuccess := h
        simp [ReplyBody.header, ReplyHeader.error, msgAccepted, hs]
  | progMismatch verf low high | rpcMismatch low high | authError stat =>
      constructor
      · intro h
        cases h
      · exact False.elim

lemma error_header_eq_authError_iff (xid : UInt32) (b : ReplyBody) (s : UInt32) :
    (b.header xid).error = some (.authError s) ↔ b = .authError s := by
  cases b with
  | accepted verf stat ne =>
      constructor
      · intro h
        have hne : stat ≠ acceptProgMismatch := ne
        by_cases hs : stat = acceptSuccess
        · simp [ReplyBody.header, ReplyHeader.error, msgAccepted, hs] at h
        · simp [ReplyBody.header, ReplyHeader.error, msgAccepted, hs, hne] at h
      · intro h
        cases h
  | progMismatch verf low high | rpcMismatch low high =>
      constructor <;> (intro h; cases h)
  | authError stat =>
      constructor
      · intro h
        cases h
        rfl
      · intro h
        cases h
        rfl

/-- **Reply headers are parsed as RFC 5531 defines them.**  On the header of a reply and any
results behind it, `DecodeReplyHeader` recovers all the fields and stops just before the results.
`Error` is nil on them exactly for an accepted SUCCESS reply, and it is an `*AuthError` with a
certain `auth_stat` exactly for a reply that is denied with it.  A header that is cut off, a
message type other than REPLY, a `reply_stat` and a `reject_stat` that are not known are
errors. -/
theorem decodeReplyHeader_exact (m : UInt32) :
    (∀ x : Reply, x.body.Within m →
      (∀ results, decodeReplyHeader { r := x.encode ++ results, maxLen := m }
          = (.ok x.header, { r := results, maxLen := m, err := none })) ∧
        (x.header.error = none ↔ x.body.IsSuccess) ∧
        (∀ s, x.header.error = some (.authError s) ↔ x.body = .authError s) ∧
        ∀ pre, pre <+: x.encode → pre ≠ x.encode →
          ∃ e, (decodeReplyHeader { r := pre, maxLen := m }).1 = .error e) ∧
      (∀ xid mtype rest, mtype ≠ 1 →
        ∃ e, (decodeReplyHeader
          { r := Wire.uint xid ++ (Wire.uint mtype ++ rest), maxLen := m }).1 = .error e) ∧
      (∀ xid stat rest, stat ≠ 0 → stat ≠ 1 →
        ∃ e, (decodeReplyHeader
          { r := Wire.uint xid ++ (Wire.uint 1 ++ (Wire.uint stat ++ rest)),
            maxLen := m }).1 = .error e) ∧
      ∀ xid stat rest, stat ≠ 0 → stat ≠ 1 →
        ∃ e, (decodeReplyHeader
          { r := Wire.uint xid ++ (Wire.uint 1 ++ (Wire.uint 1 ++ (Wire.uint stat ++ rest))),
            maxLen := m }).1 = .error e := by
  refine ⟨fun x hw => ?_, fun xid mtype rest h => decodeReplyHeader_of_type h xid rest,
    fun xid stat rest h₀ h₁ => decodeReplyHeader_of_stat h₀ h₁ xid rest,
    fun xid stat rest h₀ h₁ => decodeReplyHeader_of_reject h₀ h₁ xid rest⟩
  obtain ⟨hreads, hcuts, -⟩ := decodes_decodeReplyHeader hw
  refine ⟨hreads, error_header_eq_none_iff _ _, error_header_eq_authError_iff _ _, ?_⟩
  intro pre hp hne
  exact reports_decodeReplyHeader _ (hcuts pre hp hne)

end Header

/-- A reply with a verifier of one byte, from a server that supports the versions 2 to 3. -/
def mismatchReply : Reply := ⟨7, .progMismatch ⟨6, [9]⟩ 2 3⟩

theorem decodeReplyHeader_exact_mismatch :
    mismatchReply.body.Within 4 ∧
      decodeReplyHeader { r := mismatchReply.encode ++ [1], maxLen := 4 }
        = (.ok mismatchReply.header, { r := [1], maxLen := 4, err := none }) := by
  have hw : mismatchReply.body.Within 4 := by
    show 1 ≤ (input 4 []).effMaxLen.toNat
    decide
  exact ⟨hw, ((decodeReplyHeader_exact 4).1 mismatchReply hw).1 [1]⟩

/-- A reply that is cut behind the `reply_stat` reads as accepted with SUCCESS, but for the
error that the decoder has latched. -/
example : (decodeReplyHeader (newDecoder (Wire.uint 7 ++ Wire.uint 1 ++ Wire.uint 0))).1
    = .error .eof := by
  decide

end NfsClient.Rpc
