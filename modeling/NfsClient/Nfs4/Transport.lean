import NfsClient.Nfs4.MethodSpec
import NfsClient.Nfs4.Replay
import NfsClient.Nfs4.RequestFormat
import NfsClient.Nfs4.RequestSize
import NfsClient.Rpc.CallFormat
import NfsClient.Rpc.ReplyHeader

/-!
# Compounds over a byte stream

The callers take the transport for a function from compounds to the bodies of replies.  Below
that, `RPCCaller` encodes the compound as the arguments of an RPC call, the call goes out as a
record with a header and a credential, and what comes back is a record that holds a reply header
and the body.

An `Endpoint` is a server on the other end of the stream.  It reads the record, parses the header,
the credential and the compound by the grammars of the standards, has an environment at the level
of compounds answer it, and sends the answer behind a reply header with any verifier, cut into
fragments in any way.  A run of methods over the wire is then, result by result, the run in the
environment of the endpoint.
-/

namespace NfsClient.Nfs4

open NfsClient.Lib NfsClient.Xdr

variable {W : Type}

/-! ## `RPCCaller` -/

/-- `RPCCaller.CallCompound`: `DecodeCompound` runs inside of `Call`, and an error of `Call` comes
before one of `DecodeCompound`. -/
def rpcCallCompound (cli : Rpc.Client) (c : Compound) (results : List Res) (fate : Rpc.Fate) :
    Outcome × Rpc.Client :=
  match cli.call { c.invocation with decodeRes := some do let _ ← decodeCompound results } fate with
  | (t, cli') =>
    match t.decoded with
    -- `Call` has failed before it came to the results
    | none => ((results, .error (t.err.getD (.text ""))), cli')
    | some d =>
      match (decodeCompound results d).1 with
      | (results', out) => ((results', t.err.elim out .error), cli')

/-- What the call yields apart from the results: the body of the reply, or the error. -/
def transportReply (cli : Rpc.Client) (c : Compound) (fate : Rpc.Fate) :
    Except Err Bytes × Rpc.Client :=
  match cli.call { c.invocation with decodeRes := some (pure ()) } fate with
  | (t, cli') => (t.err.elim (.ok (t.decoded.elim [] Decoder.r)) .error, cli')

section KeepsLimit

/-- The action does not touch `MaxLen`. -/
abbrev KeepsLimit {α : Type} (x : Dec α) : Prop := Keeps (fun d => d.maxLen = 0) x

lemma keepsLimit_read (n : ℕ) : KeepsLimit (Decoder.read n) := by
  intro d hd
  unfold Decoder.read
  split
  · exact hd
  · split <;> exact hd

lemma keepsLimit_discard (n : ℕ) : KeepsLimit (Decoder.discard n) := by
  intro d hd
  unfold Decoder.discard
  split
  · exact hd
  · exact keepsLimit_read n d hd

lemma keepsLimit_uint32 : KeepsLimit Decoder.uint32 := by
  intro d hd
  have h := keepsLimit_read 4 d hd
  unfold Decoder.uint32
  generalize Decoder.read 4 d = o at h ⊢
  obtain ⟨p, d₁⟩ := o
  dsimp only
  split <;> exact h

lemma keepsLimit_body (n : ℕ) : KeepsLimit (Decoder.body n) := by
  intro d hd
  have hread := keepsLimit_read n d hd
  unfold Decoder.body
  generalize Decoder.read n d = o at hread ⊢
  obtain ⟨p, d₁⟩ := o
  have hpad := keepsLimit_discard (pad4 n) d₁ hread
  dsimp only
  generalize Decoder.discard (pad4 n) d₁ = o₂ at hpad ⊢
  obtain ⟨u, d₂⟩ := o₂
  dsimp only
  split
  · exact hread
  · split <;> exact hpad

lemma keepsLimit_varOpaque : KeepsLimit Decoder.varOpaque := by
  intro d hd
  have hlen := keepsLimit_uint32 d hd
  unfold Decoder.varOpaque
  generalize Decoder.uint32 d = o at hlen ⊢
  obtain ⟨n, d₁⟩ := o
  dsimp only
  split
  · exact hlen
  · split
    · exact hlen
    · exact keepsLimit_body _ _ hlen

lemma keepsLimit_checked (r : Rpc.ReplyHeader) : KeepsLimit (Rpc.checked r) := by
  intro d hd
  unfold Rpc.checked
  split <;> exact hd

lemma keepsLimit_decodeOpaqueAuth : KeepsLimit Rpc.decodeOpaqueAuth :=
  keepsLimit_uint32.bind fun _ => keepsLimit_varOpaque.bind fun _ => .pure _

lemma keepsLimit_decodeReplyBody (xid : UInt32) : KeepsLimit (Rpc.decodeReplyBody xid) := by
  have hrange : ∀ r, KeepsLimit (Rpc.decodeRange r) := fun r =>
    keepsLimit_uint32.bind fun _ => keepsLimit_uint32.bind fun _ => keepsLimit_checked _
  rw [Rpc.decodeReplyBody_eq]
  refine keepsLimit_uint32.bind fun stat => ?_
  split
  · refine keepsLimit_decodeOpaqueAuth.bind fun verf => keepsLimit_uint32.bind fun acceptStat => ?_
    split
    · exact hrange _
    · exact keepsLimit_checked _
  · split
    · refine keepsLimit_uint32.bind fun rejectStat => ?_
      split
      · exact hrange _
      · split
        · exact keepsLimit_uint32.bind fun _ => keepsLimit_checked _
        · exact .pure _
    · exact .pure _

lemma keepsLimit_decodeReplyHeader : KeepsLimit Rpc.decodeReplyHeader := by
  rw [Rpc.decodeReplyHeader_eq]
  refine keepsLimit_uint32.bind fun xid => keepsLimit_uint32.bind fun mtype => ?_
  intro d hd
  unfold Rpc.decodeTyped
  split
  · exact hd
  · split
    · exact hd
    · exact keepsLimit_decodeReplyBody xid d hd

end KeepsLimit

/-- Behind a header that is decoded without an error, the decoder is as new. -/
lemma decoder_of_header {reply : Bytes} {hdr : Rpc.ReplyHeader} {d : Decoder}
    (h : Rpc.decodeReplyHeader (newDecoder reply) = (.ok hdr, d)) : d = newDecoder d.r := by
  have hlimit := keepsLimit_decodeReplyHeader (newDecoder reply) rfl
  have hreports := Rpc.reports_decodeReplyHeader (newDecoder reply)
  rw [h] at hlimit hreports
  have herr : d.err = none := by
    by_contra hne
    obtain ⟨e, he⟩ := hreports (Option.isSome_iff_ne_none.mpr hne)
    simp at he
  obtain ⟨r, maxLen, err⟩ := d
  simp only at hlimit herr
  subst hlimit herr
  rfl

/-- What a call reports when the results are decoded by `f` from this body, or when it fails with
this error before it comes to the results. -/
def reported (f : Dec Unit) : Except Err Bytes → Option Decoder × Option Err
  | .error e => (none, some e)
  | .ok b => (some (newDecoder b),
      (f (newDecoder b)).2.err.map fun e => .wrap "rpc: decoding result" e.toErr)

lemma decodeReply_reported (xid : UInt32) (record : Bytes) :
    ∃ reply, ∀ f, Rpc.decodeReply xid record (some f) = reported f reply := by
  unfold Rpc.decodeReply
  rcases hhdr : Rpc.decodeReplyHeader (newDecoder record) with ⟨e | hdr, d⟩
  · exact ⟨.error _, fun _ => rfl⟩
  · by_cases hx : hdr.xid ≠ xid
    · exact ⟨.error _, fun _ => if_pos hx⟩
    · rcases herr : hdr.error with _ | e
      · refine ⟨.ok d.r, fun f => ?_⟩
        simp only [reported, ← decoder_of_header hhdr, hx, if_false, herr]
        cases (f d).2.err <;> rfl
      · exact ⟨.error e, fun f => by simp only [hx, if_false, herr]; rfl⟩

/-- What a call yields does not depend on how the results are decoded. -/
lemma call_reported (cli : Rpc.Client) (i : Rpc.Invocation) (fate : Rpc.Fate) :
    ∃ reply cli', ∀ f, ∃ t, cli.call { i with decodeRes := some f } fate = (t, cli') ∧
      (t.decoded, t.err) = reported f reply := by
  cases fate with
  | done e => exact ⟨.error _, _, fun _ => ⟨_, rfl, rfl⟩⟩
  | cancelled e => exact ⟨.error _, _, fun _ => ⟨_, rfl, rfl⟩⟩
  | writeFails e => exact ⟨.error _, _, fun _ => ⟨_, rfl, rfl⟩⟩
  | arrives bytes =>
      simp only [Rpc.Client.call, Rpc.Client.roundTrip]
      -- the request does not depend on `decodeRes` either
      have hpayload : ∀ (c : Rpc.Client) xid f,
          c.payload xid { i with decodeRes := some f } = c.payload xid i := fun _ _ _ => rfl
      simp only [hpayload]
      rcases (if cli.closed = true then .error (Err.text "use of closed network connection")
        else Rpc.writeRecord _ : Except Err Bytes) with e | request
      · exact ⟨.error _, _, fun _ => ⟨_, rfl, rfl⟩⟩
      · rcases Rpc.readRecord (cli.unread ++ bytes) with ⟨e | record, rest⟩
        · exact ⟨.error _, _, fun _ => ⟨_, rfl, rfl⟩⟩
        · obtain ⟨reply, hreply⟩ := decodeReply_reported (Rpc.allocXID cli.nextID) record
          exact ⟨reply, _, fun f => ⟨_, rfl, hreply f⟩⟩

lemma transportReply_eq {cli cli' : Rpc.Client} {c : Compound} {fate : Rpc.Fate}
    {reply : Except Err Bytes}
    (h : ∀ f, ∃ t, cli.call { c.invocation with decodeRes := some f } fate = (t, cli') ∧
      (t.decoded, t.err) = reported f reply) : transportReply cli c fate = (reply, cli') := by
  obtain ⟨t, ht, hrep⟩ := h (pure ())
  simp only [transportReply, ht]
  cases reply with
  | error e =>
      obtain ⟨hdec, herr⟩ := Prod.mk.inj hrep
      rw [herr]
      rfl
  | ok b =>
      obtain ⟨hdec, herr⟩ := Prod.mk.inj hrep
      rw [hdec, show t.err = none from herr]
      rfl

/-- **`RPCCaller` decodes the body of the reply.**  Whatever the context and the transport do
during the call, and whatever the results are to be decoded into, `CallCompound` makes the same of
them as `decodeReply` makes of the body of the reply, or of the error of the call. -/
theorem rpcCallCompound_eq (cli : Rpc.Client) (c : Compound) (results : List Res)
    (fate : Rpc.Fate) :
    rpcCallCompound cli c results fate
      = (decodeReply results (transportReply cli c fate).1, (transportReply cli c fate).2) := by
  obtain ⟨reply, cli', hcall⟩ := call_reported cli c.invocation fate
  rw [transportReply_eq hcall]
  obtain ⟨t, ht, hrep⟩ := hcall do let _ ← decodeCompound results
  simp only [rpcCallCompound, ht]
  cases reply with
  | error e =>
      obtain ⟨hdec, herr⟩ := Prod.mk.inj hrep
      rw [hdec, herr]
      rfl
  | ok b =>
      obtain ⟨hdec, herr⟩ := Prod.mk.inj hrep
      have herr' : t.err = (decodeCompound results (newDecoder b)).2.err.map fun e =>
        .wrap "rpc: decoding result" e.toErr := herr
      simp only [hdec, herr', decodeReply]
      rcases decodeCompound results (newDecoder b) with ⟨⟨rs, out⟩, d⟩
      simp only [checkDecoder]
      cases d.err <;> rfl

/-! ## The other end of the stream -/

/-- A server's end of the stream: whom it serves, and how it sends a reply. -/
structure Endpoint where
  admits : Rpc.Principal → Bool
  /-- The verifier of its replies. -/
  verf : Rpc.OpaqueAuth
  /-- The fragments in which a reply is sent. -/
  cut : Bytes → Rpc.Cut
  verf_le : verf.body.length ≤ 400
  message_cut : ∀ {m}, m.length ≤ Rpc.maxMessageSize → (cut m).message = m

namespace Endpoint

variable (ep : Endpoint)

/-- The call in a message: its transaction id and the compound. -/
def parseCall (msg : Bytes) : Option (UInt32 × Compound) := do
  let (h, args) ← Rpc.Grammar.callHeader msg
  let p ← Rpc.Grammar.principal h.cred
  let (c, rest) ← Grammar.compound args
  if h.prog = 100003 ∧ h.vers = 4 ∧ h.proc = 1 ∧ ep.admits p = true ∧ rest = [] then
    some (h.xid, c)
  else none

/-- The reply that carries a body. -/
def reply (xid : UInt32) (b : Bytes) : Bytes :=
  Rpc.Reply.encode { xid, body := .accepted ep.verf 0 (by decide) } ++ b

/-- What the endpoint sends when it has received these bytes: nothing, if they are not a call that
it serves. -/
def serve (E : Env W) (stream : Bytes) (w : W) : Bytes × W :=
  match Rpc.readRecord stream with
  | (.error _, _) => ([], w)
  | (.ok msg, _) =>
    match ep.parseCall msg with
    | none => ([], w)
    | some (xid, c) =>
      match E.base c w with
      | (.error _, w') => ([], w')
      | (.ok b, w') => ((ep.cut (ep.reply xid b)).record, w')

/-- What arrives at the client when it calls with this compound. -/
def exchange (E : Env W) (cli : Rpc.Client) (c : Compound) (w : W) : Bytes × W :=
  if cli.closed then ([], w)
  else match Rpc.writeRecord (cli.payload (Rpc.allocXID cli.nextID) c.invocation) with
    | .error _ => ([], w)
    | .ok request => ep.serve E request w

/-- The environment of a client whose compounds go over the stream. -/
def wire (E : Env W) : Env (Rpc.Client × W) where
  ctxErr | (cli, w) => match E.ctxErr w with
    | (e, w') => (e, cli, w')
  select | (cli, w) => match E.select w with
    | (e, w') => (e, cli, w')
  sleep d | (cli, w) => match E.sleep d w with
    | (e, w') => (e, cli, w')
  base c | (cli, w) => match ep.exchange E cli c w with
    | (bytes, w') => match transportReply cli c (.arrives bytes) with
      | (reply, cli') => (reply, cli', w')
  rand | (cli, w) => match E.rand w with
    | (v, w') => (v, cli, w')
  hostname | (cli, w) => match E.hostname w with
    | (v, w') => (v, cli, w')

/-- The base caller of the client is `RPCCaller` on what the endpoint sends. -/
lemma callCompound_wire (E : Env W) (c : Compound) (rs : List Res) (n : Net (Rpc.Client × W)) :
    (Caller.rpc.callCompound (ep.wire E) c rs n).1
      = (rpcCallCompound n.world.1 c rs (.arrives (ep.exchange E n.world.1 c n.world.2).1)).1 := by
  rw [rpcCallCompound_eq]
  rfl

end Endpoint

/-- The client is open and in step with the stream, and calls as `p`. -/
structure InStep (p : Rpc.Principal) (cli : Rpc.Client) : Prop where
  closed : cli.closed = false
  unread : cli.unread = []
  cred : cli.opts.cred = p.opaqueAuth
  verf : cli.opts.verf = Rpc.authNull

section Exchange

variable {ep : Endpoint} {E : Env W} {p : Rpc.Principal} {cli : Rpc.Client}

/-- The endpoint reads the call from the request. -/
lemma parseCall_payload (hp : p.Fits) (hadm : ep.admits p = true) (hcli : InStep p cli)
    (xid : UInt32) {c : Compound} (hc : c.Fits) :
    ep.parseCall (cli.payload xid c.invocation) = some (xid, c.normal) := by
  have hcred : cli.opts.cred.body.length ≤ 400 := by
    rw [hcli.cred]
    exact Rpc.Grammar.length_opaqueAuth_le hp
  have hverf : cli.opts.verf.body.length ≤ 400 := by
    rw [hcli.verf]
    exact Nat.zero_le _
  have hheader := Rpc.Grammar.parses_callHeader
    (h := ⟨xid, program, version4, procCompound, cli.opts.cred, cli.opts.verf⟩) hcred hverf c.encode
  have hprincipal : Rpc.Grammar.principal cli.opts.cred = some p := by
    rw [hcli.cred]
    exact Rpc.Grammar.principal_opaqueAuth hp
  have hbody : Grammar.compound c.encode = some (c.normal, []) := by
    have := parses_compound hc []
    simpa using this
  have hread : Rpc.Grammar.callHeader (cli.payload xid c.invocation)
      = some (⟨xid, program, version4, procCompound, cli.opts.cred, cli.opts.verf⟩, c.encode) :=
    hheader
  simp only [Endpoint.parseCall, hread, hprincipal, hbody, Option.bind_eq_bind, Option.bind_some]
  exact if_pos ⟨rfl, rfl, rfl, hadm, trivial⟩

/-- The length of what precedes the body in a reply. -/
def Endpoint.overhead (ep : Endpoint) : ℕ := 24 + Encoder.padded ep.verf.body.length

lemma Endpoint.length_reply (ep : Endpoint) (xid : UInt32) (b : Bytes) :
    (ep.reply xid b).length = ep.overhead + b.length := by
  simp only [Endpoint.reply, Rpc.Reply.encode, Rpc.ReplyBody.encode, Rpc.OpaqueAuth.wire,
    ← Encoder.varOpaque_eq, List.flatten_cons, List.flatten_nil, List.length_append,
    Wire.length_uint, Encoder.length_varOpaque, List.length_nil, Endpoint.overhead]
  omega

/-- The client takes the body out of the reply. -/
lemma decodeReply_reply (ep : Endpoint) (xid : UInt32) (b : Bytes) :
    ∀ f, Rpc.decodeReply xid (ep.reply xid b) (some f) = reported f (.ok b) := by
  have hwithin : Decoder.Within 0 ep.verf.body := by
    have hlimit : (input 0 []).effMaxLen.toNat = 67108864 := rfl
    have := ep.verf_le
    unfold Decoder.Within
    omega
  have hhdr : Rpc.decodeReplyHeader (newDecoder (ep.reply xid b)) = (.ok _, newDecoder b) :=
    (Rpc.decodes_decodeReplyHeader (x := ⟨xid, .accepted ep.verf 0 (by decide)⟩) hwithin).reads b
  intro f
  simp only [Rpc.decodeReply, hhdr, Rpc.Reply.header, Rpc.ReplyBody.header, ne_eq, not_true,
    if_false]
  have herr : (Rpc.ReplyBody.header xid (.accepted ep.verf 0 (by decide))).error = none := rfl
  simp only [Rpc.ReplyBody.header] at herr
  rw [herr]
  simp only [reported]
  cases (f (newDecoder b)).2.err <;> rfl

/-- A call on an open connection that finds a record. -/
lemma roundTrip_of_record (cli : Rpc.Client) (i : Rpc.Invocation) {xid : UInt32}
    {bytes record rest : Bytes}
    (hopen : cli.closed = false) (hfits : (cli.payload xid i).length ≤ Rpc.maxFragmentSize)
    (hread : Rpc.readRecord (cli.unread ++ bytes) = (.ok record, rest)) {decoded : Option Decoder}
    {err : Option Err} (hdec : Rpc.decodeReply xid record i.decodeRes = (decoded, err)) :
    cli.roundTrip xid i bytes
      = ({ xid := some xid, request := some (cli.payload xid i), reply := some record, decoded,
           err }, { cli with unread := rest }) := by
  simp only [Rpc.Client.roundTrip, hopen, Bool.false_eq_true, if_false, Rpc.writeRecord_eq hfits,
    hread, hdec]

/-- **One call over the wire.**  The endpoint answers the compound that the client sent, and the
client gets the body of the answer.  Both ends are in step afterwards. -/
lemma base_wire (hp : p.Fits) (hadm : ep.admits p = true) (hcli : InStep p cli) {c : Compound}
    {b : Bytes} {w w' : W} (hc : c.Fits) (hsize : requestSize cli c ≤ Rpc.maxFragmentSize)
    (hbase : E.base c.normal w = (.ok b, w')) (hb : ep.overhead + b.length ≤ Rpc.maxMessageSize) :
    (ep.wire E).base c (cli, w)
      = (.ok b, { cli with nextID := Rpc.allocXID cli.nextID, unread := [] }, w') := by
  set xid := Rpc.allocXID cli.nextID with hxid
  have hfits : (cli.payload xid c.invocation).length ≤ Rpc.maxFragmentSize := hsize
  have hexchange : ep.exchange E cli c w = ((ep.cut (ep.reply xid b)).record, w') := by
    have hrecord := Rpc.readRecord_record (Rpc.singleFragment _ hfits) []
    rw [List.append_nil] at hrecord
    have hserve : ep.serve E (Rpc.singleFragment _ hfits).record w
        = ((ep.cut (ep.reply xid b)).record, w') := by
      have hparse : ep.parseCall (Rpc.singleFragment _ hfits).message = _ :=
        parseCall_payload hp hadm hcli xid hc
      simp only [Endpoint.serve, hrecord, hparse, hbase]
    simp only [Endpoint.exchange, hcli.closed, Bool.false_eq_true, if_false, ← hxid,
      Rpc.writeRecord_eq hfits, hserve]
  have hcall : transportReply cli c (.arrives (ep.cut (ep.reply xid b)).record)
      = (.ok b, { cli with nextID := xid, unread := [] }) := by
    have hreply := Rpc.readRecord_record (ep.cut (ep.reply xid b)) []
    rw [List.append_nil, ep.message_cut (by rw [ep.length_reply]; exact hb)] at hreply
    have hread : Rpc.readRecord (cli.unread ++ (ep.cut (ep.reply xid b)).record)
        = (.ok (ep.reply xid b), []) := by rw [hcli.unread]; exact hreply
    refine transportReply_eq fun f => ?_
    have hround := roundTrip_of_record { cli with nextID := xid }
      { c.invocation with decodeRes := some f } hcli.closed hfits hread
      (decodeReply_reply ep xid b f)
    exact ⟨_, hround, rfl⟩
  simp only [Endpoint.wire, hexchange, hcall]

lemma InStep.next (hcli : InStep p cli) (xid : UInt32) :
    InStep p { cli with nextID := xid, unread := [] } :=
  ⟨hcli.closed, rfl, hcli.cred, hcli.verf⟩

/-! ## Runs -/

/-- The exchange that an event records can be carried by the stream. -/
def Event.Carried (ep : Endpoint) (opts : Rpc.ClientOptions) : Event → Prop
  | .call c (.ok b) => c.Fits ∧
      Nfs4.requestSize { opts, nextID := 0 } c ≤ Rpc.maxFragmentSize ∧
      ep.overhead + b.length ≤ Rpc.maxMessageSize
  | .call _ (.error _) => False
  | _ => True

instance : DecidablePred Arg.Fits
  | .putfh _ | .lookup _ | .remove _ | .link _ | .getattr _ | .readdir _ | .write _
  | .exchangeID _ => inferInstanceAs (Decidable (_ < _))
  | .setclientid _ | .openFile _ | .create _ | .rename _ _ | .setattr _ =>
    inferInstanceAs (Decidable (_ ∧ _))
  | .putrootfh | .getfh | .readlink | .savefh | .restorefh | .setclientidConfirm _ _ | .read _
  | .renew _ | .openConfirm _ _ | .commit _ _ | .close _ _ | .createSession _ | .destroySession _
  | .destroyClientID _ | .reclaimComplete _ | .sequence _ => inferInstanceAs (Decidable True)

instance : DecidablePred Compound.Fits := fun _ => inferInstanceAs (Decidable (_ ∧ _ ∧ _))

instance (ep : Endpoint) (opts : Rpc.ClientOptions) : DecidablePred (Event.Carried ep opts)
  | .call _ (.ok _) => inferInstanceAs (Decidable (_ ∧ _ ∧ _))
  | .call _ (.error _) => inferInstanceAs (Decidable False)
  | .ctxErr _ | .select _ | .sleep _ _ => inferInstanceAs (Decidable True)

/-- The size of a request depends on the credentials of the client only. -/
lemma requestSize_congr {cli cli' : Rpc.Client} (h : cli.opts = cli'.opts) (c : Compound) :
    requestSize cli c = requestSize cli' c := by
  simp only [requestSize_eq, headerSize, h]

/-- The environment, given what is sent of a compound. -/
def Env.onSent (E : Env W) : Env W := { E with base := fun c => E.base c.normal }

/-- One event over the wire. -/
lemma answered_wire (hp : p.Fits) (hadm : ep.admits p = true) (hcli : InStep p cli) {ev : Event}
    {w w' : W} (hev : ev.Answered E.onSent w w') (hcar : ev.Carried ep cli.opts) :
    ∃ cli', InStep p cli' ∧ cli'.opts = cli.opts ∧
      ev.Answered (ep.wire E) (cli, w) (cli', w') := by
  cases ev with
  | ctxErr e =>
      refine ⟨cli, hcli, rfl, ?_⟩
      have h : E.ctxErr w = (e, w') := hev
      simp only [Event.Answered, Endpoint.wire, h]
  | select e =>
      refine ⟨cli, hcli, rfl, ?_⟩
      have h : E.select w = (e, w') := hev
      simp only [Event.Answered, Endpoint.wire, h]
  | sleep d e =>
      refine ⟨cli, hcli, rfl, ?_⟩
      have h : E.sleep d w = (e, w') := hev
      simp only [Event.Answered, Endpoint.wire, h]
  | call c reply =>
      cases reply with
      | error e => exact hcar.elim
      | ok b =>
          obtain ⟨hfits, hsize, hlen⟩ := hcar
          exact ⟨_, hcli.next _, rfl, base_wire hp hadm hcli hfits
            ((requestSize_congr rfl c).trans_le hsize) hev hlen⟩

/-- A run of the environment over the wire: both ends stay in step. -/
lemma envRun_wire (hp : p.Fits) (hadm : ep.admits p = true) {es : List Event} {w w' : W}
    (hcli : InStep p cli) (hrun : EnvRun E.onSent w es w')
    (hcar : ∀ ev ∈ es, ev.Carried ep cli.opts) :
    ∃ cli', InStep p cli' ∧ EnvRun (ep.wire E) (cli, w) es (cli', w') := by
  induction es generalizing cli w with
  | nil =>
      obtain rfl : w' = w := hrun
      exact ⟨cli, hcli, rfl⟩
  | cons ev es ih =>
      obtain ⟨w₁, hev, hrest⟩ := hrun
      obtain ⟨cli₁, hcli₁, hopts, hev'⟩ :=
        answered_wire hp hadm hcli hev (hcar ev (List.mem_cons_self ..))
      obtain ⟨cli', hcli', hrun'⟩ := ih hcli₁ hrest fun e he =>
        hopts ▸ hcar e (List.mem_cons_of_mem _ he)
      exact ⟨cli', hcli', (cli₁, w₁), hev', hrun'⟩

end Exchange

/-! ### Runs of methods -/

section Methods

variable {W' : Type} {E : Env W} {E' : Env W'}

lemma Method.runsTo (m : Method) (c : Conn) (n : Net W) : n.RunsTo E (m.exec E c n).2 :=
  runsTo_callCompound _ _ _ n

lemma Method.replays (m : Method) (c : Conn) (n : Net W) :
    Replays E' (fun n => m.exec E c n) (fun n => m.exec E' c n) n :=
  (replays_callCompound (E := E) (m.conn c).caller ((m.conn c).request (m.multiOp c).ops)
    (m.multiOp c).results n).bind (fun out n => ((m.multiOp c).finish out, n))
      (fun out n => ((m.multiOp c).finish out, n)) (.pure _ _)

/-- A run of methods extends the log by a run of the environment. -/
lemma runsTo_runAll (ms : List Method) (c : Conn) (n : Net W) :
    n.RunsTo E (runAll E ms c n).2 := by
  induction ms generalizing c n with
  | nil => exact ⟨[], by simp [runAll], rfl⟩
  | cons m ms ih => exact kept_runsTo.trans (m.runsTo c n) (ih (m.conn c) _)

/-- A run of methods is replayed from its events. -/
lemma replays_runAll (ms : List Method) (c : Conn) (n : Net W) :
    Replays E' (runAll E ms c) (runAll E' ms c) n := by
  induction ms generalizing c n with
  | nil => exact .pure [] n
  | cons m ms ih =>
      refine (m.replays (E := E) c n).bind
        (fun r n => (⟨m, r⟩ :: (runAll E ms (m.conn c) n).1, (runAll E ms (m.conn c) n).2))
        (fun r n => (⟨m, r⟩ :: (runAll E' ms (m.conn c) n).1, (runAll E' ms (m.conn c) n).2)) ?_
      exact (ih (m.conn c) _).bind (fun rs n => (_ :: rs, n)) (fun rs n => (_ :: rs, n)) (.pure _ _)

end Methods

/-- **A run over the wire is a run of the compounds.**  Let a client that is in step with the
stream, and whose credential the endpoint admits, issue any methods on a connection.  If the
requests and replies of the run at the level of compounds fit into records, then over the wire
every method returns what it returns there, the log and the sessions are the same, the server
is in the same state, and the client is in step again. -/
theorem run_over_wire {ep : Endpoint} {E : Env W} {p : Rpc.Principal} {cli : Rpc.Client}
    (hp : p.Fits) (hadm : ep.admits p = true) (hcli : InStep p cli) (ms : List Method) (c : Conn)
    (n : Net W)
    (hcar : ∀ ev ∈ eventsSince n (runAll E.onSent ms c n).2, ev.Carried ep cli.opts) :
    ∃ cli', InStep p cli' ∧
      runAll (ep.wire E) ms c (n.withWorld (cli, n.world))
        = ((runAll E.onSent ms c n).1,
            (runAll E.onSent ms c n).2.withWorld (cli', (runAll E.onSent ms c n).2.world)) := by
  obtain ⟨es, hlog, hrun⟩ := runsTo_runAll (E := E.onSent) ms c n
  obtain ⟨es', hlog', hrep⟩ :
      Replays (ep.wire E) (runAll E.onSent ms c) (runAll (ep.wire E) ms c) n :=
    replays_runAll ms c n
  obtain rfl : es' = es := List.append_cancel_left (hlog'.symm.trans hlog)
  rw [eventsSince, hlog, List.drop_left] at hcar
  obtain ⟨cli', hcli', hrun'⟩ := envRun_wire hp hadm hcli hrun hcar
  exact ⟨cli', hcli', hrep _ _ hrun'⟩

/-- A user of one machine. -/
def someUser : Rpc.AuthSys where
  stamp := 7
  machineName := [104, 111, 115, 116]
  uid := 1000
  gid := 1000
  gids := [4, 24]

/-- A server that admits this user only and sends the first byte of its replies in a fragment of
its own. -/
def splitting : Endpoint where
  admits p := p = .sys someUser
  verf := Rpc.authNull
  cut m :=
    { init := [m.take 1, (m.drop 1).take Rpc.maxFragmentSize]
      last := ((m.drop 1).drop Rpc.maxFragmentSize).take (Rpc.maxFragmentSize - 1)
      fragment_le := by
        intro p hp
        simp only [List.cons_append, List.nil_append, List.mem_cons, List.not_mem_nil,
          or_false] at hp
        simp only [Rpc.maxFragmentSize] at hp ⊢
        rcases hp with rfl | rfl | rfl <;> rw [List.length_take] <;> omega
      message_le := by
        simp only [List.flatten_cons, List.flatten_nil, List.length_append, List.length_take,
          List.length_nil, Rpc.maxFragmentSize, Rpc.maxMessageSize]
        omega }
  verf_le := by decide
  message_cut := by
    intro m hm
    have hlast : ((m.drop 1).drop Rpc.maxFragmentSize).length ≤ Rpc.maxFragmentSize - 1 := by
      simp only [Rpc.maxMessageSize, Rpc.maxFragmentSize, List.length_drop] at hm ⊢
      omega
    simp only [Rpc.Cut.message, List.flatten_cons, List.flatten_nil, List.append_nil,
      List.append_assoc, List.take_of_length_le hlast, List.take_append_drop]

/-- A client of this user, whose transaction ids are about to wrap around. -/
def userClient : Rpc.Client where
  opts := { cred := someUser.opaqueAuth, verf := Rpc.authNull }
  nextID := 0xFFFFFFFF

/-- Two files, behind a session, at a server that puts one operation off. -/
def smallNet : Net (FileWorld (List Bytes) Unit ℕ Unit) :=
  steadyNet { tree := [[97], [98]] } 1 ()

theorem run_over_wire_removes :
    ∃ cli', InStep (.sys someUser) cli' ∧
      runAll (splitting.wire (oneDirectory.env emptyTag (countdown _) alwaysOn.reliable))
          [.remove none [97], .remove none [97]] steadyConn
          (smallNet.withWorld (userClient, smallNet.world))
        = ((runAll (oneDirectory.env emptyTag (countdown _) alwaysOn.reliable).onSent
              [.remove none [97], .remove none [97]] steadyConn smallNet).1,
            (runAll (oneDirectory.env emptyTag (countdown _) alwaysOn.reliable).onSent
              [.remove none [97], .remove none [97]] steadyConn smallNet).2.withWorld
                (cli', (runAll (oneDirectory.env emptyTag (countdown _)
                  alwaysOn.reliable).onSent [.remove none [97], .remove none [97]] steadyConn
                    smallNet).2.world)) :=
  run_over_wire (p := .sys someUser) ⟨by decide, by decide⟩ (by decide) ⟨rfl, rfl, rfl, rfl⟩ _ _ _
    (by decide +kernel)

end NfsClient.Nfs4
