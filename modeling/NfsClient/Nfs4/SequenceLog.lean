import NfsClient.Nfs4.Completeness

/-!
# The sessions in a log

The log of a connection is read from left to right, with the session that was created last:
the compounds that set up and tear down sessions carry no SEQUENCE, every other compound
carries exactly one, in front, that names this session.

A session counts as created when the reply to CREATE_SESSION says so.  What the client makes
of such a reply is the same session: `Transcript.created` follows the session id through the
decoders, the retries and the callers.
-/

namespace NfsClient.Nfs4

open NfsClient.Xdr NfsClient.Xdr.Decoder

/-! ## Reading the log -/

/-- The operations that set up and tear down sessions. -/
def Arg.isBootstrap : Arg → Bool
  | .exchangeID _ | .createSession _ | .destroySession _ | .destroyClientID _ => true
  | _ => false

def Arg.isSequence : Arg → Bool
  | .sequence _ => true
  | _ => false

/-- Exactly one SEQUENCE, in front, of the given session. -/
def sequencedBy (id : SessionID) : List Arg → Bool
  | .sequence a :: rest => a.sessionID = id && rest.all (!·.isSequence)
  | _ => false

/-- The rule for a compound when `current` is the session created last. -/
def wellSequenced (current : Option SessionID) (c : Compound) : Bool :=
  if c.ops.any Arg.isBootstrap then c.ops.all (!·.isSequence)
  else current.all (sequencedBy · c.ops)

/-- The id of the session that a result reports as created. -/
def Res.createdID : Res → Option SessionID
  | .createSession r => if r.status = nfs4Ok then some r.sessionID else none
  | _ => none

/-- The id of the session that a decoded reply reports as created. -/
def createdIn : Outcome → Option SessionID
  | (_, .error _) => none
  | (rs, .ok r) =>
      if r.status = nfs4Ok then (rs.take r.numResults).findSome? Res.createdID else none

/-- The id of the session that was created in an event: CREATE_SESSION answered with NFS4_OK, in
its resop and overall. -/
def Event.created : Event → Option SessionID
  | .call c (.ok b) => createdIn (decodeReply (c.ops.map Arg.decoder) (.ok b))
  | _ => none

/-- The session created last, after the given events. -/
def currentSession (current : Option SessionID) (es : List Event) : Option SessionID :=
  es.foldl (fun cur ev => ev.created.or cur) current

/-- Every compound of the events follows the rule. -/
def obeys : Option SessionID → List Event → Bool
  | _, [] => true
  | current, .call c reply :: es =>
      wellSequenced current c && obeys ((Event.call c reply).created.or current) es
  | current, _ :: es => obeys current es

lemma currentSession_append (cur : Option SessionID) (es es' : List Event) :
    currentSession cur (es ++ es') = currentSession (currentSession cur es) es' :=
  List.foldl_append

lemma obeys_cons (cur : Option SessionID) (ev : Event) (es : List Event) :
    obeys cur (ev :: es) = (obeys cur [ev] && obeys (currentSession cur [ev]) es) := by
  cases ev with
  | call c reply => simp [obeys, currentSession]
  | _ => simp [obeys, currentSession, Event.created]

lemma obeys_append (cur : Option SessionID) (es es' : List Event) :
    obeys cur (es ++ es') = (obeys cur es && obeys (currentSession cur es) es') := by
  induction es generalizing cur with
  | nil => simp [obeys, currentSession]
  | cons ev es ih =>
      rw [List.cons_append, obeys_cons, ih, obeys_cons cur ev es, Bool.and_assoc]
      rfl

/-- Events whose compounds follow the rule and create no session. -/
lemma obeys_of_calls {cur : Option SessionID} {es : List Event}
    (h : ∀ c reply, .call c reply ∈ es →
      wellSequenced cur c = true ∧ (Event.call c reply).created = none) :
    obeys cur es = true ∧ currentSession cur es = cur := by
  induction es with
  | nil => exact ⟨rfl, rfl⟩
  | cons ev es ih =>
      obtain ⟨hob, hcur⟩ := ih fun c reply hmem => h c reply (by simp [hmem])
      have hev : obeys cur [ev] = true ∧ currentSession cur [ev] = cur := by
        cases ev with
        | call c reply =>
            obtain ⟨hw, hcr⟩ := h c reply (by simp)
            simp [obeys, currentSession, hw, hcr]
        | _ => exact ⟨rfl, rfl⟩
      constructor
      · rw [obeys_cons, hev.1, hev.2, hob]
        rfl
      · rw [show ev :: es = [ev] ++ es from rfl, currentSession_append, hev.2, hcur]

/-- Events whose compounds follow the rule whatever session is current. -/
lemma obeys_of_any {cur : Option SessionID} {es : List Event}
    (h : ∀ c reply, .call c reply ∈ es → ∀ cur, wellSequenced cur c = true) :
    obeys cur es = true := by
  induction es generalizing cur with
  | nil => rfl
  | cons ev es ih =>
      have ih' := @ih (currentSession cur [ev]) fun c reply hmem => h c reply (by simp [hmem])
      rw [obeys_cons, ih']
      cases ev with
      | call c reply => simp [obeys, h c reply (by simp) cur]
      | _ => rfl

/-- Only a compound with CREATE_SESSION creates a session. -/
lemma created_eq_none {c : Compound} {reply : Except Err Bytes}
    (h : ∀ a ∈ c.ops, ∀ args, a ≠ .createSession args) : (Event.call c reply).created = none := by
  cases reply with
  | error e => rfl
  | ok b =>
      have hk := decodeReply_kinds (c.ops.map Arg.decoder) (.ok b)
      rcases hd : decodeReply (c.ops.map Arg.decoder) (.ok b) with ⟨rs, o⟩
      rw [hd] at hk
      have hnone : ∀ r ∈ rs, r.createdID = none := by
        intro r hr
        have hmem : r.fresh ∈ kinds (c.ops.map Arg.decoder) := hk ▸ List.mem_map_of_mem hr
        simp only [kinds, List.map_map, List.mem_map, Function.comp_apply,
          Arg.fresh_decoder] at hmem
        obtain ⟨a, ha, hfresh⟩ := hmem
        have hne := h a ha
        cases r with
        | createSession r =>
            -- the decoder is one of an operation of the compound
            exfalso
            cases a <;> simp [Arg.decoder, Res.fresh] at hfresh
            exact hne _ rfl
        | _ => rfl
      rw [Event.created, hd]
      cases o with
      | error e => rfl
      | ok r =>
          simp only [createdIn]
          split
          · rw [List.findSome?_eq_none_iff]
            exact fun r' hr' => hnone r' (List.mem_of_mem_take hr')
          · rfl

/-! ## The compounds of a call -/

/-- The compounds handed to the transport in one attempt. -/
lemma Attempt.calls {ids : List SessionID} {comp c : Compound} {rs : List Res} {es : List Event}
    {out : Outcome} {reply : Except Err Bytes} (h : Attempt ids comp rs es out)
    (hmem : Event.call c reply ∈ es) : Prefixed ids comp c := by
  cases h with
  | aborted e hids hes => exact absurd (hes _ hmem) (by simp [Event.isCall])
  | replied reply' hes hc =>
      rcases List.mem_append.mp hmem with hmem | hmem
      · exact absurd (hes _ hmem) (by simp [Event.isCall])
      · obtain ⟨rfl, rfl⟩ := Event.call.inj (List.mem_singleton.mp hmem)
        exact hc

/-- The compounds handed to the transport in a call. -/
lemma Transcript.calls {ids : List SessionID} {comp c : Compound} {rs : List Res}
    {es : List Event} {out : Outcome} {reply : Except Err Bytes} (h : Transcript ids comp rs es out)
    (hmem : Event.call c reply ∈ es) : Prefixed ids comp c := by
  induction h with
  | stopped e err => simp at hmem
  | final hatt hr | exhausted hatt hr => exact hatt.calls (by simpa using hmem)
  | interrupted hatt hr d e => exact hatt.calls (by simpa using hmem)
  | @again rs es es' out out' hatt hr d _ ih =>
      have : Event.call c reply ∈ es ∨ Event.call c reply ∈ es' := by simpa using hmem
      rcases this with hmem | hmem
      · exact hatt.calls hmem
      · exact ih hmem

/-- An operation that neither sets up nor tears down sessions, and is no SEQUENCE. -/
def Arg.isOrdinary (a : Arg) : Bool := !a.isBootstrap && !a.isSequence

/-- A compound of ordinary operations, sent through the session caller of the session that was
created last. -/
lemma wellSequenced_ordinary {cur : Option SessionID} {ids : List SessionID} {comp c : Compound}
    (hord : comp.ops.all Arg.isOrdinary = true)
    (hids : cur = none ∨ ∃ id, cur = some id ∧ ids = [id]) (hc : Prefixed ids comp c) :
    wellSequenced cur c = true := by
  obtain ⟨args, hargs, hops⟩ := hc
  have hord' : ∀ a ∈ comp.ops, a.isBootstrap = false ∧ a.isSequence = false := by
    simpa [Arg.isOrdinary] using hord
  have hboot : c.ops.any Arg.isBootstrap = false := by
    rw [hops, List.any_eq_false]
    intro a ha
    rcases List.mem_append.mp ha with ha | ha
    · obtain ⟨q, -, rfl⟩ := List.mem_map.mp ha
      simp [Arg.isBootstrap]
    · simp [(hord' a ha).1]
  rw [wellSequenced, hboot, if_neg Bool.false_ne_true]
  rcases hids with rfl | ⟨id, rfl, rfl⟩
  · rfl
  · obtain ⟨q, rfl⟩ : ∃ q, args = [q] := List.length_eq_one_iff.mp (by
      simpa using congrArg List.length hargs)
    have hq : q.sessionID = id := by simpa using hargs
    rw [hops]
    simp only [Option.all_some, List.map_cons, List.map_nil, List.singleton_append, sequencedBy, hq,
      decide_true, Bool.true_and, List.all_eq_true]
    intro a ha
    simp [(hord' a ha).2]

/-- A compound that sets up or tears down a session, sent without a session caller. -/
lemma wellSequenced_bootstrap {cur : Option SessionID} {comp c : Compound}
    (hboot : comp.ops.any Arg.isBootstrap = true) (hseq : comp.ops.all (!·.isSequence) = true)
    (hc : Prefixed [] comp c) : wellSequenced cur c = true := by
  obtain ⟨args, hargs, hops⟩ := hc
  obtain rfl : args = [] := by simpa using hargs
  have hops' : c.ops = comp.ops := by simpa using hops
  rw [wellSequenced, hops', hboot, if_pos rfl, hseq]

/-! ## CREATE_SESSION -/

lemma sticky_skipWords (k : ℕ) : Sticky (skipWords k) := by
  induction k with
  | zero => exact .pure ()
  | succ k ih => exact sticky_uint32.bind fun _ => ih

lemma sticky_decodeChannelAttrs : Sticky decodeChannelAttrs := by
  refine sticky_uint32.bind fun _ => sticky_uint32.bind fun _ => sticky_uint32.bind fun _ => ?_
  refine sticky_uint32.bind fun _ => sticky_uint32.bind fun _ => sticky_uint32.bind fun _ => ?_
  exact sticky_uint32.bind fun n => (sticky_skipWords n.toNat).bind fun _ => .pure _

/-- A CREATE_SESSION result that is decoded without an error, with status NFS4_OK, does not
depend on what the decoder held. -/
lemma createSession_decodeRes {r : CreateSessionRes} {d : Decoder}
    (herr : (r.decodeRes d).2.err = none) (hok : (r.decodeRes d).1.status = nfs4Ok) :
    (r.decodeRes d).1.sessionID = (({} : CreateSessionRes).decodeRes d).1.sessionID := by
  by_cases hs : (uint32 d).1 = nfs4Ok
  · simp only [CreateSessionRes.decodeRes, bind_run, hs, if_true, pure_run] at herr ⊢
    -- the later fields are read without an error, so the id was
    have h₁ := sticky_decodeChannelAttrs.err_eq_none (sticky_decodeChannelAttrs.err_eq_none herr)
    have h₂ := sticky_uint32.err_eq_none (sticky_uint32.err_eq_none h₁)
    obtain ⟨bs, hbs, hlen⟩ := body_of_err_eq_none h₂
    have hid : (fixedOpaque 16 (uint32 d).2).1 = some bs := hbs
    rw [hid, Option.getD_some]
    exact ByteArr.ext
      ((ByteArr.copyFrom_of_length hlen).trans (ByteArr.copyFrom_of_length hlen).symm)
  · simp only [CreateSessionRes.decodeRes, bind_run, hs, if_false, pure_run] at hok

/-- The loop of `DecodeCompound` over one CREATE_SESSION result. -/
lemma decodeResops_createSession {k i : ℕ} {r₀ : CreateSessionRes} {d : Decoder} (hk : k ≤ 1)
    (hok : (decodeResops k i [.createSession r₀] d).1.2 = none)
    {id : SessionID} (hid : ((decodeResops k i [.createSession {}] d).1.1.take k).findSome?
      Res.createdID = some id) :
    ∃ r, (decodeResops k i [.createSession r₀] d).1.1 = [.createSession r] ∧ r.status = nfs4Ok ∧
      r.sessionID = id := by
  obtain rfl | rfl : k = 0 ∨ k = 1 := by omega
  · simp at hid
  · -- the turn succeeds for both decoders, and they read the same bytes
    have hkind : (Res.createSession r₀).fresh = (Res.createSession {}).fresh := rfl
    obtain ⟨ho, hd⟩ := decodeResop_congr hkind i d
    rcases ht : decodeResop i (.createSession r₀) d with ⟨⟨s, - | e⟩, d'⟩
    · rcases ht' : decodeResop i (.createSession {}) d with ⟨⟨s', o'⟩, d''⟩
      rw [ht, ht'] at ho hd
      obtain rfl : none = o' := ho
      obtain rfl : d' = d'' := hd
      rw [decodeResops_of_decoded ht]
      rw [decodeResops_of_decoded ht'] at hid
      obtain ⟨-, -, hdec, herr⟩ := decodeResop_decoded ht
      obtain ⟨-, -, hdec', -⟩ := decodeResop_decoded ht'
      have hs : .createSession (r₀.decodeRes (uint32 d).2).1 = s := congrArg Prod.fst hdec
      have hs' : .createSession (({} : CreateSessionRes).decodeRes (uint32 d).2).1 = s' :=
        congrArg Prod.fst hdec'
      have hd' : (r₀.decodeRes (uint32 d).2).2 = d' := congrArg Prod.snd hdec
      have hstat : (r₀.decodeRes (uint32 d).2).1.status
          = (({} : CreateSessionRes).decodeRes (uint32 d).2).1.status :=
        (decodeRes_stat (uint32 d).2 (.createSession r₀)).trans
          (decodeRes_stat (uint32 d).2 (.createSession {})).symm
      have hsid := createSession_decodeRes (r := r₀) (d := (uint32 d).2) (hd' ▸ herr)
      rw [← hs]
      rw [← hs'] at hid
      simp only [List.take_succ_cons, List.take_zero, List.findSome?_cons, Res.createdID,
        List.findSome?_nil] at hid
      by_cases hok' : (({} : CreateSessionRes).decodeRes (uint32 d).2).1.status = nfs4Ok
      · refine ⟨_, rfl, hstat.trans hok', ?_⟩
        rw [hsid (hstat.trans hok')]
        simpa [hok'] using hid
      · simp [hok'] at hid
    · rw [decodeResops_of_failed ht] at hok
      simp at hok

/-- `DecodeCompound` on the reply to CREATE_SESSION. -/
lemma decodeCompound_createSession {r₀ : CreateSessionRes} {d : Decoder} {cr : CompoundResult}
    {id : SessionID} (hok : (decodeCompound [.createSession r₀] d).1.2 = .ok cr)
    (hid : ((decodeCompound [.createSession {}] d).1.1.take cr.numResults).findSome? Res.createdID =
      some id) :
    ∃ r, (decodeCompound [.createSession r₀] d).1.1 = [.createSession r] ∧ r.status = nfs4Ok ∧
      r.sessionID = id := by
  obtain ⟨d', hh, hnone⟩ := header_of_decodeCompound hok
  -- the header does not depend on what the decoder holds
  have hh' : decodeHeader [Res.createSession {}].length d = (.ok cr, d') := hh
  rw [decodeCompound_of_header hh]
  rw [decodeCompound_of_header hh'] at hid
  exact decodeResops_createSession (decodeHeader_ok hh).1 hnone hid

/-- A reply that reports a session as created is an answer: the caller's decoder holds the id
of the session, whatever it held before. -/
lemma decodeReply_of_created {comp : Compound} {args : CreateSessionArgs}
    (hops : comp.ops = [.createSession args]) {reply : Except Err Bytes} {id : SessionID}
    (h : (Event.call comp reply).created = some id) (r₀ : CreateSessionRes) :
    ∃ r cr, decodeReply [.createSession r₀] reply = ([.createSession r], .ok cr) ∧
      r.status = nfs4Ok ∧ r.sessionID = id ∧ cr.status = nfs4Ok := by
  cases reply with
  | error e => simp [Event.created] at h
  | ok b =>
      have hkinds : kinds [Res.createSession r₀] = kinds [Res.createSession {}] := rfl
      simp only [Event.created, hops, List.map_cons, List.map_nil, Arg.decoder] at h
      obtain ⟨ho, hd⟩ := decodeCompound_congr hkinds (newDecoder b)
      have hres := fun cr => @decodeCompound_createSession r₀ (newDecoder b) cr id
      rcases hfresh : decodeCompound [.createSession {}] (newDecoder b) with ⟨⟨rs, out⟩, d⟩
      rcases hold : decodeCompound [.createSession r₀] (newDecoder b) with ⟨⟨rs', out'⟩, d'⟩
      rw [hfresh, hold] at ho hd hres
      obtain rfl : out' = out := ho
      obtain rfl : d' = d := hd
      simp only [decodeReply, hfresh, hold, checkDecoder] at h ⊢
      cases he : d'.err with
      | some e => simp [he, createdIn] at h
      | none =>
          simp only [he] at h ⊢
          cases out' with
          | error e => simp [createdIn] at h
          | ok cr =>
              simp only [createdIn] at h
              split at h
              · next hstatus =>
                obtain ⟨r, hr, hok, hid⟩ := hres cr rfl h
                obtain rfl : rs' = [.createSession r] := hr
                exact ⟨r, cr, rfl, hok, hid, hstatus⟩
              · simp at h

lemma currentSession_of_no_call {cur : Option SessionID} {es : List Event}
    (h : ∀ ev ∈ es, ev.isCall = false) : currentSession cur es = cur :=
  (obeys_of_calls fun _ _ hmem => absurd (h _ hmem) (by simp [Event.isCall])).2

lemma eq_of_kinds_createSession {rs : List Res} (h : kinds rs = [.createSession {}]) :
    ∃ r, rs = [.createSession r] := by
  obtain ⟨r, rfl⟩ := List.length_eq_one_iff.mp ((length_kinds rs).symm.trans (congrArg _ h))
  have hr : r.fresh = .createSession {} := by simpa [kinds] using h
  cases r with
  | createSession r => exact ⟨r, rfl⟩
  | _ => simp [Res.fresh] at hr

/-- One attempt at CREATE_SESSION without session callers. -/
lemma Attempt.created {comp : Compound} {args : CreateSessionArgs}
    (hops : comp.ops = [.createSession args]) {rs : List Res} {es : List Event} {out : Outcome}
    (h : Attempt [] comp rs es out) (hrs : kinds rs = [.createSession {}]) :
    kinds out.1 = [.createSession {}] ∧
      (currentSession none es = none ∨
        ∃ r cr, out = ([.createSession r], .ok cr) ∧ r.status = nfs4Ok ∧ cr.status = nfs4Ok ∧
          currentSession none es = some r.sessionID) := by
  cases h with
  | aborted e hids hes => exact ⟨hrs, Or.inl (currentSession_of_no_call hes)⟩
  | @replied es c reply hes hc =>
      obtain ⟨qs, hqs, hc⟩ := hc
      obtain rfl : qs = [] := by simpa using hqs
      have hops' : c.ops = [.createSession args] := by rw [hc, hops]; rfl
      have hseq : sequenceDecoders ([] : List SessionID).length rs = rs := rfl
      have hcur : currentSession none (es ++ [.call c reply]) = (Event.call c reply).created := by
        rw [currentSession_append, currentSession_of_no_call hes]
        simp [currentSession]
      rw [hseq, hcur, List.length_nil, unwrap]
      refine ⟨(decodeReply_kinds rs reply).trans hrs, ?_⟩
      cases hev : (Event.call c reply).created with
      | none => exact Or.inl rfl
      | some id =>
          obtain ⟨r₀, rfl⟩ := eq_of_kinds_createSession hrs
          obtain ⟨r, cr, hdec, hok, hid, hcr⟩ := decodeReply_of_created hops' hev r₀
          exact Or.inr ⟨r, cr, hdec, hok, hcr, by rw [hid]⟩

/-- **The session of a CREATE_SESSION call** without session callers: if its events create a
session, the call returns the id of that session. -/
theorem Transcript.created {comp : Compound} {args : CreateSessionArgs}
    (hops : comp.ops = [.createSession args]) {rs : List Res} {es : List Event} {out : Outcome}
    (h : Transcript [] comp rs es out) (hrs : kinds rs = [.createSession {}]) :
    currentSession none es = none ∨
      ∃ r cr, out = ([.createSession r], .ok cr) ∧ r.status = nfs4Ok ∧
        currentSession none es = some r.sessionID := by
  -- an attempt that is retried creates no session: its overall status is not NFS4_OK
  have hretried : ∀ {rs : List Res} {es : List Event} {out : Outcome}, Attempt [] comp rs es out →
      kinds rs = [.createSession {}] → retriable out.2 = true → currentSession none es = none := by
    intro rs es out hatt hrs hr
    rcases (hatt.created hops hrs).2 with hnone | ⟨r, cr, rfl, -, hcr, -⟩
    · exact hnone
    · exact absurd hr
        (by simp [retriable, hcr, isRetriableStatus, nfs4Ok, nfs4errDelay, nfs4errGrace])
  have hcons : ∀ (cur : Option SessionID) (es : List Event),
      currentSession cur (.ctxErr none :: es) = currentSession cur es := fun _ _ => rfl
  induction h with
  | stopped e err => exact Or.inl rfl
  | final hatt hr =>
      rw [hcons]
      rcases (hatt.created hops hrs).2 with hnone | ⟨r, cr, hout, hok, -, hcur⟩
      · exact Or.inl hnone
      · exact Or.inr ⟨r, cr, hout, hok, hcur⟩
  | exhausted hatt hr =>
      rw [hcons, hretried hatt hrs hr]
      exact Or.inl rfl
  | interrupted hatt hr d e =>
      rw [List.cons_append, hcons, currentSession_append, hretried hatt hrs hr]
      exact Or.inl rfl
  | @again rs es es' out out' hatt hr d _ ih =>
      rw [List.cons_append, hcons, currentSession_append, hretried hatt hrs hr]
      exact ih (hatt.created hops hrs).1

end NfsClient.Nfs4
