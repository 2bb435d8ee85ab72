import NfsClient.Rpc.Message
import NfsClient.Rpc.Record

/-!
# The RPC client

`Client.Call` on one connection.  The client's lock makes its calls a sequence, so a run is a
list of calls, each with what its context and the transport do while it lasts: the context is
done before the call or during it, the write fails, or the request goes out and some bytes
have arrived when `ReadRecord` returns.  The bytes are arbitrary, and those that a call leaves
unread are the first that the next call reads.
-/

namespace NfsClient.Rpc

open NfsClient.Xdr

/-- `ClientOptions`. -/
structure ClientOptions where
  cred : OpaqueAuth := {}
  verf : OpaqueAuth := {}

/-- `Client`, with the state of its connection: whether it is closed, and what has arrived on
it and is not read yet. -/
structure Client where
  opts : ClientOptions := {}
  nextID : UInt32
  closed : Bool := false
  unread : Bytes := []

/-- `allocXID` returns a fresh transaction id, which is also the new `nextID`. -/
def allocXID (nextID : UInt32) : UInt32 := if nextID + 1 = 0 then 1 else nextID + 1

/-- The arguments of `Call`: the procedure, what `encodeArgs` emits, and `decodeRes`, which may
be nil. -/
structure Invocation where
  prog : UInt32
  vers : UInt32
  proc : UInt32
  args : Bytes := []
  decodeRes : Option (Dec Unit) := none

/-- What the context and the transport do during one call. -/
inductive Fate
  /-- The context is done before the call. -/
  | done (e : CtxErr)
  /-- The context is done while the round trip is in flight. -/
  | cancelled (e : CtxErr)
  /-- The request cannot be written. -/
  | writeFails (e : Err)
  /-- The request is written, and these bytes arrive before `ReadRecord` returns; if they do
  not make a record, the stream ends or fails after them. -/
  | arrives (bytes : Bytes)

/-- What one call did. -/
structure Trace where
  /-- The transaction id it allocated. -/
  xid : Option UInt32 := none
  /-- The payload of the record it wrote. -/
  request : Option Bytes := none
  /-- The record it read. -/
  reply : Option Bytes := none
  /-- The decoder on which it ran `decodeRes`. -/
  decoded : Option Decoder := none
  /-- What it returned. -/
  err : Option Err := none

/-- `%#x` -/
def hex (n : UInt32) : String := "0x" ++ String.ofList (Nat.toDigits 16 n.toNat)

/-- `Client.decodeReply`: the decoder on which `decodeRes` ran, and the error returned. -/
def decodeReply (xid : UInt32) (reply : Bytes) (decodeRes : Option (Dec Unit)) :
    Option Decoder × Option Err :=
  match decodeReplyHeader (newDecoder reply) with
  | (.error e, _) => (none, some (.wrap "rpc: decoding reply header" e))
  | (.ok hdr, dec) =>
    -- the id is compared before the status is looked at
    if hdr.xid ≠ xid then
      (none, some (.text ("rpc: reply xid " ++ hex hdr.xid ++ " does not match request xid "
        ++ hex xid)))
    else match hdr.error with
      | some e => (none, some e)
      | none => match decodeRes with
        | none => (none, none)
        | some decodeRes => match (decodeRes dec).2.err with
          | some e => (some dec, some (.wrap "rpc: decoding result" e.toErr))
          | none => (some dec, none)

/-- The request payload: the call header followed by the arguments of the procedure. -/
def Client.payload (c : Client) (xid : UInt32) (i : Invocation) : Bytes :=
  CallHeader.encode
    { xid, prog := i.prog, vers := i.vers, proc := i.proc, cred := c.opts.cred,
      verf := c.opts.verf } ++ i.args

/-- The round trip and the decoding of `Call`, once the transaction id is allocated. -/
def Client.roundTrip (c : Client) (xid : UInt32) (i : Invocation) (bytes : Bytes) :
    Trace × Client :=
  match if c.closed then .error (.text "use of closed network connection")
    else writeRecord (c.payload xid i) with
  | .error e => ({ xid := some xid, err := some (.wrap "rpc: writing request" e) }, c)
  | .ok _ =>
    -- what earlier calls left unread comes first
    match readRecord (c.unread ++ bytes) with
    | (.error e, rest) =>
      ({ xid := some xid, request := some (c.payload xid i),
         err := some (.wrap "rpc: reading reply" e) }, { c with unread := rest })
    | (.ok reply, rest) =>
      match decodeReply xid reply i.decodeRes with
      | (decoded, err) =>
        ({ xid := some xid, request := some (c.payload xid i), reply := some reply, decoded,
           err }, { c with unread := rest })

/-- `Client.Call`.  A cancelled call closes the connection, so what its round trip has read is
dropped. -/
def Client.call (c : Client) (i : Invocation) : Fate → Trace × Client
  | .done e => ({ err := some (.ctx e) }, c)
  | .cancelled e =>
    let xid := allocXID c.nextID
    ({ xid := some xid, request := some (c.payload xid i), err := some (.ctx e) },
      { c with nextID := xid, closed := true })
  | .writeFails e =>
    let xid := allocXID c.nextID
    ({ xid := some xid, err := some (.wrap "rpc: writing request" e) }, { c with nextID := xid })
  | .arrives bytes =>
    let xid := allocXID c.nextID
    { c with nextID := xid }.roundTrip xid i bytes

/-- The calls of one client, one after the other. -/
def Client.run (c : Client) : List (Invocation × Fate) → List Trace
  | [] => []
  | (i, fate) :: calls => match c.call i fate with
    | (t, c') => t :: c'.run calls

/-! ## Transaction ids -/

/-- The counter runs through `1, …, 2³² - 1` and skips zero when it wraps around. -/
lemma toNat_allocXID (n : UInt32) : (allocXID n).toNat = 1 + n.toNat % (2 ^ 32 - 1) := by
  have hn := n.toNat_lt
  have hsucc : (n + 1).toNat = (n.toNat + 1) % 2 ^ 32 := by simp [UInt32.toNat_add]
  unfold allocXID
  split
  · next h =>
      rw [h] at hsucc
      simp only [UInt32.toNat_zero] at hsucc
      have : (1 : UInt32).toNat = 1 := rfl
      omega
  · next h =>
      have hne : (n + 1).toNat ≠ 0 := fun h0 => h (UInt32.toNat_inj.mp (by simpa using h0))
      omega

/-- A call either allocates the next id or, when its context is done, none. -/
lemma call_xid (c : Client) (i : Invocation) (fate : Fate) :
    ((c.call i fate).1.xid = none ∧ (c.call i fate).2.nextID = c.nextID) ∨
      ((c.call i fate).1.xid = some (allocXID c.nextID) ∧
        (c.call i fate).2.nextID = allocXID c.nextID) := by
  cases fate with
  | done e => exact .inl ⟨rfl, rfl⟩
  | cancelled e => exact .inr ⟨rfl, rfl⟩
  | writeFails e => exact .inr ⟨rfl, rfl⟩
  | arrives bytes =>
      refine .inr ?_
      simp only [Client.call, Client.roundTrip]
      split
      · exact ⟨rfl, rfl⟩
      · split
        · exact ⟨rfl, rfl⟩
        · exact ⟨rfl, rfl⟩

/-- The ids of a run are consecutive values of the counter. -/
lemma run_xids (c : Client) (calls : List (Invocation × Fate)) :
    ∃ j ≤ calls.length, ((c.run calls).filterMap (·.xid)).map UInt32.toNat
      = (List.range j).map fun k => 1 + (c.nextID.toNat + k) % (2 ^ 32 - 1) := by
  induction calls generalizing c with
  | nil => exact ⟨0, le_rfl, rfl⟩
  | cons call calls ih =>
      obtain ⟨i, fate⟩ := call
      obtain ⟨j, hj, hxids⟩ := ih (c.call i fate).2
      rcases call_xid c i fate with ⟨hx, hn⟩ | ⟨hx, hn⟩
      · -- the context was done: no id is drawn
        refine ⟨j, hj.trans (Nat.le_succ _), ?_⟩
        rw [hn] at hxids
        simpa [Client.run, hx] using hxids
      · refine ⟨j + 1, Nat.succ_le_succ hj, ?_⟩
        rw [hn, toNat_allocXID] at hxids
        simp only [Client.run, List.filterMap_cons, hx, List.map_cons, hxids, toNat_allocXID,
          List.range_succ_eq_map, List.map_map, Nat.add_zero, List.cons.injEq, true_and]
        refine List.map_congr_left fun k _ => ?_
        simp only [Function.comp_apply]
        omega

/-- The ids of a run that is not longer than the counter's period are pairwise distinct. -/
lemma run_xids_nodup {c : Client} {calls : List (Invocation × Fate)}
    (h : calls.length ≤ 2 ^ 32 - 1) : ((c.run calls).filterMap (·.xid)).Nodup := by
  obtain ⟨j, hj, hxids⟩ := run_xids c calls
  refine List.Nodup.of_map UInt32.toNat ?_
  rw [hxids]
  refine List.Nodup.map_on ?_ List.nodup_range
  -- fewer draws than the period of the counter
  intro k hk l hl heq
  rw [List.mem_range] at hk hl
  omega

lemma run_xid_ne_zero {c : Client} {calls : List (Invocation × Fate)} {x : UInt32}
    (h : x ∈ (c.run calls).filterMap (·.xid)) : x ≠ 0 := by
  obtain ⟨j, -, hxids⟩ := run_xids c calls
  have hmem := List.mem_map_of_mem (f := UInt32.toNat) h
  rw [hxids] at hmem
  obtain ⟨k, -, hk⟩ := List.mem_map.mp hmem
  rintro rfl
  simp at hk

/-! ## One call -/

/-- The record answers the call with this id: after its header, which carries the id and is an
accepted SUCCESS, comes what `dec` has left to read. -/
def Answers (xid : UInt32) (reply : Bytes) (dec : Decoder) : Prop :=
  ∃ hdr, decodeReplyHeader (newDecoder reply) = (.ok hdr, dec) ∧ dec.r <:+ reply ∧
    hdr.xid = xid ∧ hdr.stat = msgAccepted ∧ hdr.acceptStat = acceptSuccess

/-- `decodeReply` fails before it comes to `decodeRes`, or the record answers the call. -/
lemma decodeReply_cases (xid : UInt32) (reply : Bytes) (decodeRes : Option (Dec Unit)) :
    (∃ e, decodeReply xid reply decodeRes = (none, some e)) ∨
      ∃ dec, Answers xid reply dec ∧
        (decodeReply xid reply decodeRes).1 = decodeRes.map (fun _ => dec) ∧
        ((decodeReply xid reply decodeRes).2 = none →
          ∀ f, decodeRes = some f → (f dec).2.err = none) := by
  unfold decodeReply
  have hleaves := leaves_decodeReplyHeader (newDecoder reply)
  rcases hhdr : decodeReplyHeader (newDecoder reply) with ⟨_ | hdr, dec⟩
  · exact .inl ⟨_, rfl⟩
  · rw [hhdr] at hleaves
    by_cases hx : hdr.xid ≠ xid
    · exact .inl ⟨_, if_pos hx⟩
    · rcases herr : hdr.error with _ | e
      · refine .inr ⟨dec, ⟨hdr, hhdr, hleaves, not_not.mp hx, hdr.error_eq_none herr⟩, ?_⟩
        simp only [hx, if_false, herr]
        cases decodeRes with
        | none => simp
        | some f =>
            rcases hf : (f dec).2.err with _ | e
            · simp [hf]
            · simp [hf]
      · exact .inl ⟨e, by simp only [hx, if_false, herr]⟩

/-- What a call guarantees about its own reply: `decodeRes` ran only on the body of a record
that answers the id on the wire, and the call returns nil only if that went well. -/
structure Guarded (i : Invocation) (t : Trace) : Prop where
  answered : ∀ dec, t.decoded = some dec → ∃ xid rest reply, t.xid = some xid ∧
    t.request = some (Encoder.uint32 xid ++ rest) ∧ t.reply = some reply ∧
    Answers xid reply dec
  finished : t.err = none → ∃ xid reply dec, t.xid = some xid ∧ t.reply = some reply ∧
    Answers xid reply dec ∧
    ∀ f, i.decodeRes = some f → t.decoded = some dec ∧ (f dec).2.err = none

/-- A call that decoded nothing and failed. -/
lemma Guarded.of_failed {i : Invocation} {t : Trace} (hdec : t.decoded = none)
    (herr : t.err ≠ none) : Guarded i t where
  answered dec h := by simp [hdec] at h
  finished h := absurd h herr

/-- The id is the first word of the request. -/
lemma payload_eq (c : Client) (xid : UInt32) (i : Invocation) :
    ∃ rest, c.payload xid i = Encoder.uint32 xid ++ rest :=
  ⟨_, by simp only [Client.payload, CallHeader.encode, List.flatten_cons, List.append_assoc]; rfl⟩

lemma guarded_roundTrip (c : Client) (xid : UInt32) (i : Invocation) (bytes : Bytes) :
    Guarded i (c.roundTrip xid i bytes).1 := by
  obtain ⟨rest, hrest⟩ := payload_eq c xid i
  unfold Client.roundTrip
  split
  · exact .of_failed rfl (by simp)
  · split
    · exact .of_failed rfl (by simp)
    · next reply _ _ =>
        rcases decodeReply_cases xid reply i.decodeRes with ⟨e, he⟩ | ⟨dec, hans, hdec, hnil⟩
        · rw [he]
          exact .of_failed rfl (by simp)
        · constructor
          · intro dec' h'
            have hd : (decodeReply xid reply i.decodeRes).1 = some dec' := h'
            rw [hdec, Option.map_eq_some_iff] at hd
            obtain ⟨f, -, rfl⟩ := hd
            exact ⟨xid, rest, reply, rfl, congrArg some hrest, rfl, hans⟩
          · intro herr
            refine ⟨xid, reply, dec, rfl, rfl, hans, fun f hf => ⟨?_, hnil herr f hf⟩⟩
            exact hdec.trans (by rw [hf]; rfl)

lemma guarded_call (c : Client) (i : Invocation) (fate : Fate) : Guarded i (c.call i fate).1 := by
  cases fate with
  | done e => exact .of_failed rfl (by simp [Client.call])
  | cancelled e => exact .of_failed rfl (by simp [Client.call])
  | writeFails e => exact .of_failed rfl (by simp [Client.call])
  | arrives bytes => exact guarded_roundTrip _ _ i bytes

/-- Every call of a run is guarded, whatever the earlier calls left unread. -/
lemma guarded_run (c : Client) (calls : List (Invocation × Fate)) :
    List.Forall₂ (fun call t => Guarded call.1 t) calls (c.run calls) := by
  induction calls generalizing c with
  | nil => exact .nil
  | cons call calls ih =>
      obtain ⟨i, fate⟩ := call
      exact .cons (guarded_call c i fate) (ih _)

lemma exists_guarded {calls : List (Invocation × Fate)} {ts : List Trace} {t : Trace}
    (h : List.Forall₂ (fun call t => Guarded call.1 t) calls ts) (ht : t ∈ ts) :
    ∃ i, Guarded i t := by
  induction h with
  | nil => simp at ht
  | cons h _ ih =>
      rcases List.mem_cons.mp ht with rfl | ht
      · exact ⟨_, h⟩
      · exact ih ht

/-- A record with another id does not pass: nothing is decoded, and the call fails. -/
lemma Guarded.of_other_xid {i : Invocation} {t : Trace} (h : Guarded i t) {reply : Bytes}
    {hdr : ReplyHeader} {dec : Decoder} (hreply : t.reply = some reply)
    (hhdr : decodeReplyHeader (newDecoder reply) = (.ok hdr, dec)) (hx : t.xid ≠ some hdr.xid) :
    t.decoded = none ∧ t.err ≠ none := by
  have hother : ∀ xid reply' dec', t.xid = some xid → t.reply = some reply' →
      ¬ Answers xid reply' dec' := by
    rintro xid reply' dec' hxid hreply' ⟨hdr', hhdr', -, rfl, -⟩
    obtain rfl : reply = reply' := by simpa [hreply] using hreply'
    rw [hhdr] at hhdr'
    obtain rfl : hdr = hdr' := by simpa using congrArg Prod.fst hhdr'
    exact hx hxid
  constructor
  · by_contra hne
    obtain ⟨dec', hdec⟩ := Option.ne_none_iff_exists'.mp hne
    obtain ⟨xid, rest, reply', hxid, -, hreply', hans⟩ := h.answered dec' hdec
    exact hother xid reply' dec' hxid hreply' hans
  · intro herr
    obtain ⟨xid, reply', dec', hxid, hreply', hans, -⟩ := h.finished herr
    exact hother xid reply' dec' hxid hreply' hans

/-- **A reply is never given to the wrong call.**  In a run of at most `2³² - 1` calls on any
streams, from any `nextID`: `decodeRes` runs only on what follows the header of a record that
carries the call's own id and is an accepted SUCCESS, and a call returns nil only if it did
and ended without a decode error; the ids are non-zero and pairwise distinct; and a call that
reads a record with the id of an earlier call decodes nothing and fails. -/
theorem run_reply_matches (c : Client) (calls : List (Invocation × Fate))
    (hlen : calls.length ≤ 2 ^ 32 - 1) :
    List.Forall₂ (fun call t => Guarded call.1 t) calls (c.run calls) ∧
      ((c.run calls).filterMap (·.xid)).Nodup ∧
      (∀ xid ∈ (c.run calls).filterMap (·.xid), xid ≠ 0) ∧
      (c.run calls).Pairwise fun earlier later => ∀ xid reply hdr dec,
        earlier.xid = some xid → later.reply = some reply →
        decodeReplyHeader (newDecoder reply) = (.ok hdr, dec) → hdr.xid = xid →
        later.decoded = none ∧ later.err ≠ none := by
  have hguarded := guarded_run c calls
  have hnodup := run_xids_nodup (c := c) hlen
  refine ⟨hguarded, hnodup, fun xid h => run_xid_ne_zero h, ?_⟩
  have hpair := List.pairwise_filterMap.mp hnodup
  refine (List.Pairwise.and_mem.mp hpair).imp ?_
  rintro earlier later ⟨-, hlater, hne⟩ xid reply hdr dec hxid hreply hhdr rfl
  obtain ⟨i, hi⟩ := exists_guarded hguarded hlater
  refine hi.of_other_xid hreply hhdr fun hx => ?_
  exact hne _ hxid _ hx rfl

/-- An accepted SUCCESS reply with one word of results, on the stream. -/
def successRecord (xid result : UInt32) : Bytes :=
  fragment true ([xid, msgReply, msgAccepted, 0, 0, acceptSuccess, result].flatMap Encoder.uint32)

/-- A call whose results are one word. -/
def wordCall : Invocation :=
  { prog := 100003, vers := 4, proc := 1, decodeRes := some do let _ ← Decoder.uint32 }

/-- The counter wraps around: the first call, of id 1, gives up before its reply arrives; the
second finds it and refuses it; the third is answered. -/
theorem run_reply_matches_late :
    (({ nextID := 0xFFFFFFFF } : Client).run
      [(wordCall, .arrives []), (wordCall, .arrives (successRecord 1 7)),
        (wordCall, .arrives (successRecord 3 8))]).map
        (fun t => (t.xid, t.decoded.map (·.r), t.err.isNone))
      = [(some 1, none, false), (some 2, none, false), (some 3, some [0, 0, 0, 8], true)] ∧
    ((({ nextID := 0xFFFFFFFF } : Client).run
      [(wordCall, .arrives []), (wordCall, .arrives (successRecord 1 7)),
        (wordCall, .arrives (successRecord 3 8))]).filterMap (·.xid)).Nodup :=
  ⟨by decide +kernel, (run_reply_matches _ _ (by decide)).2.1⟩

end NfsClient.Rpc
