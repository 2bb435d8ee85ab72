import NfsClient.Nfs4.ReplyDecoding
import NfsClient.Nfs4.Residue
import NfsClient.Nfs4.Resops

/-!
# Matching resops with operations

`DecodeCompound` compares the operation number of a resop with the one that its decoder
advertises.  The decoders of the methods advertise the number of the operation at their position,
with one exception: `StatusRes`, which serves every operation with a bare status, advertises none.
What stands in front of such a result is not looked at.
-/

namespace NfsClient.Nfs4

open NfsClient.Lib NfsClient.Xdr NfsClient.Xdr.Decoder

/-- The compounds that the methods of a connection build, each with its result decoders. -/
inductive Conn.Builds (c : Conn) : List Arg → List Res → Prop
  | method (m : Method) : c.Builds (m.multiOp c).ops (m.multiOp c).results
  | exchangeID (verifier : ByteArr 8) (ownerID : Bytes) :
      c.Builds [(exchangeIDOp verifier ownerID).op] [(exchangeIDOp verifier ownerID).result]
  | createSession (clientID : UInt64) (sequenceID : UInt32) :
      c.Builds [(createSessionOp clientID sequenceID).op]
        [(createSessionOp clientID sequenceID).result]
  | reclaimComplete : c.Builds [reclaimCompleteOp.op] [reclaimCompleteOp.result]
  | setClientID (verifier : ByteArr 8) (id : Bytes) :
      c.Builds [(setClientIDOp verifier id).op] [(setClientIDOp verifier id).result]
  | confirmClientID (clientID : UInt64) (verifier : ByteArr 8) :
      c.Builds [(confirmClientIDOp clientID verifier).op]
        [(confirmClientIDOp clientID verifier).result]
  | renew (clientID : UInt64) : c.Builds [(renewOp clientID).op] [(renewOp clientID).result]
  | destroySession (id : SessionID) : c.Builds [.destroySession id] [.destroySession {}]
  | destroyClientID (clientID : UInt64) : c.Builds [.destroyClientID clientID] [.destroyClientID {}]

lemma Conn.Builds.results_eq {c : Conn} {ops : List Arg} {rs : List Res} (h : c.Builds ops rs) :
    rs = ops.map Arg.decoder := by
  cases h with
  | method m => exact (m.multiOp c).results_eq
  | _ => rfl

/-- The operations whose results are a bare status. -/
def Arg.BareStatus (a : Arg) : Prop := a.decoder = .status {}

/-- Every other decoder advertises the number of its operation. -/
lemma expectedOp_decoder (a : Arg) :
    a.decoder.expectedOp = a.op ∧ a.op ≠ 0 ∨ a.BareStatus := by
  cases a <;> first
    | exact Or.inr rfl
    | exact Or.inl ⟨rfl, fun h => Nat.succ_ne_zero _ (congrArg UInt32.toNat h)⟩

/-- If the reply is accepted, each resop that was returned has the number of the operation at its
position, as far as this operation is one of those in question. -/
def OpnumsMatch (among : Arg → Prop) (ops : List Arg) (rs : List Res) (d : Decoder) : Prop :=
  ∀ r, (decodeCompound rs d).1.2 = .ok r → ∀ i < r.numResults, ∃ p a,
    (resops rs d)[i]? = some p ∧ ops[i]? = some a ∧ (among a → p.opnum = a.op)

/-- At each position there is a resop and its operation. -/
lemma exists_resop {ops : List Arg} {rs : List Res} (hrs : kinds rs = ops.map Arg.decoder)
    {d : Decoder} {r : CompoundResult} (hok : (decodeCompound rs d).1.2 = .ok r) {i : ℕ}
    (hi : i < r.numResults) :
    ∃ p a, (resops rs d)[i]? = some p ∧ ops[i]? = some a ∧ p.res.fresh = a.decoder := by
  rw [← length_resops hok] at hi
  have hres : rs[i]? = some (resops rs d)[i].res := by
    rw [List.prefix_iff_getElem?.mp (res_isPrefix rs d) i (by simpa using hi), List.getElem_map]
  have hkind : (ops.map Arg.decoder)[i]? = some (resops rs d)[i].res.fresh := by
    rw [← hrs, kinds, List.getElem?_map, hres]
    rfl
  rw [List.getElem?_map] at hkind
  obtain ⟨a, ha, hdec⟩ := Option.map_eq_some_iff.mp hkind
  exact ⟨(resops rs d)[i], a, List.getElem?_eq_getElem hi, ha, hdec.symm⟩

/-- The numbers match if those of the bare statuses do. -/
lemma opnumsMatch_iff {ops : List Arg} {rs : List Res} (hrs : kinds rs = ops.map Arg.decoder)
    (d : Decoder) :
    OpnumsMatch (fun _ => True) ops rs d ↔ OpnumsMatch Arg.BareStatus ops rs d := by
  constructor
  · intro h r hok i hi
    obtain ⟨p, a, hp, ha, hop⟩ := h r hok i hi
    exact ⟨p, a, hp, ha, fun _ => hop trivial⟩
  · intro h r hok i hi
    obtain ⟨p, a, hp, ha, hop⟩ := h r hok i hi
    obtain ⟨p', a', hp', ha', hfresh⟩ := exists_resop hrs hok hi
    obtain rfl : p = p' := Option.some.inj (hp.symm.trans hp')
    obtain rfl : a = a' := Option.some.inj (ha.symm.trans ha')
    refine ⟨p, a, hp, ha, fun _ => ?_⟩
    rcases expectedOp_decoder a with ⟨hexp, hne⟩ | hbare
    · have hexp' : p.res.expectedOp = a.op := by rw [← expectedOp_fresh, hfresh, hexp]
      rcases opnum_of_mem_resops (List.mem_of_getElem? hp) with hzero | heq
      · exact absurd (hexp'.symm.trans hzero) hne
      · rw [heq, hexp']
    · exact hop hbare

/-! ## A reply that does not match -/

/-- A reply with one bare status, behind the given operation number. -/
def forgedReply (opnum : Opnum) : Bytes :=
  Format.replyBody nfs4Ok [] 1 (Wire.uint opnum ++ Wire.uint nfs4Ok)

lemma decodeCompound_forgedReply (rs : List Res) (opnum : Opnum) :
    (decodeCompound (.status {} :: rs) (input 0 (forgedReply opnum))).1.2 =
        .ok { status := nfs4Ok, tag := [], numResults := 1 } ∧
      ∀ p, (resops (.status {} :: rs) (input 0 (forgedReply opnum)))[0]? = some p →
        p.opnum = opnum := by
  have hheader : decodeHeader (Res.status {} :: rs).length (input 0 (forgedReply opnum)) =
      (.ok { status := nfs4Ok, tag := [], numResults := 1 },
        input 0 (Wire.uint opnum ++ Wire.uint nfs4Ok)) :=
    Format.decodeHeader_of_le (Nat.zero_le _) nfs4Ok 1 _ (Nat.succ_le_succ (Nat.zero_le _))
  have hop : uint32 (input 0 (Wire.uint opnum ++ Wire.uint nfs4Ok)) =
      (opnum, input 0 (Wire.uint nfs4Ok)) := (decodes_uint32 opnum).reads _
  have hbody : (Res.status {}).decodeRes (input 0 (Wire.uint nfs4Ok)) =
      (.status {}, input 0 []) := by
    rw [Res.decodeRes, StatusRes.decodeRes]
    exact (((decodes_uint32 nfs4Ok).last (fun _ => .pure _) (.pure _)).map Res.status).reads []
  have hturn : decodeResop 0 (.status {}) (input 0 (Wire.uint opnum ++ Wire.uint nfs4Ok)) =
      ((.status {}, none), input 0 []) :=
    decodeResop_of (by rw [hop]; rfl) (by simp [Res.expectedOp]) (by rw [hop]; exact hbody) rfl 0
  constructor
  · rw [decodeCompound_of_header hheader, decodeResops_of_decoded hturn]
    cases rs <;> rfl
  · intro p hp
    rw [resops_of_header hheader, resopsFrom_of_decoded hturn, hop] at hp
    rw [← Option.some.inj hp]

/-- Bare statuses are at the front of the compounds, if there are any. -/
lemma Conn.Builds.bareStatus_first {c : Conn} {ops : List Arg} {rs : List Res}
    (h : c.Builds ops rs) {a : Arg} (ha : a ∈ ops) (hbare : a.BareStatus) :
    ∃ first rest, ops = first :: rest ∧ first.BareStatus := by
  cases h with
  | method m => cases m <;> exact ⟨_, _, rfl, rfl⟩
  | _ =>
      obtain rfl := List.mem_singleton.mp ha
      exact ⟨_, [], rfl, hbare⟩

/-- **When resops are matched with the operations.**  In an accepted reply to a compound of a
method, with any SEQUENCE operations that session callers put in front of it and whatever the
decoders held before, every returned resop has the number of the operation at its position exactly
if those of the operations with a bare status have it.  Nothing checks these: a compound is safe
from every reply exactly if it has no such operation. -/
theorem opnums_match_iff {c : Conn} {ops : List Arg} {rs : List Res} (h : c.Builds ops rs) :
    (∀ (seqs : List SequenceArgs) (rs' : List Res),
      kinds rs' = seqs.map (fun _ => .sequence {}) ++ rs → ∀ (m : UInt32) (reply : Bytes),
        OpnumsMatch (fun _ => True) (seqs.map .sequence ++ ops) rs' (input m reply) ↔
          OpnumsMatch Arg.BareStatus (seqs.map .sequence ++ ops) rs' (input m reply)) ∧
    ((∀ (m : UInt32) (reply : Bytes), OpnumsMatch (fun _ => True) ops rs (input m reply)) ↔
      ∀ a ∈ ops, ¬ a.BareStatus) := by
  have hkinds : kinds rs = ops.map Arg.decoder := by rw [h.results_eq, kinds_decoders]
  refine ⟨fun seqs rs' hrs' m reply => opnumsMatch_iff ?_ _, ?_, ?_⟩
  · rw [hrs', List.map_append, List.map_map, ← h.results_eq]
    rfl
  · intro hall a ha hbare
    obtain ⟨first, rest, rfl, hfirst⟩ := h.bareStatus_first ha hbare
    have hrs : rs = .status {} :: rest.map Arg.decoder := by
      rw [h.results_eq, List.map_cons, show first.decoder = .status {} from hfirst]
    subst hrs
    obtain ⟨hok, hopnum⟩ := decodeCompound_forgedReply (rest.map Arg.decoder) (first.op + 1)
    obtain ⟨p, a, hp, ha, hop⟩ := hall 0 (forgedReply (first.op + 1)) _ hok 0 (Nat.zero_lt_one)
    obtain rfl : first = a := Option.some.inj ha
    have hne : first.op ≠ first.op + 1 := by simp
    exact hne ((hop trivial).symm.trans (hopnum p hp))
  · intro hnone m reply
    refine (opnumsMatch_iff hkinds _).mpr fun r hok i hi => ?_
    obtain ⟨p, a, hp, ha, -⟩ := exists_resop hkinds hok hi
    exact ⟨p, a, hp, ha, fun hbare => absurd hbare (hnone a (List.mem_of_getElem? ha))⟩

/-- The compound of `Lookup`, and a reply that it may get. -/
theorem opnums_match_lookup :
    (newConn .rpc {}).Builds [.putfh none, .lookup [97], .getfh]
        [.status {}, .status {}, .getfh {}] ∧
      (OpnumsMatch (fun _ => True) [.putfh none, .lookup [97], .getfh]
          [.status {}, .status {}, .getfh {}] (input 0 (forgedReply opPutfh)) ↔
        OpnumsMatch Arg.BareStatus [.putfh none, .lookup [97], .getfh]
          [.status {}, .status {}, .getfh {}] (input 0 (forgedReply opPutfh))) := by
  have h : (newConn .rpc {}).Builds [.putfh none, .lookup [97], .getfh]
      [.status {}, .status {}, .getfh {}] := .method (.lookup none [97])
  exact ⟨h, (opnums_match_iff h).1 [] _ rfl 0 _⟩

/-- `Lookup` accepts a reply whose resops are those of PUTROOTFH, REMOVE and GETFH. -/
theorem opnums_not_match_lookup :
    ¬ OpnumsMatch (fun _ => True) (lookupOp none [97]).ops (lookupOp none [97]).results
      (input 0 (replyBytes nfs4Ok [⟨opPutrootfh, nfs4Ok, []⟩, ⟨opRemove, nfs4Ok, []⟩,
        ⟨opGetfh, nfs4Ok, word 0⟩])) := by
  intro h
  obtain ⟨p, a, hp, ha, hop⟩ := h { status := nfs4Ok, tag := [], numResults := 3 }
    (by decide +kernel) 1 (by decide)
  obtain rfl : Arg.lookup [97] = a := Option.some.inj ha
  have hread : ((resops (lookupOp none [97]).results
      (input 0 (replyBytes nfs4Ok [⟨opPutrootfh, nfs4Ok, []⟩, ⟨opRemove, nfs4Ok, []⟩,
        ⟨opGetfh, nfs4Ok, word 0⟩])))[1]?).map DecodedResop.opnum = some opRemove := by
    decide +kernel
  rw [hp, Option.map_some, hop trivial] at hread
  exact absurd hread (by decide)

end NfsClient.Nfs4
