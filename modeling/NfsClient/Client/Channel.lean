import NfsClient.Client.OpenFile
import NfsClient.Client.Transfer
import NfsClient.Nfs4.RequestSize

/-!
# The size of the requests that a write sends

The server grants a session a size for the requests on its channel, in the reply to
CREATE_SESSION.  The client keeps nothing of it but the number of slots: `WriteAt` sends all that
is left of its buffer in one WRITE.  So the first WRITE is the largest, and the requests fit
exactly if it does.
-/

namespace NfsClient.Client

open NfsClient.Nfs4 NfsClient.Xdr

/-- All requests fit into a size. -/
def Fits (cli : Rpc.Client) (size : ℕ) (es : List Event) : Prop :=
  ∀ c reply, .call c reply ∈ es → requestSize cli c ≤ size

lemma fits_append {cli : Rpc.Client} {size : ℕ} {es es' : List Event} :
    Fits cli size (es ++ es') ↔ Fits cli size es ∧ Fits cli size es' := by
  simp only [Fits, List.mem_append, or_imp, forall_and]

/-- The size of a WRITE of so many bytes. -/
def writeSize (cli : Rpc.Client) (fh : FileHandle) (len : ℕ) : ℕ :=
  headerSize cli + 92 + Encoder.padded (fh.getD []).length + Encoder.padded len

lemma writeSize_mono (cli : Rpc.Client) (fh : FileHandle) {m n : ℕ} (h : m ≤ n) :
    writeSize cli fh m ≤ writeSize cli fh n := by
  have := Encoder.padded_mono h
  unfold writeSize
  omega

section Sent

variable {W : Type} {E : Env W} {c : Conn} {q : ℕ} {cfg : RetryConfig} {f : File} {p : Bytes}

/-- The operations of the WRITE of a turn. -/
def File.writeOps (f : File) (p : Bytes) (off : Int64) (total : ℕ) : List Arg :=
  (writeOp f.fh f.stateid (off.toUInt64 + UInt64.ofNat total) (p.drop total) fileSync4).ops

lemma requestSize_of_write {cli : Rpc.Client} {comp : Compound} {off : Int64} {total : ℕ}
    (h : comp.Carries (f.writeOps p off total)) :
    requestSize cli comp = writeSize cli f.fh (p.length - total) := by
  rw [requestSize_of_carries h, File.writeOps, writeSize]
  simp only [writeOp, List.flatMap_cons, List.flatMap_nil, List.length_append, List.length_nil,
    length_encodeArg_putfh, length_encodeArg_write, List.length_drop]
  omega

/-- The requests that the loop of `writeAt` sends from `total`: WRITEs of what is left of the
buffer, and one of all that is left if a WRITE is due. -/
structure SendsRest (f : File) (p : Bytes) (off : Int64) (total : ℕ) (due : Prop)
    (es : List Event) : Prop where
  rest : ∀ comp reply, .call comp reply ∈ es → ∃ t ≥ total, comp.Carries (f.writeOps p off t)
  first : due → ∃ comp reply, .call comp reply ∈ es ∧ comp.Carries (f.writeOps p off total)
  none : ¬ due → ∀ comp reply, .call comp reply ∉ es

/-- A turn that is the last one. -/
lemma sendsRest_of_turn {off : Int64} {total : ℕ} {due : Prop} {es : List Event}
    (h : ∀ comp reply, .call comp reply ∈ es → comp.Carries (f.writeOps p off total))
    (hdue : (∃ comp reply, .call comp reply ∈ es) ↔ due) : SendsRest f p off total due es where
  rest comp reply hmem := ⟨total, le_rfl, h comp reply hmem⟩
  first hd := by
    obtain ⟨comp, reply, hmem⟩ := hdue.mpr hd
    exact ⟨comp, reply, hmem, h comp reply hmem⟩
  none hd comp reply hmem := hd (hdue.mp ⟨comp, reply, hmem⟩)

/-- The loop of `writeAt` over a connection with one session.  A WRITE is due if there is something
to write and the call reaches the transport. -/
lemma sendsRest_writeAtLoop (hc : c.caller = .retry (sessionStack [q]) cfg) (off : Int64)
    (fuel total : ℕ) (hfuel : p.length ≤ total + fuel) (n : Net W) :
    ∃ es, (f.writeAtLoop (RWFS.protocol E) p off fuel total (c, n)).2.2.log = n.log ++ es ∧
      SendsRest f p off total (total < p.length ∧ c.caller.Reaches E n) es := by
  have hnothing {total : ℕ} {n : Net W} (h : ¬ total < p.length) :
      SendsRest f p off total (total < p.length ∧ c.caller.Reaches E n) [] :=
    sendsRest_of_turn (by simp) (by simp [h])
  induction fuel generalizing total n with
  | zero => exact ⟨[], (List.append_nil _).symm, hnothing (by omega)⟩
  | succ fuel ih =>
      by_cases hlt : total < p.length
      · obtain ⟨es, hlog, hcarries, hsent, hreach⟩ := (writeOp f.fh f.stateid
          (off.toUInt64 + UInt64.ofNat total) (p.drop total) fileSync4).exec_carries (E := E) hc n
        replace hsent := hsent.trans (and_iff_right hlt).symm
        rcases hw : (writeOp f.fh f.stateid (off.toUInt64 + UInt64.ofNat total) (p.drop total)
          fileSync4).exec E c n with ⟨e | ⟨k, st⟩, n'⟩
        all_goals
          rw [hw] at hlog hreach
          simp only [File.writeAtLoop, if_pos hlt, RWFS.protocol, hw]
        · exact ⟨es, hlog, sendsRest_of_turn hcarries hsent⟩
        · by_cases hk : k = 0
          · rw [if_pos hk]
            exact ⟨es, hlog, sendsRest_of_turn hcarries hsent⟩
          · rw [if_neg hk]
            have hpos := File.toNat_pos hk
            obtain ⟨es', hlog', hrest⟩ := ih (total + k.toNat) (by omega) n'
            refine ⟨es ++ es', hlog'.trans (by rw [hlog, List.append_assoc]), ?_, fun hdue => ?_,
              fun hnot => absurd ⟨hlt, hreach rfl⟩ hnot⟩
            · intro comp reply hmem
              rcases List.mem_append.mp hmem with hmem | hmem
              · exact ⟨total, le_rfl, hcarries comp reply hmem⟩
              · obtain ⟨t, ht, hcomp⟩ := hrest.rest comp reply hmem
                exact ⟨t, by omega, hcomp⟩
            · obtain ⟨comp, reply, hmem⟩ := hsent.mpr hdue
              exact ⟨comp, reply, List.mem_append_left _ hmem, hcarries comp reply hmem⟩
      · rw [File.writeAtLoop, if_neg hlt]
        exact ⟨[], (List.append_nil _).symm, hnothing hlt⟩

/-- The first WRITE is the largest request, so it decides. -/
lemma SendsRest.fits_iff {off : Int64} {due : Prop} {es : List Event}
    (h : SendsRest f p off 0 due es) (cli : Rpc.Client) (size : ℕ) :
    Fits cli size es ↔ ¬ due ∨ writeSize cli f.fh p.length ≤ size := by
  refine ⟨fun hfits => or_iff_not_imp_left.mpr fun hdue => ?_, fun hor comp reply hmem => ?_⟩
  · obtain ⟨comp, reply, hmem, hcomp⟩ := h.first (not_not.mp hdue)
    have hsize := hfits comp reply hmem
    rwa [requestSize_of_write hcomp] at hsize
  · rcases hor with hnone | hle
    · exact absurd hmem (h.none hnone comp reply)
    · obtain ⟨t, -, hcomp⟩ := h.rest comp reply hmem
      rw [requestSize_of_write hcomp]
      exact (writeSize_mono cli f.fh (Nat.sub_le _ _)).trans hle

/-! ### GETATTR -/

/-- The sizes that are assumed: of the credential, with no verifier (`AuthNull`), of the file
handle, and of what is granted. -/
structure Sized (cli : Rpc.Client) (fh : FileHandle) (size : ℕ) : Prop where
  cred : cli.opts.cred.body.length ≤ 400
  verf : cli.opts.verf.body = []
  fh_le : (fh.getD []).length ≤ 128
  size_ge : 4096 ≤ size

lemma fits_getAttr {cli : Rpc.Client} {size : ℕ} {es : List Event} (hsized : Sized cli f.fh size)
    (h : ∀ comp reply, .call comp reply ∈ es →
      comp.Carries (getAttrOp f.fh Attr.standardMask).ops) : Fits cli size es := by
  intro comp reply hmem
  have hmask : Attr.standardMask.length = 2 := by decide
  have hcred := Encoder.padded_lt cli.opts.cred.body.length
  have hfh := Encoder.padded_lt (f.fh.getD []).length
  have hverf : Encoder.padded cli.opts.verf.body.length = 0 := by
    rw [hsized.verf]
    rfl
  have := hsized.cred
  have := hsized.fh_le
  have := hsized.size_ge
  rw [requestSize_of_carries (h comp reply hmem), headerSize, hverf]
  simp only [getAttrOp, List.flatMap_cons, List.flatMap_nil, List.length_append, List.length_nil,
    length_encodeArg_putfh, length_encodeArg_getattr, hmask]
  omega

/-! ### `WriteAt` and `Write` -/

/-- There is something to write, and the call reaches the transport. -/
def DataDue (E : Env W) (c : Conn) (p : Bytes) (n : Net W) : Prop :=
  p ≠ [] ∧ c.caller.Reaches E n

/-- `WriteAt` gets to a WRITE. -/
def File.WriteAtDue (f : File) (E : Env W) (c : Conn) (p : Bytes) (off : Int64) (n : Net W) :
    Prop :=
  f.closed = false ∧ ¬ off < 0 ∧ DataDue E c p n

/-- `Write` gets to a WRITE.  With `O_APPEND`, GETATTR has to be answered with a size first. -/
def File.WriteDue (f : File) (E : Env W) (c : Conn) (p : Bytes) (n : Net W) : Prop :=
  f.closed = false ∧
    if f.flag &&& oAppend ≠ 0 then
      (∃ mask vals attrs, ((getAttrOp f.fh Attr.standardMask).exec E c n).1 = .ok (mask, vals) ∧
        Attr.decode mask vals = .ok attrs) ∧
        DataDue E c p ((getAttrOp f.fh Attr.standardMask).exec E c n).2
    else DataDue E c p n

/-- When the requests of a write fit. -/
def FitsIff (cli : Rpc.Client) (size : ℕ) (f : File) (p : Bytes) (due : Prop) (es : List Event) :
    Prop :=
  Fits cli size es ↔ ¬ due ∨ writeSize cli f.fh p.length ≤ size

variable {cli : Rpc.Client} {size : ℕ}

lemma fitsIff_of_not_due {due : Prop} {es : List Event} (hfits : Fits cli size es) (hdue : ¬ due) :
    FitsIff cli size f p due es := iff_of_true hfits (Or.inl hdue)

lemma fitsIff_nil {due : Prop} (hdue : ¬ due) : FitsIff cli size f p due [] :=
  fitsIff_of_not_due (by simp [Fits]) hdue

lemma writeAllAt_fitsIff (hc : c.caller = .retry (sessionStack [q]) cfg) (off : Int64) (n : Net W) :
    ∃ es, (f.writeAllAt (RWFS.protocol E) p off (c, n)).2.2.log = n.log ++ es ∧
      FitsIff cli size f p (DataDue E c p n) es := by
  obtain ⟨es, hlog, hrest⟩ := sendsRest_writeAtLoop (E := E) (f := f) (p := p) hc off p.length 0
    (by omega) n
  rw [List.length_pos_iff] at hrest
  exact ⟨es, hlog, hrest.fits_iff cli size⟩

lemma writeAt_fitsIff (hc : c.caller = .retry (sessionStack [q]) cfg) (off : Int64) (n : Net W) :
    ∃ es, (f.writeAt (RWFS.protocol E) p off (c, n)).2.2.log = n.log ++ es ∧
      FitsIff cli size f p (f.WriteAtDue E c p off n) es := by
  unfold File.writeAt File.WriteAtDue
  by_cases hclosed : f.closed = true
  · rw [if_pos hclosed]
    exact ⟨[], (List.append_nil _).symm, fitsIff_nil (by simp [hclosed])⟩
  rw [if_neg hclosed]
  by_cases hneg : off < 0
  · rw [if_pos hneg]
    exact ⟨[], (List.append_nil _).symm, fitsIff_nil (by simp [hneg])⟩
  rw [if_neg hneg, and_iff_right (Bool.eq_false_of_not_eq_true hclosed), and_iff_right hneg]
  exact writeAllAt_fitsIff hc off n

lemma write_fitsIff (hc : c.caller = .retry (sessionStack [q]) cfg)
    (hsized : Sized cli f.fh size) (n : Net W) :
    ∃ es, (f.write (RWFS.protocol E) p (c, n)).2.2.2.log = n.log ++ es ∧
      FitsIff cli size f p (f.WriteDue E c p n) es := by
  unfold File.write File.WriteDue
  by_cases hclosed : f.closed = true
  · rw [if_pos hclosed]
    exact ⟨[], (List.append_nil _).symm, fitsIff_nil (by simp [hclosed])⟩
  rw [if_neg hclosed, and_iff_right (Bool.eq_false_of_not_eq_true hclosed)]
  by_cases happ : f.flag &&& oAppend ≠ 0
  · -- GETATTR asks for the size first
    rw [if_pos happ, if_pos happ, File.size_eq]
    obtain ⟨es, hlog, hcarries, -⟩ :=
      (getAttrOp f.fh Attr.standardMask).exec_carries (E := E) hc n
    have hfits := fits_getAttr hsized hcarries
    rcases hget : (getAttrOp f.fh Attr.standardMask).exec E c n with ⟨e | ⟨mask, vals⟩, n₁⟩
    all_goals
      rw [hget] at hlog
      simp only [RWFS.protocol, hget, Except.bind]
    · exact ⟨es, hlog, fitsIff_of_not_due hfits (by simp)⟩
    · cases hdec : Attr.decode mask vals with
      | error e => exact ⟨es, hlog, fitsIff_of_not_due hfits (by simp [hdec])⟩
      | ok attrs =>
          obtain ⟨es', hlog', hiff⟩ :
              ∃ es', (f.writeAllAt (RWFS.protocol E) p attrs.size.toInt64 (c, n₁)).2.2.log
                = n₁.log ++ es' ∧ FitsIff cli size f p (DataDue E c p n₁) es' :=
            writeAllAt_fitsIff hc attrs.size.toInt64 n₁
          refine ⟨es ++ es', hlog'.trans (by rw [hlog, List.append_assoc]), ?_⟩
          rw [FitsIff, fits_append, and_iff_right hfits,
            and_iff_right ⟨mask, vals, attrs, rfl, hdec⟩]
          exact hiff
  · rw [if_neg happ, if_neg happ]
    exact writeAllAt_fitsIff hc f.offset n

end Sent

/-- **When the requests of a write fit into what the session is granted.**  Whatever the server
answers, all requests that `WriteAt` and `Write` send fit exactly if they do not get to a WRITE or a
WRITE of the whole buffer fits. -/
theorem write_fits_iff {W : Type} {E : Env W} {c : Conn} {size : ℕ}
    (hgrant : GrantsRequests E c size) {cli : Rpc.Client} {f : File}
    (hsized : Sized cli f.fh size) (p : Bytes) (off : Int64) (n : Net W) :
    (Fits cli size (eventsSince n (f.writeAt (RWFS.protocol E) p off (c, n)).2.2) ↔
      ¬ f.WriteAtDue E c p off n ∨ writeSize cli f.fh p.length ≤ size) ∧
    (Fits cli size (eventsSince n (f.write (RWFS.protocol E) p (c, n)).2.2.2) ↔
      ¬ f.WriteDue E c p n ∨ writeSize cli f.fh p.length ≤ size) := by
  obtain ⟨q, cfg, hc⟩ := hgrant.caller
  obtain ⟨es, hlog, hiff⟩ := writeAt_fitsIff (E := E) (f := f) (p := p) hc off n
  obtain ⟨es', hlog', hiff'⟩ := write_fitsIff (E := E) (p := p) hc hsized n
  rw [RWFS.eventsSince_of_log hlog, RWFS.eventsSince_of_log hlog']
  exact ⟨hiff, hiff'⟩

/-- CREATE_SESSION is answered with a session whose requests may have 4096 bytes. -/
def smallSession : Bytes :=
  replyBytes nfs4Ok [⟨opCreateSession, nfs4Ok,
    List.replicate 28 0 ++ word 4096 ++ List.replicate 48 0⟩]

/-- A v4.1 connection. -/
def conn41 : Conn := newConn .rpc { minorVersion := 1 }

/-- The connection with such a session, and the network with the replies to come. -/
def sessionOf (replies : List Bytes) : Conn × Net (List (Except Err Bytes)) :=
  (conn41.createSession scriptEnv (scripted (smallSession :: replies))).2

/-- The answer to a WRITE of three bytes. -/
def writtenReply : Bytes :=
  replyBytes nfs4Ok [⟨opSequence, nfs4Ok, List.replicate 36 0⟩, ⟨opPutfh, nfs4Ok, []⟩,
    ⟨opWrite, nfs4Ok, word 3 ++ word 2 ++ List.replicate 8 0⟩]

lemma sessionOf_grants {replies : List Bytes}
    (h : (((createSessionOp conn41.clientID conn41.eirSequence).exec scriptEnv conn41
      (scripted (smallSession :: replies))).1.toOption.map
        fun res => res.toCreateSession.foreChan.maxRequestSize.toNat) = some 4096) :
    GrantsRequests scriptEnv (sessionOf replies).1 4096 := by
  unfold sessionOf
  exact grantsRequests_createSession (c := conn41) (n := scripted (smallSession :: replies)) rfl h

/-- Three bytes are written in one request that fits. -/
theorem write_fits_threeBytes :
    (openedFile.writeAt (RWFS.protocol scriptEnv) [1, 2, 3] 0
        ((sessionOf [writtenReply]).1, (sessionOf [writtenReply]).2)).1
        = { buf := [1, 2, 3], n := 3 } ∧
      Fits { nextID := 0 } 4096 (eventsSince (sessionOf [writtenReply]).2
        (openedFile.writeAt (RWFS.protocol scriptEnv) [1, 2, 3] 0
          ((sessionOf [writtenReply]).1, (sessionOf [writtenReply]).2)).2.2) := by
  have hgrant : GrantsRequests scriptEnv (sessionOf [writtenReply]).1 4096 :=
    sessionOf_grants (by decide +kernel)
  have hsized : Sized { nextID := 0 } openedFile.fh 4096 := ⟨by decide, rfl, by decide, le_rfl⟩
  obtain ⟨hiff, -⟩ := write_fits_iff hgrant hsized [1, 2, 3] 0 (sessionOf [writtenReply]).2
  exact ⟨by decide +kernel, hiff.mpr (Or.inr (by decide))⟩

/-- A buffer of 4096 bytes is sent in one request of 4228 bytes, although 4096 are granted. -/
theorem write_exceeds_channel :
    GrantsRequests scriptEnv (sessionOf []).1 4096 ∧
      (eventsSince (sessionOf []).2 (openedFile.writeAt (RWFS.protocol scriptEnv)
        (List.replicate 4096 0) 0 ((sessionOf []).1, (sessionOf []).2)).2.2).filterMap
          (Event.requestSize { nextID := 0 }) = [4228] := by
  exact ⟨sessionOf_grants (by decide +kernel), by decide +kernel⟩

end NfsClient.Client
