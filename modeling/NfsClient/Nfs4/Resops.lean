import NfsClient.Nfs4.Compound
import NfsClient.Xdr.Consumes

/-!
# The resops of a reply

The resops of a reply have no framing: where one of them begins is known only when the one before
it has been decoded.  `resops` lists those whose bodies `DecodeCompound` decodes, each with the
operation number in front of it; the results are the decoded bodies, followed by the decoders that
no resop has reached.  Every resop is a part of the reply.
-/

namespace NfsClient.Nfs4

open NfsClient.Lib NfsClient.Xdr NfsClient.Xdr.Decoder

/-- A resop whose body is decoded: the result decoder, the operation number, and the decoder in
front of the body. -/
structure DecodedResop where
  res : Res
  opnum : Opnum
  body : Decoder

/-- The result that is decoded. -/
def DecodedResop.result (p : DecodedResop) : Res := (p.res.decodeRes p.body).1

/-- The resops that the loop of `DecodeCompound` decodes.  The last of them may be cut off. -/
def resopsFrom : ℕ → List Res → Decoder → List DecodedResop
  | k + 1, r :: rs, d =>
    match uint32 d with
    | (opnum, d₁) =>
      if d₁.err.isSome ∨ (r.expectedOp ≠ 0 ∧ r.expectedOp ≠ opnum) then []
      else match r.decodeRes d₁ with
        | (_, d₂) => ⟨r, opnum, d₁⟩ :: if d₂.err.isSome then [] else resopsFrom k rs d₂
  | _, _, _ => []

/-- The resops behind a header. -/
def resopsBehind (rs : List Res) : Except Err CompoundResult × Decoder → List DecodedResop
  | (.error _, _) => []
  | (.ok r, d) => resopsFrom r.numResults rs d

/-- The resops of a reply. -/
def resops (rs : List Res) (d : Decoder) : List DecodedResop :=
  resopsBehind rs (decodeHeader rs.length d)

lemma resopsFrom_cons (k : ℕ) (r : Res) (rs : List Res) (d : Decoder) :
    resopsFrom (k + 1) (r :: rs) d =
      if (uint32 d).2.err.isSome ∨ (r.expectedOp ≠ 0 ∧ r.expectedOp ≠ (uint32 d).1) then []
      else ⟨r, (uint32 d).1, (uint32 d).2⟩ ::
        if (r.decodeRes (uint32 d).2).2.err.isSome then []
        else resopsFrom k rs (r.decodeRes (uint32 d).2).2 := rfl

section Turn

variable {i : ℕ} {r r' : Res} {d d' : Decoder}

lemma resopsFrom_of_decoded (h : decodeResop i r d = ((r', none), d')) (k : ℕ) (rs : List Res) :
    resopsFrom (k + 1) (r :: rs) d
      = ⟨r, (uint32 d).1, (uint32 d).2⟩ :: resopsFrom k rs d' := by
  obtain ⟨herr, hop, hdec, herr'⟩ := decodeResop_decoded h
  rw [resopsFrom_cons, hdec, if_neg (by simp [herr, hop]), if_neg (by simp [herr'])]

/-- A turn that fails stops before the body, or in the body. -/
lemma resopsFrom_of_failed {e : Err} (h : decodeResop i r d = ((r', some e), d')) (k : ℕ)
    (rs : List Res) :
    (resopsFrom (k + 1) (r :: rs) d = [] ∧ r' = r) ∨
      ∃ p, resopsFrom (k + 1) (r :: rs) d = [p] ∧ r' = p.result := by
  rw [resopsFrom_cons]
  cases herr : (uint32 d).2.err with
  | some e₁ =>
      simp only [decodeResop, herr, Prod.mk.injEq] at h
      exact Or.inl ⟨if_pos (Or.inl rfl), h.1.1.symm⟩
  | none =>
      by_cases hop : r.expectedOp ≠ 0 ∧ r.expectedOp ≠ (uint32 d).1
      · simp only [decodeResop, herr, if_pos hop, Prod.mk.injEq] at h
        exact Or.inl ⟨if_pos (Or.inr hop), h.1.1.symm⟩
      · simp only [decodeResop, herr, if_neg hop, Prod.mk.injEq] at h
        obtain ⟨e', he', -⟩ := Option.map_eq_some_iff.mp h.1.2
        refine Or.inr ⟨⟨r, (uint32 d).1, (uint32 d).2⟩, ?_, h.1.1.symm⟩
        rw [if_neg (by simp [hop]), if_pos (by simp [he'])]

end Turn

/-- The resops are decoded by the first decoders, one after the other. -/
lemma res_isPrefix_from (k : ℕ) (rs : List Res) (d : Decoder) :
    (resopsFrom k rs d).map DecodedResop.res <+: rs := by
  induction k generalizing rs d with
  | zero => cases rs <;> exact List.nil_prefix
  | succ k ih =>
      cases rs with
      | nil => exact List.nil_prefix
      | cons r rs =>
          rw [resopsFrom_cons]
          split
          · exact List.nil_prefix
          · rw [List.map_cons, List.cons_prefix_cons]
            refine ⟨rfl, ?_⟩
            split
            · exact List.nil_prefix
            · exact ih _ _

/-- A decoder that advertises an operation number gets no resop with another one. -/
lemma opnum_of_mem {k : ℕ} {rs : List Res} {d : Decoder} {p : DecodedResop}
    (h : p ∈ resopsFrom k rs d) : p.res.expectedOp = 0 ∨ p.opnum = p.res.expectedOp := by
  induction k generalizing rs d with
  | zero => cases rs <;> cases h
  | succ k ih =>
      cases rs with
      | nil => cases h
      | cons r rs =>
          rw [resopsFrom_cons] at h
          split at h
          · cases h
          · next hop =>
              rcases List.mem_cons.mp h with rfl | h
              · by_contra hne
                exact hop (Or.inr ⟨fun h => hne (Or.inl h), fun h => hne (Or.inr h.symm)⟩)
              · split at h
                · cases h
                · exact ih h

/-- A loop that succeeds decodes as many resops as the header announces. -/
lemma length_resopsFrom {k i : ℕ} {rs : List Res} {d : Decoder} (hk : k ≤ rs.length)
    (h : (decodeResops k i rs d).1.2 = none) : (resopsFrom k rs d).length = k := by
  induction k generalizing i rs d with
  | zero => cases rs <;> rfl
  | succ k ih =>
      cases rs with
      | nil => cases hk
      | cons r rs =>
          rcases ht : decodeResop i r d with ⟨⟨r', - | e⟩, d'⟩
          · rw [decodeResops_of_decoded ht] at h
            rw [resopsFrom_of_decoded ht, List.length_cons, ih (Nat.le_of_succ_le_succ hk) h]
          · rw [decodeResops_of_failed ht] at h
            cases h

/-- The results are the decoded bodies and the decoders behind them. -/
lemma decodeResops_eq_resops (k i : ℕ) (rs : List Res) (d : Decoder) :
    (decodeResops k i rs d).1.1
      = (resopsFrom k rs d).map DecodedResop.result ++ rs.drop (resopsFrom k rs d).length := by
  induction k generalizing i rs d with
  | zero => cases rs <;> rfl
  | succ k ih =>
      cases rs with
      | nil => rfl
      | cons r rs =>
          rcases ht : decodeResop i r d with ⟨⟨r', - | e⟩, d'⟩
          · obtain ⟨-, -, hdec, -⟩ := decodeResop_decoded ht
            rw [decodeResops_of_decoded ht, resopsFrom_of_decoded ht]
            simp [ih (i + 1) rs d', DecodedResop.result, hdec]
          · rw [decodeResops_of_failed ht]
            rcases resopsFrom_of_failed ht k rs with ⟨hnil, rfl⟩ | ⟨p, hp, rfl⟩
            · rw [hnil]
              rfl
            · rw [hp]
              rfl

section Header

variable {rs : List Res} {d d' : Decoder} {r : CompoundResult}

lemma resops_of_rejected {e : Err} (h : decodeHeader rs.length d = (.error e, d')) :
    resops rs d = [] := by
  rw [resops, h, resopsBehind]

lemma resops_of_header (h : decodeHeader rs.length d = (.ok r, d')) :
    resops rs d = resopsFrom r.numResults rs d' := by
  rw [resops, h, resopsBehind]

end Header

lemma res_isPrefix (rs : List Res) (d : Decoder) : (resops rs d).map DecodedResop.res <+: rs := by
  rcases hh : decodeHeader rs.length d with ⟨e | r, d'⟩
  · rw [resops_of_rejected hh]
    exact List.nil_prefix
  · rw [resops_of_header hh]
    exact res_isPrefix_from _ rs d'

lemma length_resops {rs : List Res} {d : Decoder} {r : CompoundResult}
    (h : (decodeCompound rs d).1.2 = .ok r) : (resops rs d).length = r.numResults := by
  obtain ⟨d', hh, hnone⟩ := header_of_decodeCompound h
  rw [resops_of_header hh]
  exact length_resopsFrom (decodeHeader_ok hh).1 hnone

lemma opnum_of_mem_resops {rs : List Res} {d : Decoder} {p : DecodedResop} (h : p ∈ resops rs d) :
    p.res.expectedOp = 0 ∨ p.opnum = p.res.expectedOp := by
  rcases hh : decodeHeader rs.length d with ⟨e | r, d'⟩
  · rw [resops_of_rejected hh] at h
    cases h
  · rw [resops_of_header hh] at h
    exact opnum_of_mem h

lemma decodeCompound_eq_resops (rs : List Res) (d : Decoder) :
    (decodeCompound rs d).1.1
      = (resops rs d).map DecodedResop.result ++ rs.drop (resops rs d).length := by
  rcases hh : decodeHeader rs.length d with ⟨e | r, d'⟩
  · rw [decodeCompound_of_rejected hh, resops_of_rejected hh]
    rfl
  · rw [decodeCompound_of_header hh, resops_of_header hh]
    exact decodeResops_eq_resops _ _ rs d'

/-! ## No result gives input back -/

lemma shrinks_decodeWords (n : ℕ) : Shrinks (decodeWords n) := by
  induction n with
  | zero => exact .pure []
  | succ n ih => exact shrinks_uint32.bind fun _ => ih.bind fun _ => .pure _

lemma shrinks_decodeBitmap : Shrinks decodeBitmap :=
  shrinks_uint32.bind fun n => (shrinks_decodeWords n.toNat).unlessFailed []

lemma shrinks_decodeStateid : Shrinks decodeStateid :=
  shrinks_uint32.bind fun _ => (shrinks_fixedOpaque 12).bind fun _ => .pure _

lemma shrinks_skipChangeInfo : Shrinks skipChangeInfo :=
  shrinks_bool.bind fun _ => shrinks_uint64.bind fun _ => shrinks_uint64.bind fun _ => .pure _

lemma shrinks_decodeNfsace4 : Shrinks decodeNfsace4 :=
  shrinks_uint32.bind fun _ => shrinks_uint32.bind fun _ => shrinks_uint32.bind fun _ =>
    shrinks_string.bind fun _ => .pure _

lemma shrinks_decodeSpaceLimit : Shrinks decodeSpaceLimit :=
  shrinks_uint32.bind fun _ => .ite (shrinks_uint64.bind fun _ => .pure _) <|
    .ite (shrinks_uint32.bind fun _ => shrinks_uint32.bind fun _ => .pure _) (.pure _)

lemma shrinks_skipDelegation : Shrinks skipDelegation :=
  shrinks_uint32.bind fun _ =>
    .ite (shrinks_decodeStateid.bind fun _ => shrinks_bool.bind fun _ => shrinks_decodeNfsace4) <|
    .ite (shrinks_decodeStateid.bind fun _ => shrinks_bool.bind fun _ =>
      shrinks_decodeSpaceLimit.bind fun _ => shrinks_decodeNfsace4) (.pure _)

lemma shrinks_skipWords (n : ℕ) : Shrinks (skipWords n) := by
  induction n with
  | zero => exact .pure ()
  | succ n ih => exact shrinks_uint32.bind fun _ => ih

lemma shrinks_decodeChannelAttrs : Shrinks decodeChannelAttrs :=
  shrinks_uint32.bind fun _ => shrinks_uint32.bind fun _ => shrinks_uint32.bind fun _ =>
    shrinks_uint32.bind fun _ => shrinks_uint32.bind fun _ => shrinks_uint32.bind fun _ =>
      shrinks_uint32.bind fun n => (shrinks_skipWords n.toNat).bind fun _ => .pure _

lemma shrinks_skipImplIDs (n : ℕ) : Shrinks (skipImplIDs n) := by
  induction n with
  | zero => exact .pure ()
  | succ n ih =>
      exact shrinks_string.bind fun _ => shrinks_string.bind fun _ => shrinks_int64.bind fun _ =>
        shrinks_uint32.bind fun _ => ih

lemma shrinks_dirEntry : Shrinks DirEntry.decode :=
  shrinks_uint64.bind fun _ => shrinks_string.bind fun _ => shrinks_decodeBitmap.bind fun _ =>
    shrinks_varOpaque.bind fun _ => .pure _

/-- One turn of the loop over the entries. -/
lemma decodeEntries_succ (fuel : ℕ) (es : List DirEntry) (d : Decoder) :
    decodeEntries (fuel + 1) es d =
      if (bool d).2.err.isSome || !(bool d).1 then ((es, true), (bool d).2)
      else if (DirEntry.decode (bool d).2).2.err.isSome then
        ((es, false), (DirEntry.decode (bool d).2).2)
      else
        decodeEntries fuel (es ++ [(DirEntry.decode (bool d).2).1])
          (DirEntry.decode (bool d).2).2 := by
  rcases h₁ : bool d with ⟨more, d₁⟩
  rcases h₂ : DirEntry.decode d₁ with ⟨e, d₂⟩
  simp only [decodeEntries, h₁, h₂]

lemma shrinks_decodeEntries (fuel : ℕ) (es : List DirEntry) : Shrinks (decodeEntries fuel es) := by
  induction fuel generalizing es with
  | zero => exact .pure _
  | succ fuel ih =>
      intro d
      have hmore := shrinks_bool d
      have hentry := shrinks_dirEntry (bool d).2
      rw [decodeEntries_succ]
      split
      · exact hmore
      · split
        · exact le_trans hentry hmore
        · exact le_trans (ih _ _) (le_trans hentry hmore)

/-- A result reads its status and, on success, a body. -/
lemma shrinks_onSuccess {α : Type} {x : Status → Dec α} {y : Status → α}
    (hx : ∀ s, Shrinks (x s)) :
    Shrinks (uint32 >>= fun s => if s = nfs4Ok then x s else pure (y s)) :=
  shrinks_uint32.bind fun s => .ite (hx s) (.pure (y s))

lemma shrinks_decodeRes (r : Res) : Shrinks r.decodeRes := by
  cases r with
  | status r | destroySession r | destroyClientID r | reclaimComplete r =>
      exact (shrinks_uint32.bind fun _ => .pure _).map _
  | getfh r =>
      exact (shrinks_onSuccess fun _ => shrinks_varOpaque.bind fun _ => .pure _).map _
  | getattr r =>
      exact (shrinks_onSuccess fun _ => shrinks_decodeBitmap.bind fun _ =>
        shrinks_varOpaque.bind fun _ => .pure _).map _
  | setclientid r =>
      -- NFS4ERR_CLID_INUSE has a body too
      exact (shrinks_uint32.bind fun _ => .ite
        (shrinks_uint64.bind fun _ => (shrinks_fixedOpaque 8).bind fun _ => .pure _)
        (.ite (shrinks_string.bind fun _ => shrinks_string.bind fun _ => .pure _) (.pure _))).map _
  | read r =>
      exact (shrinks_onSuccess fun _ => shrinks_bool.bind fun _ =>
        shrinks_varOpaque.bind fun _ => .pure _).map _
  | readdir r =>
      refine (shrinks_onSuccess fun _ => (shrinks_fixedOpaque 8).bind fun _ =>
        Shrinks.bind ?_ ?_).map _
      · exact fun d => shrinks_decodeEntries _ _ d
      · exact fun _ => .ite (shrinks_bool.bind fun _ => .pure _) (.pure _)
  | readlink r =>
      exact (shrinks_onSuccess fun _ => shrinks_string.bind fun _ => .pure _).map _
  | openFile r =>
      exact (shrinks_onSuccess fun _ => shrinks_decodeStateid.bind fun _ =>
        shrinks_skipChangeInfo.bind fun _ => shrinks_uint32.bind fun _ =>
          shrinks_decodeBitmap.bind fun _ => shrinks_skipDelegation.bind fun _ => .pure _).map _
  | openConfirm r | close r =>
      exact (shrinks_onSuccess fun _ => shrinks_decodeStateid.bind fun _ => .pure _).map _
  | write r =>
      exact (shrinks_onSuccess fun _ => shrinks_uint32.bind fun _ => shrinks_uint32.bind fun _ =>
        (shrinks_fixedOpaque 8).bind fun _ => .pure _).map _
  | commit r =>
      exact (shrinks_onSuccess fun _ => (shrinks_fixedOpaque 8).bind fun _ => .pure _).map _
  | create r =>
      exact (shrinks_onSuccess fun _ => shrinks_skipChangeInfo.bind fun _ =>
        shrinks_decodeBitmap.bind fun _ => .pure _).map _
  | remove r | link r =>
      exact (shrinks_onSuccess fun _ => shrinks_skipChangeInfo.bind fun _ => .pure _).map _
  | rename r =>
      exact (shrinks_onSuccess fun _ => shrinks_skipChangeInfo.bind fun _ =>
        shrinks_skipChangeInfo.bind fun _ => .pure _).map _
  | setattr r =>
      exact (shrinks_uint32.bind fun _ => shrinks_decodeBitmap.bind fun _ => .pure _).map _
  | exchangeID r =>
      exact (shrinks_onSuccess fun _ => shrinks_uint64.bind fun _ => shrinks_uint32.bind fun _ =>
        shrinks_uint32.bind fun _ => shrinks_uint32.bind fun _ => shrinks_uint64.bind fun _ =>
          shrinks_varOpaque.bind fun _ => shrinks_varOpaque.bind fun _ =>
            shrinks_uint32.bind fun n => (shrinks_skipImplIDs n.toNat).bind fun _ => .pure _).map _
  | createSession r =>
      exact (shrinks_onSuccess fun _ => (shrinks_fixedOpaque 16).bind fun _ =>
        shrinks_uint32.bind fun _ => shrinks_uint32.bind fun _ =>
          shrinks_decodeChannelAttrs.bind fun _ => shrinks_decodeChannelAttrs.bind fun _ =>
            .pure _).map _
  | sequence r =>
      exact (shrinks_onSuccess fun _ => (shrinks_fixedOpaque 16).bind fun _ =>
        shrinks_uint32.bind fun _ => shrinks_uint32.bind fun _ => shrinks_uint32.bind fun _ =>
          shrinks_uint32.bind fun _ => shrinks_uint32.bind fun _ => .pure _).map _

lemma body_length_le_of_mem {k : ℕ} {rs : List Res} {d : Decoder} {p : DecodedResop}
    (h : p ∈ resopsFrom k rs d) : p.body.r.length ≤ d.r.length := by
  induction k generalizing rs d with
  | zero => cases rs <;> cases h
  | succ k ih =>
      cases rs with
      | nil => cases h
      | cons r rs =>
          have hop := shrinks_uint32 d
          have hbody := shrinks_decodeRes r (uint32 d).2
          rw [resopsFrom_cons] at h
          split at h
          · cases h
          · rcases List.mem_cons.mp h with rfl | h
            · exact hop
            · split at h
              · cases h
              · exact le_trans (ih h) (le_trans hbody hop)

/-- The resops of a reply are parts of it. -/
lemma body_length_le {rs : List Res} {d : Decoder} {p : DecodedResop} (h : p ∈ resops rs d) :
    p.body.r.length ≤ d.r.length := by
  have hheader : Shrinks readHeader :=
    shrinks_uint32.bind fun _ => shrinks_string.bind fun _ => shrinks_uint32.bind fun _ => .pure _
  rcases hh : decodeHeader rs.length d with ⟨e | r, d'⟩
  · rw [resops_of_rejected hh] at h
    cases h
  · rw [resops_of_header hh] at h
    obtain rfl : (readHeader d).2 = d' := congrArg Prod.snd hh
    exact le_trans (body_length_le_of_mem h) (hheader d)

end NfsClient.Nfs4
