import NfsClient.Nfs4.Transcript

/-!
# Decoders that are used again

All the attempts of a call decode into the same result variables.  Most decoders overwrite all
their fields when the operation succeeded; a few keep part of what they held: READDIR appends
to its entries, SETCLIENTID does not reset the other client's address, and fixed-length data is
copied over the old bytes.  Where the results of a reply are read depends on the types of the
decoders alone, so a reply is a function on what they hold.
-/

namespace NfsClient.Nfs4

open NfsClient.Xdr NfsClient.Xdr.Decoder

/-! ## One decoder -/

/-- The decoders that keep part of what they held when the operation succeeds. -/
def Res.keeps : Res → Bool
  | .setclientid _ | .readdir _ | .write _ | .commit _ | .createSession _ | .sequence _ => true
  | _ => false

/-- A decoder that keeps part of what it held holds nothing but a status. -/
def Res.Clean : Res → Prop
  | .setclientid r => r = { status := r.status }
  | .readdir r => r = { status := r.status }
  | .write r => r = { status := r.status }
  | .commit r => r = { status := r.status }
  | .createSession r => r = { status := r.status }
  | .sequence r => r = { status := r.status }
  | _ => True

lemma Res.keeps_fresh (r : Res) : r.fresh.keeps = r.keeps := by
  cases r <;> rfl

lemma Res.clean_fresh (r : Res) : r.fresh.Clean := by
  cases r <;> first | rfl | trivial

lemma Res.clean_of_keeps {r : Res} (h : r.keeps = false) : r.Clean := by
  cases r <;> trivial

variable {d : Decoder}

/-- A success leaves no trace of what a clean decoder held. -/
lemma decodeRes_of_ok {r : Res} (hclean : r.Clean) (hok : (uint32 d).1 = nfs4Ok) :
    (r.decodeRes d).1 = (r.fresh.decodeRes d).1 := by
  cases r with
  | setclientid r | readdir r | write r | commit r | createSession r | sequence r =>
      rw [show r = { status := r.status } from hclean]
      simp only [Res.decodeRes, Res.fresh, map_run, SetclientidRes.decodeRes, ReaddirRes.decodeRes,
        WriteRes.decodeRes, CommitRes.decodeRes, CreateSessionRes.decodeRes,
        SequenceRes.decodeRes, bind_run, ite_run, hok, if_true, pure_run]
  | status r | destroySession r | destroyClientID r | reclaimComplete r | setattr r => rfl
  | _ r =>
      simp only [Res.decodeRes, Res.fresh, map_run, GetfhRes.decodeRes, GetattrRes.decodeRes,
        ReadRes.decodeRes, ReadlinkRes.decodeRes, OpenRes.decodeRes, StateidRes.decodeRes,
        AttrSetRes.decodeCreate, StatusRes.decodeChange, StatusRes.decodeRename,
        ExchangeIDRes.decodeRes, bind_run, ite_run, hok, if_true, pure_run]

/-- An operation that is put off leaves a clean decoder clean. -/
lemma clean_decodeRes {r : Res} (hclean : r.Clean)
    (hst : isRetriableStatus (uint32 d).1 = true) : (r.decodeRes d).1.Clean := by
  have hok : (uint32 d).1 ≠ nfs4Ok := by
    intro h
    rw [h] at hst
    exact absurd hst (by decide)
  have hinuse : (uint32 d).1 ≠ nfs4errClidInuse := by
    intro h
    rw [h] at hst
    exact absurd hst (by decide)
  cases r with
  | setclientid r | readdir r | write r | commit r | createSession r | sequence r =>
      rw [show r = { status := r.status } from hclean]
      simp only [Res.decodeRes, map_run, SetclientidRes.decodeRes, ReaddirRes.decodeRes,
        WriteRes.decodeRes, CommitRes.decodeRes, CreateSessionRes.decodeRes,
        SequenceRes.decodeRes, bind_run, ite_run, hok, hinuse, if_false, pure_run, Res.Clean]
  | _ r => trivial

/-! ## All the decoders -/

/-- Decode one result from each of the given decoders; the other results are untouched. -/
def decodeAll : List Decoder → List Res → List Res
  | d :: ds, r :: rs => (r.decodeRes d).1 :: decodeAll ds rs
  | _, rs => rs

/-- The status that a result decoder reads. -/
def statusAt (d : Decoder) : Status := (uint32 d).1

lemma decodeAll_append (ds : List Decoder) (rs rs' : List Res) :
    decodeAll ds (rs ++ rs')
      = decodeAll (ds.take rs.length) rs ++ decodeAll (ds.drop rs.length) rs' := by
  induction rs generalizing ds with
  | nil => cases ds <;> simp [decodeAll]
  | cons r rs ih =>
      cases ds with
      | nil => simp [decodeAll]
      | cons d ds => simp [decodeAll, ih]

@[simp] lemma length_decodeAll (ds : List Decoder) (rs : List Res) :
    (decodeAll ds rs).length = rs.length := by
  induction rs generalizing ds with
  | nil => cases ds <;> rfl
  | cons r rs ih => cases ds <;> simp [decodeAll, ih]

lemma kinds_decodeAll (ds : List Decoder) (rs : List Res) :
    kinds (decodeAll ds rs) = kinds rs := by
  induction rs generalizing ds with
  | nil => cases ds <;> rfl
  | cons r rs ih =>
      cases ds with
      | nil => rfl
      | cons d ds =>
          simp only [decodeAll, kinds, List.map_cons, decodeRes_fresh]
          rw [show (decodeAll ds rs).map Res.fresh = rs.map Res.fresh from ih ds]

/-- If all the results succeed, clean decoders end up as if they had been fresh. -/
lemma decodeAll_of_ok {ds : List Decoder} {rs : List Res} (hlen : ds.length = rs.length)
    (hclean : ∀ r ∈ rs, r.Clean) (hok : ∀ s ∈ ds.map statusAt, s = nfs4Ok) :
    decodeAll ds rs = decodeAll ds (kinds rs) := by
  induction ds generalizing rs with
  | nil =>
      obtain rfl : rs = [] := List.length_eq_zero_iff.mp hlen.symm
      rfl
  | cons d ds ih =>
      obtain - | ⟨r, rs⟩ := rs
      · simp at hlen
      · have hd : (uint32 d).1 = nfs4Ok := hok _ (by simp [statusAt])
        have hrest := ih (by simpa using hlen) (fun r' hr' => hclean r' (by simp [hr']))
          fun s hs => hok s (by simp [hs])
        simp only [decodeAll, kinds, List.map_cons, decodeRes_of_ok (hclean r (by simp)) hd]
        rw [hrest, kinds]

/-- If the last result is put off, and no result before it is one that keeps part of what it
held, then clean decoders stay clean. -/
lemma clean_decodeAll {ds : List Decoder} {rs : List Res} (hlen : ds.length ≤ rs.length)
    (hkeeps : ∀ r ∈ rs.dropLast, r.keeps = false) (hclean : ∀ r ∈ rs, r.Clean)
    (hlast : ∀ s, (ds.map statusAt).getLast? = some s → isRetriableStatus s = true) :
    ∀ r ∈ decodeAll ds rs, r.Clean := by
  induction ds generalizing rs with
  | nil => cases rs <;> exact hclean
  | cons d ds ih =>
      obtain - | ⟨r, rs⟩ := rs
      · simp at hlen
      · have hfirst : (r.decodeRes d).1.Clean := by
          cases ds with
          | nil => exact clean_decodeRes (hclean r (by simp)) (hlast _ rfl)
          | cons d' ds =>
              -- there is another decoder after it
              obtain - | ⟨r', rs⟩ := rs
              · simp at hlen
              · have hr : r.keeps = false := hkeeps r (by simp)
                refine Res.clean_of_keeps ?_
                rw [← Res.keeps_fresh, decodeRes_fresh, Res.keeps_fresh, hr]
        have hrest : ∀ r' ∈ decodeAll ds rs, r'.Clean := by
          refine ih (by simpa using hlen) ?_ (fun r' hr' => hclean r' (by simp [hr'])) ?_
          · intro r' hr'
            refine hkeeps r' ?_
            obtain - | ⟨r'', rs⟩ := rs
            · simp at hr'
            · simp [hr']
          · intro s hs
            refine hlast s ?_
            rw [List.map_cons, List.getLast?_cons, hs]
            rfl
        intro r' hr'
        rcases List.mem_cons.mp hr' with rfl | hr'
        · exact hfirst
        · exact hrest r' hr'

/-- The places where the loop over the results reads them: each one a decoder behind the
operation number.  A result that cannot be read to its end, and all that follow it, have no
place. -/
def placesFrom : ℕ → List Res → Decoder → List Decoder
  | k + 1, r :: rs, d =>
    match uint32 d with
    | (opnum, d₁) =>
      if d₁.err.isSome ∨ (r.expectedOp ≠ 0 ∧ r.expectedOp ≠ opnum) then []
      else match r.decodeRes d₁ with
        | (_, d₂) => if d₂.err.isSome then [] else d₁ :: placesFrom k rs d₂
  | _, _, _ => []

/-- The places where the results of a reply are read. -/
def places (rs : List Res) (b : Bytes) : List Decoder :=
  match uint32 (newDecoder b) with
  | (_, d₁) =>
    match string d₁ with
    | (_, d₂) =>
      match uint32 d₂ with
      | (count, d₃) => if d₃.err.isSome then [] else placesFrom count.toNat rs d₃

section Turn

variable {i : ℕ} {r r' : Res} {d d' : Decoder}

lemma placesFrom_of_decoded (h : decodeResop i r d = ((r', none), d')) (k : ℕ) (rs : List Res) :
    placesFrom (k + 1) (r :: rs) d = (uint32 d).2 :: placesFrom k rs d' := by
  obtain ⟨herr, hop, hdec, herr'⟩ := decodeResop_decoded h
  rcases h₁ : uint32 d with ⟨opnum, d₁⟩
  rw [h₁] at herr hop hdec
  dsimp only at herr hop hdec
  simp [placesFrom, h₁, herr, hop, hdec, herr']

lemma placesFrom_of_failed {e : Err} (h : decodeResop i r d = ((r', some e), d')) (k : ℕ)
    (rs : List Res) : placesFrom (k + 1) (r :: rs) d = [] := by
  rcases h₁ : uint32 d with ⟨opnum, d₁⟩
  rcases h₂ : r.decodeRes d₁ with ⟨s, d₂⟩
  simp only [placesFrom, h₁, h₂]
  by_cases hstop : d₁.err.isSome ∨ (r.expectedOp ≠ 0 ∧ r.expectedOp ≠ opnum)
  · rw [if_pos hstop]
  · rw [if_neg hstop]
    obtain ⟨he, hop⟩ := not_or.mp hstop
    have he' : d₁.err = none := by simpa using he
    simp only [decodeResop, h₁, he', if_neg hop, h₂, Prod.mk.injEq] at h
    obtain ⟨e', he₂, -⟩ := Option.map_eq_some_iff.mp h.1.2
    simp [he₂]

end Turn

/-- They depend on the types of the decoders alone. -/
lemma placesFrom_kinds {k : ℕ} {rs rs' : List Res} (h : kinds rs = kinds rs') (d : Decoder) :
    placesFrom k rs d = placesFrom k rs' d := by
  induction k generalizing rs rs' d with
  | zero => rfl
  | succ k ih =>
      match rs, rs', h with
      | [], [], _ => rfl
      | r :: rs, r' :: rs', h =>
          simp only [kinds, List.map_cons, List.cons.injEq] at h
          obtain ⟨hr, hrs⟩ := h
          obtain ⟨ho, hd⟩ := decodeResop_congr hr 0 d
          rcases ht : decodeResop 0 r d with ⟨⟨s, o⟩, d₁⟩
          rcases ht' : decodeResop 0 r' d with ⟨⟨s', o'⟩, d₁'⟩
          rw [ht, ht'] at ho hd
          obtain rfl : o = o' := ho
          obtain rfl : d₁ = d₁' := hd
          cases o with
          | none => rw [placesFrom_of_decoded ht, placesFrom_of_decoded ht', ih hrs]
          | some e => rw [placesFrom_of_failed ht, placesFrom_of_failed ht']

lemma places_kinds {rs rs' : List Res} (h : kinds rs = kinds rs') (b : Bytes) :
    places rs b = places rs' b := by
  simp only [places, placesFrom_kinds h]

/-- A loop that succeeds reads every result at its place. -/
lemma decodeResops_eq_decodeAll {k i : ℕ} {rs : List Res} {d : Decoder}
    (hok : (decodeResops k i rs d).1.2 = none) (hk : k ≤ rs.length) :
    (placesFrom k rs d).length = k ∧
      (decodeResops k i rs d).1.1 = decodeAll (placesFrom k rs d) rs := by
  induction k generalizing i rs d with
  | zero => cases rs <;> exact ⟨rfl, rfl⟩
  | succ k ih =>
      obtain - | ⟨r, rs⟩ := rs
      · simp at hk
      · rcases ht : decodeResop i r d with ⟨⟨r', - | e⟩, d'⟩
        · obtain ⟨-, -, hdec, -⟩ := decodeResop_decoded ht
          rw [decodeResops_of_decoded ht] at hok ⊢
          obtain ⟨hlen, hall⟩ := ih hok (by simpa using hk)
          rw [placesFrom_of_decoded ht, decodeAll, hdec, hall]
          exact ⟨by simp [hlen], rfl⟩
        · rw [decodeResops_of_failed ht] at hok
          simp at hok

/-- The statuses of decoded results. -/
lemma map_stat_decodeAll {ds : List Decoder} {rs : List Res} (h : ds.length ≤ rs.length) :
    (decodeAll ds rs).map Res.stat
      = ds.map statusAt ++ (rs.drop ds.length).map Res.stat := by
  induction ds generalizing rs with
  | nil => cases rs <;> simp [decodeAll]
  | cons d ds ih =>
      obtain - | ⟨r, rs⟩ := rs
      · simp at h
      · simp only [decodeAll, List.map_cons, decodeRes_stat, List.length_cons, List.drop_succ_cons,
          ih (by simpa using h), statusAt, List.cons_append]

lemma places_of_header {k : ℕ} {b : Bytes} {r : CompoundResult} {d' : Decoder}
    (h : decodeHeader k (newDecoder b) = (.ok r, d')) (rs : List Res) :
    places rs b = placesFrom r.numResults rs d' := by
  obtain ⟨-, herr⟩ := decodeHeader_ok h
  rcases h₁ : uint32 (newDecoder b) with ⟨status, d₁⟩
  rcases h₂ : string d₁ with ⟨tag, d₂⟩
  rcases h₃ : uint32 d₂ with ⟨count, d₃⟩
  have hread : readHeader (newDecoder b) = ((status, tag, count), d₃) := by
    simp only [readHeader, bind_run, pure_run, h₁, h₂, h₃]
  simp only [decodeHeader, hread, Prod.mk.injEq] at h
  obtain ⟨h, rfl⟩ := h
  simp only [checkHeader, herr] at h
  split at h
  · cases h
  · cases h
    simp [places, h₁, h₂, h₃, herr]

lemma decodeCompound_eq_decodeAll {rs : List Res} {b : Bytes} {r : CompoundResult}
    (hok : (decodeCompound rs (newDecoder b)).1.2 = .ok r) :
    (places rs b).length = r.numResults ∧
      (decodeCompound rs (newDecoder b)).1.1 = decodeAll (places rs b) rs := by
  obtain ⟨d', hh, hnone⟩ := header_of_decodeCompound hok
  rw [decodeCompound_of_header hh, places_of_header hh]
  exact decodeResops_eq_decodeAll hnone (decodeHeader_ok hh).1

/-- An accepted reply: its results are read at their places, whatever the decoders held. -/
lemma decodeReply_eq_decodeAll {rs₀ : List Res} {b : Bytes} {r : CompoundResult}
    {sts : List Status} (h : parseReply rs₀ b = some (r, sts)) :
    (places rs₀ b).map statusAt = sts ∧
      ∀ rs, kinds rs = kinds rs₀ →
        decodeReply rs (.ok b) = (decodeAll (places rs₀ b) rs, .ok r) := by
  have hdec : ∀ rs, kinds rs = kinds rs₀ →
      decodeReply rs (.ok b) = (decodeAll (places rs₀ b) rs, .ok r) := by
    intro rs hrs
    obtain ⟨rs', hrs', -⟩ := decodeReply_of_parseReply ((parseReply_kinds hrs b).trans h)
    obtain ⟨hok, -, -, -⟩ := decodeCompound_of_parseReply ((parseReply_kinds hrs b).trans h)
    obtain ⟨-, hall⟩ := decodeCompound_eq_decodeAll hok
    have hfst : (decodeReply rs (.ok b)).1 = (decodeCompound rs (newDecoder b)).1.1 := by
      simp only [decodeReply, checkDecoder]
      split <;> rfl
    rw [hrs', ← places_kinds hrs, ← hall, ← hfst, hrs']
  obtain ⟨hok, -, hle, -⟩ := decodeCompound_of_parseReply h
  obtain ⟨hlen, -⟩ := decodeCompound_eq_decodeAll hok
  obtain ⟨rs', hrs', -, -, hst⟩ := decodeReply_of_parseReply h
  rw [hdec rs₀ rfl] at hrs'
  obtain rfl : decodeAll (places rs₀ b) rs₀ = rs' := congrArg Prod.fst hrs'
  rw [map_stat_decodeAll (by omega), hlen] at hst
  exact ⟨List.append_cancel_right hst, hdec⟩

/-! ## Through the session callers -/

/-- What session callers make of an outcome depends on the SEQUENCE results alone. -/
lemma unwrap_append (seqs : List Res) (r : CompoundResult) :
    ∃ o, ∀ rs, unwrap seqs.length (seqs ++ rs, .ok r) = (rs, o) := by
  induction seqs using List.reverseRecOn with
  | nil => exact ⟨.ok r, fun rs => rfl⟩
  | append_singleton seqs s ih =>
      obtain ⟨o, ho⟩ := ih
      refine ⟨(afterBase ([s], o)).2.2, fun rs => ?_⟩
      have hlen : (seqs ++ [s]).length = seqs.length + 1 := by simp
      rw [hlen, unwrap, List.append_assoc, List.singleton_append, ho]
      cases o with
      | error e => rfl
      | ok r' =>
          simp only [afterBase, List.headD_cons, List.tail_cons]
          split <;> rfl

/-- **A reply at the caller.**  Its results are read at their places, and the outcome depends on
the types of the decoders alone. -/
lemma unwrap_eq_decodeAll {k : ℕ} {rs₀ : List Res} {b : Bytes} {r : CompoundResult}
    {sts : List Status} (h : parseReply (sequenceDecoders k rs₀) b = some (r, sts)) :
    ((places (sequenceDecoders k rs₀) b).drop k).map statusAt = sts.drop k ∧
      ∃ o : Except Err CompoundResult, ∀ rs, kinds rs = kinds rs₀ →
        unwrap k (decodeReply (sequenceDecoders k rs) (.ok b))
          = (decodeAll ((places (sequenceDecoders k rs₀) b).drop k) rs, o) := by
  obtain ⟨hsts, hdec⟩ := decodeReply_eq_decodeAll h
  generalize places (sequenceDecoders k rs₀) b = ds at hsts hdec
  obtain ⟨o, ho⟩ := unwrap_append (decodeAll (ds.take k) (List.replicate k (.sequence {}))) r
  refine ⟨by rw [List.map_drop, hsts], o, fun rs hrs => ?_⟩
  have hkinds : kinds (sequenceDecoders k rs) = kinds (sequenceDecoders k rs₀) := by
    simp only [sequenceDecoders, kinds, List.map_append]
    rw [show rs.map Res.fresh = rs₀.map Res.fresh from hrs]
  rw [hdec _ hkinds, sequenceDecoders, decodeAll_append, List.length_replicate]
  have := ho (decodeAll (ds.drop k) rs)
  rwa [length_decodeAll, List.length_replicate] at this

/-! ## The decoders of a compound -/

lemma kinds_decoders (ops : List Arg) : kinds (ops.map Arg.decoder) = ops.map Arg.decoder := by
  simp [kinds, Arg.fresh_decoder]

/-- The decoders of a compound that a session stack has extended. -/
lemma Prefixed.decoders {ids : List SessionID} {comp c : Compound} (h : Prefixed ids comp c) :
    c.ops.map Arg.decoder
      = List.replicate ids.length (.sequence {}) ++ comp.ops.map Arg.decoder := by
  obtain ⟨args, rfl, hops⟩ := h
  rw [hops, List.map_append, List.map_map, List.length_map]
  congr 1
  simp [List.eq_replicate_iff, Arg.decoder]

end NfsClient.Nfs4
