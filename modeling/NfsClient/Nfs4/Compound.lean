import NfsClient.Nfs4.Results

/-!
# Decoding a COMPOUND reply

`DecodeCompound` reads the header of a COMPOUND4res and hands each returned resop to the
result decoder in the same position.  A server stops at the first failing operation, so a
reply may hold fewer resops than there are decoders: the trailing decoders are left
untouched.

The decoders are passed in with whatever they held before the call.  The first half of
this file shows that this matters to none of the things the callers look at: whether the
reply is accepted, what its header says, and the status of every returned resop are
functions of the reply and of the types of the decoders alone (`parseReply`).
-/

namespace NfsClient.Nfs4

open NfsClient.Xdr NfsClient.Xdr.Decoder

/-- `CompoundResult` holds the decoded outcome of a COMPOUND4res. -/
structure CompoundResult where
  /-- The overall compound status. -/
  status : Status
  /-- The server's response tag. -/
  tag : Bytes
  /-- The number of resops the server returned. -/
  numResults : ℕ
deriving DecidableEq

/-- The loop of `DecodeCompound` over the next `k` resops, the first of them being number
`i`. -/
def decodeResops : ℕ → ℕ → List Res → Decoder → (List Res × Option Err) × Decoder
  | 0, _, rs, d => ((rs, none), d)
  | _ + 1, _, [], d => (([], none), d)
  | k + 1, i, r :: rs, d =>
      match uint32 d with
      | (opnum, d₁) =>
        match d₁.err with
        | some e =>
            ((r :: rs,
              some (.wrap ("nfs4: decoding resop[" ++ toString i ++ "] opnum") e.toErr)), d₁)
        | none =>
          if r.expectedOp ≠ 0 ∧ r.expectedOp ≠ opnum then
            ((r :: rs, some (.text ("nfs4: resop[" ++ toString i ++ "] opnum "
              ++ toString opnum ++ " does not match expected " ++ toString r.expectedOp))), d₁)
          else
            match r.decodeRes d₁ with
            | (r', d₂) =>
              match d₂.err with
              | some e =>
                  ((r' :: rs,
                    some (.wrap ("nfs4: decoding resop[" ++ toString i ++ "] body") e.toErr)), d₂)
              | none =>
                match decodeResops k (i + 1) rs d₂ with
                | ((rs', o), d₃) => ((r' :: rs', o), d₃)

/-- `DecodeCompound` decodes a COMPOUND4res.  The result holds the decoders as they are
afterwards, whether or not decoding succeeded. -/
def decodeCompound (results : List Res) (d : Decoder) :
    (List Res × Except Err CompoundResult) × Decoder :=
  match uint32 d with
  | (status, d₁) =>
    match string d₁ with
    | (tag, d₂) =>
      match uint32 d₂ with
      | (count, d₃) =>
        match d₃.err with
        | some e => ((results, .error (.wrap "nfs4: decoding compound header" e.toErr)), d₃)
        | none =>
          if results.length < count.toNat then
            ((results, .error (.text ("nfs4: server returned " ++ toString count
              ++ " resops but only " ++ toString results.length ++ " expected"))), d₃)
          else
            match decodeResops count.toNat 0 results d₃ with
            | ((rs, some e), d₄) => ((rs, .error e), d₄)
            | ((rs, none), d₄) =>
                ((rs, .ok { status := status, tag := tag, numResults := count.toNat }), d₄)

/-! ## What one result decoder does -/

section DecodeRes

variable (d : Decoder)

/-- The entries collected so far do not influence what the loop reads, nor how it is
left. -/
lemma decodeEntries_congr (fuel : ℕ) (es es' : List DirEntry) :
    (decodeEntries fuel es d).2 = (decodeEntries fuel es' d).2 ∧
      (decodeEntries fuel es d).1.2 = (decodeEntries fuel es' d).1.2 := by
  induction fuel generalizing es es' d with
  | zero => exact ⟨rfl, rfl⟩
  | succ fuel ih =>
      rcases h₁ : bool d with ⟨more, d₁⟩
      rcases h₂ : DirEntry.decode d₁ with ⟨e, d₂⟩
      simp only [decodeEntries, h₁, h₂]
      by_cases hb : (d₁.err.isSome || !more) = true
      · simp only [hb, if_true, and_self]
      · by_cases he : d₂.err.isSome = true
        · simp only [hb, he, if_true, Bool.false_eq_true, if_false, and_self]
        · simp only [hb, he, Bool.false_eq_true, if_false]
          exact ih _ _ _

/-- Decoding keeps the type of the decoder. -/
lemma decodeRes_fresh (r : Res) : (r.decodeRes d).1.fresh = r.fresh := by
  cases r <;> rfl

/-- The result and the decoder after a conditional, as conditionals. -/
lemma ite_run {α : Type} (c : Prop) [Decidable c] (x y : Dec α) :
    (if c then x else y) d = if c then x d else y d := by
  split <;> rfl

/-- Every decoder reads the status first. -/
lemma decodeRes_stat (r : Res) : (r.decodeRes d).1.stat = (uint32 d).1 := by
  cases r with
  | status r | destroySession r | destroyClientID r | reclaimComplete r => rfl
  | setattr r =>
      simp only [Res.decodeRes, map_run, Res.stat, AttrSetRes.decodeSetattr, bind_run, pure_run]
  | readdir r =>
      simp only [Res.decodeRes, map_run, Res.stat, ReaddirRes.decodeRes, bind_run, ite_run]
      split
      · split <;> simp only [pure_run]
      · simp only [pure_run]
  | setclientid r =>
      simp only [Res.decodeRes, map_run, Res.stat, SetclientidRes.decodeRes, bind_run, ite_run,
        pure_run]
      split
      · rfl
      · split <;> rfl
  | _ r =>
      simp only [Res.decodeRes, map_run, Res.stat, GetfhRes.decodeRes, GetattrRes.decodeRes,
        ReadRes.decodeRes, ReadlinkRes.decodeRes, OpenRes.decodeRes, StateidRes.decodeRes,
        WriteRes.decodeRes, CommitRes.decodeRes, AttrSetRes.decodeCreate,
        StatusRes.decodeChange, StatusRes.decodeRename, ExchangeIDRes.decodeRes,
        CreateSessionRes.decodeRes, SequenceRes.decodeRes, bind_run, ite_run, pure_run]
      split <;> rfl

/-- How much a decoder reads depends on its type, not on what it held before. -/
lemma decodeRes_state (r : Res) : (r.decodeRes d).2 = (r.fresh.decodeRes d).2 := by
  cases r with
  | status r | destroySession r | destroyClientID r | reclaimComplete r => rfl
  | setattr r =>
      simp only [Res.decodeRes, Res.fresh, map_run, AttrSetRes.decodeSetattr, bind_run, pure_run]
  | readdir r =>
      simp only [Res.decodeRes, Res.fresh, map_run, ReaddirRes.decodeRes, bind_run, ite_run]
      obtain ⟨h₁, h₂⟩ := decodeEntries_congr ((fixedOpaque 8) (uint32 d).2).2
        (((fixedOpaque 8) (uint32 d).2).2.r.length + 1) r.entries []
      split
      · rw [h₁, h₂]
        split <;> simp only [pure_run]
      · simp only [pure_run]
  | setclientid r =>
      simp only [Res.decodeRes, Res.fresh, map_run, SetclientidRes.decodeRes, bind_run, ite_run,
        pure_run]
      split
      · rfl
      · split <;> rfl
  | remove r | link r =>
      simp only [Res.decodeRes, Res.fresh, map_run, StatusRes.decodeChange, bind_run, ite_run,
        pure_run]
  | rename r =>
      simp only [Res.decodeRes, Res.fresh, map_run, StatusRes.decodeRename, bind_run, ite_run,
        pure_run]
  | _ r =>
      simp only [Res.decodeRes, Res.fresh, map_run, GetfhRes.decodeRes, GetattrRes.decodeRes,
        ReadRes.decodeRes, ReadlinkRes.decodeRes, OpenRes.decodeRes, StateidRes.decodeRes,
        WriteRes.decodeRes, CommitRes.decodeRes, AttrSetRes.decodeCreate,
        ExchangeIDRes.decodeRes, CreateSessionRes.decodeRes, SequenceRes.decodeRes, bind_run,
        ite_run, pure_run]
      split <;> rfl

lemma expectedOp_fresh (r : Res) : r.fresh.expectedOp = r.expectedOp := by
  cases r <;> rfl

end DecodeRes

/-! ## What the loop does -/

/-- The types of a list of decoders. -/
def kinds (rs : List Res) : List Res := rs.map Res.fresh

/-- One turn of the loop of `DecodeCompound`: the result decoder afterwards, and an error that
ends the loop. -/
def decodeResop (i : ℕ) (r : Res) (d : Decoder) : (Res × Option Err) × Decoder :=
  let opnum := (uint32 d).1
  let d₁ := (uint32 d).2
  match d₁.err with
  | some e => ((r, some (.wrap ("nfs4: decoding resop[" ++ toString i ++ "] opnum") e.toErr)), d₁)
  | none =>
    if r.expectedOp ≠ 0 ∧ r.expectedOp ≠ opnum then
      ((r, some (.text ("nfs4: resop[" ++ toString i ++ "] opnum "
        ++ toString opnum ++ " does not match expected " ++ toString r.expectedOp))), d₁)
    else
      (((r.decodeRes d₁).1, (r.decodeRes d₁).2.err.map fun e =>
        .wrap ("nfs4: decoding resop[" ++ toString i ++ "] body") e.toErr), (r.decodeRes d₁).2)

section Turn

variable {k i : ℕ} {r r' : Res} {rs : List Res} {d d' : Decoder} {e : Err}

/-- What it takes for a turn to succeed. -/
lemma decodeResop_decoded (h : decodeResop i r d = ((r', none), d')) :
    (uint32 d).2.err = none ∧ ¬ (r.expectedOp ≠ 0 ∧ r.expectedOp ≠ (uint32 d).1) ∧
      r.decodeRes (uint32 d).2 = (r', d') ∧ d'.err = none := by
  cases he₁ : (uint32 d).2.err with
  | some e₁ => simp [decodeResop, he₁] at h
  | none =>
      by_cases hm : r.expectedOp ≠ 0 ∧ r.expectedOp ≠ (uint32 d).1
      · simp [decodeResop, he₁, if_pos hm] at h
      · simp only [decodeResop, he₁, if_neg hm, Prod.mk.injEq, Option.map_eq_none_iff] at h
        obtain ⟨⟨rfl, herr⟩, rfl⟩ := h
        exact ⟨rfl, hm, rfl, herr⟩

lemma decodeResop_of (herr : (uint32 d).2.err = none)
    (hop : ¬ (r.expectedOp ≠ 0 ∧ r.expectedOp ≠ (uint32 d).1))
    (hdec : r.decodeRes (uint32 d).2 = (r', d')) (herr' : d'.err = none) (i : ℕ) :
    decodeResop i r d = ((r', none), d') := by
  simp only [decodeResop, herr, if_neg hop, hdec, herr', Option.map_none]

/-- The loop, by its first turn. -/
lemma decodeResops_cons (k i : ℕ) (r : Res) (rs : List Res) (d : Decoder) :
    decodeResops (k + 1) i (r :: rs) d
      = match decodeResop i r d with
        | ((r', some e), d') => ((r' :: rs, some e), d')
        | ((r', none), d') =>
            ((r' :: (decodeResops k (i + 1) rs d').1.1, (decodeResops k (i + 1) rs d').1.2),
              (decodeResops k (i + 1) rs d').2) := by
  rcases h₁ : uint32 d with ⟨opnum, d₁⟩
  rcases h₂ : r.decodeRes d₁ with ⟨s, d₂⟩
  simp only [decodeResops, decodeResop, h₁, h₂]
  cases d₁.err with
  | some e => rfl
  | none =>
      by_cases hm : r.expectedOp ≠ 0 ∧ r.expectedOp ≠ opnum
      · simp only [if_pos hm]
      · simp only [if_neg hm]
        cases d₂.err <;> rfl

lemma decodeResops_of_failed (h : decodeResop i r d = ((r', some e), d')) :
    decodeResops (k + 1) i (r :: rs) d = ((r' :: rs, some e), d') := by
  rw [decodeResops_cons, h]

lemma decodeResops_of_decoded (h : decodeResop i r d = ((r', none), d')) (k : ℕ)
    (rs : List Res) :
    decodeResops (k + 1) i (r :: rs) d
      = ((r' :: (decodeResops k (i + 1) rs d').1.1, (decodeResops k (i + 1) rs d').1.2),
          (decodeResops k (i + 1) rs d').2) := by
  rw [decodeResops_cons, h]

lemma decodeResop_fresh (i : ℕ) (r : Res) (d : Decoder) :
    (decodeResop i r d).1.1.fresh = r.fresh := by
  unfold decodeResop
  dsimp only
  split
  · rfl
  · split
    · rfl
    · exact decodeRes_fresh _ r

/-- A turn does not look at what the decoder held: its error, and the decoder it leaves, depend
on the type alone. -/
lemma decodeResop_congr (h : r.fresh = r'.fresh) (i : ℕ) (d : Decoder) :
    (decodeResop i r d).1.2 = (decodeResop i r' d).1.2 ∧
      (decodeResop i r d).2 = (decodeResop i r' d).2 := by
  have hop : r.expectedOp = r'.expectedOp := by rw [← expectedOp_fresh r, h, expectedOp_fresh]
  have hst : (r.decodeRes (uint32 d).2).2 = (r'.decodeRes (uint32 d).2).2 := by
    rw [decodeRes_state, h, ← decodeRes_state]
  simp only [decodeResop, hop, hst]
  cases (uint32 d).2.err with
  | some e => exact ⟨rfl, rfl⟩
  | none =>
      dsimp only
      split <;> exact ⟨rfl, rfl⟩

/-- The errors of a turn carry no NFS status. -/
lemma decodeResop_plain (h : (decodeResop i r d).1.2 = some e) : e.asStatus = none := by
  unfold decodeResop at h
  dsimp only at h
  split at h
  · cases h
    rw [asStatus_wrap, asStatus_toErr]
  · split at h
    · cases h
      rfl
    · obtain ⟨e', -, rfl⟩ := Option.map_eq_some_iff.mp h
      rw [asStatus_wrap, asStatus_toErr]

end Turn

lemma decodeResops_kinds (k i : ℕ) (rs : List Res) (d : Decoder) :
    kinds (decodeResops k i rs d).1.1 = kinds rs := by
  induction k generalizing i rs d with
  | zero => rfl
  | succ k ih =>
      cases rs with
      | nil => rfl
      | cons r rs =>
          have hfresh := decodeResop_fresh i r d
          rcases ht : decodeResop i r d with ⟨⟨r', - | e⟩, d'⟩ <;> rw [ht] at hfresh
          · rw [decodeResops_of_decoded ht]
            exact congrArg₂ List.cons hfresh (ih (i + 1) rs d')
          · rw [decodeResops_of_failed ht]
            exact congrArg₂ List.cons hfresh rfl

/-- The loop does not look at what the decoders held: whether it fails, and the decoder it
leaves, depend on their types alone. -/
lemma decodeResops_congr {k i : ℕ} {rs rs' : List Res} (h : kinds rs = kinds rs')
    (d : Decoder) :
    (decodeResops k i rs d).1.2 = (decodeResops k i rs' d).1.2 ∧
      (decodeResops k i rs d).2 = (decodeResops k i rs' d).2 := by
  induction k generalizing i rs rs' d with
  | zero => exact ⟨rfl, rfl⟩
  | succ k ih =>
      match rs, rs', h with
      | [], [], _ => exact ⟨rfl, rfl⟩
      | r :: rs, r' :: rs', h =>
          simp only [kinds, List.map_cons, List.cons.injEq] at h
          obtain ⟨hr, hrs⟩ := h
          obtain ⟨ho, hd⟩ := decodeResop_congr hr i d
          rcases ht : decodeResop i r d with ⟨⟨s, o⟩, d₁⟩
          rcases ht' : decodeResop i r' d with ⟨⟨s', o'⟩, d₁'⟩
          rw [ht, ht'] at ho hd
          obtain rfl : o = o' := ho
          obtain rfl : d₁ = d₁' := hd
          cases o with
          | none =>
              rw [decodeResops_of_decoded ht, decodeResops_of_decoded ht']
              exact ih hrs d₁
          | some e =>
              rw [decodeResops_of_failed ht, decodeResops_of_failed ht']
              exact ⟨rfl, rfl⟩

/-- A loop that succeeds decodes the first `k` results and leaves the others untouched; the
status of each decoded result depends on the types of the decoders alone. -/
lemma decodeResops_stat {k i : ℕ} {rs rs' : List Res} (h : kinds rs = kinds rs')
    (hk : k ≤ rs.length) (d : Decoder) (hok : (decodeResops k i rs d).1.2 = none) :
    (decodeResops k i rs d).1.1.map Res.stat
      = ((decodeResops k i rs' d).1.1.take k).map Res.stat ++ (rs.drop k).map Res.stat := by
  induction k generalizing i rs rs' d with
  | zero => simp [decodeResops]
  | succ k ih =>
      match rs, rs', h, hk with
      | r :: rs, r' :: rs', h, hk =>
          simp only [kinds, List.map_cons, List.cons.injEq] at h
          obtain ⟨hr, hrs⟩ := h
          obtain ⟨ho, hd⟩ := decodeResop_congr hr i d
          rcases ht : decodeResop i r d with ⟨⟨s, - | e⟩, d₁⟩
          · rcases ht' : decodeResop i r' d with ⟨⟨s', o'⟩, d₁'⟩
            rw [ht, ht'] at ho hd
            obtain rfl : none = o' := ho
            obtain rfl : d₁ = d₁' := hd
            -- both decoders read the status at the same place
            obtain ⟨-, -, hs, -⟩ := decodeResop_decoded ht
            obtain ⟨-, -, hs', -⟩ := decodeResop_decoded ht'
            have hstat : s.stat = s'.stat := by
              have hst := decodeRes_stat (uint32 d).2 r
              have hst' := decodeRes_stat (uint32 d).2 r'
              rw [hs] at hst
              rw [hs'] at hst'
              exact hst.trans hst'.symm
            rw [decodeResops_of_decoded ht] at hok ⊢
            rw [decodeResops_of_decoded ht']
            have hrest := ih hrs (by simpa using hk) d₁ hok
            simpa [hstat] using hrest
          · rw [decodeResops_of_failed ht] at hok
            simp at hok

/-! ## The reply as a function of its bytes -/

/-- What a reply says to decoders of the types of `rs`: its header and the statuses of the
resops it holds, or `none` when `DecodeCompound` rejects it. -/
def parseReply (rs : List Res) (b : Bytes) : Option (CompoundResult × List Status) :=
  match decodeCompound (kinds rs) (newDecoder b) with
  | ((_, .error _), _) => none
  | ((rs', .ok r), _) => some (r, (rs'.take r.numResults).map Res.stat)

lemma fresh_fresh (r : Res) : r.fresh.fresh = r.fresh := by
  cases r <;> rfl

@[simp] lemma kinds_kinds (rs : List Res) : kinds (kinds rs) = kinds rs := by
  simp [kinds, fresh_fresh]

@[simp] lemma length_kinds (rs : List Res) : (kinds rs).length = rs.length := by
  simp [kinds]

lemma length_eq_of_kinds {rs rs' : List Res} (h : kinds rs = kinds rs') :
    rs.length = rs'.length := by
  rw [← length_kinds rs, h, length_kinds]

lemma parseReply_kinds {rs rs' : List Res} (h : kinds rs = kinds rs') (b : Bytes) :
    parseReply rs b = parseReply rs' b := by
  unfold parseReply
  rw [h]

/-- The header of a reply: its status, tag and count. -/
def readHeader : Dec (Status × Bytes × UInt32) := do
  let status ← uint32
  let tag ← string
  let count ← uint32
  return (status, tag, count)

/-- The checks of `DecodeCompound` behind the header, for `n` decoders. -/
def checkHeader (n : ℕ) (d : Decoder) : Status × Bytes × UInt32 → Except Err CompoundResult
  | (status, tag, count) =>
    match d.err with
    | some e => .error (.wrap "nfs4: decoding compound header" e.toErr)
    | none =>
      if n < count.toNat then
        .error (.text ("nfs4: server returned " ++ toString count
          ++ " resops but only " ++ toString n ++ " expected"))
      else .ok { status := status, tag := tag, numResults := count.toNat }

/-- The header of a reply to `n` operations: what `DecodeCompound` will report, or why it stops
there. -/
def decodeHeader (n : ℕ) (d : Decoder) : Except Err CompoundResult × Decoder :=
  (checkHeader n (readHeader d).2 (readHeader d).1, (readHeader d).2)

section Header

variable {rs : List Res} {d d' : Decoder} {r : CompoundResult}

/-- The outcome when the loop ends as it does. -/
def loopOutcome (r : CompoundResult) : Option Err → Except Err CompoundResult
  | some e => .error e
  | none => .ok r

/-- `DecodeCompound` is the loop behind the header. -/
lemma decodeCompound_eq (rs : List Res) (d : Decoder) :
    decodeCompound rs d
      = match decodeHeader rs.length d with
        | (.error e, d') => ((rs, .error e), d')
        | (.ok r, d') =>
            (((decodeResops r.numResults 0 rs d').1.1,
              loopOutcome r (decodeResops r.numResults 0 rs d').1.2),
              (decodeResops r.numResults 0 rs d').2) := by
  rcases h₁ : uint32 d with ⟨status, d₁⟩
  rcases h₂ : string d₁ with ⟨tag, d₂⟩
  rcases h₃ : uint32 d₂ with ⟨count, d₃⟩
  have hread : readHeader d = ((status, tag, count), d₃) := by
    simp only [readHeader, bind_run, pure_run, h₁, h₂, h₃]
  delta decodeCompound
  simp only [decodeHeader, checkHeader, hread, h₁, h₂, h₃]
  cases d₃.err with
  | some e => rfl
  | none =>
      by_cases hlen : rs.length < count.toNat
      · simp only [if_pos hlen]
      · simp only [if_neg hlen]
        rcases decodeResops count.toNat 0 rs d₃ with ⟨⟨rs', - | e⟩, d₄⟩ <;> rfl

lemma decodeCompound_of_rejected {e : Err} (h : decodeHeader rs.length d = (.error e, d')) :
    decodeCompound rs d = ((rs, .error e), d') := by
  rw [decodeCompound_eq, h]

lemma decodeCompound_of_header (h : decodeHeader rs.length d = (.ok r, d')) :
    decodeCompound rs d
      = (((decodeResops r.numResults 0 rs d').1.1,
          loopOutcome r (decodeResops r.numResults 0 rs d').1.2),
          (decodeResops r.numResults 0 rs d').2) := by
  rw [decodeCompound_eq, h]

lemma loopOutcome_eq_ok {r r' : CompoundResult} {o : Option Err} (h : loopOutcome r o = .ok r') :
    o = none ∧ r = r' := by
  cases o with
  | none => exact ⟨rfl, Except.ok.inj h⟩
  | some e => cases h

/-- A header that is accepted. -/
lemma decodeHeader_ok {n : ℕ} (h : decodeHeader n d = (.ok r, d')) :
    r.numResults ≤ n ∧ d'.err = none := by
  rcases hread : readHeader d with ⟨⟨status, tag, count⟩, d₁⟩
  simp only [decodeHeader, checkHeader, hread, Prod.mk.injEq] at h
  obtain ⟨h, rfl⟩ := h
  cases he : d₁.err with
  | some e => simp [he] at h
  | none =>
      by_cases hlen : n < count.toNat
      · simp [he, hlen] at h
      · simp only [he, if_neg hlen, Except.ok.injEq] at h
        rw [← h]
        exact ⟨Nat.le_of_not_lt hlen, rfl⟩

/-- The errors of the header carry no NFS status. -/
lemma decodeHeader_plain {n : ℕ} {e : Err} (h : (decodeHeader n d).1 = .error e) :
    e.asStatus = none := by
  unfold decodeHeader checkHeader at h
  dsimp only at h
  split at h
  · cases h
    rw [asStatus_wrap, asStatus_toErr]
  · split at h
    · cases h
      rfl
    · cases h

/-- An accepted reply: its header, and a loop that ends without an error. -/
lemma header_of_decodeCompound (hok : (decodeCompound rs d).1.2 = .ok r) :
    ∃ d', decodeHeader rs.length d = (.ok r, d') ∧
      (decodeResops r.numResults 0 rs d').1.2 = none := by
  rcases hh : decodeHeader rs.length d with ⟨e | r', d'⟩
  · rw [decodeCompound_of_rejected hh] at hok
    cases hok
  · rw [decodeCompound_of_header hh] at hok
    obtain ⟨hnone, rfl⟩ := loopOutcome_eq_ok hok
    exact ⟨d', rfl, hnone⟩

end Header

/-- The decoders keep their types, whatever the reply. -/
lemma decodeCompound_kinds (rs : List Res) (d : Decoder) :
    kinds (decodeCompound rs d).1.1 = kinds rs := by
  rcases hh : decodeHeader rs.length d with ⟨e | r, d'⟩
  · rw [decodeCompound_of_rejected hh]
  · rw [decodeCompound_of_header hh]
    exact decodeResops_kinds _ _ rs d'

/-- Whether a reply is accepted, and what its header says, depends on the types of the
decoders alone. -/
lemma decodeCompound_congr {rs rs' : List Res} (h : kinds rs = kinds rs') (d : Decoder) :
    (decodeCompound rs d).1.2 = (decodeCompound rs' d).1.2 ∧
      (decodeCompound rs d).2 = (decodeCompound rs' d).2 := by
  have hl := length_eq_of_kinds h
  rcases hh : decodeHeader rs.length d with ⟨e | r, d'⟩
  · rw [decodeCompound_of_rejected hh, decodeCompound_of_rejected (hl ▸ hh)]
    exact ⟨rfl, rfl⟩
  · rw [decodeCompound_of_header hh, decodeCompound_of_header (hl ▸ hh)]
    obtain ⟨ho, hd⟩ := decodeResops_congr (k := r.numResults) (i := 0) h d'
    exact ⟨by rw [ho], hd⟩

/-- Accepted replies hold at most as many resops as there are decoders, and the statuses of
those they hold are found in the decoders; the other decoders keep theirs. -/
lemma decodeCompound_stat {rs rs' : List Res} (h : kinds rs = kinds rs') {d : Decoder}
    {r : CompoundResult} (hok : (decodeCompound rs d).1.2 = .ok r) :
    r.numResults ≤ rs.length ∧
      (decodeCompound rs d).1.1.map Res.stat
        = ((decodeCompound rs' d).1.1.take r.numResults).map Res.stat
          ++ (rs.drop r.numResults).map Res.stat := by
  obtain ⟨d', hh, hnone⟩ := header_of_decodeCompound hok
  obtain ⟨hle, -⟩ := decodeHeader_ok hh
  rw [decodeCompound_of_header hh, decodeCompound_of_header (length_eq_of_kinds h ▸ hh)]
  exact ⟨hle, decodeResops_stat h hle d' hnone⟩

/-- **An accepted reply, read from its bytes.**  Whatever the decoders held, the outcome is
the header that `parseReply` gives, and the statuses in the decoders are those of the
returned resops followed by the old ones. -/
theorem decodeCompound_of_parseReply {rs : List Res} {b : Bytes} {r : CompoundResult}
    {sts : List Status} (h : parseReply rs b = some (r, sts)) :
    (decodeCompound rs (newDecoder b)).1.2 = .ok r ∧ sts.length = r.numResults ∧
      r.numResults ≤ rs.length ∧
      (decodeCompound rs (newDecoder b)).1.1.map Res.stat
        = sts ++ (rs.drop r.numResults).map Res.stat := by
  have hk : kinds rs = kinds (kinds rs) := (kinds_kinds rs).symm
  obtain ⟨ho, -⟩ := decodeCompound_congr hk (newDecoder b)
  have hlk := length_eq_of_kinds (decodeCompound_kinds (kinds rs) (newDecoder b))
  rw [length_kinds] at hlk
  unfold parseReply at h
  rcases hf : decodeCompound (kinds rs) (newDecoder b) with ⟨⟨rs', o⟩, d'⟩
  rw [hf] at h ho hlk
  cases o with
  | error e => simp at h
  | ok r' =>
      simp only [Option.some.injEq, Prod.mk.injEq] at h
      obtain ⟨rfl, rfl⟩ := h
      obtain ⟨hle, hst⟩ := decodeCompound_stat hk ho
      rw [hf] at hst
      exact ⟨ho, by simp only at hlk; simp [hlk, hle], hle, hst⟩

lemma decodeCompound_of_parseReply_none {rs : List Res} {b : Bytes}
    (h : parseReply rs b = none) : ∃ e, (decodeCompound rs (newDecoder b)).1.2 = .error e := by
  have hk : kinds rs = kinds (kinds rs) := (kinds_kinds rs).symm
  obtain ⟨ho, -⟩ := decodeCompound_congr hk (newDecoder b)
  unfold parseReply at h
  rcases hf : decodeCompound (kinds rs) (newDecoder b) with ⟨⟨rs', o⟩, d'⟩
  rw [hf] at h ho
  cases o with
  | error e => exact ⟨e, ho⟩
  | ok r => simp at h

/-- Decoding succeeds only without a latched error. -/
lemma decodeResops_err {k i : ℕ} {rs : List Res} {d : Decoder} (hd : d.err = none)
    (hok : (decodeResops k i rs d).1.2 = none) : (decodeResops k i rs d).2.err = none := by
  induction k generalizing i rs d with
  | zero => exact hd
  | succ k ih =>
      cases rs with
      | nil => exact hd
      | cons r rs =>
          rcases ht : decodeResop i r d with ⟨⟨r', - | e⟩, d'⟩
          · obtain ⟨-, -, -, herr⟩ := decodeResop_decoded ht
            rw [decodeResops_of_decoded ht] at hok ⊢
            exact ih herr hok
          · rw [decodeResops_of_failed ht] at hok
            simp at hok

/-- The errors of the loop carry no NFS status. -/
lemma decodeResops_plain {k i : ℕ} {rs : List Res} {d : Decoder} {e : Err}
    (h : (decodeResops k i rs d).1.2 = some e) : e.asStatus = none := by
  induction k generalizing i rs d with
  | zero => simp [decodeResops] at h
  | succ k ih =>
      cases rs with
      | nil => simp [decodeResops] at h
      | cons r rs =>
          rcases ht : decodeResop i r d with ⟨⟨r', - | e'⟩, d'⟩
          · rw [decodeResops_of_decoded ht] at h
            exact ih h
          · rw [decodeResops_of_failed ht] at h
            exact decodeResop_plain (i := i) (r := r) (d := d) (by rw [ht]; exact h)

/-- The error of a rejected reply carries no NFS status. -/
lemma decodeCompound_plain {rs : List Res} {d : Decoder} {e : Err}
    (h : (decodeCompound rs d).1.2 = .error e) : e.asStatus = none := by
  rcases hh : decodeHeader rs.length d with ⟨e' | r, d'⟩
  · rw [decodeCompound_of_rejected hh] at h
    exact decodeHeader_plain (n := rs.length) (d := d) (by rw [hh]; exact h)
  · rw [decodeCompound_of_header hh] at h
    rcases ho : (decodeResops r.numResults 0 rs d').1.2 with - | e'
    · rw [ho] at h
      cases h
    · rw [ho] at h
      cases h
      exact decodeResops_plain ho

lemma decodeCompound_err {rs : List Res} {d : Decoder} {r : CompoundResult}
    (hok : (decodeCompound rs d).1.2 = .ok r) : (decodeCompound rs d).2.err = none := by
  obtain ⟨d', hh, hnone⟩ := header_of_decodeCompound hok
  rw [decodeCompound_of_header hh]
  exact decodeResops_err (decodeHeader_ok hh).2 hnone

end NfsClient.Nfs4
