import NfsClient.Nfs4.Caller
import NfsClient.Nfs4.Encode
import NfsClient.Nfs4.Reply
import NfsClient.Nfs4.ReplyDecoding

/-!
# The SEQUENCE decorator is transparent

`sessionCaller` puts SEQUENCE in front of a compound and takes its result off the reply.  For
the caller above it this is as if the compound had been sent as it is: a reply that is
extended by a successful SEQUENCE result decodes as the reply without it, also when it is cut
short or malformed.
-/

namespace NfsClient.Nfs4

open NfsClient.Lib NfsClient.Xdr NfsClient.Xdr.Decoder NfsClient.Nfs4.Format

/-! ## Decoding with one more result -/

/-- The number of a result only shows in the texts of the errors. -/
lemma decodeResop_index (i j : ℕ) (r : Res) (d : Decoder) :
    (decodeResop i r d).1.1 = (decodeResop j r d).1.1 ∧
      ((decodeResop i r d).1.2 = none ↔ (decodeResop j r d).1.2 = none) ∧
      (decodeResop i r d).2 = (decodeResop j r d).2 := by
  unfold decodeResop
  dsimp only
  split
  · simp
  · split <;> simp

lemma decodeResops_index (k i j : ℕ) (rs : List Res) (d : Decoder) :
    (decodeResops k i rs d).1.1 = (decodeResops k j rs d).1.1 ∧
      ((decodeResops k i rs d).1.2 = none ↔ (decodeResops k j rs d).1.2 = none) ∧
      (decodeResops k i rs d).2 = (decodeResops k j rs d).2 := by
  induction k generalizing i j rs d with
  | zero => exact ⟨rfl, Iff.rfl, rfl⟩
  | succ k ih =>
      cases rs with
      | nil => exact ⟨rfl, Iff.rfl, rfl⟩
      | cons r rs =>
          obtain ⟨hr, ho, hd⟩ := decodeResop_index i j r d
          rcases ht : decodeResop i r d with ⟨⟨r₁, o₁⟩, d₁⟩
          rcases ht' : decodeResop j r d with ⟨⟨r₂, o₂⟩, d₂⟩
          rw [ht, ht'] at hr ho hd
          obtain rfl : r₁ = r₂ := hr
          obtain rfl : d₁ = d₂ := hd
          rcases o₁ with - | e₁ <;> rcases o₂ with - | e₂
          · rw [decodeResops_of_decoded ht, decodeResops_of_decoded ht']
            obtain ⟨hrs, ho', hd'⟩ := ih (i + 1) (j + 1) rs d₁
            exact ⟨by rw [hrs], ho', hd'⟩
          · simp at ho
          · simp at ho
          · rw [decodeResops_of_failed ht, decodeResops_of_failed ht']
            simp

/-- A successful SEQUENCE result in front of the others is decoded into the first decoder, and
the others are decoded as before. -/
lemma decodeResops_sequence (s : Sequenced) (k : ℕ) (rs : List Res) (bs : Bytes) :
    ∃ q o, decodeResops (k + 1) 0 (.sequence {} :: rs)
        (input 0 ((OpResult.sequence (.ok s)).encode ++ bs))
        = ((.sequence q :: (decodeResops k 0 rs (input 0 bs)).1.1, o),
            (decodeResops k 0 rs (input 0 bs)).2) ∧
      q.status = nfs4Ok ∧ (o = none ↔ (decodeResops k 0 rs (input 0 bs)).1.2 = none) := by
  have hop : uint32 (input 0 (Wire.uint opSequence ++ ((OpResult.sequence (.ok s)).body ++ bs)))
      = (opSequence, input 0 ((OpResult.sequence (.ok s)).body ++ bs)) := reads_uint32 _ _
  have hbody : (Res.sequence {}).decodeRes (input 0 ((OpResult.sequence (.ok s)).body ++ bs))
      = ((OpResult.sequence (.ok s)).store (.sequence {}), input 0 bs) :=
    reads_decodeRes (v := .sequence (.ok s)) rfl _
  obtain ⟨q, hq, hst⟩ : ∃ q : SequenceRes,
      (OpResult.sequence (.ok s)).store (.sequence {}) = .sequence q ∧ q.status = nfs4Ok :=
    ⟨_, rfl, rfl⟩
  obtain ⟨hrs, ho, hd⟩ := decodeResops_index k 1 0 rs (input 0 bs)
  have hturn : decodeResop 0 (.sequence {}) (input 0 ((OpResult.sequence (.ok s)).encode ++ bs))
      = ((.sequence q, none), input 0 bs) := by
    simp only [OpResult.encode, OpResult.op, List.flatten_cons, List.flatten_nil, List.append_nil,
      List.append_assoc]
    refine decodeResop_of (by rw [hop]; rfl) ?_ ?_ rfl 0
    · rw [hop]
      exact expectedOp_eq (v := .sequence (.ok s)) rfl
    · rw [hop, ← hq]
      exact hbody
  refine ⟨q, (decodeResops k 1 rs (input 0 bs)).1.2, ?_, hst, ho⟩
  rw [← hrs, ← hd, decodeResops_of_decoded hturn]

/-! ## Decoding the reply -/

/-- A tag over the limit of the decoder is rejected, and the decoders are untouched. -/
lemma decodeReply_long_tag {tag : Bytes} (hlen : tag.length < 2 ^ 32) (htag : ¬ Within 0 tag)
    (rs : List Res) (status : Status) (count : UInt32) (bs : Bytes) :
    ∃ e, decodeReply rs (.ok (replyBody status tag count bs)) = (rs, .error e) := by
  obtain ⟨rest, hrest⟩ : ∃ rest, Wire.opaqueVar tag ++ (Wire.uint count ++ bs)
      = Wire.uint (UInt32.ofNat tag.length) ++ rest := ⟨_, by simp [Wire.opaqueVar]; rfl⟩
  have henc : newDecoder (replyBody status tag count bs)
      = input 0 (Wire.uint status ++ (Wire.uint (UInt32.ofNat tag.length) ++ rest)) := by
    rw [← hrest]
    simp [newDecoder, input, replyBody]
  have hst : uint32 (input 0 (Wire.uint status ++ (Wire.uint (UInt32.ofNat tag.length) ++ rest)))
      = (status, input 0 (Wire.uint (UInt32.ofNat tag.length) ++ rest)) := reads_uint32 _ _
  have hlen' : uint32 (input 0 (Wire.uint (UInt32.ofNat tag.length) ++ rest))
      = (UInt32.ofNat tag.length, input 0 rest) := reads_uint32 _ _
  have hover : (input 0 rest).effMaxLen < UInt32.ofNat tag.length := by
    rw [UInt32.lt_iff_toNat_lt, UInt32.toNat_ofNat_of_lt' hlen]
    exact Nat.not_le.mp htag
  -- the tag latches an error, and the count after it keeps it
  rcases hs : string (input 0 (Wire.uint (UInt32.ofNat tag.length) ++ rest)) with ⟨t, d₂⟩
  rcases hu : uint32 d₂ with ⟨n, d₃⟩
  have hd₂ : d₂.err.isSome = true := by
    have hv : varOpaque (input 0 (Wire.uint (UInt32.ofNat tag.length) ++ rest))
        = (none, { input 0 rest with err := some .limitExceeded }) := by
      unfold varOpaque
      simp only [hlen', hover, if_true]
      rfl
    have hs' := congrArg Prod.snd hs
    simp only [string, bind_run, pure_run, hv] at hs'
    rw [← hs']
    rfl
  have hd₃ : d₃.err.isSome = true := by
    have := sticky_uint32 d₂ hd₂
    rwa [hu] at this
  obtain ⟨e, he⟩ := Option.isSome_iff_exists.mp hd₃
  have hread : readHeader (newDecoder (replyBody status tag count bs)) = ((status, t, n), d₃) := by
    simp only [henc, readHeader, bind_run, pure_run, hst, hs, hu]
  have hh : decodeHeader rs.length (newDecoder (replyBody status tag count bs))
      = (.error (.wrap "nfs4: decoding compound header" e.toErr), d₃) := by
    simp only [decodeHeader, hread, checkHeader, he]
  simp only [decodeReply, decodeCompound_of_rejected hh, checkDecoder, he]
  exact ⟨_, rfl⟩

/-- Two outcomes agree up to the text of an error. -/
def Agree : Except Err CompoundResult → Except Err CompoundResult → Prop
  | .ok r, .ok r' => r = r'
  | .error _, .error _ => True
  | _, _ => False

/-- One more result. -/
def CompoundResult.bump (r : CompoundResult) : CompoundResult :=
  { r with numResults := r.numResults + 1 }

/-- The same reply with a successful SEQUENCE result in front: the decoders of the others end
up in the same state, and the outcomes agree up to the number of results. -/
lemma decodeReply_sequence {tag : Bytes} (hlen : tag.length < 2 ^ 32) {count : UInt32}
    (hcount : count.toNat + 1 < 2 ^ 32) (s : Sequenced) (rs : List Res) (status : Status)
    (bs : Bytes) :
    ∃ q out, decodeReply (.sequence {} :: rs) (.ok (replyBody status tag (count + 1)
          ((OpResult.sequence (.ok s)).encode ++ bs)))
        = (.sequence q :: (decodeReply rs (.ok (replyBody status tag count bs))).1, out) ∧
      q.status = nfs4Ok ∧
      Agree out ((decodeReply rs (.ok (replyBody status tag count bs))).2.map
        CompoundResult.bump) := by
  have hn : (count + 1).toNat = count.toNat + 1 := by
    rw [UInt32.toNat_add]
    exact Nat.mod_eq_of_lt hcount
  by_cases htag : Within 0 tag
  · rcases Nat.lt_or_ge rs.length count.toNat with hmany | hfew
    · obtain ⟨e, he⟩ := decodeHeader_of_lt htag status count bs hmany
      obtain ⟨e', he'⟩ := decodeHeader_of_lt (n := (Res.sequence {} :: rs).length) htag status
        (count + 1) ((OpResult.sequence (.ok s)).encode ++ bs) (by simpa [hn] using hmany)
      simp only [decodeReply, decodeCompound_of_rejected he, decodeCompound_of_rejected he',
        checkDecoder]
      exact ⟨{}, _, rfl, rfl, trivial⟩
    · have hh := decodeHeader_of_le htag status count bs hfew
      have hh' := decodeHeader_of_le (n := (Res.sequence {} :: rs).length) htag status
        (count + 1) ((OpResult.sequence (.ok s)).encode ++ bs) (by simpa [hn] using hfew)
      obtain ⟨q, o, hdec, hq, ho⟩ := decodeResops_sequence s count.toNat rs bs
      simp only [decodeReply, decodeCompound_of_header hh, decodeCompound_of_header hh', hn, hdec]
      generalize decodeResops count.toNat 0 rs (input 0 bs) = R at ho ⊢
      rcases R with ⟨⟨rs', o'⟩, d⟩
      rcases o with - | e <;> rcases o' with - | e'
      · simp only [checkDecoder, loopOutcome]
        cases d.err with
        | none => exact ⟨q, _, rfl, hq, rfl⟩
        | some e => exact ⟨q, _, rfl, hq, trivial⟩
      · simp at ho
      · simp at ho
      · simp only [checkDecoder, loopOutcome]
        cases d.err <;> exact ⟨q, _, rfl, hq, trivial⟩
  · obtain ⟨e, he⟩ := decodeReply_long_tag hlen htag rs status count bs
    obtain ⟨e', he'⟩ := decodeReply_long_tag hlen htag (.sequence {} :: rs) status (count + 1)
      ((OpResult.sequence (.ok s)).encode ++ bs)
    rw [he, he']
    exact ⟨{}, _, rfl, rfl, trivial⟩

/-- The transport fails exactly when `DecodeCompound` rejects the reply. -/
lemma decodeReply_error_iff (rs : List Res) (b : Bytes) :
    (∃ e, (decodeReply rs (.ok b)).2 = .error e) ↔
      ∃ e, (decodeCompound rs (newDecoder b)).1.2 = .error e := by
  rcases hd : decodeCompound rs (newDecoder b) with ⟨⟨rs', e | r⟩, d⟩
  · simp only [decodeReply, hd, checkDecoder]
    cases d.err <;> simp
  · have hok : (decodeCompound rs (newDecoder b)).1.2 = .ok r := by rw [hd]
    have hnone : d.err = none := by simpa [hd] using decodeCompound_err hok
    simp [decodeReply, hd, checkDecoder, hnone]

/-- Two outcomes that succeed together fail together. -/
lemma exists_error_iff {α : Type} {x y : Except Err α} (h : ∀ a, x = .ok a ↔ y = .ok a) :
    (∃ e, x = .error e) ↔ ∃ e, y = .error e := by
  rcases x with e | a <;> rcases y with e' | b
  · simp
  · exact absurd ((h b).mpr rfl) (by simp)
  · exact absurd ((h a).mp rfl) (by simp)
  · simp

/-- What an accepted reply reports is its header. -/
lemma decodeReply_replyBody_ok {tag : Bytes} (hlen : tag.length < 2 ^ 32) {rs : List Res}
    {status : Status} {count : UInt32} {bs : Bytes} {r : CompoundResult}
    (h : (decodeReply rs (.ok (replyBody status tag count bs))).2 = .ok r) :
    r = { status := status, tag := tag, numResults := count.toNat } := by
  by_cases htag : Within 0 tag
  · rcases Nat.lt_or_ge rs.length count.toNat with hmany | hfew
    · obtain ⟨e, he⟩ := decodeHeader_of_lt htag status count bs hmany
      simp [decodeReply, decodeCompound_of_rejected he, checkDecoder, input] at h
    · have hh := decodeHeader_of_le htag status count bs hfew
      simp only [decodeReply, decodeCompound_of_header hh] at h
      generalize decodeResops count.toNat 0 rs (input 0 bs) = R at h
      rcases R with ⟨⟨rs', - | e⟩, d⟩ <;> simp only [checkDecoder, loopOutcome] at h <;>
        cases he : d.err <;> simp_all
  · obtain ⟨e, he⟩ := decodeReply_long_tag hlen htag rs status count bs
    simp [he] at h

/-! ## The decorator -/

/-- What the session caller makes of an outcome of its base in which SEQUENCE succeeded. -/
lemma afterBase_sequence {q : SequenceRes} (hq : q.status = nfs4Ok) (rs : List Res)
    {out direct : Except Err CompoundResult} (h : Agree out (direct.map CompoundResult.bump)) :
    (afterBase (.sequence q :: rs, out)).2.1 = rs ∧
      ∀ r, (afterBase (.sequence q :: rs, out)).2.2 = .ok r ↔ direct = .ok r := by
  rcases out with e | r <;> rcases direct with e' | r'
  · simp [afterBase]
  · exact h.elim
  · exact h.elim
  · obtain rfl : r = r'.bump := h
    have hst : statusErr (Res.sequence q).stat = none := by simp [Res.stat, hq, statusErr]
    simp [afterBase, hst, CompoundResult.bump]

/-- **The SEQUENCE decorator is transparent.**  Let the session have a free slot, and let the
base caller answer the wrapped compound with a reply to the compound itself, extended by a
successful SEQUENCE result.  Then `sessionCaller.CallCompound` leaves the decoders as calling
the base directly with the compound and that reply would, returns the same result, with the
number of the compound's own results, and fails exactly when `DecodeCompound` rejects the
reply.  The request it sends is the compound with the number of operations incremented and
SEQUENCE inserted before the first of them. -/
theorem sessionCaller_transparent {W W₀ : Type} {E : Env W} {E₀ : Env W₀} {n : Net W}
    {n₀ : Net W₀} {w w₁ : W} {w₀ : W₀} {p : ℕ} {s₁ s₂ : Session} {l : SlotLease} {c : Compound}
    {rs : List Res} {status : Status} {tag : Bytes} {count : UInt32} {resops : Bytes}
    {sequenced : Sequenced} (htag : tag.length < 2 ^ 32) (hcount : count.toNat + 1 < 2 ^ 32)
    (hsel : E.select n.world = (none, w)) (htoken : (n.session p).takeToken = some s₁)
    (hslot : s₁.scan = some (l, s₂))
    (hbase : E.base (wrapCompound (s₂.sequenceArgs l) c) w
      = (.ok (replyBody status tag (count + 1)
          ((OpResult.sequence (.ok sequenced)).encode ++ resops)), w₁))
    (hdirect : E₀.base c n₀.world = (.ok (replyBody status tag count resops), w₀)) :
    let out := ((Caller.session .rpc p).callCompound E c rs n).1
    let direct := (Caller.rpc.callCompound E₀ c rs n₀).1
    let front := Encoder.string c.tag ++ Encoder.uint32 c.minorVersion
    let ops := c.ops.flatMap Arg.encodeArg
    (out.1 = direct.1 ∧ (∀ r, out.2 = .ok r ↔ direct.2 = .ok r) ∧
        (∀ r, out.2 = .ok r →
          r = { status := status, tag := tag, numResults := count.toNat }) ∧
        ((∃ e, out.2 = .error e) ↔
          ∃ e, (decodeCompound rs (newDecoder (replyBody status tag count resops))).1.2
            = .error e)) ∧
      c.encode = front ++ Encoder.uint32 (UInt32.ofNat c.ops.length) ++ ops ∧
      (wrapCompound (s₂.sequenceArgs l) c).encode
        = front ++ Encoder.uint32 (UInt32.ofNat (c.ops.length + 1))
          ++ (Arg.sequence (s₂.sequenceArgs l)).encodeArg ++ ops := by
  intro out direct front ops
  obtain ⟨q, o, hdec, hq, hagree⟩ :=
    decodeReply_sequence htag hcount sequenced rs status resops
  have hd : direct = decodeReply rs (.ok (replyBody status tag count resops)) := by
    simp only [direct, Caller.callCompound, hdirect]
  have hout : out = (afterBase (.sequence q :: direct.1, o)).2 := by
    obtain ⟨n', hcall⟩ : ∃ n', Caller.rpc.callCompound E (wrapCompound (s₂.sequenceArgs l) c)
        (.sequence {} :: rs) ((n.push (.select none) w).setSession p s₂)
        = ((.sequence q :: direct.1, o), n') := by
      rw [hd, ← hdec]
      simp only [Caller.callCompound, Net.setSession, Net.push, hbase]
      exact ⟨_, rfl⟩
    exact congrArg Prod.fst (callCompound_leased hsel htoken hslot hcall)
  rw [← hd] at hagree
  obtain ⟨hrs, hok⟩ := afterBase_sequence hq direct.1 hagree
  rw [← hout] at hrs hok
  refine ⟨⟨hrs, hok, fun r hr => ?_, ?_⟩, ?_, ?_⟩
  · have hr' := (hok r).mp hr
    rw [hd] at hr'
    exact decodeReply_replyBody_ok htag hr'
  · rw [← decodeReply_error_iff, ← hd]
    exact exists_error_iff hok
  · simp [Compound.encode, front, ops]
  · simp [Compound.encode, wrapCompound, newCompound, front, ops]

/-- PUTROOTFH and GETFH. -/
def rootCompound : Compound := ((newCompound []).add .putrootfh).add .getfh

/-- Their results. -/
def rootResops : Bytes :=
  [OpResult.status opPutrootfh nfs4Ok, .getfh (.ok ⟨[240], by decide⟩)].flatMap OpResult.encode

theorem sessionCaller_transparent_root :
    ((Caller.session .rpc 0).callCompound scriptEnv rootCompound [.status {}, .getfh {}]
        { world := [.ok (replyBody nfs4Ok [] 3
            ((OpResult.sequence (.ok ⟨default, 1, 0, 0, 0, 0⟩)).encode ++ rootResops))]
          sessions := [newSession default 4] }).1.1
      = (Caller.rpc.callCompound scriptEnv rootCompound [.status {}, .getfh {}]
          { world := [.ok (replyBody nfs4Ok [] 2 rootResops)] }).1.1 := by
  have htag : ([] : Bytes).length < 2 ^ 32 := by decide
  have hcount : (2 : UInt32).toNat + 1 < 2 ^ 32 := by decide
  exact (sessionCaller_transparent htag hcount rfl rfl rfl rfl rfl).1.1

end NfsClient.Nfs4
