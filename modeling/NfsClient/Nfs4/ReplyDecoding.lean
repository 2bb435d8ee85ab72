import NfsClient.Nfs4.Compound
import NfsClient.Nfs4.ReplyFormat
import NfsClient.Xdr.Decodes

/-!
# Decoding a reply is exact

The result decoders read the encodings of `Format` back: each stores the status and the
fields it keeps, consumes the fields it skips, and leaves the rest of the input to the next
one.  One wrong width in a skipped field would shift every later result, so there is one
lemma for each piece of the grammar, and the loop of `DecodeCompound` is an induction over
the results on top of them.
-/

namespace NfsClient.Nfs4.Format

open NfsClient.Lib NfsClient.Xdr NfsClient.Xdr.Decoder

/-! ## Pieces -/

lemma reads_uint32 (v : UInt32) : Reads (input 0) uint32 (Wire.uint v) v :=
  (decodes_uint32 v).reads

lemma reads_uint64 (v : UInt64) : Reads (input 0) uint64 (Wire.hyper v) v :=
  (decodes_uint64 v).reads

lemma reads_int64 (v : Int64) : Reads (input 0) int64 (Wire.hyper v.toUInt64) v :=
  (decodes_int64 v).reads

lemma reads_bool (v : Bool) : Reads (input 0) bool (Wire.bool v) v :=
  (decodes_bool v).reads

lemma within_field (p : Field) : Within 0 p.1 := p.2

lemma reads_varOpaque (p : Field) : Reads (input 0) varOpaque p.encode (some p.1) :=
  (decodes_varOpaque (within_field p)).reads

lemma reads_string (p : Field) : Reads (input 0) string p.encode p.1 :=
  (decodes_string (within_field p)).reads

lemma reads_fixed {n : ℕ} (a : ByteArr n) :
    Reads (input 0) (fixedOpaque n) (fixed a) (some a.bytes) :=
  (decodes_fixedOpaque a.length_eq).reads

/-- Copying as many bytes as the array has replaces its contents. -/
@[simp] lemma copyFrom_bytes {n : ℕ} (a b : ByteArr n) : b.copyFrom a.bytes = a :=
  ByteArr.ext (ByteArr.copyFrom_of_length a.length_eq)

lemma decodes_words {m : UInt32} (ws : List UInt32) :
    Decodes m (decodeWords ws.length) (ws.flatMap Wire.uint) ws := by
  induction ws with
  | nil => exact .pure _
  | cons w ws ih =>
      exact .of_eq ((decodes_uint32 w).bind (fun _ => ih.keeps.bind fun _ => .pure _)
        (ih.bind (fun _ => .pure _) (.pure _))) (by simp)

/-- A bitmap is read back whatever the limit of the decoder. -/
lemma decodes_bitmap {m : UInt32} {b : Bitmap} (h : b.length < 2 ^ 32) :
    Decodes m decodeBitmap (Wire.array Wire.uint b) b := by
  have heq : decodeBitmap = uint32 >>= fun n => unlessFailed [] (decodeWords n.toNat) := rfl
  rw [heq]
  refine (decodes_uint32 _).bind (fun _ => keeps_unlessFailed _ _) (Decodes.single ?_)
  rw [UInt32.toNat_ofNat_of_lt' h]
  exact (decodes_words b).unlessFailed

lemma reads_bitmap (b : Mask) : Reads (input 0) decodeBitmap b.encode b.1 :=
  (decodes_bitmap b.2).reads

lemma reads_stateid (s : Stateid) : Reads (input 0) decodeStateid (stateid s) s :=
  .to_eq ((reads_uint32 _).bind ((reads_fixed _).bind (.pure _))) (by simp)

lemma reads_changeInfo (c : ChangeInfo) : Reads (input 0) skipChangeInfo c.encode () :=
  (reads_bool _).bind ((reads_uint64 _).bind ((reads_uint64 _).bind (.pure _)))

lemma reads_ace (a : Ace) : Reads (input 0) decodeNfsace4 a.encode () :=
  (reads_uint32 _).bind ((reads_uint32 _).bind ((reads_uint32 _).bind
    ((reads_string _).bind (.pure _))))

lemma reads_spaceLimit (l : SpaceLimit) : Reads (input 0) decodeSpaceLimit l.encode () := by
  cases l with
  | size filesize => exact (reads_uint32 1).bind ((reads_uint64 _).bind (.pure _))
  | blocks n b =>
      exact (reads_uint32 2).bind ((reads_uint32 _).bind ((reads_uint32 _).bind (.pure _)))

lemma reads_delegation (d : Delegation) : Reads (input 0) skipDelegation d.encode () := by
  cases d with
  | none => exact (reads_uint32 0).bind (.pure _)
  | read s recalled ace =>
      exact (reads_uint32 1).bind ((reads_stateid _).bind ((reads_bool _).bind
        (reads_ace _).single))
  | write s recalled limit ace =>
      exact (reads_uint32 2).bind ((reads_stateid _).bind ((reads_bool _).bind
        ((reads_spaceLimit _).bind (reads_ace _).single)))

lemma reads_skipWords (ws : List UInt32) :
    Reads (input 0) (skipWords ws.length) (ws.flatMap Wire.uint) () := by
  induction ws with
  | nil => exact .pure _
  | cons w ws ih => exact .of_eq ((reads_uint32 w).bind ih.single) (by simp)

lemma reads_rdmaIrd (ws : Counted UInt32) :
    Reads (input 0) (skipWords (UInt32.ofNat ws.1.length).toNat) (ws.1.flatMap Wire.uint) () := by
  rw [UInt32.toNat_ofNat_of_lt' ws.2]
  exact reads_skipWords ws.1

lemma reads_channel (c : Channel) : Reads (input 0) decodeChannelAttrs c.encode c.attrs :=
  .of_eq ((reads_uint32 _).bind ((reads_uint32 _).bind ((reads_uint32 _).bind
    ((reads_uint32 _).bind ((reads_uint32 _).bind ((reads_uint32 _).bind ((reads_uint32 _).bind
      ((reads_rdmaIrd c.rdmaIrd).bind (.pure _)))))))))
    (by simp [Channel.encode, Wire.array])

lemma reads_skipImplIDs (is : List ImplID) :
    Reads (input 0) (skipImplIDs is.length) (is.flatMap ImplID.encode) () := by
  induction is with
  | nil => exact .pure _
  | cons i is ih =>
      exact .of_eq ((reads_string i.domain).bind ((reads_string i.name).bind
        ((reads_int64 i.seconds).bind ((reads_uint32 i.nseconds).bind ih.single))))
        (by simp [ImplID.encode])

lemma reads_implIDs (is : Counted ImplID) :
    Reads (input 0) (skipImplIDs (UInt32.ofNat is.1.length).toNat) (is.1.flatMap ImplID.encode)
      () := by
  rw [UInt32.toNat_ofNat_of_lt' is.2]
  exact reads_skipImplIDs is.1

/-! ## The entries of a directory -/

/-- What the client keeps of an entry. -/
def Entry.stored (e : Entry) : DirEntry :=
  { cookie := e.cookie, name := e.name.1, attrMask := e.attrs.mask.1, attrVals := e.attrs.vals.1 }

lemma reads_entry (e : Entry) : Reads (input 0) DirEntry.decode e.encode e.stored :=
  (reads_uint64 _).bind ((reads_string _).bind ((reads_bitmap _).bind ((reads_varOpaque _).bind
    (.pure _))))

/-- The loop collects the entries, given fuel for each of them and for the end. -/
lemma reads_entries {es : List Entry} {fuel : ℕ} (hfuel : es.length < fuel)
    (acc : List DirEntry) :
    Reads (input 0) (decodeEntries fuel acc) (encodeEntries es)
      (acc ++ es.map Entry.stored, true) := by
  induction es generalizing fuel acc with
  | nil =>
      obtain ⟨fuel, rfl⟩ : ∃ k, fuel = k + 1 := ⟨fuel - 1, by simp at hfuel; omega⟩
      intro rest
      have hb : bool (input 0 (Wire.bool false ++ rest)) = (false, input 0 rest) :=
        reads_bool false rest
      simp [decodeEntries, encodeEntries, hb, pure]
  | cons e es ih =>
      obtain ⟨fuel, rfl⟩ : ∃ k, fuel = k + 1 := ⟨fuel - 1, by simp at hfuel; omega⟩
      intro rest
      have hb : bool (input 0 (Wire.bool true ++ (e.encode ++ (encodeEntries es ++ rest))))
          = (true, input 0 (e.encode ++ (encodeEntries es ++ rest))) := reads_bool true _
      have he : DirEntry.decode (input 0 (e.encode ++ (encodeEntries es ++ rest)))
          = (e.stored, input 0 (encodeEntries es ++ rest)) := reads_entry e _
      have hlt : es.length < fuel := by
        simp at hfuel
        omega
      have hes := ih hlt (acc ++ [e.stored]) rest
      simp only [encodeEntries, List.flatten_cons, List.flatten_nil, List.append_nil,
        List.append_assoc, decodeEntries, hb, he]
      simpa [input] using hes

lemma length_encodeEntries (es : List Entry) : es.length < (encodeEntries es).length := by
  induction es with
  | nil => simp [encodeEntries]
  | cons e es ih =>
      simp [encodeEntries]
      omega

/-- Every entry takes input, so the length of the input is fuel enough. -/
lemma reads_entryList (es : List Entry) (acc : List DirEntry) :
    Reads (input 0) (fun d => decodeEntries (d.r.length + 1) acc d) (encodeEntries es)
      (acc ++ es.map Entry.stored, true) := by
  intro rest
  have hlen := length_encodeEntries es
  exact reads_entries (by simp [input]; omega) acc rest

/-! ## One result -/

/-- What a decoder holds after it has decoded a result: the status, and the fields that come
with it.  The other fields keep what they had, and the entries of a directory are appended to
those that are there. -/
def OpResult.store : OpResult → Res → Res
  | .status _ st, .status r => .status { r with status := st }
  | .getfh v, .getfh r =>
      .getfh (v.elim (fun fh => { r with status := nfs4Ok, fh := some fh.1 })
        fun st => { r with status := st })
  | .getattr v, .getattr r =>
      .getattr (v.elim
        (fun a => { r with status := nfs4Ok, attrMask := a.mask.1, attrVals := a.vals.1 })
        fun st => { r with status := st })
  | .setclientid (.ok clientID confirm), .setclientid r =>
      .setclientid { r with status := nfs4Ok, clientID, confirm }
  | .setclientid (.clidInuse netID addr), .setclientid r =>
      .setclientid { r with
        status := nfs4errClidInuse, clientUsingNetID := netID.1, clientUsingAddr := addr.1 }
  | .setclientid (.failed st _), .setclientid r => .setclientid { r with status := st }
  | .read v, .read r =>
      .read (v.elim (fun a => { r with status := nfs4Ok, eof := a.eof, data := a.data.1 })
        fun st => { r with status := st })
  | .readdir v, .readdir r =>
      .readdir (v.elim
        (fun a => { r with
          status := nfs4Ok, cookieverf := a.cookieverf,
          entries := r.entries ++ a.entries.map Entry.stored, eof := a.eof })
        fun st => { r with status := st })
  | .readlink v, .readlink r =>
      .readlink (v.elim (fun l => { r with status := nfs4Ok, link := l.1 })
        fun st => { r with status := st })
  | .openFile v, .openFile r =>
      .openFile (v.elim
        (fun a => { r with
          status := nfs4Ok, stateid := a.stateid, rFlags := a.rflags, attrSet := a.attrset.1 })
        fun st => { r with status := st })
  | .openConfirm v, .openConfirm r =>
      .openConfirm (v.elim (fun s => { r with status := nfs4Ok, stateid := s })
        fun st => { r with status := st })
  | .write v, .write r =>
      .write (v.elim
        (fun a => { r with
          status := nfs4Ok, count := a.count, committed := a.committed, verf := a.verf })
        fun st => { r with status := st })
  | .commit v, .commit r =>
      .commit (v.elim (fun verf => { r with status := nfs4Ok, verf })
        fun st => { r with status := st })
  | .close v, .close r =>
      .close (v.elim (fun s => { r with status := nfs4Ok, stateid := s })
        fun st => { r with status := st })
  | .create v, .create r =>
      .create (v.elim (fun a => { r with status := nfs4Ok, attrSet := a.attrset.1 })
        fun st => { r with status := st })
  | .remove v, .remove r => .remove { r with status := v.status }
  | .rename v, .rename r => .rename { r with status := v.status }
  | .link v, .link r => .link { r with status := v.status }
  | .setattr st attrset, .setattr r => .setattr { r with status := st, attrSet := attrset.1 }
  | .exchangeID v, .exchangeID r =>
      .exchangeID (v.elim
        (fun a => { r with
          status := nfs4Ok, clientID := a.clientID, sequenceID := a.sequenceID,
          flags := a.flags })
        fun st => { r with status := st })
  | .createSession v, .createSession r =>
      .createSession (v.elim
        (fun a => { r with
          status := nfs4Ok, sessionID := a.sessionID, sequenceID := a.sequenceID,
          flags := a.flags, foreChan := a.foreChan.attrs, backChan := a.backChan.attrs })
        fun st => { r with status := st })
  | .destroySession st, .destroySession r => .destroySession { r with status := st }
  | .destroyClientID st, .destroyClientID r => .destroyClientID { r with status := st }
  | .reclaimComplete st, .reclaimComplete r => .reclaimComplete { r with status := st }
  | .sequence v, .sequence r =>
      .sequence (v.elim
        (fun a => { r with
          status := nfs4Ok, sessionID := a.sessionID, sequenceID := a.sequenceID,
          slotID := a.slotID, highestSlotID := a.highestSlotID,
          targetHighestSlot := a.targetHighestSlot, statusFlags := a.statusFlags })
        fun st => { r with status := st })
  | _, r => r

/-- A union switched on the status, with a void default arm. -/
lemma reads_result {α ρ : Type} {enc : α → Bytes} {x : Status → Dec ρ} {y : Status → ρ}
    {f : α → ρ} (v : Result α) (hok : ∀ a, Reads (input 0) (x nfs4Ok) (enc a) (f a)) :
    Reads (input 0) (uint32 >>= fun st => if st = nfs4Ok then x st else pure (y st))
      (v.encode enc) (v.elim f y) := by
  cases v with
  | ok a =>
      refine (reads_uint32 nfs4Ok).bind (Reads.single ?_)
      rw [if_pos rfl]
      exact hok a
  | failed st ne =>
      refine (reads_uint32 st).bind ?_
      rw [if_neg ne]
      exact .pure _

lemma reads_setclientid (v : Setclientid) (r : SetclientidRes) :
    Reads (input 0) (Res.setclientid r).decodeRes v.encode
      ((OpResult.setclientid v).store (.setclientid r)) := by
  cases v with
  | ok clientID confirm =>
      exact .to_eq (.map _ ((reads_uint32 nfs4Ok).bind ((reads_uint64 clientID).bind
        ((reads_fixed confirm).bind (.pure _)))))
        (by rw [Option.getD_some, copyFrom_bytes]; rfl)
  | clidInuse netID addr =>
      exact .map _ ((reads_uint32 nfs4errClidInuse).bind ((reads_string netID).bind
        ((reads_string addr).bind (.pure _))))
  | failed st ne =>
      refine .map _ ((reads_uint32 st).bind ?_)
      rw [if_neg ne.1, if_neg ne.2]
      exact .pure _

/-- A result and a decoder of its kind. -/
inductive OpResult.SameKind : OpResult → Res → Prop
  | status (op st r) : SameKind (.status op st) (.status r)
  | getfh (v r) : SameKind (.getfh v) (.getfh r)
  | getattr (v r) : SameKind (.getattr v) (.getattr r)
  | setclientid (v r) : SameKind (.setclientid v) (.setclientid r)
  | read (v r) : SameKind (.read v) (.read r)
  | readdir (v r) : SameKind (.readdir v) (.readdir r)
  | readlink (v r) : SameKind (.readlink v) (.readlink r)
  | openFile (v r) : SameKind (.openFile v) (.openFile r)
  | openConfirm (v r) : SameKind (.openConfirm v) (.openConfirm r)
  | write (v r) : SameKind (.write v) (.write r)
  | commit (v r) : SameKind (.commit v) (.commit r)
  | close (v r) : SameKind (.close v) (.close r)
  | create (v r) : SameKind (.create v) (.create r)
  | remove (v r) : SameKind (.remove v) (.remove r)
  | rename (v r) : SameKind (.rename v) (.rename r)
  | link (v r) : SameKind (.link v) (.link r)
  | setattr (st attrset r) : SameKind (.setattr st attrset) (.setattr r)
  | exchangeID (v r) : SameKind (.exchangeID v) (.exchangeID r)
  | createSession (v r) : SameKind (.createSession v) (.createSession r)
  | destroySession (st r) : SameKind (.destroySession st) (.destroySession r)
  | destroyClientID (st r) : SameKind (.destroyClientID st) (.destroyClientID r)
  | reclaimComplete (st r) : SameKind (.reclaimComplete st) (.reclaimComplete r)
  | sequence (v r) : SameKind (.sequence v) (.sequence r)

lemma OpResult.sameKind {v : OpResult} {r : Res} (h : r.fresh = v.kind) : v.SameKind r := by
  cases v <;> cases r <;> first | exact Res.noConfusion h | constructor

/-- **Each decoder reads the result of its kind.**  It stores the status and the fields, and
consumes exactly the encoding. -/
theorem reads_decodeRes {v : OpResult} {r : Res} (h : r.fresh = v.kind) :
    Reads (input 0) r.decodeRes v.body (v.store r) := by
  cases OpResult.sameKind h with
  | status op st r =>
      exact .map _ ((reads_uint32 st).last (.pure _))
  | getfh v r =>
      exact .map _ (reads_result v fun fh => (reads_varOpaque fh).last (.pure _))
  | getattr v r =>
      exact .map _ (reads_result v fun a =>
        (reads_bitmap a.mask).bind ((reads_varOpaque a.vals).bind (.pure _)))
  | setclientid v r =>
      exact reads_setclientid v r
  | read v r =>
      exact .map _ (reads_result v fun a =>
        (reads_bool a.eof).bind ((reads_varOpaque a.data).bind (.pure _)))
  | readdir v r =>
      exact .map _ (reads_result v fun a => .to_eq ((reads_fixed a.cookieverf).bind
        ((reads_entryList a.entries r.entries).bind ((reads_bool a.eof).bind (.pure _))))
        (by simp))
  | readlink v r =>
      exact .map _ (reads_result v fun l => (reads_string l).last (.pure _))
  | openFile v r =>
      exact .map _ (reads_result v fun a =>
        (reads_stateid a.stateid).bind ((reads_changeInfo a.cinfo).bind
          ((reads_uint32 a.rflags).bind ((reads_bitmap a.attrset).bind
            ((reads_delegation a.delegation).bind (.pure _))))))
  | openConfirm v r =>
      exact .map _ (reads_result v fun s => (reads_stateid s).last (.pure _))
  | write v r =>
      exact .map _ (reads_result v fun a => .to_eq ((reads_uint32 a.count).bind
        ((reads_uint32 a.committed).bind ((reads_fixed a.verf).bind (.pure _)))) (by simp))
  | commit v r =>
      exact .map _ (reads_result v fun verf =>
        .to_eq ((reads_fixed verf).last (.pure _)) (by simp))
  | close v r =>
      exact .map _ (reads_result v fun s => (reads_stateid s).last (.pure _))
  | create v r =>
      exact .map _ (reads_result v fun a =>
        (reads_changeInfo a.cinfo).bind ((reads_bitmap a.attrset).bind (.pure _)))
  | remove v r =>
      exact .to_eq (.map _ (reads_result v fun c => (reads_changeInfo c).last (.pure _)))
        (by cases v <;> rfl)
  | rename v r =>
      exact .to_eq (.map _ (reads_result v fun a =>
        (reads_changeInfo a.source).bind ((reads_changeInfo a.target).bind (.pure _))))
        (by cases v <;> rfl)
  | link v r =>
      exact .to_eq (.map _ (reads_result v fun c => (reads_changeInfo c).last (.pure _)))
        (by cases v <;> rfl)
  | setattr st attrset r =>
      exact .map _ ((reads_uint32 st).bind ((reads_bitmap attrset).bind (.pure _)))
  | exchangeID v r =>
      exact .map _ (reads_result v fun a => .of_eq ((reads_uint64 a.clientID).bind
        ((reads_uint32 a.sequenceID).bind ((reads_uint32 a.flags).bind ((reads_uint32 0).bind
          ((reads_uint64 a.minorID).bind ((reads_varOpaque a.majorID).bind
            ((reads_varOpaque a.scope).bind ((reads_uint32 _).bind
              ((reads_implIDs a.implIDs).bind (.pure _))))))))))
        (by simp [Exchanged.encode, Wire.array]))
  | createSession v r =>
      exact .map _ (reads_result v fun a => .to_eq ((reads_fixed a.sessionID).bind
        ((reads_uint32 a.sequenceID).bind ((reads_uint32 a.flags).bind
          ((reads_channel a.foreChan).bind ((reads_channel a.backChan).bind (.pure _))))))
        (by simp))
  | destroySession st r =>
      exact .map _ ((reads_uint32 st).last (.pure _))
  | destroyClientID st r =>
      exact .map _ ((reads_uint32 st).last (.pure _))
  | reclaimComplete st r =>
      exact .map _ ((reads_uint32 st).last (.pure _))
  | sequence v r =>
      exact .map _ (reads_result v fun a => .to_eq ((reads_fixed a.sessionID).bind
        ((reads_uint32 a.sequenceID).bind ((reads_uint32 a.slotID).bind
          ((reads_uint32 a.highestSlotID).bind ((reads_uint32 a.targetHighestSlot).bind
            ((reads_uint32 a.statusFlags).bind (.pure _))))))) (by simp))

/-- The number check of `DecodeCompound` passes on a result of the decoder's kind. -/
lemma expectedOp_eq {v : OpResult} {r : Res} (h : r.fresh = v.kind) :
    ¬ (r.expectedOp ≠ 0 ∧ r.expectedOp ≠ v.op) := by
  rw [← expectedOp_fresh, h]
  cases v <;> simp [OpResult.kind, OpResult.op, Res.expectedOp]

/-! ## The header -/

section Header

variable {tag : Bytes} (htag : Within 0 tag) {n : ℕ} (status : Status) (count : UInt32)
  (bs : Bytes)

include htag

lemma readHeader_replyBody :
    readHeader (newDecoder (replyBody status tag count bs))
      = ((status, tag, count), input 0 bs) := by
  have hread : Reads (input 0) readHeader
      [Wire.uint status, Wire.opaqueVar tag, Wire.uint count].flatten (status, tag, count) :=
    (reads_uint32 status).bind ((decodes_string htag).reads.bind
      ((reads_uint32 count).bind (.pure _)))
  have henc : newDecoder (replyBody status tag count bs)
      = input 0 ([Wire.uint status, Wire.opaqueVar tag, Wire.uint count].flatten ++ bs) := by
    simp [newDecoder, input, replyBody]
  rw [henc]
  exact hread bs

/-- More results than decoders. -/
lemma decodeHeader_of_lt (h : n < count.toNat) :
    ∃ e, decodeHeader n (newDecoder (replyBody status tag count bs)) = (.error e, input 0 bs) := by
  simp only [decodeHeader, readHeader_replyBody htag, checkHeader, input, if_pos h]
  exact ⟨_, rfl⟩

/-- A decoder for every result. -/
lemma decodeHeader_of_le (h : count.toNat ≤ n) :
    decodeHeader n (newDecoder (replyBody status tag count bs))
      = (.ok { status := status, tag := tag, numResults := count.toNat }, input 0 bs) := by
  simp only [decodeHeader, readHeader_replyBody htag, checkHeader, input,
    if_neg (Nat.not_lt.mpr h)]

end Header

/-! ## The whole reply -/

/-- The decoders after the results are decoded: those of the first results hold them, the
others are untouched. -/
def storeAll (vs : List OpResult) (rs : List Res) : List Res :=
  List.zipWith OpResult.store vs rs ++ rs.drop vs.length

/-- The first of the results has a decoder of its type, and so have the others. -/
lemma exists_cons_of_kinds {v : OpResult} {vs : List OpResult} {rs : List Res}
    (hk : (v :: vs).map OpResult.kind <+: kinds rs) :
    ∃ r rs', rs = r :: rs' ∧ v.kind = r.fresh ∧ vs.map OpResult.kind <+: kinds rs' := by
  obtain - | ⟨r, rs⟩ := rs
  · simp [kinds] at hk
  · simp only [kinds, List.map_cons, List.cons_prefix_cons] at hk
    exact ⟨r, rs, rfl, hk.1, hk.2⟩

/-- The loop over the results, by induction over them. -/
lemma decodeResops_encode {vs : List OpResult} {rs : List Res}
    (hk : vs.map OpResult.kind <+: kinds rs) (i : ℕ) (rest : Bytes) :
    decodeResops vs.length i rs (input 0 (vs.flatMap OpResult.encode ++ rest))
      = ((storeAll vs rs, none), input 0 rest) := by
  induction vs generalizing rs i with
  | nil => rfl
  | cons v vs ih =>
      obtain ⟨r, rs, rfl, hv, hvs⟩ := exists_cons_of_kinds hk
      have hop : uint32 (input 0
            (Wire.uint v.op ++ (v.body ++ (vs.flatMap OpResult.encode ++ rest))))
          = (v.op, input 0 (v.body ++ (vs.flatMap OpResult.encode ++ rest))) := reads_uint32 _ _
      have hturn : decodeResop i r (input 0 ((v :: vs).flatMap OpResult.encode ++ rest))
          = ((v.store r, none), input 0 (vs.flatMap OpResult.encode ++ rest)) := by
        simp only [List.flatMap_cons, OpResult.encode, List.flatten_cons, List.flatten_nil,
          List.append_nil, List.append_assoc]
        refine decodeResop_of (by rw [hop]; rfl) ?_ ?_ rfl i
        · rw [hop]
          exact expectedOp_eq hv.symm
        · rw [hop]
          exact reads_decodeRes hv.symm _
      rw [List.length_cons, decodeResops_of_decoded hturn, ih hvs]
      rfl

/-- A whole reply: the results are stored, and what follows the reply is left. -/
lemma decodeCompound_stored {vs : List OpResult} {rs : List Res} (hlen : vs.length < 2 ^ 32)
    (hk : vs.map OpResult.kind <+: kinds rs) (status : Status) (tag : Field) (rest : Bytes) :
    decodeCompound rs (newDecoder (encodeReply status tag vs ++ rest))
      = ((storeAll vs rs, .ok { status := status, tag := tag.1, numResults := vs.length }),
        newDecoder rest) := by
  have hn : (UInt32.ofNat vs.length).toNat = vs.length := UInt32.toNat_ofNat_of_lt' hlen
  have hle : vs.length ≤ rs.length := by simpa using hk.length_le
  have henc : encodeReply status tag vs ++ rest
      = replyBody status tag.1 (UInt32.ofNat vs.length)
        (vs.flatMap OpResult.encode ++ rest) := by
    simp [encodeReply, replyBody]
  have hh := decodeHeader_of_le (within_field tag) status (UInt32.ofNat vs.length)
    (vs.flatMap OpResult.encode ++ rest) (hn ▸ hle)
  rw [henc, decodeCompound_of_header hh, hn, decodeResops_encode hk]
  rfl

/-- Every result starts with its status. -/
lemma OpResult.body_eq (v : OpResult) : ∃ bs, v.body = Wire.uint v.stat ++ bs := by
  cases v with
  | status op st | destroySession st | destroyClientID st | reclaimComplete st =>
      exact ⟨[], (List.append_nil _).symm⟩
  | setattr st b => exact ⟨_, rfl⟩
  | setclientid v => cases v <;> exact ⟨_, rfl⟩
  | _ v => cases v <;> exact ⟨_, rfl⟩

/-- The status of a result is the one the decoder holds afterwards. -/
lemma stat_store {v : OpResult} {r : Res} (h : r.fresh = v.kind) : (v.store r).stat = v.stat := by
  obtain ⟨bs, hbs⟩ := v.body_eq
  have hread : r.decodeRes (input 0 (v.body ++ [])) = (v.store r, input 0 []) :=
    reads_decodeRes h []
  have hstat : uint32 (input 0 (Wire.uint v.stat ++ bs)) = (v.stat, input 0 bs) :=
    reads_uint32 _ _
  have := decodeRes_stat (input 0 (v.body ++ [])) r
  rw [hread, List.append_nil, hbs, hstat] at this
  exact this

lemma map_stat_zipWith {vs : List OpResult} {rs : List Res}
    (hk : vs.map OpResult.kind <+: kinds rs) :
    (List.zipWith OpResult.store vs rs).map Res.stat = vs.map OpResult.stat := by
  induction vs generalizing rs with
  | nil => simp
  | cons v vs ih =>
      obtain ⟨r, rs, rfl, hv, hvs⟩ := exists_cons_of_kinds hk
      simp only [List.zipWith_cons_cons, List.map_cons, stat_store hv.symm, ih hvs]

/-- What a well-formed reply says: its header and the statuses of its results. -/
lemma parseReply_encodeReply {vs : List OpResult} {rs : List Res} (hlen : vs.length < 2 ^ 32)
    (hk : vs.map OpResult.kind <+: kinds rs) (status : Status) (tag : Field) :
    parseReply rs (encodeReply status tag vs)
      = some ({ status := status, tag := tag.1, numResults := vs.length },
          vs.map OpResult.stat) := by
  have hle : vs.length ≤ rs.length := by simpa using hk.length_le
  have hk' : vs.map OpResult.kind <+: kinds (kinds rs) := by rwa [kinds_kinds]
  have hdec := decodeCompound_stored hlen hk' status tag []
  rw [List.append_nil] at hdec
  have htake : (storeAll vs (kinds rs)).take vs.length
      = List.zipWith OpResult.store vs (kinds rs) := by
    rw [storeAll, List.take_left' (by simp [hle])]
  unfold parseReply
  rw [hdec]
  dsimp only
  rw [htake, map_stat_zipWith hk']

/-- The decoder holds the status and the fields of a result. -/
def OpResult.Holds : OpResult → Res → Prop
  | .status _ st, .status r | .destroySession st, .destroySession r
  | .destroyClientID st, .destroyClientID r | .reclaimComplete st, .reclaimComplete r =>
      r.status = st
  | .getfh v, .getfh r =>
      r.status = v.status ∧ v.elim (fun fh => r.fh = some fh.1) fun _ => True
  | .getattr v, .getattr r =>
      r.status = v.status ∧
        v.elim (fun a => r.attrMask = a.mask.1 ∧ r.attrVals = a.vals.1) fun _ => True
  | .setclientid (.ok clientID confirm), .setclientid r =>
      r.status = nfs4Ok ∧ r.clientID = clientID ∧ r.confirm = confirm
  | .setclientid (.clidInuse netID addr), .setclientid r =>
      r.status = nfs4errClidInuse ∧ r.clientUsingNetID = netID.1 ∧ r.clientUsingAddr = addr.1
  | .setclientid (.failed st _), .setclientid r => r.status = st
  | .read v, .read r =>
      r.status = v.status ∧ v.elim (fun a => r.eof = a.eof ∧ r.data = a.data.1) fun _ => True
  | .readdir v, .readdir r =>
      r.status = v.status ∧
        v.elim (fun a => r.cookieverf = a.cookieverf ∧ r.entries = a.entries.map Entry.stored ∧
          r.eof = a.eof) fun _ => True
  | .readlink v, .readlink r =>
      r.status = v.status ∧ v.elim (fun l => r.link = l.1) fun _ => True
  | .openFile v, .openFile r =>
      r.status = v.status ∧
        v.elim (fun a => r.stateid = a.stateid ∧ r.rFlags = a.rflags ∧ r.attrSet = a.attrset.1)
          fun _ => True
  | .openConfirm v, .openConfirm r | .close v, .close r =>
      r.status = v.status ∧ v.elim (fun s => r.stateid = s) fun _ => True
  | .write v, .write r =>
      r.status = v.status ∧
        v.elim (fun a => r.count = a.count ∧ r.committed = a.committed ∧ r.verf = a.verf)
          fun _ => True
  | .commit v, .commit r =>
      r.status = v.status ∧ v.elim (fun verf => r.verf = verf) fun _ => True
  | .create v, .create r =>
      r.status = v.status ∧ v.elim (fun a => r.attrSet = a.attrset.1) fun _ => True
  | .remove v, .remove r | .link v, .link r => r.status = v.status
  | .rename v, .rename r => r.status = v.status
  | .setattr st attrset, .setattr r => r.status = st ∧ r.attrSet = attrset.1
  | .exchangeID v, .exchangeID r =>
      r.status = v.status ∧
        v.elim (fun a => r.clientID = a.clientID ∧ r.sequenceID = a.sequenceID ∧
          r.flags = a.flags) fun _ => True
  | .createSession v, .createSession r =>
      r.status = v.status ∧
        v.elim (fun a => r.sessionID = a.sessionID ∧ r.sequenceID = a.sequenceID ∧
          r.flags = a.flags ∧ r.foreChan = a.foreChan.attrs ∧ r.backChan = a.backChan.attrs)
          fun _ => True
  | .sequence v, .sequence r =>
      r.status = v.status ∧
        v.elim (fun a => r.sessionID = a.sessionID ∧ r.sequenceID = a.sequenceID ∧
          r.slotID = a.slotID ∧ r.highestSlotID = a.highestSlotID ∧
          r.targetHighestSlot = a.targetHighestSlot ∧ r.statusFlags = a.statusFlags)
          fun _ => True
  | _, _ => False

/-- A READDIR decoder as it is declared: without entries. -/
def NoEntries (r : Res) : Prop := ∀ d, r = .readdir d → d.entries = []

lemma holds_store {v : OpResult} {r : Res} (h : r.fresh = v.kind) (he : NoEntries r) :
    v.Holds (v.store r) := by
  cases OpResult.sameKind h with
  | setclientid v r => cases v <;> simp [OpResult.store, OpResult.Holds]
  | readdir v r =>
      cases v <;> simp [OpResult.store, OpResult.Holds, Result.elim, Result.status, he r rfl]
  | status op st r | setattr st b r | destroySession st r | destroyClientID st r
  | reclaimComplete st r => simp [OpResult.store, OpResult.Holds]
  | _ v r => cases v <;> simp [OpResult.store, OpResult.Holds, Result.elim, Result.status]

/-- **Decoding a reply is exact.**  `DecodeCompound` accepts the encoding of a reply with any
status, tag and results, whatever the decoders held before, as long as the first of them have
the kinds of the results.  It reports the status, the tag and the number of results, leaves
exactly what follows the encoding, and leaves the decoders past the results untouched.  The
others hold the status and the fields of their results; READDIR adds its entries to those the
decoder has, so it must have none, as when it is declared. -/
theorem decodeCompound_encodeReply {vs : List OpResult} {rs : List Res}
    (hlen : vs.length < 2 ^ 32) (hk : vs.map OpResult.kind <+: kinds rs) (status : Status)
    (tag : Field) (rest : Bytes) :
    decodeCompound rs (newDecoder (encodeReply status tag vs ++ rest))
        = ((List.zipWith OpResult.store vs rs ++ rs.drop vs.length,
            .ok { status := status, tag := tag.1, numResults := vs.length }), newDecoder rest) ∧
      ∀ (i : ℕ) (v : OpResult) (r : Res), vs[i]? = some v → rs[i]? = some r → NoEntries r →
        v.Holds (v.store r) := by
  refine ⟨decodeCompound_stored hlen hk status tag rest, ?_⟩
  intro i v r hv hr he
  refine holds_store ?_ he
  have hi : i < (vs.map OpResult.kind).length := by
    simpa using (List.getElem?_eq_some_iff.mp hv).1
  have hkind := List.prefix_iff_getElem?.mp hk i hi
  simpa [kinds, hr, (List.getElem?_eq_some_iff.mp hv).2] using hkind

/-- A PUTFH that succeeds and a READDIR with one entry. -/
def listing : List OpResult :=
  [.status opPutfh nfs4Ok,
    .readdir (.ok
      { cookieverf := default
        entries := [{ cookie := 3, name := ⟨[97], by decide⟩,
                      attrs := { mask := ⟨[2], by decide⟩, vals := ⟨[0, 0, 0, 1], by decide⟩ } }]
        eof := true })]

theorem decodeCompound_encodeReply_listing :
    listing.length < 2 ^ 32 ∧
      listing.map OpResult.kind <+: kinds [.status {}, .readdir {}, .getfh {}] ∧
      decodeCompound [.status {}, .readdir {}, .getfh {}]
          (newDecoder (encodeReply nfs4Ok ⟨[116], by decide⟩ listing ++ [7]))
        = (([.status {}, .readdir { entries := [⟨3, [97], [2], [0, 0, 0, 1]⟩], eof := true },
              .getfh {}],
            .ok { status := nfs4Ok, tag := [116], numResults := 2 }), newDecoder [7]) := by
  have hlen : listing.length < 2 ^ 32 := by decide
  have hk : listing.map OpResult.kind <+: kinds [.status {}, .readdir {}, .getfh {}] := by decide
  exact ⟨hlen, hk, (decodeCompound_encodeReply hlen hk nfs4Ok ⟨[116], by decide⟩ [7]).1⟩

end NfsClient.Nfs4.Format
