import Mathlib.Data.List.Sort
import NfsClient.Nfs4.AttrBitmap

/-!
# Attribute lists

An `attrlist4` is the sequence of the values of the attributes in a bitmap, in increasing order of
their numbers and without any framing: the bitmap alone says where a value begins and how long it
is.  `Decode` reads the standard attributes out of it and `DecodeStatvfs` the statistics of a file
system.  Both run the same loop over `SetAttrs` with another `switch` and other error texts.

What a decoder should return is said independently of it: a table lists the numbers and the wire
forms of the values of a record.
-/

namespace NfsClient.Nfs4.Attr

open NfsClient.Lib NfsClient.Xdr NfsClient.Xdr.Decoder

/-! ## The statistics of a file system -/

def attrFilesAvail : AttrNum := 21
def attrFilesFree : AttrNum := 22
def attrFilesTotal : AttrNum := 23
def attrMaxName : AttrNum := 30
def attrSpaceAvail : AttrNum := 42
def attrSpaceFree : AttrNum := 43
def attrSpaceTotal : AttrNum := 44

/-- `StatvfsMask` requests the statistics of a file system. -/
def statvfsMask : Bitmap :=
  bitmapFor [attrFSID, attrFilesAvail, attrFilesFree, attrFilesTotal, attrMaxName, attrSpaceAvail,
    attrSpaceFree, attrSpaceTotal]

/-- `Statvfs` holds the decoded statistics. -/
structure Statvfs where
  present : Bitmap := []
  fsid : UInt64 × UInt64 := (0, 0)
  filesAvail : UInt64 := 0
  filesFree : UInt64 := 0
  filesTotal : UInt64 := 0
  maxName : UInt32 := 0
  spaceAvail : UInt64 := 0
  spaceFree : UInt64 := 0
  spaceTotal : UInt64 := 0
deriving DecidableEq

/-- The body of the loop of `DecodeStatvfs`. -/
def Statvfs.decodeAttr (s : Statvfs) (num : AttrNum) : Option (Dec Statvfs) :=
  if num = attrFSID then some do return { s with fsid := (← uint64, ← uint64) }
  else if num = attrFilesAvail then some do return { s with filesAvail := ← uint64 }
  else if num = attrFilesFree then some do return { s with filesFree := ← uint64 }
  else if num = attrFilesTotal then some do return { s with filesTotal := ← uint64 }
  else if num = attrMaxName then some do return { s with maxName := ← uint32 }
  else if num = attrSpaceAvail then some do return { s with spaceAvail := ← uint64 }
  else if num = attrSpaceFree then some do return { s with spaceFree := ← uint64 }
  else if num = attrSpaceTotal then some do return { s with spaceTotal := ← uint64 }
  else none

/-- The decoder of the statistics. -/
def statistics : ListDecoder Statvfs where
  field := Statvfs.decodeAttr
  unsupported := "attr: cannot decode unsupported statvfs attribute "
  decoding := "attr: decoding statvfs attribute "

/-- `DecodeStatvfs` parses an `attrlist4` with the statistics of a file system. -/
def decodeStatvfs (mask : Bitmap) (vals : Bytes) : Except Err Statvfs :=
  (statistics.loop (setAttrs mask) { present := mask } (newDecoder vals)).1

/-! ## The loop of the decoders -/

section Loop

variable {α : Type} (l : ListDecoder α) {a : α} {num : AttrNum} {nums : List AttrNum} {x : Dec α}

lemma ListDecoder.loop_none (h : l.field a num = none) (d : Decoder) :
    l.loop (num :: nums) a d = (.error (.text (l.unsupported ++ toString num)), d) := by
  simp only [loop, h]

lemma ListDecoder.loop_some (h : l.field a num = some x) (d : Decoder) :
    l.loop (num :: nums) a d = match (x d).2.err with
      | some e => (.error (.wrap (l.decoding ++ toString num) e.toErr), (x d).2)
      | none => l.loop nums (x d).1 (x d).2 := by
  simp only [loop, h]
  rfl

/-- A field that has been read is followed by the others. -/
lemma ListDecoder.loop_read (h : l.field a num = some x) {d d' : Decoder} {a' : α}
    (hx : x d = (a', d')) (hd : d'.err = none) : l.loop (num :: nums) a d = l.loop nums a' d' := by
  rw [l.loop_some h, hx]
  simp only [hd]

/-- A field that cannot be read ends the loop. -/
lemma ListDecoder.loop_failed (h : l.field a num = some x) {d : Decoder} (hd : Failed (x d).2) :
    ∃ e, (l.loop (num :: nums) a d).1 = .error e := by
  obtain ⟨e, he⟩ := Option.isSome_iff_exists.mp hd
  rw [l.loop_some h, he]
  exact ⟨_, rfl⟩

end Loop

/-! ## Reading what a table lists -/

/-- The wire forms of values, with the numbers of their attributes. -/
abbrev Table : Type := List (AttrNum × Bytes)

/-- The attributes of a table. -/
def Table.nums (t : Table) : List AttrNum := t.map Prod.fst

/-- The values of a table, one behind the other. -/
def Table.vals (t : Table) : Bytes := (t.map Prod.snd).flatten

@[simp] lemma Table.nums_nil : Table.nums [] = [] := rfl

@[simp] lemma Table.nums_cons (f : AttrNum × Bytes) (t : Table) :
    Table.nums (f :: t) = f.1 :: t.nums := rfl

@[simp] lemma Table.vals_nil : Table.vals [] = [] := rfl

@[simp] lemma Table.vals_cons (f : AttrNum × Bytes) (t : Table) :
    Table.vals (f :: t) = f.2 ++ t.vals := rfl

/-- The decoder reads each value of the table into its field: `rec p` is the record with the
values of the attributes in `p`. -/
def ListDecoder.Fills {α : Type} (l : ListDecoder α) (t : Table) (rec : (AttrNum → Bool) → α) :
    Prop :=
  ∀ f ∈ t, ∀ p, ∃ x, l.field (rec p) f.1 = some x ∧
    Decodes 0 x f.2 (rec fun a => decide (a = f.1) || p a)

section Fills

variable {α : Type} {l : ListDecoder α} {t : Table} {rec : (AttrNum → Bool) → α}

/-- The loop reads a table and stops behind its last value. -/
lemma ListDecoder.Fills.loop (h : l.Fills t rec) (p : AttrNum → Bool) (rest : Bytes) :
    l.loop t.nums (rec p) (input 0 (t.vals ++ rest)) =
      (.ok (rec fun a => decide (a ∈ t.nums) || p a), input 0 rest) := by
  induction t generalizing p with
  | nil => simp [ListDecoder.loop]
  | cons f t ih =>
      obtain ⟨x, hfield, hx⟩ := h f (List.mem_cons_self ..) p
      have hrest := ih fun g hg => h g (List.mem_cons_of_mem f hg)
      rw [Table.nums_cons, Table.vals_cons, List.append_assoc,
        l.loop_read hfield (hx.reads _) rfl, hrest]
      simp only [List.mem_cons, Bool.decide_or, Bool.or_left_comm, Bool.or_assoc]

/-- A table that is cut off is not decoded. -/
lemma ListDecoder.Fills.loop_cut (h : l.Fills t rec) (p : AttrNum → Bool) {pre : Bytes}
    (hpre : pre <+: t.vals) (hne : pre ≠ t.vals) :
    ∃ e, (l.loop t.nums (rec p) (input 0 pre)).1 = .error e := by
  induction t generalizing p pre with
  | nil => exact absurd (List.prefix_nil.mp hpre) hne
  | cons f t ih =>
      obtain ⟨x, hfield, hx⟩ := h f (List.mem_cons_self ..) p
      rw [Table.vals_cons] at hpre hne
      by_cases hle : f.2 <+: pre
      · obtain ⟨pre', rfl⟩ := hle
        rw [Table.nums_cons, l.loop_read hfield (hx.reads pre') rfl]
        exact ih (fun g hg => h g (List.mem_cons_of_mem f hg)) _
          ((List.prefix_append_right_inj f.2).mp hpre) fun h => hne (by rw [h])
      · have hin : pre <+: f.2 :=
          (List.prefix_or_prefix_of_prefix hpre (List.prefix_append _ _)).resolve_right hle
        exact l.loop_failed hfield (hx.cuts pre hin fun h => hle (h ▸ List.prefix_refl _))

/-- An attribute that the decoder does not know is an error, wherever it stands. -/
lemma ListDecoder.loop_unsupported (l : ListDecoder α) {nums : List AttrNum} {num : AttrNum}
    (hmem : num ∈ nums) (hnum : ∀ a, l.field a num = none) (a : α) (d : Decoder) :
    ∃ e, (l.loop nums a d).1 = .error e := by
  induction nums generalizing a d with
  | nil => exact absurd hmem List.not_mem_nil
  | cons n nums ih =>
      cases hfield : l.field a n with
      | none =>
          rw [l.loop_none hfield]
          exact ⟨_, rfl⟩
      | some x =>
          rw [l.loop_some hfield]
          cases (x d).2.err with
          | some e => exact ⟨_, rfl⟩
          | none =>
              rcases List.mem_cons.mp hmem with rfl | hmem
              · exact absurd (hnum a) (by rw [hfield]; exact Option.some_ne_none x)
              · exact ih hmem _ _

end Fills

/-! ## The values of a mask -/

/-- The entries of a table whose attributes are in the mask. -/
def Table.select (t : Table) (mask : Bitmap) : Table := t.filter fun f => has mask f.1

lemma Table.nums_select (t : Table) (mask : Bitmap) :
    (t.select mask).nums = t.nums.filter (has mask) := by
  rw [nums, select, nums, List.filter_map]
  rfl

/-- A decoder of attribute lists is exact for the records of a type: `table v` lists the wire
forms of the values of `v`, and `restrict v mask` has the values of the attributes in the mask and
zero for the others.  The values of a mask are decoded to these; if they are cut off, or if the
mask has an attribute that the decoder does not support, there is an error and no record. -/
structure Exact {α : Type} (decode : Bitmap → Bytes → Except Err α) (supported : List AttrNum)
    (table : α → Table) (restrict : α → Bitmap → α) (valid : α → Prop) : Prop where
  decodes : ∀ mask : Bitmap, mask.length ≤ 2 ^ 27 → (∀ a, has mask a = true → a ∈ supported) →
    ∀ v, valid v → decode mask ((table v).select mask).vals = .ok (restrict v mask)
  cut : ∀ mask : Bitmap, mask.length ≤ 2 ^ 27 → (∀ a, has mask a = true → a ∈ supported) →
    ∀ v, valid v → ∀ pre, pre <+: ((table v).select mask).vals →
      pre ≠ ((table v).select mask).vals → ∃ e, decode mask pre = .error e
  unsupported : ∀ mask : Bitmap, mask.length ≤ 2 ^ 27 →
    (∃ a, has mask a = true ∧ a ∉ supported) → ∀ vals, ∃ e, decode mask vals = .error e

section Exact

variable {α : Type} {l : ListDecoder α} {t : Table} {rec : (AttrNum → Bool) → α} {mask : Bitmap}

/-- `SetAttrs` is the only increasing list of the attributes in the mask. -/
lemma setAttrs_eq_of_mem_iff {nums : List AttrNum} (hlen : mask.length ≤ 2 ^ 27)
    (hnums : nums.Pairwise (· < ·)) (h : ∀ a, has mask a = true ↔ a ∈ nums) :
    setAttrs mask = nums := by
  have : Std.Antisymm (fun a b : AttrNum => a < b) :=
    ⟨fun a b hab hba => absurd hba (UInt32.lt_asymm hab)⟩
  have : Std.Irrefl (fun a b : AttrNum => a < b) := ⟨fun a => UInt32.lt_irrefl a⟩
  refine (pairwise_setAttrs hlen).eq_of_mem_iff hnums fun a => ?_
  rw [mem_setAttrs_iff hlen, h]

lemma setAttrs_eq_nums_select (ht : t.nums.Pairwise (· < ·)) (hlen : mask.length ≤ 2 ^ 27)
    (hmask : ∀ a, has mask a = true → a ∈ t.nums) : setAttrs mask = (t.select mask).nums := by
  rw [t.nums_select]
  refine setAttrs_eq_of_mem_iff hlen (ht.filter _) fun a => ?_
  rw [List.mem_filter]
  exact ⟨fun h => ⟨hmask a h, h⟩, fun h => h.2⟩

lemma ListDecoder.Fills.select (h : l.Fills t rec) (mask : Bitmap) : l.Fills (t.select mask) rec :=
  fun f hf => h f (List.mem_of_mem_filter hf)

lemma ListDecoder.Fills.loop_select (h : l.Fills t rec) (ht : t.nums.Pairwise (· < ·))
    (hlen : mask.length ≤ 2 ^ 27) (hmask : ∀ a, has mask a = true → a ∈ t.nums) (rest : Bytes) :
    l.loop (setAttrs mask) (rec fun _ => false) (input 0 ((t.select mask).vals ++ rest)) =
      (.ok (rec (has mask)), input 0 rest) := by
  have hmem : (fun a => decide (a ∈ (t.select mask).nums) || false) = has mask := by
    funext a
    rw [Bool.or_false, t.nums_select, Bool.eq_iff_iff, decide_eq_true_iff, List.mem_filter]
    exact ⟨fun h => h.2, fun h => ⟨hmask a h, h⟩⟩
  rw [setAttrs_eq_nums_select ht hlen hmask, (h.select mask).loop, hmem]

/-- A decoder that knows exactly the attributes of the table, and reads them, is exact. -/
lemma ListDecoder.exact {supported : List AttrNum} {table : α → Table}
    {keep : α → Bitmap → (AttrNum → Bool) → α} {valid : α → Prop} {init : Bitmap → α}
    (hinit : ∀ v mask, keep v mask (fun _ => false) = init mask)
    (hnums : ∀ v, (table v).nums = supported) (hsupported : supported.Pairwise (· < ·))
    (hfills : ∀ v, valid v → ∀ mask, l.Fills (table v) (keep v mask))
    (hnone : ∀ a num, num ∉ supported → l.field a num = none) :
    Exact (fun mask vals => (l.loop (setAttrs mask) (init mask) (newDecoder vals)).1) supported
      table (fun v mask => keep v mask (has mask)) valid where
  decodes mask hlen hmask v hv := by
    have h := (hfills v hv mask).loop_select (by rw [hnums]; exact hsupported) hlen
      (by rw [hnums]; exact hmask) []
    rw [hinit, List.append_nil] at h
    exact congrArg Prod.fst h
  cut mask hlen hmask v hv pre hpre hne := by
    have h := ((hfills v hv mask).select mask).loop_cut (fun _ => false) hpre hne
    rw [hinit, ← setAttrs_eq_nums_select (by rw [hnums]; exact hsupported) hlen
      (by rw [hnums]; exact hmask)] at h
    exact h
  unsupported mask hlen := by
    rintro ⟨a, ha, hnot⟩ vals
    exact l.loop_unsupported ((mem_setAttrs_iff hlen a).mpr ha) (fun r => hnone r a hnot) _ _

end Exact

/-! ## The standard attributes -/

/-- The attributes that `Decode` supports. -/
def standardAttrs : List AttrNum :=
  [attrType, attrSize, attrFSID, attrFileID, attrMode, attrNumLinks, attrOwner, attrOwnerGroup,
    attrRawDev, attrSpaceUsed, attrTimeAccess, attrTimeMetadata, attrTimeModify]

lemma pairwise_standardAttrs : standardAttrs.Pairwise (· < ·) := by decide

/-- A time as an `nfstime4`. -/
def Time.nfstime (t : Time) : Bytes := [Wire.hyper t.sec.toUInt64, Wire.uint t.nsec].flatten

/-- The wire forms of the standard attributes. -/
def Attributes.table (v : Attributes) : Table :=
  [(attrType, Wire.uint v.type), (attrSize, Wire.hyper v.size),
    (attrFSID, [Wire.hyper v.fsid.1, Wire.hyper v.fsid.2].flatten),
    (attrFileID, Wire.hyper v.fileID), (attrMode, Wire.uint v.mode),
    (attrNumLinks, Wire.uint v.numLinks), (attrOwner, Wire.opaqueVar v.owner),
    (attrOwnerGroup, Wire.opaqueVar v.ownerGroup),
    (attrRawDev, [Wire.uint v.rawDev.1, Wire.uint v.rawDev.2].flatten),
    (attrSpaceUsed, Wire.hyper v.spaceUsed), (attrTimeAccess, v.timeAccess.nfstime),
    (attrTimeMetadata, v.timeMeta.nfstime), (attrTimeModify, v.timeModify.nfstime)]

/-- The record with the values of the attributes in `p`, and zero for the others. -/
def Attributes.keep (v : Attributes) (present : Bitmap) (p : AttrNum → Bool) : Attributes where
  present := present
  type := bif p attrType then v.type else 0
  size := bif p attrSize then v.size else 0
  fsid := bif p attrFSID then v.fsid else (0, 0)
  fileID := bif p attrFileID then v.fileID else 0
  mode := bif p attrMode then v.mode else 0
  numLinks := bif p attrNumLinks then v.numLinks else 0
  owner := bif p attrOwner then v.owner else []
  ownerGroup := bif p attrOwnerGroup then v.ownerGroup else []
  rawDev := bif p attrRawDev then v.rawDev else (0, 0)
  spaceUsed := bif p attrSpaceUsed then v.spaceUsed else 0
  timeAccess := bif p attrTimeAccess then v.timeAccess else default
  timeMeta := bif p attrTimeMetadata then v.timeMeta else default
  timeModify := bif p attrTimeModify then v.timeModify else default

/-- The strings are within the limit of the decoder, and the times have less than a second of
nanoseconds. -/
structure Attributes.Valid (v : Attributes) : Prop where
  owner : Within 0 v.owner
  ownerGroup : Within 0 v.ownerGroup
  timeAccess : v.timeAccess.nsec < 1000000000
  timeMeta : v.timeMeta.nsec < 1000000000
  timeModify : v.timeModify.nsec < 1000000000

lemma unixTime_eq {t : Time} (h : t.nsec < 1000000000) : unixTime t.sec t.nsec = t := by
  have hlt := UInt32.lt_iff_toNat_lt.mp h
  have hdiv : t.nsec / 1000000000 = 0 := by
    rw [← UInt32.toNat_inj, UInt32.toNat_div]
    exact Nat.div_eq_of_lt hlt
  have hmod : t.nsec % 1000000000 = t.nsec := by
    rw [← UInt32.toNat_inj, UInt32.toNat_mod]
    exact Nat.mod_eq_of_lt hlt
  rw [unixTime, hdiv, hmod]
  simp

lemma decodeTime_eq :
    decodeTime = int64 >>= fun secs => uint32 >>= fun nsecs =>
      unlessFailed default (pure (unixTime secs nsecs)) := by
  have hlast : ∀ (secs : Int64) (nsecs : UInt32),
      (fun d => (if d.err.isSome then default else unixTime secs nsecs, d) : Dec Time) =
        unlessFailed default (pure (unixTime secs nsecs)) := by
    intro secs nsecs
    funext d
    rw [unlessFailed]
    split <;> rfl
  simp only [← hlast]
  rfl

lemma decodes_time {m : UInt32} {t : Time} (h : t.nsec < 1000000000) :
    Decodes m decodeTime t.nfstime t := by
  rw [decodeTime_eq]
  refine (decodes_int64 t.sec).bind (fun _ => (decodes_uint32 (m := m) 0).keeps.bind fun _ =>
    keeps_unlessFailed _ _) ?_
  refine (decodes_uint32 t.nsec).bind (fun _ => keeps_unlessFailed _ _) ?_
  rw [unixTime_eq h]
  exact (Decodes.pure t).unlessFailed

section Fields

variable {α β γ : Type} {x : Dec β} {y : Dec γ} {bs cs : Bytes} {b : β} {c : γ} {r : α}

/-- A field with one part. -/
lemma decodes_field {g : β → α} (hx : Decodes 0 x bs b) (hr : g b = r) :
    Decodes 0 (do return g (← x)) bs r :=
  (hx.last (fun _ => .pure _) (.pure _)).to_eq hr

/-- A field with two parts. -/
lemma decodes_pair {g : β → γ → α} (hx : Decodes 0 x bs b) (hy : Decodes 0 y cs c)
    (hr : g b c = r) : Decodes 0 (do return g (← x) (← y)) [bs, cs].flatten r :=
  hx.bind (fun _ => hy.keeps.bind fun _ => .pure _) (decodes_field hy hr).single

end Fields

/-- Each standard attribute is read into its field. -/
lemma fills_standard {v : Attributes} (hv : v.Valid) (present : Bitmap) :
    standard.Fills v.table (v.keep present) := by
  intro f hf p
  simp only [Attributes.table, List.mem_cons, List.not_mem_nil, or_false] at hf
  rcases hf with rfl | rfl | rfl | rfl | rfl | rfl | rfl | rfl | rfl | rfl | rfl | rfl | rfl
  · exact ⟨_, rfl, decodes_field (decodes_uint32 v.type) rfl⟩
  · exact ⟨_, rfl, decodes_field (decodes_uint64 v.size) rfl⟩
  · exact ⟨_, rfl, decodes_pair (decodes_uint64 v.fsid.1) (decodes_uint64 v.fsid.2) rfl⟩
  · exact ⟨_, rfl, decodes_field (decodes_uint64 v.fileID) rfl⟩
  · exact ⟨_, rfl, decodes_field (decodes_uint32 v.mode) rfl⟩
  · exact ⟨_, rfl, decodes_field (decodes_uint32 v.numLinks) rfl⟩
  · exact ⟨_, rfl, decodes_field (decodes_string hv.owner) rfl⟩
  · exact ⟨_, rfl, decodes_field (decodes_string hv.ownerGroup) rfl⟩
  · exact ⟨_, rfl, decodes_pair (decodes_uint32 v.rawDev.1) (decodes_uint32 v.rawDev.2) rfl⟩
  · exact ⟨_, rfl, decodes_field (decodes_uint64 v.spaceUsed) rfl⟩
  · exact ⟨_, rfl, decodes_field (decodes_time hv.timeAccess) rfl⟩
  · exact ⟨_, rfl, decodes_field (decodes_time hv.timeMeta) rfl⟩
  · exact ⟨_, rfl, decodes_field (decodes_time hv.timeModify) rfl⟩

lemma decodeAttr_eq_none (a : Attributes) {num : AttrNum} (h : num ∉ standardAttrs) :
    a.decodeAttr num = none := by
  simp only [standardAttrs, List.mem_cons, List.not_mem_nil, or_false, not_or] at h
  simp [Attributes.decodeAttr, h]

/-! ## The statistics -/

/-- The attributes that `DecodeStatvfs` supports. -/
def statvfsAttrs : List AttrNum :=
  [attrFSID, attrFilesAvail, attrFilesFree, attrFilesTotal, attrMaxName, attrSpaceAvail,
    attrSpaceFree, attrSpaceTotal]

/-- The wire forms of the statistics. -/
def Statvfs.table (v : Statvfs) : Table :=
  [(attrFSID, [Wire.hyper v.fsid.1, Wire.hyper v.fsid.2].flatten),
    (attrFilesAvail, Wire.hyper v.filesAvail), (attrFilesFree, Wire.hyper v.filesFree),
    (attrFilesTotal, Wire.hyper v.filesTotal), (attrMaxName, Wire.uint v.maxName),
    (attrSpaceAvail, Wire.hyper v.spaceAvail), (attrSpaceFree, Wire.hyper v.spaceFree),
    (attrSpaceTotal, Wire.hyper v.spaceTotal)]

/-- The record with the values of the attributes in `p`, and zero for the others. -/
def Statvfs.keep (v : Statvfs) (present : Bitmap) (p : AttrNum → Bool) : Statvfs where
  present := present
  fsid := bif p attrFSID then v.fsid else (0, 0)
  filesAvail := bif p attrFilesAvail then v.filesAvail else 0
  filesFree := bif p attrFilesFree then v.filesFree else 0
  filesTotal := bif p attrFilesTotal then v.filesTotal else 0
  maxName := bif p attrMaxName then v.maxName else 0
  spaceAvail := bif p attrSpaceAvail then v.spaceAvail else 0
  spaceFree := bif p attrSpaceFree then v.spaceFree else 0
  spaceTotal := bif p attrSpaceTotal then v.spaceTotal else 0

/-- Each of the statistics is read into its field. -/
lemma fills_statistics (v : Statvfs) (present : Bitmap) :
    statistics.Fills v.table (v.keep present) := by
  intro f hf p
  simp only [Statvfs.table, List.mem_cons, List.not_mem_nil, or_false] at hf
  rcases hf with rfl | rfl | rfl | rfl | rfl | rfl | rfl | rfl
  · exact ⟨_, rfl, decodes_pair (decodes_uint64 v.fsid.1) (decodes_uint64 v.fsid.2) rfl⟩
  · exact ⟨_, rfl, decodes_field (decodes_uint64 v.filesAvail) rfl⟩
  · exact ⟨_, rfl, decodes_field (decodes_uint64 v.filesFree) rfl⟩
  · exact ⟨_, rfl, decodes_field (decodes_uint64 v.filesTotal) rfl⟩
  · exact ⟨_, rfl, decodes_field (decodes_uint32 v.maxName) rfl⟩
  · exact ⟨_, rfl, decodes_field (decodes_uint64 v.spaceAvail) rfl⟩
  · exact ⟨_, rfl, decodes_field (decodes_uint64 v.spaceFree) rfl⟩
  · exact ⟨_, rfl, decodes_field (decodes_uint64 v.spaceTotal) rfl⟩

lemma decodeAttr_statvfs_eq_none (s : Statvfs) {num : AttrNum} (h : num ∉ statvfsAttrs) :
    s.decodeAttr num = none := by
  simp only [statvfsAttrs, List.mem_cons, List.not_mem_nil, or_false, not_or] at h
  simp [Statvfs.decodeAttr, h]

/-- **`Decode` and `DecodeStatvfs` are exact for every mask.**  Whatever set of supported
attributes the mask stands for, the values packed in the order of their numbers are decoded to
exactly these values, with zero for the attributes that are not in the mask.  Values that are cut
off, and masks with an attribute that is not supported, are errors. -/
theorem decode_exact_of_mask :
    Exact decode standardAttrs Attributes.table (fun v mask => v.keep mask (has mask))
        Attributes.Valid ∧
      Exact decodeStatvfs statvfsAttrs Statvfs.table (fun v mask => v.keep mask (has mask))
        fun _ => True := by
  constructor
  · exact ListDecoder.exact (fun _ _ => rfl) (fun _ => rfl) pairwise_standardAttrs
      (fun v hv => fills_standard hv) fun a _ => decodeAttr_eq_none a
  · exact ListDecoder.exact (fun _ _ => rfl) (fun _ => rfl) (by decide)
      (fun v _ => fills_statistics v) fun s _ => decodeAttr_statvfs_eq_none s

end NfsClient.Nfs4.Attr
