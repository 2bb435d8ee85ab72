import NfsClient.Nfs4.AttrList
import NfsClient.Xdr.Consumes

/-!
# The attributes that a client sets

`EncodeFattr` writes the attributes that are to be set, and `Decode` reads attributes.  The two
list the attributes and their wire forms independently.  They agree on the size and on the mode.
They do not agree on times: `encodeSettime` writes a `settime4`, whose discriminant comes before
the time, under the numbers of the attributes whose values are plain `nfstime4`s.
-/

namespace NfsClient.Nfs4.Attr

open NfsClient.Lib NfsClient.Xdr NfsClient.Xdr.Decoder

/-- `Decode` agrees with `EncodeFattr`: the mask has one bit for each field that is set, the
values are decoded to these fields and to zero for the others, and all of them are read. -/
structure Agrees (s : SettableAttrs) : Prop where
  mask : ∀ a, has (encodeFattr s).1 a = true ↔
    (a = attrSize ∧ s.size.isSome) ∨ (a = attrMode ∧ s.mode.isSome) ∨
      (a = attrTimeAccess ∧ s.timeAccess.isSome) ∨ (a = attrTimeModify ∧ s.timeModify.isSome)
  decoded : decode (encodeFattr s).1 (encodeFattr s).2 = .ok
    { present := (encodeFattr s).1, size := s.size.getD 0, mode := s.mode.getD 0,
      timeAccess := s.timeAccess.getD default, timeModify := s.timeModify.getD default }
  consumed : (decodeRun (encodeFattr s).1 (encodeFattr s).2).2.r = []

/-! ## The mask -/

/-- The attributes that are set. -/
def SettableAttrs.nums (s : SettableAttrs) : List AttrNum :=
  (if s.size.isSome then [attrSize] else []) ++ (if s.mode.isSome then [attrMode] else []) ++
    (if s.timeAccess.isSome then [attrTimeAccess] else []) ++
    (if s.timeModify.isSome then [attrTimeModify] else [])

lemma mem_nums {s : SettableAttrs} {a : AttrNum} :
    a ∈ s.nums ↔ (a = attrSize ∧ s.size.isSome) ∨ (a = attrMode ∧ s.mode.isSome) ∨
      (a = attrTimeAccess ∧ s.timeAccess.isSome) ∨
      (a = attrTimeModify ∧ s.timeModify.isSome) := by
  have hite : ∀ (c : Bool) (n : AttrNum), a ∈ (if c then [n] else []) ↔ a = n ∧ c = true := by
    intro c n
    cases c <;> simp
  simp only [SettableAttrs.nums, List.mem_append, hite, or_assoc]

lemma pairwise_nums (s : SettableAttrs) : s.nums.Pairwise (· < ·) := by
  rw [SettableAttrs.nums]
  cases s.size.isSome <;> cases s.mode.isSome <;> cases s.timeAccess.isSome <;>
    cases s.timeModify.isSome <;> decide

lemma has_encodeFattr (s : SettableAttrs) (a : AttrNum) :
    has (encodeFattr s).1 a = decide (a ∈ s.nums) := has_bitmapFor s.nums a

lemma setAttrs_encodeFattr (s : SettableAttrs) : setAttrs (encodeFattr s).1 = s.nums := by
  refine setAttrs_eq_of_mem_iff (length_bitmapFor_le s.nums) (pairwise_nums s) fun a => ?_
  rw [has_encodeFattr, decide_eq_true_iff]

/-! ## What is read of the values -/

/-- The number of bytes that `Decode` reads for an attribute that can be set. -/
def width (num : AttrNum) : ℕ := if num = attrSize then 8 else if num = attrMode then 4 else 12

/-- A loop over attributes of fixed widths reads their sum. -/
lemma ListDecoder.length_loop {α : Type} {l : ListDecoder α} {w : AttrNum → ℕ}
    {nums : List AttrNum} {a r : α} {d d' : Decoder}
    (hw : ∀ num ∈ nums, ∀ a x, l.field a num = some x → Consumes (w num) x)
    (h : l.loop nums a d = (.ok r, d')) : d'.r.length + (nums.map w).sum = d.r.length := by
  induction nums generalizing a d with
  | nil =>
      cases h
      rfl
  | cons num nums ih =>
      cases hfield : l.field a num with
      | none =>
          rw [l.loop_none hfield] at h
          cases h
      | some x =>
          rw [l.loop_some hfield] at h
          cases herr : (x d).2.err with
          | some e =>
              simp only [herr] at h
              cases h
          | none =>
              simp only [herr] at h
              have hfirst := (hw num (List.mem_cons_self ..) a x hfield).length d herr
              have hrest := ih (fun n hn => hw n (List.mem_cons_of_mem num hn)) h
              rw [List.map_cons, List.sum_cons]
              omega

lemma consumes_decodeTime : Consumes 12 decodeTime := by
  rw [decodeTime_eq]
  exact consumes_int64.bind fun _ => consumes_uint32.bind fun _ => (Consumes.pure _).unlessFailed _

lemma consumes_decodeAttr {s : SettableAttrs} {num : AttrNum} (hnum : num ∈ s.nums)
    {a : Attributes} {x : Dec Attributes} (h : a.decodeAttr num = some x) :
    Consumes (width num) x := by
  rcases mem_nums.mp hnum with ⟨rfl, -⟩ | ⟨rfl, -⟩ | ⟨rfl, -⟩ | ⟨rfl, -⟩
  · obtain rfl := Option.some.inj h
    exact consumes_uint64.bind fun _ => .pure _
  · obtain rfl := Option.some.inj h
    exact consumes_uint32.bind fun _ => .pure _
  · obtain rfl := Option.some.inj h
    exact consumes_decodeTime.bind fun _ => .pure _
  · obtain rfl := Option.some.inj h
    exact consumes_decodeTime.bind fun _ => .pure _

/-- Each time leaves four bytes behind. -/
lemma length_decodeRun {s : SettableAttrs} {a : Attributes} {d : Decoder}
    (h : decodeRun (encodeFattr s).1 (encodeFattr s).2 = (.ok a, d)) :
    d.r.length = s.timeAccess.elim 0 (fun _ => 4) + s.timeModify.elim 0 (fun _ => 4) := by
  rw [decodeRun, setAttrs_encodeFattr] at h
  have hlen := ListDecoder.length_loop (w := width) (fun num hnum _ _ => consumes_decodeAttr hnum) h
  have hvals : (newDecoder (encodeFattr s).2).r.length =
      s.timeAccess.elim 0 (fun _ => 4) + s.timeModify.elim 0 (fun _ => 4) +
        (s.nums.map width).sum := by
    obtain ⟨mode, size, timeAccess, timeModify⟩ := s
    cases mode <;> cases size <;> cases timeAccess <;> cases timeModify <;>
      simp [newDecoder, encodeFattr, encodeSettime, SettableAttrs.nums, width, attrSize, attrMode,
        attrTimeAccess, attrTimeModify]
  omega

/-! ## The size and the mode -/

section NoTimes

variable (mode : Option UInt32) (size : Option UInt64)

/-- Without times, the values are packed as `Decode` expects them. -/
lemma vals_encodeFattr :
    (encodeFattr { mode, size }).2 =
      (({ size := size.getD 0, mode := mode.getD 0 } : Attributes).table.select
        (encodeFattr { mode, size }).1).vals := by
  simp only [Table.select, has_encodeFattr]
  cases mode <;> cases size <;>
    simp [encodeFattr, SettableAttrs.nums, Attributes.table, Wire.uint, Wire.hyper, attrType,
      attrSize, attrFSID, attrFileID, attrMode, attrNumLinks, attrOwner, attrOwnerGroup,
      attrRawDev, attrSpaceUsed, attrTimeAccess, attrTimeMetadata, attrTimeModify]

lemma decodeRun_encodeFattr :
    decodeRun (encodeFattr { mode, size }).1 (encodeFattr { mode, size }).2 =
      (.ok { present := (encodeFattr { mode, size }).1, size := size.getD 0,
             mode := mode.getD 0 }, input 0 []) := by
  have hzero : (default : Time).nsec < 1000000000 := by decide
  have hfills := fills_standard (v := { size := size.getD 0, mode := mode.getD 0 })
    ⟨Nat.zero_le _, Nat.zero_le _, hzero, hzero, hzero⟩ (encodeFattr { mode, size }).1
  have hmask : ∀ a, has (encodeFattr { mode, size }).1 a = true → a ∈ standardAttrs := by
    intro a ha
    rw [has_encodeFattr, decide_eq_true_iff, mem_nums] at ha
    rcases ha with ⟨rfl, -⟩ | ⟨rfl, -⟩ | ⟨rfl, -⟩ | ⟨rfl, -⟩ <;> decide
  have hlen : (encodeFattr { mode, size }).1.length ≤ 2 ^ 27 := length_bitmapFor_le _
  have hloop := hfills.loop_select pairwise_standardAttrs hlen hmask []
  rw [List.append_nil, ← vals_encodeFattr] at hloop
  refine hloop.trans ?_
  have hkeep : ({ size := size.getD 0, mode := mode.getD 0 } : Attributes).keep
      (encodeFattr { mode, size }).1 (has (encodeFattr { mode, size }).1) =
        { present := (encodeFattr { mode, size }).1, size := size.getD 0,
          mode := mode.getD 0 } := by
    simp only [Attributes.keep, has_encodeFattr]
    cases mode <;> cases size <;> rfl
  rw [hkeep]

/-- A server that is asked to set the size and the mode can read them. -/
lemma decode_encodeFattr :
    decode (encodeFattr { mode, size }).1 (encodeFattr { mode, size }).2 =
      .ok { present := (encodeFattr { mode, size }).1, size := size.getD 0, mode := mode.getD 0 } :=
  congrArg Prod.fst (decodeRun_encodeFattr mode size)

end NoTimes

/-- **`EncodeFattr` and `Decode` agree exactly on the attribute sets without times.**  The mask
always has one bit for each field that is set.  A time is written as sixteen bytes and read as
twelve, so that any set with a time leaves values unread. -/
theorem agrees_iff_no_times (s : SettableAttrs) :
    Agrees s ↔ s.timeAccess = none ∧ s.timeModify = none := by
  constructor
  · rintro ⟨-, hdecoded, hconsumed⟩
    have hlen := length_decodeRun (Prod.ext hdecoded rfl)
    rw [hconsumed] at hlen
    cases hta : s.timeAccess <;> cases htm : s.timeModify <;> simp_all
  · obtain ⟨mode, size, timeAccess, timeModify⟩ := s
    rintro ⟨rfl, rfl⟩
    refine ⟨fun a => ?_, decode_encodeFattr mode size, ?_⟩
    · rw [has_encodeFattr, decide_eq_true_iff, mem_nums]
    · rw [decodeRun_encodeFattr]
      rfl

/-- The access time five seconds after the beginning of 1970 is decoded as one of the year 2106,
and its last four bytes are not read. -/
theorem agrees_not_time :
    ¬ Agrees { timeAccess := some ⟨5, 0⟩ } ∧
      decode (encodeFattr { timeAccess := some ⟨5, 0⟩ }).1
          (encodeFattr { timeAccess := some ⟨5, 0⟩ }).2 =
        .ok { present := bitmapFor [attrTimeAccess], timeAccess := ⟨4294967296, 5⟩ } ∧
      (decodeRun (encodeFattr { timeAccess := some ⟨5, 0⟩ }).1
        (encodeFattr { timeAccess := some ⟨5, 0⟩ }).2).2.r = [0, 0, 0, 0] := by
  refine ⟨fun h => absurd h.consumed (by decide +kernel), by decide +kernel, by decide +kernel⟩

end NfsClient.Nfs4.Attr
