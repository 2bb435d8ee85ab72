import NfsClient.Xdr.Encoder

/-!
# What the decoder methods read

`Decodes m x bs a` says all that matters of a decoder action on the bytes of a value: the
action reads the value back in front of any rest, it fails on an input that ends too early,
and it does not recover a decoder that has failed.  There is a rule for each way of combining
actions and a lemma for each method on its wire form.
-/

namespace NfsClient.Xdr

open NfsClient.Lib

/-- A decoder over the given bytes with the given `MaxLen`. -/
def input (maxLen : UInt32) (r : Bytes) : Decoder := { r := r, maxLen := maxLen }

/-- The decoder has latched an error. -/
abbrev Failed (d : Decoder) : Prop := d.err.isSome = true

/-- The action `x` decodes `bs` to `a`: in front of any rest it yields `a` and consumes
exactly `bs`; on a strict prefix of `bs` it fails; and it does not recover a decoder that has
failed. -/
structure Decodes {α : Type} (m : UInt32) (x : Dec α) (bs : Bytes) (a : α) : Prop where
  reads : Reads (input m) x bs a
  cuts : Cuts (input m) Failed x bs
  keeps : Keeps Failed x

namespace Decoder

/-- An action that is skipped when the decoder has failed: `if d.err != nil { return a }`. -/
def unlessFailed {α : Type} (a : α) (x : Dec α) : Dec α := fun d =>
  if d.err.isSome then (a, d) else x d

lemma keeps_unlessFailed {α : Type} (a : α) (x : Dec α) : Keeps Failed (unlessFailed a x) := by
  intro d hd
  rw [unlessFailed, if_pos hd]
  exact hd

/-- A length that is checked against the limit. -/
def limited (n : UInt32) (x : Dec (Option Bytes)) : Dec (Option Bytes) := fun d =>
  if d.effMaxLen < n then (none, { d with err := some .limitExceeded }) else x d

end Decoder

namespace Decodes

variable {α β : Type} {m : UInt32} {x : Dec α} {f : α → Dec β} {bs : Bytes} {a : α} {b : β}

lemma pure (a : α) : Decodes m (pure a) ([] : List Bytes).flatten a :=
  ⟨.pure a, .nil _, .pure a⟩

lemma bind {bss : List Bytes} (hx : Decodes m x bs a) (hk : ∀ a, Keeps Failed (f a))
    (hf : Decodes m (f a) bss.flatten b) : Decodes m (x >>= f) (bs :: bss).flatten b :=
  ⟨hx.reads.bind hf.reads, .bind hx.reads hx.cuts hk hf.cuts, hx.keeps.bind hk⟩

lemma map (g : α → β) (hx : Decodes m x bs a) : Decodes m (g <$> x) bs (g a) :=
  ⟨hx.reads.map g, hx.cuts.map g, hx.keeps.map g⟩

lemma of_eq {bs' : Bytes} (hx : Decodes m x bs a) (h : bs = bs') : Decodes m x bs' a := h ▸ hx

lemma to_eq {a' : α} (hx : Decodes m x bs a) (h : a = a') : Decodes m x bs a' := h ▸ hx

/-- A sequence whose second part reads nothing. -/
lemma last (hx : Decodes m x bs a) (hk : ∀ a, Keeps Failed (f a))
    (hf : Decodes m (f a) ([] : List Bytes).flatten b) : Decodes m (x >>= f) bs b :=
  (hx.bind hk hf).of_eq (by simp)

lemma single (hx : Decodes m x bs a) : Decodes m x [bs].flatten a := hx.of_eq (by simp)

/-- The check passes on a decoder that has not failed. -/
lemma unlessFailed {a' : α} (h : Decodes m x bs a) :
    Decodes m (Decoder.unlessFailed a' x) bs a :=
  ⟨h.reads, h.cuts, Decoder.keeps_unlessFailed a' x⟩

/-- The check passes on a length within the limit. -/
lemma limited {n : UInt32} {x : Dec (Option Bytes)} {bs : Bytes} {a : Option Bytes}
    (hn : n ≤ (input m []).effMaxLen) (h : Decodes m x bs a) :
    Decodes m (Decoder.limited n x) bs a := by
  have hle : ∀ r, ¬ (input m r).effMaxLen < n := fun r => UInt32.not_lt.mpr hn
  refine ⟨fun rest => ?_, fun pre hp hne => ?_, fun d hd => ?_⟩
  · rw [Decoder.limited, if_neg (hle _)]
    exact h.reads rest
  · rw [Decoder.limited, if_neg (hle _)]
    exact h.cuts pre hp hne
  · rw [Decoder.limited]
    split
    · rfl
    · exact h.keeps d hd

end Decodes

namespace Decoder

variable {m : UInt32}

/-! ## The methods as sequences of guarded actions -/

lemma uint32_eq : uint32 = read 4 >>= fun p => unlessFailed 0 (pure (UInt32.ofNat (beNat p))) :=
  rfl

lemma uint64_eq : uint64 = read 8 >>= fun p => unlessFailed 0 (pure (UInt64.ofNat (beNat p))) :=
  rfl

lemma body_eq (n : ℕ) :
    body n = read n >>= fun out => unlessFailed none
      (discard (pad4 n) >>= fun _ => unlessFailed none (pure (some out))) := rfl

lemma union_eq {α : Type} (arm : UInt32 → Dec α) :
    union arm = uint32 >>= fun disc => unlessFailed (0, none)
      ((fun a => (disc, some a)) <$> arm disc) := rfl

/-! ## Reading bytes -/

lemma keeps_read (n : ℕ) : Keeps Failed (read n) := by
  intro d hd
  rw [read, if_pos hd]
  exact hd

lemma decodes_read {n : ℕ} {p : Bytes} (h : p.length = n) : Decodes m (read n) p p := by
  refine ⟨fun rest => ?_, fun pre hp hne => ?_, keeps_read n⟩
  · have hle : n ≤ (p ++ rest).length := by simp [h]
    simp only [read, input, Option.isSome_none, Bool.false_eq_true, if_false, hle, if_true]
    rw [List.take_left' h, List.drop_left' h]
    rfl
  · have hlt : pre.length < n := by
      have hne' : pre.length ≠ p.length := fun hl => hne (hp.eq_of_length hl)
      have := hp.length_le
      omega
    simp [read, input, Failed, Nat.not_le.mpr hlt]

lemma discard_eq (n : ℕ) :
    discard n = if n = 0 then pure () else unlessFailed () ((fun _ => ()) <$> read n) := by
  funext d
  by_cases hn : n = 0
  · simp [discard, hn]
  · simp [discard, hn, unlessFailed]

lemma decodes_discard {n : ℕ} {p : Bytes} (h : p.length = n) : Decodes m (discard n) p () := by
  rw [discard_eq]
  split
  · next hn =>
      have hp : p = [] := List.length_eq_zero_iff.mp (h.trans hn)
      exact Decodes.of_eq (.pure ()) (by simp [hp])
  · exact ((decodes_read h).map _).unlessFailed

/-! ## The methods -/

lemma decodes_uint32 (v : UInt32) : Decodes m uint32 (Wire.uint v) v := by
  have hv : UInt32.ofNat (beNat (Wire.uint v)) = v := by
    rw [Wire.uint, beNat_beBytes (by simpa using v.toNat_lt), UInt32.ofNat_toNat]
  rw [uint32_eq]
  refine (decodes_read (Wire.length_uint v)).last (fun _ => keeps_unlessFailed _ _) ?_
  rw [hv]
  exact (Decodes.pure v).unlessFailed

lemma decodes_uint64 (v : UInt64) : Decodes m uint64 (Wire.hyper v) v := by
  have hv : UInt64.ofNat (beNat (Wire.hyper v)) = v := by
    rw [Wire.hyper, beNat_beBytes (by simpa using v.toNat_lt), UInt64.ofNat_toNat]
  rw [uint64_eq]
  refine (decodes_read (Wire.length_hyper v)).last (fun _ => keeps_unlessFailed _ _) ?_
  rw [hv]
  exact (Decodes.pure v).unlessFailed

lemma decodes_int32 (v : Int32) : Decodes m int32 (Wire.uint v.toUInt32) v :=
  (decodes_uint32 v.toUInt32).map UInt32.toInt32

lemma decodes_int64 (v : Int64) : Decodes m int64 (Wire.hyper v.toUInt64) v :=
  (decodes_uint64 v.toUInt64).map UInt64.toInt64

lemma decodes_bool (v : Bool) : Decodes m bool (Wire.bool v) v := by
  have h := (decodes_uint32 (m := m) (if v then 1 else 0)).map (· != 0)
  cases v <;> exact h

lemma decodes_body {n : ℕ} {p : Bytes} (h : p.length = n) :
    Decodes m (body n) (Wire.opaqueFixed p) (some p) := by
  have hpad : (Wire.padding p.length).length = pad4 n := by
    rw [← Encoder.pad_pad4, h]
    exact List.length_replicate ..
  rw [body_eq]
  refine (decodes_read h).bind (fun _ => keeps_unlessFailed _ _) (Decodes.unlessFailed ?_)
  exact ((decodes_discard hpad).last (fun _ => keeps_unlessFailed _ _)
    (Decodes.pure (some p)).unlessFailed).single

lemma decodes_fixedOpaque {n : ℕ} {p : Bytes} (h : p.length = n) :
    Decodes m (fixedOpaque n) (Wire.opaqueFixed p) (some p) :=
  decodes_body h

lemma varOpaque_eq :
    varOpaque = uint32 >>= fun n => unlessFailed none (limited n (body n.toNat)) := rfl

/-- The length of variable-length data is within the limit of the decoder. -/
def Within (m : UInt32) (p : Bytes) : Prop := p.length ≤ (input m []).effMaxLen.toNat

lemma decodes_varOpaque {p : Bytes} (h : Within m p) :
    Decodes m varOpaque (Wire.opaqueVar p) (some p) := by
  have hlt : p.length < 2 ^ 32 := lt_of_le_of_lt h (UInt32.toNat_lt _)
  have hn : (UInt32.ofNat p.length).toNat = p.length := UInt32.toNat_ofNat_of_lt' hlt
  have hle : UInt32.ofNat p.length ≤ (input m []).effMaxLen := by
    rw [UInt32.le_iff_toNat_le, hn]
    exact h
  rw [varOpaque_eq]
  refine (decodes_uint32 _).bind (fun _ => keeps_unlessFailed _ _) (Decodes.single ?_)
  exact ((decodes_body hn.symm).limited hle).unlessFailed

lemma decodes_string {p : Bytes} (h : Within m p) : Decodes m string (Wire.opaqueVar p) p :=
  (decodes_varOpaque h).map (Option.getD · [])

lemma decodes_union {α : Type} {arm : UInt32 → Dec α} {disc : UInt32} {bs : Bytes} {a : α}
    (h : Decodes m (arm disc) bs a) :
    Decodes m (union arm) [Wire.uint disc, bs].flatten (disc, some a) := by
  rw [union_eq]
  exact (decodes_uint32 disc).bind (fun _ => keeps_unlessFailed _ _) (h.map _).unlessFailed.single

end Decoder

end NfsClient.Xdr
