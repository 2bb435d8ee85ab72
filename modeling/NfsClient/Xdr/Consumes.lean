import NfsClient.Xdr.Decodes

/-!
# How much the decoder methods read

`Shrinks x` says that an action never gives input back, and `Consumes n x` that it reads exactly
`n` bytes unless it fails.  Both are about every input, well-formed or not; they bound what an
action can have read when nothing else is known of the input.
-/

namespace NfsClient.Xdr

open NfsClient.Lib

variable {α β : Type}

/-- The unread input does not grow. -/
def Shrinks (x : Dec α) : Prop := ∀ d, (x d).2.r.length ≤ d.r.length

/-- The action reads `n` bytes or fails, and it does not recover a decoder that has failed. -/
structure Consumes (n : ℕ) (x : Dec α) : Prop where
  keeps : Keeps Failed x
  length : ∀ d, (x d).2.err = none → (x d).2.r.length + n = d.r.length

lemma not_failed {d : Decoder} : ¬ Failed d ↔ d.err = none := by
  rw [Bool.not_eq_true, Option.isSome_eq_false_iff, Option.isNone_iff_eq_none]

/-- A decoder that is fine after an action was fine before it. -/
lemma err_eq_none_of_keeps {x : Dec α} (hx : Keeps Failed x) {d : Decoder}
    (h : (x d).2.err = none) : d.err = none :=
  not_failed.mp fun hd => not_failed.mpr h (hx d hd)

namespace Shrinks

variable {x : Dec α} {f : α → Dec β}

lemma pure (a : α) : Shrinks (pure a) := fun _ => le_rfl

lemma bind (hx : Shrinks x) (hf : ∀ a, Shrinks (f a)) : Shrinks (x >>= f) :=
  fun d => le_trans (hf _ _) (hx d)

lemma map (g : α → β) (hx : Shrinks x) : Shrinks (g <$> x) := fun d => hx d

lemma ite {c : Prop} [Decidable c] {x y : Dec α} (hx : Shrinks x) (hy : Shrinks y) :
    Shrinks (if c then x else y) := by
  split
  · exact hx
  · exact hy

lemma unlessFailed (a : α) (hx : Shrinks x) : Shrinks (Decoder.unlessFailed a x) := by
  intro d
  rw [Decoder.unlessFailed]
  split
  · exact le_rfl
  · exact hx d

lemma limited {x : Dec (Option Bytes)} (n : UInt32) (hx : Shrinks x) :
    Shrinks (Decoder.limited n x) := by
  intro d
  rw [Decoder.limited]
  split
  · exact le_rfl
  · exact hx d

end Shrinks

namespace Consumes

variable {n k : ℕ} {x : Dec α} {f : α → Dec β}

lemma pure (a : α) : Consumes 0 (pure a) := ⟨.pure a, fun _ _ => rfl⟩

lemma bind (hx : Consumes n x) (hf : ∀ a, Consumes k (f a)) : Consumes (n + k) (x >>= f) := by
  refine ⟨hx.keeps.bind fun a => (hf a).keeps, fun d h => ?_⟩
  have hfirst := hx.length d (err_eq_none_of_keeps (hf _).keeps h)
  have hsecond := (hf _).length _ h
  rw [bind_run]
  omega

lemma of_eq {n' : ℕ} (hx : Consumes n x) (h : n = n') : Consumes n' x := h ▸ hx

lemma map (g : α → β) (hx : Consumes n x) : Consumes n (g <$> x) :=
  ⟨hx.keeps.map g, fun d h => hx.length d h⟩

lemma unlessFailed (a : α) (hx : Consumes n x) : Consumes n (Decoder.unlessFailed a x) := by
  refine ⟨Decoder.keeps_unlessFailed a x, fun d h => ?_⟩
  rw [Decoder.unlessFailed] at h ⊢
  split at h
  · next hd => exact absurd hd (not_failed.mpr h)
  · next hd =>
      rw [if_neg hd]
      exact hx.length d h

end Consumes

namespace Decoder

/-! ## The methods -/

lemma shrinks_read (n : ℕ) : Shrinks (read n) := by
  intro d
  rw [read]
  split
  · exact le_rfl
  · split
    · simp
    · exact Nat.zero_le _

lemma consumes_read (n : ℕ) : Consumes n (read n) := by
  refine ⟨keeps_read n, fun d h => ?_⟩
  rw [read] at h ⊢
  split at h
  · next hd => exact absurd hd (not_failed.mpr h)
  · next hd =>
      rw [if_neg hd]
      split at h
      · next hle =>
          rw [if_pos hle, List.length_drop]
          omega
      · cases h

lemma shrinks_uint32 : Shrinks uint32 := by
  rw [uint32_eq]
  exact (shrinks_read 4).bind fun _ => (Shrinks.pure _).unlessFailed _

lemma shrinks_uint64 : Shrinks uint64 := by
  rw [uint64_eq]
  exact (shrinks_read 8).bind fun _ => (Shrinks.pure _).unlessFailed _

lemma shrinks_int64 : Shrinks int64 := shrinks_uint64.map _

lemma shrinks_bool : Shrinks bool := shrinks_uint32.map (· != 0)

lemma shrinks_discard (n : ℕ) : Shrinks (discard n) := by
  rw [discard_eq]
  exact .ite (.pure ()) (((shrinks_read n).map _).unlessFailed _)

lemma shrinks_body (n : ℕ) : Shrinks (body n) := by
  rw [body_eq]
  exact (shrinks_read n).bind fun _ => .unlessFailed _ <|
    (shrinks_discard _).bind fun _ => (Shrinks.pure _).unlessFailed _

lemma shrinks_fixedOpaque (n : ℕ) : Shrinks (fixedOpaque n) := shrinks_body n

lemma shrinks_varOpaque : Shrinks varOpaque := by
  rw [varOpaque_eq]
  exact shrinks_uint32.bind fun n => ((shrinks_body _).limited n).unlessFailed _

lemma shrinks_string : Shrinks string := shrinks_varOpaque.map (Option.getD · [])

lemma consumes_uint32 : Consumes 4 uint32 := by
  rw [uint32_eq]
  exact (consumes_read 4).bind fun _ => (Consumes.pure _).unlessFailed _

lemma consumes_uint64 : Consumes 8 uint64 := by
  rw [uint64_eq]
  exact (consumes_read 8).bind fun _ => (Consumes.pure _).unlessFailed _

lemma consumes_int64 : Consumes 8 int64 := consumes_uint64.map _

end Decoder

end NfsClient.Xdr
