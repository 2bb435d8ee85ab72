import Mathlib.Control.Lawful
import Mathlib.Data.List.Infix

/-!
# Readers

A reader consumes symbols from the front of an input and returns a value.  It is a state
monad over states into which an input can be loaded, so the rules below hold for a parser
that returns `none` and for a decoder that latches its first error alike.

`Reads load x bs a` is the round-trip law: in front of any rest, `x` yields `a` and consumes
exactly `bs`.  The records that are read are given as the list of their fields, so that one
`bind` of the reader answers to one field of the record.  `Cuts` is its companion for inputs
that end too early.
-/

namespace NfsClient.Lib

variable {m : Type → Type} [Monad m] {β σ α γ : Type}

/-- In front of any rest, `x` yields `a` and consumes exactly `bs`. -/
def Reads (load : List β → σ) (x : StateT σ m α) (bs : List β) (a : α) : Prop :=
  ∀ rest, x (load (bs ++ rest)) = pure (a, load rest)

namespace Reads

variable [LawfulMonad m] {load : List β → σ} {x : StateT σ m α} {f : α → StateT σ m γ}
  {bs : List β} {bss : List (List β)} {a : α} {c : γ}

omit [LawfulMonad m] in
/-- A record without fields. -/
lemma pure (a : α) : Reads load (Pure.pure a : StateT σ m α) ([] : List (List β)).flatten a :=
  fun _ => rfl

/-- A record whose first field is `bs`. -/
lemma bind (hx : Reads load x bs a) (hf : Reads load (f a) bss.flatten c) :
    Reads load (x >>= f) (bs :: bss).flatten c := by
  intro rest
  show (x (load ((bs :: bss).flatten ++ rest)) >>= fun p => f p.1 p.2) = _
  rw [List.flatten_cons, List.append_assoc, hx, pure_bind]
  exact hf rest

lemma map (g : α → γ) (hx : Reads load x bs a) : Reads load (g <$> x) bs (g a) := by
  intro rest
  show (x (load (bs ++ rest)) >>= fun p => Pure.pure (g p.1, p.2)) = _
  rw [hx, pure_bind]

omit [LawfulMonad m] in
lemma of_eq {bs' : List β} (hx : Reads load x bs a) (h : bs = bs') : Reads load x bs' a :=
  h ▸ hx

omit [LawfulMonad m] in
lemma to_eq {a' : α} (hx : Reads load x bs a) (h : a = a') : Reads load x bs a' := h ▸ hx

omit [LawfulMonad m] in
/-- A field that is the whole record. -/
lemma single (hx : Reads load x bs a) : Reads load x [bs].flatten a :=
  hx.of_eq (by simp)

/-- A sequence whose second part reads nothing. -/
lemma last (hx : Reads load x bs a) (hf : Reads load (f a) ([] : List (List β)).flatten c) :
    Reads load (x >>= f) bs c :=
  (hx.bind hf).of_eq (by simp)

/-- A sequence whose first part reads nothing. -/
lemma silent (hx : Reads load x [] a) (hf : Reads load (f a) bs c) :
    Reads load (x >>= f) bs c :=
  (hx.bind hf.single).of_eq (by simp)

end Reads

/-! ## Inputs that end too early -/

section Cut

variable {load : List β → σ} {bad : σ → Prop}

/-- A state that is bad before `x` is bad afterwards. -/
def Keeps (bad : σ → Prop) (x : StateM σ α) : Prop := ∀ s, bad s → bad (x s).2

/-- On every strict prefix of `bs`, `x` ends in a bad state. -/
def Cuts (load : List β → σ) (bad : σ → Prop) (x : StateM σ α) (bs : List β) : Prop :=
  ∀ pre, pre <+: bs → pre ≠ bs → bad (x (load pre)).2

lemma Keeps.pure (a : α) : Keeps bad (pure a : StateM σ α) := fun _ hs => hs

lemma Keeps.bind {x : StateM σ α} {f : α → StateM σ γ} (hx : Keeps bad x)
    (hf : ∀ a, Keeps bad (f a)) : Keeps bad (x >>= f) :=
  fun s hs => hf _ _ (hx s hs)

lemma Keeps.map {x : StateM σ α} (g : α → γ) (hx : Keeps bad x) : Keeps bad (g <$> x) :=
  fun s hs => hx s hs

lemma Cuts.nil (x : StateM σ α) : Cuts load bad x [] :=
  fun _ hp hne => absurd (List.prefix_nil.mp hp) hne

lemma Cuts.map {x : StateM σ α} {bs : List β} (g : α → γ) (hx : Cuts load bad x bs) :
    Cuts load bad (g <$> x) bs :=
  fun pre hp hne => hx pre hp hne

/-- The input ends inside the first field, or inside the others. -/
lemma Cuts.bind {x : StateM σ α} {f : α → StateM σ γ} {bs cs : List β} {a : α}
    (hr : Reads load x bs a) (hx : Cuts load bad x bs) (hk : ∀ a, Keeps bad (f a))
    (hf : Cuts load bad (f a) cs) : Cuts load bad (x >>= f) (bs ++ cs) := by
  intro pre hp hne
  show bad (f (x (load pre)).1 (x (load pre)).2).2
  -- the input is cut behind the bytes of `x`, or among them
  by_cases hle : bs <+: pre
  · obtain ⟨pre', rfl⟩ := hle
    rw [hr pre']
    exact hf pre' ((List.prefix_append_right_inj bs).mp hp) fun h => hne (by rw [h])
  · have hin : pre <+: bs :=
      (List.prefix_or_prefix_of_prefix hp (List.prefix_append bs cs)).resolve_right hle
    exact hk _ _ (hx pre hin fun h => hle (h ▸ List.prefix_refl _))

/-- Blocks that are cut off are cut off inside one of them. -/
lemma exists_block_of_cut {f : α → List β} {as : List α} {pre : List β}
    (hp : pre <+: as.flatMap f) (hne : pre ≠ as.flatMap f) :
    ∃ done a more t, as = done ++ a :: more ∧ pre = done.flatMap f ++ t ∧ t <+: f a ∧ t ≠ f a := by
  induction as generalizing pre with
  | nil => exact absurd (List.prefix_nil.mp hp) hne
  | cons a as ih =>
      rw [List.flatMap_cons] at hp hne
      by_cases hle : f a <+: pre
      · obtain ⟨pre', rfl⟩ := hle
        obtain ⟨done, b, more, t, rfl, rfl, ht, htne⟩ :=
          ih ((List.prefix_append_right_inj (f a)).mp hp) fun h => hne (by rw [h])
        exact ⟨a :: done, b, more, t, rfl, by simp, ht, htne⟩
      · have hin : pre <+: f a :=
          (List.prefix_or_prefix_of_prefix hp (List.prefix_append _ _)).resolve_right hle
        exact ⟨[], a, as, pre, rfl, rfl, hin, fun h => hle (h ▸ List.prefix_refl _)⟩

end Cut

end NfsClient.Lib
