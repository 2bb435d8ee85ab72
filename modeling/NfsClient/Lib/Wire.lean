import NfsClient.Lib.BigEndian
import NfsClient.Lib.Reader

/-!
# The XDR representation of data

The wire forms of the XDR standard (RFC 4506) for the types that protocols are built from,
and the parsers of these forms.  The forms say what the bytes are, independently of any
implementation; the parsers accept these bytes and no others: a boolean is zero or one, and
padding is zero.  Each parser reads its form back in front of any rest.
-/

namespace NfsClient.Lib.Wire

/-! ## The forms -/

/-- The zero bytes that fill `n` bytes up to a multiple of four. -/
def padding (n : ℕ) : List UInt8 := List.replicate ((4 - n % 4) % 4) 0

/-- An unsigned integer. -/
def uint (v : UInt32) : List UInt8 := beBytes 4 v.toNat

/-- An unsigned hyper integer. -/
def hyper (v : UInt64) : List UInt8 := beBytes 8 v.toNat

/-- A boolean. -/
def bool (b : Bool) : List UInt8 := uint (if b then 1 else 0)

/-- Fixed-length opaque data. -/
def opaqueFixed (p : List UInt8) : List UInt8 := [p, padding p.length].flatten

/-- Variable-length opaque data, and strings. -/
def opaqueVar (p : List UInt8) : List UInt8 := [uint (UInt32.ofNat p.length), opaqueFixed p].flatten

/-- A variable-length array. -/
def array {α : Type} (enc : α → List UInt8) (as : List α) : List UInt8 :=
  [uint (UInt32.ofNat as.length), as.flatMap enc].flatten

@[simp] lemma length_uint (v : UInt32) : (uint v).length = 4 := length_beBytes 4 _

@[simp] lemma length_hyper (v : UInt64) : (hyper v).length = 8 := length_beBytes 8 _

@[simp] lemma length_bool (b : Bool) : (bool b).length = 4 := length_uint _

lemma four_dvd_opaqueFixed (p : List UInt8) : 4 ∣ (opaqueFixed p).length := by
  have : (opaqueFixed p).length = p.length + (4 - p.length % 4) % 4 := by
    simp [opaqueFixed, padding]
  omega

lemma four_dvd_opaqueVar (p : List UInt8) : 4 ∣ (opaqueVar p).length := by
  have hp := four_dvd_opaqueFixed p
  have : (opaqueVar p).length = 4 + (opaqueFixed p).length := by simp [opaqueVar]
  omega

/-! ## The parsers -/

/-- A parser consumes bytes from the front of its input, or rejects it. -/
abbrev Parser (α : Type) : Type := StateT (List UInt8) Option α

/-- A parser reads bytes as a value in front of any rest. -/
abbrev Parses {α : Type} (p : Parser α) (bs : List UInt8) (a : α) : Prop := Reads id p bs a

namespace Parser

/-- The next `n` bytes. -/
def take (n : ℕ) : Parser (List UInt8) := fun bs =>
  if n ≤ bs.length then some (bs.take n, bs.drop n) else none

/-- Reject the input unless a condition holds. -/
def guard (c : Prop) [Decidable c] : Parser Unit := fun bs => if c then some ((), bs) else none

/-- An unsigned integer. -/
def uint : Parser UInt32 := do return UInt32.ofNat (beNat (← take 4))

/-- An unsigned hyper integer. -/
def hyper : Parser UInt64 := do return UInt64.ofNat (beNat (← take 8))

/-- A boolean. -/
def bool : Parser Bool := do
  let v ← uint
  guard (v = 0 ∨ v = 1)
  return v = 1

/-- Fixed-length opaque data of `n` bytes. -/
def opaqueFixed (n : ℕ) : Parser (List UInt8) := do
  let p ← take n
  let z ← take (padding n).length
  guard (z = padding n)
  return p

/-- Variable-length opaque data. -/
def opaqueVar : Parser (List UInt8) := do
  let n ← uint
  opaqueFixed n.toNat

/-- `n` values, one after the other. -/
def times {α : Type} (p : Parser α) : ℕ → Parser (List α)
  | 0 => return []
  | n + 1 => do
      let a ← p
      let as ← times p n
      return a :: as

/-- A variable-length array. -/
def array {α : Type} (p : Parser α) : Parser (List α) := do
  let n ← uint
  times p n.toNat

end Parser

/-! ## Reading the forms back -/

lemma parses_take {p : List UInt8} {n : ℕ} (h : p.length = n) : Parses (Parser.take n) p p := by
  intro rest
  simp only [Parser.take, id, List.length_append, h, Nat.le_add_right, if_true]
  rw [List.take_left' h, List.drop_left' h]
  rfl

lemma parses_guard {c : Prop} [Decidable c] (h : c) :
    Parses (Parser.guard c) [] () := by
  intro rest
  simp only [Parser.guard, if_pos h]
  rfl

lemma parses_uint (v : UInt32) : Parses Parser.uint (uint v) v := by
  have hv : UInt32.ofNat (beNat (uint v)) = v := by
    rw [uint, beNat_beBytes (by simpa using v.toNat_lt), UInt32.ofNat_toNat]
  have h := (parses_take (length_uint v)).map fun p => UInt32.ofNat (beNat p)
  rwa [hv] at h

lemma parses_hyper (v : UInt64) : Parses Parser.hyper (hyper v) v := by
  have hv : UInt64.ofNat (beNat (hyper v)) = v := by
    rw [hyper, beNat_beBytes (by simpa using v.toNat_lt), UInt64.ofNat_toNat]
  have h := (parses_take (length_hyper v)).map fun p => UInt64.ofNat (beNat p)
  rwa [hv] at h

lemma parses_bool (b : Bool) : Parses Parser.bool (bool b) b := by
  cases b with
  | false =>
      exact .of_eq ((parses_uint 0).bind ((parses_guard (.inl rfl)).bind (.pure _)))
        (by simp [bool])
  | true =>
      exact .of_eq ((parses_uint 1).bind ((parses_guard (.inr rfl)).bind (.pure _)))
        (by simp [bool])

lemma parses_opaqueFixed {p : List UInt8} {n : ℕ} (h : p.length = n) :
    Parses (Parser.opaqueFixed n) (opaqueFixed p) p := by
  subst h
  exact .of_eq ((parses_take rfl).bind ((parses_take rfl).bind ((parses_guard rfl).bind (.pure p))))
    (by simp [opaqueFixed])

lemma parses_opaqueVar {p : List UInt8} (h : p.length < 2 ^ 32) :
    Parses Parser.opaqueVar (opaqueVar p) p :=
  (parses_uint _).bind (parses_opaqueFixed (UInt32.toNat_ofNat_of_lt' h).symm).single

lemma parses_times {α γ : Type} {p : Parser γ} {enc : α → List UInt8} {g : α → γ} {as : List α}
    (h : ∀ a ∈ as, Parses p (enc a) (g a)) :
    Parses (Parser.times p as.length) (as.flatMap enc) (as.map g) := by
  induction as with
  | nil => exact .pure _
  | cons a as ih =>
      have hhd := h a (List.mem_cons_self ..)
      have htl := ih fun b hb => h b (List.mem_cons_of_mem _ hb)
      exact .of_eq (hhd.bind (htl.bind (.pure _))) (by simp)

lemma parses_array {α γ : Type} {p : Parser γ} {enc : α → List UInt8} {g : α → γ} {as : List α}
    (hlen : as.length < 2 ^ 32) (h : ∀ a ∈ as, Parses p (enc a) (g a)) :
    Parses (Parser.array p) (array enc as) (as.map g) := by
  refine (parses_uint _).bind (Reads.single ?_)
  rw [UInt32.toNat_ofNat_of_lt' hlen]
  exact parses_times h

/-- Two forms that one parser reads back are not a prefix of one another. -/
lemma Parses.unique {α : Type} {p : Parser α} {bs cs rest rest' : List UInt8} {a c : α}
    (ha : Parses p bs a) (hc : Parses p cs c) (h : bs ++ rest = cs ++ rest') :
    a = c ∧ rest = rest' := by
  have h₁ := ha rest
  have h₂ := hc rest'
  rw [h, h₂] at h₁
  obtain ⟨rfl, rfl⟩ := Prod.mk.inj (Option.some.inj h₁)
  exact ⟨rfl, rfl⟩

end NfsClient.Lib.Wire
