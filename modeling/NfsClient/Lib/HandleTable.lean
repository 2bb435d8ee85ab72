import Mathlib.Data.List.AList
import Mathlib.Data.List.ReduceOption
import Mathlib.Data.UInt

/-!
# Tables of handles

A table hands out a handle for each value that is added to it, and the value can be read,
replaced and removed under its handle.  It is a map with a 64-bit counter of the handles that
were handed out.

What such a table stands for is a list of slots that only grows: the handle is the position of
the slot, and the slot at position zero, which is no handle, is empty from the beginning.  A slot
that was emptied is never filled again.
-/

namespace NfsClient.Lib

variable {α : Type*}

/-- A map from handles to values, and the last handle that was handed out. -/
structure HandleTable (α : Type*) where
  last : UInt64 := 0
  map : AList (fun _ : UInt64 => α) := ∅

namespace HandleTable

/-- Add a value under a new handle. -/
def add (t : HandleTable α) (a : α) : UInt64 × HandleTable α :=
  (t.last + 1, { last := t.last + 1, map := t.map.insert (t.last + 1) a })

def get? (t : HandleTable α) (h : UInt64) : Option α := t.map.lookup h

/-- Change the value under a handle, if there is one. -/
def modify (t : HandleTable α) (h : UInt64) (f : α → α) : HandleTable α :=
  match t.get? h with
  | some a => { t with map := t.map.insert h (f a) }
  | none => t

def remove (t : HandleTable α) (h : UInt64) : HandleTable α := { t with map := t.map.erase h }

/-- The values in the table, in no particular order. -/
def values (t : HandleTable α) : List α := t.map.entries.map fun e => e.2

end HandleTable

/-! ## Slots -/

/-- The slots of a table, from the beginning. -/
abbrev Slots (α : Type*) : Type _ := List (Option α)

namespace Slots

/-- No handle has been handed out: there is the slot at position zero only. -/
def empty : Slots α := [none]

def add (s : Slots α) (a : α) : UInt64 × Slots α := (UInt64.ofNat s.length, s ++ [some a])

def get? (s : Slots α) (h : UInt64) : Option α := s[h.toNat]?.join

/-- Change the value in a slot, if there is one. -/
def modify (s : Slots α) (h : UInt64) (f : α → α) : Slots α :=
  match s.get? h with
  | some a => s.set h.toNat (some (f a))
  | none => s

def remove (s : Slots α) (h : UInt64) : Slots α := s.set h.toNat none

def values (s : Slots α) : List α := s.reduceOption

end Slots

/-! ## Values -/

/-- Emptying a slot takes its value away. -/
lemma values_set_none {s : Slots α} {i : ℕ} {a : α} (h : s[i]? = some (some a)) :
    s.values.Perm (a :: Slots.values (s.set i none)) := by
  obtain ⟨hi, ha⟩ := List.getElem?_eq_some_iff.mp h
  have hsplit : s = s.take i ++ some a :: s.drop (i + 1) := by
    conv_lhs => rw [← List.take_append_drop i s, List.drop_eq_getElem_cons hi, ha]
  rw [List.set_eq_take_append_cons_drop, if_pos hi]
  conv_lhs => rw [hsplit]
  simp only [Slots.values, List.reduceOption_append, List.reduceOption_cons_of_some,
    List.reduceOption_cons_of_none]
  exact List.perm_middle

/-- Filling a slot adds the value to those of the other slots. -/
lemma values_set_some {s : Slots α} {i : ℕ} (hi : i < s.length) (b : α) :
    (Slots.values (s.set i (some b))).Perm (b :: Slots.values (s.set i none)) := by
  simp only [List.set_eq_take_append_cons_drop, if_pos hi, Slots.values,
    List.reduceOption_append, List.reduceOption_cons_of_some, List.reduceOption_cons_of_none]
  exact List.perm_middle

/-- Erasing an entry takes its value away. -/
lemma values_erase {m : AList fun _ : UInt64 => α} {h : UInt64} {a : α}
    (ha : m.lookup h = some a) :
    (m.entries.map fun e => e.2).Perm (a :: (m.erase h).entries.map fun e => e.2) := by
  have hmem : h ∈ m.entries.keys := AList.lookup_isSome.mp (by rw [ha]; rfl)
  obtain ⟨b, l₁, l₂, -, hsplit, herase⟩ := List.exists_of_kerase hmem
  obtain rfl : b = a := by
    have hin : (⟨h, b⟩ : Sigma fun _ : UInt64 => α) ∈ m.entries := by rw [hsplit]; simp
    exact Option.mem_unique (List.mem_dlookup m.nodupKeys hin) ha
  have hrest : (m.erase h).entries = l₁ ++ l₂ := herase
  rw [hrest, hsplit, List.map_append, List.map_append, List.map_cons]
  exact List.perm_middle

/-! ## Tables and slots -/

/-- The table stands for the slots. -/
structure HandleTable.Represents (t : HandleTable α) (s : Slots α) : Prop where
  length_eq : s.length = t.last.toNat + 1
  get?_eq : ∀ h, t.get? h = s.get? h
  values_perm : t.values.Perm s.values

namespace HandleTable.Represents

variable {t : HandleTable α} {s : Slots α}

lemma empty : ({} : HandleTable α).Represents Slots.empty where
  length_eq := rfl
  get?_eq h := by
    show none = (([none] : Slots α)[h.toNat]?).join
    cases h.toNat <;> rfl
  values_perm := .refl _

lemma getElem?_of_get? (hts : t.Represents s) {h : UInt64} {a : α} (ha : t.get? h = some a) :
    s[h.toNat]? = some (some a) :=
  Option.join_eq_some_iff.mp ((hts.get?_eq h).symm.trans ha)

/-- A handle that is handed out is new, as long as the counter does not wrap around. -/
lemma add (hts : t.Represents s) (hlen : s.length < 2 ^ 64) (a : α) :
    (t.add a).1 = (s.add a).1 ∧ (t.add a).2.Represents (s.add a).2 := by
  have hlast : (t.last + 1).toNat = s.length := by
    rw [UInt64.toNat_add, hts.length_eq]
    have := hts.length_eq
    exact Nat.mod_eq_of_lt (by simpa [← this] using hlen)
  have hnew : t.last + 1 = UInt64.ofNat s.length := by rw [← hlast, UInt64.ofNat_toNat]
  have hfresh : t.map.lookup (t.last + 1) = none := by
    have := hts.get?_eq (t.last + 1)
    rw [Slots.get?, hlast, List.getElem?_eq_none le_rfl] at this
    exact this
  refine ⟨hnew, ?_, fun h => ?_, ?_⟩
  · show (s ++ [some a]).length = (t.last + 1).toNat + 1
    rw [hlast, List.length_append, List.length_singleton]
  · show (t.map.insert (t.last + 1) a).lookup h = ((s ++ [some a])[h.toNat]?).join
    by_cases hh : h = t.last + 1
    · subst hh
      rw [AList.lookup_insert, hlast, List.getElem?_concat_length]
      rfl
    · rw [AList.lookup_insert_ne hh]
      have hne : h.toNat ≠ s.length := fun he => hh (UInt64.toNat_inj.mp (he.trans hlast.symm))
      refine (hts.get?_eq h).trans ?_
      rw [Slots.get?, List.getElem?_append]
      split
      · rfl
      · rw [List.getElem?_eq_none (by omega), List.getElem?_eq_none (by simp; omega)]
  · show ((t.map.insert (t.last + 1) a).entries.map fun e => e.2).Perm (s ++ [some a]).reduceOption
    rw [AList.entries_insert_of_notMem (AList.lookup_eq_none.mp hfresh), List.map_cons,
      List.reduceOption_append]
    exact (hts.values_perm.cons a).trans (List.perm_append_singleton a _).symm

/-- Without an entry under a handle, its slot is empty or not there. -/
lemma set_of_get? (hts : t.Represents s) {h : UInt64} (ha : t.get? h = none) :
    s.set h.toNat none = s := by
  have hjoin : s[h.toNat]?.join = none := (hts.get?_eq h).symm.trans ha
  refine List.ext_getElem? fun j => ?_
  rw [List.getElem?_set]
  split
  · next hj =>
      subst hj
      split
      · next hlt =>
          rw [List.getElem?_eq_getElem hlt] at hjoin ⊢
          exact congrArg some hjoin.symm
      · next hge => exact (List.getElem?_eq_none (by omega)).symm
  · rfl

/-- Removing a value leaves the values of the other slots. -/
lemma erase_values_perm (hts : t.Represents s) {h : UInt64} {a : α} (ha : t.get? h = some a) :
    ((t.map.erase h).entries.map fun e => e.2).Perm (Slots.values (s.set h.toNat none)) := by
  have hslots := values_set_none (hts.getElem?_of_get? ha)
  exact ((values_erase ha).symm.trans (hts.values_perm.trans hslots)).cons_inv

lemma remove (hts : t.Represents s) (h : UInt64) : (t.remove h).Represents (s.remove h) := by
  refine ⟨?_, fun h' => ?_, ?_⟩
  · exact (List.length_set ..).trans hts.length_eq
  · show (t.map.erase h).lookup h' = ((s.set h.toNat none)[h'.toNat]?).join
    by_cases hh : h' = h
    · subst hh
      rw [AList.lookup_erase, List.getElem?_set_self']
      cases s[h'.toNat]? <;> rfl
    · rw [AList.lookup_erase_ne hh,
        List.getElem?_set_ne fun he => hh (UInt64.toNat_inj.mp he.symm)]
      exact hts.get?_eq h'
  · cases ha : t.get? h with
    | some a => exact hts.erase_values_perm ha
    | none =>
        have hkeys : h ∉ t.map.entries.keys := AList.lookup_eq_none.mp ha
        have hentries : (t.map.erase h).entries = t.map.entries :=
          List.kerase_of_notMem_keys hkeys
        show ((t.map.erase h).entries.map fun e => e.2).Perm (Slots.values (s.set h.toNat none))
        rw [hentries, hts.set_of_get? ha]
        exact hts.values_perm

lemma modify (hts : t.Represents s) (h : UInt64) (f : α → α) :
    (t.modify h f).Represents (s.modify h f) := by
  have heq := hts.get?_eq h
  cases ha : t.get? h with
  | none =>
      rw [ha] at heq
      simpa only [HandleTable.modify, ha, Slots.modify, ← heq] using hts
  | some a =>
      have hslot := hts.getElem?_of_get? ha
      obtain ⟨hlt, -⟩ := List.getElem?_eq_some_iff.mp hslot
      rw [ha] at heq
      simp only [HandleTable.modify, ha, Slots.modify, ← heq]
      refine ⟨?_, fun h' => ?_, ?_⟩
      · exact (List.length_set ..).trans hts.length_eq
      · show (t.map.insert h (f a)).lookup h' = ((s.set h.toNat (some (f a)))[h'.toNat]?).join
        by_cases hh : h' = h
        · subst hh
          rw [AList.lookup_insert, List.getElem?_set_self hlt]
          rfl
        · rw [AList.lookup_insert_ne hh,
            List.getElem?_set_ne fun he => hh (UInt64.toNat_inj.mp he.symm)]
          exact hts.get?_eq h'
      · have hvalues := (hts.erase_values_perm ha).cons (f a)
        exact hvalues.trans (values_set_some hlt (f a)).symm

end HandleTable.Represents

end NfsClient.Lib
