import Mathlib.Data.List.Basic

/-!
# Writers that can fail

A writer takes sequences of symbols and may fail at any of them.  A `Latch` is a writer that is
used until it fails for the first time: the error is kept, and nothing is written any more.

To speak about the calls that a writer gets, it is replaced by one that also keeps a record of
them (`Writer.recorded`); what the writer does is the same.
-/

namespace NfsClient.Lib

variable {β ω ε : Type}

/-- A writer: the error that a call of `Write` returns, and the state of the writer after it. -/
structure Writer (β ω ε : Type) where
  write : List β → ω → Option ε × ω

namespace Writer

/-- The writer that also keeps a record of the calls: what was to be written, and the error. -/
def recorded (W : Writer β ω ε) : Writer β (ω × List (List β × Option ε)) ε where
  write p s := ((W.write p s.1).1, (W.write p s.1).2, s.2 ++ [(p, (W.write p s.1).1)])

/-- A buffer takes everything. -/
def buffer : Writer β (List β) ε where
  write p b := (none, b ++ p)

/-- The writer, which is given one sequence after the other, returns an error for one of them. -/
def Fails (W : Writer β ω ε) : List (List β) → ω → Prop
  | [], _ => False
  | p :: ps, w => (W.write p w).1 ≠ none ∨ W.Fails ps (W.write p w).2

lemma not_fails_buffer (ps : List (List β)) (b : List β) :
    ¬ (buffer : Writer β (List β) ε).Fails ps b := by
  induction ps generalizing b with
  | nil => exact id
  | cons p ps ih => exact not_or.mpr ⟨not_not.mpr rfl, ih _⟩

end Writer

/-- A writer in use, and the first error. -/
structure Latch (ω ε : Type) where
  w : ω
  err : Option ε := none
deriving DecidableEq

namespace Latch

variable (W : Writer β ω ε)

/-- Write unless there has been an error, and keep the error. -/
def write (p : List β) (s : Latch ω ε) : Latch ω ε :=
  if s.err.isSome then s
  else match W.write p s.w with
    | (err, w') => { w := w', err }

/-- Write one sequence after the other. -/
def writeAll (ps : List (List β)) (s : Latch ω ε) : Latch ω ε :=
  ps.foldl (fun s p => s.write W p) s

lemma writeAll_append (ps qs : List (List β)) (s : Latch ω ε) :
    (s.writeAll W (ps ++ qs)) = (s.writeAll W ps).writeAll W qs :=
  List.foldl_append ..

variable {W}

lemma write_of_failed {s : Latch ω ε} (h : s.err.isSome = true) (p : List β) : s.write W p = s := by
  rw [write, if_pos h]

lemma writeAll_of_failed {s : Latch ω ε} (h : s.err.isSome = true) (ps : List (List β)) :
    s.writeAll W ps = s := by
  induction ps with
  | nil => rfl
  | cons p ps ih =>
      show (s.write W p).writeAll W ps = s
      rw [write_of_failed h, ih]

/-- An error is latched exactly if the writer fails. -/
lemma err_writeAll_ne_none_iff (ps : List (List β)) (w : ω) :
    (writeAll W ps ⟨w, none⟩).err ≠ none ↔ W.Fails ps w := by
  induction ps generalizing w with
  | nil => simp [writeAll, Writer.Fails]
  | cons p ps ih =>
      have hcons : writeAll W (p :: ps) ⟨w, none⟩
          = writeAll W ps ⟨(W.write p w).2, (W.write p w).1⟩ := rfl
      rw [hcons, Writer.Fails]
      cases herr : (W.write p w).1 with
      | none => rw [ih, or_iff_right (not_not.mpr rfl)]
      | some e =>
          rw [writeAll_of_failed rfl]
          exact iff_of_true (by simp) (Or.inl (by simp))

/-- The calls of `Write` for the given sequences, and the error that is kept: all of them have
succeeded, or the last one has failed. -/
inductive Calls : List (List β) → List (List β × Option ε) → Option ε → Prop
  | done : Calls [] [] none
  | wrote {p : List β} {ps : List (List β)} {calls : List (List β × Option ε)} {err : Option ε}
      (h : Calls ps calls err) : Calls (p :: ps) ((p, none) :: calls) err
  | failed {p : List β} {ps : List (List β)} (e : ε) : Calls (p :: ps) [(p, some e)] (some e)

/-- Writing makes such calls. -/
lemma calls_writeAll (W : Writer β ω ε) (ps : List (List β)) (w : ω)
    (before : List (List β × Option ε)) :
    ∃ calls, Calls ps calls (writeAll W.recorded ps ⟨(w, before), none⟩).err ∧
      (writeAll W.recorded ps ⟨(w, before), none⟩).w.2 = before ++ calls := by
  induction ps generalizing w before with
  | nil => exact ⟨[], .done, by simp [writeAll]⟩
  | cons p ps ih =>
      have hcons : writeAll W.recorded (p :: ps) ⟨(w, before), none⟩
          = writeAll W.recorded ps
              ⟨((W.write p w).2, before ++ [(p, (W.write p w).1)]), (W.write p w).1⟩ := rfl
      rw [hcons]
      cases herr : (W.write p w).1 with
      | none =>
          obtain ⟨calls, hcalls, hrec⟩ := ih (W.write p w).2 (before ++ [(p, none)])
          exact ⟨(p, none) :: calls, .wrote hcalls, by simpa using hrec⟩
      | some e =>
          rw [writeAll_of_failed rfl]
          exact ⟨[(p, some e)], .failed e, rfl⟩

/-- Keeping a record changes nothing. -/
lemma writeAll_recorded (W : Writer β ω ε) (ps : List (List β)) (w : ω) (err : Option ε)
    (before : List (List β × Option ε)) :
    writeAll W ps ⟨w, err⟩ = ⟨(writeAll W.recorded ps ⟨(w, before), err⟩).w.1,
      (writeAll W.recorded ps ⟨(w, before), err⟩).err⟩ := by
  induction ps generalizing w err before with
  | nil => rfl
  | cons p ps ih =>
      cases err with
      | none => exact ih (W.write p w).2 (W.write p w).1 (before ++ [(p, (W.write p w).1)])
      | some e => exact ih w (some e) before

/-- Nothing is written after a call that fails, and its error is the one that is kept. -/
def StopsAtFailure (calls : List (List β × Option ε)) (err : Option ε) : Prop :=
  ∀ before p e after, calls = before ++ (p, some e) :: after → after = [] ∧ err = some e

namespace Calls

variable {ps : List (List β)} {calls : List (List β × Option ε)} {err : Option ε}

lemma stopsAtFailure (h : Calls ps calls err) : StopsAtFailure calls err := by
  intro before p e after hsplit
  induction h generalizing before with
  | done => simp at hsplit
  | wrote h ih =>
      cases before with
      | nil => simp at hsplit
      | cons c before => exact ih before (List.cons.inj hsplit).2
  | failed e' =>
      cases before with
      | nil =>
          simp only [List.nil_append, List.cons.injEq, Prod.mk.injEq, Option.some.injEq] at hsplit
          exact ⟨hsplit.2.symm, by rw [hsplit.1.2]⟩
      | cons c before => simp at hsplit

/-- The first sequence is written, with or without success. -/
lemma exists_eq_cons {p : List β} (h : Calls (p :: ps) calls err) :
    ∃ e more, calls = (p, e) :: more := by
  cases h with
  | wrote h => exact ⟨_, _, rfl⟩
  | failed e => exact ⟨_, _, rfl⟩

/-- Without an error everything has been written. -/
lemma eq_map_of_ok (h : Calls ps calls err) (herr : err = none) :
    calls = ps.map (·, none) := by
  induction h with
  | done => rfl
  | wrote h ih => rw [List.map_cons, ih herr]
  | failed e => cases herr

end Calls

/-- A buffer gets everything. -/
lemma writeAll_buffer (ps : List (List β)) (b : List β) :
    writeAll (ε := ε) Writer.buffer ps ⟨b, none⟩ = ⟨b ++ ps.flatten, none⟩ := by
  induction ps generalizing b with
  | nil => simp [writeAll]
  | cons p ps ih =>
      show writeAll Writer.buffer ps ⟨b ++ p, none⟩ = _
      rw [ih, List.flatten_cons, List.append_assoc]

end Latch

end NfsClient.Lib
