import NfsClient.Rpc.Record
import NfsClient.Lib.Reader

/-!
# Records that are cut off

A stream can end in the middle of a record.  `ReadRecord` tells a stream that has ended before
the record from one that ends inside it by what `io.ReadFull` returns for the next marker and the
next fragment.  Behind a fragment that is not the last one, `io.ReadFull` finds the stream at its
end and returns `io.EOF`, and `ReadRecord` passes it on: it asks whether anything has been
reassembled, but returns the same error in both cases.
-/

namespace NfsClient.Rpc

open NfsClient.Lib

lemma readFull_of_short {n : ℕ} {r : Bytes} (h : r.length < n) :
    readFull n r = (.error (if r = [] then .eof else .unexpectedEOF), []) := by
  rw [readFull, if_neg (Nat.not_le.mpr h)]

/-- The stream ends in the marker of a fragment, or in the fragment itself. -/
lemma readRecordLoop_cut {last : Bool} {p msg t : Bytes} (hp : p.length ≤ maxFragmentSize)
    (hmsg : msg.length + p.length ≤ maxMessageSize) (ht : t <+: fragment last p)
    (hne : t ≠ fragment last p) (fuel : ℕ) :
    (readRecordLoop (fuel + 1) msg t).1 = .error (if t = [] then .eof else .unexpectedEOF) := by
  have hlt : p.length < 2 ^ 31 := by
    simp only [maxFragmentSize] at hp
    omega
  by_cases hhdr : Wire.uint (marker last p.length) <+: t
  · obtain ⟨t', rfl⟩ := hhdr
    have ht' : t' <+: p := (List.prefix_append_right_inj _).mp ht
    have hshort : t'.length < p.length :=
      lt_of_le_of_ne ht'.length_le fun h => hne (by rw [ht'.eq_of_length h]; rfl)
    have hnil : Wire.uint (marker last p.length) ++ t' ≠ [] := by
      intro h
      have := congrArg List.length h
      simp at this
    simp only [readRecordLoop, readFull_uint, ofNat_beNat_uint, and_fragmentSizeMask,
      toNat_marker_mod hlt, Nat.not_lt.mpr hp, Nat.not_lt.mpr hmsg, if_false,
      readFull_of_short hshort, if_neg hnil]
    -- `io.EOF` stands for a fragment of which nothing is there
    split <;> rfl
  · have hin : t <+: Wire.uint (marker last p.length) :=
      (List.prefix_or_prefix_of_prefix ht (List.prefix_append _ _)).resolve_right hhdr
    have hshort : t.length < 4 := by
      have hle := hin.length_le
      rw [Wire.length_uint] at hle
      refine lt_of_le_of_ne hle fun h => hhdr ?_
      rw [hin.eq_of_length (by rw [h, Wire.length_uint])]
    simp only [readRecordLoop, readFull_of_short hshort]

/-- Where a record is cut off: behind some of the fragments that are not the last one, and inside
the one that follows them. -/
lemma Cut.exists_of_prefix {c : Cut} {pre : Bytes} (hp : pre <+: c.record) (hne : pre ≠ c.record) :
    ∃ ps last p t, ps <+: c.init ∧ ps ++ [p] <+: c.init ++ [c.last] ∧
      pre = ps.flatMap (fragment false) ++ t ∧ t <+: fragment last p ∧ t ≠ fragment last p := by
  by_cases hall : c.init.flatMap (fragment false) <+: pre
  · obtain ⟨t, rfl⟩ := hall
    have ht : t <+: fragment true c.last := (List.prefix_append_right_inj _).mp hp
    exact ⟨c.init, true, c.last, t, List.prefix_refl _, List.prefix_refl _, rfl, ht,
      fun h => hne (by rw [h]; rfl)⟩
  · have hin : pre <+: c.init.flatMap (fragment false) :=
      (List.prefix_or_prefix_of_prefix hp (List.prefix_append _ _)).resolve_right hall
    obtain ⟨ps, p, more, t, hinit, hpre, ht, htne⟩ :=
      exists_block_of_cut hin fun h => hall (h ▸ List.prefix_refl _)
    refine ⟨ps, false, p, t, ?_, ?_, hpre, ht, htne⟩
    · rw [hinit]
      exact List.prefix_append _ _
    · rw [hinit]
      exact ⟨more ++ [c.last], by simp⟩

/-- What `ReadRecord` returns for a record that is cut off. -/
lemma readRecord_cut {c : Cut} {ps : List Bytes} {last : Bool} {p t : Bytes}
    (hps : ps ++ [p] <+: c.init ++ [c.last]) (ht : t <+: fragment last p)
    (hne : t ≠ fragment last p) :
    (readRecord (ps.flatMap (fragment false) ++ t)).1
      = .error (if t = [] then .eof else .unexpectedEOF) := by
  have hfrag : ∀ q ∈ ps ++ [p], q.length ≤ maxFragmentSize := fun q hq =>
    c.fragment_le q (hps.subset hq)
  have hmsg : ps.flatten.length + p.length ≤ maxMessageSize := by
    have hle := (hps.flatten).length_le
    have := c.message_le
    simp only [List.flatten_append, List.flatten_cons, List.flatten_nil, List.append_nil,
      List.length_append] at hle this
    omega
  have hdone : ∀ q ∈ ps, q.length ≤ maxFragmentSize := fun q hq =>
    hfrag q (List.mem_append_left _ hq)
  obtain ⟨fuel, hread⟩ := readRecord_fragments hdone (by omega) t
  rw [hread]
  exact readRecordLoop_cut (hfrag p (by simp)) hmsg ht hne fuel

lemma flatMap_fragment_ne_nil {ps : List Bytes} (h : ps ≠ []) :
    ps.flatMap (fragment false) ≠ [] := by
  intro hnil
  have hle := length_le_flatMap_fragment ps
  rw [hnil] at hle
  exact h (List.length_eq_zero_iff.mp (Nat.le_zero.mp hle))

/-- Between two fragments there is nothing of the next one. -/
lemma readRecord_between {c : Cut} {ps : List Bytes} (hps : ps <+: c.init) :
    (readRecord (ps.flatMap (fragment false))).1 = .error .eof := by
  obtain ⟨p, hp⟩ : ∃ p, ps ++ [p] <+: c.init ++ [c.last] := by
    obtain ⟨more, hmore⟩ := hps
    rw [← hmore]
    cases more with
    | nil => exact ⟨c.last, by simp⟩
    | cons p more => exact ⟨p, more ++ [c.last], by simp⟩
  have hne : [] ≠ fragment true p := by
    intro h
    have hlen := congrArg List.length h
    simp only [fragment, List.length_nil, List.length_append, Wire.length_uint] at hlen
    omega
  simpa using readRecord_cut hp List.nil_prefix hne

/-- A record that is cut off is reported as such: `io.EOF` says that nothing of it is there, and
`io.ErrUnexpectedEOF` that only a part of it is. -/
def CutReported (pre : Bytes) : Prop :=
  ((readRecord pre).1 = .error .eof ↔ pre = []) ∧
    (pre ≠ [] → (readRecord pre).1 = .error .unexpectedEOF)

/-- **When a record that is cut off is reported as such**: it is not cut between two fragments,
that is, what is there of it is not a sequence of whole fragments. -/
theorem readRecord_cutReported_iff (c : Cut) {pre : Bytes} (hp : pre <+: c.record)
    (hne : pre ≠ c.record) :
    CutReported pre ↔
      ∀ ps, ps ≠ [] → ps <+: c.init → pre ≠ ps.flatMap (fragment false) := by
  obtain ⟨ps, last, p, t, hinit, hps, rfl, ht, htne⟩ := Cut.exists_of_prefix hp hne
  have hread := readRecord_cut hps ht htne
  constructor
  · rintro ⟨heof, -⟩ ps' hne' hps' heq
    rw [heq] at heof
    exact flatMap_fragment_ne_nil hne' (heof.mp (readRecord_between hps'))
  · intro hbetween
    by_cases hcut : t = []
    · -- nothing is there of the next fragment, so nothing is there at all
      have hnil : ps = [] := by
        by_contra hps'
        exact hbetween ps hps' hinit (by simp [hcut])
      subst hcut hnil
      exact ⟨iff_of_true hread rfl, fun h => absurd rfl h⟩
    · have hpre : ps.flatMap (fragment false) ++ t ≠ [] := by simp [hcut]
      rw [if_neg hcut] at hread
      refine ⟨iff_of_false (fun h => ?_) hpre, fun _ => hread⟩
      rw [hread] at h
      cases h

/-- A message in two fragments of one byte each. -/
def twoFragments : Cut where
  init := [[1]]
  last := [2]
  fragment_le := by decide
  message_le := by decide

/-- It is cut off inside the marker of the second fragment. -/
theorem readRecord_cutReported_marker :
    (fragment false [1] ++ [128]) <+: twoFragments.record ∧
      CutReported (fragment false [1] ++ [128]) := by
  have hp : (fragment false [1] ++ [128]) <+: twoFragments.record := by decide
  refine ⟨hp, (readRecord_cutReported_iff twoFragments hp (by decide)).mpr ?_⟩
  intro ps hps hinit
  obtain rfl | ⟨more, rfl, hmore⟩ := List.prefix_cons_iff.mp hinit
  · exact absurd rfl hps
  · rw [List.prefix_nil.mp hmore]
    decide

/-- It is cut off between the fragments: `io.EOF` is returned, although five bytes are there. -/
theorem readRecord_not_cutReported :
    fragment false [1] <+: twoFragments.record ∧ fragment false [1] ≠ twoFragments.record ∧
      (readRecord (fragment false [1])).1 = .error .eof ∧ ¬ CutReported (fragment false [1]) := by
  refine ⟨by decide, by decide, by decide, fun h => ?_⟩
  exact absurd (h.1.mp (by decide)) (by decide)

end NfsClient.Rpc
