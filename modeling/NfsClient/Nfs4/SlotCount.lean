import NfsClient.Nfs4.SlotTable

/-!
# Counting the uses of a slot

The sequence id of a slot against a counter `g` that some observer keeps for it: the server's
expected id, or the number of compounds that were sent.  The observer counts a lease once, at
some moment between the scan and the release; `used` says of which calls the lease has been
counted.  As long as every base call succeeds and only counted leases are released, a slot
and its counter move together.
-/

namespace NfsClient.Nfs4.SlotTable

open NfsClient.Lib

variable {n : ℕ} {g : UInt32 → UInt32} {used : ℕ → Bool} {p p' : State} {c c' : CallState}

/-- The sequence id of a call's lease against the counter of its slot; `u` says whether the
lease has been counted. -/
def Tracks (g : UInt32 → UInt32) (u : Bool) (c : CallState) : Prop :=
  match c.phase with
  | .select | .scan | .fallThrough => u = false
  | .leased l => u = false ∧ l.seq = g l.slotID
  | .inFlight l => l.seq + (if u then 1 else 0) = g l.slotID
  | .release l advance _ _ => advance = true ∧ l.seq + 1 = g l.slotID
  | .deferred _ advanced _ => advanced = true
  | .token .. | .finished _ => True

/-- The slots agree with their counters. -/
structure Counts (n : ℕ) (g : UInt32 → UInt32) (used : ℕ → Bool) (p : State) : Prop where
  table : Inv n p
  free : ∀ (k : ℕ) (sl : Slot), p.shared.session.slots[k]? = some sl → sl.inUse = false →
    sl.seq = g (UInt32.ofNat k)
  calls : ∀ (i : ℕ) (c : CallState), p.procs[i]? = some c → Tracks g (used i) c
  fresh : ∀ i : ℕ, p.procs.length ≤ i → used i = false

lemma initial_counts (id : SessionID) (hn : 1 ≤ n) :
    Counts n (fun _ => 1) (fun _ => false) (initial id n) := by
  refine ⟨initial_inv id hn, fun k sl hk _ => ?_, fun i c hc => ?_, fun _ _ => rfl⟩
  · have hmem := List.mem_of_getElem? hk
    simp only [initial, newSession, List.mem_replicate] at hmem
    rw [hmem.2]
  · simp [initial] at hc

/-- A return of the base call that keeps the slot in step: it succeeds, and the lease has been
counted. -/
def Succeeds (used : ℕ → Bool) (p : State) : Label → Prop
  | .act i (.baseReturn reply) => used i = true ∧ ∀ c ∈ p.procs[i]?,
      (decodeReply (.sequence {} :: c.results) reply).2.isOk = true
  | _ => True

lemma Counts.start (hk : Counts n g used p) (x : Compound × List Res) :
    Counts n g used ⟨p.shared, p.procs ++ [newCall x]⟩ := by
  refine ⟨hk.table.start x, hk.free, fun i c hc => ?_, fun i hi => hk.fresh i ?_⟩
  · rcases Pool.getElem?_snoc_cases hc with hc' | ⟨rfl, rfl⟩
    · exact hk.calls i c hc'
    · exact hk.fresh _ le_rfl
  · simp only [List.length_append] at hi
    omega

/-- What has to be checked when one call moves. -/
lemma Counts.set (hk : Counts n g used p) {s' : Shared} {i : ℕ}
    (htab : Inv n ⟨s', p.procs.set i c'⟩)
    (hfree : ∀ (k : ℕ) (sl : Slot), s'.session.slots[k]? = some sl → sl.inUse = false →
      sl.seq = g (UInt32.ofNat k)) (hcall : Tracks g (used i) c') :
    Counts n g used ⟨s', p.procs.set i c'⟩ := by
  refine ⟨htab, hfree, fun j d hd => ?_, fun j hj => hk.fresh j (by simpa using hj)⟩
  rcases Pool.getElem?_set_cases hd with ⟨rfl, rfl⟩ | ⟨-, hd'⟩
  · exact hcall
  · exact hk.calls j d hd'

/-- **One step** of the table keeps slots and counters together, if the base call that returns
in it, if any, succeeds and was counted. -/
theorem Counts.step (hn : n ≤ 2 ^ 32) {lab : Label} (hk : Counts n g used p)
    (hs : Succeeds used p lab) (h : step p lab = some p') : Counts n g used p' := by
  have htab := inv_step hn hk.table h
  have hlen : p.shared.session.slots.length ≤ 2 ^ 32 := hk.table.length_eq ▸ hn
  cases lab with
  | start x =>
      obtain rfl : _ = p' := Option.some.inj h
      exact hk.start x
  | act i a =>
      obtain ⟨c, s', c', hc, hm, rfl⟩ := Pool.step_act.mp h
      have hcall := hk.calls i c hc
      cases moves_of_move hm with
      | cancel e hph => exact hk.set htab hk.free trivial
      | takeToken hph hf =>
          refine hk.set htab hk.free ?_
          simpa only [Tracks, hph] using hcall
      | scan l t hph ht =>
          obtain ⟨hslot, -, -, rfl⟩ := Session.scan_eq_some hlen ht
          refine hk.set htab (fun k sl hsl hfree => ?_) ?_
          · rcases Pool.getElem?_set_cases hsl with ⟨-, rfl⟩ | ⟨-, hsl'⟩
            · simp at hfree
            · exact hk.free k sl hsl' hfree
          · have hseq := hk.free _ _ hslot rfl
            simp only [Tracks, hph] at hcall
            exact ⟨hcall, by simpa using hseq⟩
      | scanNone hph ht =>
          refine hk.set htab hk.free ?_
          simpa only [Tracks, hph] using hcall
      | putBack t hph ht =>
          obtain ⟨-, rfl⟩ := Session.putToken_eq_some.mp ht
          exact hk.set htab hk.free trivial
      | send l hph =>
          refine hk.set htab hk.free ?_
          simp only [Tracks, hph] at hcall ⊢
          simp [hcall.1, hcall.2]
      | done l reply out hph ha =>
          refine hk.set htab hk.free ⟨rfl, ?_⟩
          simpa only [Tracks, hph, hs.1, if_true] using hcall
      | fail l reply out hph ha =>
          have hadv := afterBase_of_isOk (hs.2 c hc)
          rw [ha] at hadv
          simp at hadv
      | releaseAgain l advance inDefer out hph hl =>
          refine hk.set htab hk.free ?_
          cases inDefer <;> simp [Tracks, afterRelease]
      | release l advance inDefer out hph hl =>
          simp only [Tracks, hph] at hcall
          obtain ⟨rfl, hseq⟩ := hcall
          have hslot := (hk.table.leases i c l hc (by rw [hph]; rfl)).slot
          refine hk.set htab (fun k sl hsl hfree => ?_) trivial
          rw [Session.release_eq true hslot] at hsl
          rcases Pool.getElem?_set_cases hsl with ⟨rfl, rfl⟩ | ⟨-, hsl'⟩
          · simpa using hseq
          · exact hk.free k sl hsl' hfree
      | sendToken l inDefer out hph hf =>
          refine hk.set htab hk.free ?_
          cases inDefer <;> simp [Tracks, afterRelease]
      | runDefer l advanced out hph =>
          simp only [Tracks, hph] at hcall
          subst hcall
          exact hk.set htab hk.free trivial

/-- The observer counts the lease of a call whose compound is with the base caller. -/
theorem Counts.use (hn : n ≤ 2 ^ 32) (hk : Counts n g used p) {i : ℕ}
    (hc : p.procs[i]? = some c) {l : SlotLease} (hph : c.phase = .inFlight l)
    (hu : used i = false) {g' : UInt32 → UInt32} (hself : g' l.slotID = g l.slotID + 1)
    (hother : ∀ k, k ≠ l.slotID → g' k = g k) :
    Counts n g' (Function.update used i true) p := by
  have hlive : c.phase.live = some l := by rw [hph]; rfl
  have hslot := (hk.table.leases i c l hc hlive).slot
  refine ⟨hk.table, fun k sl hsl hfree => ?_, fun j d hd => ?_, fun j hj => ?_⟩
  · -- the slot of the lease is in use, so it is not the free slot `k`
    rw [hother (UInt32.ofNat k) ?_]
    · exact hk.free k sl hsl hfree
    · intro heq
      have hlt := (List.getElem?_eq_some_iff.mp hsl).1
      have hkl : l.slotID.toNat = k := by
        rw [← heq]
        rw [hk.table.length_eq] at hlt
        exact UInt32.toNat_ofNat_of_lt (by rw [UInt32.size]; omega)
      rw [hkl, hsl, Option.some.injEq] at hslot
      rw [hslot] at hfree
      simp at hfree
  · by_cases hji : j = i
    · subst hji
      obtain rfl : c = d := Option.some.inj (hc.symm.trans hd)
      have hcall := hk.calls j c hc
      simp only [Tracks, hph, hu, Function.update_self, hself] at hcall ⊢
      rw [← hcall]
      simp
    · rw [Function.update_of_ne hji]
      have hcall := hk.calls j d hd
      -- the other calls hold other slots
      have hg : ∀ m, d.phase.live = some m → g' m.slotID = g m.slotID := fun m hm =>
        hother _ (hk.table.distinct j i d c m l hd hc hji hm hlive)
      unfold Tracks at hcall ⊢
      cases hphd : d.phase <;> simp only [hphd] at hcall ⊢ <;>
        first | exact hcall | (rw [hg _ (by rw [hphd]; rfl)]; exact hcall)
  · have hlt := (List.getElem?_eq_some_iff.mp hc).1
    rw [Function.update_of_ne (by omega)]
    exact hk.fresh j hj

end NfsClient.Nfs4.SlotTable
