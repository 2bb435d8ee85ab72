import NfsClient.Nfs4.SlotCount

/-!
# Reuse of a slot and sequence id

The server's reply cache identifies a request by its session, slot and sequence id.  The
client never uses a pair for two different requests as long as every base call returns
without an error and no slot wraps around: then the compounds sent on one slot carry the
sequence ids 1, 2, 3, ….

A base call that fails leaves the pair unadvanced and puts the slot back into the pool, where
the next call of any caller picks it up (`reused_after_error`).
-/

namespace NfsClient.Nfs4.SlotTable

open NfsClient.Lib

variable {n : ℕ} {p p' : State} {c : CallState}

/-- The compounds sent on a slot, oldest first. -/
def sentOn (p : State) (k : UInt32) : List (SequenceArgs × Compound) :=
  p.shared.sent.filter fun x => x.1.slotID = k

/-- Two compounds sent with the same session, slot and sequence id carry the same
operations. -/
def NamesOneRequest (p : State) : Prop :=
  ∀ x ∈ p.shared.sent, ∀ y ∈ p.shared.sent, x.1.sessionID = y.1.sessionID →
    x.1.slotID = y.1.slotID → x.1.sequenceID = y.1.sequenceID → x.2.ops = y.2.ops

/-- The condition on a step: a base call that returns has not failed, and a slot on which a
compound is sent has carried fewer than 2^32 compounds. -/
def NoRetry (p : State) : Label → Prop
  | .act i (.baseReturn reply) => ∀ c ∈ p.procs[i]?,
      (decodeReply (.sequence {} :: c.results) reply).2.isOk = true
  | .act i .send => ∀ c ∈ p.procs[i]?, ∀ l ∈ c.phase.live, (sentOn p l.slotID).length < 2 ^ 32
  | _ => True

instance (p : State) : ∀ lab, Decidable (NoRetry p lab)
  | .start _ | .act _ (.cancel _) | .act _ .takeToken | .act _ .scan | .act _ .putBack
  | .act _ .release | .act _ .sendToken | .act _ .runDefer => inferInstanceAs (Decidable True)
  | .act i (.baseReturn reply) =>
      inferInstanceAs (Decidable (∀ c ∈ p.procs[i]?,
        (decodeReply (.sequence {} :: c.results) reply).2.isOk = true))
  | .act i .send =>
      inferInstanceAs (Decidable (∀ c ∈ p.procs[i]?, ∀ l ∈ c.phase.live,
        (sentOn p l.slotID).length < 2 ^ 32))

/-- The sequence id that a slot is at, by the number of compounds sent on it. -/
def nextSeq (p : State) (k : UInt32) : UInt32 := UInt32.ofNat (1 + (sentOn p k).length)

/-- The invariant: the slots agree with the number of compounds sent on them, exactly the
leases of calls whose compound was sent have been counted, and the compounds on one slot
carry consecutive ids. -/
structure Fresh (n : ℕ) (p : State) : Prop where
  counts : ∃ used, Counts n (nextSeq p) used p ∧
    ∀ (i : ℕ) (c : CallState) (l : SlotLease), p.procs[i]? = some c → c.phase = .inFlight l →
      used i = true
  ids : ∀ (k : UInt32) (j : ℕ) (x : SequenceArgs × Compound), (sentOn p k)[j]? = some x →
    x.1.sequenceID = UInt32.ofNat (1 + j)
  bounded : ∀ k : UInt32, (sentOn p k).length ≤ 2 ^ 32

lemma Fresh.namesOneRequest (hf : Fresh n p) : NamesOneRequest p := by
  intro x hx y hy _ hslot hseq
  have hx' : x ∈ sentOn p x.1.slotID := List.mem_filter.mpr ⟨hx, by simp⟩
  have hy' : y ∈ sentOn p x.1.slotID := List.mem_filter.mpr ⟨hy, by simp [hslot]⟩
  obtain ⟨i, hi⟩ := List.mem_iff_getElem?.mp hx'
  obtain ⟨j, hj⟩ := List.mem_iff_getElem?.mp hy'
  have hilt := (List.getElem?_eq_some_iff.mp hi).1
  have hjlt := (List.getElem?_eq_some_iff.mp hj).1
  have hb := hf.bounded x.1.slotID
  -- fewer than 2^32 ids in a row are pairwise different
  have hij : i = j := by
    rw [hf.ids _ i x hi, hf.ids _ j y hj] at hseq
    have := congrArg UInt32.toNat hseq
    simp only [UInt32.toNat_ofNat'] at this
    omega
  subst hij
  rw [hi, Option.some.injEq] at hj
  rw [hj]

lemma initial_fresh (id : SessionID) (hn : 1 ≤ n) : Fresh n (initial id n) := by
  refine ⟨⟨fun _ => false, initial_counts id hn, ?_⟩, ?_, ?_⟩
  · intro i c l hc
    simp [initial] at hc
  · intro k j x hx
    simp [sentOn, initial] at hx
  · intro k
    simp [sentOn, initial]

/-- Only `send` hands a compound to the base caller. -/
lemma move_of_ne_send {s s' : Shared} {c c' : CallState} {a : Action}
    (h : move s c a = some (s', c')) (ha : a ≠ .send) :
    s'.sent = s.sent ∧ ∀ l, c'.phase ≠ .inFlight l := by
  cases moves_of_move h with
  | send l hph => exact absurd rfl ha
  | releaseAgain l advance inDefer out hph hl =>
      exact ⟨rfl, fun l => by cases inDefer <;> simp [afterRelease]⟩
  | sendToken l inDefer out hph hf =>
      exact ⟨rfl, fun l => by cases inDefer <;> simp [afterRelease]⟩
  | runDefer l advanced out hph => exact ⟨rfl, fun l => by cases advanced <;> simp⟩
  | _ => exact ⟨rfl, fun l => by simp⟩

/-- The base call that returns in a step is one that was counted. -/
lemma succeeds_of_noRetry {used : ℕ → Bool} {i : ℕ} {a : Action} {s' : Shared} {c' : CallState}
    (hm : move p.shared c a = some (s', c'))
    (hu : ∀ l, c.phase = .inFlight l → used i = true) (ha : NoRetry p (.act i a)) :
    Succeeds used p (.act i a) := by
  cases moves_of_move hm with
  | done l reply out hph _ => exact ⟨hu l hph, ha⟩
  | fail l reply out hph _ => exact ⟨hu l hph, ha⟩
  | _ => trivial

/-- A step that sends nothing. -/
lemma Fresh.quiet (hn : n ≤ 2 ^ 32) (hf : Fresh n p) {lab : Label}
    (hs : ∀ used, Counts n (nextSeq p) used p → (∀ (i : ℕ) (c : CallState) (l : SlotLease),
      p.procs[i]? = some c → c.phase = .inFlight l → used i = true) → Succeeds used p lab)
    (h : step p lab = some p') (hsent : p'.shared.sent = p.shared.sent)
    (hph : ∀ (i : ℕ) (c : CallState) (l : SlotLease), p'.procs[i]? = some c →
      c.phase = .inFlight l → p.procs[i]? = some c) : Fresh n p' := by
  obtain ⟨used, hk, hu⟩ := hf.counts
  have hon : sentOn p' = sentOn p := by
    funext k
    rw [sentOn, hsent, sentOn]
  have hnext : nextSeq p' = nextSeq p := by
    funext k
    rw [nextSeq, hon, nextSeq]
  refine ⟨⟨used, ?_, ?_⟩, ?_, ?_⟩
  · rw [hnext]
    exact hk.step hn (hs used hk hu) h
  · exact fun i c l hc hl => hu i c l (hph i c l hc hl) hl
  · rw [hon]
    exact hf.ids
  · rw [hon]
    exact hf.bounded

/-- A step that sends a compound. -/
lemma Fresh.send (hn : n ≤ 2 ^ 32) (hf : Fresh n p) {i : ℕ} (hc : p.procs[i]? = some c)
    {l : SlotLease} (hph : c.phase = .leased l) (hlt : (sentOn p l.slotID).length < 2 ^ 32)
    (h : step p (.act i .send) =
      some ⟨{ p.shared with sent := p.shared.sent ++ [(p.shared.session.sequenceArgs l, c.comp)] },
        p.procs.set i { c with phase := .inFlight l }⟩) :
    Fresh n ⟨{ p.shared with
        sent := p.shared.sent ++ [(p.shared.session.sequenceArgs l, c.comp)] },
      p.procs.set i { c with phase := .inFlight l }⟩ := by
  obtain ⟨used, hk, hu⟩ := hf.counts
  have hcall := hk.calls i c hc
  simp only [Tracks, hph] at hcall
  obtain ⟨hunused, hseq⟩ := hcall
  have hs : Succeeds used p (.act i .send) := trivial
  have hk' := hk.step hn hs h
  set p' : State := ⟨{ p.shared with
      sent := p.shared.sent ++ [(p.shared.session.sequenceArgs l, c.comp)] },
    p.procs.set i { c with phase := .inFlight l }⟩ with hp'
  have hself : sentOn p' l.slotID =
      sentOn p l.slotID ++ [(p.shared.session.sequenceArgs l, c.comp)] := by
    simp [sentOn, hp', Session.sequenceArgs]
  have hother : ∀ k, k ≠ l.slotID → sentOn p' k = sentOn p k := by
    intro k hkl
    simp [sentOn, hp', Session.sequenceArgs, Ne.symm hkl]
  have hi : p'.procs[i]? = some { c with phase := .inFlight l } := by
    simp [hp', (List.getElem?_eq_some_iff.mp hc).1]
  refine ⟨⟨Function.update used i true, ?_, ?_⟩, ?_, ?_⟩
  · -- the lease is counted in the step that sends the compound
    refine hk'.use hn hi rfl hunused ?_ ?_
    · rw [nextSeq, hself, List.length_append, nextSeq, List.length_singleton, ← Nat.add_assoc,
        UInt32.ofNat_add]
      rfl
    · intro k hkl
      rw [nextSeq, hother k hkl, nextSeq]
  · intro j d m hd hm
    rcases Pool.getElem?_set_cases hd with ⟨rfl, -⟩ | ⟨hji, hd'⟩
    · exact Function.update_self ..
    · rw [Function.update_of_ne hji]
      exact hu j d m hd' hm
  · intro k j x hx
    by_cases hkl : k = l.slotID
    · subst hkl
      rw [hself] at hx
      rcases Pool.getElem?_snoc_cases hx with hx' | ⟨rfl, rfl⟩
      · exact hf.ids _ j x hx'
      · exact hseq
    · rw [hother k hkl] at hx
      exact hf.ids k j x hx
  · intro k
    by_cases hkl : k = l.slotID
    · subst hkl
      rw [hself, List.length_append]
      exact hlt
    · rw [hother k hkl]
      exact hf.bounded k

lemma fresh_step (hn : n ≤ 2 ^ 32) {lab : Label} (hf : Fresh n p) (ha : NoRetry p lab)
    (h : step p lab = some p') : Fresh n p' := by
  cases lab with
  | start x =>
      have hs : ∀ used, Succeeds used p (.start x) := fun _ => trivial
      refine hf.quiet hn (fun used _ _ => hs used) h ?_ ?_
      · obtain rfl : _ = p' := Option.some.inj h
        rfl
      · obtain rfl : _ = p' := Option.some.inj h
        intro i c l hc hl
        rcases Pool.getElem?_snoc_cases hc with hc' | ⟨-, rfl⟩
        · exact hc'
        · simp [newCall] at hl
  | act i a =>
      obtain ⟨c, s', c', hc, hm, rfl⟩ := Pool.step_act.mp h
      by_cases hsend : a = .send
      · subst hsend
        cases moves_of_move hm with
        | send l hph => exact hf.send hn hc hph (ha c hc l (by rw [hph]; rfl)) h
      · obtain ⟨hsent, hnot⟩ := move_of_ne_send hm hsend
        refine hf.quiet hn (fun used _ hu => ?_) h hsent ?_
        · exact succeeds_of_noRetry hm (fun l hl => hu i c l hc hl) ha
        · intro j d l hd hl
          rcases Pool.getElem?_set_cases hd with ⟨-, rfl⟩ | ⟨-, hd'⟩
          · exact absurd hl (hnot l)
          · exact hd'

/-- **A pair names one request.**  In every run in which no base call fails and no slot carries
more than 2^32 compounds, in every state reached. -/
theorem namesOneRequest_of_noRetry (hn : 1 ≤ n) (hn' : n ≤ 2 ^ 32) (id : SessionID)
    (ls : List Label) (ha : Along step NoRetry (initial id n) ls)
    (h : run step (initial id n) ls = some p) : NamesOneRequest p :=
  (run_invariant (fun _ _ _ hf ha hs => fresh_step hn' hf ha hs) (initial_fresh id hn) ha
    h).namesOneRequest

/-- Two calls, one after the other on the only slot, each removing a file of its own; `after`
is what happens to the first one once its compound is sent. -/
def twoRemoves (after : List Label) : List Label :=
  [.start ((newCompound []).add (.remove [97]), [.remove {}]), .act 0 .takeToken, .act 0 .scan,
    .act 0 .send] ++ after ++
  [.start ((newCompound []).add (.remove [98]), [.remove {}]), .act 1 .takeToken, .act 1 .scan,
    .act 1 .send]

/-- The reply arrives. -/
def answered : List Label :=
  [.act 0 (.baseReturn (.ok (replyBytes nfs4Ok [⟨opSequence, nfs4Ok, List.replicate 36 0⟩]))),
    .act 0 .release, .act 0 .sendToken, .act 0 .runDefer]

/-- The reply is lost. -/
def lost : List Label :=
  [.act 0 (.baseReturn (.error .eof)), .act 0 .runDefer, .act 0 .release, .act 0 .sendToken]

theorem namesOneRequest_twoRemoves :
    ∃ p, run step (initial (ByteArr.zero 16) 1) (twoRemoves answered) = some p ∧
      NamesOneRequest p :=
  ⟨_, rfl, namesOneRequest_of_noRetry (n := 1) (by decide) (by decide) (ByteArr.zero 16)
    (twoRemoves answered) (by decide) rfl⟩

/-- The second call sends another operation under the pair of the request that got lost. -/
theorem reused_after_error :
    ∃ p, run step (initial (ByteArr.zero 16) 1) (twoRemoves lost) = some p ∧
      ¬ NamesOneRequest p := by
  refine ⟨_, rfl, fun h => ?_⟩
  have := h (⟨ByteArr.zero 16, 1, 0, 0, false⟩, (newCompound []).add (.remove [97])) (by decide)
    (⟨ByteArr.zero 16, 1, 0, 0, false⟩, (newCompound []).add (.remove [98])) (by decide) rfl rfl rfl
  exact absurd this (by decide)

end NfsClient.Nfs4.SlotTable
