import NfsClient.Nfs4.Decoders

/-!
# Conforming replies

A conforming reply shows at most one failure, in its last resop, and says so in its overall
status.  When such a reply is retried, the result it shows as put off is the last one; so a
decoder that keeps part of what it held and that stands at the end of its compound has not
stored a success before the reply that is not retried.
-/

namespace NfsClient.Nfs4

open NfsClient.Xdr

/-! ## Conforming replies -/

/-- A conforming reply to a compound, with the given overall status: it has at least one resop,
its resops are all NFS4_OK except possibly the last, its status is that of the last resop, and
it answers every operation if its status is NFS4_OK. -/
def Conforming (c : Compound) (b : Bytes) (st : Status) : Prop :=
  ∃ r sts, parseReply (c.ops.map Arg.decoder) b = some (r, sts) ∧ r.status = st ∧
    sts.getLast? = some st ∧ (∀ s ∈ sts.dropLast, s = nfs4Ok) ∧
    (st = nfs4Ok → sts.length = c.ops.length)

/-- Whether a reply conforms depends on the decoders of the compound alone. -/
lemma Conforming.congr {c c' : Compound} {b : Bytes} {st : Status} (h : Conforming c b st)
    (hdec : c.ops.map Arg.decoder = c'.ops.map Arg.decoder) : Conforming c' b st := by
  obtain ⟨r, sts, hparse, hst, hlast, hoks, hfull⟩ := h
  have hlen : c.ops.length = c'.ops.length := by simpa using congrArg List.length hdec
  exact ⟨r, sts, hdec ▸ hparse, hst, hlast, hoks, fun hok => (hfull hok).trans hlen⟩

/-- The only status that is not NFS4_OK is the last one. -/
lemma eq_of_firstBad {sts : List Status} {st q : Status} {k : ℕ} (hlast : sts.getLast? = some st)
    (hoks : ∀ s ∈ sts.dropLast, s = nfs4Ok) (hq : firstBad (sts.take k) = some q) :
    q = st ∧ st ≠ nfs4Ok := by
  have hne : q ≠ nfs4Ok := by simpa using List.find?_some hq
  have hmem : q ∈ sts := List.mem_of_mem_take (List.mem_of_find?_eq_some hq)
  rw [← List.dropLast_append_getLast? st hlast, List.mem_append, List.mem_singleton] at hmem
  rcases hmem with hmem | rfl
  · exact absurd (hoks q hmem) hne
  · exact ⟨rfl, hne⟩

/-- **A conforming reply at the caller.**  The outcome is an error that carries the status of
the reply, or a result with that status in which the first operation is answered. -/
lemma Conforming.decoded {ids : List SessionID} {comp c : Compound} {rs₀ : List Res} {b : Bytes}
    {st : Status} (h : Conforming c b st) (hc : Prefixed ids comp c)
    (hrs : kinds rs₀ = comp.ops.map Arg.decoder) (hne : comp.ops ≠ []) :
    ∃ (ds : List Decoder) (o : Except Err CompoundResult),
      (∀ rs, kinds rs = kinds rs₀ →
        unwrap ids.length (decodeReply (sequenceDecoders ids.length rs) (.ok b))
          = (decodeAll ds rs, o)) ∧
      ds.length ≤ rs₀.length ∧ (∀ s, (ds.map statusAt).getLast? = some s → s = st) ∧
      (st = nfs4Ok → ds.length = rs₀.length ∧ ∀ s ∈ ds.map statusAt, s = nfs4Ok) ∧
      ((∃ e, o = .error e ∧ e.asStatus = some st ∧ st ≠ nfs4Ok) ∨
        ∃ r, o = .ok r ∧ r.status = st ∧ ds ≠ []) := by
  obtain ⟨r, sts, hparse, rfl, hlast, hoks, hfull⟩ := h
  have hself := reply?_of_prefixed (b := b) hc hrs
  rw [Event.reply?, hparse] at hself
  have hp := hself.symm
  obtain ⟨hds, o, hall⟩ := unwrap_eq_decodeAll hp
  generalize (places (sequenceDecoders ids.length rs₀) b).drop ids.length = ds at hds hall
  obtain ⟨rs', o', hu, -, -, hbad, hgood⟩ := unwrap_of_parseReply hp
  rw [hall rs₀ rfl] at hu
  obtain rfl : o = o' := congrArg Prod.snd hu
  have hclen : c.ops.length = ids.length + rs₀.length := by
    obtain ⟨args, rfl, hops⟩ := hc
    have := congrArg List.length hrs
    rw [length_kinds, List.length_map] at this
    simp [hops, this]
  have hslen : sts.length ≤ c.ops.length := by
    obtain ⟨-, hn, hle, -⟩ := decodeCompound_of_parseReply hparse
    rw [List.length_map] at hle
    omega
  have hdlen : ds.length = sts.length - ids.length := by
    rw [← List.length_map statusAt, hds, List.length_drop]
  have hmem : r.status ∈ sts := List.mem_of_getLast? hlast
  have hsplit : sts.dropLast ++ [r.status] = sts := List.dropLast_append_getLast? _ hlast
  refine ⟨ds, o, hall, by omega, ?_, ?_, ?_⟩
  · intro s hs
    rw [hds, List.getLast?_drop, hlast] at hs
    split at hs
    · simp at hs
    · exact (Option.some.inj hs).symm
  · intro hst
    have hlen := hfull hst
    refine ⟨by omega, fun s hs => ?_⟩
    rw [hds] at hs
    have hs' := List.mem_of_mem_drop hs
    rw [← hsplit, List.mem_append, List.mem_singleton] at hs'
    rcases hs' with hs' | rfl
    · exact hoks s hs'
    · exact hst
  · cases hq : firstBad (sts.take ids.length) with
    | some q =>
        obtain ⟨e, he, hst⟩ := hbad q hq
        obtain ⟨rfl, hne⟩ := eq_of_firstBad hlast hoks hq
        exact .inl ⟨e, he, hst, hne⟩
    | none =>
        obtain ⟨r', hr', hst⟩ := hgood hq
        refine .inr ⟨r', hr', hst, ?_⟩
        -- otherwise all the resops are SEQUENCE results, and the reply is complete
        rintro rfl
        have hle : sts.length ≤ ids.length := Nat.sub_eq_zero_iff_le.mp hdlen.symm
        rw [List.take_of_length_le hle, firstBad_eq_none] at hq
        have hlen := hfull (hq _ hmem)
        have : rs₀.length ≠ 0 := by
          rw [← length_kinds, hrs, List.length_map]
          simpa using hne
        omega

/-! ## Retries -/

/-- The compounds sent, with their replies. -/
def callsOf (es : List Event) : List Event := es.filter Event.isCall

lemma callsOf_of_no_call {es : List Event} (h : ∀ ev ∈ es, ev.isCall = false) :
    callsOf es = [] := by
  simpa [callsOf] using h

/-- The one compound of an attempt, and those of what follows. -/
lemma callsOf_replied {es : List Event} (hes : ∀ ev ∈ es, ev.isCall = false) (c : Compound)
    (reply : Except Err Bytes) (es' : List Event) :
    callsOf (.ctxErr none :: (es ++ [.call c reply]) ++ es') = .call c reply :: callsOf es' := by
  have hnil := callsOf_of_no_call hes
  simp only [callsOf] at hnil ⊢
  simp [hnil, Event.isCall, List.filter_cons]

/-- The compounds sent were answered by conforming replies with NFS4ERR_DELAY or NFS4ERR_GRACE,
and then by the conforming reply `b` with another status. -/
def RetriedUntil (b : Bytes) (es : List Event) : Prop :=
  ∃ evs c, callsOf es = evs ++ [.call c (.ok b)] ∧
    (∀ ev ∈ evs, ∃ c' b' st, ev = .call c' (.ok b') ∧ Conforming c' b' st ∧
      isRetriableStatus st = true) ∧
    ∃ st, Conforming c b st ∧ isRetriableStatus st = false

/-- No decoder keeps part of what it held, except possibly the last. -/
def KeepsLast (ops : List Arg) : Prop := ∀ r ∈ (ops.map Arg.decoder).dropLast, r.keeps = false

section Calls

variable {ids : List SessionID} {comp c : Compound} {rs : List Res} {b : Bytes} {st : Status}

/-- Whether a conforming reply is retried. -/
lemma Conforming.retriable_eq (h : Conforming c b st) (hc : Prefixed ids comp c)
    (hrs : kinds rs = comp.ops.map Arg.decoder) (hne : comp.ops ≠ []) :
    retriable (unwrap ids.length (decodeReply (sequenceDecoders ids.length rs) (.ok b))).2
      = isRetriableStatus st := by
  obtain ⟨ds, o, hall, -, -, -, ho⟩ := h.decoded hc hrs hne
  rw [hall rs rfl]
  rcases ho with ⟨e, rfl, he, -⟩ | ⟨r, rfl, rfl, -⟩
  · simp [retriable, errorHasStatus, he, isRetriableStatus, beq_eq_decide]
  · rfl

/-- A retried reply leaves clean decoders clean. -/
lemma Conforming.clean (h : Conforming c b st) (hst : isRetriableStatus st = true)
    (hc : Prefixed ids comp c) (hrs : kinds rs = comp.ops.map Arg.decoder) (hne : comp.ops ≠ [])
    (hkeeps : KeepsLast comp.ops) (hclean : ∀ r ∈ rs, r.Clean) :
    let rs' := (unwrap ids.length (decodeReply (sequenceDecoders ids.length rs) (.ok b))).1
    kinds rs' = kinds rs ∧ ∀ r ∈ rs', r.Clean := by
  obtain ⟨ds, o, hall, hlen, hlast, -, -⟩ := h.decoded hc hrs hne
  rw [hall rs rfl]
  refine ⟨kinds_decodeAll ds rs, clean_decodeAll hlen ?_ hclean ?_⟩
  · intro r hr
    have hmem : r.fresh ∈ (comp.ops.map Arg.decoder).dropLast := by
      rw [← hrs, kinds, ← List.map_dropLast]
      exact List.mem_map_of_mem hr
    rw [← Res.keeps_fresh]
    exact hkeeps _ hmem
  · intro s hs
    rwa [hlast s hs]

/-- The first compound of a retried call: it is the last one too, or its reply is retried. -/
lemma RetriedUntil.first {es es' : List Event} {c₀ : Compound} {reply₀ : Except Err Bytes}
    (h : RetriedUntil b es) (hes : callsOf es = .call c₀ reply₀ :: callsOf es') :
    (reply₀ = .ok b ∧ callsOf es' = [] ∧
        ∃ st, Conforming c₀ b st ∧ isRetriableStatus st = false) ∨
      (∃ b' st, reply₀ = .ok b' ∧ Conforming c₀ b' st ∧ isRetriableStatus st = true) ∧
        RetriedUntil b es' := by
  obtain ⟨evs, c, hcalls, hevs, hlast⟩ := h
  rw [hes] at hcalls
  cases evs with
  | nil =>
      obtain ⟨heq, hnil⟩ := List.cons.inj hcalls
      obtain ⟨rfl, rfl⟩ := Event.call.inj heq
      exact .inl ⟨rfl, hnil, hlast⟩
  | cons ev evs =>
      obtain ⟨rfl, hrest⟩ := List.cons.inj hcalls
      obtain ⟨c', b', st, heq, hconf, hst⟩ := hevs (.call c₀ reply₀) (by simp)
      obtain ⟨rfl, rfl⟩ := Event.call.inj heq
      exact .inr ⟨⟨b', st, rfl, hconf, hst⟩, evs, c, hrest,
        fun ev hev => hevs ev (by simp [hev]), hlast⟩

lemma not_retriedUntil {es : List Event} (hes : callsOf es = []) : ¬ RetriedUntil b es := by
  rintro ⟨evs, c, hcalls, -⟩
  simp [hes] at hcalls

/-- One attempt of a retried call: its reply is the last one and ends the call, or the rest of
the call is retried in turn, with decoders that are as clean as they were. -/
lemma RetriedUntil.attempt {es es' : List Event} {out : Outcome}
    (h : RetriedUntil b (.ctxErr none :: es ++ es')) (hatt : Attempt ids comp rs es out)
    (hrs : kinds rs = comp.ops.map Arg.decoder) (hne : comp.ops ≠ []) (hkeeps : KeepsLast comp.ops)
    (hclean : ∀ r ∈ rs, r.Clean) :
    (retriable out.2 = false ∧ ∃ c st, Prefixed ids comp c ∧ Conforming c b st ∧
        isRetriableStatus st = false ∧
        out = unwrap ids.length (decodeReply (sequenceDecoders ids.length rs) (.ok b))) ∨
      (RetriedUntil b es' ∧ kinds out.1 = kinds rs ∧ ∀ r ∈ out.1, r.Clean) := by
  cases hatt with
  | aborted e hids hes =>
      have hcalls : callsOf (.ctxErr none :: es ++ es') = callsOf es' := by
        have hnil := callsOf_of_no_call hes
        simp only [callsOf] at hnil ⊢
        simp [hnil, Event.isCall]
      obtain ⟨evs, c, hevs, hrest⟩ := h
      exact .inr ⟨⟨evs, c, hcalls ▸ hevs, hrest⟩, rfl, hclean⟩
  | @replied es c reply hes hc =>
      rcases h.first (callsOf_replied hes c reply es') with
        ⟨rfl, -, st, hconf, hst⟩ | ⟨⟨b', st, rfl, hconf, hst⟩, hrest⟩
      · refine .inl ⟨?_, c, st, hc, hconf, hst, rfl⟩
        rw [hconf.retriable_eq hc hrs hne, hst]
      · exact .inr ⟨hrest, hconf.clean hst hc hrs hne hkeeps hclean⟩

/-- **A retried call.**  Its outcome is that of the last reply, read by clean decoders. -/
theorem Transcript.of_retriedUntil {es : List Event} {out : Outcome}
    (htr : Transcript ids comp rs es out) (hrs : kinds rs = comp.ops.map Arg.decoder)
    (hne : comp.ops ≠ []) (hkeeps : KeepsLast comp.ops) (hclean : ∀ r ∈ rs, r.Clean)
    (hcalls : RetriedUntil b es) :
    ∃ rs₁ c st, kinds rs₁ = kinds rs ∧ (∀ r ∈ rs₁, r.Clean) ∧ Prefixed ids comp c ∧
      Conforming c b st ∧ isRetriableStatus st = false ∧
      out = unwrap ids.length (decodeReply (sequenceDecoders ids.length rs₁) (.ok b)) := by
  induction htr with
  | stopped e err => exact absurd hcalls (not_retriedUntil rfl)
  | @final rs es out hatt hr =>
      rw [← List.append_nil (.ctxErr none :: es)] at hcalls
      rcases hcalls.attempt hatt hrs hne hkeeps hclean with
        ⟨-, c, st, hc, hconf, hst, hout⟩ | ⟨hrest, -⟩
      · exact ⟨rs, c, st, rfl, hclean, hc, hconf, hst, hout⟩
      · exact absurd hrest (not_retriedUntil rfl)
  | @exhausted rs es out hatt hr =>
      rw [← List.append_nil (.ctxErr none :: es)] at hcalls
      rcases hcalls.attempt hatt hrs hne hkeeps hclean with ⟨hr', -⟩ | ⟨hrest, -⟩
      · exact absurd hr (by simp [hr'])
      · exact absurd hrest (not_retriedUntil rfl)
  | @interrupted rs es out hatt hr d e =>
      rcases hcalls.attempt hatt hrs hne hkeeps hclean with ⟨hr', -⟩ | ⟨hrest, -⟩
      · exact absurd hr (by simp [hr'])
      · exact absurd hrest (not_retriedUntil rfl)
  | @again rs es es' out out' hatt hr d _ ih =>
      rcases hcalls.attempt hatt hrs hne hkeeps hclean with
        ⟨hr', -⟩ | ⟨hrest, hkinds, hclean'⟩
      · exact absurd hr (by simp [hr'])
      · -- the backoff is no call
        obtain ⟨rs₁, c₁, st₁, hk₁, hlast⟩ := ih (hkinds.trans hrs) hclean' hrest
        exact ⟨rs₁, c₁, st₁, hk₁.trans hkinds, hlast⟩

end Calls

end NfsClient.Nfs4
