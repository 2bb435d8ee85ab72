import NfsClient.Nfs4.EnvRun

/-!
# Replaying a call

All that a call learns about its environment is in the events that it logs.  So a second
environment, over any other state, that gives the same answers in the same order makes the same
call: it returns the same outcome and leaves the same sessions and the same log.
-/

namespace NfsClient.Nfs4

variable {W W' β γ : Type}

/-- The same sessions and log, with the state of another environment. -/
def Net.withWorld (n : Net W) (w : W') : Net W' where
  world := w
  sessions := n.sessions
  log := n.log

/-- From `n`, the second computation does what the first does, if its environment gives the
answers that the first has logged. -/
def Replays (E' : Env W') (f : Net W → β × Net W) (f' : Net W' → β × Net W') (n : Net W) : Prop :=
  ∃ es, (f n).2.log = n.log ++ es ∧ ∀ w w₁, EnvRun E' w es w₁ →
    f' (n.withWorld w) = ((f n).1, (f n).2.withWorld w₁)

variable {E : Env W} {E' : Env W'}

namespace Replays

lemma pure (b : β) (n : Net W) :
    Replays E' (fun n : Net W => (b, n)) (fun n : Net W' => (b, n)) n := by
  refine ⟨[], (List.append_nil _).symm, ?_⟩
  rintro w w₁ rfl
  rfl

/-- One computation after the other. -/
lemma bind {f : Net W → β × Net W} {f' : Net W' → β × Net W'} {n : Net W}
    (hf : Replays E' f f' n) (g : β → Net W → γ × Net W) (g' : β → Net W' → γ × Net W')
    (hg : Replays E' (g (f n).1) (g' (f n).1) (f n).2) :
    Replays E' (fun n => g (f n).1 (f n).2) (fun n => g' (f' n).1 (f' n).2) n := by
  obtain ⟨es, hlog, hrep⟩ := hf
  obtain ⟨es', hlog', hrep'⟩ := hg
  refine ⟨es ++ es', by rw [hlog', hlog, List.append_assoc], fun w w₁ hrun => ?_⟩
  obtain ⟨w₂, hrun₁, hrun₂⟩ := envRun_append.mp hrun
  simp only [hrep w w₂ hrun₁]
  exact hrep' w₂ w₁ hrun₂

end Replays

section RetryLoop

variable {cfg : RetryConfig} {call : Call W} {call' : Call W'}

/-- An attempt of the retry caller, up to the backoff. -/
lemma replays_attempt (hcall : ∀ rs n, Replays E' (call rs) (call' rs) n) {rs : List Res}
    {out : Outcome} {n n₁ : Net W} {w : W} (h : call rs (n.push (.ctxErr none) w) = (out, n₁)) :
    ∃ es, n₁.log = n.log ++ es ∧ ∀ w w₁, EnvRun E' w es w₁ → ∃ w₂, E'.ctxErr w = (none, w₂) ∧
      call' rs ((n.withWorld w).push (.ctxErr none) w₂) = (out, n₁.withWorld w₁) := by
  obtain ⟨es, hlog, hrep⟩ := hcall rs (n.push (.ctxErr none) w)
  rw [h] at hlog hrep
  refine ⟨.ctxErr none :: es, by rw [hlog]; simp [Net.push], ?_⟩
  rintro w₀ w₁ ⟨w₂, hctx, hrun⟩
  exact ⟨w₂, hctx, hrep w₂ w₁ hrun⟩

/-- The loop of the retry caller over calls that can be replayed. -/
lemma replays_retryLoop (hcall : ∀ rs n, Replays E' (call rs) (call' rs) n) (left : ℕ)
    (delay : Int64) (lastErr : Option Err) (rs : List Res) (n : Net W) :
    Replays E' (retryLoop E cfg call left delay lastErr rs)
      (retryLoop E' cfg call' left delay lastErr rs) n := by
  induction left using Nat.strong_induction_on generalizing delay lastErr rs n with
  | _ left ih =>
      unfold Replays
      rcases hctx : E.ctxErr n.world with ⟨_ | e, w⟩
      · rcases hc : call rs (n.push (.ctxErr none) w) with ⟨⟨rs₁, out⟩, n₁⟩
        obtain ⟨es, hlog, hrep⟩ := replays_attempt hcall hc
        cases hr : retriable out with
        | false =>
            rw [retryLoop_final hctx hc hr]
            refine ⟨es, hlog, fun w₀ w₁ hrun => ?_⟩
            obtain ⟨w₂, hctx', hc'⟩ := hrep w₀ w₁ hrun
            exact retryLoop_final hctx' hc' hr
        | true =>
            cases left with
            | zero =>
                rw [retryLoop_exhausted hctx hc hr]
                refine ⟨es, hlog, fun w₀ w₁ hrun => ?_⟩
                obtain ⟨w₂, hctx', hc'⟩ := hrep w₀ w₁ hrun
                exact retryLoop_exhausted hctx' hc' hr
            | succ left =>
                rcases hs : E.sleep delay n₁.world with ⟨_ | e, w₁⟩
                · obtain ⟨es', hlog', hrep'⟩ := ih left (Nat.lt_succ_self left)
                    (nextDelay cfg delay) (errOf out) rs₁ (n₁.push (.sleep delay none) w₁)
                  rw [retryLoop_again hctx hc hr hs]
                  refine ⟨es ++ .sleep delay none :: es', ?_, fun w₀ w₃ hrun => ?_⟩
                  · rw [hlog']
                    simp [Net.push, hlog]
                  · obtain ⟨w₄, hrun₁, w₅, hs', hrun₂⟩ := envRun_append.mp hrun
                    obtain ⟨w₂, hctx', hc'⟩ := hrep w₀ w₄ hrun₁
                    rw [retryLoop_again hctx' hc' hr hs']
                    exact hrep' w₅ w₃ hrun₂
                · rw [retryLoop_interrupted hctx hc hr hs]
                  refine ⟨es ++ [.sleep delay (some e)], by simp [Net.push, hlog], ?_⟩
                  intro w₀ w₃ hrun
                  obtain ⟨w₄, hrun₁, w₅, hs', rfl⟩ := envRun_append.mp hrun
                  obtain ⟨w₂, hctx', hc'⟩ := hrep w₀ w₄ hrun₁
                  exact retryLoop_interrupted hctx' hc' hr hs'
      · rw [retryLoop_stopped hctx]
        refine ⟨[.ctxErr (some e)], rfl, ?_⟩
        rintro w₀ w₁ ⟨w₂, hctx', rfl⟩
        exact retryLoop_stopped hctx'

end RetryLoop

lemma callCompound_transport {comp : Compound} {rs : List Res} {n : Net W}
    {reply : Except Err Bytes} {w : W} (h : E.base comp n.world = (reply, w)) :
    Caller.rpc.callCompound E comp rs n
      = (decodeReply rs reply, n.push (.call comp reply) w) := by
  simp only [Caller.callCompound, h]

/-- **A call is replayed from its events.** -/
theorem replays_callCompound (caller : Caller) (comp : Compound) (rs : List Res) (n : Net W) :
    Replays E' (caller.callCompound E comp rs) (caller.callCompound E' comp rs) n := by
  induction caller generalizing comp rs n with
  | rpc =>
      rcases hb : E.base comp n.world with ⟨reply, w⟩
      unfold Replays
      rw [callCompound_transport hb]
      refine ⟨[.call comp reply], rfl, ?_⟩
      rintro w₀ w₁ ⟨w₂, hb', rfl⟩
      exact callCompound_transport hb'
  | retry base cfg ih => exact replays_retryLoop (fun rs n => ih comp rs n) _ _ _ rs n
  | session base p ih =>
      rcases hs : E.select n.world with ⟨_ | e, w⟩
      · rcases ht : ((n.push (.select none) w).session p).takeToken with _ | s₁
        · unfold Replays
          rw [callCompound_no_token hs ht]
          refine ⟨[.select none], rfl, ?_⟩
          rintro w₀ w₁ ⟨w₂, hs', rfl⟩
          exact callCompound_no_token hs' ht
        · rcases hc : s₁.scan with _ | ⟨l, s₂⟩
          · unfold Replays
            rw [callCompound_no_slot hs ht hc]
            refine ⟨[.select none], rfl, ?_⟩
            rintro w₀ w₁ ⟨w₂, hs', rfl⟩
            exact callCompound_no_slot hs' ht hc
          · obtain ⟨es, hlog, hrep⟩ := ih (wrapCompound (s₂.sequenceArgs l) comp)
              (.sequence {} :: rs) ((n.push (.select none) w).setSession p s₂)
            rcases hb : base.callCompound E (wrapCompound (s₂.sequenceArgs l) comp)
              (.sequence {} :: rs) ((n.push (.select none) w).setSession p s₂) with ⟨out, n₂⟩
            rw [hb] at hlog hrep
            unfold Replays
            rw [callCompound_leased hs ht hc hb]
            refine ⟨.select none :: es, ?_, ?_⟩
            · show n₂.log = _
              rw [hlog]
              simp [Net.push, Net.setSession]
            · rintro w₀ w₁ ⟨w₂, hs', hrun⟩
              exact callCompound_leased (E := E') (n := n.withWorld w₀) hs' ht hc (hrep w₂ w₁ hrun)
      · unfold Replays
        rw [callCompound_cancelled hs]
        refine ⟨[.select (some e)], rfl, ?_⟩
        rintro w₀ w₁ ⟨w₂, hs', rfl⟩
        exact callCompound_cancelled hs'

end NfsClient.Nfs4
