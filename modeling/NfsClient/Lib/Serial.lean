import NfsClient.Lib.Pool
import NfsClient.Lib.Routine
import Mathlib.Data.List.Nodup

/-!
# Critical sections

Processes call the methods of one object.  The object has a state `κ` that a lock guards, and its
methods act on a world `σ` that they share with everything else, one atomic call at a time; each
call carries a tag, and the tags are logged.  A method takes the lock, runs its section, stores
the guarded state, releases the lock, and may go on without it.

If no method goes on after its section, every interleaving is serial: the methods return, and
leave the object and the world, as if each had run alone, one after the other in the order in
which they release the lock (`serial_run`).  A method releases the lock after it is called and
before it returns, so this order is one of linearization.
-/

namespace NfsClient.Lib

/-! ## Objects with a lock -/

/-- A method: what its section does with the guarded state, and how it goes on without the lock. -/
abbrev LockedMethod (κ τ σ ρ : Type) : Type := κ → Routine τ σ (κ × Routine τ σ ρ)

/-- A method that is nothing but its section. -/
def LockedMethod.ofSection {κ τ σ ρ : Type} (m : κ → Routine τ σ (ρ × κ)) : LockedMethod κ τ σ ρ :=
  fun k => (m k).map fun r => (r.2, .ret r.1)

/-- A method, undisturbed: its result, the guarded state and the world. -/
def LockedMethod.exec {κ τ σ ρ : Type} (m : LockedMethod κ τ σ ρ) (k : κ) (s : σ) : ρ × κ × σ :=
  let a := (m k).run s
  let b := a.1.2.run a.2
  (b.1, a.1.1, b.2)

lemma LockedMethod.exec_ofSection {κ τ σ ρ : Type} (m : κ → Routine τ σ (ρ × κ)) (k : κ) (s : σ) :
    (ofSection m).exec k s = (((m k).run s).1.1, ((m k).run s).1.2, ((m k).run s).2) := by
  simp only [exec, ofSection, Routine.run_map, Routine.run_ret]

/-- How far a process has come with its method. -/
inductive Phase (κ τ σ ρ : Type)
  | waiting (m : LockedMethod κ τ σ ρ)
  | inside (t : Routine τ σ (κ × Routine τ σ ρ))
  | outside (t : Routine τ σ ρ)
  | returned (r : ρ)

/-- What a process has returned. -/
def Phase.result? {κ τ σ ρ : Type} : Phase κ τ σ ρ → Option ρ
  | .returned r => some r
  | _ => none

lemma Phase.returned_of_result? {κ τ σ ρ : Type} {ls : List (Phase κ τ σ ρ)} (rs : List ρ)
    (h : ls.map Phase.result? = rs.map some) : ∀ l ∈ ls, ∃ r, l = .returned r := by
  intro l hl
  have hmem : l.result? ∈ rs.map some := h ▸ List.mem_map_of_mem hl
  obtain ⟨r, -, hr⟩ := List.mem_map.mp hmem
  cases l with
  | returned r' => exact ⟨r', rfl⟩
  | waiting m | inside t | outside t => cases hr

/-- The object, its lock, the world and the calls that were made. -/
structure Monitor (κ τ σ : Type) where
  guarded : κ
  locked : Bool := false
  world : σ
  log : List τ := []

/-- The steps of a process. -/
inductive MonitorAct
  | acquire
  | call
  | release
  | leave

section Steps

variable {κ τ σ ρ N : Type}

/-- A call is made. -/
def Monitor.after (M : Monitor κ τ σ) (tag : τ) (upd : σ → σ) : Monitor κ τ σ :=
  { M with world := upd M.world, log := M.log ++ [tag] }

/-- One step of a process. -/
def monitorMove (M : Monitor κ τ σ) :
    Phase κ τ σ ρ → MonitorAct → Option (Monitor κ τ σ × Phase κ τ σ ρ)
  | .waiting m, .acquire =>
    if M.locked then none else some ({ M with locked := true }, .inside (m M.guarded))
  | .inside (.call tag upd next), .call => some (M.after tag upd, .inside (next M.world))
  | .inside (.ret (k, t)), .release => some ({ M with guarded := k, locked := false }, .outside t)
  | .outside (.call tag upd next), .call => some (M.after tag upd, .outside (next M.world))
  | .outside (.ret r), .leave => some (M, .returned r)
  | _, _ => none

abbrev MonitorPool (κ τ σ ρ : Type) : Type := Pool (Monitor κ τ σ) (Phase κ τ σ ρ)

/-- The pool of the processes that call methods; `start` is where a call begins. -/
def monitorStep (start : N → Phase κ τ σ ρ) :
    MonitorPool κ τ σ ρ → PoolLabel N MonitorAct → Option (MonitorPool κ τ σ ρ) :=
  Pool.step start monitorMove

/-- What a step of a process can be. -/
inductive Moves (M : Monitor κ τ σ) :
    Phase κ τ σ ρ → MonitorAct → Monitor κ τ σ → Phase κ τ σ ρ → Prop
  | acquire (m : LockedMethod κ τ σ ρ) (h : M.locked = false) :
      Moves M (.waiting m) .acquire { M with locked := true } (.inside (m M.guarded))
  | inside (tag : τ) (upd : σ → σ) (next : σ → Routine τ σ (κ × Routine τ σ ρ)) :
      Moves M (.inside (.call tag upd next)) .call (M.after tag upd) (.inside (next M.world))
  | release (k : κ) (t : Routine τ σ ρ) :
      Moves M (.inside (.ret (k, t))) .release { M with guarded := k, locked := false } (.outside t)
  | outside (tag : τ) (upd : σ → σ) (next : σ → Routine τ σ ρ) :
      Moves M (.outside (.call tag upd next)) .call (M.after tag upd) (.outside (next M.world))
  | leave (r : ρ) : Moves M (.outside (.ret r)) .leave M (.returned r)

lemma moves_of_monitorMove {M M' : Monitor κ τ σ} {l l' : Phase κ τ σ ρ} {a : MonitorAct}
    (h : monitorMove M l a = some (M', l')) : Moves M l a M' l' := by
  unfold monitorMove at h
  split at h
  · split at h
    · cases h
    · next hl =>
        cases h
        exact .acquire _ (Bool.eq_false_iff.mpr hl)
  all_goals cases h
  · exact .inside ..
  · exact .release ..
  · exact .outside ..
  · exact .leave _

/-- What a step of a process does to the pool. -/
lemma moves_of_monitorStep {start : N → Phase κ τ σ ρ} {p p' : MonitorPool κ τ σ ρ} {i : ℕ}
    {a : MonitorAct} (h : monitorStep start p (.act i a) = some p') :
    ∃ l M' l', p.procs[i]? = some l ∧ Moves p.shared l a M' l' ∧ p' = ⟨M', p.procs.set i l'⟩ := by
  obtain ⟨l, M', l', hi, hmove, rfl⟩ := Pool.step_act.mp h
  exact ⟨l, M', l', hi, moves_of_monitorMove hmove, rfl⟩

end Steps

/-! ## Serial order -/

section Serial

variable {κ τ σ ρ N : Type}

/-- What a process that releases the lock is going to return. -/
def Phase.released : Phase κ τ σ ρ → Option ρ
  | .inside (.ret (_, .ret r)) => some r
  | _ => none

/-- The section that a step completes: the process and its result. -/
def commit (p : MonitorPool κ τ σ ρ) : PoolLabel N MonitorAct → List (ℕ × ρ)
  | .act i .release => ((p.procs[i]?.bind Phase.released).map fun r => (i, r)).toList
  | _ => []

/-- The sections in the order in which a run completes them. -/
def commits (start : N → Phase κ τ σ ρ) : MonitorPool κ τ σ ρ → List (PoolLabel N MonitorAct) →
    List (ℕ × ρ)
  | _, [] => []
  | p, l :: ls => commit p l ++ (monitorStep start p l).elim [] fun p' => commits start p' ls

/-- The arguments of the processes that a run starts. -/
def started : List (PoolLabel N MonitorAct) → List N
  | [] => []
  | .start x :: ls => x :: started ls
  | _ :: ls => started ls

variable (m : N → κ → Routine τ σ (ρ × κ))

/-- Methods run one after the other. -/
def serially : List N → κ × σ → List ρ × κ × σ
  | [], s => ([], s)
  | x :: xs, (k, w) =>
    match (m x k).run w with
    | ((r, k'), w') =>
      match serially xs (k', w') with
      | (rs, s) => (r :: rs, s)

lemma serially_snoc (xs : List N) (x : N) {s : κ × σ} {rs : List ρ} {k k' : κ} {w w' : σ} {r : ρ}
    (h : serially m xs s = (rs, k, w)) (hx : (m x k).run w = ((r, k'), w')) :
    serially m (xs ++ [x]) s = (rs ++ [r], k', w') := by
  induction xs generalizing s rs with
  | nil =>
      cases h
      simp only [List.nil_append, serially, hx]
  | cons y ys ih =>
      rcases s with ⟨k₁, w₁⟩
      rcases hy : (m y k₁).run w₁ with ⟨⟨r₁, k₂⟩, w₂⟩
      rcases hys : serially m ys (k₂, w₂) with ⟨rs₁, s₁⟩
      simp only [serially, hy, hys, Prod.mk.injEq] at h
      obtain ⟨rfl, rfl⟩ := h
      simp only [List.cons_append, serially, hy, ih hys]

/-- Where a process with a method that is a section begins. -/
def sectionStart (x : N) : Phase κ τ σ ρ := .waiting (.ofSection (m x))

/-- What the order of the completed sections says about a process. -/
def Phase.Fits (done : List (ℕ × ρ)) (i : ℕ) (x : N) : Phase κ τ σ ρ → Prop
  | .waiting m' => m' = .ofSection (m x) ∧ i ∉ done.map Prod.fst
  | .inside _ => i ∉ done.map Prod.fst
  | .outside t => ∃ r, t = .ret r ∧ (i, r) ∈ done
  | .returned r => (i, r) ∈ done

/-- The state is that of the completed sections run one after the other, except for what the
process that holds the lock has done; and that process will end as if it had begun there. -/
structure Serial (s₀ : κ × σ) (calls : List N) (done : List (ℕ × ρ))
    (p : MonitorPool κ τ σ ρ) (w : σ) : Prop where
  length : p.procs.length = calls.length
  nodup : (done.map Prod.fst).Nodup
  lt : ∀ d ∈ done, d.1 < calls.length
  fits : ∀ {i x l}, calls[i]? = some x → p.procs[i]? = some l → Phase.Fits m done i x l
  serial : serially m (done.filterMap fun d => calls[d.1]?) s₀
    = (done.map Prod.snd, p.shared.guarded, w)
  free : p.shared.locked = false →
    p.shared.world = w ∧ ∀ (i : ℕ) t, p.procs[i]? ≠ some (.inside t)
  held : p.shared.locked = true → ∃ (j : ℕ) (x : N) (t : Routine τ σ (ρ × κ)), calls[j]? = some x ∧
    p.procs[j]? = some (.inside (t.map fun r => (r.2, .ret r.1))) ∧
    t.run p.shared.world = (m x p.shared.guarded).run w ∧
    ∀ (i : ℕ) t', p.procs[i]? = some (.inside t') → i = j

variable {m} {s₀ : κ × σ} {calls : List N} {done : List (ℕ × ρ)} {p p' : MonitorPool κ τ σ ρ}
  {w : σ}

lemma Serial.start (h : Serial m s₀ calls done p w) (x : N) :
    Serial m s₀ (calls ++ [x]) done ⟨p.shared, p.procs ++ [sectionStart m x]⟩ w where
  length := by simp [h.length]
  nodup := h.nodup
  lt d hd := by
    have := h.lt d hd
    simp only [List.length_append, List.length_singleton]
    omega
  fits {i y l} hy hl := by
    rcases Pool.getElem?_snoc_cases hl with hl | ⟨rfl, rfl⟩
    · have hi : i < calls.length := by
        rw [← h.length]
        exact (List.getElem?_eq_some_iff.mp hl).1
      rw [List.getElem?_append_left hi] at hy
      exact h.fits hy hl
    · rw [h.length, List.getElem?_concat_length] at hy
      obtain rfl := Option.some.inj hy
      refine ⟨rfl, ?_⟩
      intro hmem
      obtain ⟨d, hd, hfst⟩ := List.mem_map.mp hmem
      have := h.lt d hd
      rw [hfst, h.length] at this
      exact lt_irrefl _ this
  serial := by
    rw [← h.serial]
    congr 1
    refine List.filterMap_congr fun d hd => ?_
    exact List.getElem?_append_left (h.lt d hd)
  free hfree := by
    refine ⟨(h.free hfree).1, ?_⟩
    intro i t hl
    rcases Pool.getElem?_snoc_cases hl with hl | ⟨-, hcon⟩
    · exact (h.free hfree).2 i t hl
    · cases hcon
  held hheld := by
    obtain ⟨j, y, t, hy, hj, hrun, honly⟩ := h.held hheld
    have hlt : j < calls.length := (List.getElem?_eq_some_iff.mp hy).1
    refine ⟨j, y, t, ?_, ?_, hrun, ?_⟩
    · rw [List.getElem?_append_left hlt, hy]
    · rw [List.getElem?_append_left (by rw [h.length]; exact hlt), hj]
    · intro i t' hl
      rcases Pool.getElem?_snoc_cases hl with hl | ⟨-, hcon⟩
      · exact honly i t' hl
      · cases hcon

/-- A process that has changed still has its argument. -/
lemma Serial.argument (h : Serial m s₀ calls done p w) {i : ℕ} {l : Phase κ τ σ ρ}
    (hl : p.procs[i]? = some l) : ∃ x, calls[i]? = some x := by
  have hi := (List.getElem?_eq_some_iff.mp hl).1
  rw [h.length] at hi
  exact ⟨_, List.getElem?_eq_getElem hi⟩

lemma Serial.acquire (h : Serial m s₀ calls done p w) {i : ℕ} {m' : LockedMethod κ τ σ ρ}
    (hi : p.procs[i]? = some (.waiting m')) (hfree : p.shared.locked = false) :
    Serial m s₀ calls done ⟨{ p.shared with locked := true },
      p.procs.set i (.inside (m' p.shared.guarded))⟩ w := by
  obtain ⟨x, hx⟩ := h.argument hi
  obtain ⟨rfl, hnew⟩ := h.fits hx hi
  obtain ⟨hworld, hnone⟩ := h.free hfree
  have hlt : i < p.procs.length := (List.getElem?_eq_some_iff.mp hi).1
  refine ⟨by simp [h.length], h.nodup, h.lt, ?_, h.serial, fun hf => by simp at hf, ?_⟩
  · intro j y l hy hl
    rcases Pool.getElem?_set_cases hl with ⟨rfl, rfl⟩ | ⟨-, hl⟩
    · exact hnew
    · exact h.fits hy hl
  · intro _
    refine ⟨i, x, m x p.shared.guarded, hx, List.getElem?_set_self hlt, by rw [hworld], ?_⟩
    intro j t' hl
    rcases Pool.getElem?_set_cases hl with ⟨rfl, -⟩ | ⟨-, hl⟩
    · rfl
    · exact absurd hl (hnone j t')

/-- The process inside is the one that holds the lock. -/
lemma Serial.holder (h : Serial m s₀ calls done p w) {i : ℕ}
    {t' : Routine τ σ (κ × Routine τ σ ρ)} (hi : p.procs[i]? = some (.inside t')) :
    p.shared.locked = true ∧ ∃ (x : N) (t : Routine τ σ (ρ × κ)), calls[i]? = some x ∧
      t' = t.map (fun r => (r.2, .ret r.1)) ∧
      t.run p.shared.world = (m x p.shared.guarded).run w ∧
      ∀ (j : ℕ) t', p.procs[j]? = some (.inside t') → j = i := by
  have hlocked : p.shared.locked = true := by
    by_contra hne
    exact (h.free (Bool.eq_false_iff.mpr hne)).2 i t' hi
  obtain ⟨j, x, t, hx, hj, hrun, honly⟩ := h.held hlocked
  obtain rfl := honly i t' hi
  rw [hi] at hj
  cases hj
  exact ⟨hlocked, x, t, hx, rfl, hrun, honly⟩

lemma Serial.inside (h : Serial m s₀ calls done p w) {i : ℕ} {tag : τ} {upd : σ → σ}
    {next : σ → Routine τ σ (κ × Routine τ σ ρ)}
    (hi : p.procs[i]? = some (.inside (.call tag upd next))) :
    Serial m s₀ calls done
      ⟨p.shared.after tag upd, p.procs.set i (.inside (next p.shared.world))⟩ w := by
  obtain ⟨hlocked, x, t, hx, ht, hrun, honly⟩ := h.holder hi
  have hlt : i < p.procs.length := (List.getElem?_eq_some_iff.mp hi).1
  have hnew : i ∉ done.map Prod.fst := h.fits hx hi
  refine ⟨by simp [h.length], h.nodup, h.lt, ?_, h.serial, fun hf => ?_, fun _ => ?_⟩
  · intro j y l hy hl
    rcases Pool.getElem?_set_cases hl with ⟨rfl, rfl⟩ | ⟨-, hl⟩
    · exact hnew
    · exact h.fits hy hl
  · exact absurd hf (by simp [Monitor.after, hlocked])
  · cases t with
    | ret r => cases ht
    | call tag' upd' next' =>
        cases ht
        refine ⟨i, x, next' p.shared.world, hx, List.getElem?_set_self hlt, hrun, ?_⟩
        intro j t' hl
        rcases Pool.getElem?_set_cases hl with ⟨rfl, -⟩ | ⟨-, hl⟩
        · rfl
        · exact honly j t' hl

/-- A section is completed: it is the next in the order. -/
lemma Serial.release (h : Serial m s₀ calls done p w) {i : ℕ} {k : κ} {t : Routine τ σ ρ}
    (hi : p.procs[i]? = some (.inside (.ret (k, t)))) :
    ∃ r, t = .ret r ∧ Serial m s₀ calls (done ++ [(i, r)])
      ⟨{ p.shared with guarded := k, locked := false }, p.procs.set i (.outside t)⟩
      p.shared.world := by
  obtain ⟨-, x, t₀, hx, ht, hrun, honly⟩ := h.holder hi
  obtain ⟨r, k'⟩ | _ := t₀
  · cases ht
    have hlt : i < p.procs.length := (List.getElem?_eq_some_iff.mp hi).1
    have hnew : i ∉ done.map Prod.fst := h.fits hx hi
    refine ⟨r, rfl, by simp [h.length], ?_, ?_, ?_, ?_, ?_, fun hf => by simp at hf⟩
    · rw [List.map_append]
      exact h.nodup.append (List.nodup_singleton i) (List.disjoint_singleton.mpr hnew)
    · intro d hd
      rcases List.mem_append.mp hd with hd | hd
      · exact h.lt d hd
      · rw [List.mem_singleton.mp hd, ← h.length]
        exact hlt
    · intro j y l hy hl
      rcases Pool.getElem?_set_cases hl with ⟨rfl, rfl⟩ | ⟨hne, hl⟩
      · exact ⟨r, rfl, by simp⟩
      · have hfits := h.fits hy hl
        cases l with
        | waiting m' => exact ⟨hfits.1, by simpa [hne] using hfits.2⟩
        | inside t' => exact absurd (honly j t' hl) hne
        | outside t' =>
            obtain ⟨r', ht', hmem⟩ := hfits
            exact ⟨r', ht', List.mem_append_left _ hmem⟩
        | returned r' => exact List.mem_append_left _ hfits
    · rw [List.filterMap_append, List.map_append]
      have hone : ([(i, r)].filterMap fun d : ℕ × ρ => calls[d.1]?) = [x] := by simp [hx]
      rw [hone]
      exact serially_snoc m _ x h.serial hrun.symm
    · intro _
      refine ⟨rfl, ?_⟩
      intro j t' hl
      rcases Pool.getElem?_set_cases hl with ⟨-, hcon⟩ | ⟨hne, hl⟩
      · cases hcon
      · exact hne (honly j t' hl)
  · cases ht

lemma Serial.leave (h : Serial m s₀ calls done p w) {i : ℕ} {r : ρ}
    (hi : p.procs[i]? = some (.outside (.ret r))) :
    Serial m s₀ calls done ⟨p.shared, p.procs.set i (.returned r)⟩ w := by
  refine ⟨by simp [h.length], h.nodup, h.lt, ?_, h.serial, fun hf => ?_, fun hh => ?_⟩
  · intro j y l hy hl
    rcases Pool.getElem?_set_cases hl with ⟨rfl, rfl⟩ | ⟨-, hl⟩
    · obtain ⟨r', hr, hmem⟩ := h.fits hy hi
      cases hr
      exact hmem
    · exact h.fits hy hl
  · refine ⟨(h.free hf).1, ?_⟩
    intro j t' hl
    rcases Pool.getElem?_set_cases hl with ⟨-, hcon⟩ | ⟨-, hl⟩
    · cases hcon
    · exact (h.free hf).2 j t' hl
  · obtain ⟨j, x, t, hx, hj, hrun, honly⟩ := h.held hh
    refine ⟨j, x, t, hx, Pool.getElem?_set_keep hi hj (by simp), hrun, ?_⟩
    intro j' t' hl
    rcases Pool.getElem?_set_cases hl with ⟨-, hcon⟩ | ⟨-, hl⟩
    · cases hcon
    · exact honly j' t' hl

/-- One step of the pool. -/
lemma Serial.step (h : Serial m s₀ calls done p w) {l : PoolLabel N MonitorAct}
    (hstep : monitorStep (sectionStart m) p l = some p') :
    ∃ w', Serial m s₀ (calls ++ started [l]) (done ++ commit p l) p' w' := by
  cases l with
  | start x =>
      obtain rfl := Option.some.inj hstep
      exact ⟨w, by simpa [commit, started] using h.start x⟩
  | act i a =>
      obtain ⟨l, M', l', hi, hmove, rfl⟩ := moves_of_monitorStep hstep
      simp only [started, List.append_nil]
      cases hmove with
      | acquire m' hfree => exact ⟨w, by simpa [commit] using h.acquire hi hfree⟩
      | inside tag upd next => exact ⟨w, by simpa [commit] using h.inside hi⟩
      | release k t =>
          obtain ⟨r, rfl, hnext⟩ := h.release hi
          exact ⟨_, by simpa [commit, hi, Phase.released] using hnext⟩
      | outside tag upd next =>
          obtain ⟨x, hx⟩ := h.argument hi
          obtain ⟨r, hcon, -⟩ := h.fits hx hi
          cases hcon
      | leave r => exact ⟨w, by simpa [commit] using h.leave hi⟩

/-- **Every interleaving of critical sections is serial.** -/
theorem serial_run (h : Serial m s₀ calls done p w) (ls : List (PoolLabel N MonitorAct))
    (hrun : run (monitorStep (sectionStart m)) p ls = some p') :
    ∃ w', Serial m s₀ (calls ++ started ls) (done ++ commits (sectionStart m) p ls) p' w' := by
  induction ls generalizing calls done p w with
  | nil =>
      cases hrun
      exact ⟨w, by simpa [started, commits] using h⟩
  | cons l ls ih =>
      obtain ⟨p₁, hstep, hrest⟩ := run_cons_eq_some.mp hrun
      obtain ⟨w₁, h₁⟩ := h.step hstep
      obtain ⟨w', h'⟩ := ih h₁ hrest
      refine ⟨w', ?_⟩
      have hstarted : started (l :: ls) = started [l] ++ started ls := by
        cases l <;> rfl
      rw [hstarted, commits, hstep, Option.elim_some, ← List.append_assoc, ← List.append_assoc]
      exact h'

lemma filterMap_range_getElem? (l : List N) :
    (List.range l.length).filterMap (fun i => l[i]?) = l := by
  have hmap : (List.range l.length).map (fun i => l[i]?) = l.map some := by
    refine List.ext_getElem (by simp) fun i h₁ h₂ => ?_
    simp only [List.length_map] at h₂
    simp [h₂]
  calc (List.range l.length).filterMap (fun i => l[i]?)
      = ((List.range l.length).map fun i => l[i]?).filterMap id := by
        rw [List.filterMap_map]
        rfl
    _ = l := by
        rw [hmap, List.filterMap_map]
        exact List.filterMap_some

/-- When every call has returned, each has its place in the order. -/
lemma Serial.complete (h : Serial m s₀ calls done p w)
    (hall : ∀ l ∈ p.procs, ∃ r, l = .returned r) :
    (done.filterMap fun d => calls[d.1]?).Perm calls := by
  have hperm : (done.map Prod.fst).Perm (List.range calls.length) := by
    refine (List.perm_ext_iff_of_nodup h.nodup List.nodup_range).mpr fun i => ?_
    rw [List.mem_range]
    constructor
    · intro hi
      obtain ⟨d, hd, rfl⟩ := List.mem_map.mp hi
      exact h.lt d hd
    · intro hi
      have hlt : i < p.procs.length := by rwa [h.length]
      have hl := List.getElem?_eq_getElem hlt
      obtain ⟨r, hr⟩ := hall _ (List.getElem_mem hlt)
      rw [hr] at hl
      have hmem : (i, r) ∈ done := h.fits (List.getElem?_eq_getElem hi) hl
      exact List.mem_map_of_mem hmem
  have hmap : (done.filterMap fun d => calls[d.1]?)
      = (done.map Prod.fst).filterMap fun i => calls[i]? := by
    rw [List.filterMap_map]
    rfl
  rw [hmap]
  refine (hperm.filterMap _).trans ?_
  rw [filterMap_range_getElem?]

/-- When every call has returned, the lock is free. -/
lemma Serial.unlocked (h : Serial m s₀ calls done p w)
    (hall : ∀ l ∈ p.procs, ∃ r, l = .returned r) : p.shared.locked = false := by
  by_contra hne
  obtain ⟨j, x, t, -, hj, -, -⟩ := h.held (by simpa using hne)
  obtain ⟨r, hr⟩ := hall _ (List.mem_of_getElem? hj)
  cases hr

/-- Results that depend on the arguments only go to the calls with these arguments. -/
lemma Serial.result (h : Serial m s₀ calls done p w) {g : N → ρ}
    (hg : done.map Prod.snd = (done.filterMap fun d => calls[d.1]?).map g) {i : ℕ} {r : ρ} {x : N}
    (hmem : (i, r) ∈ done) (hx : calls[i]? = some x) : r = g x := by
  have hlt := h.lt
  clear h
  induction done with
  | nil => simp at hmem
  | cons d done ih =>
      have hd := List.getElem?_eq_getElem (hlt d List.mem_cons_self)
      simp only [List.map_cons, List.filterMap_cons, hd, List.cons.injEq] at hg
      rcases List.mem_cons.mp hmem with rfl | hmem
      · rw [hx] at hd
        rw [Option.some.inj hd]
        exact hg.1
      · exact ih hg.2 hmem fun e he => hlt e (List.mem_cons_of_mem d he)

/-- Before anything is called. -/
lemma serial_init (k : κ) (w : σ) : Serial m (k, w) [] []
    (⟨{ guarded := k, world := w }, []⟩ : MonitorPool κ τ σ ρ) w where
  length := rfl
  nodup := List.nodup_nil
  lt := by simp
  fits := by simp
  serial := rfl
  free _ := ⟨rfl, by simp⟩
  held h := by simp at h

end Serial

end NfsClient.Lib
