import NfsClient.Nfs4.ServerRun
import NfsClient.Nfs4.SlotTable

/-!
# A server with sessions at the end of a link

`Server.sessioned` puts sessions in front of a server.  SEQUENCE has to be the first operation of
a compound, its session and its slot have to exist, and its sequence id has to be the next one of
the slot, which is then used up.  Such a server never puts SEQUENCE off: the client moves the slot
on after any answer to SEQUENCE, so after one that was put off it would be out of order for good.

A `Link` lies between the client and the server.  A call that is under way may fail, because
its context ends or the connection breaks, and then the server may have got the request or not.
-/

namespace NfsClient.Nfs4

open NfsClient.Lib NfsClient.Nfs4.Format

/-! ## The link -/

/-- How a call fails on its way: its error, and whether the request has reached the server. -/
structure Lost where
  err : Err
  /-- The error is none of the server's. -/
  plain : err.asStatus = none
  arrived : Bool

/-- The contexts of the client, and what becomes of the calls that it sends. -/
structure Link (C : Type) extends Contexts C where
  trip : C → Option Lost × C

/-- Calls can fail with this error on their way. -/
def Link.Loses {C : Type} (N : Link C) (e : Err) : Prop := ∃ c l, (N.trip c).1 = some l ∧ l.err = e

/-- No context is ever done, and every reply arrives. -/
structure Link.Open {C : Type} (N : Link C) : Prop where
  ctxErr : ∀ c, (N.ctxErr c).1 = none
  select : ∀ c, (N.select c).1 = none
  sleep : ∀ d c, (N.sleep d c).1 = none
  trip : ∀ c, (N.trip c).1 = none

/-- A link over which every reply arrives. -/
def Contexts.reliable {C : Type} (X : Contexts C) : Link C := { X with trip := fun c => (none, c) }

/-- The environment of a client at the other end of a link. -/
def Server.over {F D C : Type} (srv : Server F D) (N : Link C) : Env (World F D C) :=
  N.toContexts.env fun c w =>
    match N.trip w.contexts with
    | (none, contexts) =>
      match srv.answer c { w with contexts } with
      | (b, w') => (.ok b, w')
    | (some l, contexts) =>
      (.error l.err,
        if l.arrived then (srv.answer c { w with contexts }).2 else { w with contexts })

/-- What becomes of a call: the server answers it, or it is lost, and then the server has run it
or has not got it. -/
lemma answered_over {F D C : Type} {srv : Server F D} {N : Link C} {w w' : World F D C}
    {c : Compound} {reply : Except Err Bytes}
    (h : (Event.call c reply).Answered (srv.over N) w w') :
    ∃ contexts, (∃ vs, reply = .ok (encodeReply (Server.overall vs) srv.tag vs) ∧
        srv.runOps c.ops { w with contexts, files := srv.start w.files } = (vs, w')) ∨
      ∃ e, N.Loses e ∧ e.asStatus = none ∧ reply = .error e ∧ (w' = { w with contexts } ∨
        ∃ vs, srv.runOps c.ops { w with contexts, files := srv.start w.files } = (vs, w')) := by
  have hbase : (srv.over N).base c w = (reply, w') := h
  rcases htrip : N.trip w.contexts with ⟨_ | l, contexts⟩
  · simp only [Server.over, Contexts.env, htrip] at hbase
    obtain ⟨rfl, rfl⟩ := Prod.mk.inj hbase
    exact ⟨contexts, .inl ⟨_, rfl, rfl⟩⟩
  · simp only [Server.over, Contexts.env, htrip] at hbase
    obtain ⟨rfl, rfl⟩ := Prod.mk.inj hbase
    refine ⟨contexts, .inr ⟨l.err, ⟨_, l, by rw [htrip], rfl⟩, l.plain, rfl, ?_⟩⟩
    split
    · exact .inr ⟨_, rfl⟩
    · exact .inl rfl

/-! ## Sessions -/

/-- Why a SEQUENCE is refused. -/
inductive SequenceRefusal
  | sequencePos
  | badSession
  | badSlot
  | badHighSlot
  | retryUncachedRep
  | seqMisordered

/-- The statuses; the client has no names for NFS4ERR_BAD_HIGH_SLOT and
NFS4ERR_RETRY_UNCACHED_REP. -/
def SequenceRefusal.status : SequenceRefusal → Status
  | .sequencePos => nfs4errSequencePos
  | .badSession => nfs4errBadsession
  | .badSlot => nfs4errBadslot
  | .badHighSlot => 10077
  | .retryUncachedRep => 10068
  | .seqMisordered => nfs4errSeqMisordered

lemma SequenceRefusal.status_ne_ok (r : SequenceRefusal) : r.status ≠ nfs4Ok := by
  cases r <;> decide

lemma SequenceRefusal.status_not_retriable (r : SequenceRefusal) :
    isRetriableStatus r.status = false := by
  cases r <;> rfl

/-- The state of a server together with its sessions. -/
structure Sessioned (F : Type) where
  base : F
  /-- The sequence id that each slot of a session expects next. -/
  sessions : SessionID → Option (List UInt32)
  /-- No operation of the compound has been executed yet. -/
  first : Bool := true

namespace Sessioned

variable {F : Type}

/-- A state without sessions. -/
def plain (f : F) : Sessioned F := { base := f, sessions := fun _ => none }

/-- What the server makes of a SEQUENCE.  The client never asks for its replies to be kept, so
there is nothing to answer a repeated one with. -/
def check (s : Sessioned F) (q : SequenceArgs) : Except SequenceRefusal (Sessioned F) :=
  if s.first = false then .error .sequencePos
  else match s.sessions q.sessionID with
    | none => .error .badSession
    | some expected =>
      match expected[q.slotID.toNat]? with
      | none => .error .badSlot
      | some next =>
        if expected.length ≤ q.highestSlotID.toNat then .error .badHighSlot
        else if q.sequenceID = next then
          .ok { s with
            sessions := Function.update s.sessions q.sessionID
              (some (expected.set q.slotID.toNat (next + 1)))
            first := false }
        else if q.sequenceID + 1 = next then .error .retryUncachedRep
        else .error .seqMisordered

/-- The state after the SEQUENCE operations, if all of them are accepted. -/
def accept : List SequenceArgs → Sessioned F → Option (Sessioned F)
  | [], s => some s
  | q :: qs, s =>
    match s.check q with
    | .ok s' => accept qs s'
    | .error _ => none

/-- A SEQUENCE with the sequence id that its slot expects. -/
lemma check_next {s : Sessioned F} {q : SequenceArgs} {expected : List UInt32}
    (hfirst : s.first = true) (hs : s.sessions q.sessionID = some expected)
    (hnext : expected[q.slotID.toNat]? = some q.sequenceID)
    (hhigh : q.highestSlotID.toNat < expected.length) :
    s.check q = .ok { s with
      sessions := Function.update s.sessions q.sessionID
        (some (expected.set q.slotID.toNat (q.sequenceID + 1)))
      first := false } := by
  simp [check, hfirst, hs, hnext, hhigh]

lemma check_base {s s' : Sessioned F} {q : SequenceArgs} (h : s.check q = .ok s') :
    s'.base = s.base := by
  unfold check at h
  split_ifs at h
  split at h
  · simp at h
  · split at h
    · simp at h
    · split_ifs at h
      obtain rfl := Except.ok.inj h
      rfl

lemma accept_base {qs : List SequenceArgs} {s s' : Sessioned F} (h : accept qs s = some s') :
    s'.base = s.base := by
  induction qs generalizing s with
  | nil =>
      obtain rfl := Option.some.inj h
      rfl
  | cons q qs ih =>
      rw [accept] at h
      split at h
      · next s₁ hq => rw [ih h, check_base hq]
      · simp at h

/-- The answer to a SEQUENCE that is accepted. -/
def accepted (q : SequenceArgs) : Sequenced where
  sessionID := q.sessionID
  sequenceID := q.sequenceID
  slotID := q.slotID
  highestSlotID := q.highestSlotID
  targetHighestSlot := q.highestSlotID
  statusFlags := 0

/-- One operation, given what the server behind the sessions does with it. -/
def exec (run : Arg → F → OpResult × F) (a : Arg) (s : Sessioned F) : OpResult × Sessioned F :=
  match a with
  | .sequence q =>
    match s.check q with
    | .ok s' => (.sequence (.ok (accepted q)), s')
    | .error r => (.sequence (.failed r.status r.status_ne_ok), s)
  | a => ((run a s.base).1, { s with base := (run a s.base).2, first := false })

end Sessioned

namespace Server

variable {F D C : Type} (srv : Server F D)

/-- The server with sessions in front. -/
def sessioned : Server (Sessioned F) D where
  tag := srv.tag
  start s := { s with base := srv.start s.base, first := true }
  putOff a s d :=
    match a with
    | .sequence _ => (none, d)
    | a => srv.putOff a s.base d
  exec := Sessioned.exec srv.exec
  kind_putOff := by
    intro a s d v h
    split at h
    · simp at h
    · exact srv.kind_putOff h
  kind_exec := by
    intro a s
    unfold Sessioned.exec
    split
    · split <;> rfl
    · exact srv.kind_exec _ _
  stat_putOff := by
    intro a s d v h
    split at h
    · simp at h
    · exact srv.stat_putOff h
  stat_exec := by
    intro a s
    unfold Sessioned.exec
    split
    · split
      · rfl
      · next r _ => exact r.status_not_retriable
    · exact srv.stat_exec _ _
  putOff_getfh s d := srv.putOff_getfh s.base d

variable {srv}

lemma not_delays_sequence (q : SequenceArgs) : ¬ srv.sessioned.Delays (.sequence q) := by
  rintro ⟨s, d, v, hv⟩
  simp [sessioned] at hv

lemma delays_of_sessioned {a : Arg} (h : srv.sessioned.Delays a) : srv.Delays a := by
  obtain ⟨s, d, v, hv⟩ := h
  cases a with
  | sequence q => simp [sessioned] at hv
  | _ => exact ⟨s.base, d, v, hv⟩

lemma Patience.sessioned {rank : D → ℕ} (h : srv.Patience rank) :
    srv.sessioned.Patience rank where
  putOff {a s d v} hv := by
    cases a with
    | sequence q => simp [Server.sessioned] at hv
    | _ => exact h.putOff hv
  goOn {a s d} hv := by
    cases a with
    | sequence q => exact le_rfl
    | _ => exact h.goOn hv

/-! ### Compounds -/

lemma sessioned_exec_plain {a : Arg} (ha : ∀ q, a ≠ .sequence q) (s : Sessioned F) :
    srv.sessioned.exec a s
      = ((srv.exec a s.base).1, { s with base := (srv.exec a s.base).2, first := false }) := by
  cases a with
  | sequence q => exact absurd rfl (ha q)
  | _ => rfl

variable (srv) in
/-- Operations other than SEQUENCE run as they do without sessions. -/
lemma execAll_sessioned {ops : List Arg} (hops : ∀ q, .sequence q ∉ ops) (s : Sessioned F) :
    (srv.sessioned.execAll ops s).1 = (srv.execAll ops s.base).1 ∧
      (srv.sessioned.execAll ops s).2.base = (srv.execAll ops s.base).2 ∧
      (srv.sessioned.execAll ops s).2.sessions = s.sessions := by
  induction ops generalizing s with
  | nil => exact ⟨rfl, rfl, rfl⟩
  | cons a as ih =>
      have ha : ∀ q, a ≠ .sequence q := by
        rintro q rfl
        exact hops q List.mem_cons_self
      have he : srv.sessioned.exec a s = _ := sessioned_exec_plain ha s
      rcases hb : srv.exec a s.base with ⟨v, f⟩
      rw [hb] at he
      by_cases hok : v.stat = nfs4Ok
      · rw [execAll_cons_ok he hok, execAll_cons_ok hb hok]
        obtain ⟨hvs, hbase, hsessions⟩ := ih (fun q hq => hops q (List.mem_cons_of_mem a hq))
          { s with base := f, first := false }
        exact ⟨congrArg (v :: ·) hvs, hbase, hsessions⟩
      · rw [execAll_cons_failed he hok, execAll_cons_failed hb hok]
        exact ⟨rfl, rfl, rfl⟩

/-- SEQUENCE operations that are accepted. -/
lemma execAll_accepted {qs : List SequenceArgs} {s s' : Sessioned F}
    (h : Sessioned.accept qs s = some s') (ops : List Arg) :
    srv.sessioned.execAll (qs.map Arg.sequence ++ ops) s
      = (qs.map (fun q => .sequence (.ok (Sessioned.accepted q))) ++
          (srv.sessioned.execAll ops s').1, (srv.sessioned.execAll ops s').2) := by
  induction qs generalizing s with
  | nil =>
      obtain rfl := Option.some.inj h
      rfl
  | cons q qs ih =>
      rw [Sessioned.accept] at h
      split at h
      · next s₁ hq =>
          have he : srv.sessioned.exec (.sequence q) s
              = (.sequence (.ok (Sessioned.accepted q)), s₁) := by
            simp only [sessioned, Sessioned.exec, hq]
          rw [List.map_cons, List.cons_append, execAll_cons_ok he rfl, ih h]
          rfl
      · simp at h

variable (srv) in
/-- One that is refused is the last operation of its compound, and nothing was done. -/
lemma execAll_refused {qs : List SequenceArgs} {s : Sessioned F}
    (h : Sessioned.accept qs s = none) (ops : List Arg) :
    ∃ r : SequenceRefusal,
      overall (srv.sessioned.execAll (qs.map Arg.sequence ++ ops) s).1 = r.status ∧
      (srv.sessioned.execAll (qs.map Arg.sequence ++ ops) s).1.length ≤ qs.length ∧
      (srv.sessioned.execAll (qs.map Arg.sequence ++ ops) s).2.base = s.base := by
  induction qs generalizing s with
  | nil => simp [Sessioned.accept] at h
  | cons q qs ih =>
      rw [Sessioned.accept] at h
      split at h
      · next s₁ hq =>
          have he : srv.sessioned.exec (.sequence q) s
              = (.sequence (.ok (Sessioned.accepted q)), s₁) := by
            simp only [sessioned, Sessioned.exec, hq]
          obtain ⟨r, hst, hlen, hbase⟩ := ih h
          rw [List.map_cons, List.cons_append, execAll_cons_ok he rfl]
          exact ⟨r, (Served.overall_cons rfl _).trans hst, Nat.succ_le_succ hlen,
            hbase.trans (Sessioned.check_base hq)⟩
      · next r hq =>
          have he : srv.sessioned.exec (.sequence q) s
              = (.sequence (.failed r.status r.status_ne_ok), s) := by
            simp only [sessioned, Sessioned.exec, hq]
          rw [List.map_cons, List.cons_append, execAll_cons_failed he r.status_ne_ok]
          exact ⟨r, rfl, Nat.succ_le_succ (Nat.zero_le _), rfl⟩

/-- A compound is not broken off at its SEQUENCE operations. -/
lemma BrokeOff.behind_sequences {qs : List SequenceArgs} {ops : List Arg} {s s' : Sessioned F}
    (h : srv.sessioned.BrokeOff (qs.map Arg.sequence ++ ops) s s') :
    ∃ pre a post, ops = pre ++ a :: post ∧ srv.Delays a ∧
      s' = (srv.sessioned.execAll (qs.map Arg.sequence ++ pre) s).2 := by
  obtain ⟨pre, a, post, hsplit, ha, rfl⟩ := h
  rcases List.append_eq_append_iff.mp hsplit with ⟨pre', rfl, hops⟩ | ⟨rest, hqs, hrest⟩
  · exact ⟨pre', a, post, hops, delays_of_sessioned ha, rfl⟩
  · cases rest with
    | nil =>
        rw [List.append_nil] at hqs
        exact ⟨[], a, post, hrest.symm, delays_of_sessioned ha, by rw [List.append_nil, hqs]; rfl⟩
    | cons b rest =>
        obtain rfl : a = b := (List.cons.inj hrest).1
        obtain ⟨q, -, rfl⟩ : ∃ q ∈ qs, .sequence q = a := List.mem_map.mp (by rw [hqs]; simp)
        exact absurd ha (not_delays_sequence q)

/-- The sequence ids that a compound uses up are those of its SEQUENCE operations. -/
lemma runOps_sessions {qs : List SequenceArgs} {ops : List Arg} (hops : ∀ q, .sequence q ∉ ops)
    {w w' : World (Sessioned F) D C} {s : Sessioned F} {vs : List OpResult}
    (h : Sessioned.accept qs w.files = some s)
    (hrun : srv.sessioned.runOps (qs.map Arg.sequence ++ ops) w = (vs, w')) :
    w'.files.sessions = s.sessions := by
  have hcases := srv.sessioned.runOps_cases (qs.map Arg.sequence ++ ops) w
  rw [hrun] at hcases
  rcases hcases with ⟨-, hall⟩ | ⟨-, hbroke⟩
  · have hfiles := congrArg Prod.snd hall
    rw [execAll_accepted h] at hfiles
    exact (congrArg Sessioned.sessions hfiles).symm.trans (srv.execAll_sessioned hops s).2.2
  · obtain ⟨pre, a, post, rfl, -, hs⟩ := hbroke.behind_sequences
    dsimp only at hs
    rw [hs, execAll_accepted h]
    exact (srv.execAll_sessioned (fun q hq => hops q (List.mem_append_left _ hq)) s).2.2

end Server

/-! ## Sessions that are in step -/

/-- There is a token, the tokens are as many as the slots that no call holds, and no higher slot
was ever asked for than there is. -/
structure Session.Ready (s : Session) : Prop where
  free_pos : 0 < s.free
  balance : s.free + s.slots.countP (·.inUse) = s.slots.length
  length_le : s.slots.length ≤ 2 ^ 32
  highest_lt : s.highest.toNat < s.slots.length

/-- The server expects the sequence ids that the slots hold. -/
def Session.Agrees {F : Type} (s : Session) (f : Sessioned F) : Prop :=
  f.sessions s.id = some (s.slots.map Slot.seq)

namespace Session

lemma giveBack_eq {s : Session} {l : SlotLease} {sl : Slot} (advance : Bool)
    (h : s.slots[l.slotID.toNat]? = some sl) (hfree : s.free < s.slots.length) :
    s.giveBack l advance = { s with
      slots := s.slots.set l.slotID.toNat
        { seq := if advance then sl.seq + 1 else sl.seq, inUse := false }
      free := s.free + 1 } := by
  rw [giveBack, release_eq advance h, putToken_eq_some.mpr ⟨by simpa using hfree, rfl⟩]
  rfl

variable {s : Session}

/-- A session that is ready leases a slot, with the sequence id that the slot holds, and is ready
again when it has the slot back. -/
lemma Ready.lease (h : s.Ready) :
    ∃ s₁ l s₂, s.takeToken = some s₁ ∧ s₁.scan = some (l, s₂) ∧ s₂.id = s.id ∧
      (s.slots.map Slot.seq)[l.slotID.toNat]? = some l.seq ∧
      l.highest.toNat < s.slots.length ∧
      (s₂.giveBack l true).Ready ∧ (s₂.giveBack l true).slots.map Slot.seq
        = (s.slots.map Slot.seq).set l.slotID.toNat (l.seq + 1) := by
  have hpos := h.free_pos
  have hbal := h.balance
  have hhigh := h.highest_lt
  set s₁ : Session := { s with free := s.free - 1 } with hs₁
  have ht : s.takeToken = some s₁ := takeToken_eq_some.mpr ⟨hpos, rfl⟩
  have hle : s₁.slots.length ≤ 2 ^ 32 := h.length_le
  obtain ⟨l, s₂, hscan⟩ : ∃ l s₂, s₁.scan = some (l, s₂) :=
    exists_scan (by simp only [hs₁]; omega)
  obtain ⟨hget, -, hmax, rfl⟩ := scan_eq_some hle hscan
  have hget' : s.slots[l.slotID.toNat]? = some { seq := l.seq, inUse := false } := hget
  have hlt : l.slotID.toNat < s.slots.length := (List.getElem?_eq_some_iff.mp hget').1
  have hhighest : l.highest.toNat < s.slots.length := by
    rw [hmax]
    exact max_lt hhigh hlt
  refine ⟨s₁, l, _, ht, hscan, rfl, by simp [hget'], hhighest, ?_⟩
  rw [giveBack_eq true (List.getElem?_set_self hlt)
    (by simp only [hs₁, List.length_set]; omega)]
  have hcount := SlotTable.countP_set_of_getElem? hget' { seq := l.seq + 1, inUse := false }
  simp only [Bool.false_eq_true, if_false, Nat.add_zero] at hcount
  refine ⟨⟨by simp only [hs₁]; omega, ?_, by simpa using h.length_le, by simpa using hhighest⟩, ?_⟩
  · simp only [hs₁, List.set_set, List.length_set, if_true, hcount]
    omega
  · simp [hs₁, List.map_set]

/-- The server accepts the SEQUENCE of a session that it agrees with, and agrees with it
again. -/
lemma Agrees.accept {F : Type} {f : Sessioned F} (h : s.Agrees f) (hfirst : f.first = true)
    {l : SlotLease} {s₂ : Session} (hid : s₂.id = s.id)
    (hseq : (s.slots.map Slot.seq)[l.slotID.toNat]? = some l.seq)
    (hhigh : l.highest.toNat < s.slots.length) :
    ∃ f', f.check (s₂.sequenceArgs l) = .ok f' ∧
      f'.sessions s.id = some ((s.slots.map Slot.seq).set l.slotID.toNat (l.seq + 1)) := by
  have hsessions : f.sessions (s₂.sequenceArgs l).sessionID = some (s.slots.map Slot.seq) := by
    rw [show (s₂.sequenceArgs l).sessionID = s.id from hid]
    exact h
  refine ⟨_, Sessioned.check_next hfirst hsessions hseq (by rwa [List.length_map]), ?_⟩
  simp [sequenceArgs, hid]

end Session

end NfsClient.Nfs4
