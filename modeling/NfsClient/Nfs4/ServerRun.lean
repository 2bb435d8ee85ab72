import NfsClient.Lib.Batch
import NfsClient.Nfs4.Mutation
import NfsClient.Nfs4.Residue

/-!
# A compound at the server

A server runs the operations of a compound as a batch, and may break the batch off before any
operation but GETFH by putting that operation off.  The client reads the answer through its
session callers, which take the results of their SEQUENCE operations off the front.
-/

namespace NfsClient.Nfs4

open NfsClient.Lib NfsClient.Nfs4.Format

/-! ## A compound as a batch -/

namespace Server

variable {F D C : Type} (srv : Server F D)

/-- The operations of a compound when none of them is put off. -/
def execAll : List Arg → F → List OpResult × F := batch srv.exec fun v => v.stat = nfs4Ok

variable {srv} {a : Arg} {f f' : F} {v : OpResult} in
lemma execAll_cons_ok (he : srv.exec a f = (v, f')) (hok : v.stat = nfs4Ok) (as : List Arg) :
    srv.execAll (a :: as) f = (v :: (srv.execAll as f').1, (srv.execAll as f').2) :=
  batch_cons_of_ok he (decide_eq_true hok)

variable {srv} {a : Arg} {f f' : F} {v : OpResult} in
lemma execAll_cons_failed (he : srv.exec a f = (v, f')) (hne : v.stat ≠ nfs4Ok) (as : List Arg) :
    srv.execAll (a :: as) f = ([v], f') :=
  batch_cons_of_failed he (decide_eq_false hne)

variable {srv} in
lemma served_of_runOps {ops : List Arg} {w w' : World F D C} {vs : List OpResult}
    (h : srv.runOps ops w = (vs, w')) : Served ops vs := by
  have hserved := (served_runOps srv ops w).1
  rwa [h] at hserved

/-- The operation can be put off. -/
def Delays (a : Arg) : Prop := ∃ f d v, (srv.putOff a f d).1 = some v

/-- The compound was broken off: an operation was put off. -/
def BrokeOff : List Arg → F → F → Prop :=
  BrokenOff srv.exec (fun v => v.stat = nfs4Ok) srv.Delays

/-- **A compound runs as a batch, or is broken off.** -/
theorem runOps_cases (ops : List Arg) (w : World F D C) :
    (isRetriableStatus (overall (srv.runOps ops w).1) = false ∧
        srv.execAll ops w.files = ((srv.runOps ops w).1, (srv.runOps ops w).2.files)) ∨
      (isRetriableStatus (overall (srv.runOps ops w).1) = true ∧
        srv.BrokeOff ops w.files (srv.runOps ops w).2.files) := by
  induction ops generalizing w with
  | nil => exact .inl ⟨rfl, rfl⟩
  | cons a as ih =>
      rcases hp : srv.putOff a w.files w.load with ⟨_ | v, load⟩
      · have hstat := srv.stat_exec a w.files
        rcases he : srv.exec a w.files with ⟨v, files⟩
        rw [he] at hstat
        by_cases hok : v.stat = nfs4Ok
        · have hrest := ih { w with files, load, executed := w.executed ++ [(a, v.stat)] }
          simp only [runOps, hp, he, hok, if_true, Served.overall_cons hok] at hrest ⊢
          rcases hrest with ⟨hr, hall⟩ | ⟨hr, hbroke⟩
          · exact .inl ⟨hr, by rw [execAll_cons_ok he hok, hall]⟩
          · exact .inr ⟨hr, hbroke.cons he (decide_eq_true hok)⟩
        · simp only [runOps, hp, he, hok, if_false]
          exact .inl ⟨hstat, execAll_cons_failed he hok as⟩
      · have hv : (srv.putOff a w.files w.load).1 = some v := by rw [hp]
        simp only [runOps, hp]
        exact .inr ⟨srv.stat_putOff hv, [], a, as, rfl, ⟨_, _, v, hv⟩, rfl⟩

/-- The rank bounds how many operations the server is still going to put off. -/
structure Patience (rank : D → ℕ) : Prop where
  putOff : ∀ {a f d v}, (srv.putOff a f d).1 = some v → rank (srv.putOff a f d).2 < rank d
  goOn : ∀ {a f d}, (srv.putOff a f d).1 = none → rank (srv.putOff a f d).2 ≤ rank d

variable {srv}

lemma Patience.runOps {rank : D → ℕ} (h : srv.Patience rank) (ops : List Arg) (w : World F D C) :
    rank (srv.runOps ops w).2.load ≤ rank w.load ∧
      (isRetriableStatus (overall (srv.runOps ops w).1) = true →
        rank (srv.runOps ops w).2.load < rank w.load) := by
  induction ops generalizing w with
  | nil => exact ⟨le_rfl, fun hr => absurd hr Bool.false_ne_true⟩
  | cons a as ih =>
      have hput := @h.putOff a w.files w.load
      have hgo := @h.goOn a w.files w.load
      rcases hp : srv.putOff a w.files w.load with ⟨_ | v, load⟩
      · rw [hp] at hgo
        have hle : rank load ≤ rank w.load := hgo rfl
        have hstat := srv.stat_exec a w.files
        rcases he : srv.exec a w.files with ⟨v, files⟩
        rw [he] at hstat
        by_cases hok : v.stat = nfs4Ok
        · obtain ⟨hrest, hlt⟩ :=
            ih { w with files, load, executed := w.executed ++ [(a, v.stat)] }
          simp only [Server.runOps, hp, he, hok, if_true, Served.overall_cons hok] at hrest hlt ⊢
          exact ⟨hrest.trans hle, fun hr => (hlt hr).trans_le hle⟩
        · simp only [Server.runOps, hp, he, hok, if_false]
          refine ⟨hle, fun hr => ?_⟩
          exact absurd hr (by simp [overall, hstat])
      · rw [hp] at hput
        have hlt : rank load < rank w.load := hput rfl
        simp only [Server.runOps, hp]
        exact ⟨hlt.le, fun _ => hlt⟩

end Server

/-! ## Reading the answer -/

lemma served_execAll {F D : Type} (srv : Server F D) (ops : List Arg) (f : F) :
    Served ops (srv.execAll ops f).1 := by
  induction ops generalizing f with
  | nil => exact .nil
  | cons a as ih =>
      have hstat := srv.stat_exec a f
      have hkind := srv.kind_exec a f
      rcases he : srv.exec a f with ⟨v, f'⟩
      rw [he] at hstat hkind
      by_cases hok : v.stat = nfs4Ok
      · rw [Server.execAll_cons_ok he hok]
        exact .next hkind hok (ih f')
      · rw [Server.execAll_cons_failed he hok]
        exact .stop hkind hok fun _ => hstat

lemma overall_append {vs vs' : List OpResult} (h : ∀ v ∈ vs, v.stat = nfs4Ok) :
    Server.overall (vs ++ vs') = Server.overall vs' := by
  induction vs with
  | nil => rfl
  | cons v vs ih =>
      rw [List.cons_append, Served.overall_cons (h v (by simp)),
        ih fun x hx => h x (by simp [hx])]

/-- The last result of an answer shows the status of the compound. -/
lemma Served.getLast? {ops : List Arg} {vs : List OpResult} (h : Served ops vs) (hne : ops ≠ []) :
    (vs.map OpResult.stat).getLast? = some (Server.overall vs) ∧
      ∀ s ∈ (vs.map OpResult.stat).dropLast, s = nfs4Ok := by
  induction h with
  | nil => exact absurd rfl hne
  | stop hk hst hfh => exact ⟨rfl, by simp⟩
  | @next a as v vs hk hst h ih =>
      cases h with
      | nil => exact ⟨rfl, by simp⟩
      | stop hk' hst' hfh =>
          obtain ⟨hlast, hoks⟩ := ih (by simp)
          exact ⟨rfl, by simp [hst]⟩
      | @next a' as' v' vs' hk' hst' h' =>
          obtain ⟨hlast, hoks⟩ := ih (by simp)
          rw [Served.overall_cons hst]
          refine ⟨by simpa using hlast, ?_⟩
          simpa [hst] using hoks

/-- An answer of the server is a conforming reply. -/
lemma Served.conforming {c : Compound} {vs : List OpResult} (h : Served c.ops vs)
    (hne : c.ops ≠ []) (hlen : c.ops.length < 2 ^ 32) (tag : Field) :
    Conforming c (encodeReply (Server.overall vs) tag vs) (Server.overall vs) := by
  obtain ⟨hlast, hoks⟩ := h.getLast? hne
  refine ⟨_, _, parseReply_encodeReply (h.length_le.trans_lt hlen) ?_ _ tag, rfl, hlast, hoks,
    fun hok => ?_⟩
  · rw [kinds_decoders]
    exact h.kinds_prefix
  · rw [List.length_map]
    exact (h.complete hok).1

/-- The client can decode an answer of the server. -/
lemma Served.decodes {ops : List Arg} {vs : List OpResult} (h : Served ops vs) {rs : List Res}
    (hrs : kinds rs = ops.map Arg.decoder) (hlen : ops.length < 2 ^ 32) (tag : Field) :
    (decodeReply rs (.ok (encodeReply (Server.overall vs) tag vs))).2.isOk = true := by
  have hparse := parseReply_encodeReply (h.length_le.trans_lt hlen)
    (by rw [hrs]; exact h.kinds_prefix) (Server.overall vs) tag
  obtain ⟨rs', hdec, -⟩ := decodeReply_of_parseReply hparse
  rw [hdec]
  rfl

/-- A success leaves no trace of what a clean decoder held. -/
lemma store_of_ok {v : OpResult} {r : Res} (hk : r.fresh = v.kind) (hclean : r.Clean)
    (hok : v.stat = nfs4Ok) : v.store r = v.store r.fresh := by
  obtain ⟨bs, hbs⟩ := v.body_eq
  have hread : ∀ {r : Res}, r.fresh = v.kind →
      (r.decodeRes (Xdr.input 0 (v.body ++ []))).1 = v.store r := by
    intro r hr
    exact congrArg Prod.fst (reads_decodeRes hr [])
  have hstat : (Xdr.Decoder.uint32 (Xdr.input 0 (v.body ++ []))).1 = nfs4Ok := by
    rw [List.append_nil, hbs, ← hok]
    exact congrArg Prod.fst (reads_uint32 v.stat bs)
  have hfresh : r.fresh.fresh = v.kind := by rw [fresh_fresh, hk]
  rw [← hread hk, ← hread hfresh, decodeRes_of_ok hclean hstat]

lemma storeAll_of_ok {vs : List OpResult} {rs : List Res} (hlen : vs.length = rs.length)
    (hk : vs.map OpResult.kind <+: kinds rs) (hclean : ∀ r ∈ rs, r.Clean)
    (hok : ∀ s ∈ vs.map OpResult.stat, s = nfs4Ok) :
    storeAll vs rs = storeAll vs (kinds rs) := by
  induction vs generalizing rs with
  | nil =>
      obtain rfl : rs = [] := List.length_eq_zero_iff.mp hlen.symm
      rfl
  | cons v vs ih =>
      obtain ⟨r, rs, rfl, hv, hvs⟩ := exists_cons_of_kinds hk
      have hrest := ih (by simpa using hlen) hvs (fun r hr => hclean r (by simp [hr]))
        fun s hs => hok s (by simp [List.map_cons, hs])
      have hfirst := store_of_ok hv.symm (hclean r (by simp)) (hok _ (by simp))
      simp only [storeAll, kinds, List.map_cons, List.zipWith_cons_cons, List.length_cons,
        List.drop_succ_cons, List.cons_append, hfirst, List.cons.injEq, true_and]
      exact hrest

lemma execAll_singleton {F D : Type} (srv : Server F D) (a : Arg) (f : F) :
    srv.execAll [a] f = ([(srv.exec a f).1], (srv.exec a f).2) := by
  rcases he : srv.exec a f with ⟨v, f'⟩
  by_cases hok : v.stat = nfs4Ok
  · exact Server.execAll_cons_ok he hok []
  · exact Server.execAll_cons_failed he hok []

/-! ## Reading the answer through session callers -/

section Sequenced

variable {ops : List Arg} {rs : List Res} {seqs vs : List OpResult}

lemma kinds_sequenceDecoders (k : ℕ) (rs : List Res) :
    kinds (sequenceDecoders k rs) = List.replicate k (.sequence {}) ++ kinds rs := by
  simp [kinds, sequenceDecoders, Res.fresh]

/-- The results of the SEQUENCE operations come first, and the session callers take them off. -/
lemma unwrap_accepted (hlen : seqs.length + ops.length < 2 ^ 32)
    (hrs : kinds rs = ops.map Arg.decoder) (hserved : Served ops vs)
    (hseqs : ∀ v ∈ seqs, v.kind = .sequence {} ∧ v.stat = nfs4Ok) (tag : Field) :
    ∃ r, unwrap seqs.length (decodeReply (sequenceDecoders seqs.length rs)
        (.ok (encodeReply (Server.overall (seqs ++ vs)) tag (seqs ++ vs))))
          = (storeAll vs rs, .ok r) ∧
      r.status = Server.overall vs := by
  have hoks : ∀ v ∈ seqs, v.stat = nfs4Ok := fun v hv => (hseqs v hv).2
  have hkinds : seqs.map OpResult.kind = List.replicate seqs.length (.sequence {}) := by
    rw [List.eq_replicate_iff]
    refine ⟨by simp, fun k hk => ?_⟩
    obtain ⟨v, hv, rfl⟩ := List.mem_map.mp hk
    exact (hseqs v hv).1
  have hkind : (seqs ++ vs).map OpResult.kind <+: kinds (sequenceDecoders seqs.length rs) := by
    rw [List.map_append, hkinds, kinds_sequenceDecoders, hrs]
    exact (List.prefix_append_right_inj _).mpr hserved.kinds_prefix
  have hvlen : (seqs ++ vs).length < 2 ^ 32 := by
    have := hserved.length_le
    rw [List.length_append]
    omega
  have hdec : decodeReply (sequenceDecoders seqs.length rs)
      (.ok (encodeReply (Server.overall (seqs ++ vs)) tag (seqs ++ vs)))
        = (storeAll (seqs ++ vs) (sequenceDecoders seqs.length rs),
          .ok ⟨Server.overall (seqs ++ vs), tag.1, (seqs ++ vs).length⟩) := by
    have hstored := decodeCompound_stored hvlen hkind (Server.overall (seqs ++ vs)) tag []
    rw [List.append_nil] at hstored
    rw [decodeReply, hstored]
    rfl
  have hsplit : storeAll (seqs ++ vs) (sequenceDecoders seqs.length rs)
      = List.zipWith OpResult.store seqs (List.replicate seqs.length (.sequence {}))
        ++ storeAll vs rs := by
    rw [storeAll, sequenceDecoders, List.zipWith_append (by simp), List.append_assoc,
      List.length_append, ← List.drop_drop, List.drop_left' (by simp)]
    rfl
  set stored := List.zipWith OpResult.store seqs (List.replicate seqs.length (.sequence {}))
    with hstored
  have hzip : stored.length = seqs.length := by simp [hstored]
  have hstats : stored.map Res.stat = seqs.map OpResult.stat :=
    map_stat_zipWith (by rw [hkinds]; simp [kinds, Res.fresh])
  have hgood : firstBad (((stored ++ storeAll vs rs).take seqs.length).map Res.stat) = none := by
    rw [List.take_left' hzip, hstats, firstBad_eq_none]
    simpa using hoks
  rw [hdec, hsplit]
  obtain ⟨r, hr, hstatus⟩ := unwrap_ok
    (r := ⟨Server.overall (seqs ++ vs), tag.1, (seqs ++ vs).length⟩) (by simp [hzip]) hgood
  refine ⟨r, by rw [hr, List.drop_left' hzip], ?_⟩
  rw [hstatus]
  exact overall_append hoks

/-- A SEQUENCE that fails makes the call fail with its status. -/
lemma unwrap_sequence_failed {args : List SequenceArgs} (hlen : args.length + ops.length < 2 ^ 32)
    (hrs : kinds rs = ops.map Arg.decoder) (hserved : Served (args.map Arg.sequence ++ ops) vs)
    (hshort : vs.length ≤ args.length) (hbad : Server.overall vs ≠ nfs4Ok) (tag : Field) :
    ∃ rs' e, unwrap args.length (decodeReply (sequenceDecoders args.length rs)
        (.ok (encodeReply (Server.overall vs) tag vs))) = (rs', .error e) ∧
      e.asStatus = some (Server.overall vs) := by
  have hclen : (args.map Arg.sequence ++ ops).length < 2 ^ 32 := by simpa using hlen
  have hkinds : kinds (sequenceDecoders args.length rs)
      = (args.map Arg.sequence ++ ops).map Arg.decoder := by
    rw [kinds_sequenceDecoders, hrs, List.map_append]
    simp [Function.comp_def, Arg.decoder]
  have hparse := parseReply_encodeReply (hserved.length_le.trans_lt hclen)
    (by rw [hkinds]; exact hserved.kinds_prefix) (Server.overall vs) tag
  obtain ⟨rs', o, hu, -, -, hfirst, -⟩ := unwrap_of_parseReply hparse
  rw [List.take_of_length_le (by simpa using hshort)] at hfirst
  cases hq : firstBad (vs.map OpResult.stat) with
  | none =>
      -- all the results would be NFS4_OK
      refine absurd ?_ hbad
      rw [firstBad_eq_none] at hq
      rw [← List.append_nil vs, overall_append fun v hv => hq _ (List.mem_map_of_mem hv)]
      rfl
  | some q =>
      obtain ⟨e, rfl, he⟩ := hfirst q hq
      rw [(hserved.firstBad_eq hq).1] at he
      exact ⟨rs', e, hu, he⟩

end Sequenced

end NfsClient.Nfs4
