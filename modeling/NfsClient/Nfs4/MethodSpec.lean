import NfsClient.Nfs4.FileServer

/-!
# The methods of a connection as operations of a file system

`Method.spec` says what a method is meant to do to a file system, in one step and without
compounds, handles on the wire, sessions or retries.  The operations that the method sends
yield exactly that when a server runs them (`Method.meets_spec`).  Together with the atomicity
of a call this gives the two main results.  Whatever the server puts off, whenever the contexts
end and whatever gets lost on the way, a method does what it is meant to do, gives up without any
effect, or is lost, and then it has all of its effect or none (`run_atomic`).  It neither gives up
nor gets lost on a server that is in time, over a link that delivers every reply (`run_served`).
-/

namespace NfsClient.Nfs4

open NfsClient.Lib NfsClient.Nfs4.Format

/-! ## What the methods are meant to do -/

namespace FileSystem

variable {T H α β : Type} (fs : FileSystem T H)

/-- The object that a file handle stands for, and what is done with it. -/
def onObject (fh : FileHandle) (t : T) (k : H → Except Status α × T) : Except Status α × T :=
  match fs.object (fh.getD []) t with
  | .ok h => k h
  | .error e => (.error e.1, t)

/-- The result of an operation, as the client sees it. -/
def view (f : α → β) : Except Failure α → Except Status β
  | .ok a => .ok (f a)
  | .error e => .error e.1

/-- The bytes of a handle. -/
def fileHandle (h : H) : FileHandle := some (fs.handle h).1

end FileSystem

namespace Method

variable {T H : Type} (fs : FileSystem T H) (c : Conn)

/-- What a method does to a file system. -/
def spec : (m : Method) → T → Except Status m.Value × T
  | .fetchRootFH, t => (.ok (fs.fileHandle fs.root), t)
  | .lookup dir name, t => fs.onObject dir t fun h =>
      (FileSystem.view fs.fileHandle (fs.lookup h name t), t)
  | .getAttr fh mask, t => fs.onObject fh t fun h =>
      (FileSystem.view (fun a => (a.mask.1, a.vals.1)) (fs.getattr h mask t), t)
  | .read fh offset count, t => fs.onObject fh t fun h =>
      (FileSystem.view (fun d => (d.data.1, d.eof))
        (fs.read h { stateid := anonStateid, offset, count } t), t)
  | .readdir dir cookie cookieverf mask, t => fs.onObject dir t fun h =>
      (FileSystem.view
        (fun d =>
          { cookieverf := d.cookieverf, entries := d.entries.map Entry.stored, eof := d.eof })
        (fs.readdir h { cookie, cookieverf, dircount := 8192, maxcount := 65536,
                        attrRequest := mask } t), t)
  | .readlink fh, t => fs.onObject fh t fun h =>
      (FileSystem.view (fun l => l.1) (fs.readlink h t), t)
  | .openFile q, t => fs.onObject q.dir t fun h =>
      let r := fs.openFile h (c.openArgs q c.nextSeqid.1) t
      (FileSystem.view (fun o => (fs.fileHandle o.2,
        { stateid := o.1.stateid, rFlags := o.1.rflags, attrSet := o.1.attrset.1 })) r.1, r.2)
  | .openConfirm fh sid, t => fs.onObject fh t fun h =>
      let r := fs.openConfirm h sid c.nextSeqid.1 t
      (FileSystem.view id r.1, r.2)
  | .write fh sid offset data stable, t => fs.onObject fh t fun h =>
      let r := fs.write h { stateid := sid, offset, stable, data } t
      (FileSystem.view (fun w => (w.count, w.committed)) r.1, r.2)
  | .commit fh offset count, t => fs.onObject fh t fun h =>
      let r := fs.commit h offset count t
      (FileSystem.view (fun _ => ()) r.1, r.2)
  | .closeFile fh sid, t => fs.onObject fh t fun h =>
      let r := fs.close h c.nextSeqid.1 sid t
      (FileSystem.view (fun _ => ()) r.1, r.2)
  | .mkdir dir name attrMask attrVals, t => fs.onObject dir t fun h =>
      let r := fs.create h { type := 2, objName := name, attrMask, attrVals } t
      (FileSystem.view (fun o => fs.fileHandle o.2) r.1, r.2)
  | .symlink dir name target attrMask attrVals, t => fs.onObject dir t fun h =>
      let r := fs.create h { type := 5, linkData := target, objName := name, attrMask, attrVals } t
      (FileSystem.view (fun o => fs.fileHandle o.2) r.1, r.2)
  | .remove dir name, t => fs.onObject dir t fun h =>
      let r := fs.remove h name t
      (FileSystem.view (fun _ => ()) r.1, r.2)
  | .rename src old dst new, t => fs.onObject src t fun h => fs.onObject dst t fun h' =>
      let r := fs.rename h old h' new t
      (FileSystem.view (fun _ => ()) r.1, r.2)
  | .link src dst new, t => fs.onObject src t fun h => fs.onObject dst t fun h' =>
      let r := fs.link h h' new t
      (FileSystem.view (fun _ => ()) r.1, r.2)
  | .setAttr fh sid attrMask attrVals, t => fs.onObject fh t fun h =>
      let r := fs.setattr h { stateid := sid, attrMask, attrVals } t
      (r.1.1.elim (.ok ()) fun e => .error e.1, r.2)

end Method

/-! ## What the operations of a method yield -/

/-- The status with which a method fails is reported as that of the compound. -/
def MultiOp.report {α : Type} (m : MultiOp α) : Except Status α → Except Err α
  | .ok v => .ok v
  | .error st => .error (m.wrapOverall (.status st))

section Runs

variable {T H D α : Type} (fs : FileSystem T H) (tag : Field) (L : Load (Cursor T H) D)
  {fh : FileHandle} {h : H} {e : Failure} {s : Cursor T H}

lemma execAll_putfh_ok (ho : fs.object (fh.getD []) s.tree = .ok h) (ops : List Arg) :
    (fs.server tag L).execAll (.putfh fh :: ops) s
      = (.status opPutfh nfs4Ok ::
          ((fs.server tag L).execAll ops { s with current := some h }).1,
        ((fs.server tag L).execAll ops { s with current := some h }).2) := by
  have he : (fs.server tag L).exec (.putfh fh) s
      = (.status opPutfh nfs4Ok, { s with current := some h }) := by
    show fs.exec (.putfh fh) s = _
    simp only [FileSystem.exec, ho]
  exact Server.execAll_cons_ok he rfl ops

lemma execAll_putfh_error (ho : fs.object (fh.getD []) s.tree = .error e) (ops : List Arg) :
    (fs.server tag L).execAll (.putfh fh :: ops) s = ([.status opPutfh e.1], s) := by
  have he : (fs.server tag L).exec (.putfh fh) s = (.status opPutfh e.1, s) := by
    show fs.exec (.putfh fh) s = _
    simp only [FileSystem.exec, ho]
  exact Server.execAll_cons_failed he e.2.1 ops

lemma judge_ok (m : MultiOp α) {vs : List OpResult} (hst : Server.overall vs = nfs4Ok) :
    m.judge vs = m.report (.ok (m.value (storeAll vs m.results))) := by
  rw [MultiOp.judge, if_pos hst]
  rfl

lemma judge_error (m : MultiOp α) {vs : List OpResult} {st : Status}
    (hst : Server.overall vs = st) (hne : st ≠ nfs4Ok) : m.judge vs = m.report (.error st) := by
  rw [MultiOp.judge, hst, if_neg hne]
  rfl

/-- What the operations of a method yield is what is specified. -/
def MultiOp.Meets (m : MultiOp α) (t : T) (r : Except Status α × T) : Prop :=
  m.judge ((fs.server tag L).execAll m.ops { tree := t }).1 = m.report r.1 ∧
    ((fs.server tag L).execAll m.ops { tree := t }).2.tree = r.2

/-- PUTFH and one operation. -/
lemma meets_putfh_op (m : MultiOp α) {a : Arg} (hops : m.ops = [.putfh fh, a]) (t : T)
    (k : H → Except Status α × T)
    (hk : ∀ h,
      m.judge [.status opPutfh nfs4Ok, (fs.exec a ⟨t, some h, none⟩).1] = m.report (k h).1 ∧
      (fs.exec a ⟨t, some h, none⟩).2.tree = (k h).2) :
    m.Meets fs tag L t (fs.onObject fh t k) := by
  unfold MultiOp.Meets
  rw [hops]
  cases ho : fs.object (fh.getD []) t with
  | error e =>
      rw [execAll_putfh_error fs tag L ho]
      simp only [FileSystem.onObject, ho]
      exact ⟨judge_error m rfl e.2.1, trivial⟩
  | ok h =>
      rw [execAll_putfh_ok fs tag L ho, execAll_singleton]
      simp only [FileSystem.onObject, ho]
      exact hk h

/-- PUTFH, an operation that sets the current file handle, and GETFH. -/
lemma meets_putfh_op_getfh (m : MultiOp α) {a : Arg} (hops : m.ops = [.putfh fh, a, .getfh]) (t : T)
    (k : H → Except Status α × T)
    (hk : ∀ h, (∃ v h' t', fs.exec a ⟨t, some h, none⟩ = (v, ⟨t', some h', none⟩) ∧
          v.stat = nfs4Ok ∧ k h = (.ok (m.value (storeAll
            [.status opPutfh nfs4Ok, v, .getfh (.ok (fs.handle h'))] m.results)), t')) ∨
        ∃ v s', fs.exec a ⟨t, some h, none⟩ = (v, s') ∧ v.stat ≠ nfs4Ok ∧
          k h = (.error v.stat, s'.tree)) :
    m.Meets fs tag L t (fs.onObject fh t k) := by
  unfold MultiOp.Meets
  rw [hops]
  cases ho : fs.object (fh.getD []) t with
  | error e =>
      rw [execAll_putfh_error fs tag L ho]
      simp only [FileSystem.onObject, ho]
      exact ⟨judge_error m rfl e.2.1, trivial⟩
  | ok h =>
      rw [execAll_putfh_ok fs tag L ho]
      simp only [FileSystem.onObject, ho]
      rcases hk h with ⟨v, h', t', he, hst, hkh⟩ | ⟨v, s', he, hst, hkh⟩
      · have he' : (fs.server tag L).exec a ⟨t, some h, none⟩ = (v, ⟨t', some h', none⟩) := he
        rw [Server.execAll_cons_ok he' hst, execAll_singleton, hkh]
        exact ⟨judge_ok m rfl, rfl⟩
      · have he' : (fs.server tag L).exec a ⟨t, some h, none⟩ = (v, s') := he
        rw [Server.execAll_cons_failed he' hst, hkh]
        exact ⟨judge_error m rfl hst, rfl⟩

/-- PUTFH, SAVEFH, PUTFH and an operation on both objects. -/
lemma meets_savefh_op (m : MultiOp α) {src dst : FileHandle} {a : Arg}
    (hops : m.ops = [.putfh src, .savefh, .putfh dst, a]) (t : T)
    (k : H → H → Except Status α × T)
    (hk : ∀ h h', m.judge [.status opPutfh nfs4Ok, .status opSavefh nfs4Ok, .status opPutfh nfs4Ok,
          (fs.exec a ⟨t, some h', some h⟩).1] = m.report (k h h').1 ∧
      (fs.exec a ⟨t, some h', some h⟩).2.tree = (k h h').2) :
    m.Meets fs tag L t (fs.onObject src t fun h => fs.onObject dst t fun h' => k h h') := by
  unfold MultiOp.Meets
  rw [hops]
  cases ho : fs.object (src.getD []) t with
  | error e =>
      rw [execAll_putfh_error fs tag L ho]
      simp only [FileSystem.onObject, ho]
      exact ⟨judge_error m rfl e.2.1, trivial⟩
  | ok h =>
      have hsave : ∀ ops, (fs.server tag L).execAll (.savefh :: ops) ⟨t, some h, none⟩
          = (.status opSavefh nfs4Ok ::
              ((fs.server tag L).execAll ops ⟨t, some h, some h⟩).1,
            ((fs.server tag L).execAll ops ⟨t, some h, some h⟩).2) := by
        intro ops
        exact Server.execAll_cons_ok rfl rfl ops
      rw [execAll_putfh_ok fs tag L ho, hsave]
      simp only [FileSystem.onObject, ho]
      cases ho' : fs.object (dst.getD []) t with
      | error e =>
          rw [execAll_putfh_error fs tag L ho']
          exact ⟨judge_error m rfl e.2.1, rfl⟩
      | ok h' =>
          rw [execAll_putfh_ok fs tag L ho', execAll_singleton]
          exact hk h h'

/-- A result that the client views through `f`. -/
lemma judge_view (m : MultiOp α) {β : Type} {f : β → α} {answer : Result β → OpResult}
    (pre : List OpResult) (hpre : ∀ r, Server.overall (pre ++ [answer r]) = r.status)
    (hval : ∀ b, m.value (storeAll (pre ++ [answer (.ok b)]) m.results) = f b)
    (r : Except Failure β) :
    m.judge (pre ++ [answer (.ofExcept r)]) = m.report (FileSystem.view f r) := by
  cases r with
  | ok b =>
      rw [judge_ok m (hpre (.ofExcept (.ok b)))]
      exact congrArg (fun v => m.report (.ok v)) (hval b)
  | error e => exact judge_error m (hpre _) e.2.1

end Runs

/-- **The operations of a method yield what it is meant to do.** -/
theorem Method.meets_spec {T H D : Type} (fs : FileSystem T H) (tag : Field)
    (L : Load (Cursor T H) D) (c : Conn) (m : Method) (t : T) :
    (m.multiOp c).Meets fs tag L t (m.spec fs c t) := by
  cases m with
  | fetchRootFH => exact ⟨rfl, rfl⟩
  | getAttr fh mask | read fh offset count | readdir dir cookie verf mask | readlink fh
  | openConfirm fh sid | write fh sid offset data stable | commit fh offset count
  | closeFile fh sid | remove dir name =>
      refine meets_putfh_op fs tag L _ rfl t _ fun h => ⟨?_, rfl⟩
      exact judge_view _ [.status opPutfh nfs4Ok] (fun _ => rfl) (fun _ => rfl) _
  | setAttr fh sid mask vals =>
      refine meets_putfh_op fs tag L (setAttrOp fh sid mask vals) rfl t _ fun h => ?_
      rcases hs : fs.setattr h { stateid := sid, attrMask := mask, attrVals := vals } t with
        ⟨⟨_ | st, attrset⟩, t'⟩
      · simp only [FileSystem.exec, FileSystem.execAt, hs]
        exact ⟨rfl, trivial⟩
      · simp only [FileSystem.exec, FileSystem.execAt, hs]
        exact ⟨judge_error _ rfl st.2.1, trivial⟩
  | rename src old dst new | link src dst new =>
      refine meets_savefh_op fs tag L _ rfl t _ fun h h' => ⟨?_, rfl⟩
      exact judge_view _ [.status opPutfh nfs4Ok, .status opSavefh nfs4Ok, .status opPutfh nfs4Ok]
        (fun _ => rfl) (fun _ => rfl) _
  | lookup dir name =>
      refine meets_putfh_op_getfh fs tag L (lookupOp dir name) rfl t _ fun h => ?_
      cases hl : fs.lookup h name t with
      | ok h' =>
          exact .inl ⟨.status opLookup nfs4Ok, h', t,
            by simp only [FileSystem.exec, FileSystem.execAt, hl], rfl, rfl⟩
      | error e =>
          exact .inr ⟨.status opLookup e.1, ⟨t, some h, none⟩,
            by simp only [FileSystem.exec, FileSystem.execAt, hl], e.2.1, rfl⟩
  | openFile q =>
      refine meets_putfh_op_getfh fs tag L (openOp q.dir (c.openArgs q c.nextSeqid.1)) rfl t _
        fun h => ?_
      rcases ho : fs.openFile h (c.openArgs q c.nextSeqid.1) t with ⟨e | ⟨o, h'⟩, t'⟩
      · exact .inr ⟨.openFile (.failed e.1 e.2.1), ⟨t', some h, none⟩,
          by simp only [FileSystem.exec, FileSystem.execAt, ho, FileSystem.enter], e.2.1, rfl⟩
      · exact .inl ⟨.openFile (.ok o), h', t',
          by simp only [FileSystem.exec, FileSystem.execAt, ho, FileSystem.enter], rfl, rfl⟩
  | mkdir dir name mask vals | symlink dir name target mask vals =>
      refine meets_putfh_op_getfh fs tag L (createOp dir _) rfl t _ fun h => ?_
      dsimp only
      generalize hr : fs.create h _ t = r
      obtain ⟨e | ⟨o, h'⟩, t'⟩ := r
      · exact .inr ⟨.create (.failed e.1 e.2.1), ⟨t', some h, none⟩,
          by simp only [FileSystem.exec, FileSystem.execAt, hr, FileSystem.enter], e.2.1, rfl⟩
      · exact .inl ⟨.create (.ok o), h', t',
          by simp only [FileSystem.exec, FileSystem.execAt, hr, FileSystem.enter], rfl, rfl⟩

/-! ## Calls of a method -/

/-- Operations that end in one that may change the tree, or in one and GETFH operations. -/
lemma Durable.guards_append {F D T : Type} {srv : Server F D} (V : Durable srv T)
    (pre : List Arg) (a : Arg) (after : List Arg)
    (hpre : ∀ x ∈ pre, ∀ f, V.tree (srv.exec x f).2 = V.tree f) (hafter : ∀ x ∈ after, x = .getfh) :
    V.Guards (pre ++ a :: after) := by
  intro pre' b post hsplit hb x hx f
  rcases List.append_eq_append_iff.mp hsplit with ⟨as, rfl, hrest⟩ | ⟨bs, rfl, -⟩
  · cases as with
    | nil => exact hpre x (by simpa using hx) f
    | cons a' as =>
        -- everything behind the operation is GETFH, which is never put off
        have hmem : b ∈ after := by
          rw [(List.cons.inj hrest).2]
          simp
        obtain rfl := hafter b hmem
        obtain ⟨f, d, v, hv⟩ := hb
        simp [srv.putOff_getfh] at hv
  · exact hpre x (List.mem_append_left _ hx) f

namespace Method

variable {T H D : Type} (fs : FileSystem T H) (tag : Field) (L : Load (Cursor T H) D)

/-- Operations that move the file handles keep the tree. -/
lemma tree_navigate {x : Arg} (hx : (∃ fh, x = .putfh fh) ∨ x = .savefh) (s : Cursor T H) :
    (fs.exec x s).2.tree = s.tree := by
  rcases hx with ⟨fh, rfl⟩ | rfl
  · simp only [FileSystem.exec]
    split <;> rfl
  · simp only [FileSystem.exec]
    split <;> rfl

lemma guards (c : Conn) (m : Method) : (fs.durable tag L).Guards (m.multiOp c).ops := by
  have hput : ∀ (fh : FileHandle), ∀ x ∈ [Arg.putfh fh], ∀ s : Cursor T H,
      (fs.exec x s).2.tree = s.tree := by
    intro fh x hx s
    exact tree_navigate fs (.inl ⟨fh, List.mem_singleton.mp hx⟩) s
  cases m with
  | fetchRootFH => exact Durable.guards_append _ [] .putrootfh [.getfh] (by simp) (by simp)
  | lookup dir name | mkdir dir name mask vals | symlink dir name target mask vals =>
      exact Durable.guards_append _ [.putfh dir] _ [.getfh] (hput dir) (by simp)
  | openFile q => exact Durable.guards_append _ [.putfh q.dir] _ [.getfh] (hput q.dir) (by simp)
  | getAttr fh mask | read fh offset count | readdir fh cookie verf mask | readlink fh
  | openConfirm fh sid | write fh sid offset data stable | commit fh offset count
  | closeFile fh sid | remove fh name | setAttr fh sid mask vals =>
      exact Durable.guards_append _ [.putfh fh] _ [] (hput fh) (by simp)
  | rename src old dst new | link src dst new =>
      refine Durable.guards_append _ [.putfh src, .savefh, .putfh dst] _ [] ?_ (by simp)
      intro x hx s
      refine tree_navigate fs ?_ s
      simp only [List.mem_cons, List.not_mem_nil, or_false] at hx
      rcases hx with rfl | rfl | rfl
      · exact .inl ⟨src, rfl⟩
      · exact .inr rfl
      · exact .inl ⟨dst, rfl⟩

lemma fits (c : Conn) {k : ℕ} (hk : k < 2 ^ 31) (m : Method) :
    (fs.durable tag L).Fits k (m.multiOp c).ops where
  guards := guards fs tag L c m
  plain q := by
    cases m <;> simp [multiOp, fetchRootFHOp, lookupOp, getAttrOp, readOp, readdirOp, readlinkOp,
      openOp, openConfirmOp, writeOp, commitOp, closeFileOp, mkdirOp, symlinkOp, createOp, removeOp,
      renameOp, linkOp, setAttrOp]
  ne_nil := m.ops_ne_nil c
  keeps := m.keepsLast c
  length_lt := by
    have hlen : (m.multiOp c).ops.length ≤ 4 := by
      cases m <;> exact Nat.le_of_ble_eq_true rfl
    omega

lemma conn_caller (c : Conn) (m : Method) : (m.conn c).caller = c.caller := by
  cases m <;> rfl

lemma conn_cfg (c : Conn) (m : Method) : (m.conn c).cfg = c.cfg := by
  cases m <;> rfl

end Method

/-- The connection repeats its calls.  It has one session and speaks v4.1, or no session and
speaks v4.0. -/
structure Conn.Uses (c : Conn) (p : Option ℕ) (cfg : RetryConfig) : Prop where
  caller : c.caller = .retry (sessionStack p.toList) cfg
  version : p.isSome = true ↔ 1 ≤ c.cfg.minorVersion

lemma Conn.Uses.next {c : Conn} {p : Option ℕ} {cfg : RetryConfig} (h : c.Uses p cfg)
    (m : Method) : (m.conn c).Uses p cfg where
  caller := (m.conn_caller c).trans h.caller
  version := by
    rw [m.conn_cfg c]
    exact h.version

section Calls

variable {T H D C : Type} (fs : FileSystem T H) (tag : Field) (L : Load (Cursor T H) D)
  (N : Link C) {c : Conn}

/-- The method failed with an error with which calls give up. -/
def Method.GaveUp (c : Conn) (m : Method) (r : Except Err m.Value) : Prop :=
  ∃ e, r = .error ((m.multiOp c).wrapCall e) ∧ GivesUp e

/-- The method failed with an error with which calls get lost. -/
def Method.WasLost (N : Link C) (c : Conn) (m : Method) (r : Except Err m.Value) : Prop :=
  ∃ e, r = .error ((m.multiOp c).wrapCall e) ∧ N.Loses e

/-- A server in time serves the method. -/
lemma Method.exec_served {rank : D → ℕ} (hP : (fs.server tag L).Patience rank) {p : Option ℕ}
    {cfg : RetryConfig} (hc : c.Uses p cfg) (m : Method)
    {n : Net (FileWorld T H D C)} (hst : Steady N p n)
    (hleft : rank n.world.load < cfg.maxAttempts.toNat) :
    (m.exec (fs.env tag L N) c n).1 = (m.multiOp c).report (m.spec fs c n.world.tree).1 ∧
      (m.exec (fs.env tag L N) c n).2.world.tree = (m.spec fs c n.world.tree).2 ∧
      Steady N p (m.exec (fs.env tag L N) c n).2 ∧
      rank (m.exec (fs.env tag L N) c n).2.world.load ≤ rank n.world.load := by
  obtain ⟨hjudge, htree⟩ := Method.meets_spec fs tag L c m n.world.tree
  have hfit := Method.fits fs tag L c (show p.toList.length < 2 ^ 31 by cases p <;> simp) m
  obtain ⟨hval, hfiles, hst', hrank⟩ := MultiOp.exec_completes (fs.durable tag L) hP
    ((m.conn_caller c).trans hc.caller) (m.multiOp c) hfit hst hleft
  exact ⟨hval.trans hjudge, hfiles.trans htree, hst', hrank⟩

end Calls

/-! ## Runs -/

/-- A method together with what it returned. -/
abbrev MethodResult : Type := (m : Method) × Except Err m.Value

/-- The calls of the methods, one after the other. -/
def runAll {W : Type} (E : Env W) : List Method → Conn → Net W → List MethodResult × Net W
  | [], _, n => ([], n)
  | m :: ms, c, n =>
    match m.exec E c n with
    | (r, n') =>
      match runAll E ms (m.conn c) n' with
      | (rs, n'') => (⟨m, r⟩ :: rs, n'')

section Runs

variable {T H D C : Type} (fs : FileSystem T H)

/-- What the methods are meant to do, one after the other. -/
def specAll : List Method → Conn → T → List MethodResult × T
  | [], _, t => ([], t)
  | m :: ms, c, t =>
    match m.spec fs c t with
    | (r, t') =>
      match specAll ms (m.conn c) t' with
      | (rs, t'') => (⟨m, (m.multiOp c).report r⟩ :: rs, t'')

/-- The results and the effect of a run: each method gave up without any effect, was lost with all
of its effect or none, or did what it is meant to do. -/
inductive Explained (N : Link C) : List MethodResult → Conn → T → T → Prop
  | nil {c : Conn} {t : T} : Explained N [] c t t
  | gaveUp {c : Conn} {m : Method} {r : Except Err m.Value} {rs : List MethodResult} {t t' : T}
      (h : m.GaveUp c r) (hrest : Explained N rs (m.conn c) t t') :
      Explained N (⟨m, r⟩ :: rs) c t t'
  | lost {c : Conn} {m : Method} {r : Except Err m.Value} {rs : List MethodResult} {t t₁ t' : T}
      (h : m.WasLost N c r) (ht : t₁ = t ∨ t₁ = (m.spec fs c t).2)
      (hrest : Explained N rs (m.conn c) t₁ t') : Explained N (⟨m, r⟩ :: rs) c t t'
  | done {c : Conn} {m : Method} {r : Except Err m.Value} {rs : List MethodResult} {t t' : T}
      (h : r = (m.multiOp c).report (m.spec fs c t).1)
      (hrest : Explained N rs (m.conn c) (m.spec fs c t).2 t') : Explained N (⟨m, r⟩ :: rs) c t t'

variable (tag : Field) (L : Load (Cursor T H) D) (N : Link C) {c : Conn}

/-- **Every method is atomic, in every run.**  Whatever the file system is, whatever operations
the server puts off (but those it never does: SEQUENCE, GETFH and those with a seqid), whenever
the contexts end and whatever calls get lost on the way: each method of a run does to the file
system what it is meant to do, once, and returns the values or the status of that; or it fails
with the error of a context, one that carries NFS4ERR_DELAY or NFS4ERR_GRACE, or one with the
status of a SEQUENCE that the server refused, and the file system is as it was; or its last call
was lost with an error of the link, and then the method has had all of its effect or none. -/
theorem run_atomic {ps : List ℕ} {cfg : RetryConfig}
    (hc : c.caller = .retry (sessionStack ps) cfg) (hps : ps.length < 2 ^ 31)
    (ms : List Method) (n : Net (FileWorld T H D C)) :
    Explained fs N (runAll (fs.env tag L N) ms c n).1 c n.world.tree
      (runAll (fs.env tag L N) ms c n).2.world.tree := by
  induction ms generalizing c n with
  | nil => exact .nil
  | cons m ms ih =>
      obtain ⟨hjudge, heffect⟩ := Method.meets_spec fs tag L c m n.world.tree
      have hcaller := (m.conn_caller c).trans hc
      have hstep := MultiOp.exec_atomic (N := N) (fs.durable tag L) hcaller (m.multiOp c)
        (Method.fits fs tag L c hps m) n
      rcases he : m.exec (fs.env tag L N) c n with ⟨r, n'⟩
      rw [show (m.multiOp c).exec ((fs.server tag L).sessioned.over N) (m.conn c) n = (r, n')
        from he] at hstep
      have hrest := ih hcaller n'
      simp only [runAll, he]
      cases hstep with
      | gaveUp hr hwhy htree =>
          rw [show n'.world.tree = n.world.tree from htree] at hrest
          exact .gaveUp ⟨_, hr, hwhy⟩ hrest
      | lost hr hwhy htree =>
          exact .lost ⟨_, hr, hwhy⟩ (htree.imp_right fun h => h.trans heffect) hrest
      | done hr htree =>
          rw [show n'.world.tree = _ from htree.trans heffect] at hrest
          exact .done (hr.trans hjudge) hrest

/-- A directory whose files can be looked up and removed. -/
def oneDirectory : FileSystem (List Bytes) Unit where
  __ := denying (List Bytes)
  lookup _ name t := if name ∈ t then .ok () else .error .noent
  remove _ name t := if name ∈ t then (.ok ⟨true, 0, 0⟩, t.erase name) else (.error .noent, t)

/-- A server that puts off as many operations as its load says. -/
def countdown (F : Type) : Load F ℕ where
  delay _ _ load := match load with
    | 0 => (none, 0)
    | load + 1 => (some ⟨nfs4errDelay, by decide⟩, load)

/-- Contexts that end while a call is under way: the calls whose turn it is are cancelled when the
server has got the request. -/
def cancelling : Link (List Bool) where
  ctxErr c := (none, c)
  select c := (none, c)
  sleep _ c := (none, c)
  trip
    | true :: c => (some ⟨.ctx .canceled, rfl, true⟩, c)
    | _ :: c => (none, c)
    | [] => (none, [])

/-- A v4.1 connection with a session. -/
def steadyConn : Conn :=
  { newConn .rpc { minorVersion := 1 } with
    caller := .retry (sessionStack [0]) (RetryConfig.withDefaults {}), session := some 0 }

lemma steadyConn_uses : steadyConn.Uses (some 0) (RetryConfig.withDefaults {}) :=
  ⟨rfl, by decide⟩

/-- The session of the connection has two slots, and so has it at the server, which is going to put
operations off. -/
def steadyNet {F C : Type} (f : F) (load : ℕ) (contexts : C) : Net (World (Sessioned F) ℕ C) where
  world :=
    { files := { base := f, sessions := fun _ => some [1, 1] }
      load
      contexts }
  sessions := [newSession default 2]

/-- The first call removes a file and is cancelled on the way back.  The client then repeats the
sequence id, so the second call is refused and removes nothing. -/
theorem run_atomic_cancelled :
    Explained oneDirectory cancelling
        (runAll (oneDirectory.env emptyTag (countdown _) cancelling)
          [.remove none [97], .remove none [98]] steadyConn
          (steadyNet { tree := [[97], [98]] } 1 [false, true])).1
        steadyConn [[97], [98]]
        (runAll (oneDirectory.env emptyTag (countdown _) cancelling)
          [.remove none [97], .remove none [98]] steadyConn
          (steadyNet { tree := [[97], [98]] } 1 [false, true])).2.world.tree ∧
      (runAll (oneDirectory.env emptyTag (countdown _) cancelling)
        [.remove none [97], .remove none [98]] steadyConn
        (steadyNet { tree := [[97], [98]] } 1 [false, true])).2.world.tree = [[98]] :=
  ⟨run_atomic oneDirectory emptyTag (countdown _) cancelling steadyConn_uses.caller
    (by decide) [.remove none [97], .remove none [98]] _, by decide +kernel⟩

/-- **A server in time serves every run.**  Let the connection have no session and speak v4.0, or
have one session that is in step with the server, and let no context be done and every reply
arrive.  If the server puts off fewer operations than the client has attempts, then the methods
of a run return what they are meant to return, and leave the file system as they are meant to
leave it. -/
theorem run_served {rank : D → ℕ} (hP : (fs.server tag L).Patience rank) {p : Option ℕ}
    {cfg : RetryConfig} (hc : c.Uses p cfg) (ms : List Method)
    {n : Net (FileWorld T H D C)} (hst : Steady N p n)
    (hleft : rank n.world.load < cfg.maxAttempts.toNat) :
    (runAll (fs.env tag L N) ms c n).1 = (specAll fs ms c n.world.tree).1 ∧
      (runAll (fs.env tag L N) ms c n).2.world.tree = (specAll fs ms c n.world.tree).2 := by
  induction ms generalizing c n with
  | nil => exact ⟨rfl, rfl⟩
  | cons m ms ih =>
      have hstep := m.exec_served fs tag L N hP hc hst hleft
      rcases he : m.exec (fs.env tag L N) c n with ⟨r, n'⟩
      rcases hs : m.spec fs c n.world.tree with ⟨v, t'⟩
      rw [he, hs] at hstep
      obtain ⟨hr, htree, hst', hrank⟩ := hstep
      obtain ⟨hres, hfinal⟩ := ih (hc.next m) hst' (hrank.trans_lt hleft)
      rw [show n'.world.tree = t' from htree] at hres hfinal
      simp only [runAll, he, specAll, hs]
      exact ⟨by rw [hres]; exact congrArg (fun x => (⟨m, x⟩ : MethodResult) :: _) hr, hfinal⟩

lemma countdown_patience : (fs.server tag (countdown _)).Patience id where
  putOff := by
    intro a f d v h
    simp only [FileSystem.server, countdown] at h ⊢
    split at h
    · simp at h
    · cases d <;> simp_all
  goOn := by
    intro a f d h
    simp only [FileSystem.server, countdown] at h ⊢
    split
    · exact le_rfl
    · cases d <;> simp

lemma alwaysOn_open : alwaysOn.reliable.Open :=
  ⟨fun _ => rfl, fun _ => rfl, fun _ _ => rfl, fun _ => rfl⟩

lemma newSession_ready : (newSession default 2).Ready :=
  ⟨by decide, by decide, by decide, by decide⟩

lemma steadyNet_steady {F : Type} (f : F) (load : ℕ) :
    Steady alwaysOn.reliable (some 0) (steadyNet f load ()) where
  link := alwaysOn_open
  ready := by
    rintro _ ⟨⟩
    exact newSession_ready
  agrees := by
    rintro _ ⟨⟩
    rfl

/-- Three operations are put off on the way. -/
theorem run_served_removes :
    (runAll (oneDirectory.env emptyTag (countdown _) alwaysOn.reliable)
        [.remove none [97], .remove none [97]] steadyConn
        (steadyNet { tree := [[97], [98]] } 3 ())).1
      = (specAll oneDirectory [.remove none [97], .remove none [97]] steadyConn
          [[97], [98]]).1 :=
  (run_served oneDirectory emptyTag (countdown _) alwaysOn.reliable
    (countdown_patience oneDirectory emptyTag) steadyConn_uses
    [.remove none [97], .remove none [97]] (steadyNet_steady _ 3) (by decide)).1

end Runs

end NfsClient.Nfs4
