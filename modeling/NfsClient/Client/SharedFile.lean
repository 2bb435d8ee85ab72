import NfsClient.Lib.Serial
import NfsClient.Client.FileRoutine

/-!
# A file shared by goroutines

The methods of `File` as they interleave: `f.mu` is held during all of `Read`, `Write` and
`Seek`, but only while `ReadAt`, `WriteAt`, `Truncate` and `Close` look at `closed`; every call
of the protocol is a step of its own.  Run alone, a method does what it does in the sequential
model (`exec_method`).
-/

namespace NfsClient.Client

open NfsClient.Lib NfsClient.Nfs4

namespace File

variable {W : Type} (P : RWProtocol W)

/-- `Close`: `closed` is set under the lock, CLOSE is sent without it. -/
def closeMethod : LockedMethod File FileTag W FileRes := fun f =>
  if f.closed then .ret (f, .ret { err := some (f.errClosed "close") })
  else .ret ({ f with closed := true }, f.closeRoutine P)

end File

/-- The methods of a shared file. -/
def FileOp.method {W : Type} (P : RWProtocol W) : FileOp → LockedMethod File FileTag W FileRes
  | .read p => .ofSection (File.readSection P p)
  | .readAt p off => fun f => .ret (f, f.readAtRoutine P p off)
  | .write p => .ofSection (File.writeSection P p)
  | .writeAt p off => fun f => .ret (f, f.writeAtRoutine P p off)
  | .seek offset whence => .ofSection (File.seekSection P offset whence)
  | .truncate size => fun f => .ret (f, f.truncateRoutine P size)
  | .close => File.closeMethod P

/-! ## Undisturbed -/

section Undisturbed

variable {W : Type} (P : RWProtocol W) (f : File) (w : W)

/-- **Run alone, every method does what it does in the sequential model.** -/
theorem exec_method (op : FileOp) : (op.method P).exec f w = op.run P f w := by
  cases op with
  | read p => rw [FileOp.method, LockedMethod.exec_ofSection, run_readSection, FileOp.run]
  | write p => rw [FileOp.method, LockedMethod.exec_ofSection, run_writeSection, FileOp.run]
  | seek offset whence =>
      rw [FileOp.method, LockedMethod.exec_ofSection, run_seekSection, FileOp.run]
  | readAt p off =>
      simp only [FileOp.method, FileOp.run, LockedMethod.exec, Routine.run_ret, run_readAtRoutine]
  | writeAt p off =>
      simp only [FileOp.method, FileOp.run, LockedMethod.exec, Routine.run_ret, run_writeAtRoutine]
  | truncate size =>
      simp only [FileOp.method, FileOp.run, LockedMethod.exec, Routine.run_ret,
        run_truncateRoutine]
  | close =>
      simp only [FileOp.method, FileOp.run, LockedMethod.exec, File.closeMethod, File.close]
      split
      · rfl
      · simp only [Routine.run_ret, File.closeRoutine, Routine.run_invoke]
        rcases P.closeFile f.fh f.stateid w with ⟨_ | _, w'⟩ <;> rfl

end Undisturbed

/-! ## The methods that use the cursor -/

/-- `Read`, `Write` and `Seek`. -/
inductive CursorOp
  | read (p : Bytes)
  | write (p : Bytes)
  | seek (offset : Int64) (whence : ℤ)
deriving DecidableEq

namespace CursorOp

def toOp : CursorOp → FileOp
  | read p => .read p
  | write p => .write p
  | seek offset whence => .seek offset whence

variable {W : Type} (P : RWProtocol W)

/-- Their sections. -/
def body : CursorOp → File → FileRoutine W (FileRes × File)
  | read p => File.readSection P p
  | write p => File.writeSection P p
  | seek offset whence => File.seekSection P offset whence

/-- They are the methods. -/
lemma sectionStart_body (op : CursorOp) :
    sectionStart (body P) op = .waiting (op.toOp.method P) := by
  cases op <;> rfl

lemma run_body (op : CursorOp) (f : File) (w : W) : (op.body P f).run w
    = (((op.toOp.run P f w).1, (op.toOp.run P f w).2.1), (op.toOp.run P f w).2.2) := by
  cases op with
  | read p => exact run_readSection P f w p
  | write p => exact run_writeSection P f w p
  | seek offset whence => exact run_seekSection P f w offset whence

end CursorOp

section Cursor

variable {W : Type} {P : RWProtocol W}

/-- Methods that run one after the other are a sequential run of the file. -/
lemma run_of_serially {ops : List CursorOp} {s : FileState W} {rs : List FileRes} {f' : File}
    {w' : W} (h : serially (CursorOp.body P) ops (s.file, s.world) = (rs, f', w')) :
    ∃ st, run (FileState.step P) s (ops.map CursorOp.toOp) = some st ∧ st.file = f' ∧
      st.world = w' ∧ st.trace.map Prod.snd = s.trace.map Prod.snd ++ rs := by
  induction ops generalizing s rs with
  | nil =>
      simp only [serially, Prod.mk.injEq] at h
      obtain ⟨rfl, rfl, rfl⟩ := h
      exact ⟨s, rfl, rfl, rfl, by simp⟩
  | cons op ops ih =>
      rcases hop : op.toOp.run P s.file s.world with ⟨res, f₁, w₁⟩
      have hbody : (op.body P s.file).run s.world = ((res, f₁), w₁) := by
        rw [CursorOp.run_body, hop]
      rcases hrest : serially (CursorOp.body P) ops (f₁, w₁) with ⟨rs', f₂, w₂⟩
      simp only [serially, hbody, hrest, Prod.mk.injEq] at h
      obtain ⟨rfl, rfl, rfl⟩ := h
      obtain ⟨st, hrun, hfile, hworld, htrace⟩ :=
        ih (s := ⟨f₁, w₁, s.trace ++ [(op.toOp, res)]⟩) hrest
      refine ⟨st, run_cons_eq_some.mpr ⟨_, ?_, hrun⟩, hfile, hworld, by simp [htrace]⟩
      simp only [FileState.step, hop]

/-- **`Read`, `Write` and `Seek` are linearizable.**  In every interleaving of any number of calls
on one file, whatever the server does, the calls return what a sequential run of the file
returns in the order in which they release the lock; and when the lock is free, the file and
the world are those of that run. -/
theorem shared_cursor_serial {f : File} {w : W} {ls : List (PoolLabel CursorOp MonitorAct)}
    {p : MonitorPool File FileTag W FileRes}
    (hrun : run (monitorStep (sectionStart (CursorOp.body P)))
      ⟨{ guarded := f, world := w }, []⟩ ls = some p) :
    let done := commits (sectionStart (CursorOp.body P)) ⟨{ guarded := f, world := w }, []⟩ ls
    ∃ st, run (FileState.step P) { file := f, world := w }
        ((done.filterMap fun d => (started ls)[d.1]?).map CursorOp.toOp) = some st ∧
      st.trace.map Prod.snd = done.map Prod.snd ∧ (done.map Prod.fst).Nodup ∧
      (∀ i r, p.procs[i]? = some (.returned r) → (i, r) ∈ done) ∧
      (p.shared.locked = false → p.shared.guarded = st.file ∧ p.shared.world = st.world) := by
  intro done
  obtain ⟨w', h⟩ := serial_run (serial_init f w) ls hrun
  rw [List.nil_append, List.nil_append] at h
  obtain ⟨st, hst, hfile, hworld, htrace⟩ :=
    run_of_serially (s := { file := f, world := w }) h.serial
  refine ⟨st, hst, by simpa using htrace, h.nodup, ?_, ?_⟩
  · intro i r hi
    obtain ⟨x, hx⟩ := h.argument hi
    exact h.fits hx hi
  · intro hfree
    exact ⟨hfile.symm, (h.free hfree).1.trans hworld.symm⟩

/-- A goroutine writes while another waits for the lock to seek, and a third reads behind it. -/
def writeSeekRead : List (PoolLabel CursorOp MonitorAct) :=
  [.start (.write [1, 2, 3]), .start (.seek 1 0), .act 0 .acquire, .act 0 .call,
    .start (.read [0, 0, 0, 0]), .act 0 .call, .act 0 .release, .act 1 .acquire, .act 1 .release,
    .act 0 .leave, .act 2 .acquire, .act 2 .call, .act 2 .release, .act 2 .leave]

theorem shared_cursor_serial_three :
    ∃ p st, run (monitorStep (sectionStart (CursorOp.body (chunkServer 1))))
        ⟨{ guarded := openedFile, world := [] }, []⟩ writeSeekRead = some p ∧
      run (FileState.step (chunkServer 1)) { file := openedFile, world := [] }
        [.write [1, 2, 3], .seek 1 0, .read [0, 0, 0, 0]] = some st ∧
      p.shared.guarded = st.file ∧ p.shared.world = st.world := by
  obtain ⟨p, hrun, hfree⟩ :
      ∃ p, run (monitorStep (sectionStart (CursorOp.body (chunkServer 1))))
        ⟨{ guarded := openedFile, world := [] }, []⟩ writeSeekRead = some p ∧
      p.shared.locked = false := Option.map_eq_some_iff.mp (by decide +kernel)
  obtain ⟨st, hst, -, -, -, hend⟩ := shared_cursor_serial hrun
  have hops : ((commits (sectionStart (CursorOp.body (chunkServer 1)))
      ⟨{ guarded := openedFile, world := [] }, []⟩ writeSeekRead).filterMap
        fun d => (started writeSeekRead)[d.1]?).map CursorOp.toOp
      = [.write [1, 2, 3], .seek 1 0, .read [0, 0, 0, 0]] := by decide +kernel
  rw [hops] at hst
  exact ⟨p, st, hrun, hst, hend hfree⟩

end Cursor

/-! ## Appending -/

section Append

variable {W : Type} {P : RWProtocol W} {content : W → Bytes}

lemma patch_length (p l : Bytes) : patch 0 l.length p l = l ++ p := by
  rw [patch, resize_of_le _ le_rfl, List.take_length, List.drop_eq_nil_of_le (by omega),
    List.append_nil]

/-- An open file to which is appended. -/
structure Appending (P : RWProtocol W) (content : W → Bytes) (f : File) (w : W) : Prop where
  server : ByteArrayServer P f.fh f.stateid content
  bounded : Bounded content f w
  append : f.flag &&& oAppend ≠ 0
  opened : f.closed = false

/-- What `Write` returns when it writes everything. -/
def wroteAll (p : Bytes) : FileRes := { buf := p, n := p.length }

lemma Appending.write {f : File} {w : W} (h : Appending P content f w) {p : Bytes} (hp : p ≠ [])
    (hlt : p.length < 2 ^ 32) (hroom : (content w).length + p.length < 2 ^ 63) :
    ∃ f' w', (File.writeSection P p f).run w = ((wroteAll p, f'), w') ∧
      content w' = content w ++ p ∧ Appending P content f' w' := by
  have hpos : (view content f w).writePos = (content w).length := by
    simp [ByteFile.writePos, view, h.append]
  have hsim : Simulates content f w (.write p) (f.write P p w) :=
    simulates_run h.server h.bounded ⟨hp, hlt, by rwa [hpos]⟩
  have hsame : SameOpen f (f.write P p w).2.1 := sameOpen_run P f (.write p) w
  rcases hw : f.write P p w with ⟨res, f', w'⟩
  rw [hw] at hsim hsame
  obtain ⟨hstep, hbounded⟩ := hsim
  refine ⟨f', w', ?_⟩
  rw [run_writeSection, hw]
  generalize hview : view content f' w' = b' at hstep
  cases hstep with
  | closed _ hc => exact absurd (h.opened.symm.trans hc) Bool.false_ne_true
  | invalid _ _ hop => exact hop.elim
  | write _ _ =>
      rw [hpos] at hview
      have hcontent : content w' = content w ++ p := by
        rw [← patch_length]
        exact congrArg ByteFile.content hview
      refine ⟨rfl, hcontent, ?_, hbounded, ?_, congrArg ByteFile.closed hview |>.trans h.opened⟩
      · rw [hsame.fh, hsame.stateid]
        exact h.server
      · have happend := congrArg ByteFile.append hview
        simpa [view, h.append] using happend

/-- Appends one after the other. -/
lemma Appending.serially {f : File} {w : W} (h : Appending P content f w) (ps : List Bytes)
    (hps : ∀ p ∈ ps, p ≠ [] ∧ p.length < 2 ^ 32)
    (hroom : (content w).length + ps.flatten.length < 2 ^ 63) :
    (serially (File.writeSection P) ps (f, w)).1 = ps.map wroteAll ∧
      content (serially (File.writeSection P) ps (f, w)).2.2 = content w ++ ps.flatten := by
  induction ps generalizing f w with
  | nil => simp [NfsClient.Lib.serially]
  | cons p ps ih =>
      simp only [List.flatten_cons, List.length_append] at hroom
      obtain ⟨hp, hlt⟩ := hps p List.mem_cons_self
      obtain ⟨f₁, w₁, hrun, hcontent, h₁⟩ := h.write hp hlt (by omega)
      obtain ⟨hres, hfinal⟩ := ih h₁ (fun q hq => hps q (List.mem_cons_of_mem p hq)) (by
        rw [hcontent, List.length_append]
        omega)
      simp only [NfsClient.Lib.serially, hrun, List.map_cons, List.flatten_cons]
      refine ⟨by rw [hres], ?_⟩
      rw [hfinal, hcontent, List.append_assoc]

/-- **Appends through one file never overlap.**  However many goroutines call `Write` on a file
that was opened with `O_APPEND`, in every interleaving: when all calls have returned, each has
written all of its buffer, and the content has grown by all the buffers in some order. -/
theorem shared_append {f : File} {w : W} (h : Appending P content f w)
    {ls : List (PoolLabel Bytes MonitorAct)}
    (hps : ∀ p ∈ started ls, p ≠ [] ∧ p.length < 2 ^ 32)
    (hroom : (content w).length + (started ls).flatten.length < 2 ^ 63)
    {p : MonitorPool File FileTag W FileRes}
    (hrun : run (monitorStep (sectionStart (File.writeSection P)))
      ⟨{ guarded := f, world := w }, []⟩ ls = some p)
    (hall : ∀ l ∈ p.procs, ∃ r, l = .returned r) :
    (∀ (i : ℕ) b, (started ls)[i]? = some b → p.procs[i]? = some (.returned (wroteAll b))) ∧
      ∃ order : List Bytes, order.Perm (started ls) ∧
        content p.shared.world = content w ++ order.flatten := by
  obtain ⟨w', hserial⟩ := serial_run (serial_init f w) ls hrun
  rw [List.nil_append, List.nil_append] at hserial
  set done := commits (sectionStart (File.writeSection P)) ⟨{ guarded := f, world := w }, []⟩ ls
  have hperm := hserial.complete hall
  obtain ⟨hres, hcontent⟩ := h.serially (done.filterMap fun d => (started ls)[d.1]?)
    (fun b hb => hps b (hperm.mem_iff.mp hb)) (by rwa [hperm.flatten.length_eq])
  rw [hserial.serial] at hres hcontent
  refine ⟨?_, _, hperm, ?_⟩
  · intro i b hb
    have hlt : i < p.procs.length := by
      rw [hserial.length]
      exact (List.getElem?_eq_some_iff.mp hb).1
    obtain ⟨r, hr⟩ := hall _ (List.getElem_mem hlt)
    have hi : p.procs[i]? = some (.returned r) := by rw [List.getElem?_eq_getElem hlt, hr]
    rw [hi, hserial.result hres (hserial.fits hb hi) hb]
  · rw [(hserial.free (hserial.unlocked hall)).1]
    exact hcontent

/-- A file that was opened with `O_APPEND`. -/
def appendFile : File := { openedFile with flag := oAppend }

/-- Two goroutines append; the second gets the lock first, and the server writes two bytes at a
time. -/
def twoAppends : List (PoolLabel Bytes MonitorAct) :=
  [.start [1, 2, 3], .start [4], .act 1 .acquire, .act 1 .call, .act 1 .call, .act 1 .release,
    .act 0 .acquire, .act 0 .call, .act 1 .leave, .act 0 .call, .act 0 .call, .act 0 .release,
    .act 0 .leave]

theorem shared_append_two :
    ∃ p, run (monitorStep (sectionStart (File.writeSection (chunkServer 1))))
        ⟨{ guarded := appendFile, world := [9] }, []⟩ twoAppends = some p ∧
      p.shared.world = [9, 4, 1, 2, 3] ∧
      ∃ order : List Bytes, order.Perm [[1, 2, 3], [4]] ∧
        p.shared.world = [9] ++ order.flatten := by
  obtain ⟨p, hrun, hp⟩ : ∃ p, run (monitorStep (sectionStart (File.writeSection (chunkServer 1))))
      ⟨{ guarded := appendFile, world := [9] }, []⟩ twoAppends = some p ∧
      (p.procs.map Phase.result?, p.shared.world)
        = ([some (wroteAll [1, 2, 3]), some (wroteAll [4])], [9, 4, 1, 2, 3]) :=
    Option.map_eq_some_iff.mp (by decide +kernel)
  have happending : Appending (chunkServer 1) id appendFile [9] :=
    { server := chunkServer_byteArrayServer 1 _ _
      bounded := ⟨by decide, by decide⟩
      append := by decide
      opened := rfl }
  obtain ⟨hres, hworld⟩ := Prod.mk.inj hp
  exact ⟨p, hrun, hworld, (shared_append happending (by decide) (by decide) hrun
    (Phase.returned_of_result? [wroteAll [1, 2, 3], wroteAll [4]] hres)).2⟩

end Append

/-! ## Closing -/

/-- The calls that are made under the lock. -/
def FileTag.Guarded (t : FileTag) : Prop := t = .read ∨ t = .write ∨ t = .seek

/-- The calls that are made without it, apart from CLOSE. -/
def FileTag.Unguarded (t : FileTag) : Prop := t = .readAt ∨ t = .writeAt ∨ t = .truncate

section Closing

variable {W : Type} (P : RWProtocol W)

/-- CLOSE is the next call and the last one. -/
def ClosesNext (t : FileRoutine W FileRes) : Prop :=
  ∃ upd next, t = .call .close upd next ∧ ∀ s, ∃ r, next s = .ret r

/-- How a method that found the file open leaves it, and goes on. -/
def Continues (r : File × FileRoutine W FileRes) : Prop :=
  (r.1.closed = false ∧ r.2.Obeys FileTag.Unguarded fun _ => True) ∨
    (r.1.closed = true ∧ ClosesNext r.2)

variable {f : File}

/-- A method that finds the file closed does nothing. -/
lemma method_of_closed (hc : f.closed = true) (op : FileOp) :
    ∃ r, op.method P f = .ret (f, .ret r) := by
  cases op <;>
    simp [FileOp.method, LockedMethod.ofSection, File.readSection, File.readAtRoutine,
      File.writeSection, File.writeAtRoutine, File.seekSection, File.truncateRoutine,
      File.closeMethod, hc, Routine.map]

lemma obeys_writeRoutine (tag : FileTag) (S : FileTag → Prop) (hS : S tag) (p : Bytes) (off : Int64)
    (fuel total : ℕ) : (f.writeRoutine P tag p off fuel total).Obeys S fun _ => True := by
  induction fuel generalizing total with
  | zero => trivial
  | succ fuel ih =>
      rw [File.writeRoutine]
      split
      · refine Routine.obeys_invoke hS ?_
        rintro (_ | ⟨n, how⟩)
        · trivial
        · dsimp only
          split
          · trivial
          · exact ih _
      · trivial

lemma obeys_readRoutine (off : Int64) (fuel : ℕ) (p : Bytes) (total : ℕ) :
    (f.readRoutine P off fuel p total).Obeys FileTag.Unguarded fun _ => True := by
  induction fuel generalizing p total with
  | zero => trivial
  | succ fuel ih =>
      rw [File.readRoutine]
      split
      · refine Routine.obeys_invoke (.inl rfl) ?_
        rintro (_ | ⟨data, eof⟩)
        · trivial
        · dsimp only
          split
          · trivial
          · exact ih _ _
      · trivial

lemma obeys_writeFrom (hopen : f.closed = false) (p : Bytes) (off : Int64) :
    (f.writeFromRoutine P p off).Obeys FileTag.Guarded fun r => r.2.closed = false :=
  (obeys_writeRoutine P .write _ (.inr (.inl rfl)) p off _ _).map fun _ _ => hopen

lemma closed_seekFrom (hopen : f.closed = false) (base offset : Int64) :
    (f.seekFrom base offset).2.closed = false := by
  rw [File.seekFrom]
  split
  · exact hopen
  · exact hopen

/-- The methods that use the cursor make their calls under the lock. -/
lemma obeys_body (hopen : f.closed = false) (op : CursorOp) :
    (op.body P f).Obeys FileTag.Guarded fun r => r.2.closed = false := by
  have hopen' : ¬ f.closed = true := by simp [hopen]
  cases op with
  | read p =>
      rw [CursorOp.body, File.readSection, if_neg hopen']
      split
      · exact hopen
      · refine Routine.obeys_invoke (.inl rfl) ?_
        rintro (_ | ⟨data, eof⟩)
        · exact hopen
        · exact hopen
  | write p =>
      rw [CursorOp.body, File.writeSection, if_neg hopen']
      split
      · refine Routine.obeys_invoke (.inr (.inl rfl)) ?_
        rintro (_ | sz)
        · exact hopen
        · exact obeys_writeFrom P hopen p sz
      · exact obeys_writeFrom P hopen p f.offset
  | seek offset whence =>
      rw [CursorOp.body, File.seekSection, if_neg hopen']
      split
      · exact closed_seekFrom hopen 0 offset
      · split
        · exact closed_seekFrom hopen f.offset offset
        · split
          · refine Routine.obeys_invoke (.inr (.inr rfl)) ?_
            rintro (_ | sz)
            · exact hopen
            · exact closed_seekFrom hopen sz offset
          · exact hopen

lemma obeys_section (hopen : f.closed = false) (op : CursorOp) :
    (LockedMethod.ofSection (op.body P) f).Obeys FileTag.Guarded Continues :=
  (obeys_body P hopen op).map fun _ hr => .inl ⟨hr, trivial⟩

/-- A method that finds the file open. -/
lemma obeys_method (hopen : f.closed = false) (op : FileOp) :
    (op.method P f).Obeys FileTag.Guarded Continues := by
  have hopen' : ¬ f.closed = true := by simp [hopen]
  cases op with
  | read p => exact obeys_section P hopen (.read p)
  | write p => exact obeys_section P hopen (.write p)
  | seek offset whence => exact obeys_section P hopen (.seek offset whence)
  | readAt p off =>
      refine .inl ⟨hopen, ?_⟩
      rw [File.readAtRoutine, if_neg hopen']
      split
      · trivial
      · exact obeys_readRoutine P off _ _ _
  | writeAt p off =>
      refine .inl ⟨hopen, ?_⟩
      rw [File.writeAtRoutine, if_neg hopen']
      split
      · trivial
      · exact obeys_writeRoutine P .writeAt _ (.inr (.inl rfl)) p off _ _
  | truncate size =>
      refine .inl ⟨hopen, ?_⟩
      rw [File.truncateRoutine, if_neg hopen']
      split
      · trivial
      · rcases Attr.encodeFattr { size := some size.toUInt64 } with ⟨mask, vals⟩
        dsimp only
        refine Routine.obeys_invoke (.inr (.inr rfl)) ?_
        rintro (_ | _)
        · trivial
        · trivial
  | close =>
      rw [FileOp.method, File.closeMethod, if_neg hopen']
      refine .inr ⟨rfl, _, _, rfl, ?_⟩
      intro s
      rcases P.closeFile f.fh f.stateid s with ⟨_ | _, _⟩
      · exact ⟨_, rfl⟩
      · exact ⟨_, rfl⟩

/-- Whether a process is inside. -/
def isInside : Phase File FileTag W FileRes → ℕ
  | .inside _ => 1
  | _ => 0

/-- Whether a process is about to send CLOSE. -/
def isClosing : Phase File FileTag W FileRes → ℕ
  | .outside (.call .close _ _) => 1
  | _ => 0

/-- What a process may be, given whether the file is closed. -/
def Phase.Tidy (closed : Bool) : Phase File FileTag W FileRes → Prop
  | .waiting m => ∃ op : FileOp, m = op.method P
  | .inside t =>
    if closed then ∃ k r, k.closed = true ∧ t = .ret (k, .ret r)
    else t.Obeys FileTag.Guarded Continues
  | .outside t => (t.Obeys FileTag.Unguarded fun _ => True) ∨ ClosesNext t
  | .returned _ => True

/-- The invariant of a shared file: at most one process is inside; CLOSE is sent or about to be
sent once if the file is closed, and not otherwise; and when it is sent, no call that is made
under the lock comes after it. -/
structure Tidy (p : MonitorPool File FileTag W FileRes) : Prop where
  inside : p.total isInside = if p.shared.locked then 1 else 0
  phases : ∀ l ∈ p.procs, Phase.Tidy P p.shared.guarded.closed l
  closes : p.shared.log.count .close + p.total isClosing
    = if p.shared.guarded.closed then 1 else 0
  after : ∀ pre post, p.shared.log = pre ++ .close :: post → ∀ t ∈ post, FileTag.Unguarded t

variable {P} {p : MonitorPool File FileTag W FileRes} {i : ℕ}

lemma Tidy.log_of_open (h : Tidy P p) (hopen : p.shared.guarded.closed = false) :
    .close ∉ p.shared.log := by
  have hcount := h.closes
  rw [hopen] at hcount
  exact List.count_eq_zero.mp (by simp at hcount; omega)

/-- Calls that are not CLOSE may be logged if they are not made under the lock, or if CLOSE has
not been sent. -/
lemma after_snoc {log : List FileTag} {tag : FileTag} (hne : tag ≠ .close)
    (h : ∀ pre post, log = pre ++ .close :: post → ∀ t ∈ post, FileTag.Unguarded t)
    (htag : .close ∈ log → FileTag.Unguarded tag) :
    ∀ pre post, log ++ [tag] = pre ++ .close :: post → ∀ t ∈ post, FileTag.Unguarded t := by
  intro pre post hsplit t ht
  rcases List.eq_nil_or_concat post with rfl | ⟨post, last, rfl⟩
  · simp at ht
  · rw [List.concat_eq_append, ← List.cons_append, ← List.append_assoc] at hsplit
    obtain ⟨hlog, hlast⟩ := List.append_inj' hsplit rfl
    obtain rfl : tag = last := by simpa using hlast
    rw [List.concat_eq_append, List.mem_append, List.mem_singleton] at ht
    rcases ht with ht | rfl
    · exact h pre post hlog t ht
    · exact htag (by simp [hlog])

/-- One CLOSE may be logged. -/
lemma after_close {log : List FileTag} (h : .close ∉ log) :
    ∀ pre post, log ++ [.close] = pre ++ .close :: post → ∀ t ∈ post, FileTag.Unguarded t := by
  intro pre post hsplit t ht
  rcases List.eq_nil_or_concat post with rfl | ⟨post, last, rfl⟩
  · simp at ht
  · rw [List.concat_eq_append, ← List.cons_append, ← List.append_assoc] at hsplit
    obtain ⟨hlog, -⟩ := List.append_inj' hsplit rfl
    exact absurd (by simp [hlog]) h

lemma phases_set {l' : Phase File FileTag W FileRes} {closed : Bool}
    (h : ∀ l ∈ p.procs, Phase.Tidy P closed l) (hl' : Phase.Tidy P closed l') :
    ∀ l ∈ p.procs.set i l', Phase.Tidy P closed l := by
  intro m hm
  rcases List.mem_or_eq_of_mem_set hm with hm | rfl
  · exact h m hm
  · exact hl'

/-- Only a process that is inside depends on whether the file is closed. -/
lemma Phase.Tidy.of_outside {l : Phase File FileTag W FileRes} {closed closed' : Bool}
    (h : Phase.Tidy P closed l) (hl : isInside l = 0) : Phase.Tidy P closed' l := by
  cases l with
  | inside t => simp [isInside] at hl
  | waiting m => exact h
  | outside t => exact h
  | returned r => exact h

lemma ne_close_of_unguarded {tag : FileTag} (h : tag.Unguarded) : tag ≠ .close := by
  rcases h with rfl | rfl | rfl <;> decide

lemma ne_close_of_guarded {tag : FileTag} (h : tag.Guarded) : tag ≠ .close := by
  rcases h with rfl | rfl | rfl <;> decide

lemma isClosing_of_ne {tag : FileTag} (h : tag ≠ .close) (upd : W → W)
    (next : W → FileRoutine W FileRes) : isClosing (.outside (.call tag upd next)) = 0 := by
  cases tag <;> first | rfl | exact absurd rfl h

lemma isClosing_of_obeys {t : FileRoutine W FileRes}
    (h : t.Obeys FileTag.Unguarded fun _ => True) : isClosing (.outside t) = 0 := by
  cases t with
  | ret r => rfl
  | call tag upd next => exact isClosing_of_ne (ne_close_of_unguarded h.1) upd next

lemma Tidy.start (h : Tidy P p) (op : FileOp) :
    Tidy P ⟨p.shared, p.procs ++ [.waiting (op.method P)]⟩ where
  inside := by
    rw [Pool.total_start]
    exact h.inside
  phases l hl := by
    rcases List.mem_append.mp hl with hl | hl
    · exact h.phases l hl
    · rw [List.mem_singleton.mp hl]
      exact ⟨op, rfl⟩
  closes := by
    rw [Pool.total_start]
    exact h.closes
  after := h.after

lemma Tidy.acquire (h : Tidy P p) {m : LockedMethod File FileTag W FileRes}
    (hi : p.procs[i]? = some (.waiting m)) (hfree : p.shared.locked = false) :
    Tidy P ⟨{ p.shared with locked := true },
      p.procs.set i (.inside (m p.shared.guarded))⟩ := by
  obtain ⟨op, rfl⟩ := h.phases _ (List.mem_of_getElem? hi)
  have hin : Pool.total isInside (⟨{ p.shared with locked := true }, p.procs.set i (.inside
      (op.method P p.shared.guarded))⟩ : MonitorPool File FileTag W FileRes) + 0
      = p.total isInside + 1 := Pool.total_set isInside _ hi _
  have hcl := Pool.total_set isClosing { p.shared with locked := true } hi
    (.inside (op.method P p.shared.guarded))
  have hinside := h.inside
  rw [hfree] at hinside
  refine ⟨hin.trans (by rw [hinside]; rfl), phases_set h.phases ?_, ?_, h.after⟩
  · cases hc : p.shared.guarded.closed with
    | true =>
        obtain ⟨r, hr⟩ := method_of_closed P hc op
        exact ⟨p.shared.guarded, r, hc, hr⟩
    | false => exact obeys_method P hc op
  · rw [← h.closes]
    exact congrArg (_ + ·) hcl

lemma Tidy.inside_call (h : Tidy P p) {tag : FileTag} {upd : W → W}
    {next : W → FileRoutine W (File × FileRoutine W FileRes)}
    (hi : p.procs[i]? = some (.inside (.call tag upd next))) :
    Tidy P ⟨p.shared.after tag upd, p.procs.set i (.inside (next p.shared.world))⟩ := by
  have hphase := h.phases _ (List.mem_of_getElem? hi)
  have hin := Pool.total_set isInside (p.shared.after tag upd) hi (.inside (next p.shared.world))
  have hcl := Pool.total_set isClosing (p.shared.after tag upd) hi (.inside (next p.shared.world))
  -- a process that makes calls inside has found the file open
  cases hc : p.shared.guarded.closed with
  | true =>
      rw [hc] at hphase
      obtain ⟨k, r, -, hcon⟩ := hphase
      cases hcon
  | false =>
      rw [hc] at hphase
      have hphase : FileTag.Guarded tag ∧ ∀ s, (next s).Obeys FileTag.Guarded Continues := hphase
      have hne := ne_close_of_guarded hphase.1
      refine ⟨?_, phases_set h.phases ?_, ?_,
        after_snoc hne h.after fun hmem => absurd hmem (h.log_of_open hc)⟩
      · exact (Nat.add_right_cancel hin).trans h.inside
      · show Phase.Tidy P p.shared.guarded.closed _
        rw [hc]
        exact hphase.2 _
      · show (p.shared.log ++ [tag]).count .close + _ = if p.shared.guarded.closed then 1 else 0
        rw [← h.closes, List.count_append, List.count_singleton, if_neg (by simpa using hne)]
        exact congrArg (_ + ·) hcl

lemma Tidy.release (h : Tidy P p) {k : File} {t : FileRoutine W FileRes}
    (hi : p.procs[i]? = some (.inside (.ret (k, t)))) :
    Tidy P ⟨{ p.shared with guarded := k, locked := false }, p.procs.set i (.outside t)⟩ := by
  have hphase := h.phases _ (List.mem_of_getElem? hi)
  set p' : MonitorPool File FileTag W FileRes :=
    ⟨{ p.shared with guarded := k, locked := false }, p.procs.set i (.outside t)⟩
  have hin : p'.total isInside + 1 = p.total isInside + 0 := Pool.total_set isInside _ hi _
  have hcl : p'.total isClosing + 0 = p.total isClosing + isClosing (.outside t) :=
    Pool.total_set isClosing _ hi _
  have hinside := h.inside
  have hcloses := h.closes
  -- the process was the only one inside
  have hnone : p'.total isInside = 0 := by
    split at hinside <;> omega
  have hothers : ∀ l ∈ p'.procs, Phase.Tidy P p.shared.guarded.closed l →
      Phase.Tidy P k.closed l := by
    intro l hl htidy
    obtain ⟨j, hj⟩ := List.mem_iff_getElem?.mp hl
    have hle := Pool.le_total isInside hj
    exact htidy.of_outside (by omega)
  have hgoal : ∀ (_ : Phase.Tidy P p.shared.guarded.closed (.outside t))
      (_ : isClosing (.outside t) + (if p.shared.guarded.closed then 1 else 0)
        = if k.closed then 1 else 0), Tidy P p' := by
    intro htidy hcount
    refine ⟨hnone, fun l hl => hothers l hl (phases_set h.phases htidy l hl), ?_, h.after⟩
    show p.shared.log.count .close + p'.total isClosing = if k.closed then 1 else 0
    omega
  cases hc : p.shared.guarded.closed with
  | true =>
      rw [hc] at hphase
      obtain ⟨k', r, hk, heq⟩ := hphase
      cases heq
      exact hgoal (.inl trivial) (by rw [hc, hk]; rfl)
  | false =>
      rw [hc] at hphase
      have hphase : Continues (k, t) := hphase
      rcases hphase with ⟨hk, ht⟩ | ⟨hk, ht⟩
      · exact hgoal (.inl ht) (by rw [isClosing_of_obeys ht, hc, hk]; rfl)
      · obtain ⟨upd, next, rfl, hnext⟩ := ht
        exact hgoal (.inr ⟨upd, next, rfl, hnext⟩) (by rw [hc, hk]; rfl)

lemma Tidy.outside_call (h : Tidy P p) {tag : FileTag} {upd : W → W}
    {next : W → FileRoutine W FileRes} (hi : p.procs[i]? = some (.outside (.call tag upd next))) :
    Tidy P ⟨p.shared.after tag upd, p.procs.set i (.outside (next p.shared.world))⟩ := by
  have hphase := h.phases _ (List.mem_of_getElem? hi)
  have hin := Pool.total_set isInside (p.shared.after tag upd) hi (.outside (next p.shared.world))
  have hcl := Pool.total_set isClosing (p.shared.after tag upd) hi (.outside (next p.shared.world))
  have hinside := (Nat.add_right_cancel hin).trans h.inside
  rcases hphase with ⟨htag, hnext⟩ | ⟨upd', next', heq, hnext⟩
  · have hne := ne_close_of_unguarded htag
    refine ⟨hinside, phases_set h.phases (.inl (hnext _)), ?_,
      after_snoc hne h.after fun _ => htag⟩
    rw [isClosing_of_ne hne, isClosing_of_obeys (hnext _)] at hcl
    show (p.shared.log ++ [tag]).count .close + _ = if p.shared.guarded.closed then 1 else 0
    rw [← h.closes, List.count_append, List.count_singleton, if_neg (by simpa using hne)]
    exact congrArg (_ + ·) hcl
  · cases heq
    obtain ⟨r, hr⟩ := hnext p.shared.world
    have hle := Pool.le_total isClosing hi
    have hcloses := h.closes
    have hone : isClosing (.outside (.call .close upd next)) = 1 := rfl
    have hzero : isClosing (Phase.outside (next p.shared.world)) = 0 := by
      rw [hr]
      rfl
    have hlog : .close ∉ p.shared.log := by
      refine List.count_eq_zero.mp ?_
      split at hcloses <;> omega
    refine ⟨hinside, phases_set h.phases (.inl ?_), ?_, after_close hlog⟩
    · rw [hr]
      trivial
    · show (p.shared.log ++ [FileTag.close]).count .close + _
        = if p.shared.guarded.closed then 1 else 0
      rw [← hcloses, List.count_append, List.count_singleton]
      simp only [beq_self_eq_true, if_true]
      omega

lemma Tidy.leave (h : Tidy P p) {r : FileRes} (hi : p.procs[i]? = some (.outside (.ret r))) :
    Tidy P ⟨p.shared, p.procs.set i (.returned r)⟩ where
  inside :=
    (Nat.add_right_cancel (Pool.total_set isInside p.shared hi (.returned r))).trans h.inside
  phases := phases_set h.phases trivial
  closes := by
    rw [← h.closes]
    exact congrArg (_ + ·)
      (Nat.add_right_cancel (Pool.total_set isClosing p.shared hi (.returned r)))
  after := h.after

/-- The pool of the goroutines that use a file. -/
def fileStep (P : RWProtocol W) : MonitorPool File FileTag W FileRes →
    PoolLabel FileOp MonitorAct → Option (MonitorPool File FileTag W FileRes) :=
  monitorStep fun op => .waiting (op.method P)

lemma Tidy.step (p : MonitorPool File FileTag W FileRes) (l : PoolLabel FileOp MonitorAct)
    (p' : MonitorPool File FileTag W FileRes) (h : Tidy P p) (hs : fileStep P p l = some p') :
    Tidy P p' := by
  cases l with
  | start op =>
      obtain rfl := Option.some.inj hs
      exact h.start op
  | act i a =>
      rw [fileStep] at hs
      obtain ⟨l, M', l', hi, hmove, rfl⟩ := moves_of_monitorStep hs
      cases hmove with
      | acquire m hfree => exact h.acquire hi hfree
      | inside tag upd next => exact h.inside_call hi
      | release k t => exact h.release hi
      | outside tag upd next => exact h.outside_call hi
      | leave r => exact h.leave hi

/-- **An open file is closed once, and not used under the lock afterwards.**  In every
interleaving of calls on one file, at most one CLOSE is sent, and no call of `Read`, `Write` or
`Seek` reaches the server after it. -/
theorem shared_close {f : File} {w : W} (hopen : f.closed = false)
    {ls : List (PoolLabel FileOp MonitorAct)} {p : MonitorPool File FileTag W FileRes}
    (hrun : run (fileStep P) ⟨{ guarded := f, world := w }, []⟩ ls = some p) :
    p.shared.log.count .close ≤ 1 ∧
      ∀ pre post, p.shared.log = pre ++ .close :: post →
        .read ∉ post ∧ .write ∉ post ∧ .seek ∉ post := by
  have hinit : Tidy P (⟨{ guarded := f, world := w }, []⟩ : MonitorPool File FileTag W FileRes) :=
    { inside := rfl
      phases := by simp
      closes := by simp [Pool.total, hopen]
      after := by simp }
  have h := run_invariant' Tidy.step hinit hrun
  refine ⟨?_, ?_⟩
  · have hcloses := h.closes
    split at hcloses <;> omega
  · intro pre post hsplit
    have hpost := h.after pre post hsplit
    refine ⟨fun hm => ?_, fun hm => ?_, fun hm => ?_⟩
    all_goals
      have hun := hpost _ hm
      simp [FileTag.Unguarded] at hun

/-- `Write` and two calls of `Close`; `WriteAt` has looked at `closed` before. -/
def writeClose : List (PoolLabel FileOp MonitorAct) :=
  [.start (.write [1, 2]), .start .close, .start (.writeAt [7] 0), .start .close,
    .act 2 .acquire, .act 2 .release, .act 0 .acquire, .act 0 .call, .act 0 .release,
    .act 1 .acquire, .act 1 .release, .act 1 .call, .act 2 .call, .act 3 .acquire, .act 3 .release]

/-- The call of `WriteAt` reaches the server after CLOSE; that of `Write` cannot. -/
theorem shared_close_write :
    ∃ p, run (fileStep (chunkServer 1)) ⟨{ guarded := openedFile, world := [] }, []⟩ writeClose
        = some p ∧
      p.shared.log = [.write, .close, .writeAt] ∧ p.shared.log.count .close ≤ 1 := by
  obtain ⟨p, hrun, hlog⟩ : ∃ p, run (fileStep (chunkServer 1))
      ⟨{ guarded := openedFile, world := [] }, []⟩ writeClose = some p ∧
      p.shared.log = [.write, .close, .writeAt] := Option.map_eq_some_iff.mp (by decide +kernel)
  exact ⟨p, hrun, hlog, (shared_close rfl hrun).1⟩

end Closing

end NfsClient.Client
