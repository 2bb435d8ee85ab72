import NfsClient.Nfs4.Completeness
import NfsClient.Nfs4.Decoders
import NfsClient.Nfs4.SequenceLog

/-!
# The answers in the log

Which operations of a compound the server answered, and how, can be read off the reply, also
when `DecodeCompound` rejects it later on or when the compound is sent again.  So the log shows
every stateid that the server has handed out.  What a method takes from the decoder of OPEN or
OPEN_CONFIRM in the end is the last one of them.
-/

namespace NfsClient.Nfs4

open NfsClient.Xdr NfsClient.Xdr.Decoder

variable {W : Type} {E : Env W}

/-! ## Operations and their results -/

/-- The operations that a reply answers, each with its result. -/
def Event.answers : Event → List (Arg × Res)
  | .call c (.ok b) =>
      List.zipWith (fun a d => (a, (a.decoder.decodeRes d).1)) c.ops
        (places (c.ops.map Arg.decoder) b)
  | _ => []

/-- What the answers among the events yield. -/
def answered {β : Type} (pick : Arg × Res → Option β) (es : List Event) : List β :=
  es.flatMap fun ev => ev.answers.filterMap pick

section Answered

variable {β : Type} {pick : Arg × Res → Option β}

@[simp] lemma answered_nil : answered pick [] = [] := rfl

@[simp] lemma answered_append (es es' : List Event) :
    answered pick (es ++ es') = answered pick es ++ answered pick es' :=
  List.flatMap_append

lemma answered_cons (ev : Event) (es : List Event) :
    answered pick (ev :: es) = ev.answers.filterMap pick ++ answered pick es :=
  List.flatMap_cons

lemma answered_of_no_call {es : List Event} (h : ∀ ev ∈ es, ev.isCall = false) :
    answered pick es = [] := by
  refine List.flatMap_eq_nil_iff.mpr fun ev hev => ?_
  cases ev with
  | call c reply => exact absurd (h _ hev) (by simp [Event.isCall])
  | _ => rfl

/-- An attempt sends one compound. -/
lemma answered_attempt {es : List Event} (h : ∀ ev ∈ es, ev.isCall = false) (ev : Event) :
    answered pick (.ctxErr none :: (es ++ [ev])) = answered pick [ev] := by
  rw [answered_cons, answered_append, answered_of_no_call h]
  rfl

/-- Only operations that were sent are answered. -/
lemma Event.mem_ops_of_mem_answers {c : Compound} {reply : Except Err Bytes} {x : Arg × Res}
    (h : x ∈ (Event.call c reply).answers) : x.1 ∈ c.ops := by
  cases reply with
  | error e => simp [Event.answers] at h
  | ok b =>
      rw [Event.answers, List.mem_iff_getElem] at h
      obtain ⟨i, hi, rfl⟩ := h
      simp

end Answered

/-! ## Stateids -/

/-- The stateid that an answer to OPEN grants. -/
def granted? : Arg × Res → Option Stateid
  | (.openFile _, .openFile r) => if r.status = nfs4Ok then some r.stateid else none
  | _ => none

/-- The stateid that an answer to OPEN_CONFIRM confirms. -/
def confirmed? : Arg × Res → Option Stateid
  | (.openConfirm .., .openConfirm r) => if r.status = nfs4Ok then some r.stateid else none
  | _ => none

/-- The stateids that OPEN has granted. -/
def granted (es : List Event) : List Stateid := answered granted? es

/-- The stateids that OPEN_CONFIRM has confirmed. -/
def confirmed (es : List Event) : List Stateid := answered confirmed? es

def Arg.isOpen : Arg → Bool
  | .openFile _ => true
  | _ => false

def Arg.isOpenConfirm : Arg → Bool
  | .openConfirm .. => true
  | _ => false

/-- The stateid of a CLOSE. -/
def Arg.closes? : Arg → Option Stateid
  | .close _ sid => some sid
  | _ => none

/-- The operations of the compound that an event hands to the transport. -/
def Event.sent : Event → List Arg
  | .call c _ => c.ops
  | _ => []

/-- The stateids for which a CLOSE was sent. -/
def closed (es : List Event) : List Stateid := es.flatMap fun ev => ev.sent.filterMap Arg.closes?

/-- Whether an OPEN_CONFIRM was sent. -/
def confirms (es : List Event) : Bool := es.any fun ev => ev.sent.any Arg.isOpenConfirm

/-- The stateid with which the file was opened: the last one that was confirmed, or granted if
no OPEN_CONFIRM was sent. -/
def openedWith (es : List Event) : Stateid :=
  if confirms es then (confirmed es).getLastD {} else (granted es).getLastD {}

lemma granted_append (es es' : List Event) : granted (es ++ es') = granted es ++ granted es' :=
  answered_append es es'

lemma confirmed_append (es es' : List Event) :
    confirmed (es ++ es') = confirmed es ++ confirmed es' :=
  answered_append es es'

lemma closed_append (es es' : List Event) : closed (es ++ es') = closed es ++ closed es' :=
  List.flatMap_append

lemma confirms_append (es es' : List Event) :
    confirms (es ++ es') = (confirms es || confirms es') :=
  List.any_append

/-! ## The decoder of one operation -/

/-- A compound `[first, a, …]` in which `pick` takes the value `val` from the successful answers to
`a` and nothing from the others; the decoder of `a` keeps its value unless it reads a success. -/
structure Tracks (pick : Arg × Res → Option Stateid) (val : Res → Stateid) (first a : Arg)
    (rest : List Arg) : Prop where
  sequence : ∀ q res, pick (.sequence q, res) = none
  first : ∀ res, pick (first, res) = none
  rest : ∀ a' ∈ rest, ∀ res, pick (a', res) = none
  answer : ∀ d, pick (a, (a.decoder.decodeRes d).1)
    = if statusAt d = nfs4Ok then some (val (a.decoder.decodeRes d).1) else none
  decode : ∀ r d, r.fresh = a.decoder → val (r.decodeRes d).1
    = if statusAt d = nfs4Ok then val (a.decoder.decodeRes d).1 else val r

section Tracks

variable {pick : Arg × Res → Option Stateid} {val : Res → Stateid} {first a : Arg}
  {rest : List Arg}

lemma filterMap_zipWith_of_none {β γ δ : Type} {f : δ → Option γ} {g : Arg → β → δ}
    {ops : List Arg} (h : ∀ a ∈ ops, ∀ x, f (g a x) = none) (ops' : List Arg) (ds : List β) :
    (List.zipWith g (ops ++ ops') ds).filterMap f
      = (List.zipWith g ops' (ds.drop ops.length)).filterMap f := by
  induction ops generalizing ds with
  | nil => rfl
  | cons a ops ih =>
      cases ds with
      | nil => simp
      | cons d ds =>
          simp only [List.cons_append, List.zipWith_cons_cons, List.filterMap_cons,
            h a (by simp) d, List.length_cons, List.drop_succ_cons]
          exact ih (fun a' ha' => h a' (by simp [ha'])) ds

/-- What is taken from one reply: the answer at the place of `a`. -/
lemma Tracks.filterMap_answers (h : Tracks pick val first a rest) {ids : List SessionID}
    {comp c : Compound} (hops : comp.ops = first :: a :: rest) (hc : Prefixed ids comp c)
    (b : Bytes) :
    (Event.call c (.ok b)).answers.filterMap pick
      = ((places (c.ops.map Arg.decoder) b)[ids.length + 1]?).elim [] fun d =>
          if statusAt d = nfs4Ok then [val (a.decoder.decodeRes d).1] else [] := by
  rw [Event.answers]
  generalize places (c.ops.map Arg.decoder) b = ds
  obtain ⟨args, rfl, hcops⟩ := hc
  have hsplit : c.ops = (args.map Arg.sequence ++ [first]) ++ ([a] ++ rest) := by
    rw [hcops, hops]
    simp
  have hlen : (args.map Arg.sequence ++ [first]).length
      = (args.map SequenceArgs.sessionID).length + 1 := by simp
  rw [hsplit, filterMap_zipWith_of_none ?_, hlen, ← List.head?_drop]
  · -- behind `a` nothing is taken any more
    cases ds.drop ((args.map SequenceArgs.sessionID).length + 1) with
    | nil => rfl
    | cons d ds =>
        have hrest : (List.zipWith (fun a d => (a, (a.decoder.decodeRes d).1)) rest ds).filterMap
            pick = [] := by
          rw [← List.append_nil rest,
            filterMap_zipWith_of_none fun a' ha' x => h.rest a' ha' _]
          simp
        simp only [List.singleton_append, List.zipWith_cons_cons, List.filterMap_cons, h.answer d,
          hrest, List.head?_cons, Option.elim_some]
        split <;> rename_i heq <;> split at heq <;> simp_all
  · intro a' ha' d
    rcases List.mem_append.mp ha' with hseq | hfirst
    · obtain ⟨q, -, rfl⟩ := List.mem_map.mp hseq
      exact h.sequence q _
    · rw [List.mem_singleton.mp hfirst]
      exact h.first _

/-- What the decoder of `a` holds after one reply. -/
lemma Tracks.decodeAll_getD (h : Tracks pick val first a rest) {rs : List Res}
    (hrs : kinds rs = (first :: a :: rest).map Arg.decoder) (ds : List Decoder) :
    val ((decodeAll ds rs).getD 1 default)
      = ((ds[1]?).elim [] fun d =>
          if statusAt d = nfs4Ok then [val (a.decoder.decodeRes d).1] else []).getLastD
            (val (rs.getD 1 default)) := by
  obtain ⟨r₀, r₁, rs, rfl⟩ : ∃ r₀ r₁ rs', rs = r₀ :: r₁ :: rs' := by
    have hlen := congrArg List.length hrs
    rcases rs with _ | ⟨r₀, _ | ⟨r₁, rs'⟩⟩
    · simp [kinds] at hlen
    · simp [kinds] at hlen
    · exact ⟨r₀, r₁, rs', rfl⟩
  have hr₁ : r₁.fresh = a.decoder := by
    simp only [kinds, List.map_cons, List.cons.injEq] at hrs
    exact hrs.2.1
  rcases ds with _ | ⟨d₀, _ | ⟨d₁, ds⟩⟩
  · rfl
  · rfl
  · simp only [decodeAll, List.getD_cons_succ, List.getD_cons_zero, h.decode r₁ d₁ hr₁,
      List.getElem?_cons_succ, List.getElem?_cons_zero, Option.elim_some]
    split <;> rfl

/-- The same, through session callers, for a reply that is accepted or an error of the
transport. -/
lemma Tracks.attempt (h : Tracks pick val first a rest) {ids : List SessionID}
    {comp c : Compound} (hops : comp.ops = first :: a :: rest) (hc : Prefixed ids comp c)
    {rs : List Res} (hrs : kinds rs = comp.ops.map Arg.decoder) {reply : Except Err Bytes}
    (hacc : ∀ b, reply = .ok b → parseReply (sequenceDecoders ids.length rs) b ≠ none) :
    val ((unwrap ids.length
        (decodeReply (sequenceDecoders ids.length rs) reply)).1.getD 1 default)
      = (answered pick [.call c reply]).getLastD (val (rs.getD 1 default)) := by
  cases reply with
  | error e =>
      rw [unwrap_transport_error]
      rfl
  | ok b =>
      obtain ⟨⟨r, sts⟩, hparse⟩ := Option.ne_none_iff_exists'.mp (hacc b rfl)
      obtain ⟨-, o, hall⟩ := unwrap_eq_decodeAll hparse
      have hkinds : kinds (c.ops.map Arg.decoder) = kinds (sequenceDecoders ids.length rs) := by
        rw [kinds_decoders, hc.decoders, ← hrs]
        simp [kinds, sequenceDecoders, Res.fresh]
      have hone : answered pick [.call c (.ok b)]
          = (Event.call c (.ok b)).answers.filterMap pick := by simp [answered]
      rw [hall rs rfl, hone, h.filterMap_answers hops hc, h.decodeAll_getD (by rw [hrs, hops]),
        places_kinds hkinds, List.getElem?_drop]

/-- **The last answer.**  After a call that returns a result, the decoder of `a` holds the value
of the last successful answer. -/
theorem Tracks.transcript (h : Tracks pick val first a rest) {ids : List SessionID}
    {comp : Compound} (hops : comp.ops = first :: a :: rest) {rs : List Res} {es : List Event}
    {out : Outcome} (htr : Transcript ids comp rs es out)
    (hrs : kinds rs = comp.ops.map Arg.decoder) {r : CompoundResult} (hok : out.2 = .ok r) :
    val (out.1.getD 1 default) = (answered pick es).getLastD (val (rs.getD 1 default)) := by
  induction htr with
  | stopped e err => simp at hok
  | exhausted hatt hr => simp at hok
  | interrupted hatt hr d e => simp at hok
  | @final rs es out hatt hr =>
      cases hatt with
      | aborted e hids hes => simp at hok
      | @replied es c reply hes hc =>
          have hacc : ∀ b, reply = .ok b →
              parseReply (sequenceDecoders ids.length rs) b ≠ none := by
            rintro b rfl hnone
            obtain ⟨e, he, -⟩ := unwrap_of_parseReply_none hnone
            rw [he] at hok
            cases hok
          rw [h.attempt hops hc hrs hacc, answered_attempt hes]
  | @again rs es es' out out' hatt hr d _ ih =>
      cases hatt with
      | aborted e hids hes => simp [retriable, errorHasStatus] at hr
      | @replied es c reply hes hc =>
          -- a reply that is rejected is not retried
          have hacc : ∀ b, reply = .ok b →
              parseReply (sequenceDecoders ids.length rs) b ≠ none := by
            rintro b rfl hnone
            obtain ⟨e, he, hplain⟩ := unwrap_of_parseReply_none hnone
            rw [he] at hr
            simp [retriable, errorHasStatus, hplain] at hr
          obtain ⟨hkinds, -⟩ := statAt_attempt hc hrs hr
          have hsleep : answered pick (.sleep d none :: es') = answered pick es' := rfl
          rw [ih (hkinds.trans hrs) hok, h.attempt hops hc hrs hacc, answered_append,
            answered_attempt hes, hsleep]
          -- the last answer of the rest, or that of this attempt if the rest has none
          simp only [List.getLastD_eq_getLast?, List.getLast?_append]
          cases (answered pick es').getLast? <;> rfl

end Tracks

/-! ## The events of a method -/

/-- The compounds sent hold the given operations and SEQUENCEs. -/
def SentOnly (ops : List Arg) (es : List Event) : Prop :=
  ∀ ev ∈ es, ∀ a ∈ ev.sent, (∃ q, a = .sequence q) ∨ a ∈ ops

section SentOnly

variable {ops : List Arg} {es : List Event}

lemma SentOnly.answered_eq_nil {β : Type} {pick : Arg × Res → Option β} (h : SentOnly ops es)
    (hseq : ∀ q res, pick (.sequence q, res) = none)
    (hops : ∀ a ∈ ops, ∀ res, pick (a, res) = none) :
    answered pick es = [] := by
  refine List.flatMap_eq_nil_iff.mpr fun ev hev => List.filterMap_eq_nil_iff.mpr fun x hx => ?_
  cases ev with
  | call c reply =>
      rcases h _ hev x.1 (Event.mem_ops_of_mem_answers hx) with ⟨q, hq⟩ | hmem
      · rw [← Prod.mk.eta (p := x), hq]
        exact hseq q _
      · exact hops _ hmem _
  | _ => simp [Event.answers] at hx

lemma SentOnly.granted_eq_nil (h : SentOnly ops es) (hops : ops.any Arg.isOpen = false) :
    granted es = [] := by
  refine h.answered_eq_nil (fun q res => rfl) fun a ha res => ?_
  have := List.any_eq_false.mp hops a ha
  cases a <;> first | rfl | simp [Arg.isOpen] at this

lemma SentOnly.confirmed_eq_nil (h : SentOnly ops es)
    (hops : ops.any Arg.isOpenConfirm = false) : confirmed es = [] := by
  refine h.answered_eq_nil (fun q res => rfl) fun a ha res => ?_
  have := List.any_eq_false.mp hops a ha
  cases a <;> first | rfl | simp [Arg.isOpenConfirm] at this

lemma SentOnly.confirms_eq_false (h : SentOnly ops es)
    (hops : ops.any Arg.isOpenConfirm = false) : confirms es = false := by
  refine List.any_eq_false.mpr fun ev hev => ?_
  rw [Bool.not_eq_true, List.any_eq_false]
  intro a ha
  rcases h ev hev a ha with ⟨q, rfl⟩ | hmem
  · simp [Arg.isOpenConfirm]
  · exact List.any_eq_false.mp hops a hmem

/-- The CLOSEs that were sent are among the operations. -/
lemma SentOnly.closed_mem (h : SentOnly ops es) {sid : Stateid} (hsid : sid ∈ closed es) :
    sid ∈ ops.filterMap Arg.closes? := by
  obtain ⟨ev, hev, hsid⟩ := List.mem_flatMap.mp hsid
  obtain ⟨a, ha, hclose⟩ := List.mem_filterMap.mp hsid
  rcases h ev hev a ha with ⟨q, rfl⟩ | hmem
  · simp [Arg.closes?] at hclose
  · exact List.mem_filterMap.mpr ⟨a, hmem, hclose⟩

lemma SentOnly.closed_eq_nil (h : SentOnly ops es) (hops : ops.filterMap Arg.closes? = []) :
    closed es = [] := by
  refine List.eq_nil_iff_forall_not_mem.mpr fun sid hsid => ?_
  have := h.closed_mem hsid
  rw [hops] at this
  cases this

end SentOnly

section Exec

variable {α : Type} {c : Conn} {ps : List ℕ} {cfg : RetryConfig}

/-- What a multi-op method does. -/
lemma MultiOp.exec_transcript (hc : c.caller = .retry (sessionStack ps) cfg) (m : MultiOp α)
    (n : Net W) :
    ∃ es out, (m.exec E c n).2.log = n.log ++ es ∧ (m.exec E c n).1 = m.finish out ∧
      Transcript (n.stackIDs ps) (c.request m.ops) m.results es out := by
  obtain ⟨es, hlog, htr, -⟩ :=
    transcript_of_call (E := E) cfg ps (c.request m.ops) m.results n
  rw [← hc] at hlog htr
  exact ⟨es, _, hlog, rfl, htr⟩

/-- The compounds that a multi-op method sends. -/
lemma Transcript.sentOnly {ids : List SessionID} {comp : Compound} {rs : List Res}
    {es : List Event} {out : Outcome} (h : Transcript ids comp rs es out) :
    SentOnly comp.ops es := by
  intro ev hev a ha
  cases ev with
  | call c reply =>
      obtain ⟨args, -, hops⟩ := h.calls hev
      simp only [Event.sent, hops, List.mem_append, List.mem_map] at ha
      rcases ha with ⟨q, -, rfl⟩ | hmem
      · exact .inl ⟨q, rfl⟩
      · exact .inr hmem
  | _ => cases ha

lemma MultiOp.exec_sentOnly (hc : c.caller = .retry (sessionStack ps) cfg) (m : MultiOp α)
    (n : Net W) :
    (m.exec E c n).2.log = n.log ++ eventsSince n (m.exec E c n).2 ∧
      SentOnly m.ops (eventsSince n (m.exec E c n).2) := by
  obtain ⟨es, out, hlog, -, htr⟩ := m.exec_transcript (E := E) hc n
  have hes : eventsSince n (m.exec E c n).2 = es := by rw [eventsSince, hlog, List.drop_left]
  rw [hes]
  refine ⟨hlog, ?_⟩
  have := htr.sentOnly
  rwa [request_ops] at this

/-- Each compound that it sends holds all its operations. -/
lemma MultiOp.mem_ops_of_sent (hc : c.caller = .retry (sessionStack ps) cfg) (m : MultiOp α)
    {n : Net W} {c' : Compound} {reply : Except Err Bytes}
    (h : .call c' reply ∈ eventsSince n (m.exec E c n).2) {a : Arg} (ha : a ∈ m.ops) :
    a ∈ c'.ops := by
  obtain ⟨es, out, hlog, -, htr⟩ := m.exec_transcript (E := E) hc n
  rw [eventsSince, hlog, List.drop_left] at h
  obtain ⟨args, -, hops⟩ := htr.calls h
  rw [hops, request_ops]
  exact List.mem_append_right _ ha

/-- A method that succeeds has sent a compound. -/
lemma MultiOp.exists_sent_of_ok (hc : c.caller = .retry (sessionStack ps) cfg) (m : MultiOp α)
    {n n' : Net W} {v : α} (h : m.exec E c n = (.ok v, n')) :
    ∃ c' reply, .call c' reply ∈ eventsSince n n' := by
  have hok : errorOf (m.exec E c n).1 = none := by rw [h]; rfl
  obtain ⟨r, sts, hlast, -⟩ := (m.exec_ok_iff hc n).mp hok
  rw [MultiOp.exchange, h] at hlast
  obtain ⟨ev, hev, hreply⟩ := Option.bind_eq_some_iff.mp hlast
  cases ev with
  | call c' reply => exact ⟨c', reply, List.mem_of_getLast? hev⟩
  | _ => simp [Event.reply?] at hreply

/-- OPEN grants the stateid that its decoder keeps. -/
lemma tracks_open (dir : FileHandle) (args : OpenArgs) :
    Tracks granted? (fun r => r.toOpen.stateid) (.putfh dir) (.openFile args) [.getfh] where
  sequence _ _ := rfl
  first _ := rfl
  rest := by simp [granted?]
  answer d := by
    have hst : (OpenRes.decodeRes {} d).1.status = statusAt d := decodeRes_stat d (.openFile {})
    simp only [Arg.decoder, Res.decodeRes, map_run, granted?, hst, Res.toOpen]
  decode r d hr := by
    cases r with
    | openFile r =>
        by_cases hok : statusAt d = nfs4Ok
        · rw [if_pos hok, decodeRes_of_ok (Res.clean_of_keeps rfl) hok, hr]
        · have hne : (uint32 d).1 ≠ nfs4Ok := hok
          simp only [if_neg hok, Res.decodeRes, map_run, OpenRes.decodeRes, bind_run, ite_run,
            if_neg hne, pure_run, Res.toOpen]
    | _ => cases hr

/-- OPEN_CONFIRM confirms the stateid that its decoder keeps. -/
lemma tracks_openConfirm (fh : FileHandle) (sid : Stateid) (seqid : UInt32) :
    Tracks confirmed? Res.stateid (.putfh fh) (.openConfirm sid seqid) [] where
  sequence _ _ := rfl
  first _ := rfl
  rest := by simp
  answer d := by
    have hst : (StateidRes.decodeRes {} d).1.status = statusAt d :=
      decodeRes_stat d (.openConfirm {})
    simp only [Arg.decoder, Res.decodeRes, map_run, confirmed?, hst, Res.stateid]
  decode r d hr := by
    cases r with
    | openConfirm r =>
        by_cases hok : statusAt d = nfs4Ok
        · rw [if_pos hok, decodeRes_of_ok (Res.clean_of_keeps rfl) hok, hr]
        · have hne : (uint32 d).1 ≠ nfs4Ok := hok
          simp only [if_neg hok, Res.decodeRes, map_run, StateidRes.decodeRes, bind_run, ite_run,
            if_neg hne, pure_run, Res.stateid]
    | _ => cases hr

/-- The value that a multi-op method takes from the decoder of its second operation is the last
one that was answered. -/
lemma Tracks.exec {pick : Arg × Res → Option Stateid} {val : Res → Stateid} {first a : Arg}
    {rest : List Arg} (h : Tracks pick val first a rest)
    (hc : c.caller = .retry (sessionStack ps) cfg) {m : MultiOp α}
    (hops : m.ops = first :: a :: rest)
    {n n' : Net W} {v : α} (hexec : m.exec E c n = (.ok v, n')) :
    ∃ rs, v = m.value rs ∧
      val (rs.getD 1 default) = (answered pick (eventsSince n n')).getLastD (val a.decoder) := by
  obtain ⟨es, out, hlog, hfin, htr⟩ := m.exec_transcript (E := E) hc n
  rw [hexec] at hlog hfin
  have hes : eventsSince n n' = es := by
    rw [eventsSince, show n'.log = n.log ++ es from hlog, List.drop_left]
  obtain ⟨rs, e | r⟩ := out
  · simp [MultiOp.finish] at hfin
  · have hvalue : v = m.value rs := by
      simp only [MultiOp.finish] at hfin
      split at hfin
      · cases hfin
      · split at hfin
        · cases hfin
        · exact Except.ok.inj hfin
    refine ⟨rs, hvalue, ?_⟩
    have hlast := h.transcript (by rw [request_ops, hops]) htr
      (by rw [m.results_eq, request_ops, kinds_decoders]) rfl
    rw [hes, hlast, m.results_eq, hops]
    rfl

end Exec

/-! ## Getting to the transport -/

/-- The session callers let an attempt through: no context is done, and each session has a slot to
lease. -/
def Reaches (E : Env W) : List ℕ → Net W → Prop
  | [], _ => True
  | p :: ps, n =>
    match E.select n.world with
    | (some _, _) => False
    | (none, w) =>
      match ((n.push (.select none) w).session p).takeToken with
      | none => False
      | some s₁ =>
        match s₁.scan with
        | none => False
        | some (_, s₂) => Reaches E ps ((n.push (.select none) w).setSession p s₂)

/-- A call of a connection gets to send its compound: the context is not done before its first
attempt, and that attempt is let through. -/
def GetsThrough (E : Env W) (ps : List ℕ) (n : Net W) : Prop :=
  (E.ctxErr n.world).1 = none ∧
    Reaches E ps (n.push (.ctxErr none) (E.ctxErr n.world).2)

/-- An attempt sends its compound if it is let through, and else ends with an error of its
context. -/
lemma reaches_callCompound (ps : List ℕ) (comp : Compound) (rs : List Res) (n : Net W) :
    ∃ es, ((sessionStack ps).callCompound E comp rs n).2.log = n.log ++ es ∧
      (Reaches E ps n → ∃ c reply, .call c reply ∈ es) ∧
      (¬ Reaches E ps n → (∀ ev ∈ es, ev.isCall = false) ∧
        ∃ e, ((sessionStack ps).callCompound E comp rs n).1.2 = .error (.ctx e)) := by
  induction ps generalizing comp rs n with
  | nil =>
      rcases hb : E.base comp n.world with ⟨reply, w⟩
      refine ⟨[.call comp reply], ?_, fun _ => ⟨comp, reply, by simp⟩, fun h => absurd trivial h⟩
      simp only [sessionStack, Caller.callCompound, hb, Net.push]
  | cons p ps ih =>
      rcases hs : E.select n.world with ⟨_ | e, w⟩
      · rcases ht : ((n.push (.select none) w).session p).takeToken with _ | s₁
        · rw [sessionStack, callCompound_no_token hs ht]
          exact ⟨[.select none], rfl, by simp [Reaches, hs, ht],
            fun _ => ⟨by simp [Event.isCall], _, rfl⟩⟩
        · rcases hc : s₁.scan with _ | ⟨l, s₂⟩
          · rw [sessionStack, callCompound_no_slot hs ht hc]
            exact ⟨[.select none], rfl, by simp [Reaches, hs, ht, hc],
              fun _ => ⟨by simp [Event.isCall], _, rfl⟩⟩
          · -- a slot is leased: the rest of the stack decides
            obtain ⟨es, hlog, hyes, hno⟩ := ih (wrapCompound (s₂.sequenceArgs l) comp)
              (.sequence {} :: rs) ((n.push (.select none) w).setSession p s₂)
            have hreach : Reaches E (p :: ps) n
                ↔ Reaches E ps ((n.push (.select none) w).setSession p s₂) := by
              simp only [Reaches, hs, ht, hc]
            rcases hb : (sessionStack ps).callCompound E (wrapCompound (s₂.sequenceArgs l) comp)
              (.sequence {} :: rs) ((n.push (.select none) w).setSession p s₂) with ⟨out, n₂⟩
            rw [hb] at hlog hno
            rw [sessionStack, callCompound_leased hs ht hc hb, hreach]
            refine ⟨.select none :: es, ?_, ?_, ?_⟩
            · simp only [Net.setSession] at hlog ⊢
              simp [hlog, Net.push]
            · intro h
              obtain ⟨c, reply, hmem⟩ := hyes h
              exact ⟨c, reply, by simp [hmem]⟩
            · intro h
              obtain ⟨hes, e, he⟩ := hno h
              refine ⟨by simpa [Event.isCall] using hes, e, ?_⟩
              obtain ⟨rs', o⟩ := out
              obtain rfl : o = .error (.ctx e) := he
              rfl
      · rw [sessionStack, callCompound_cancelled hs]
        exact ⟨[.select (some e)], rfl, by simp [Reaches, hs],
          fun _ => ⟨by simp [Event.isCall], _, rfl⟩⟩

/-- The log of the loop starts with that of its first attempt. -/
lemma log_of_retryRun {ps : List ℕ} {comp : Compound} {rs : List Res} {n n₁ : Net W} {w : W}
    {out : Outcome} {r : Outcome × Net W}
    (h : RetryRun E (fun rs n => (sessionStack ps).callCompound E comp rs n) rs n r)
    (hctx : E.ctxErr n.world = (none, w))
    (hcall : (sessionStack ps).callCompound E comp rs (n.push (.ctxErr none) w) = (out, n₁)) :
    ∃ es, r.2.log = n₁.log ++ es := by
  cases h with
  | stopped err hctx' => simp [hctx] at hctx'
  | final hctx' hcall' hr | exhausted hctx' hcall' hr =>
      obtain ⟨-, rfl⟩ := Prod.mk.inj (hctx.symm.trans hctx')
      obtain ⟨-, rfl⟩ := Prod.mk.inj (hcall.symm.trans hcall')
      exact ⟨[], by simp⟩
  | interrupted hctx' hcall' hr hs =>
      obtain ⟨-, rfl⟩ := Prod.mk.inj (hctx.symm.trans hctx')
      obtain ⟨-, rfl⟩ := Prod.mk.inj (hcall.symm.trans hcall')
      exact ⟨[_], rfl⟩
  | again hctx' hcall' hr hs hrun =>
      obtain ⟨-, rfl⟩ := Prod.mk.inj (hctx.symm.trans hctx')
      obtain ⟨-, rfl⟩ := Prod.mk.inj (hcall.symm.trans hcall')
      obtain ⟨es, hlog, -⟩ := transcript_of_retryRun hrun
      rw [hlog]
      exact ⟨_ :: es, List.append_assoc ..⟩

/-- A call sends a compound exactly when its first attempt gets through. -/
lemma getsThrough_iff (cfg : RetryConfig) (ps : List ℕ) (comp : Compound) (rs : List Res)
    (n : Net W) :
    (∃ c reply, .call c reply ∈ eventsSince n
        ((Caller.retry (sessionStack ps) cfg).callCompound E comp rs n).2) ↔
      GetsThrough E ps n := by
  unfold GetsThrough Caller.callCompound eventsSince
  rcases hctx : E.ctxErr n.world with ⟨_ | e, w⟩
  · obtain ⟨es, hlog, hyes, hno⟩ :=
      reaches_callCompound (E := E) ps comp rs (n.push (.ctxErr none) w)
    rcases hcall : (sessionStack ps).callCompound E comp rs (n.push (.ctxErr none) w) with
      ⟨⟨rs₁, out⟩, n₁⟩
    rw [hcall] at hlog hno
    have hlog₁ : n₁.log = n.log ++ .ctxErr none :: es := by rw [hlog]; simp [Net.push]
    by_cases hreach : Reaches E ps (n.push (.ctxErr none) w)
    · obtain ⟨c, reply, hmem⟩ := hyes hreach
      obtain ⟨es', hes'⟩ := log_of_retryRun (retryRun_retryLoop cfg _
        (cfg.maxAttempts.toNat - 1) cfg.initial none rs n) hctx hcall
      rw [hes', hlog₁]
      simp only [true_and, hreach, iff_true]
      exact ⟨c, reply, by simp [hmem]⟩
    · obtain ⟨hes, e, he⟩ := hno hreach
      obtain rfl : out = .error (.ctx e) := he
      rw [retryLoop_final hctx hcall rfl, hlog₁, List.drop_left]
      simp only [true_and, hreach, iff_false]
      rintro ⟨c, reply, hmem⟩
      rcases List.mem_cons.mp hmem with heq | hmem
      · cases heq
      · exact absurd (hes _ hmem) (by simp [Event.isCall])
  · rw [retryLoop_stopped hctx]
    simp [Net.push]

end NfsClient.Nfs4
