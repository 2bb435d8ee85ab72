import NfsClient.Client.Listing
import NfsClient.Lib.MachineInt
import NfsClient.Lib.Run

/-!
# Reading an open directory in chunks

`dirFile.ReadDir(n)` hands out the next `n` entries of a listing that it has loaded once.  The
end of a chunk is `pos + n` in 64-bit arithmetic, and it is compared with the length of the
listing only afterwards.  If the sum does not overflow, the chunks are consecutive pieces of the
listing; if it does, the call panics.
-/

namespace NfsClient.Client

open NfsClient.Lib NfsClient.Nfs4

namespace FS

/-! ## Calls -/

/-- A call of `dirFile.ReadDir`: its argument, the position before and after it, and what it ended
in. -/
structure DirStep where
  n : Int64
  before : Int64
  call : DirCall
  after : Int64
deriving DecidableEq

/-- The entries that a call returned. -/
def DirCall.chunk : DirCall → List FileInfo
  | .returned chunk _ => chunk
  | .panicked => []

/-- What a call should do: it does not panic; the position does not decrease and stays within the
listing; the chunk is what lies between the two positions, all of the rest if `n ≤ 0` and
otherwise `n` entries or as many as remain; and `io.EOF` is returned exactly if `n > 0` and
nothing remains. -/
structure DirStep.Lossless (entries : List FileInfo) (t : DirStep) : Prop where
  returned : ∃ chunk err, t.call = .returned chunk err ∧
    chunk = (entries.take t.after.toInt.toNat).drop t.before.toInt.toNat ∧
    (t.n ≤ 0 → chunk = entries.drop t.before.toInt.toNat ∧ err = none) ∧
    (0 < t.n → (chunk.length : ℤ) = min t.n.toInt (entries.length - t.before.toInt) ∧
      err = if (entries.length : ℤ) ≤ t.before.toInt then some .eof else none)
  mono : t.before ≤ t.after
  bound : t.after.toInt ≤ entries.length

/-- The end of the chunk does not leave the range of `int`. -/
def DirStep.InRange (entries : List FileInfo) (t : DirStep) : Prop :=
  0 < t.n → t.before.toInt < entries.length → t.before.toInt + t.n.toInt < 2 ^ 63

instance (entries : List FileInfo) (t : DirStep) : Decidable (t.InRange entries) :=
  inferInstanceAs (Decidable (_ → _ → _))

/-- A listing that was loaded, and a position within it. -/
structure DirFile.Loaded (entries : List FileInfo) (d : DirFile) : Prop where
  read : d.read = true
  entries_eq : d.entries = entries
  pos_nonneg : 0 ≤ d.pos.toInt
  pos_le : d.pos.toInt ≤ entries.length

section Next

variable {entries : List FileInfo} {d : DirFile} {n : Int64}

lemma slice_of_le {lo hi : Int64} (h₀ : 0 ≤ lo.toInt) (h₁ : lo.toInt ≤ hi.toInt)
    (h₂ : hi.toInt ≤ entries.length) :
    slice entries lo hi = some ((entries.take hi.toInt.toNat).drop lo.toInt.toNat) :=
  if_pos ⟨h₀, h₁, h₂⟩

/-- What a call does once the listing is loaded.  Only the last way out is bad. -/
inductive Nexts (entries : List FileInfo) (d : DirFile) (n : Int64) : DirCall × DirFile → Prop
  | rest (hn : n ≤ 0) : Nexts entries d n
      (.returned (entries.drop d.pos.toInt.toNat) none,
        { d with pos := Int64.ofNat entries.length })
  | eof (hn : 0 < n) (hpos : d.pos.toInt = entries.length) : Nexts entries d n
      (.returned [] (some .eof), d)
  | chunk (hn : 0 < n) (hpos : d.pos.toInt < entries.length)
      (hrange : d.pos.toInt + n.toInt < 2 ^ 63) (stop : Int64)
      (hstop : stop.toInt = min (d.pos.toInt + n.toInt) entries.length) : Nexts entries d n
      (.returned ((entries.take stop.toInt.toNat).drop d.pos.toInt.toNat) none,
        { d with pos := stop })
  | panicked (hn : 0 < n) (hpos : d.pos.toInt < entries.length)
      (hover : 2 ^ 63 ≤ d.pos.toInt + n.toInt) : Nexts entries d n (.panicked, d)

lemma nexts_next (hlen : entries.length < 2 ^ 63) (hd : d.Loaded entries) (n : Int64) :
    Nexts entries d n (d.next n) := by
  obtain rfl : d.entries = entries := hd.entries_eq
  have hlen' : (Int64.ofNat d.entries.length).toInt = d.entries.length :=
    Int64.toInt_ofNat_of_lt hlen
  have h0 := hd.pos_nonneg
  have hle := hd.pos_le
  unfold DirFile.next
  by_cases hn : n ≤ 0
  · rw [if_pos hn, slice_of_le h0 (by omega) (by omega), hlen', Int.toNat_natCast,
      List.take_length]
    exact .rest hn
  have hn' : 0 < n := Int64.not_le.mp hn
  rw [if_neg hn]
  by_cases hpos : Int64.ofNat d.entries.length ≤ d.pos
  · rw [if_pos hpos]
    rw [Int64.le_iff_toInt_le, hlen'] at hpos
    exact .eof hn' (by omega)
  rw [if_neg hpos]
  dsimp only
  rw [Int64.le_iff_toInt_le, hlen', not_le] at hpos
  rw [Int64.lt_iff_toInt_lt, Int64.toInt_zero] at hn'
  have hnlt := n.toInt_lt
  by_cases hover : 2 ^ 63 ≤ d.pos.toInt + n.toInt
  · -- the sum is negative, so it is not cut off, and it is no slice index
    have hsum : (d.pos + n).toInt = d.pos.toInt + n.toInt - 2 ^ 64 := by
      rw [Int64.toInt_add, bmod_of_wrap] <;> omega
    have hcut : ¬ Int64.ofNat d.entries.length < d.pos + n := by
      rw [Int64.lt_iff_toInt_lt, hsum, hlen']
      omega
    have hslice : slice d.entries d.pos (d.pos + n) = none := by
      rw [slice, if_neg]
      omega
    rw [if_neg hcut, hslice]
    exact .panicked (by rwa [Int64.lt_iff_toInt_lt]) hpos hover
  · have hsum : (d.pos + n).toInt = d.pos.toInt + n.toInt := by
      apply toInt_add_of_range <;> omega
    generalize hstop : (if Int64.ofNat d.entries.length < d.pos + n then
      Int64.ofNat d.entries.length else d.pos + n) = stop
    have hstop' : stop.toInt = min (d.pos.toInt + n.toInt) d.entries.length := by
      rw [← hstop]
      split <;> rename_i hlt <;> rw [Int64.lt_iff_toInt_lt, hsum, hlen'] at hlt <;> omega
    rw [slice_of_le h0 (by omega) (by omega)]
    exact .chunk (by rwa [Int64.lt_iff_toInt_lt]) hpos (not_le.mp hover) stop hstop'

section Nexts

variable {r : DirCall × DirFile} (hlen : entries.length < 2 ^ 63) (hd : d.Loaded entries)
  (h : Nexts entries d n r)

include hlen hd h

/-- The position stays within the listing and does not decrease. -/
lemma Nexts.loaded : r.2.Loaded entries ∧ d.pos ≤ r.2.pos := by
  have h0 := hd.pos_nonneg
  have hle := hd.pos_le
  cases h with
  | rest hn =>
      have hlen' : (Int64.ofNat entries.length).toInt = entries.length :=
        Int64.toInt_ofNat_of_lt hlen
      refine ⟨⟨hd.read, hd.entries_eq, ?_, hlen'.le⟩, ?_⟩
      · exact hlen' ▸ Int.natCast_nonneg _
      · rw [Int64.le_iff_toInt_le, hlen']
        exact hle
  | eof hn hpos | panicked hn hpos hover => exact ⟨hd, Int64.le_refl _⟩
  | chunk hn hpos hrange stop hstop =>
      rw [Int64.lt_iff_toInt_lt, Int64.toInt_zero] at hn
      refine ⟨⟨hd.read, hd.entries_eq, ?_, ?_⟩, ?_⟩
      · show 0 ≤ stop.toInt
        omega
      · show stop.toInt ≤ entries.length
        omega
      · rw [Int64.le_iff_toInt_le]
        show d.pos.toInt ≤ stop.toInt
        omega

omit hd in
/-- The chunk is what lies between the two positions. -/
lemma Nexts.chunk_eq :
    r.1.chunk = (entries.take r.2.pos.toInt.toNat).drop d.pos.toInt.toNat := by
  cases h with
  | rest hn =>
      have hlen' : (Int64.ofNat entries.length).toInt = entries.length :=
        Int64.toInt_ofNat_of_lt hlen
      simp [DirCall.chunk, hlen']
  | eof hn hpos | panicked hn hpos hover => simp [DirCall.chunk]
  | chunk hn hpos hrange stop hstop => rfl

/-- A call does what it should exactly if the end of the chunk is in range. -/
lemma Nexts.lossless_iff :
    DirStep.Lossless entries ⟨n, d.pos, r.1, r.2.pos⟩ ↔
      DirStep.InRange entries ⟨n, d.pos, r.1, r.2.pos⟩ := by
  obtain ⟨hloaded, hmono⟩ := h.loaded hlen hd
  have hchunk := h.chunk_eq hlen
  cases h with
  | rest hn =>
      have hnot : ¬ 0 < n := Int64.not_lt.mpr hn
      exact iff_of_true ⟨⟨_, _, rfl, hchunk, fun _ => ⟨rfl, rfl⟩, fun h => absurd h hnot⟩, hmono,
        hloaded.pos_le⟩ fun h => absurd h hnot
  | eof hn hpos =>
      have hn' := hn
      rw [Int64.lt_iff_toInt_lt, Int64.toInt_zero] at hn'
      refine iff_of_true ⟨⟨_, _, rfl, hchunk, fun h => absurd hn (Int64.not_lt.mpr h), fun _ => ?_⟩,
        hmono, hloaded.pos_le⟩ fun _ hlt => absurd hpos hlt.ne
      simp [hpos, hn'.le]
  | chunk hn hpos hrange stop hstop =>
      have h0 := hd.pos_nonneg
      have hn' := hn
      rw [Int64.lt_iff_toInt_lt, Int64.toInt_zero] at hn'
      refine iff_of_true ⟨⟨_, _, rfl, hchunk, fun h => absurd hn (Int64.not_lt.mpr h), fun _ => ?_⟩,
        hmono, hloaded.pos_le⟩ fun _ _ => hrange
      refine ⟨?_, (if_neg (not_le.mpr hpos)).symm⟩
      rw [List.length_drop, List.length_take]
      show ((min stop.toInt.toNat entries.length - d.pos.toInt.toNat : ℕ) : ℤ)
        = min n.toInt (entries.length - d.pos.toInt)
      omega
  | panicked hn hpos hover =>
      refine iff_of_false ?_ fun h => absurd (h hn hpos) (not_lt.mpr hover)
      rintro ⟨⟨chunk, err, hcall, -⟩, -, -⟩
      cases hcall

end Nexts

end Next

/-! ## Runs -/

/-- An open directory in use: what its calls did so far. -/
structure DirState (W : Type) where
  dir : DirFile
  world : W
  trace : List DirStep := []

variable {W : Type} {P : Protocol W} {pages : ℕ} {d : DirFile} {w w' : W}
  {entries : List FileInfo}

/-- One call; `none` if loading the listing takes more pages than are allowed. -/
def DirState.step (P : Protocol W) (pages : ℕ) (s : DirState W) (n : Int64) :
    Option (DirState W) :=
  (s.dir.readDir P pages n s.world).map fun (call, d, w) =>
    { dir := d, world := w, trace := s.trace ++ [⟨n, s.dir.pos, call, d.pos⟩] }

/-- The entries that the calls returned, one after the other. -/
def chunks (trace : List DirStep) : List FileInfo := trace.flatMap fun t => t.call.chunk

/-- What holds after every call: the listing is loaded, or will be by the next call; the chunks so
far make up the listing up to the position; and a call does what it should exactly if it is in
range. -/
structure Reading (d : DirFile) (w : W) (entries : List FileInfo) (s : DirState W) : Prop where
  dir : s.dir.Loaded entries ∨ s.dir = d ∧ s.world = w
  chunks_eq : chunks s.trace = entries.take s.dir.pos.toInt.toNat
  lossless_iff : ∀ t ∈ s.trace, t.Lossless entries ↔ t.InRange entries

/-- A call, once the listing is there. -/
lemma Reading.next {s : DirState W} (hlen : entries.length < 2 ^ 63) (h : Reading d w entries s)
    {d₁ : DirFile} (hd₁ : d₁.Loaded entries) (hpos : d₁.pos = s.dir.pos) (n : Int64) (w₁ : W) :
    Reading d w entries
      { dir := (d₁.next n).2
        world := w₁
        trace := s.trace ++ [⟨n, s.dir.pos, (d₁.next n).1, (d₁.next n).2.pos⟩] } := by
  have hnext := nexts_next hlen hd₁ n
  obtain ⟨hloaded, hmono⟩ := hnext.loaded hlen hd₁
  refine ⟨.inl hloaded, ?_, fun t ht => ?_⟩
  · have hchunk := hnext.chunk_eq hlen
    rw [hpos] at hchunk
    rw [hpos, Int64.le_iff_toInt_le] at hmono
    rw [chunks, List.flatMap_append, ← chunks, h.chunks_eq, List.flatMap_singleton, hchunk]
    have hsplit := List.take_append_drop s.dir.pos.toInt.toNat
      (entries.take (d₁.next n).2.pos.toInt.toNat)
    rwa [List.take_take, min_eq_left (Int.toNat_le_toNat hmono)] at hsplit
  · rcases List.mem_append.mp ht with ht | ht
    · exact h.lossless_iff t ht
    · rw [List.mem_singleton.mp ht, ← hpos]
      exact hnext.lossless_iff hlen hd₁

/-- Every call returns or panics, and keeps what holds between the calls. -/
lemma Reading.step {s : DirState W} (hlen : entries.length < 2 ^ 63) (hread : d.read = false)
    (hpos : d.pos = 0) (hload : readDirAll P pages d.fh w = some (.ok entries, w'))
    (h : Reading d w entries s) (n : Int64) :
    ∃ s', s.step P pages n = some s' ∧ Reading d w entries s' ∧
      s'.trace.map DirStep.n = s.trace.map DirStep.n ++ [n] := by
  rcases h.dir with hd | ⟨hdir, hworld⟩
  · refine ⟨_, ?_, h.next hlen hd rfl n s.world, by simp⟩
    simp [DirState.step, DirFile.readDir, hd.read]
  · have hd₁ : DirFile.Loaded entries { d with entries, read := true } :=
      ⟨rfl, rfl, by simp [hpos], by simp [hpos]⟩
    refine ⟨_, ?_, h.next hlen hd₁ (by rw [hdir]) n w', by simp⟩
    simp [DirState.step, DirFile.readDir, hdir, hworld, hread, hload]

/-- **Chunked reading of an open directory.**  For every listing and every sequence of calls with
arbitrary arguments, the chunks that are returned make up the listing up to the final position.
The calls do all that they should exactly if no call asks for so many entries that the end of its
chunk leaves the range of `int`. -/
theorem dirFile_lossless_iff (hlen : entries.length < 2 ^ 63) (hread : d.read = false)
    (hpos : d.pos = 0) (hload : readDirAll P pages d.fh w = some (.ok entries, w'))
    (ns : List Int64) :
    ∃ s, run (DirState.step P pages) { dir := d, world := w } ns = some s ∧
      s.trace.map DirStep.n = ns ∧ chunks s.trace = entries.take s.dir.pos.toInt.toNat ∧
      ((∀ t ∈ s.trace, t.Lossless entries) ↔ ∀ t ∈ s.trace, t.InRange entries) := by
  suffices hrun : ∀ s : DirState W, Reading d w entries s → ∃ s',
      run (DirState.step P pages) s ns = some s' ∧ Reading d w entries s' ∧
        s'.trace.map DirStep.n = s.trace.map DirStep.n ++ ns by
    have hinit : Reading d w entries { dir := d, world := w } :=
      ⟨.inr ⟨rfl, rfl⟩, by simp [chunks, hpos], by simp⟩
    obtain ⟨s, hs, hreading, htrace⟩ := hrun _ hinit
    exact ⟨s, hs, by simpa using htrace, hreading.chunks_eq,
      forall₂_congr fun t ht => hreading.lossless_iff t ht⟩
  intro s hs
  induction ns generalizing s with
  | nil => exact ⟨s, rfl, hs, by simp⟩
  | cons n ns ih =>
      obtain ⟨s₁, hstep, hs₁, htrace⟩ := hs.step hlen hread hpos hload n
      obtain ⟨s', hrun, hs', htrace'⟩ := ih s₁ hs₁
      exact ⟨s', run_cons_eq_some.mpr ⟨s₁, hstep, hrun⟩, hs', by rw [htrace', htrace]; simp⟩

/-- The directory that is open at the root of a server. -/
def rootDir : DirFile := { fh := none, name := ascii ".", attrs := {} }

/-- A directory with two files, read in chunks. -/
theorem dirFile_lossless_twoFiles :
    ∃ s, run (DirState.step (pager twoFiles 0) 5) { dir := rootDir, world := default } [1, 7, 1, 0]
        = some s ∧ (chunks s.trace).map FileInfo.name = [ascii "b", ascii "a"] ∧
      ∀ t ∈ s.trace, t.Lossless twoFiles.shown := by
  obtain ⟨w', hload⟩ : ∃ w', readDirAll (pager twoFiles 0) 5 rootDir.fh default
      = some (.ok twoFiles.shown, w') := ⟨_, rfl⟩
  obtain ⟨s, hrun, -, -, hiff⟩ :=
    dirFile_lossless_iff (d := rootDir) (by decide) rfl rfl hload [1, 7, 1, 0]
  have heval : ∃ s ∈ run (DirState.step (pager twoFiles 0) 5)
      { dir := rootDir, world := default } [1, 7, 1, 0],
      (chunks s.trace).map FileInfo.name = [ascii "b", ascii "a"] ∧
        ∀ t ∈ s.trace, t.InRange twoFiles.shown := by decide +kernel
  obtain ⟨s', hrun', hnames, hrange⟩ := heval
  obtain rfl : s = s' := Option.some.inj (hrun.symm.trans hrun')
  exact ⟨s, hrun, hnames, hiff.mpr hrange⟩

/-- One entry, and then as many as there can be: the second call panics. -/
theorem dirFile_panics :
    ∃ s, run (DirState.step (pager twoFiles 0) 5) { dir := rootDir, world := default }
        [1, 9223372036854775807] = some s ∧
      s.trace.map DirStep.call = [.returned [⟨ascii "b", {}⟩] none, .panicked] :=
  ⟨_, rfl, by decide +kernel⟩

end FS

end NfsClient.Client
