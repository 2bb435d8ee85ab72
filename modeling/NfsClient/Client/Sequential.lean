import NfsClient.Client.FS
import NfsClient.Client.FileRefines
import NfsClient.Lib.Delivery

/-!
# Reading a file sequentially

There are two ways to read a file from its beginning to its end: `Read` on the handle that
`FS.Open` returns, which remembers that the server has reported the end of the file, and `Read`
on a `File`, which takes an empty answer for it.  Both deliver the content of the file, whatever
the server returns at a time and whatever buffers they are given.
-/

namespace NfsClient.Client

open NfsClient.Lib NfsClient.Nfs4

/-- The bytes that a call of `Read` delivered. -/
def FileRes.chunk (res : FileRes) : Bytes := res.buf.take res.n.toNat

/-- What a sequence of reads from the beginning of a file should return. -/
structure ReadsAll (content : Bytes) (rs : List FileRes) : Prop where
  /-- A read that finds everything delivered returns `io.EOF`; any other one returns some bytes. -/
  read : ∀ i (hi : i < rs.length),
    ((rs.take i).flatMap FileRes.chunk = content → rs[i].n = 0 ∧ rs[i].err = some .eof) ∧
    ((rs.take i).flatMap FileRes.chunk ≠ content →
      rs[i].chunk ≠ [] ∧ rs[i].n = rs[i].chunk.length ∧ rs[i].err = none)
  isPrefix : rs.flatMap FileRes.chunk <+: content
  /-- As many reads as there are bytes are enough. -/
  complete : content.length ≤ rs.length → rs.flatMap FileRes.chunk = content

/-- A result that reports its bytes, and `io.EOF` if there are none. -/
structure FileRes.Plain (res : FileRes) : Prop where
  n_eq : res.n = res.chunk.length
  err_eq : res.err = if res.chunk = [] then some .eof else none

lemma readsAll_of_delivered {content : Bytes} {rs : List FileRes}
    (h : Delivered content 0 (rs.map FileRes.chunk)) (hplain : ∀ res ∈ rs, res.Plain) :
    ReadsAll content rs := by
  have hflat : ∀ rs : List FileRes, rs.flatMap FileRes.chunk = (rs.map FileRes.chunk).flatten :=
    fun rs => List.flatMap_def
  refine ⟨fun i hi => ?_, ?_, fun hlen => ?_⟩
  · have hnil := h.eq_nil_iff (i := i) (by simpa using hi)
    rw [List.getElem_map, ← List.map_take, ← hflat, List.drop_zero] at hnil
    have hres := hplain rs[i] (List.getElem_mem hi)
    refine ⟨fun hdone => ?_, fun hmore => ?_⟩
    · have hchunk := hnil.mpr hdone
      exact ⟨by simp [hres.n_eq, hchunk], by simp [hres.err_eq, hchunk]⟩
    · have hchunk := mt hnil.mp hmore
      exact ⟨hchunk, hres.n_eq, by simp [hres.err_eq, hchunk]⟩
  · rw [hflat]
    exact h.flatten_isPrefix
  · rw [hflat, h.flatten_eq (by simpa using hlen), List.drop_zero]

/-- Read with one buffer after the other. -/
def readEach {S W : Type} (read : S → Bytes → W → FileRes × S × W) :
    List Bytes → S → W → List FileRes
  | [], _, _ => []
  | p :: ps, f, w =>
    match read f p w with
    | (res, f', w') => res :: readEach read ps f' w'

/-- A read at `pos` delivers the next bytes, and leaves the reader behind them. -/
structure Delivers {S W : Type} (content : Bytes) (At : ℕ → S → Prop) (pos : ℕ)
    (out : FileRes × S × W) : Prop where
  plain : out.1.Plain
  ends : out.1.chunk = [] → content.length ≤ pos
  isPrefix : out.1.chunk <+: content.drop pos
  next : At (pos + out.1.chunk.length) out.2.1

/-- A reader that keeps its position delivers the content piece by piece. -/
lemma delivered_readEach {S W : Type} {read : S → Bytes → W → FileRes × S × W} {content : Bytes}
    {Good : Bytes → Prop} (At : ℕ → S → Prop)
    (hread : ∀ {pos f p} w, At pos f → Good p → Delivers content At pos (read f p w))
    {ps : List Bytes} (hps : ∀ p ∈ ps, Good p) {pos : ℕ} {f : S} (h : At pos f) (w : W) :
    Delivered content pos ((readEach read ps f w).map FileRes.chunk) ∧
      ∀ res ∈ readEach read ps f w, res.Plain := by
  induction ps generalizing pos f w with
  | nil => exact ⟨.nil pos, by simp [readEach]⟩
  | cons p ps ih =>
      have hfirst := hread w h (hps p (by simp))
      rcases hr : read f p w with ⟨res, f', w'⟩
      rw [hr] at hfirst
      obtain ⟨hrest, hplains⟩ := ih (fun p' hp' => hps p' (by simp [hp'])) hfirst.next w'
      simp only [readEach, hr, List.map_cons]
      refine ⟨?_, by simpa using ⟨hfirst.plain, hplains⟩⟩
      by_cases hnil : res.chunk = []
      · rw [hnil] at hrest ⊢
        exact .done (hfirst.ends hnil) hrest
      · exact .more hnil hfirst.isPrefix hrest

/-! ## The two handles -/

/-- A server that answers READ with some of the bytes of the range that exist, and reports the end
of the file exactly if they reach it. -/
def ReadServer {W : Type} (read : FileHandle → UInt64 → UInt32 → W → Except Err (Bytes × Bool) × W)
    (fh : FileHandle) (content : Bytes) : Prop :=
  ∀ w off count, 0 < count.toNat → ∃ data eof w' k, read fh off count w = (.ok (data, eof), w') ∧
    0 < k ∧ k ≤ count.toNat ∧ data = (content.drop off.toNat).take k ∧
    (eof = true ↔ content.length ≤ off.toNat + data.length)

/-- The buffers that are read with. -/
def GoodBuffer (p : Bytes) : Prop := p ≠ [] ∧ p.length < 2 ^ 32

section Handles

variable {W : Type} {content p data : Bytes} {k : ℕ}

/-- The result of copying data that fits into the buffer. -/
def copiedRes (p data : Bytes) : FileRes :=
  ⟨copied p 0 data, data.length, if data.length = 0 then some .eof else none⟩

@[simp] lemma chunk_copiedRes (p data : Bytes) : (copiedRes p data).chunk = data := by
  simp [copiedRes, FileRes.chunk, copied]

lemma plain_copiedRes (p data : Bytes) : (copiedRes p data).Plain := by
  refine ⟨by rw [chunk_copiedRes]; rfl, ?_⟩
  rw [chunk_copiedRes]
  simp only [copiedRes, List.length_eq_zero_iff]

/-- The data of a READ at `pos`. -/
structure ReadAt (content : Bytes) (pos : ℕ) (data : Bytes) : Prop where
  isPrefix : data <+: content.drop pos
  ends : data.length = 0 → content.length ≤ pos
  pos_le : pos + data.length ≤ content.length

lemma readAt_of_take {pos : ℕ} (hk : 0 < k) (hdata : data = (content.drop pos).take k)
    (hpos : pos ≤ content.length) : ReadAt content pos data := by
  have hlen : data.length = min k (content.length - pos) := by
    rw [hdata, List.length_take, List.length_drop]
  exact ⟨hdata ▸ List.take_prefix _ _, fun h => by omega, by omega⟩

/-- Delivering the data of a READ. -/
lemma ReadAt.delivers {S : Type} {At : ℕ → S → Prop} {pos : ℕ} (h : ReadAt content pos data)
    {f : S} (hat : At (pos + data.length) f) (w : W) :
    Delivers content At pos (copiedRes p data, f, w) where
  plain := plain_copiedRes p data
  ends hnil := h.ends (by rw [chunk_copiedRes] at hnil; rw [hnil]; rfl)
  isPrefix := by rw [chunk_copiedRes]; exact h.isPrefix
  next := by rw [chunk_copiedRes]; exact hat

/-- The number of bytes that `file.Read` asks for. -/
lemma want_bounds (fsys : FS) (hp : GoodBuffer p) :
    0 < (if fsys.readBlock.toInt < p.length then fsys.readBlock.toInt.toNat else p.length) ∧
      (if fsys.readBlock.toInt < p.length then fsys.readBlock.toInt.toNat else p.length)
        ≤ p.length := by
  have hlen := List.length_pos_iff.mpr hp.1
  have hpos : 0 < fsys.readBlock.toInt := by
    unfold FS.readBlock
    split
    · next h => rwa [Int64.lt_iff_toInt_lt, Int64.toInt_zero] at h
    · decide
  split <;> omega

namespace FS

variable {P : Protocol W} {fh : FileHandle} (fsys : FS)

/-- The handle stands at `pos`. -/
structure File.At (fh : FileHandle) (content : Bytes) (pos : ℕ) (f : File) : Prop where
  fh_eq : f.fh = fh
  offset : f.offset.toNat = pos
  pos_le : pos ≤ content.length
  /-- The end of the file was reported only when it was reached. -/
  eof : f.eof = true → content.length ≤ pos

/-- A file that was just opened is at its beginning. -/
lemma openNamed_file {name : Bytes} {w₀ w : W} {f : File}
    (h : openNamed P name w₀ = (.ok (.file f), w)) : f.offset = 0 ∧ f.eof = false := by
  unfold openNamed at h
  split at h
  · cases h
  · split at h
    · cases h
    · dsimp only at h
      split at h
      · cases h
      · cases h
        exact ⟨rfl, rfl⟩

/-- `file.Read` delivers the next bytes. -/
lemma File.read_delivers (hP : ReadServer P.read fh content) (hcontent : content.length < 2 ^ 64)
    {pos : ℕ} {f : File} (w : W) (hf : f.At fh content pos) (hp : GoodBuffer p) :
    Delivers content (File.At fh content) pos (f.read P fsys p w) := by
  by_cases heof : f.eof = true
  · have hread : f.read P fsys p w = ({ buf := p, err := some .eof }, f, w) := by
      simp [File.read, heof]
    rw [hread]
    exact ⟨⟨by simp [FileRes.chunk], by simp [FileRes.chunk]⟩, fun _ => hf.eof heof,
      by simp [FileRes.chunk], by simpa [FileRes.chunk] using hf⟩
  · obtain ⟨hwant, hwantle⟩ := want_bounds fsys hp
    have hlt := hp.2
    set want := if fsys.readBlock.toInt < p.length then fsys.readBlock.toInt.toNat else p.length
      with hdef
    have hcount : (UInt32.ofNat want).toNat = want := toNat_readCount (by omega)
    obtain ⟨data, eof, w', k, hread, hk, hkle, hdata, heof'⟩ :=
      hP w f.offset (UInt32.ofNat want) (by omega)
    rw [hf.offset] at hdata heof'
    have hdlen : data.length ≤ p.length - 0 := by
      rw [hdata, List.length_take]
      omega
    have hat := readAt_of_take hk hdata hf.pos_le
    -- an empty answer is one that reaches the end
    have herr : (if (data.length = 0 && eof) = true then some Err.eof else none)
        = if data.length = 0 then some .eof else none := by
      by_cases h0 : data.length = 0
      · have he : eof = true := heof'.mpr (by have := hat.ends h0; omega)
        simp [h0, he]
      · simp [h0]
    have hrun : f.read P fsys p w = (copiedRes p data,
        { f with offset := f.offset + UInt64.ofNat data.length, eof := eof }, w') := by
      rw [Bool.not_eq_true] at heof
      simp only [File.read, heof, Bool.false_eq_true, if_false, ← hdef, hf.fh_eq, hread,
        copyAt_of_le hdlen, le_refl, decide_true, Bool.and_true, Bool.false_or, herr, copiedRes]
    rw [hrun]
    refine hat.delivers ⟨hf.fh_eq, ?_, hat.pos_le, heof'.mp⟩ w'
    have := hat.pos_le
    rw [toNat_add_ofNat, hf.offset]
    rw [hf.offset]
    omega

end FS

/-! ### `File` -/

/-- The cursor of the file stands at `pos`, as an unsigned number. -/
structure File.At (fh : FileHandle) (content : Bytes) (pos : ℕ) (f : File) : Prop where
  fh_eq : f.fh = fh
  offset : f.offset.toUInt64.toNat = pos
  pos_le : pos ≤ content.length
  isOpen : f.closed = false

/-- `File.Read` delivers the next bytes. -/
lemma File.read_delivers {P : RWProtocol W} {fh : FileHandle} (hP : ReadServer P.read fh content)
    (hcontent : content.length < 2 ^ 64) {pos : ℕ} {f : File} (w : W) (hf : f.At fh content pos)
    (hp : GoodBuffer p) : Delivers content (File.At fh content) pos (f.read P p w) := by
  have hcount := toNat_readCount hp.2
  have hlen := List.length_pos_iff.mpr hp.1
  obtain ⟨data, eof, w', k, hread, hk, hkle, hdata, -⟩ :=
    hP w f.offset.toUInt64 (UInt32.ofNat p.length) (by omega)
  rw [hf.offset] at hdata
  have hdlen : data.length ≤ p.length - 0 := by
    rw [hdata, List.length_take]
    omega
  have hat := readAt_of_take hk hdata hf.pos_le
  have hrun : f.read P p w = (copiedRes p data,
      { f with offset := f.offset + Int64.ofNat data.length }, w') := by
    simp only [File.read, hf.isOpen, Bool.false_eq_true, if_false, hlen.ne', hf.fh_eq, hread,
      copyAt_of_le hdlen, copiedRes]
  rw [hrun]
  refine hat.delivers ⟨hf.fh_eq, ?_, hat.pos_le, hf.isOpen⟩ w'
  -- the cursor may be negative as an `int64`; the offset that is sent is still right
  have hsum : (f.offset + Int64.ofNat data.length).toUInt64
      = f.offset.toUInt64 + UInt64.ofNat data.length := by
    rw [Int64.toUInt64_add, Int64.toUInt64_ofNat']
  show (f.offset + Int64.ofNat data.length).toUInt64.toNat = _
  have := hat.pos_le
  rw [hsum, toNat_add_ofNat, hf.offset]
  rw [hf.offset]
  omega

end Handles

/-- **Both ways to read a file deliver its content.**  The handle that `Open` returned and a `File`
at its beginning are read with any buffers; the servers may return as much as they like at a time.
The size of a file is a 64-bit number. -/
theorem reads_all {W W' : Type} {P : Protocol W} {Q : RWProtocol W'} {content : Bytes}
    (hcontent : content.length < 2 ^ 64) (fsys : FS) {name : Bytes} {w₀ w : W} {f : FS.File}
    (hopen : FS.openNamed P name w₀ = (.ok (.file f), w)) (hP : ReadServer P.read f.fh content)
    {g : File} (hg : g.offset = 0) (hgopen : g.closed = false)
    (hQ : ReadServer Q.read g.fh content) {ps qs : List Bytes} (hps : ∀ p ∈ ps, GoodBuffer p)
    (hqs : ∀ q ∈ qs, GoodBuffer q) (w' : W') :
    ReadsAll content (readEach (FS.File.read P fsys) ps f w) ∧
      ReadsAll content (readEach (File.read Q) qs g w') := by
  obtain ⟨hoffset, heof⟩ := FS.openNamed_file hopen
  have hf : f.At f.fh content 0 := ⟨rfl, by rw [hoffset]; rfl, Nat.zero_le _, by simp [heof]⟩
  have hgat : g.At g.fh content 0 := ⟨rfl, by rw [hg]; rfl, Nat.zero_le _, hgopen⟩
  obtain ⟨hdel, hplain⟩ := delivered_readEach (FS.File.At f.fh content)
    (FS.File.read_delivers fsys hP hcontent) hps hf w
  obtain ⟨hdel', hplain'⟩ := delivered_readEach (File.At g.fh content)
    (File.read_delivers hQ hcontent) hqs hgat w'
  exact ⟨readsAll_of_delivered hdel hplain, readsAll_of_delivered hdel' hplain'⟩

/-- The answer to READ of a server that returns at most `c + 1` bytes at a time. -/
def servedRead (content : Bytes) (c : ℕ) (_ : FileHandle) (off : UInt64) (count : UInt32)
    (_ : Unit) : Except Err (Bytes × Bool) × Unit :=
  let data := (content.drop off.toNat).take (min (c + 1) count.toNat)
  (.ok (data, content.length ≤ off.toNat + data.length), ())

lemma servedRead_readServer (content : Bytes) (c : ℕ) (fh : FileHandle) :
    ReadServer (servedRead content c) fh content := fun _ _ count _ =>
  ⟨_, _, (), min (c + 1) count.toNat, rfl, by omega, by omega, rfl, by simp⟩

/-- A server with one file. -/
def oneFile (content : Bytes) (c : ℕ) : Protocol Unit where
  rootFH _ := none
  lookup _ _ w := (.ok (some [1]), w)
  getAttr _ _ w := (.ok ([2], [0, 0, 0, 1]), w)
  read := servedRead content c
  readdir _ _ _ _ w := (.error (.status nfs4errInval), w)

/-- A server with one file that can only be read. -/
def readOnlyFile (content : Bytes) (c : ℕ) : RWProtocol Unit where
  read := servedRead content c
  write _ _ _ _ _ w := (.error (.status nfs4errRofs), w)
  getAttr _ _ w := (.ok ([2], [0, 0, 0, 1]), w)
  setAttr _ _ _ _ w := (.error (.status nfs4errRofs), w)
  closeFile _ _ w := (.ok (), w)

/-- Five bytes, two and three at a time. -/
theorem reads_all_fiveBytes :
    ∃ f, FS.openNamed (oneFile [1, 2, 3, 4, 5] 1) (ascii "f") () = (.ok (.file f), ()) ∧
      ReadsAll [1, 2, 3, 4, 5] (readEach (FS.File.read (oneFile [1, 2, 3, 4, 5] 1) {})
        (List.replicate 7 [0, 0, 0]) f ()) ∧
      ReadsAll [1, 2, 3, 4, 5] (readEach (File.read (readOnlyFile [1, 2, 3, 4, 5] 2))
        (List.replicate 7 [0, 0, 0, 0]) openedFile ()) := by
  have hgood : ∀ (p : Bytes) k, GoodBuffer p → ∀ q ∈ List.replicate k p, GoodBuffer q :=
    fun p k hp q hq => List.eq_of_mem_replicate hq ▸ hp
  obtain ⟨f, hf⟩ : ∃ f, FS.openNamed (oneFile [1, 2, 3, 4, 5] 1) (ascii "f") ()
      = (.ok (.file f), ()) := ⟨_, rfl⟩
  exact ⟨f, hf, reads_all (by decide) {} hf (servedRead_readServer _ 1 f.fh) rfl rfl
    (servedRead_readServer _ 2 _) (hgood _ 7 (by unfold GoodBuffer; decide))
    (hgood _ 7 (by unfold GoodBuffer; decide)) ()⟩

end NfsClient.Client
