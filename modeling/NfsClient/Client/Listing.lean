import NfsClient.Client.FS

/-!
# Listing a directory

What `readDirAll` makes of the pages of a server.  A `Listing` is what a directory holds; a
`PagingServer` hands it out in pages of any size, and expects each request to carry the verifier
of the page before.  Whatever the pages are, `readDirAll` returns the whole listing without the
two dot entries, in the order of the server.
-/

namespace NfsClient.Client

open NfsClient.Nfs4

/-! ## Listings -/

/-- The entries of a directory, as a server keeps them. -/
structure Listing where
  entries : List DirEntry
  nonzero : ∀ e ∈ entries, e.cookie ≠ 0
  distinct : (entries.map DirEntry.cookie).Nodup
  decodable : ∀ e ∈ entries, ∃ attrs, Attr.decode e.attrMask e.attrVals = .ok attrs

/-- What `readDirAll` shows of an entry. -/
def shownAs (e : DirEntry) : Option FileInfo :=
  if FS.isDot e.name then none
  else match Attr.decode e.attrMask e.attrVals with
    | .ok attrs => some ⟨e.name, attrs⟩
    | .error _ => none

/-- The entries that are listed, and how. -/
def Listing.shown (L : Listing) : List FileInfo := L.entries.filterMap shownAs

/-- The entry `i` of a listing shows the entry `e` of the server. -/
def Shows (e : DirEntry) (i : FileInfo) : Prop :=
  i.name = e.name ∧ Attr.decode e.attrMask e.attrVals = .ok i.attrs

/-- Every entry but the dot entries is shown once, in order. -/
lemma forall₂_shown {es : List DirEntry}
    (h : ∀ e ∈ es, ∃ attrs, Attr.decode e.attrMask e.attrVals = .ok attrs) :
    List.Forall₂ Shows (es.filter fun e => !FS.isDot e.name) (es.filterMap shownAs) := by
  induction es with
  | nil => exact .nil
  | cons e es ih =>
      have hrest := ih fun e' he' => h e' (by simp [he'])
      obtain ⟨attrs, hdec⟩ := h e (by simp)
      by_cases hdot : FS.isDot e.name = true
      · simpa [shownAs, hdot] using hrest
      · have hshown : shownAs e = some ⟨e.name, attrs⟩ := by simp [shownAs, hdot, hdec]
        rw [List.filterMap_cons_some hshown, List.filter_cons_of_pos (by simpa using hdot)]
        exact .cons ⟨rfl, hdec⟩ hrest

/-- The entries behind the one with the given cookie; all of them for the cookie 0. -/
def following (es : List DirEntry) (cookie : UInt64) : List DirEntry :=
  if cookie = 0 then es else (es.dropWhile fun e => e.cookie ≠ cookie).tail

/-- The cookie of the last entry, or the given one if there is none. -/
def lastCookie (es : List DirEntry) (cookie : UInt64) : UInt64 :=
  (es.getLast?.map DirEntry.cookie).getD cookie

lemma lastCookie_append (es es' : List DirEntry) (cookie : UInt64) :
    lastCookie (es ++ es') cookie = lastCookie es' (lastCookie es cookie) := by
  unfold lastCookie
  rw [List.getLast?_append]
  cases es'.getLast? <;> rfl

/-- The cookie of the last entry of a first part tells where the rest begins. -/
lemma Listing.following_lastCookie (L : Listing) {done rest : List DirEntry}
    (h : L.entries = done ++ rest) : following L.entries (lastCookie done 0) = rest := by
  rcases List.eq_nil_or_concat done with rfl | ⟨before, e, rfl⟩
  · exact h
  · have hlast : lastCookie (before ++ [e]) 0 = e.cookie := by simp [lastCookie]
    have hne : e.cookie ≠ 0 := L.nonzero e (by simp [h])
    rw [List.concat_eq_append] at h ⊢
    have hbefore : ∀ e' ∈ before, e'.cookie ≠ e.cookie := by
      have hnodup := L.distinct
      rw [h] at hnodup
      simp only [List.map_append, List.nodup_append] at hnodup
      intro e' he' heq
      exact hnodup.1.2.2 e'.cookie (List.mem_map_of_mem he') e.cookie (by simp) heq
    rw [hlast, following, if_neg hne, h, List.append_assoc, List.dropWhile_append_of_pos]
    · simp
    · simpa using hbefore

/-- The cookies that a client knows: 0, and those of the entries. -/
def Listing.Cookie (L : Listing) (cookie : UInt64) : Prop :=
  cookie = 0 ∨ ∃ e ∈ L.entries, e.cookie = cookie

lemma Listing.cookie_lastCookie (L : Listing) {done rest : List DirEntry}
    (h : L.entries = done ++ rest) : L.Cookie (lastCookie done 0) := by
  rcases List.eq_nil_or_concat done with rfl | ⟨before, e, rfl⟩
  · exact .inl rfl
  · exact .inr ⟨e, by simp [h], by simp [lastCookie]⟩

lemma Listing.lastCookie_ne_zero (L : Listing) {done rest : List DirEntry}
    (h : L.entries = done ++ rest) (hne : done ≠ []) : lastCookie done 0 ≠ 0 := by
  rcases List.eq_nil_or_concat done with rfl | ⟨before, e, rfl⟩
  · exact absurd rfl hne
  · have hlast : lastCookie (before ++ [e]) 0 = e.cookie := by simp [lastCookie]
    rw [List.concat_eq_append, hlast]
    exact L.nonzero e (by simp [h])

/-! ## Servers -/

/-- A server that hands out the listing in pages.  `verf` is the verifier of its last page.  The
first request has cookie 0 and verifier 0; any further one has to carry the cookie of an entry
and the verifier of the page before.  For other requests nothing is promised: the server may
reject them. -/
structure PagingServer {W : Type} (P : Protocol W) (fh : FileHandle) (L : Listing)
    (verf : W → ByteArr 8) : Prop where
  page : ∀ (w : W) (cookie : UInt64) (v : ByteArr 8), L.Cookie cookie →
    v = (if cookie = 0 then default else verf w) →
    ∃ res w' k, P.readdir fh cookie v Attr.standardMask w = (.ok res, w') ∧
      res.entries = (following L.entries cookie).take k ∧ 0 < k ∧
      (res.eof = true ↔ (following L.entries cookie).length ≤ k) ∧ verf w' = res.cookieverf

/-! ## The loops -/

/-- The loop over a page takes all of its entries. -/
lemma addPage_eq {es : List DirEntry}
    (h : ∀ e ∈ es, ∃ attrs, Attr.decode e.attrMask e.attrVals = .ok attrs) (out : List FileInfo)
    (cookie : UInt64) :
    FS.addPage es out cookie = .ok (out ++ es.filterMap shownAs, lastCookie es cookie) := by
  induction es generalizing out cookie with
  | nil => simp [FS.addPage, lastCookie]
  | cons e es ih =>
      have hrest := fun out => ih (fun e' he' => h e' (by simp [he'])) out e.cookie
      have hlast : lastCookie (e :: es) cookie = lastCookie es e.cookie :=
        lastCookie_append [e] es cookie
      obtain ⟨attrs, hdec⟩ := h e (by simp)
      by_cases hdot : FS.isDot e.name = true
      · simp only [FS.addPage, hdot, if_true, hrest, hlast]
        simp [shownAs, hdot]
      · simp only [FS.addPage, hdot, hdec, hrest, hlast]
        simp [shownAs, hdot, hdec]

section Paging

variable {W : Type} {P : Protocol W} {fh : FileHandle} {L : Listing} {verf : W → ByteArr 8}

/-- The loop over the pages, when `done` has been listed and `rest` is still to come. -/
lemma readDirLoop_eq (hP : PagingServer P fh L verf) {done rest : List DirEntry}
    (h : L.entries = done ++ rest) {pages : ℕ} (hpages : rest.length < pages) {v : ByteArr 8}
    {w : W} (hv : v = if lastCookie done 0 = 0 then default else verf w) :
    ∃ w', FS.readDirLoop P fh pages (done.filterMap shownAs) (lastCookie done 0) v w
      = some (.ok L.shown, w') := by
  induction pages generalizing done rest v w with
  | zero => omega
  | succ pages ih =>
      obtain ⟨res, w', k, hread, hes, hk, heof, hverf⟩ := hP.page w (lastCookie done 0) v
        (L.cookie_lastCookie h) hv
      rw [L.following_lastCookie h] at hes heof
      have hdec : ∀ e ∈ res.entries, ∃ attrs, Attr.decode e.attrMask e.attrVals = .ok attrs := by
        intro e he
        refine L.decodable e ?_
        rw [hes] at he
        rw [h]
        exact List.mem_append_right _ (List.mem_of_mem_take he)
      have hadd := addPage_eq hdec (done.filterMap shownAs) (lastCookie done 0)
      rw [← List.filterMap_append, ← lastCookie_append] at hadd
      by_cases hend : res.eof = true
      · -- the page reaches the end of the listing
        have hall : res.entries = rest := by rw [hes, List.take_of_length_le (heof.mp hend)]
        have hout : (done ++ res.entries).filterMap shownAs = L.shown := by
          rw [hall, ← h]
          rfl
        exact ⟨w', by simp only [FS.readDirLoop, hread, hadd, hend, if_true, hout]⟩
      · have hlt : k < rest.length := lt_of_not_ge (mt heof.mpr hend)
        have hsplit : L.entries = (done ++ res.entries) ++ rest.drop k := by
          rw [h, hes, List.append_assoc, List.take_append_drop]
        have hlen : res.entries.length = k := by
          rw [hes, List.length_take]
          omega
        have hne : lastCookie (done ++ res.entries) 0 ≠ 0 :=
          L.lastCookie_ne_zero hsplit (by simp [List.ne_nil_of_length_pos (hlen ▸ hk)])
        obtain ⟨w'', hloop⟩ := ih hsplit (by rw [List.length_drop]; omega)
          (show res.cookieverf = _ by rw [if_neg hne, hverf])
        refine ⟨w'', ?_⟩
        simp only [FS.readDirLoop, hread, hadd, hend, Bool.false_eq_true, if_false,
          if_neg (show ¬ res.entries.length = 0 by omega)]
        exact hloop

/-- Enough pages are as many as there are entries, and one. -/
lemma readDirAll_eq (hP : PagingServer P fh L verf) {pages : ℕ} (hpages : L.entries.length < pages)
    (w : W) : ∃ w', FS.readDirAll P pages fh w = some (.ok L.shown, w') :=
  readDirLoop_eq hP (List.nil_append _).symm hpages rfl

/-- **Paging loses and duplicates nothing.**  Whatever the pages of the server are, `readDirAll`
succeeds and lists every entry other than `.` and `..` once, in the order of the server, with its
name and attributes. -/
theorem readDirAll_lossless (hP : PagingServer P fh L verf) {pages : ℕ}
    (hpages : L.entries.length < pages) (w : W) :
    ∃ out w', FS.readDirAll P pages fh w = some (.ok out, w') ∧
      List.Forall₂ Shows (L.entries.filter fun e => !FS.isDot e.name) out := by
  obtain ⟨w', h⟩ := readDirAll_eq hP hpages w
  exact ⟨_, w', h, forall₂_shown L.decodable⟩

end Paging

/-- A server that sends `c + 1` entries at a time.  It counts its pages in the verifier, and
rejects a request with another verifier than that of its last page.  Its root is a directory. -/
def pager (L : Listing) (c : ℕ) : Protocol (ByteArr 8) where
  rootFH _ := none
  lookup _ _ w := (.error (.status nfs4errNoent), w)
  getAttr _ _ w := (.ok ([2], [0, 0, 0, 2]), w)
  read _ _ _ w := (.error (.status nfs4errInval), w)
  readdir _ cookie v _ w :=
    if v = (if cookie = 0 then default else w) then
      let verf := w.copyFrom [w.bytes.headD 0 + 1]
      let rest := following L.entries cookie
      (.ok { cookieverf := verf, entries := rest.take (c + 1), eof := rest.length ≤ c + 1 }, verf)
    else (.error (.status nfs4errInval), w)

lemma pager_pagingServer (L : Listing) (c : ℕ) (fh : FileHandle) :
    PagingServer (pager L c) fh L id where
  page _ _ _ _ hv := ⟨_, _, c + 1, if_pos hv, rfl, Nat.succ_pos c, by simp, rfl⟩

/-- An entry of a listing without attributes. -/
def plainEntry (cookie : UInt64) (name : String) : DirEntry := { cookie, name := ascii name }

lemma decodable_of_plain {es : List DirEntry}
    (h : ∀ e ∈ es, e.attrMask = [] ∧ e.attrVals = []) :
    ∀ e ∈ es, ∃ attrs, Attr.decode e.attrMask e.attrVals = .ok attrs := by
  intro e he
  obtain ⟨hmask, hvals⟩ := h e he
  rw [hmask, hvals]
  exact ⟨{}, rfl⟩

/-- A directory with two files; the dot entries are in between. -/
def twoFiles : Listing where
  entries := [plainEntry 3 ".", plainEntry 7 "b", plainEntry 4 "..", plainEntry 9 "a"]
  nonzero := by decide
  distinct := by decide
  decodable := decodable_of_plain (by decide)

/-- With one entry on a page. -/
theorem readDirAll_lossless_twoFiles :
    ∃ out w', FS.readDirAll (pager twoFiles 0) 5 none default = some (.ok out, w') ∧
      List.Forall₂ Shows (twoFiles.entries.filter fun e => !FS.isDot e.name) out :=
  readDirAll_lossless (pager_pagingServer twoFiles 0 none) (by decide) default

/-! ## The order of a listing -/

/-- The files of a directory are listed in increasing order of their names. -/
def Listing.InNameOrder (L : Listing) : Prop :=
  ((L.entries.filter fun e => !FS.isDot e.name).map DirEntry.name).Pairwise (· < ·)

/-- The server resolves the name to a directory, and hands out its listing in pages. -/
def HoldsDir {W : Type} (P : Protocol W) (name : Bytes) (w : W) (L : Listing) : Prop :=
  ∃ fh attrs w' verf, FS.resolve P name w = (.ok (fh, attrs), w') ∧ attrs.isDir = true ∧
    PagingServer P fh L verf

lemma Listing.map_name_shown (L : Listing) :
    L.shown.map FileInfo.name
      = (L.entries.filter fun e => !FS.isDot e.name).map DirEntry.name := by
  have h := forall₂_shown L.decodable
  refine List.forall₂_eq_eq_eq ▸ ?_
  rw [List.forall₂_map_left_iff, List.forall₂_map_right_iff]
  exact h.flip.imp fun _ _ hs => hs.1

section Order

variable {W W' : Type} {P : Protocol W} {P' : Protocol W'} {L L' : Listing} {name : Bytes} {w : W}
  {w' : W'} {pages : ℕ}

/-- `ReadDir` returns the listing as `readDirAll` does. -/
lemma readDir_eq (hname : validPath name = true) (h : HoldsDir P name w L)
    (hpages : L.entries.length < pages) :
    ∃ w₁, FS.readDir P pages name w = some (.ok L.shown, w₁) := by
  obtain ⟨fh, attrs, w₀, verf, hres, hdir, hP⟩ := h
  obtain ⟨w₁, hall⟩ := readDirAll_eq hP hpages w₀
  exact ⟨w₁, by simp [FS.readDir, hname, hres, hdir, hall]⟩

/-- **The order of `ReadDir` is that of the server.**  Two servers that hold the same files may
list them in any order and pages.  `ReadDir` returns the same slice for both, sorted by name,
exactly if both servers list the files in the order of their names. -/
theorem readDir_sorted_iff (hname : validPath name = true) (h : HoldsDir P name w L)
    (h' : HoldsDir P' name w' L') (hsame : L.shown.Perm L'.shown)
    (hpages : L.entries.length < pages) (hpages' : L'.entries.length < pages) :
    ∃ out out' w₁ w₁', FS.readDir P pages name w = some (.ok out, w₁) ∧
      FS.readDir P' pages name w' = some (.ok out', w₁') ∧
      (out = out' ∧ (out.map FileInfo.name).Pairwise (· < ·) ↔
        L.InNameOrder ∧ L'.InNameOrder) := by
  obtain ⟨w₁, hread⟩ := readDir_eq hname h hpages
  obtain ⟨w₁', hread'⟩ := readDir_eq hname h' hpages'
  refine ⟨_, _, w₁, w₁', hread, hread', ?_⟩
  unfold Listing.InNameOrder
  rw [← L.map_name_shown, ← L'.map_name_shown]
  constructor
  · rintro ⟨heq, hsorted⟩
    exact ⟨hsorted, heq ▸ hsorted⟩
  · rintro ⟨hsorted, hsorted'⟩
    refine ⟨?_, hsorted⟩
    -- there is only one way to sort the files by name
    rw [List.pairwise_map] at hsorted hsorted'
    refine hsame.eq_of_pairwise (fun a b _ _ hab hba => ?_) hsorted hsorted'
    exact absurd hba (List.lt_asymm hab)

end Order

/-- The same two files in the order of their names. -/
def twoFilesSorted : Listing where
  entries := [plainEntry 1 "a", plainEntry 2 "b"]
  nonzero := by decide
  distinct := by decide
  decodable := decodable_of_plain (by decide)

lemma holdsDir_pager (L : Listing) (c : ℕ) : HoldsDir (pager L c) (ascii ".") default L := by
  obtain ⟨fh, attrs, w', hres, hdir⟩ : ∃ fh attrs w',
      FS.resolve (pager L c) (ascii ".") default = (.ok (fh, attrs), w') ∧ attrs.isDir = true :=
    ⟨_, _, _, rfl, rfl⟩
  exact ⟨fh, attrs, w', id, hres, hdir, pager_pagingServer L c fh⟩

/-- Two servers with the same files in the order of their names, on pages of different size. -/
theorem readDir_sorted_twoFiles :
    ∃ out out' w₁ w₁', FS.readDir (pager twoFilesSorted 0) 5 (ascii ".") default
        = some (.ok out, w₁) ∧
      FS.readDir (pager twoFilesSorted 3) 5 (ascii ".") default = some (.ok out', w₁') ∧
      (out = out' ∧ (out.map FileInfo.name).Pairwise (· < ·) ↔
        twoFilesSorted.InNameOrder ∧ twoFilesSorted.InNameOrder) :=
  readDir_sorted_iff (by decide) (holdsDir_pager twoFilesSorted 0) (holdsDir_pager twoFilesSorted 3)
    (List.Perm.refl _) (by decide) (by decide)

/-- Two servers with the same files in different orders. -/
theorem readDir_not_sorted :
    HoldsDir (pager twoFiles 0) (ascii ".") default twoFiles ∧
      HoldsDir (pager twoFilesSorted 0) (ascii ".") default twoFilesSorted ∧
      twoFiles.shown.Perm twoFilesSorted.shown ∧
      (∃ w₁, FS.readDir (pager twoFiles 0) 5 (ascii ".") default
        = some (.ok [⟨ascii "b", {}⟩, ⟨ascii "a", {}⟩], w₁)) ∧
      (∃ w₁, FS.readDir (pager twoFilesSorted 0) 5 (ascii ".") default
        = some (.ok [⟨ascii "a", {}⟩, ⟨ascii "b", {}⟩], w₁)) ∧
      ¬ twoFiles.InNameOrder := by
  refine ⟨holdsDir_pager twoFiles 0, holdsDir_pager twoFilesSorted 0, .swap _ _ _, ⟨_, rfl⟩,
    ⟨_, rfl⟩, by unfold Listing.InNameOrder; decide⟩

end NfsClient.Client
