import AgentOrch.Construction.Watch

/-!
# Windows reconstruct the stream

A reader that starts at the beginning and passes on each cursor has been given, after any sequence of
appends and calls, the complete lines of the stream up to its cursor, each of them once.  A window
holds whole lines and advances the cursor past them; where it holds none, the cursor is at the end of
the snapshot, or the call fails by name and the cursor stays where it was.
-/

namespace AgentOrch

open Py Json

namespace Watch

/-! ## Framed lines -/

/-- A record a window may hold: one line of admissible length. -/
structure IsRecord (line : Bytes) : Prop where
  isLine : IsLine line
  admissible : line.length ≤ recordMaxBytes

/-- What is framed are records, up to the first line that is none. -/
lemma frameLines_spec (buf : Bytes) : ∃ rest, buf = (frameLines buf).frames.flatten ++ rest ∧
    (∀ line ∈ (frameLines buf).frames, IsRecord line) ∧
      ((frameLines buf).oversized = false → newline ∉ rest) := by
  induction hn : buf.length using Nat.strongRecOn generalizing buf with
  | ind n ih =>
      cases hcut : cutLine buf with
      | none =>
          rw [frameLines_of_none hcut]
          exact ⟨buf, rfl, by simp, fun _ => cutLine_eq_none hcut⟩
      | some p =>
          obtain ⟨line, after⟩ := p
          obtain ⟨hbuf, hline⟩ := cutLine_eq_some hcut
          have hpos := hline.length_pos
          have hlength : buf.length = line.length + after.length := by
            rw [hbuf, List.length_append]
          rw [frameLines_of_some hcut]
          split
          next hlong => exact ⟨buf, rfl, by simp, fun h => by cases h⟩
          next hshort =>
            obtain ⟨rest, hafter, hrecords, hrest⟩ := ih after.length (by omega) after rfl
            refine ⟨rest, ?_, ?_, hrest⟩
            · show buf = (line :: (frameLines after).frames).flatten ++ rest
              rw [List.flatten_cons, List.append_assoc, ← hafter, hbuf]
            · intro line' hline'
              rcases List.mem_cons.mp hline' with rfl | hmem
              · exact ⟨hline, not_lt.mp hshort⟩
              · exact hrecords line' hmem

lemma IsRecord.length_pos {line : Bytes} (h : IsRecord line) : 0 < line.length := h.isLine.length_pos

lemma flatten_length_pos {lines : List Bytes} (hne : lines ≠ []) (h : ∀ line ∈ lines, IsRecord line) :
    0 < lines.flatten.length := by
  obtain ⟨line, rest, rfl⟩ := List.exists_cons_of_ne_nil hne
  have hpos := (h line List.mem_cons_self).length_pos
  simp only [List.flatten_cons, List.length_append]
  omega

/-- Lines end in a newline. -/
lemma flatten_getLast? {lines : List Bytes} (hne : lines ≠ [])
    (h : ∀ line ∈ lines, IsRecord line) : lines.flatten.getLast? = some newline := by
  induction lines using List.reverseRecOn with
  | nil => exact absurd rfl hne
  | append_singleton front last =>
      obtain ⟨body, hbody, -⟩ := (h last (by simp)).isLine
      rw [List.flatten_append, List.flatten_singleton, hbody, ← List.append_assoc,
        List.getLast?_concat]

/-! ## Reading -/

/-- A read of a stream that is only appended to shows a piece of it. -/
lemma pread_opened (file : Bytes) (during : List (Bytes × ℕ)) (call count offset : ℕ)
    (h : offset + count ≤ file.length) :
    (opened file during).pread call count offset <+: (file.drop offset).take count ∧
      (0 < count → (opened file during).pread call count offset ≠ []) := by
  have hpiece : ∀ most, most ≤ count →
      ((file ++ appended (during.take (call + 1))).drop offset).take most =
        (file.drop offset).take most := by
    intro most hmost
    rw [List.drop_append_of_le_length (by omega), List.take_append_of_le_length]
    rw [List.length_drop]
    omega
  have hextends : ∀ most, most ≤ count →
      (file.drop offset).take most <+: (file.drop offset).take count := by
    intro most hmost
    have htake := List.take_prefix most ((file.drop offset).take count)
    rwa [List.take_take, min_eq_left hmost] at htake
  have hsome : ∀ most, 0 < most → 0 < count → (file.drop offset).take most ≠ [] := by
    intro most hmost hcount hnil
    have hlength := congrArg List.length hnil
    rw [List.length_take, List.length_drop, List.length_nil] at hlength
    omega
  show ((file ++ appended (during.take (call + 1))).drop offset).take _ <+: _ ∧
    (0 < count → ((file ++ appended (during.take (call + 1))).drop offset).take _ ≠ [])
  cases during[call]? with
  | none =>
      rw [hpiece count le_rfl]
      exact ⟨hextends count le_rfl, fun hcount => hsome count hcount hcount⟩
  | some p =>
      have hle : min count (p.2 + 1) ≤ count := min_le_left _ _
      dsimp only
      rw [hpiece _ hle]
      exact ⟨hextends _ hle, fun hcount => hsome _ (by omega) hcount⟩

/-- The loop reads what lies below the snapshot. -/
lemma gather_opened (file : Bytes) (during : List (Bytes × ℕ)) {toRead cursor call : ℕ} {buf : Bytes}
    (hsize : cursor + toRead ≤ file.length) (hbuf : buf <+: (file.drop cursor).take toRead) :
    gather (opened file during) toRead cursor call buf = some ((file.drop cursor).take toRead) := by
  have htotal : ((file.drop cursor).take toRead).length = toRead := by
    rw [List.length_take, List.length_drop]
    omega
  induction hn : toRead - buf.length using Nat.strongRecOn generalizing buf call with
  | ind n ih =>
      rw [gather]
      split
      next hdone =>
        rw [hbuf.eq_of_length_le (by omega)]
      next hmore =>
        obtain ⟨hread, hne⟩ := pread_opened file during call (toRead - buf.length)
          (cursor + buf.length) (by omega)
        split
        next hnil => exact absurd hnil (hne (by omega))
        next b chunk hchunk =>
          rw [hchunk] at hread
          refine ih (toRead - (buf ++ b :: chunk).length) ?_ ?_ rfl
          · rw [List.length_append, List.length_cons]
            omega
          · obtain ⟨rest, hrest⟩ := hbuf
            obtain ⟨rest', hrest'⟩ := hread
            refine ⟨rest', ?_⟩
            rw [List.append_assoc, hrest', ← hrest]
            congr 1
            rw [← List.drop_drop, ← List.drop_take, ← hrest, List.drop_left]

/-! ## What a window comes to -/

/-- A cursor a reader may hold: it is no larger than the stream, and stands behind a newline. -/
structure IsBoundary (file : Bytes) (cursor : ℕ) : Prop where
  le : cursor ≤ file.length
  newline : 0 < cursor → file[cursor - 1]? = some newline

/-- The probe finds the newline before a boundary. -/
lemma probe_opened {file : Bytes} {cursor : ℕ} (h : IsBoundary file cursor)
    (during : List (Bytes × ℕ)) (hpos : 0 < cursor) :
    (opened file during).pread 0 1 (cursor - 1) = [newline] := by
  have hle := h.le
  obtain ⟨hread, hne⟩ := pread_opened file during 0 1 (cursor - 1) (by omega)
  have hbyte : (file.drop (cursor - 1)).take 1 = [newline] := by
    rw [List.take_one, List.head?_drop, h.newline hpos]
    rfl
  rw [hbyte] at hread
  exact hread.eq_of_length_le (List.length_pos_iff.mpr (hne one_pos))

/-- From a boundary, a call judges the bytes below the snapshot and nothing else. -/
lemma readWindow_opened (livePath : Text) {file : Bytes} {cursor windowBytes : ℕ}
    (h : IsBoundary file cursor) (hwindow : minBytes ≤ windowBytes) (during : List (Bytes × ℕ)) :
    readWindow livePath (some (opened file during)) cursor windowBytes =
      judge cursor (min windowBytes (file.length - cursor)) file.length
        (frameLines ((file.drop cursor).take (min windowBytes (file.length - cursor)))) := by
  have hle := h.le
  have hsize : (opened file during).size = file.length := rfl
  have hread : gather (opened file during) (min windowBytes (file.length - cursor)) cursor 1 [] =
      some ((file.drop cursor).take (min windowBytes (file.length - cursor))) :=
    gather_opened file during (by omega) (List.nil_prefix)
  rw [readWindow, if_neg (by omega)]
  simp only [hsize]
  rw [if_neg (by omega), if_neg, hread]
  rintro ⟨hpos, hprobe⟩
  exact hprobe (probe_opened h during hpos)

/-- The state that no row covers is not reached. -/
lemma judge_ne_assertion {cursor windowBytes size : ℕ} (hwindow : minBytes ≤ windowBytes)
    (hcursor : cursor ≤ size) (buf : Bytes) :
    judge cursor (min windowBytes (size - cursor)) size (frameLines buf) ≠ .error .assertion := by
  obtain ⟨rest, -, hrecords, -⟩ := frameLines_spec buf
  have hmin : minBytes = 2 * recordMaxBytes := rfl
  have hrecord : recordMaxBytes = 8192 := rfl
  unfold judge
  dsimp only
  split
  next hframes =>
    have hne : (frameLines buf).frames ≠ [] := by simpa using hframes
    have hpos := flatten_length_pos hne hrecords
    rw [if_pos (by omega)]
    simp
  next hframes =>
    have hnone : (frameLines buf).frames = [] := by simpa using hframes
    rw [hnone]
    simp only [List.flatten_nil, List.length_nil, Nat.sub_zero, decide_eq_true_eq]
    split
    · simp
    · split
      · simp
      · split
        · simp
        · rw [if_pos (by omega)]
          simp

/-- The assertion never fires, whatever the system calls return. -/
lemma readWindow_ne_assertion (livePath : Text) (stream : Option Descriptor)
    (cursor windowBytes : ℕ) :
    readWindow livePath stream cursor windowBytes ≠ .error .assertion := by
  unfold readWindow
  split
  · simp
  next hwindow =>
    split
    · simp
    · dsimp only
      split
      · simp
      · split
        · simp
        · split
          · simp
          · exact judge_ne_assertion (by omega) (by omega) _

/-- What a successful call from a boundary returns. -/
structure Returned (file : Bytes) (cursor windowBytes : ℕ) (w : Window) : Prop where
  lines : ∃ lines : List Bytes, w.records = lines.map Base64.encode ∧
    (∀ line ∈ lines, IsRecord line) ∧
    file.take w.nextOffset = file.take cursor ++ lines.flatten
  le : w.nextOffset ≤ file.length
  advances : cursor < w.nextOffset ∨ w.nextOffset = cursor ∧ cursor = file.length
  eof : w.eof = true → file.length ≤ cursor + windowBytes
  snapshot : w.snapshotBytes = file.length

lemma take_of_framed {file lines rest : Bytes} {cursor toRead : ℕ}
    (h : (file.drop cursor).take toRead = lines ++ rest) :
    file.take (cursor + lines.length) = file.take cursor ++ lines := by
  have hextends : lines <+: file.drop cursor :=
    (List.prefix_append lines rest).trans (h ▸ List.take_prefix toRead (file.drop cursor))
  rw [List.take_add, ← List.prefix_iff_eq_take.mp hextends]

lemma judge_eq_ok {file : Bytes} {cursor windowBytes : ℕ} {w : Window}
    (hwindow : minBytes ≤ windowBytes) (hcursor : cursor ≤ file.length)
    (h : judge cursor (min windowBytes (file.length - cursor)) file.length
      (frameLines ((file.drop cursor).take (min windowBytes (file.length - cursor)))) = .ok w) :
    Returned file cursor windowBytes w := by
  have hmin : 0 < minBytes := by decide
  set toRead := min windowBytes (file.length - cursor) with htoRead
  set buf := (file.drop cursor).take toRead with hbuf
  have hlength : buf.length = toRead := by
    rw [hbuf, List.length_take, List.length_drop]
    omega
  obtain ⟨rest, hframed, hrecords, -⟩ := frameLines_spec buf
  have hsum := congrArg List.length hframed
  rw [List.length_append, hlength] at hsum
  unfold judge at h
  dsimp only at h
  split at h
  next hframes =>
    split at h
    next hadvance =>
      obtain rfl := Except.ok.inj h
      refine ⟨⟨_, rfl, hrecords, take_of_framed (hbuf.symm.trans hframed)⟩, ?_, .inl hadvance, ?_, rfl⟩
      · show cursor + _ ≤ _
        omega
      · intro heof
        replace heof := of_decide_eq_true heof
        omega
    · cases h
  next hframes =>
    have hnone : (frameLines buf).frames = [] := by simpa using hframes
    split at h
    · cases h
    · split at h
      next hremainder =>
        obtain rfl := Except.ok.inj h
        rw [hnone] at hremainder
        simp only [List.flatten_nil, List.length_nil, Nat.sub_zero] at hremainder
        refine ⟨⟨[], rfl, by simp, by simp⟩, hcursor, .inr ⟨rfl, by omega⟩, fun _ => by omega, rfl⟩
      · split at h
        · cases h
        · split at h <;> cases h

lemma judge_eq_error {cursor toRead size : ℕ} {framing : Framing} {e : WatchError}
    (h : judge cursor toRead size framing = .error (.named e)) :
    e.code = .oversizedRecord ∨ e.code = .unterminatedTail := by
  unfold judge at h
  dsimp only at h
  split at h
  · split at h <;> cases h
  · split at h
    · cases h
      exact .inl rfl
    · split at h
      · cases h
      · split at h
        · cases h
          exact .inl rfl
        · split at h
          · cases h
            exact .inr rfl
          · cases h

lemma judge_ne_valueError {cursor toRead size : ℕ} {framing : Framing} :
    judge cursor toRead size framing ≠ .error .valueError := by
  unfold judge
  dsimp only
  split
  · split <;> simp
  · split
    · simp
    · split
      · simp
      · split
        · simp
        · split <;> simp

/-! ## Sessions -/

/-- The records a reader was given are the lines of the stream up to its cursor. -/
structure Reconstructs (s : Session) : Prop where
  le : s.cursor ≤ s.file.length
  lines : ∃ lines : List Bytes, s.records.map Base64.decode = lines.map some ∧
    lines.flatten = s.file.take s.cursor ∧ ∀ line ∈ lines, IsRecord line

lemma Reconstructs.isBoundary {s : Session} (h : Reconstructs s) : IsBoundary s.file s.cursor := by
  refine ⟨h.le, fun hpos => ?_⟩
  have hle := h.le
  obtain ⟨lines, -, hflatten, hrecords⟩ := h.lines
  have hlength : (s.file.take s.cursor).length = s.cursor := by
    rw [List.length_take]
    omega
  have hne : lines ≠ [] := by
    rintro rfl
    rw [← hflatten] at hlength
    simp only [List.flatten_nil, List.length_nil] at hlength
    omega
  have hlast := flatten_getLast? hne hrecords
  rw [hflatten, List.getLast?_eq_getElem?, hlength, List.getElem?_take_of_lt (by omega)] at hlast
  exact hlast

/-- Appending to the stream leaves what was read. -/
lemma Reconstructs.append {s : Session} (h : Reconstructs s) (bytes : Bytes) :
    Reconstructs { s with file := s.file ++ bytes } := by
  have hle := h.le
  obtain ⟨lines, hdecoded, hflatten, hrecords⟩ := h.lines
  refine ⟨?_, lines, hdecoded, ?_, hrecords⟩
  · show s.cursor ≤ (s.file ++ bytes).length
    rw [List.length_append]
    omega
  · show lines.flatten = (s.file ++ bytes).take s.cursor
    rw [List.take_append_of_le_length hle, hflatten]

/-- So does what a window returns. -/
lemma Reconstructs.returned {s : Session} (h : Reconstructs s) {windowBytes : ℕ} {w : Window}
    (hw : Returned s.file s.cursor windowBytes w) :
    Reconstructs ⟨s.file, w.nextOffset, s.records ++ w.records⟩ := by
  obtain ⟨lines, hdecoded, hflatten, hrecords⟩ := h.lines
  obtain ⟨lines', hencoded, hrecords', htake⟩ := hw.lines
  have hdecoded' : w.records.map Base64.decode = lines'.map some := by
    rw [hencoded, List.map_map]
    exact List.map_congr_left fun line _ => Base64.decode_encode line
  refine ⟨hw.le, lines ++ lines', ?_, ?_, ?_⟩
  · show (s.records ++ w.records).map Base64.decode = _
    rw [List.map_append, List.map_append, hdecoded, hdecoded']
  · show (lines ++ lines').flatten = s.file.take w.nextOffset
    rw [List.flatten_append, hflatten, htake]
  · intro line hline
    rcases List.mem_append.mp hline with hmem | hmem
    · exact hrecords line hmem
    · exact hrecords' line hmem

lemma returned_of_ok {livePath : Text} {s : Session} (h : Reconstructs s) {windowBytes : ℕ}
    {during : List (Bytes × ℕ)} {w : Window}
    (hw : readWindow livePath (some (opened s.file during)) s.cursor windowBytes = .ok w) :
    Returned s.file s.cursor windowBytes w := by
  have hwindow : minBytes ≤ windowBytes := by
    by_contra hsmall
    rw [readWindow, if_pos (by omega)] at hw
    cases hw
  rw [readWindow_opened livePath h.isBoundary hwindow during] at hw
  exact judge_eq_ok hwindow h.le hw

lemma Reconstructs.step {s : Session} (h : Reconstructs s) (livePath : Text) (event : Event) :
    Reconstructs (s.step livePath event) := by
  cases event with
  | append bytes => exact h.append bytes
  | call windowBytes during =>
      rw [Session.step]
      split
      next w hw => exact (h.returned (returned_of_ok h hw)).append (appended during)
      next => exact h.append (appended during)

lemma reconstructs_run (livePath : Text) (file : Bytes) (events : List Event) :
    Reconstructs (run livePath file events) := by
  induction events using List.reverseRecOn with
  | nil => exact ⟨Nat.zero_le _, [], rfl, rfl, by simp⟩
  | append_singleton events event ih =>
      rw [run, List.foldl_append]
      exact ih.step livePath event

/-- What a call of a reader comes to: a window of whole lines that advances the cursor, or stands at
the end of the snapshot; or a named failure, about the bytes at the cursor, that moves nothing. -/
structure SoundCall (livePath : Text) (s : Session) (windowBytes : ℕ) (during : List (Bytes × ℕ)) :
    Prop where
  returned : ∀ w, readWindow livePath (some (opened s.file during)) s.cursor windowBytes = .ok w →
    Returned s.file s.cursor windowBytes w
  failed : ∀ e, readWindow livePath (some (opened s.file during)) s.cursor windowBytes = .error e →
    (∃ error, e = .named error ∧
      (error.code = .oversizedRecord ∨ error.code = .unterminatedTail)) ∧
    (s.step livePath (.call windowBytes during)).cursor = s.cursor ∧
    (s.step livePath (.call windowBytes during)).records = s.records

/-- Windows reconstruct the stream: after any sequence of appends and calls the reader holds the lines
of the stream up to its cursor, every call is sound, the cursor can be written down and read back, and
the assertion never fires. -/
structure ReconstructsStream (rt : Runtime) (livePath : Text) (s : Session) : Prop where
  reconstructs : Reconstructs s
  sound : ∀ windowBytes during, minBytes ≤ windowBytes → SoundCall livePath s windowBytes during
  cursor : ∀ runToken, runToken ≠ [] → (0x3A : CodePoint) ∉ runToken →
    (natText s.cursor).length ≤ maxIntDigits →
      parseCursor rt (formatCursor runToken s.cursor) = .ok (runToken, s.cursor)
  reached : ∀ stream cursorOffset windowBytes,
    readWindow livePath stream cursorOffset windowBytes ≠ .error .assertion

end Watch

end AgentOrch
