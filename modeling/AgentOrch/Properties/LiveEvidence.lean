import AgentOrch.Construction.LiveStream

/-!
# What the live file says

The file keeps its bound and its numbering, and the last slot of the queue is free for the terminal
marker: the lifecycle thread admits records up to one short of the capacity, and the writer thread
spends the reserve on `stage_end` only.

While nothing is flagged, the fragments on their way to the file are what the decoder gave out.  The
flag says nothing of what the decoder still holds, of a chunk in hand, or of a piece that was not
offered yet: a run that leaves the loop there without `eof` ends with a `stage_end` that says the
evidence is complete.
-/

namespace AgentOrch

open Py Json

namespace LiveStream

variable {rt : Runtime} {D : IncrementalDecoder} {s s' : State D}

/-! ## The records -/

/-- `seq` -/
def Entry.seq : Entry → ℕ
  | .optional seq _ | .stageEnd seq _ _ => seq

/-- `event` is `stage_end`. -/
def Entry.isEnd : Entry → Bool
  | .optional _ _ => false
  | .stageEnd _ _ _ => true

/-- `live_complete` is true. -/
def Entry.isComplete : Entry → Bool
  | .optional _ _ => false
  | .stageEnd _ _ liveComplete => liveComplete

/-- The text of an `output_fragment`. -/
def Piece.fragment : Piece → Text
  | .text t => t
  | _ => []

def Entry.fragment : Entry → Text
  | .optional _ draft => draft.piece.fragment
  | .stageEnd _ _ _ => []

def Item.fragment : Item → Text
  | .record draft => draft.piece.fragment
  | .terminal => []

/-- The text the writer has in hand. -/
def Writer.fragment : Writer → Text
  | .writing draft => draft.piece.fragment
  | _ => []

/-- The bytes of a record in the file. -/
def Entry.size (rt : Runtime) (e : Entry) : ℕ := ((e.line rt).getD []).length

/-- The bytes of the file. -/
def State.fileSize (rt : Runtime) (s : State D) : ℕ :=
  (s.entries.map (Entry.size rt)).sum + s.torn

/-- The concatenated fragments of the file. -/
def State.text (s : State D) : Text := s.entries.flatMap Entry.fragment

/-- The fragments in the file, in the hands of the writer and in the queue. -/
def State.delivered (s : State D) : Text :=
  s.text ++ s.writer.fragment ++ s.queue.flatMap Item.fragment

/-- What the decoder would give out at the end. -/
def State.held (s : State D) : Text := s.decoder.elim [] D.flush

/-- What the lifecycle thread did not offer. -/
def State.left (s : State D) : Text :=
  match s.work with
  | .opened | .ended => []
  | .running => s.held
  | .holding chunk =>
    s.decoder.elim [] fun d => (D.decode d chunk).1 ++ D.flush (D.decode d chunk).2
  | .offering left last => left.flatMap Piece.fragment ++ if last then [] else s.held
  | .admitted draft left last =>
    draft.piece.fragment ++ left.flatMap Piece.fragment ++ if last then [] else s.held

lemma isEnd_of_isComplete {e : Entry} (h : e.isComplete = true) : e.isEnd = true := by
  cases e with
  | optional seq draft => cases h
  | stageEnd seq terminal liveComplete => rfl

lemma slices_flatten {n : ℕ} (hn : 0 < n) :
    ∀ (fuel : ℕ) (t : Text), t.length ≤ fuel → (slices n fuel t).flatten = t
  | 0, t, h => by
      have hnil : t = [] := List.length_eq_zero_iff.mp (by omega)
      subst hnil
      simp [slices]
  | fuel + 1, [], _ => by simp [slices]
  | fuel + 1, c :: t, h => by
      have hdrop : ((c :: t).drop n).length ≤ fuel := by
        simp only [List.length_drop, List.length_cons] at h ⊢
        omega
      rw [slices, List.flatten_cons, slices_flatten hn fuel _ hdrop, List.take_append_drop]

/-- The slices of a text, put together, are the text. -/
lemma fragment_pieces (t : Text) : (pieces t).flatMap Piece.fragment = t := by
  have hflatten := slices_flatten (n := fragmentMaxChars) (by decide) t.length t le_rfl
  unfold pieces
  rw [List.flatMap_map]
  simpa [Piece.fragment, List.flatMap_id] using hflatten

/-! ## What a step changes -/

/-- The lifecycle thread does not touch the file. -/
structure SameFile (s s' : State D) : Prop where
  entries : s'.entries = s.entries
  torn : s'.torn = s.torn
  written : s'.written = s.written
  seq : s'.seq = s.seq
  handle : s'.handle = s.handle
  writer : s'.writer = s.writer

/-- The writer thread does not touch what the lifecycle thread stands on. -/
structure SameRun (s s' : State D) : Prop where
  capacity : s'.capacity = s.capacity
  threaded : s'.threaded = s.threaded
  decoder : s'.decoder = s.decoder
  received : s'.received = s.received
  work : s'.work = s.work
  stage : s'.stage = s.stage

lemma LifecycleStep.sameFile (h : LifecycleStep s s') : SameFile s s' := by
  cases h <;> exact ⟨rfl, rfl, rfl, rfl, rfl, rfl⟩

lemma WriterStep.sameRun (h : WriterStep rt s s') : SameRun s s' := by
  cases h <;> exact ⟨rfl, rfl, rfl, rfl, rfl, rfl⟩

/-- A flag is never taken back. -/
lemma Step.incomplete (h : Step rt s s') (hs' : s'.incomplete = false) : s.incomplete = false := by
  cases h with
  | lifecycle h => cases h <;> simp_all
  | writer h => cases h <;> simp_all [State.afterFailure]

/-! ## The file -/

/-- A record is appended, its line reaches the file in part, or the file stays as it is. -/
inductive FileStep (rt : Runtime) (s s' : State D) : Prop
  | same (hentries : s'.entries = s.entries) (htorn : s'.torn = s.torn)
      (hwritten : s'.written = s.written) (hseq : s'.seq = s.seq)
      (hhandle : s'.handle = true → s.handle = true ∨ s.writer = .creating)
  | appended (e : Entry) (line : Bytes) (hhandle : s.handle = true)
      (hline : e.line rt = some line) (hnumber : e.seq = s.seq)
      (hfits : s.written + line.length ≤ maxBytes) (hentries : s'.entries = s.entries ++ [e])
      (htorn : s'.torn = s.torn) (hwritten : s'.written = s.written + line.length)
      (hseq : s'.seq = s.seq + 1) (hend : e.isEnd = true → s'.writer = .done)
  | failed (e : Entry) (line : Bytes) (reached : ℕ) (hhandle : s.handle = true)
      (hline : e.line rt = some line) (hnumber : e.seq = s.seq)
      (hfits : s.written + line.length ≤ maxBytes) (hreached : reached ≤ line.length)
      (hclosed : s'.handle = false)
      (hentries : s'.entries = if reached = line.length then s.entries ++ [e] else s.entries)
      (htorn : s'.torn = if reached = line.length then 0 else reached)
      (hend : e.isEnd = true → s'.writer = .done)

lemma WriterStep.fileStep (h : WriterStep rt s s') : FileStep rt s s' := by
  cases h with
  | created hwriter => exact .same rfl rfl rfl rfl fun _ => .inr hwriter
  | notCreated hwriter => exact .same rfl rfl rfl rfl fun h => nomatch h
  | take | takeTerminal | skipped | decided => exact .same rfl rfl rfl rfl .inl
  | wrote draft line hwriter hhandle hline hfits =>
      have hfits' : s.written + line.length ≤ maxBytes := by omega
      exact .appended _ line hhandle hline rfl hfits' rfl rfl rfl rfl fun h => nomatch h
  | writeFailed draft line reached hwriter hhandle hline hfits hreached =>
      have hfits' : s.written + line.length ≤ maxBytes := by omega
      exact .failed _ line reached hhandle hline rfl hfits' hreached rfl rfl rfl fun h => nomatch h
  | endSkipped => exact .same rfl rfl rfl rfl fun h => nomatch h
  | endWrote terminal liveComplete line hwriter hhandle hline hfits =>
      exact .appended _ line hhandle hline rfl hfits rfl rfl rfl rfl fun _ => rfl
  | endFailed terminal liveComplete line reached hwriter hhandle hline hfits hreached =>
      exact .failed _ line reached hhandle hline rfl hfits hreached rfl rfl rfl fun _ => rfl
  | crashed => exact .same rfl rfl rfl rfl fun h => nomatch h

/-- The writer creates the file first, and does nothing after its end. -/
lemma WriterStep.phase (h : WriterStep rt s s') :
    s.writer ≠ .done ∧ s'.writer ≠ .creating := by
  cases h <;> simp_all

/-- The bytes of the file are counted while it is open, and its records are numbered from zero. -/
structure Kept (rt : Runtime) (s : State D) : Prop where
  fresh : s.writer = .creating → s.written = 0 ∧ s.seq = 0 ∧ s.entries = [] ∧ s.torn = 0
  counted : s.handle = true → s.torn = 0 ∧ (s.entries.map (Entry.size rt)).sum = s.written ∧
    s.seq = s.entries.length
  bounded : s.fileSize rt ≤ maxBytes
  numbered : s.entries.map Entry.seq = List.range s.entries.length
  single : ∀ e ∈ s.entries.dropLast, e.isEnd = false
  ended : ∀ e ∈ s.entries, e.isEnd = true → s.writer = .done

lemma Opened.kept (h : Opened s) : Kept rt s := by
  have hentries := h.entries
  constructor
  · intro _
    exact ⟨h.written, h.seq, hentries, h.torn⟩
  · intro hhandle
    rw [h.handle] at hhandle
    cases hhandle
  all_goals simp [State.fileSize, hentries, h.torn]

lemma SameFile.kept (h : SameFile s s') (hkept : Kept rt s) : Kept rt s' := by
  obtain ⟨hfresh, hcounted, hbounded, hnumbered, hsingle, hended⟩ := hkept
  constructor
  · rwa [h.writer, h.written, h.seq, h.entries, h.torn]
  · rwa [h.handle, h.torn, h.entries, h.written, h.seq]
  · rwa [State.fileSize, h.entries, h.torn]
  · rwa [h.entries]
  · rwa [h.entries]
  · rwa [h.entries, h.writer]

/-- While the file is open no record of it is a `stage_end`. -/
lemma Kept.isEnd_eq_false (hkept : Kept rt s) (hopen : s.writer ≠ .done) {e : Entry}
    (he : e ∈ s.entries) : e.isEnd = false := by
  by_contra hend
  exact hopen (hkept.ended e he (by simpa using hend))

section Appending

variable {e : Entry} {line : Bytes}

/-- A line that reaches the open file whole, and is the last one if it is a `stage_end`. -/
lemma Kept.concat (hkept : Kept rt s) (hopen : s.writer ≠ .done) (hhandle : s.handle = true)
    (hline : e.line rt = some line) (hnumber : e.seq = s.seq)
    (hfits : s.written + line.length ≤ maxBytes) (hend : e.isEnd = true → s'.writer = .done)
    (hcreating : s'.writer ≠ .creating) (hentries : s'.entries = s.entries ++ [e])
    (htorn : s'.torn = 0)
    (hcounted : s'.handle = true → s'.written = s.written + line.length ∧ s'.seq = s.seq + 1) :
    Kept rt s' := by
  have hends : ∀ e' ∈ s.entries, e'.isEnd = false := fun e' => hkept.isEnd_eq_false hopen
  obtain ⟨-, hsum, hlength⟩ := hkept.counted hhandle
  have hsum' : (s'.entries.map (Entry.size rt)).sum = s.written + line.length := by
    rw [hentries]
    simp [hsum, Entry.size, hline]
  constructor
  · intro h
    exact absurd h hcreating
  · intro h
    obtain ⟨hwritten, hseq⟩ := hcounted h
    rw [hsum', hwritten, hseq, hentries]
    simp [htorn, hlength]
  · rw [State.fileSize, hsum', htorn]
    omega
  · rw [hentries, List.map_append, hkept.numbered, List.length_append, List.length_singleton,
      List.range_succ]
    simp [hnumber, hlength]
  · rw [hentries, List.dropLast_concat]
    exact hends
  · intro e' he' hend'
    rw [hentries, List.mem_append, List.mem_singleton] at he'
    rcases he' with he' | rfl
    · rw [hends e' he'] at hend'
      cases hend'
    · exact hend hend'

end Appending

/-- The records stay, and no more bytes are in the file than its bound. -/
lemma Kept.of_entries (hkept : Kept rt s) (hopen : s.writer ≠ .done)
    (hcreating : s'.writer ≠ .creating) (hentries : s'.entries = s.entries)
    (hbounded : s'.fileSize rt ≤ maxBytes)
    (hcounted : s'.handle = true → s'.torn = 0 ∧
      (s'.entries.map (Entry.size rt)).sum = s'.written ∧ s'.seq = s'.entries.length) :
    Kept rt s' := by
  constructor
  · intro h
    exact absurd h hcreating
  · exact hcounted
  · exact hbounded
  · rw [hentries]
    exact hkept.numbered
  · rw [hentries]
    exact hkept.single
  · intro e he hend
    rw [hentries] at he
    rw [hkept.isEnd_eq_false hopen he] at hend
    cases hend

lemma FileStep.kept (h : FileStep rt s s') (hopen : s.writer ≠ .done)
    (hcreating : s'.writer ≠ .creating) (hkept : Kept rt s) : Kept rt s' := by
  cases h with
  | same hentries htorn hwritten hseq hhandle =>
      apply hkept.of_entries hopen hcreating hentries
      · rw [State.fileSize, hentries, htorn]
        exact hkept.bounded
      · intro h
        rw [htorn, hentries, hwritten, hseq]
        rcases hhandle h with h | h
        · exact hkept.counted h
        · obtain ⟨hw, hs, he, ht⟩ := hkept.fresh h
          simp [hw, hs, he, ht]
  | appended e line hhandle hline hnumber hfits hentries htorn hwritten hseq hend =>
      have hclean : s'.torn = 0 := htorn.trans (hkept.counted hhandle).1
      exact hkept.concat hopen hhandle hline hnumber hfits hend hcreating hentries hclean
        fun _ => ⟨hwritten, hseq⟩
  | failed e line reached hhandle hline hnumber hfits hreached hclosed hentries htorn hend =>
      have hshut : ¬ s'.handle = true := by simp [hclosed]
      by_cases hwhole : reached = line.length
      · rw [if_pos hwhole] at hentries htorn
        exact hkept.concat hopen hhandle hline hnumber hfits hend hcreating hentries htorn
          fun h => absurd h hshut
      · rw [if_neg hwhole] at hentries htorn
        obtain ⟨-, hsum, -⟩ := hkept.counted hhandle
        apply hkept.of_entries hopen hcreating hentries
        · rw [State.fileSize, hentries, htorn, hsum]
          omega
        · exact fun h => absurd h hshut

lemma Step.kept (h : Step rt s s') (hkept : Kept rt s) : Kept rt s' := by
  cases h with
  | lifecycle h => exact h.sameFile.kept hkept
  | writer h => exact h.fileStep.kept h.phase.1 h.phase.2 hkept

lemma Reached.kept (h : Reached rt s) : Kept rt s :=
  h.invariant (fun _ hopened => hopened.kept) fun _ _ hkept hstep => hstep.kept hkept

/-! ## The queue -/

/-- The queue has a slot left for the terminal marker until `close` puts it there, and the writer
ends the file after that. -/
structure Roomy (s : State D) : Prop where
  unthreaded : s.threaded = false → s.writer = .absent ∧
    (s.stage ≠ .closed → s.queue = [] ∧ 0 < s.capacity)
  threaded : s.threaded = true → s.capacity = queueMaxRecords + 1
  depth : s.stage ≠ .closed → s.queue.length ≤ queueMaxRecords
  unmarked : s.stage ≠ .closed → Item.terminal ∉ s.queue
  admitted : ∀ draft left last, s.stage = .working → s.work = .admitted draft left last →
    s.threaded = true ∧ s.queue.length < queueMaxRecords
  finalizing : s.writer = .finalizing → s.stage = .closed ∧ (s.incomplete = false → s.queue = [])

lemma Opened.roomy (h : Opened s) : Roomy s := by
  have hqueue := h.queue
  have hwork := h.work
  have hthreads := h.threads
  constructor
  · intro hthreaded
    rcases hthreads with ⟨h, -⟩ | ⟨-, -, hcapacity, hwriter⟩
    · rw [h] at hthreaded
      cases hthreaded
    · exact ⟨hwriter, fun _ => ⟨hqueue, hcapacity⟩⟩
  · intro hthreaded
    rcases hthreads with ⟨-, -, hcapacity, -⟩ | ⟨h, -⟩
    · exact hcapacity
    · rw [h] at hthreaded
      cases hthreaded
  · simp [hqueue]
  · simp [hqueue]
  · intro draft left last _ h
    rw [hwork] at h
    cases h
  · intro hwriter
    rcases hthreads with ⟨-, -, -, h⟩ | ⟨-, -, -, h⟩ <;> rw [h] at hwriter <;> cases hwriter

/-- The lifecycle thread goes on before the end of `close` without touching the queue. -/
lemma Roomy.goesOn (hroomy : Roomy s) (hopen : s.stage ≠ .closed)
    (hcapacity : s'.capacity = s.capacity) (hthreaded : s'.threaded = s.threaded)
    (hqueue : s'.queue = s.queue) (hwriter : s'.writer = s.writer)
    (hadmitted : ∀ draft left last, s'.stage = .working → s'.work = .admitted draft left last →
      s.threaded = true ∧ s.queue.length < queueMaxRecords) : Roomy s' := by
  constructor
  · intro h
    rw [hthreaded] at h
    rw [hqueue, hcapacity, hwriter]
    exact (hroomy.unthreaded h).imp_right fun hroom _ => hroom hopen
  · rw [hthreaded, hcapacity]
    exact hroomy.threaded
  · intro _
    rw [hqueue]
    exact hroomy.depth hopen
  · intro _
    rw [hqueue]
    exact hroomy.unmarked hopen
  · intro draft left last hstage h
    rw [hthreaded, hqueue]
    exact hadmitted draft left last hstage h
  · intro h
    rw [hwriter] at h
    exact absurd (hroomy.finalizing h).1 hopen

/-- `close` is done, and the writer did not end the file yet. -/
lemma Roomy.closes (hroomy : Roomy s) (hopen : s.stage ≠ .closed)
    (hcapacity : s'.capacity = s.capacity) (hthreaded : s'.threaded = s.threaded)
    (hwriter : s'.writer = s.writer) (hclosed : s'.stage = .closed) : Roomy s' := by
  constructor
  · intro h
    rw [hthreaded] at h
    rw [hwriter]
    exact ⟨(hroomy.unthreaded h).1, fun h => absurd hclosed h⟩
  · rw [hthreaded, hcapacity]
    exact hroomy.threaded
  · exact fun h => absurd hclosed h
  · exact fun h => absurd hclosed h
  · intro draft left last hstage _
    rw [hclosed] at hstage
    cases hstage
  · intro h
    rw [hwriter] at h
    exact absurd (hroomy.finalizing h).1 hopen

lemma returns_ne_admitted {last last' : Bool} {draft : Draft} {left : List Piece} :
    returns last ≠ .admitted draft left last' := by
  cases last <;> simp [returns]

lemma escape_ne_admitted {work : Work} {draft : Draft} {left : List Piece} {last : Bool} :
    work.escape ≠ .admitted draft left last := by
  cases work <;> simp [Work.escape, returns_ne_admitted]

lemma LifecycleStep.roomy (h : LifecycleStep s s') (hroomy : Roomy s) : Roomy s' := by
  cases h with
  | stageStart _ _ _ _ hstage _ | noDecoder hstage _ | heartbeat hstage _ | read _ hstage _ _
  | undecoded _ hstage _ _ | fragment _ _ hstage _ _ | noEof hstage _ _ | eof _ hstage _ _
  | eofDegraded hstage _ | refused _ _ _ hstage _ _ =>
      have hopen : s.stage ≠ .closed := by simp [hstage]
      exact hroomy.goesOn hopen rfl rfl rfl rfl fun _ _ _ _ h => nomatch h
  | admitted time piece left last hstage hwork hthreaded hclosing hroom =>
      have hopen : s.stage ≠ .closed := by simp [hstage]
      exact hroomy.goesOn hopen rfl rfl rfl rfl fun _ _ _ _ _ => ⟨hthreaded, hroom⟩
  | put draft left last hstage hwork hroom =>
      have hopen : s.stage ≠ .closed := by simp [hstage]
      obtain ⟨hthreaded, hlength⟩ := hroomy.admitted draft left last hstage hwork
      constructor
      · intro h
        rw [show s.threaded = false from h] at hthreaded
        cases hthreaded
      · exact hroomy.threaded
      · intro _
        simp only [List.length_append, List.length_singleton]
        omega
      · intro _
        simpa using hroomy.unmarked hopen
      · exact fun _ _ _ _ h => nomatch h
      · exact fun h => absurd (hroomy.finalizing h).1 hopen
  | returned last hstage hwork =>
      have hopen : s.stage ≠ .closed := by simp [hstage]
      exact hroomy.goesOn hopen rfl rfl rfl rfl fun _ _ _ _ h => absurd h returns_ne_admitted
  | degraded decoder hstage hwork =>
      have hopen : s.stage ≠ .closed := by simp [hstage]
      exact hroomy.goesOn hopen rfl rfl rfl rfl fun _ _ _ _ h => absurd h escape_ne_admitted
  | stopped hstage | marked _ hstage =>
      have hopen : s.stage ≠ .closed := by simp [hstage]
      exact hroomy.goesOn hopen rfl rfl rfl rfl fun _ _ _ h => nomatch h
  | putTerminal hstage _ | fullTerminal hstage _ =>
      have hopen : s.stage ≠ .closed := by simp [hstage]
      exact hroomy.closes hopen rfl rfl rfl rfl
  | closeDegraded hstage =>
      have hopen : s.stage ≠ .closed := by rcases hstage with h | h <;> simp [h]
      exact hroomy.closes hopen rfl rfl rfl rfl

/-- The writer takes from the front of the queue only, and starts to finalize at the marker. -/
lemma WriterStep.queue (h : WriterStep rt s s') : s'.queue <:+ s.queue ∧ s.writer ≠ .absent ∧
    (s'.writer = .finalizing → Item.terminal ∈ s.queue ∧
      (s'.incomplete = false → s'.queue = [])) := by
  cases h with
  | created hwriter | notCreated hwriter | skipped _ hwriter _ | wrote _ _ hwriter _ _ _
  | writeFailed _ _ _ hwriter _ _ _ _ | decided _ hwriter | endSkipped _ _ hwriter _
  | endWrote _ _ _ hwriter _ _ _ | endFailed _ _ _ _ hwriter _ _ _ _ =>
      exact ⟨List.suffix_rfl, by simp [hwriter], fun h => nomatch h⟩
  | take draft rest hwriter hqueue =>
      refine ⟨?_, by simp [hwriter], fun h => nomatch h⟩
      rw [hqueue]
      exact List.suffix_cons _ _
  | takeTerminal rest hwriter hqueue =>
      refine ⟨?_, by simp [hwriter], fun _ => ⟨?_, ?_⟩⟩
      · rw [hqueue]
        exact List.suffix_cons _ _
      · rw [hqueue]
        exact List.mem_cons_self
      · intro hincomplete
        simpa using (Bool.or_eq_false_iff.mp hincomplete).2
  | crashed hwriter hdone => exact ⟨List.suffix_rfl, hwriter, fun h => nomatch h⟩

lemma WriterStep.roomy (h : WriterStep rt s s') (hroomy : Roomy s) : Roomy s' := by
  have hrun := h.sameRun
  obtain ⟨hsuffix, hwriter, hfinalizing⟩ := h.queue
  have hlength := hsuffix.length_le
  constructor
  · intro h
    rw [hrun.threaded] at h
    exact absurd (hroomy.unthreaded h).1 hwriter
  · rw [hrun.threaded, hrun.capacity]
    exact hroomy.threaded
  · intro hopen
    rw [hrun.stage] at hopen
    exact hlength.trans (hroomy.depth hopen)
  · intro hopen hmem
    rw [hrun.stage] at hopen
    exact hroomy.unmarked hopen (hsuffix.subset hmem)
  · intro draft left last hstage hwork
    rw [hrun.stage] at hstage
    rw [hrun.work] at hwork
    rw [hrun.threaded]
    obtain ⟨hthreaded, hroom⟩ := hroomy.admitted draft left last hstage hwork
    exact ⟨hthreaded, hlength.trans_lt hroom⟩
  · intro h
    obtain ⟨hmem, hempty⟩ := hfinalizing h
    rw [hrun.stage]
    refine ⟨?_, hempty⟩
    by_contra hopen
    exact hroomy.unmarked hopen hmem

lemma Step.roomy (h : Step rt s s') (hroomy : Roomy s) : Roomy s' := by
  cases h with
  | lifecycle h => exact h.roomy hroomy
  | writer h => exact h.roomy hroomy

lemma Reached.roomy (h : Reached rt s) : Roomy s :=
  h.invariant (fun _ hopened => hopened.roomy) fun _ _ hroomy hstep => hstep.roomy hroomy

/-- The terminal marker finds a free slot. -/
lemma Roomy.lt_capacity (hroomy : Roomy s) (hopen : s.stage ≠ .closed) :
    s.queue.length < s.capacity := by
  cases hthreaded : s.threaded with
  | false =>
      obtain ⟨hqueue, hcapacity⟩ := (hroomy.unthreaded hthreaded).2 hopen
      rw [hqueue]
      exact hcapacity
  | true =>
      have hdepth := hroomy.depth hopen
      rw [hroomy.threaded hthreaded]
      omega

/-! ## The text -/

/-- What a method that offers these pieces accounts for. -/
def Offers (received : List Bytes) (decoder : Option D.State) (delivered : Text)
    (left : List Piece) (last : Bool) : Prop :=
  if last then delivered ++ left.flatMap Piece.fragment = D.whole received.flatten
  else decoder = some (D.after received) ∧
    delivered ++ left.flatMap Piece.fragment = D.output received

/-- What is on its way to the file and what the lifecycle thread has in hand are what the decoder
gave out for what was read. -/
def Accounts (received : List Bytes) (decoder : Option D.State) (delivered : Text) : Work → Prop
  | .opened => received = [] ∧ delivered = []
  | .running => decoder = some (D.after received) ∧ delivered = D.output received
  | .holding chunk => ∃ earlier, received = earlier ++ [chunk] ∧
      decoder = some (D.after earlier) ∧ delivered = D.output earlier
  | .offering left last => Offers received decoder delivered left last
  | .admitted draft left last => Offers received decoder delivered (draft.piece :: left) last
  | .ended => delivered = D.whole received.flatten

/-- The fragments on their way, and what was not offered, are the text of what was read. -/
lemma Accounts.append_left (h : Accounts s.received s.decoder s.delivered s.work) :
    s.delivered ++ s.left = D.whole s.received.flatten := by
  have hoffers : ∀ left last, Offers s.received s.decoder s.delivered left last →
      s.delivered ++ (left.flatMap Piece.fragment ++ if last then [] else s.held) =
        D.whole s.received.flatten := by
    intro left last h
    cases last with
    | false =>
        obtain ⟨hdecoder, hdelivered⟩ := h
        rw [← List.append_assoc, hdelivered, ← D.output_append_flush]
        simp [State.held, hdecoder]
    | true => simpa [Offers] using h
  unfold State.left
  cases hwork : s.work with
  | opened =>
      rw [hwork] at h
      obtain ⟨hreceived, hdelivered⟩ := h
      simp [hreceived, hdelivered, D.whole_nil]
  | running =>
      rw [hwork] at h
      obtain ⟨hdecoder, hdelivered⟩ := h
      rw [hdelivered, ← D.output_append_flush]
      simp [State.held, hdecoder]
  | holding chunk =>
      rw [hwork] at h
      obtain ⟨earlier, hreceived, hdecoder, hdelivered⟩ := h
      rw [hdelivered, ← D.output_append_flush, hreceived, D.output_concat, D.after_concat]
      simp [hdecoder]
  | offering left last =>
      rw [hwork] at h
      exact hoffers left last h
  | admitted draft left last =>
      rw [hwork] at h
      simpa using hoffers _ last h
  | ended =>
      rw [hwork] at h
      rw [List.append_nil]
      exact h

lemma Opened.accounts (h : Opened s) :
    Accounts s.received s.decoder s.delivered s.work := by
  have hwriter : s.writer.fragment = [] := by
    rcases h.threads with ⟨-, -, -, hw⟩ | ⟨-, -, -, hw⟩ <;> rw [hw] <;> rfl
  rw [h.work]
  refine ⟨h.received, ?_⟩
  simp [State.delivered, State.text, h.entries, h.queue, hwriter]

lemma accounts_returns {received : List Bytes} {decoder : Option D.State} {delivered : Text}
    {last : Bool} (h : Offers received decoder delivered [] last) :
    Accounts received decoder delivered (returns last) := by
  cases last with
  | false =>
      obtain ⟨hdecoder, hdelivered⟩ := h
      exact ⟨hdecoder, by simpa using hdelivered⟩
  | true =>
      have h : delivered ++ [] = D.whole received.flatten := h
      rwa [List.append_nil] at h

lemma LifecycleStep.accounts (h : LifecycleStep s s') (hincomplete : s'.incomplete = false)
    (haccounts : Accounts s.received s.decoder s.delivered s.work) :
    Accounts s'.received s'.decoder s'.delivered s'.work := by
  cases h with
  | noDecoder | undecoded | eofDegraded | refused | degraded | fullTerminal | closeDegraded =>
      cases hincomplete
  | stopped | marked => exact haccounts
  | stageStart owner encoding childPid timeoutSeconds hstage hwork =>
      rw [hwork] at haccounts
      obtain ⟨hreceived, hdelivered⟩ := haccounts
      have hdecoder : some D.start = some (D.after s.received) := by rw [hreceived, D.after_nil]
      have houtput : s.delivered = D.output s.received := by
        rw [hdelivered, hreceived, D.output_nil]
      exact ⟨hdecoder, (List.append_nil s.delivered).trans houtput⟩
  | heartbeat hstage hwork =>
      rw [hwork] at haccounts
      obtain ⟨hdecoder, hdelivered⟩ := haccounts
      exact ⟨hdecoder, (List.append_nil s.delivered).trans hdelivered⟩
  | read chunk hstage hwork hchunk =>
      rw [hwork] at haccounts
      obtain ⟨hdecoder, hdelivered⟩ := haccounts
      exact ⟨s.received, rfl, hdecoder, hdelivered⟩
  | fragment chunk d hstage hwork hdecoder =>
      rw [hwork] at haccounts
      obtain ⟨earlier, hreceived, hd, hdelivered⟩ := haccounts
      have hcurrent : d = D.after earlier := Option.some.inj (hdecoder.symm.trans hd)
      have hnext : some (D.decode d chunk).2 = some (D.after s.received) := by
        rw [hreceived, D.after_concat, hcurrent]
      refine ⟨hnext, ?_⟩
      show s.delivered ++ _ = D.output s.received
      rw [fragment_pieces, hdelivered, hreceived, D.output_concat, hcurrent]
  | noEof hstage hwork hdecoder =>
      rw [hwork] at haccounts
      obtain ⟨hd, hdelivered⟩ := haccounts
      rw [hdecoder] at hd
      cases hd
  | eof d hstage hwork hdecoder =>
      rw [hwork] at haccounts
      obtain ⟨hd, hdelivered⟩ := haccounts
      have hcurrent : d = D.after s.received := Option.some.inj (hdecoder.symm.trans hd)
      show s.delivered ++ _ = D.whole s.received.flatten
      rw [fragment_pieces, hdelivered, hcurrent, D.output_append_flush]
  | admitted time piece left last hstage hwork hthreaded hclosing hroom =>
      rw [hwork] at haccounts
      exact haccounts
  | put draft left last hstage hwork hroom =>
      rw [hwork] at haccounts
      have hmoved : ∀ t, s.delivered ++ (draft.piece.fragment ++ t) =
          s.text ++ s.writer.fragment ++
            (s.queue ++ [Item.record draft]).flatMap Item.fragment ++ t := by
        simp [State.delivered, Item.fragment]
      cases last with
      | false =>
          obtain ⟨hdecoder, hdelivered⟩ := haccounts
          exact ⟨hdecoder, (hmoved _).symm.trans hdelivered⟩
      | true => exact (hmoved _).symm.trans haccounts
  | returned last hstage hwork =>
      rw [hwork] at haccounts
      exact accounts_returns haccounts
  | putTerminal hstage hroom =>
      have hsame : s.text ++ s.writer.fragment ++
          (s.queue ++ [Item.terminal]).flatMap Item.fragment = s.delivered := by simp [State.delivered, Item.fragment]
      rw [← hsame] at haccounts
      exact haccounts

/-- What the writer does without a flag leaves the fragments on their way as they are. -/
lemma WriterStep.delivered (h : WriterStep rt s s') (hincomplete : s'.incomplete = false) :
    s'.delivered = s.delivered := by
  cases h with
  | notCreated | skipped | writeFailed | crashed => cases hincomplete
  | created hwriter => simp [State.delivered, State.text, hwriter, Writer.fragment]
  | take draft rest hwriter hqueue =>
      simp [State.delivered, State.text, hwriter, hqueue, Writer.fragment, Item.fragment]
  | takeTerminal rest hwriter hqueue =>
      simp [State.delivered, State.text, hwriter, hqueue, Writer.fragment, Item.fragment]
  | wrote draft line hwriter hhandle hline hfits =>
      simp [State.delivered, State.text, hwriter, Writer.fragment, Entry.fragment]
  | decided time hwriter => simp [State.delivered, State.text, hwriter, Writer.fragment]
  | endSkipped terminal liveComplete hwriter hskip =>
      simp [State.delivered, State.text, hwriter, Writer.fragment]
  | endWrote terminal liveComplete line hwriter hhandle hline hfits =>
      simp [State.delivered, State.text, hwriter, Writer.fragment, Entry.fragment]
  | endFailed terminal liveComplete line reached hwriter hhandle hline hfits hreached =>
      by_cases hwhole : reached = line.length <;>
        simp [State.delivered, State.text, State.afterFailure, hwriter, hwhole, Writer.fragment,
          Entry.fragment]

lemma Step.accounts (h : Step rt s s') (hincomplete : s'.incomplete = false)
    (haccounts : Accounts s.received s.decoder s.delivered s.work) :
    Accounts s'.received s'.decoder s'.delivered s'.work := by
  cases h with
  | lifecycle h => exact h.accounts hincomplete haccounts
  | writer h =>
      rw [h.sameRun.received, h.sameRun.decoder, h.sameRun.work, h.delivered hincomplete]
      exact haccounts

/-- While nothing is flagged, every fragment is accounted for. -/
def Tracked (s : State D) : Prop :=
  s.incomplete = false → Accounts s.received s.decoder s.delivered s.work

lemma Reached.tracked (h : Reached rt s) : Tracked s := by
  have hinit : ∀ s : State D, Opened s → Tracked s := fun _ hopened _ => hopened.accounts
  apply h.invariant hinit
  intro s s' htracked hstep hincomplete
  exact hstep.accounts hincomplete (htracked (hstep.incomplete hincomplete))

/-! ## The terminal record -/

/-- A `stage_end` that says the evidence is complete is in the file or about to be written. -/
def State.SaysComplete (s : State D) : Prop :=
  (∃ terminal, s.writer = .ending terminal true) ∨ ∃ e ∈ s.entries, e.isComplete = true

/-- The lifecycle thread is done, and the fragments of the file lack what it did not offer. -/
def State.Settled (s : State D) : Prop :=
  s.stage = .closed ∧ s.text ++ s.left = D.whole s.received.flatten

lemma SameFile.saysComplete (h : SameFile s s') (hs' : s'.SaysComplete) : s.SaysComplete := by
  unfold State.SaysComplete at hs'
  rwa [h.writer, h.entries] at hs'

lemma SameRun.settled (h : SameRun s s') (htext : s'.text = s.text) (hs : s.Settled) :
    s'.Settled := by
  have hleft : s'.left = s.left := by simp only [State.left, State.held, h.work, h.decoder]
  unfold State.Settled
  rwa [h.stage, htext, hleft, h.received]

/-- After `close` the lifecycle thread does nothing. -/
lemma LifecycleStep.not_closed (h : LifecycleStep s s') : s.stage ≠ .closed := by
  cases h with
  | closeDegraded hstage => rcases hstage with h | h <;> simp [h]
  | _ => simp_all

lemma fragment_of_isComplete {e : Entry} (h : e.isComplete = true) : e.fragment = [] := by
  cases e with
  | optional seq draft => cases h
  | stageEnd seq terminal liveComplete => rfl

lemma WriterStep.ending (h : WriterStep rt s s') {terminal : Terminal} {liveComplete : Bool}
    (hending : s'.writer = .ending terminal liveComplete) :
    s.writer = .finalizing ∧ liveComplete = !s.incomplete ∧ s'.entries = s.entries := by
  cases h with
  | decided time hwriter =>
      injection hending with _ hcomplete
      exact ⟨hwriter, hcomplete.symm, rfl⟩
  | _ => cases hending

/-- Only the terminal record says that the evidence is complete. -/
lemma WriterStep.entries (h : WriterStep rt s s') : s'.entries = s.entries ∨
    ∃ e, s'.entries = s.entries ++ [e] ∧
      (e.isComplete = true → ∃ terminal, s.writer = .ending terminal true) := by
  cases h with
  | wrote draft line hwriter hhandle hline hfits => exact .inr ⟨_, rfl, fun h => nomatch h⟩
  | writeFailed draft line reached hwriter hhandle hline hfits hreached =>
      by_cases hwhole : reached = line.length
      · exact .inr ⟨_, if_pos hwhole, fun h => nomatch h⟩
      · exact .inl (if_neg hwhole)
  | endWrote terminal liveComplete line hwriter hhandle hline hfits =>
      refine .inr ⟨_, rfl, fun h => ⟨terminal, ?_⟩⟩
      rw [hwriter, show liveComplete = true from h]
  | endFailed terminal liveComplete line reached hwriter hhandle hline hfits hreached =>
      by_cases hwhole : reached = line.length
      · refine .inr ⟨_, if_pos hwhole, fun h => ⟨terminal, ?_⟩⟩
        rw [hwriter, show liveComplete = true from h]
      · exact .inl (if_neg hwhole)
  | _ => exact .inl rfl

/-- Nothing is flagged when the writer starts to end the file: what the file lacks was not
offered. -/
lemma settled_of_finalizing (hroomy : Roomy s) (htracked : Tracked s)
    (hwriter : s.writer = .finalizing) (hincomplete : s.incomplete = false) : s.Settled := by
  obtain ⟨hclosed, hempty⟩ := hroomy.finalizing hwriter
  have hleft := (htracked hincomplete).append_left
  have hdelivered : s.delivered = s.text := by
    simp [State.delivered, hwriter, hempty hincomplete, Writer.fragment]
  rw [hdelivered] at hleft
  exact ⟨hclosed, hleft⟩

lemma WriterStep.settled (h : WriterStep rt s s') (hkept : Kept rt s) (hroomy : Roomy s)
    (htracked : Tracked s) (hsettled : s.SaysComplete → s.Settled) (hs' : s'.SaysComplete) :
    s'.Settled := by
  have htext : s'.entries = s.entries → s'.text = s.text := fun h => by
    rw [State.text, h, State.text]
  obtain ⟨terminal, hending⟩ | ⟨e, he, hcomplete⟩ := hs'
  · obtain ⟨hwriter, hflag, hentries⟩ := h.ending hending
    have hincomplete : s.incomplete = false := by simpa using hflag.symm
    exact h.sameRun.settled (htext hentries)
      (settled_of_finalizing hroomy htracked hwriter hincomplete)
  · obtain hentries | ⟨e', hentries, hwriter⟩ := h.entries
    · rw [hentries] at he
      exact h.sameRun.settled (htext hentries) (hsettled (.inr ⟨e, he, hcomplete⟩))
    · rw [hentries, List.mem_append, List.mem_singleton] at he
      rcases he with he | rfl
      · exact absurd (hkept.ended e he (isEnd_of_isComplete hcomplete)) h.phase.1
      · have hsame : s'.text = s.text := by
          simp [State.text, hentries, fragment_of_isComplete hcomplete]
        exact h.sameRun.settled hsame (hsettled (.inl (hwriter hcomplete)))

/-- A file that says it is complete lacks what was not offered. -/
def Settles (s : State D) : Prop := s.SaysComplete → s.Settled

lemma Reached.settles (h : Reached rt s) : Settles s := by
  refine Reachable.invariant_of
    (fun _ hr => And.intro (Reached.kept hr) (And.intro (Reached.roomy hr) (Reached.tracked hr)))
    ?_ ?_ h
  · intro s hopened hs
    obtain ⟨terminal, hending⟩ | ⟨e, he, -⟩ := hs
    · rcases hopened.threads with ⟨-, -, -, hw⟩ | ⟨-, -, -, hw⟩ <;> rw [hw] at hending <;>
        cases hending
    · rw [hopened.entries] at he
      cases he
  · rintro s s' ⟨hkept, hroomy, htracked⟩ hsettled hstep hs'
    cases hstep with
    | lifecycle h => exact absurd (hsettled (h.sameFile.saysComplete hs')).1 h.not_closed
    | writer h => exact h.settled hkept hroomy htracked hsettled hs'

/-- In every run the file is bounded and numbered, the marker finds a slot, and where a `stage_end`
says that the evidence is complete, the fragments are the text of all that was read exactly if
the lifecycle thread left nothing: no piece, no chunk, and nothing in the decoder. -/
theorem live_evidence (h : Reached rt s) :
    s.fileSize rt ≤ maxBytes ∧ s.entries.map Entry.seq = List.range s.entries.length ∧
      (∀ e ∈ s.entries.dropLast, e.isEnd = false) ∧
      (s.stage = .marked → s.queue.length < s.capacity) ∧
      ((∃ e ∈ s.entries, e.isComplete = true) →
        (s.text = D.whole s.received.flatten ↔ s.left = [])) := by
  have hkept := Reached.kept h
  refine ⟨hkept.bounded, hkept.numbered, hkept.single, ?_, ?_⟩
  · intro hstage
    exact (Reached.roomy h).lt_capacity (by simp [hstage])
  · intro hcomplete
    obtain ⟨-, hlacks⟩ := Reached.settles h (.inr hcomplete)
    rw [← hlacks]
    exact List.self_eq_append_right

/-! ## Two runs -/

section Runs

variable {line : Bytes}

/-- A piece goes through the queue to the file. -/
lemma reached_piece (h : Reached rt s) (hstage : s.stage = .working) {piece : Piece}
    {left : List Piece} {last : Bool} (hwork : s.work = .offering (piece :: left) last)
    (hthreaded : s.threaded = true) (hclosing : s.closing = false) (hqueue : s.queue = [])
    (hcapacity : 0 < s.capacity) (hwriter : s.writer = .waiting) (hhandle : s.handle = true)
    (time : ℤ) (hline : (Entry.optional s.seq ⟨time, piece⟩).line rt = some line)
    (hfits : s.written + line.length + terminalReserveBytes ≤ maxBytes) :
    Reached rt { s with
      work := .offering left last
      queue := []
      writer := .waiting
      entries := s.entries ++ [.optional s.seq ⟨time, piece⟩]
      written := s.written + line.length
      seq := s.seq + 1 } := by
  have hroom : s.queue.length < queueMaxRecords := by
    rw [hqueue]
    decide
  have hadmitted := Reachable.step h
    (.lifecycle (.admitted time piece left last hstage hwork hthreaded hclosing hroom))
  have hput := hadmitted.step
    (.lifecycle (.put ⟨time, piece⟩ left last hstage rfl (by simpa [hqueue] using hcapacity)))
  have htaken := hput.step (.writer (.take ⟨time, piece⟩ [] hwriter (by simp [hqueue])))
  exact htaken.step (.writer (.wrote ⟨time, piece⟩ line rfl hhandle hline hfits))

/-- The run leaves the loop where it stands, and the writer ends the file. -/
lemma reached_end (h : Reached rt s) (hstage : s.stage = .working) (hqueue : s.queue = [])
    (hcapacity : 0 < s.capacity) (hwriter : s.writer = .waiting) (hhandle : s.handle = true)
    (hincomplete : s.incomplete = false) (terminal : Terminal)
    (hline : (Entry.stageEnd s.seq terminal true).line rt = some line)
    (hfits : s.written + line.length ≤ maxBytes) :
    Reached rt { s with
      closing := true
      terminal := some terminal
      stage := .closed
      queue := []
      entries := s.entries ++ [.stageEnd s.seq terminal true]
      written := s.written + line.length
      seq := s.seq + 1
      handle := false
      writer := .done } := by
  have hstopped := Reachable.step h (.lifecycle (.stopped hstage))
  have hmarked := hstopped.step (.lifecycle (.marked terminal rfl))
  have hput := hmarked.step (.lifecycle (.putTerminal rfl (by simpa [hqueue] using hcapacity)))
  have htaken := hput.step (.writer (.takeTerminal [] hwriter (by simp [hqueue])))
  have hdecided := htaken.step (.writer (.decided 0 rfl))
  have hended : Reached rt _ := hdecided.step
    (.writer (.endWrote terminal true line (by simp [hincomplete, State.terminalRecord]) hhandle
      hline hfits))
  simpa [hincomplete] using hended

def startPiece : Piece := .stageStart "claude" 4242 1800 "utf-8"

/-- A child that exits with zero. -/
def exited : Terminal := ⟨5, some 0, false⟩

/-- The bytes of a record. -/
@[irreducible] def lineOf (e : Entry) : Bytes := (e.line Runtime.standard).getD []

/-- The stream before `stage_start`. -/
def beginning : State utf8Decoder where
  capacity := queueMaxRecords + 1
  threaded := true
  closing := false
  incomplete := false
  queue := []
  terminal := none
  decoder := none
  received := []
  work := .opened
  stage := .working
  writer := .creating
  handle := false
  written := 0
  seq := 0
  entries := []
  torn := 0

/-- The stream after `stage_start`, with its record in the file. -/
def listening : State utf8Decoder :=
  { beginning with
    decoder := some none
    work := .running
    writer := .waiting
    handle := true
    written := beginning.written + (lineOf (.optional 0 ⟨1, startPiece⟩)).length
    seq := 1
    entries := [.optional 0 ⟨1, startPiece⟩] }

/-- The records of the samples: each has a line, and the lines fit into the file. -/
lemma records_evaluated :
    (∀ e ∈ [Entry.optional 0 ⟨1, startPiece⟩, .stageEnd 1 exited true,
        .optional 1 ⟨2, .text "A"⟩, .stageEnd 2 exited true],
      e.line Runtime.standard = some (lineOf e)) ∧
      beginning.written + (lineOf (.optional 0 ⟨1, startPiece⟩)).length + terminalReserveBytes ≤
        maxBytes ∧
      listening.written + (lineOf (.stageEnd 1 exited true)).length ≤ maxBytes ∧
      listening.written + (lineOf (.optional 1 ⟨2, .text "A"⟩)).length + terminalReserveBytes ≤
        maxBytes ∧
      listening.written + (lineOf (.optional 1 ⟨2, .text "A"⟩)).length +
        (lineOf (.stageEnd 2 exited true)).length ≤ maxBytes := by
  decide +kernel

lemma reached_listening : Reached Runtime.standard listening := by
  have hopened : Opened beginning :=
    ⟨rfl, rfl, rfl, rfl, rfl, rfl, rfl, rfl, rfl, rfl, .inl ⟨rfl, rfl, rfl, rfl⟩⟩
  have hbegun : Reached Runtime.standard beginning := .init hopened
  have hcreated := Reachable.step hbegun (.writer (.created rfl))
  have hstart := hcreated.step (.lifecycle (.stageStart "claude" "utf-8" 4242 1800 rfl rfl))
  have hline : (Entry.optional 0 ⟨1, startPiece⟩).line Runtime.standard =
      some (lineOf (.optional 0 ⟨1, startPiece⟩)) := records_evaluated.1 _ (by simp)
  have hpiece := reached_piece hstart rfl rfl rfl rfl rfl (by decide) rfl rfl 1 hline
    records_evaluated.2.1
  exact hpiece.step (.lifecycle (.returned false rfl rfl))

/-- The first byte of a character is read, and then the pipe fails. -/
lemma reached_interrupted : ∃ s : State utf8Decoder, Reached Runtime.standard s ∧
    s.entries = [.optional 0 ⟨1, startPiece⟩, .stageEnd 1 exited true] ∧
    s.received = [[0xC3]] := by
  have hread := reached_listening.step (.lifecycle (.read [0xC3] rfl rfl (by decide)))
  have hdecoded := hread.step (.lifecycle (.fragment [0xC3] none rfl rfl rfl))
  have hreturned := hdecoded.step (.lifecycle (.returned false rfl rfl))
  have hline : (Entry.stageEnd 1 exited true).line Runtime.standard =
      some (lineOf (.stageEnd 1 exited true)) := records_evaluated.1 _ (by simp)
  exact ⟨_, reached_end hreturned rfl rfl (by decide) rfl rfl rfl exited hline
    records_evaluated.2.2.1, rfl, rfl⟩

/-- A `stage_end` says complete, and the byte that the decoder holds is in no fragment. -/
theorem not_live_evidence : ¬ ∀ s : State utf8Decoder, Reached Runtime.standard s →
    (∃ e ∈ s.entries, e.isComplete = true) →
      s.text = utf8Decoder.whole s.received.flatten := by
  intro h
  obtain ⟨s, hs, hentries, hreceived⟩ := reached_interrupted
  have htext := h s hs ⟨.stageEnd 1 exited true, by simp [hentries], rfl⟩
  rw [State.text, hentries, hreceived] at htext
  exact absurd htext (by decide)

/-- A character is read to the end of the pipe. -/
theorem live_evidence_exited : ∃ s : State utf8Decoder, s.received = [[0x41]] ∧
    (∃ e ∈ s.entries, e.isComplete = true) ∧ s.left = [] ∧
    s.fileSize Runtime.standard ≤ maxBytes ∧
    s.entries.map Entry.seq = List.range s.entries.length ∧
    (∀ e ∈ s.entries.dropLast, e.isEnd = false) ∧
    (s.stage = .marked → s.queue.length < s.capacity) ∧
    ((∃ e ∈ s.entries, e.isComplete = true) →
      (s.text = utf8Decoder.whole s.received.flatten ↔ s.left = [])) := by
  have hread := reached_listening.step (.lifecycle (.read [0x41] rfl rfl (by decide)))
  have hdecoded := hread.step (.lifecycle (.fragment [0x41] none rfl rfl rfl))
  have hpieces : pieces (utf8Decoder.decode none [0x41]).1 = [.text "A"] := rfl
  rw [hpieces] at hdecoded
  have hline : (Entry.optional 1 ⟨2, .text "A"⟩).line Runtime.standard =
      some (lineOf (.optional 1 ⟨2, .text "A"⟩)) := records_evaluated.1 _ (by simp)
  have hpiece := reached_piece hdecoded rfl rfl rfl rfl rfl (by decide) rfl rfl 2 hline
    records_evaluated.2.2.2.1
  have hreturned := hpiece.step (.lifecycle (.returned false rfl rfl))
  have heof := hreturned.step (.lifecycle (.eof none rfl rfl rfl))
  have hended := heof.step (.lifecycle (.returned true rfl rfl))
  have hline' : (Entry.stageEnd 2 exited true).line Runtime.standard =
      some (lineOf (.stageEnd 2 exited true)) := records_evaluated.1 _ (by simp)
  have hclosed := reached_end hended rfl rfl (by decide) rfl rfl rfl exited hline'
    records_evaluated.2.2.2.2
  have hcomplete : Entry.stageEnd 2 exited true ∈ [Entry.optional 0 ⟨1, startPiece⟩,
      .optional 1 ⟨2, .text "A"⟩, .stageEnd 2 exited true] := by simp
  exact ⟨_, rfl, ⟨.stageEnd 2 exited true, hcomplete, rfl⟩, rfl, live_evidence hclosed⟩

end Runs

end LiveStream

end AgentOrch
