import AgentOrch.Construction.Exceptions
import AgentOrch.Framework.Incremental
import AgentOrch.Framework.JsonText
import AgentOrch.Framework.Reachability

/-!
# The live stream of a run

The lifecycle thread reads the pipe of the child and offers what it decodes to a bounded queue; a
writer thread takes it from there to a file of its own.  Each of them may be held up anywhere, the
file may fail, and the run may leave the loop at any point: at the end of the pipe, on a read error,
or on an interrupt.

A timeout goes on reading, and differs in the terminal record only.
-/

namespace AgentOrch

open Py Json

namespace LiveStream

/-! ## Records -/

/-- `LIVE_MAX_BYTES` -/
def maxBytes : ℕ := 8192

/-- `LIVE_TERMINAL_RESERVE_BYTES` -/
def terminalReserveBytes : ℕ := 512

/-- `LIVE_FRAGMENT_MAX_CHARS` -/
def fragmentMaxChars : ℕ := 1024

/-- `LIVE_QUEUE_MAX_RECORDS` -/
def queueMaxRecords : ℕ := 256

/-- What a method offers, before it is stamped. -/
inductive Piece
  | stageStart (owner : Text) (childPid timeoutSeconds : ℤ) (encoding : Text)
  | heartbeat
  | text (t : Text)

/-- An optional record, before the writer numbers it. -/
structure Draft where
  time : ℤ
  piece : Piece

/-- `_terminal` -/
structure Terminal where
  time : ℤ
  exitCode : Option ℤ
  timedOut : Bool

/-- A record of the file. -/
inductive Entry
  | optional (seq : ℕ) (draft : Draft)
  | stageEnd (seq : ℕ) (terminal : Terminal) (liveComplete : Bool)

/-- The record as it is dumped. -/
def Entry.value : Entry → Value
  | .optional seq ⟨time, .stageStart owner childPid timeoutSeconds encoding⟩ =>
    .obj [("event", .str "stage_start"), ("schema_version", .int 1), ("seq", .int seq),
      ("ts_ms", .int time), ("owner", .str owner), ("child_pid", .int childPid),
      ("timeout_seconds", .int timeoutSeconds), ("encoding", .str encoding)]
  | .optional seq ⟨time, .heartbeat⟩ =>
    .obj [("event", .str "heartbeat"), ("seq", .int seq), ("ts_ms", .int time)]
  | .optional seq ⟨time, .text t⟩ =>
    .obj [("event", .str "output_fragment"), ("seq", .int seq), ("ts_ms", .int time),
      ("text", .str t)]
  | .stageEnd seq terminal liveComplete =>
    .obj [("event", .str "stage_end"), ("seq", .int seq), ("ts_ms", .int terminal.time),
      ("exit_code", (terminal.exitCode.map Value.int).getD .null),
      ("timed_out", .bool terminal.timedOut), ("live_complete", .bool liveComplete)]

/-- `json.dumps(record, ensure_ascii=False).encode("utf-8") + b"\n"`, where it does not raise. -/
def Entry.line (rt : Runtime) (e : Entry) : Option Bytes :=
  match e.value.lenientRefusal rt.dumpsDepth with
  | some _ => none
  | none => (encodeStrict (e.value.written " " rt.floatRepr)).map fun bytes => bytes ++ [0x0A]

/-- `text[start : start + n]` for every start, of a text of at most `fuel` characters. -/
def slices (n : ℕ) : ℕ → Text → List Text
  | 0, _ => []
  | _, [] => []
  | fuel + 1, c :: t => (c :: t).take n :: slices n fuel ((c :: t).drop n)

/-- What `_emit_text` offers. -/
def pieces (t : Text) : List Piece := (slices fragmentMaxChars t.length t).map Piece.text

/-! ## The two threads -/

/-- What is in the queue. -/
inductive Item
  | record (draft : Draft)
  | terminal

/-- Where the lifecycle thread stands, or stood when it left the loop: before `stage_start`, between
two calls, with a chunk in hand, inside a method with these pieces left to offer (`last` inside
`eof`), past the check of the depth for a record, or after `eof`. -/
inductive Work
  | opened
  | running
  | holding (chunk : Bytes)
  | offering (left : List Piece) (last : Bool)
  | admitted (draft : Draft) (left : List Piece) (last : Bool)
  | ended

/-- Whether it left the loop, and how far `close` got. -/
inductive Stage
  | working
  | stopped
  | marked
  | closed
  deriving DecidableEq

/-- Where the writer thread stands. -/
inductive Writer
  | absent
  | creating
  | waiting
  | writing (draft : Draft)
  | finalizing
  | ending (terminal : Terminal) (liveComplete : Bool)
  | done

variable (rt : Runtime) (D : IncrementalDecoder)

/-- The stream, what was read from the child, and the file: its records, and the bytes of a line
that did not reach it whole. -/
structure State where
  capacity : ℕ
  threaded : Bool
  closing : Bool
  incomplete : Bool
  queue : List Item
  terminal : Option Terminal
  decoder : Option D.State
  received : List Bytes
  work : Work
  stage : Stage
  writer : Writer
  handle : Bool
  written : ℕ
  seq : ℕ
  entries : List Entry
  torn : ℕ

variable {D}

/-- Where a method returns to. -/
def returns (last : Bool) : Work := if last then .ended else .running

/-- A method is under way. -/
def Work.isInside : Work → Bool
  | .holding _ | .offering _ _ | .admitted _ _ _ => true
  | _ => false

/-- Where a method that raises returns to. -/
def Work.escape : Work → Work
  | .offering _ last | .admitted _ _ last => returns last
  | _ => .running

/-- The terminal record the writer finalizes with. -/
def State.terminalRecord (s : State D) (time : ℤ) : Terminal :=
  s.terminal.getD ⟨time, none, false⟩

/-- The file after `reached` bytes of a line of `length`. -/
def State.afterFailure (s : State D) (e : Entry) (reached length : ℕ) : State D :=
  { s with
    handle := false
    entries := if reached = length then s.entries ++ [e] else s.entries
    torn := if reached = length then 0 else reached }

/-- What the lifecycle thread does next. -/
inductive LifecycleStep (s : State D) : State D → Prop
  | stageStart (owner encoding : Text) (childPid timeoutSeconds : ℤ) (hstage : s.stage = .working)
      (hwork : s.work = .opened) :
    LifecycleStep s { s with
      decoder := some D.start
      work := .offering [.stageStart owner childPid timeoutSeconds encoding] false }
  | noDecoder (hstage : s.stage = .working) (hwork : s.work = .opened) :
    LifecycleStep s { s with incomplete := true, work := .running }
  | heartbeat (hstage : s.stage = .working) (hwork : s.work = .running) :
    LifecycleStep s { s with work := .offering [.heartbeat] false }
  | read (chunk : Bytes) (hstage : s.stage = .working) (hwork : s.work = .running)
      (hchunk : chunk ≠ []) :
    LifecycleStep s { s with received := s.received ++ [chunk], work := .holding chunk }
  | undecoded (chunk : Bytes) (hstage : s.stage = .working) (hwork : s.work = .holding chunk)
      (hdecoder : s.decoder = none) :
    LifecycleStep s { s with incomplete := true, work := .running }
  | fragment (chunk : Bytes) (d : D.State) (hstage : s.stage = .working)
      (hwork : s.work = .holding chunk) (hdecoder : s.decoder = some d) :
    LifecycleStep s { s with
      decoder := some (D.decode d chunk).2
      work := .offering (pieces (D.decode d chunk).1) false }
  | noEof (hstage : s.stage = .working) (hwork : s.work = .running) (hdecoder : s.decoder = none) :
    LifecycleStep s { s with work := .ended }
  | eof (d : D.State) (hstage : s.stage = .working) (hwork : s.work = .running)
      (hdecoder : s.decoder = some d) :
    LifecycleStep s { s with work := .offering (pieces (D.flush d)) true }
  | eofDegraded (hstage : s.stage = .working) (hwork : s.work = .running) :
    LifecycleStep s { s with incomplete := true, work := .ended }
  | refused (piece : Piece) (left : List Piece) (last : Bool) (hstage : s.stage = .working)
      (hwork : s.work = .offering (piece :: left) last)
      (hfull : s.threaded = false ∨ s.closing = true ∨ queueMaxRecords ≤ s.queue.length) :
    LifecycleStep s { s with incomplete := true, work := .offering left last }
  | admitted (time : ℤ) (piece : Piece) (left : List Piece) (last : Bool)
      (hstage : s.stage = .working) (hwork : s.work = .offering (piece :: left) last)
      (hthreaded : s.threaded = true) (hclosing : s.closing = false)
      (hroom : s.queue.length < queueMaxRecords) :
    LifecycleStep s { s with work := .admitted ⟨time, piece⟩ left last }
  | put (draft : Draft) (left : List Piece) (last : Bool) (hstage : s.stage = .working)
      (hwork : s.work = .admitted draft left last) (hroom : s.queue.length < s.capacity) :
    LifecycleStep s { s with queue := s.queue ++ [.record draft], work := .offering left last }
  | returned (last : Bool) (hstage : s.stage = .working) (hwork : s.work = .offering [] last) :
    LifecycleStep s { s with work := returns last }
  | degraded (decoder : Option D.State) (hstage : s.stage = .working)
      (hwork : s.work.isInside = true) :
    LifecycleStep s { s with incomplete := true, decoder := decoder, work := s.work.escape }
  | stopped (hstage : s.stage = .working) : LifecycleStep s { s with stage := .stopped }
  | marked (terminal : Terminal) (hstage : s.stage = .stopped) :
    LifecycleStep s { s with terminal := some terminal, closing := true, stage := .marked }
  | putTerminal (hstage : s.stage = .marked) (hroom : s.queue.length < s.capacity) :
    LifecycleStep s { s with queue := s.queue ++ [.terminal], stage := .closed }
  | fullTerminal (hstage : s.stage = .marked) (hfull : s.capacity ≤ s.queue.length) :
    LifecycleStep s { s with incomplete := true, stage := .closed }
  | closeDegraded (hstage : s.stage = .stopped ∨ s.stage = .marked) :
    LifecycleStep s { s with incomplete := true, stage := .closed }

/-- What the writer thread does next. -/
inductive WriterStep (s : State D) : State D → Prop
  | created (hwriter : s.writer = .creating) :
    WriterStep s { s with handle := true, writer := .waiting }
  | notCreated (hwriter : s.writer = .creating) :
    WriterStep s { s with incomplete := true, handle := false, writer := .waiting }
  | take (draft : Draft) (rest : List Item) (hwriter : s.writer = .waiting)
      (hqueue : s.queue = .record draft :: rest) :
    WriterStep s { s with queue := rest, writer := .writing draft }
  | takeTerminal (rest : List Item) (hwriter : s.writer = .waiting)
      (hqueue : s.queue = .terminal :: rest) :
    WriterStep s { s with
      queue := rest
      incomplete := s.incomplete || !rest.isEmpty
      writer := .finalizing }
  | skipped (draft : Draft) (hwriter : s.writer = .writing draft)
      (hskip : s.handle = false ∨ (Entry.optional s.seq draft).line rt = none ∨
        ∃ line, (Entry.optional s.seq draft).line rt = some line ∧
          maxBytes < s.written + line.length + terminalReserveBytes) :
    WriterStep s { s with incomplete := true, writer := .waiting }
  | wrote (draft : Draft) (line : Bytes) (hwriter : s.writer = .writing draft)
      (hhandle : s.handle = true) (hline : (Entry.optional s.seq draft).line rt = some line)
      (hfits : s.written + line.length + terminalReserveBytes ≤ maxBytes) :
    WriterStep s { s with
      entries := s.entries ++ [.optional s.seq draft]
      written := s.written + line.length
      seq := s.seq + 1
      writer := .waiting }
  | writeFailed (draft : Draft) (line : Bytes) (reached : ℕ) (hwriter : s.writer = .writing draft)
      (hhandle : s.handle = true) (hline : (Entry.optional s.seq draft).line rt = some line)
      (hfits : s.written + line.length + terminalReserveBytes ≤ maxBytes)
      (hreached : reached ≤ line.length) :
    WriterStep s { s.afterFailure (.optional s.seq draft) reached line.length with
      incomplete := true
      writer := .waiting }
  | decided (time : ℤ) (hwriter : s.writer = .finalizing) :
    WriterStep s { s with writer := .ending (s.terminalRecord time) !s.incomplete }
  | endSkipped (terminal : Terminal) (liveComplete : Bool)
      (hwriter : s.writer = .ending terminal liveComplete)
      (hskip : s.handle = false ∨ (Entry.stageEnd s.seq terminal liveComplete).line rt = none ∨
        ∃ line, (Entry.stageEnd s.seq terminal liveComplete).line rt = some line ∧
          maxBytes < s.written + line.length) :
    WriterStep s { s with handle := false, writer := .done }
  | endWrote (terminal : Terminal) (liveComplete : Bool) (line : Bytes)
      (hwriter : s.writer = .ending terminal liveComplete) (hhandle : s.handle = true)
      (hline : (Entry.stageEnd s.seq terminal liveComplete).line rt = some line)
      (hfits : s.written + line.length ≤ maxBytes) :
    WriterStep s { s with
      entries := s.entries ++ [.stageEnd s.seq terminal liveComplete]
      written := s.written + line.length
      seq := s.seq + 1
      handle := false
      writer := .done }
  | endFailed (terminal : Terminal) (liveComplete : Bool) (line : Bytes) (reached : ℕ)
      (hwriter : s.writer = .ending terminal liveComplete) (hhandle : s.handle = true)
      (hline : (Entry.stageEnd s.seq terminal liveComplete).line rt = some line)
      (hfits : s.written + line.length ≤ maxBytes) (hreached : reached ≤ line.length) :
    WriterStep s {
      s.afterFailure (.stageEnd s.seq terminal liveComplete) reached line.length with
      writer := .done }
  | crashed (hwriter : s.writer ≠ .absent) (hdone : s.writer ≠ .done) :
    WriterStep s { s with incomplete := true, handle := false, writer := .done }

/-- What happens next, on either thread. -/
inductive Step (s s' : State D) : Prop
  | lifecycle (h : LifecycleStep s s')
  | writer (h : WriterStep rt s s')

/-- After `open`: the writer thread is about to create the file, or there is none. -/
structure Opened (s : State D) : Prop where
  closing : s.closing = false
  queue : s.queue = []
  received : s.received = []
  work : s.work = .opened
  stage : s.stage = .working
  handle : s.handle = false
  written : s.written = 0
  seq : s.seq = 0
  entries : s.entries = []
  torn : s.torn = 0
  threads : (s.threaded = true ∧ s.incomplete = false ∧ s.capacity = queueMaxRecords + 1 ∧
      s.writer = .creating) ∨
    (s.threaded = false ∧ s.incomplete = true ∧ 0 < s.capacity ∧ s.writer = .absent)

/-- The states the two threads can reach. -/
def Reached (s : State D) : Prop := Reachable Opened (Step rt) s

end LiveStream

end AgentOrch
