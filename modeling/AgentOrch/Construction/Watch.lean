import AgentOrch.Construction.Exceptions
import AgentOrch.Framework.Base64
import AgentOrch.Framework.JsonText

/-!
# One window over the live stream

`read_window` reads one bounded window of complete records off a stream that others append to.  The
size of the stream is taken once, before anything is read, and what it answers depends on the bytes
below that size only.

What the system calls return is an argument of it: a read may return fewer bytes than it was asked
for, and may see bytes that were appended meanwhile.
-/

namespace AgentOrch

open Py Json

namespace Watch

/-! ## Bounds -/

/-- `LIVE_MAX_BYTES` -/
def liveMaxBytes : ℕ := 8192

/-- `WATCH_RECORD_MAX_BYTES` -/
def recordMaxBytes : ℕ := liveMaxBytes

/-- `WATCH_MIN_BYTES` -/
def minBytes : ℕ := 2 * recordMaxBytes

/-! ## Results -/

/-- The codes of `WATCH_ERROR_CODES` that a cursor or a window can fail with. -/
inductive Code
  | noLiveStream
  | windowTooSmall
  | cursorMalformed
  | cursorOutOfRange
  | cursorInteriorRecord
  | oversizedRecord
  | unterminatedTail
  | streamTruncated
  deriving DecidableEq

structure WatchError where
  code : Code
  message : Text
  snapshotBytes : Option ℕ
  deriving DecidableEq

/-- What is raised: a named failure, a number with too many digits, or a failed assertion. -/
inductive Raised
  | named (e : WatchError)
  | valueError
  | assertion
  deriving DecidableEq

structure Window where
  records : List Text
  nextOffset : ℕ
  eof : Bool
  snapshotBytes : ℕ
  deriving DecidableEq

/-- An open stream: its size when it was opened, and what the reads of the call return, numbered in
their order.  The first number is that of the probe of one byte. -/
structure Descriptor where
  size : ℕ
  pread : (call count offset : ℕ) → Bytes

/-! ## Cursors -/

/-- `format_cursor` -/
def formatCursor (runToken : Text) (offset : ℕ) : Text := runToken ++ ":" ++ natText offset

/-- `parse_cursor` -/
def parseCursor (rt : Runtime) (raw : Text) : Except Raised (Text × ℕ) :=
  let malformed : Raised := .named ⟨.cursorMalformed,
    "cursor must be <run_token>:<offset>, got " ++ reprValue rt (.str raw), none⟩
  match splitFirst ":" raw with
  | none => .error malformed
  | some (token, offset) =>
    if token.isEmpty || offset.isEmpty || !offset.all isAsciiDigit then .error malformed
    else if maxIntDigits < offset.length then .error .valueError
    else .ok (token, digitsValue offset)

lemma splitFirst_colon {token rest : Text} (h : (0x3A : CodePoint) ∉ token) :
    splitFirst ":" (token ++ ":" ++ rest) = some (token, rest) := by
  induction token with
  | nil => rfl
  | cons c token ih =>
      rw [List.mem_cons, not_or] at h
      have hne : (":" : Text).isPrefixOf (c :: (token ++ ":" ++ rest)) = false := by
        have hc : ((0x3A : CodePoint) == c) = false := by simpa using h.1
        show (((0x3A : CodePoint) == c) && _) = false
        rw [hc]
        rfl
      show splitFirst ":" (c :: (token ++ ":" ++ rest)) = _
      rw [splitFirst, hne, if_neg Bool.false_ne_true, ih h.2]
      rfl

/-- A cursor reads back, unless it has more digits than `int` takes. -/
lemma parseCursor_formatCursor (rt : Runtime) {runToken : Text} {offset : ℕ}
    (htoken : runToken ≠ []) (hcolon : (0x3A : CodePoint) ∉ runToken)
    (hdigits : (natText offset).length ≤ maxIntDigits) :
    parseCursor rt (formatCursor runToken offset) = .ok (runToken, offset) := by
  have hall : (natText offset).all isAsciiDigit = true :=
    List.all_eq_true.mpr fun c hc => isAsciiDigit_natText hc
  rw [parseCursor, formatCursor, splitFirst_colon hcolon]
  simp [htoken, natText_ne_nil, hall, hdigits, digitsValue_natText]

/-! ## Reading -/

/-- The loop that reads up to a length; a read that returns nothing ends it. -/
def gather (fd : Descriptor) (toRead cursor : ℕ) (call : ℕ) (buf : Bytes) : Option Bytes :=
  if toRead ≤ buf.length then some buf
  else
    match fd.pread call (toRead - buf.length) (cursor + buf.length) with
    | [] => none
    | b :: chunk => gather fd toRead cursor (call + 1) (buf ++ b :: chunk)
termination_by toRead - buf.length
decreasing_by
  simp only [List.length_append, List.length_cons]
  omega

/-! ## Framing -/

/-- `\n` -/
def newline : Byte := 0x0A

/-- The first line of a buffer, with its newline, and what follows it. -/
def cutLine : Bytes → Option (Bytes × Bytes)
  | [] => none
  | b :: rest =>
    if b = newline then some ([b], rest)
    else (cutLine rest).map fun (line, after) => (b :: line, after)

/-- A line of a stream, with its newline. -/
def IsLine (line : Bytes) : Prop := ∃ body, line = body ++ [newline] ∧ newline ∉ body

lemma cutLine_eq_some {buf line after : Bytes} (h : cutLine buf = some (line, after)) :
    buf = line ++ after ∧ IsLine line := by
  induction buf generalizing line with
  | nil => cases h
  | cons b rest ih =>
      rw [cutLine] at h
      split at h
      next hb =>
        obtain ⟨rfl, rfl⟩ := Prod.mk.inj (Option.some.inj h)
        exact ⟨rfl, [], by rw [hb]; rfl, List.not_mem_nil⟩
      next hb =>
        obtain ⟨⟨line', after'⟩, hcut, heq⟩ := Option.map_eq_some_iff.mp h
        obtain ⟨rfl, rfl⟩ := Prod.mk.inj heq
        obtain ⟨hrest, body, hline, hbody⟩ := ih hcut
        refine ⟨by rw [hrest]; rfl, b :: body, by rw [hline]; rfl, ?_⟩
        rw [List.mem_cons, not_or]
        exact ⟨Ne.symm hb, hbody⟩

lemma cutLine_eq_none {buf : Bytes} (h : cutLine buf = none) : newline ∉ buf := by
  induction buf with
  | nil => exact List.not_mem_nil
  | cons b rest ih =>
      rw [cutLine] at h
      split at h
      · cases h
      next hb =>
        rw [List.mem_cons, not_or]
        exact ⟨Ne.symm hb, ih (Option.map_eq_none_iff.mp h)⟩

lemma IsLine.length_pos {line : Bytes} (h : IsLine line) : 0 < line.length := by
  obtain ⟨body, rfl, -⟩ := h
  simp

/-- The lines framed, and whether a line that is too long ended the framing. -/
structure Framing where
  frames : List Bytes
  oversized : Bool
  deriving DecidableEq

/-- The loop that frames lines from the left. -/
def frameLines (buf : Bytes) : Framing :=
  match _h : cutLine buf with
  | none => ⟨[], false⟩
  | some (line, after) =>
    if recordMaxBytes < line.length then ⟨[], true⟩
    else
      let rest := frameLines after
      { rest with frames := line :: rest.frames }
termination_by buf.length
decreasing_by
  obtain ⟨hbuf, hline⟩ := cutLine_eq_some _h
  have hpos := hline.length_pos
  rw [hbuf, List.length_append]
  omega

lemma frameLines_of_none {buf : Bytes} (h : cutLine buf = none) : frameLines buf = ⟨[], false⟩ := by
  rw [frameLines]
  split
  · rfl
  next hsome =>
    rw [h] at hsome
    cases hsome

lemma frameLines_of_some {buf line after : Bytes} (h : cutLine buf = some (line, after)) :
    frameLines buf =
      if recordMaxBytes < line.length then ⟨[], true⟩
      else { frameLines after with frames := line :: (frameLines after).frames } := by
  rw [frameLines]
  split
  next hnone =>
    rw [h] at hnone
    cases hnone
  next hsome =>
    obtain ⟨rfl, rfl⟩ := Prod.mk.inj (Option.some.inj (h.symm.trans hsome))
    rfl

/-! ## One window -/

/-- The rows that say what a framed window comes to. -/
def judge (cursor toRead size : ℕ) (framing : Framing) : Except Raised Window :=
  let pos := framing.frames.flatten.length
  let remainder := toRead - pos
  let reachedSnapshotEnd := decide (cursor + toRead = size)
  let fail (code : Code) (message : Text) : Except Raised Window :=
    .error (.named ⟨code, message, some size⟩)
  if !framing.frames.isEmpty then
    let nextOffset := cursor + pos
    if cursor < nextOffset then
      .ok ⟨framing.frames.map Base64.encode, nextOffset, reachedSnapshotEnd, size⟩
    else .error .assertion
  else if framing.oversized then
    fail .oversizedRecord ("record at offset " ++ natText cursor ++ " exceeds " ++
      natText recordMaxBytes ++ " bytes")
  else if remainder = 0 then .ok ⟨[], cursor, true, size⟩
  else if recordMaxBytes ≤ remainder then
    fail .oversizedRecord ("unterminated span of " ++ natText remainder ++ " bytes at offset " ++
      natText cursor ++ " cannot be completed within " ++ natText recordMaxBytes ++ " bytes")
  else if reachedSnapshotEnd then
    fail .unterminatedTail (natText remainder ++ " unterminated bytes at the " ++ natText size ++
      "-byte snapshot end")
  else .error .assertion

/-- `read_window`; a stream that cannot be found has no descriptor. -/
def readWindow (livePath : Text) (stream : Option Descriptor) (cursorOffset windowBytes : ℕ) :
    Except Raised Window :=
  if windowBytes < minBytes then
    .error (.named ⟨.windowTooSmall, "--max-bytes must be at least " ++ natText minBytes ++
      ", got " ++ natText windowBytes, none⟩)
  else
    match stream with
    | none => .error (.named ⟨.noLiveStream, "no live stream at " ++ livePath, none⟩)
    | some fd =>
      let size := fd.size
      if size < cursorOffset then
        .error (.named ⟨.cursorOutOfRange, "cursor offset " ++ natText cursorOffset ++
          " is past the snapshot end " ++ natText size, some size⟩)
      else if 0 < cursorOffset ∧ fd.pread 0 1 (cursorOffset - 1) ≠ [newline] then
        .error (.named ⟨.cursorInteriorRecord, "cursor offset " ++ natText cursorOffset ++
          " is inside a record", some size⟩)
      else
        let toRead := min windowBytes (size - cursorOffset)
        match gather fd toRead cursorOffset 1 [] with
        | none =>
          .error (.named ⟨.streamTruncated, "stream shrank below the " ++ natText size ++
            "-byte snapshot while reading", some size⟩)
        | some buf => judge cursorOffset toRead size (frameLines buf)

/-! ## A stream and its reader -/

/-- What happens around a reader that passes each cursor it is given to its next call: bytes are
appended, or it asks for a window.  During a call every read may see more bytes appended, and may
return fewer bytes than it was asked for, but one at least. -/
inductive Event
  | append (bytes : Bytes)
  | call (windowBytes : ℕ) (during : List (Bytes × ℕ))

/-- The stream, the cursor of the reader, and the records it was given. -/
structure Session where
  file : Bytes
  cursor : ℕ
  records : List Text

/-- The bytes appended during a call. -/
def appended (during : List (Bytes × ℕ)) : Bytes := (during.map Prod.fst).flatten

/-- The stream as a call opens it. -/
def opened (file : Bytes) (during : List (Bytes × ℕ)) : Descriptor where
  size := file.length
  pread call count offset :=
    let now := file ++ appended (during.take (call + 1))
    let most := match during[call]? with
      | some (_, most) => min count (most + 1)
      | none => count
    (now.drop offset).take most

/-- A call that fails moves nothing. -/
def Session.step (livePath : Text) (s : Session) : Event → Session
  | .append bytes => { s with file := s.file ++ bytes }
  | .call windowBytes during =>
    match readWindow livePath (some (opened s.file during)) s.cursor windowBytes with
    | .ok w => ⟨s.file ++ appended during, w.nextOffset, s.records ++ w.records⟩
    | .error _ => { s with file := s.file ++ appended during }

/-- A reader that starts at the beginning. -/
def run (livePath : Text) (file : Bytes) (events : List Event) : Session :=
  events.foldl (Session.step livePath) ⟨file, 0, []⟩

end Watch

end AgentOrch
