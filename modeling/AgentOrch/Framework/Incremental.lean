import AgentOrch.Framework.Utf8

/-!
# Incremental decoders

A decoder that is fed piece by piece keeps what it cannot decode yet.  What it gave out, with what it
gives out at the end, is the text of all pieces together.  UTF-8 with replacement is such a decoder:
its state is the sequence that is open.
-/

namespace AgentOrch.Py

variable {σ : Type}

/-- What a decoder gives out for some pieces, and its state after them. -/
def feed (decode : σ → Bytes → Text × σ) : σ → List Bytes → Text × σ
  | s, [] => ([], s)
  | s, piece :: rest =>
    ((decode s piece).1 ++ (feed decode (decode s piece).2 rest).1,
      (feed decode (decode s piece).2 rest).2)

lemma feed_concat (decode : σ → Bytes → Text × σ) (piece : Bytes) :
    ∀ (pieces : List Bytes) (s : σ), feed decode s (pieces ++ [piece]) =
      ((feed decode s pieces).1 ++ (decode (feed decode s pieces).2 piece).1,
        (decode (feed decode s pieces).2 piece).2)
  | [], s => by simp [feed]
  | first :: rest, s => by
      rw [List.cons_append, feed, feed_concat decode piece rest]
      simp [feed, List.append_assoc]

/-- `codecs.getincrementaldecoder(encoding)(errors="replace")`, with the text `whole` of all bytes. -/
structure IncrementalDecoder where
  State : Type
  start : State
  decode : State → Bytes → Text × State
  flush : State → Text
  whole : Bytes → Text
  whole_nil : whole [] = []
  feed_whole : ∀ pieces, (feed decode start pieces).1 ++ flush (feed decode start pieces).2 =
    whole pieces.flatten

namespace IncrementalDecoder

variable (D : IncrementalDecoder)

/-- What is given out for the pieces before the end. -/
def output (pieces : List Bytes) : Text := (feed D.decode D.start pieces).1

/-- The state after the pieces. -/
def after (pieces : List Bytes) : D.State := (feed D.decode D.start pieces).2

@[simp] lemma output_nil : D.output [] = [] := rfl

@[simp] lemma after_nil : D.after [] = D.start := rfl

lemma output_concat (pieces : List Bytes) (piece : Bytes) :
    D.output (pieces ++ [piece]) = D.output pieces ++ (D.decode (D.after pieces) piece).1 := by
  rw [output, feed_concat]
  rfl

lemma after_concat (pieces : List Bytes) (piece : Bytes) :
    D.after (pieces ++ [piece]) = (D.decode (D.after pieces) piece).2 := by
  rw [after, feed_concat]
  rfl

lemma output_append_flush (pieces : List Bytes) :
    D.output pieces ++ D.flush (D.after pieces) = D.whole pieces.flatten :=
  D.feed_whole pieces

end IncrementalDecoder

/-! ## UTF-8 -/

/-- What one octet completes, and the sequence it leaves open. -/
def decodeStep : Option Pending → Byte → List (Option CodePoint) × Option Pending
  | none, b =>
    match lead b with
    | .char c => ([some c], none)
    | .sequence p => ([], some p)
    | .invalid => ([none], none)
  | some p, b =>
    if p.lo ≤ b.val ∧ b.val ≤ p.hi then
      let acc := p.acc * 64 + (b.val - 0x80)
      if p.need ≤ 1 then ([some (Fin.ofNat _ acc)], none)
      else ([], some ⟨p.need - 1, acc, 0x80, 0xBF⟩)
    else
      match lead b with
      | .char c => ([none, some c], none)
      | .sequence q => ([none], some q)
      | .invalid => ([none, none], none)

/-- What a piece completes, and the sequence it leaves open. -/
def decodePiece : Option Pending → Bytes → List (Option CodePoint) × Option Pending
  | p, [] => ([], p)
  | p, b :: bs =>
    ((decodeStep p b).1 ++ (decodePiece (decodeStep p b).2 bs).1,
      (decodePiece (decodeStep p b).2 bs).2)

lemma decodeFrom_cons (p : Option Pending) (b : Byte) (bs : Bytes) :
    decodeFrom p (b :: bs) = (decodeStep p b).1 ++ decodeFrom (decodeStep p b).2 bs := by
  cases p with
  | none => cases hlead : lead b <;> simp [decodeFrom, decodeStep, hlead]
  | some p =>
      by_cases hrange : p.lo ≤ b.val ∧ b.val ≤ p.hi
      · rw [decodeFrom, decodeStep, if_pos hrange, if_pos hrange]
        by_cases hneed : p.need ≤ 1
        · simp only [if_pos hneed, List.singleton_append]
        · simp only [if_neg hneed, List.nil_append]
      · cases hlead : lead b <;> simp [decodeFrom, decodeStep, hrange, hlead]

/-- A piece of an octet string is decoded from the sequence that is open before it. -/
lemma decodeFrom_append (bs' : Bytes) : ∀ (bs : Bytes) (p : Option Pending),
    decodeFrom p (bs ++ bs') = (decodePiece p bs).1 ++ decodeFrom (decodePiece p bs).2 bs'
  | [], p => by simp [decodePiece]
  | b :: bs, p => by
      rw [List.cons_append, decodeFrom_cons, decodeFrom_append bs' bs]
      simp [decodePiece]

/-- The replacement for what is ill-formed. -/
def replaced (pieces : List (Option CodePoint)) : Text := pieces.map (Option.getD · 0xFFFD)

lemma replaced_append (pieces pieces' : List (Option CodePoint)) :
    replaced (pieces ++ pieces') = replaced pieces ++ replaced pieces' :=
  List.map_append

/-- One piece with replacement. -/
def decodeReplacing (p : Option Pending) (bs : Bytes) : Text × Option Pending :=
  (replaced (decodePiece p bs).1, (decodePiece p bs).2)

lemma feed_decodeReplacing : ∀ (pieces : List Bytes) (p : Option Pending),
    (feed decodeReplacing p pieces).1 ++ replaced (decodeFrom (feed decodeReplacing p pieces).2 []) =
      replaced (decodeFrom p pieces.flatten)
  | [], p => rfl
  | piece :: rest, p => by
      rw [List.flatten_cons, decodeFrom_append, replaced_append]
      simp only [feed, decodeReplacing, List.append_assoc]
      exact congrArg (replaced (decodePiece p piece).1 ++ ·) (feed_decodeReplacing rest _)

/-- `utf-8` -/
def utf8Decoder : IncrementalDecoder where
  State := Option Pending
  start := none
  decode := decodeReplacing
  flush p := replaced (decodeFrom p [])
  whole := decodeReplace
  whole_nil := rfl
  feed_whole pieces := feed_decodeReplacing pieces none

end AgentOrch.Py
