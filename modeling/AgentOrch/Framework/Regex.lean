import AgentOrch.Framework.Text

/-!
# Backtracking patterns

The subset of Python's `re` that the modelled program uses: character classes, concatenation,
alternation, greedy repetition, the multi-line anchors `^` and `$`, the word boundary `\b` and
one capturing group.  The matcher is the backtracking one, in continuation style: the first
way through the pattern wins, so `search` and `findall` return what `re` returns.

Whether a character is a word character is Unicode data and stays a parameter.
-/

namespace AgentOrch

open Py

inductive Regex
  | empty
  | set (p : CodePoint → Bool)
  | seq (r s : Regex)
  | alt (r s : Regex)
  | star (r : Regex)
  | lineStart
  | lineEnd
  | wordBoundary
  | group (r : Regex)

namespace Regex

/-- A position in a text: what lies before it, nearest character first, and what follows. -/
structure Cursor where
  before : Text
  after : Text

namespace Cursor

/-- The whole text a cursor stands in. -/
def text (c : Cursor) : Text := c.before.reverse ++ c.after

def start (t : Text) : Cursor := ⟨[], t⟩

@[simp] lemma text_start (t : Text) : (start t).text = t := rfl

def next (c : Cursor) : Cursor :=
  match c.after with
  | [] => c
  | d :: rest => ⟨d :: c.before, rest⟩

@[simp] lemma text_next (c : Cursor) : c.next.text = c.text := by
  obtain ⟨before, after⟩ := c
  cases after <;> simp [next, text]

def atLineStart (c : Cursor) : Bool := c.before.head?.all (· = 0x0A)

def atLineEnd (c : Cursor) : Bool := c.after.head?.all (· = 0x0A)

/-- What was read between `c` and a later cursor `d`. -/
def upTo (c d : Cursor) : Text := c.after.take (c.after.length - d.after.length)

lemma upTo_subset (c d : Cursor) : c.upTo d ⊆ c.text := fun _ h =>
  List.mem_append_right _ (List.mem_of_mem_take h)

end Cursor

/-! ## Matching -/

/-- `r*`: one more round if it makes progress, then what follows. -/
def starLoop {α : Type} (step : Cursor → Option Text → (Cursor → Option Text → Option α) → Option α) :
    ℕ → Cursor → Option Text → (Cursor → Option Text → Option α) → Option α
  | 0, c, cap, k => k c cap
  | n + 1, c, cap, k =>
    (step c cap fun d cap' =>
      if d.after.length < c.after.length then starLoop step n d cap' k else none).orElse
        fun _ => k c cap

/-- The backtracking matcher; `cap` is the text of the capturing group, once it has matched. -/
def exec {α : Type} (word : CodePoint → Bool) :
    Regex → Cursor → Option Text → (Cursor → Option Text → Option α) → Option α
  | .empty, c, cap, k => k c cap
  | .set p, c, cap, k =>
    match c.after with
    | [] => none
    | d :: _ => if p d then k c.next cap else none
  | .seq r s, c, cap, k => exec word r c cap fun d cap' => exec word s d cap' k
  | .alt r s, c, cap, k => (exec word r c cap k).orElse fun _ => exec word s c cap k
  | .star r, c, cap, k => starLoop (exec word r) c.after.length c cap k
  | .lineStart, c, cap, k => if c.atLineStart then k c cap else none
  | .lineEnd, c, cap, k => if c.atLineEnd then k c cap else none
  | .wordBoundary, c, cap, k =>
    if c.before.head?.any word != c.after.head?.any word then k c cap else none
  | .group r, c, cap, k => exec word r c cap fun d _ => k d (some (c.upTo d))

/-- A match from the cursor on: where it ends, and the captured text. -/
def matchAt (word : CodePoint → Bool) (r : Regex) (c : Cursor) : Option (Cursor × Option Text) :=
  exec word r c none fun d cap => some (d, cap)

/-- `pattern.match(text)`, giving the captured text. -/
def matchStart (word : CodePoint → Bool) (r : Regex) (t : Text) : Option (Option Text) :=
  (matchAt word r (.start t)).map Prod.snd

/-- The captures of all matches that do not overlap, from the cursor on. -/
def findallFrom (word : CodePoint → Bool) (r : Regex) : ℕ → Cursor → List Text
  | 0, _ => []
  | fuel + 1, c =>
    match matchAt word r c with
    | some (d, cap) =>
      let rest := if d.after.length < c.after.length then d else c.next
      cap.toList ++ if c.after.isEmpty then [] else findallFrom word r fuel rest
    | none => if c.after.isEmpty then [] else findallFrom word r fuel c.next

/-- `pattern.findall(text)` for a pattern with one group. -/
def findall (word : CodePoint → Bool) (r : Regex) (t : Text) : List Text :=
  findallFrom word r (t.length + 1) (.start t)

/-- The first match at the cursor or after it. -/
def searchFrom (word : CodePoint → Bool) (r : Regex) : ℕ → Cursor → Option (Option Text)
  | 0, _ => none
  | fuel + 1, c =>
    match matchAt word r c with
    | some (_, cap) => some cap
    | none => if c.after.isEmpty then none else searchFrom word r fuel c.next

/-- `pattern.search(text)`, giving the captured text. -/
def search (word : CodePoint → Bool) (r : Regex) (t : Text) : Option (Option Text) :=
  searchFrom word r (t.length + 1) (.start t)

/-- `pattern.search(text) is not None`. -/
def found (word : CodePoint → Bool) (r : Regex) (t : Text) : Bool := (search word r t).isSome

/-! ## Building patterns -/

def concat : List Regex → Regex
  | [] => .empty
  | [r] => r
  | r :: rest => .seq r (concat rest)

def oneOf : List Regex → Regex
  | [] => .set fun _ => false
  | [r] => r
  | r :: rest => .alt r (oneOf rest)

/-- `r?` -/
def opt (r : Regex) : Regex := .alt r .empty

/-- `r+` -/
def plus (r : Regex) : Regex := .seq r (.star r)

/-- A literal text. -/
def lit (t : Text) : Regex := concat (t.map fun c => .set (· = c))

/-- The characters `c` matches under `IGNORECASE`: the ASCII case pair, and the four letters
outside ASCII whose simple case mapping is an ASCII letter. -/
def sameLetter (c d : CodePoint) : Bool :=
  let lower (e : CodePoint) : ℕ :=
    if 0x41 ≤ e.val ∧ e.val ≤ 0x5A then e.val + 0x20
    else if e.val = 0x130 ∨ e.val = 0x131 then 0x69
    else if e.val = 0x17F then 0x73
    else if e.val = 0x212A then 0x6B
    else e.val
  lower c == lower d

/-- A literal text under `IGNORECASE`. -/
def litI (t : Text) : Regex := concat (t.map fun c => .set (sameLetter c))

/-- `[...]` of the given characters. -/
def charIn (t : Text) : Regex := .set fun c => decide (c ∈ t)

/-- `.` without `DOTALL`. -/
def dot : Regex := .set (· ≠ 0x0A)

/-! ## A capture comes from the text

Whatever a pattern captures was read off the text it ran on. -/

/-- The captured text, if any, is made of characters of `t`. -/
def CaptureIn (t : Text) (cap : Option Text) : Prop := ∀ s, cap = some s → s ⊆ t

lemma captureIn_none (t : Text) : CaptureIn t none := by
  intro s h; cases h

section
variable {α : Type} {word : CodePoint → Bool}

private lemma of_orElse {a : Option α} {b : Unit → Option α} {res : α}
    (h : a.orElse b = some res) : a = some res ∨ b () = some res := by
  cases a with
  | none => exact .inr h
  | some x => exact .inl h

/-- The continuation is only ever called inside the same text, with a capture from it. -/
def Faithful (step : Cursor → Option Text → (Cursor → Option Text → Option α) → Option α) : Prop :=
  ∀ {c : Cursor} {cap : Option Text} {k : Cursor → Option Text → Option α} {res : α},
    CaptureIn c.text cap → step c cap k = some res →
      ∃ d cap', d.text = c.text ∧ CaptureIn c.text cap' ∧ k d cap' = some res

lemma Faithful.starLoop {step : Cursor → Option Text → (Cursor → Option Text → Option α) → Option α}
    (hstep : Faithful step) (n : ℕ) : Faithful (starLoop step n) := by
  induction n with
  | zero => intro c cap k res hcap h; exact ⟨c, cap, rfl, hcap, h⟩
  | succ n ih =>
      intro c cap k res hcap h
      rw [Regex.starLoop] at h
      rcases of_orElse h with h | h
      · obtain ⟨d, cap', htext, hcap', hk⟩ := hstep hcap h
        split at hk
        · obtain ⟨e, cap'', htext', hcap'', hk'⟩ := ih (htext ▸ hcap') hk
          exact ⟨e, cap'', htext'.trans htext, htext ▸ hcap'', hk'⟩
        · cases hk
      · exact ⟨c, cap, rfl, hcap, h⟩

lemma exec_faithful (r : Regex) : Faithful (exec (α := α) word r) := by
  induction r with
  | empty => intro c cap k res hcap h; exact ⟨c, cap, rfl, hcap, h⟩
  | set p =>
      intro c cap k res hcap h
      simp only [exec] at h
      split at h
      · cases h
      · split at h
        · exact ⟨c.next, cap, c.text_next, hcap, h⟩
        · cases h
  | seq r s ihr ihs =>
      intro c cap k res hcap h
      obtain ⟨d, cap', htext, hcap', hs⟩ := ihr hcap h
      obtain ⟨e, cap'', htext', hcap'', hk⟩ := ihs (htext ▸ hcap') hs
      exact ⟨e, cap'', htext'.trans htext, htext ▸ hcap'', hk⟩
  | alt r s ihr ihs =>
      intro c cap k res hcap h
      rw [exec] at h
      rcases of_orElse h with h | h
      · exact ihr hcap h
      · exact ihs hcap h
  | star r ih => intro c cap k res hcap h; exact ih.starLoop _ hcap h
  | lineStart =>
      intro c cap k res hcap h
      rw [exec] at h
      split at h
      · exact ⟨c, cap, rfl, hcap, h⟩
      · cases h
  | lineEnd =>
      intro c cap k res hcap h
      rw [exec] at h
      split at h
      · exact ⟨c, cap, rfl, hcap, h⟩
      · cases h
  | wordBoundary =>
      intro c cap k res hcap h
      rw [exec] at h
      split at h
      · exact ⟨c, cap, rfl, hcap, h⟩
      · cases h
  | group r ih =>
      intro c cap k res hcap h
      obtain ⟨d, -, htext, -, hk⟩ := ih hcap h
      refine ⟨d, some (c.upTo d), htext, ?_, hk⟩
      rintro s ⟨⟩
      exact c.upTo_subset d

end

variable {word : CodePoint → Bool} {r : Regex}

lemma matchAt_capture {c d : Cursor} {cap : Option Text} (h : matchAt word r c = some (d, cap)) :
    d.text = c.text ∧ CaptureIn c.text cap := by
  obtain ⟨d', cap', htext, hcap, hk⟩ := exec_faithful r (captureIn_none _) h
  obtain ⟨rfl, rfl⟩ := Prod.mk.injEq .. ▸ Option.some.injEq .. ▸ hk
  exact ⟨htext, hcap⟩

/-- A capture at the start of a text is made of its characters. -/
lemma matchStart_subset {t s : Text} (h : matchStart word r t = some (some s)) : s ⊆ t := by
  obtain ⟨⟨d, cap⟩, hm, hcap⟩ := Option.map_eq_some_iff.mp h
  exact (matchAt_capture hm).2 s hcap

lemma findallFrom_subset (n : ℕ) : ∀ {c : Cursor} {s : Text},
    s ∈ findallFrom word r n c → s ⊆ c.text := by
  induction n with
  | zero => intro c s h; simp [findallFrom] at h
  | succ n ih =>
      intro c s h
      simp only [findallFrom] at h
      split at h
      · next d cap hm =>
        obtain ⟨htext, hcap⟩ := matchAt_capture hm
        rcases List.mem_append.mp h with h | h
        · exact hcap s (by simpa using h)
        · split at h
          · cases h
          · have := ih h
            split at this
            · exact htext ▸ this
            · simpa using this
      · split at h
        · cases h
        · simpa using ih h

/-- Every capture `findall` returns is made of characters of the text. -/
lemma findall_subset {t s : Text} (h : s ∈ findall word r t) : s ⊆ t :=
  findallFrom_subset _ h

end Regex

end AgentOrch
