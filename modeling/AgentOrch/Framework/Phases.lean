import Mathlib.Data.List.Infix
import Mathlib.Data.List.TakeWhile
import Mathlib.Tactic.Common
import Mathlib.Tactic.Ring

/-!
# Lists that alternate between two kinds

A list whose items are of two kinds falls into maximal segments of one kind.  If such segments are
short, and a measure of the items of the first kind drops from the last one before a segment of
the second kind to every one in the next segment, then the list is short: its length is bounded by
the segment length and by the measure at the first change of kind.
-/

namespace AgentOrch.Phases

variable {ι : Type} {p : ι → Bool} {measure : ι → ℕ} {n : ℕ}

/-- Segments of one kind have at most `n` items, and the measure drops across every segment of
items that do not satisfy `p`. -/
structure Shrinking (p : ι → Bool) (measure : ι → ℕ) (n : ℕ) (l : List ι) : Prop where
  short : ∀ seg, seg <:+: l → ∀ k, (∀ x ∈ seg, p x = k) → seg.length ≤ n
  drops : ∀ pre b cs bs e post, l = pre ++ b :: (cs ++ (bs ++ e :: post)) → p b = true →
    cs ≠ [] → (∀ c ∈ cs, p c = false) → (∀ x ∈ bs, p x = true) → p e = true →
      measure e < measure b

/-- A list begins with a segment of the given kind, and goes on with another kind or ends. -/
lemma segment (k : Bool) (l : List ι) : ∃ seg rest, l = seg ++ rest ∧
    (∀ x ∈ seg, p x = k) ∧ ∀ y ys, rest = y :: ys → p y = !k := by
  refine ⟨l.takeWhile (p · == k), l.dropWhile (p · == k),
    (List.takeWhile_append_dropWhile).symm, fun x hx => by simpa using List.mem_takeWhile_imp hx,
    fun y ys hrest => ?_⟩
  have hne : l.dropWhile (p · == k) ≠ [] := by simp [hrest]
  have hhead := List.head_dropWhile_not (p · == k) hne
  simp only [hrest, List.head_cons] at hhead
  cases hy : p y <;> cases k <;> simp_all

namespace Shrinking

variable {l : List ι}

lemma left_of_append {l' : List ι} (h : Shrinking p measure n (l ++ l')) :
    Shrinking p measure n l := by
  refine ⟨fun seg hseg => h.short seg (hseg.trans ⟨[], l', rfl⟩), ?_⟩
  intro pre b cs bs e post hl
  refine h.drops pre b cs bs e (post ++ l') ?_
  rw [hl]
  simp

/-- From an item of the first kind that is followed by one of the second, the rest of the list is
bounded by its measure. -/
theorem tail_length_le (h : Shrinking p measure n l) :
    ∀ (m : ℕ) (pre : List ι) (b c : ι) (post : List ι), l = pre ++ b :: c :: post →
      p b = true → p c = false → measure b ≤ m →
        (c :: post).length ≤ 2 * n * m + n := by
  intro m
  induction m with
  | zero =>
      intro pre b c post hl hb hc hm
      obtain ⟨cs, rest, hpost, hcs, hrest⟩ := segment (p := p) false post
      have hsegment : (c :: cs).length ≤ n := by
        refine h.short (c :: cs) ⟨pre ++ [b], rest, ?_⟩ false ?_
        · rw [hl, hpost]
          simp
        · simpa using ⟨hc, hcs⟩
      cases rest with
      | nil => simpa [hpost] using hsegment
      | cons e rest =>
          have hdrop := h.drops pre b (c :: cs) [] e rest (by rw [hl, hpost]; simp) hb (by simp)
            (by simpa using ⟨hc, hcs⟩) (by simp) (by simpa using hrest e rest rfl)
          omega
  | succ m ih =>
      intro pre b c post hl hb hc hm
      obtain ⟨cs, rest, hpost, hcs, hrest⟩ := segment (p := p) false post
      have hsegment : (c :: cs).length ≤ n := by
        refine h.short (c :: cs) ⟨pre ++ [b], rest, ?_⟩ false ?_
        · rw [hl, hpost]
          simp
        · simpa using ⟨hc, hcs⟩
      obtain ⟨bs, rest', hrest', hbs, hturn⟩ := segment (p := p) true rest
      have hsegment' : bs.length ≤ n := by
        refine h.short bs ⟨pre ++ b :: c :: cs, rest', ?_⟩ true hbs
        rw [hl, hpost, hrest']
        simp
      have hlen : (c :: post).length = (c :: cs).length + bs.length + rest'.length := by
        rw [hpost, hrest']
        simp only [List.length_cons, List.length_append]
        omega
      have hgrow : 2 * n * (m + 1) + n = 2 * n * m + n + 2 * n := by ring
      cases rest' with
      | nil =>
          simp only [List.length_nil] at hlen
          omega
      | cons c' post' =>
          have hc' : p c' = false := by simpa using hturn c' post' rfl
          rcases List.eq_nil_or_concat bs with rfl | ⟨bs, b', rfl⟩
          · have := hrest c' post' (by simpa using hrest')
            rw [hc'] at this
            cases this
          · have hb' : p b' = true := hbs b' (by simp)
            have hdrop := h.drops pre b (c :: cs) bs b' (c' :: post')
              (by rw [hl, hpost, hrest']; simp) hb (by simp) (by simpa using ⟨hc, hcs⟩)
              (fun x hx => hbs x (by simp [hx])) hb'
            have htail := ih (pre ++ b :: c :: (cs ++ bs)) b' c' post'
              (by rw [hl, hpost, hrest']; simp) hb' hc' (by omega)
            omega

/-- A list without a turn from the first kind to the second is two segments. -/
theorem length_le_of_no_turn (h : Shrinking p measure n l)
    (hturn : ∀ pre b c post, l = pre ++ b :: c :: post → p b = true → p c = true) :
    l.length ≤ 2 * n := by
  obtain ⟨cs, rest, hl, hcs, hrest⟩ := segment (p := p) false l
  have hsegment : cs.length ≤ n := h.short cs ⟨[], rest, by simp [hl]⟩ false hcs
  obtain ⟨bs, rest', hrest', hbs, hend⟩ := segment (p := p) true rest
  have hsegment' : bs.length ≤ n :=
    h.short bs ⟨cs, rest', by rw [hl, hrest']; simp⟩ true hbs
  have hnil : rest' = [] := by
    cases rest' with
    | nil => rfl
    | cons c post =>
        have hc : p c = false := by simpa using hend c post rfl
        rcases List.eq_nil_or_concat bs with rfl | ⟨bs, b, rfl⟩
        · have := hrest c post (by simpa using hrest')
          rw [hc] at this
          cases this
        · have := hturn (cs ++ bs) b c post (by rw [hl, hrest']; simp) (hbs b (by simp))
          rw [hc] at this
          cases this
  rw [hl, hrest', hnil]
  simp only [List.length_append, List.length_nil]
  omega

end Shrinking

end AgentOrch.Phases
