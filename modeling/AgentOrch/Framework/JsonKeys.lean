import AgentOrch.Framework.JsonText

/-!
# What is read is made of dictionaries

The machine of `json.loads` closes every object through `dict`, so the keys of each object it returns
are distinct.  The invariant is carried by the containers that are still open.
-/

namespace AgentOrch.Json

open Py

/-! ## The machine -/

/-- What the machine holds is made of `dict`s; the object it is in has no `dict` yet. -/
def Mode.IsKeyed : Mode → Prop
  | .key items | .colon items _ => wellKeyedPairs items = true
  | .after v => v.wellKeyed = true
  | _ => True

def Frame.IsKeyed : Frame → Prop
  | .array items => wellKeyedItems items = true
  | .object items _ => wellKeyedPairs items = true

lemma wellKeyedItems_iff {items : List Value} :
    wellKeyedItems items = true ↔ ∀ v ∈ items, v.wellKeyed = true := by
  induction items with
  | nil => simp [wellKeyedItems]
  | cons v rest ih => simp [wellKeyedItems, ih]

lemma wellKeyedItems_cons {v : Value} {items : List Value} (hv : v.wellKeyed = true)
    (hitems : wellKeyedItems items = true) : wellKeyedItems (v :: items) = true := by
  simp [wellKeyedItems, hv, hitems]

lemma wellKeyedPairs_cons {k : Text} {v : Value} {items : List (Text × Value)}
    (hv : v.wellKeyed = true) (hitems : wellKeyedPairs items = true) :
    wellKeyedPairs ((k, v) :: items) = true := by
  simp [wellKeyedPairs, hv, hitems]

lemma wellKeyedItems_reverse {items : List Value} (h : wellKeyedItems items = true) :
    wellKeyedItems items.reverse = true :=
  wellKeyedItems_iff.mpr fun v hv => wellKeyedItems_iff.mp h v (List.mem_reverse.mp hv)

lemma wellKeyedPairs_reverse {items : List (Text × Value)} (h : wellKeyedPairs items = true) :
    wellKeyedPairs items.reverse = true :=
  wellKeyedPairs_iff.mpr fun p hp => wellKeyedPairs_iff.mp h p (List.mem_reverse.mp hp)

lemma closeObject_wellKeyed {o : Options} {pairs : List (Text × Value)} {v : Value}
    (hpairs : wellKeyedPairs pairs = true) (h : closeObject o pairs = .ok v) :
    v.wellKeyed = true := by
  unfold closeObject at h
  split at h
  · cases h
  · obtain rfl := Except.ok.inj h
    simp only [Value.wellKeyed, Bool.and_eq_true, decide_eq_true_eq]
    refine ⟨nodup_dictOf pairs, wellKeyedPairs_iff.mpr fun p hp => ?_⟩
    exact wellKeyedPairs_iff.mp hpairs p (mem_of_mem_dictOf hp)

lemma atoms_tail {token : Token} {rest : List Token}
    (h : ∀ w, .atom w ∈ token :: rest → w.wellKeyed = true) :
    ∀ w, .atom w ∈ rest → w.wellKeyed = true := fun w hw => h w (List.mem_cons_of_mem _ hw)

/-- Every token keeps what is open keyed. -/
lemma run_wellKeyed {o : Options} {mode : Mode} {stack : List Frame} {tokens : List Token}
    {v : Value} (htokens : ∀ w, .atom w ∈ tokens → w.wellKeyed = true)
    (hmode : mode.IsKeyed) (hstack : ∀ f ∈ stack, f.IsKeyed)
    (h : run o mode stack tokens = .ok v) : v.wellKeyed = true := by
  fun_induction run o mode stack tokens
  -- a container is closed, or holds one more item
  case case15 =>
      rename_i ih
      refine ih (atoms_tail htokens) (wellKeyedItems_reverse ?_) (fun f hf => hstack f (.tail _ hf)) h
      exact hstack _ (.head _)
  case case18 =>
      rename_i ih
      exact ih (atoms_tail htokens) rfl hstack h
  case case22 =>
      rename_i ih
      refine ih (atoms_tail htokens) trivial (fun f hf => ?_) h
      rcases List.mem_cons.mp hf with rfl | hf
      · exact wellKeyedItems_cons hmode (hstack _ (.head _))
      · exact hstack f (.tail _ hf)
  case case23 =>
      rename_i ih
      refine ih (atoms_tail htokens) (wellKeyedItems_reverse ?_) (fun f hf => hstack f (.tail _ hf)) h
      exact wellKeyedItems_cons hmode (hstack _ (.head _))
  case case24 =>
      rename_i ih
      refine ih (atoms_tail htokens) ?_ (fun f hf => hstack f (.tail _ hf)) h
      exact wellKeyedPairs_cons hmode (hstack _ (.head _))
  case case25 =>
      rename_i hclose ih
      refine ih (atoms_tail htokens) (closeObject_wellKeyed ?_ hclose) (fun f hf => hstack f (.tail _ hf)) h
      exact wellKeyedPairs_reverse (wellKeyedPairs_cons hmode (hstack _ (.head _)))
  -- a token that opens a container, or stands alone, or raises
  all_goals grind [Mode.IsKeyed, Frame.IsKeyed, Value.wellKeyed, wellKeyedItems, wellKeyedPairs]

/-! ## The scanner -/

/-- What a single token stands for that is no string. -/
def Value.isScalar : Value → Bool
  | .str _ | .arr _ | .obj _ => false
  | _ => true

lemma wellKeyed_of_isScalar {v : Value} (h : v.isScalar = true) : v.wellKeyed = true := by
  cases v with
  | arr items => cases h
  | obj items => cases h
  | _ => rfl

lemma scanLiteral_isScalar {t rest : Text} {v : Value} (h : scanLiteral t = some (v, rest)) :
    v.isScalar = true := by
  obtain ⟨p, hp, hstrip⟩ := List.exists_of_findSome?_eq_some h
  obtain ⟨after, -, heq⟩ := Option.map_eq_some_iff.mp hstrip
  obtain ⟨rfl, -⟩ := Prod.mk.inj heq
  simp only [literals, List.mem_cons, List.not_mem_nil, or_false] at hp
  rcases hp with rfl | rfl | rfl | rfl | rfl | rfl <;> rfl

lemma scanNumber_isScalar {negative : Bool} {t rest : Text} {w : Value}
    (h : scanNumber negative t = (.atom w, rest)) : w.isScalar = true := by
  unfold scanNumber at h
  dsimp only at h
  split_ifs at h
  all_goals
    simp only [Prod.mk.injEq, Token.atom.injEq, reduceCtorEq, false_and] at h
    try rw [← h.1]
    try rfl

/-- An atom is a number or a literal. -/
lemma atom_isScalar {c : CodePoint} {t rest : Text} {w : Value}
    (h : scanToken c t = (.atom w, rest)) : w.isScalar = true := by
  have hliteral {v : Value} {after : Text} (hscan : scanLiteral (c :: t) = some (v, after))
      (h : (Token.atom v, after) = (.atom w, rest)) : w.isScalar = true := by
    obtain ⟨rfl, rfl⟩ : v = w ∧ after = rest := by simpa using h
    exact scanLiteral_isScalar hscan
  unfold scanToken at h
  split at h
  · rename_i token hpunctuation
    unfold punctuation at hpunctuation
    split_ifs at hpunctuation
    all_goals
      obtain rfl := Option.some.inj hpunctuation
      simp at h
  · split_ifs at h
    · split at h <;> simp at h
    · split at h
      · exact hliteral ‹_› h
      · exact scanNumber_isScalar h
    · split at h
      · exact hliteral ‹_› h
      · exact scanNumber_isScalar h

lemma atoms_scanFrom (fuel : ℕ) : ∀ t w, .atom w ∈ scanFrom fuel t → w.isScalar = true := by
  induction fuel with
  | zero => intro t w h; cases h
  | succ fuel ih =>
      intro t w h
      unfold scanFrom at h
      split at h
      · cases h
      · rename_i c t' _
        split at h
        · simp at h
        · rename_i token rest _ htoken
          rcases List.mem_cons.mp h with h | h
          · exact atom_isScalar (h ▸ htoken)
          · exact ih rest w h

/-- What `json.loads` returns is made of `dict`s. -/
theorem loads_wellKeyed {o : Options} {t : Text} {v : Value} (h : loads o t = .ok v) :
    v.wellKeyed = true :=
  run_wellKeyed (fun w hw => wellKeyed_of_isScalar (atoms_scanFrom _ t w hw))
    (show Mode.IsKeyed .value from trivial) (by simp) h

end AgentOrch.Json
