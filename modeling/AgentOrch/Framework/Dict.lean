import AgentOrch.Framework.Text
import Mathlib.Data.List.Nodup

/-!
# Dictionaries

A `dict` is the list of its items in insertion order.  `dictSet` keeps the place of a key that
is there already and appends a new one, so the keys stay distinct.
-/

namespace AgentOrch.Py

variable {α : Type}

/-- `d[key] = value` on the items of a `dict`. -/
def dictSet (key : Text) (value : α) : List (Text × α) → List (Text × α)
  | [] => [(key, value)]
  | (k, v) :: rest => if k = key then (k, value) :: rest else (k, v) :: dictSet key value rest

/-- `d.get(key)`. -/
def dictGet (key : Text) (items : List (Text × α)) : Option α :=
  (items.find? fun p => p.1 = key).map Prod.snd

/-- `dict(pairs)`. -/
def dictOf (pairs : List (Text × α)) : List (Text × α) :=
  pairs.foldl (fun items p => dictSet p.1 p.2 items) []

/-- The keys in order. -/
def dictKeys (items : List (Text × α)) : List Text := items.map Prod.fst

/-- `set(d) == set(expected)`. -/
def keysAre (items : List (Text × α)) (expected : List Text) : Bool :=
  (dictKeys items).all (· ∈ expected) && expected.all (· ∈ dictKeys items)

@[simp] lemma dictGet_nil (key : Text) : dictGet key ([] : List (Text × α)) = none := rfl

lemma dictGet_cons (key k : Text) (v : α) (rest : List (Text × α)) :
    dictGet key ((k, v) :: rest) = if k = key then some v else dictGet key rest := by
  by_cases h : k = key <;> simp [dictGet, h]

lemma mem_of_dictGet {key : Text} {items : List (Text × α)} {v : α}
    (h : dictGet key items = some v) : (key, v) ∈ items := by
  obtain ⟨p, hp, rfl⟩ := Option.map_eq_some_iff.mp h
  have hkey := List.find?_some hp
  have hmem := List.mem_of_find?_eq_some hp
  obtain rfl : p.1 = key := by simpa using hkey
  exact hmem

lemma dictGet_single (key : Text) (v : α) : dictGet key [(key, v)] = some v := by
  rw [dictGet_cons, if_pos rfl]

lemma dictGet_isSome {key : Text} {items : List (Text × α)} :
    (dictGet key items).isSome = true ↔ key ∈ dictKeys items := by
  induction items with
  | nil => simp [dictKeys]
  | cons p rest ih =>
      obtain ⟨k, v⟩ := p
      rw [dictGet_cons]
      by_cases h : k = key
      · simp [h, dictKeys]
      · simpa [h, dictKeys, Ne.symm h] using ih

/-- With distinct keys, an item is what its key gives. -/
lemma dictGet_of_mem {key : Text} {items : List (Text × α)} {v : α}
    (hnodup : (dictKeys items).Nodup) (h : (key, v) ∈ items) : dictGet key items = some v := by
  induction items with
  | nil => cases h
  | cons p rest ih =>
      obtain ⟨k, w⟩ := p
      obtain ⟨hk, hrest⟩ := List.nodup_cons.mp hnodup
      rw [dictGet_cons]
      rcases List.mem_cons.mp h with heq | hmem
      · cases heq
        simp
      · have hkey : key ∈ dictKeys rest := List.mem_map.mpr ⟨(key, v), hmem, rfl⟩
        have hne : k ≠ key := fun heq => hk (heq ▸ hkey)
        rw [if_neg hne]
        exact ih hrest hmem

lemma dictGet_append (key : Text) (items items' : List (Text × α)) :
    dictGet key (items ++ items') = (dictGet key items).or (dictGet key items') := by
  induction items with
  | nil => rfl
  | cons p rest ih =>
      obtain ⟨k, v⟩ := p
      rw [List.cons_append, dictGet_cons, dictGet_cons, ih]
      split <;> rfl

lemma dictGet_dictSet (key k : Text) (value : α) (items : List (Text × α)) :
    dictGet k (dictSet key value items) = if key = k then some value else dictGet k items := by
  induction items with
  | nil => simp [dictSet, dictGet_cons]
  | cons p rest ih =>
      obtain ⟨k', v⟩ := p
      by_cases hk : k' = key
      · rw [dictSet, if_pos hk, dictGet_cons, dictGet_cons, hk]
        split_ifs <;> rfl
      · rw [dictSet, if_neg hk, dictGet_cons, dictGet_cons, ih]
        by_cases hkey : key = k
        · have hne : ¬ k' = k := fun h => hk (h.trans hkey.symm)
          simp only [if_pos hkey, if_neg hne]
        · simp only [if_neg hkey]

lemma dictKeys_dictSet (key : Text) (value : α) (items : List (Text × α)) :
    dictKeys (dictSet key value items) =
      if key ∈ dictKeys items then dictKeys items else dictKeys items ++ [key] := by
  induction items with
  | nil => simp [dictSet, dictKeys]
  | cons p rest ih =>
      obtain ⟨k, v⟩ := p
      by_cases h : k = key
      · simp [dictSet, dictKeys, h]
      · simp only [dictKeys] at ih
        by_cases hmem : key ∈ rest.map Prod.fst
        · simp [dictSet, dictKeys, h, ih, hmem]
        · simp [dictSet, dictKeys, h, ih, hmem, Ne.symm h]

lemma nodup_dictSet {key : Text} {value : α} {items : List (Text × α)}
    (h : (dictKeys items).Nodup) : (dictKeys (dictSet key value items)).Nodup := by
  rw [dictKeys_dictSet]
  split_ifs with hmem
  · exact h
  · exact List.nodup_append.mpr ⟨h, List.nodup_singleton _, by
      rintro a ha b hb rfl
      exact hmem (List.mem_singleton.mp hb ▸ ha)⟩

/-- What stands in an updated dictionary stood there before or is the new item. -/
lemma mem_dictSet {key k : Text} {value v : α} {items : List (Text × α)}
    (h : (k, v) ∈ dictSet key value items) : (k, v) ∈ items ∨ (k = key ∧ v = value) := by
  induction items with
  | nil =>
      simp only [dictSet, List.mem_singleton, Prod.mk.injEq] at h
      exact .inr h
  | cons p rest ih =>
      obtain ⟨k', v'⟩ := p
      by_cases hk : k' = key
      · rw [dictSet, if_pos hk] at h
        rcases List.mem_cons.mp h with heq | hmem
        · cases heq
          exact .inr ⟨hk, rfl⟩
        · exact .inl (List.mem_cons_of_mem _ hmem)
      · rw [dictSet, if_neg hk] at h
        rcases List.mem_cons.mp h with heq | hmem
        · exact .inl (heq ▸ List.mem_cons_self)
        · exact (ih hmem).imp_left (List.mem_cons_of_mem _)

lemma dictOf_induction {motive : List (Text × α) → Prop} (nil : motive [])
    (set : ∀ key value items, motive items → motive (dictSet key value items))
    (pairs : List (Text × α)) : motive (dictOf pairs) := by
  have hfold : ∀ (pairs items : List (Text × α)), motive items →
      motive (pairs.foldl (fun items p => dictSet p.1 p.2 items) items) := by
    intro pairs
    induction pairs with
    | nil => intro items h; exact h
    | cons p pairs ih => intro items h; exact ih _ (set _ _ _ h)
  exact hfold pairs [] nil

lemma nodup_dictOf (pairs : List (Text × α)) : (dictKeys (dictOf pairs)).Nodup :=
  dictOf_induction (motive := fun items => (dictKeys items).Nodup) List.nodup_nil
    (fun _ _ _ h => nodup_dictSet h) pairs

/-- What `dict(pairs)` holds stands among the pairs. -/
lemma mem_of_mem_dictOf {p : Text × α} {pairs : List (Text × α)} (h : p ∈ dictOf pairs) :
    p ∈ pairs := by
  have hfold : ∀ (pairs items : List (Text × α)),
      p ∈ pairs.foldl (fun items p => dictSet p.1 p.2 items) items → p ∈ items ∨ p ∈ pairs := by
    intro pairs
    induction pairs with
    | nil => intro items h; exact .inl h
    | cons q pairs ih =>
        intro items h
        rcases ih _ h with h | h
        · rcases mem_dictSet h with h | ⟨h1, h2⟩
          · exact .inl h
          · exact .inr (List.mem_cons.mpr (.inl (Prod.ext h1 h2)))
        · exact .inr (List.mem_cons_of_mem _ h)
  exact (hfold pairs [] h).resolve_left (by simp)

lemma mem_dictKeys_dictOf {pairs : List (Text × α)} {k : Text} :
    k ∈ dictKeys (dictOf pairs) ↔ k ∈ dictKeys pairs := by
  have hset : ∀ key value (items : List (Text × α)),
      k ∈ dictKeys (dictSet key value items) ↔ k = key ∨ k ∈ dictKeys items := by
    intro key value items
    rw [dictKeys_dictSet]
    split_ifs with hmem
    · exact ⟨.inr, fun h => h.elim (fun h => h ▸ hmem) id⟩
    · rw [List.mem_append, List.mem_singleton, or_comm]
  have hfold : ∀ (pairs items : List (Text × α)),
      k ∈ dictKeys (pairs.foldl (fun items p => dictSet p.1 p.2 items) items) ↔
        k ∈ dictKeys items ∨ k ∈ dictKeys pairs := by
    intro pairs
    induction pairs with
    | nil => intro items; simp [dictKeys]
    | cons p pairs ih =>
        intro items
        rw [List.foldl_cons, ih, hset]
        simp only [dictKeys, List.map_cons, List.mem_cons]
        tauto
  simpa [dictOf, dictKeys] using hfold pairs []

/-- A new key goes to the end. -/
lemma dictSet_of_notMem {key : Text} {value : α} {items : List (Text × α)}
    (h : key ∉ dictKeys items) : dictSet key value items = items ++ [(key, value)] := by
  induction items with
  | nil => rfl
  | cons p rest ih =>
      obtain ⟨k, v⟩ := p
      simp only [dictKeys, List.map_cons, List.mem_cons, not_or] at h
      rw [dictSet, if_neg fun heq => h.1 heq.symm, ih h.2, List.cons_append]

/-- Pairs with distinct keys are the items of their dictionary. -/
lemma dictOf_of_nodup {pairs : List (Text × α)} (h : (dictKeys pairs).Nodup) :
    dictOf pairs = pairs := by
  have hfold : ∀ (pairs items : List (Text × α)), (dictKeys (items ++ pairs)).Nodup →
      pairs.foldl (fun items p => dictSet p.1 p.2 items) items = items ++ pairs := by
    intro pairs
    induction pairs with
    | nil => intro items _; simp
    | cons p pairs ih =>
        intro items hnodup
        have hkey : p.1 ∉ dictKeys items := by
          intro hmem
          rw [dictKeys, List.map_append, List.nodup_append] at hnodup
          exact hnodup.2.2 p.1 hmem p.1 (by simp) rfl
        have happend : items ++ [(p.1, p.2)] ++ pairs = items ++ p :: pairs := by simp
        rw [List.foldl_cons, dictSet_of_notMem hkey, ih _ (happend ▸ hnodup), happend]
  simpa [dictOf] using hfold pairs [] (by simpa using h)

lemma keysAre_iff {items : List (Text × α)} {expected : List Text} :
    keysAre items expected = true ↔ ∀ k, k ∈ dictKeys items ↔ k ∈ expected := by
  simp only [keysAre, Bool.and_eq_true, List.all_eq_true, decide_eq_true_eq]
  exact ⟨fun ⟨h1, h2⟩ k => ⟨h1 k, h2 k⟩, fun h => ⟨fun k => (h k).mp, fun k => (h k).mpr⟩⟩

end AgentOrch.Py
