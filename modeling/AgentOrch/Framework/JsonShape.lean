import AgentOrch.Framework.JsonText

/-!
# Shallow values and their members

`Shallow n v` says that a value opens at most `n` containers, holds no floats and repeats no key: what
is written of it reads back, whatever the writer pads with.  Reading back sorts the keys, which no
lookup minds.
-/

namespace AgentOrch.Json

open Py

/-- The items of an object, read back. -/
def sortedItems (items : List (Text × Value)) : List (Text × Value) :=
  (sortPairs items).insertionSort keyLe

lemma sortKeys_obj (items : List (Text × Value)) :
    (Value.obj items).sortKeys = .obj (sortedItems items) := by
  rw [Value.sortKeys, sortedItems]

lemma dictGet_perm {α : Type} {key : Text} {items items' : List (Text × α)}
    (hnodup : (dictKeys items).Nodup) (h : items.Perm items') :
    dictGet key items' = dictGet key items := by
  have hnodup' : (dictKeys items').Nodup := (h.map Prod.fst).nodup_iff.mp hnodup
  cases hget : dictGet key items with
  | some v => exact dictGet_of_mem hnodup' (h.mem_iff.mp (mem_of_dictGet hget))
  | none =>
      cases hget' : dictGet key items' with
      | none => rfl
      | some v =>
          have hmem := dictGet_of_mem hnodup (h.mem_iff.mpr (mem_of_dictGet hget'))
          rw [hget] at hmem
          cases hmem

lemma dictGet_sortPairs (key : Text) (items : List (Text × Value)) :
    dictGet key (sortPairs items) = (dictGet key items).map Value.sortKeys := by
  induction items with
  | nil => rfl
  | cons p rest ih =>
      obtain ⟨k, v⟩ := p
      rw [sortPairs, dictGet_cons, dictGet_cons, ih]
      split <;> rfl

lemma dictGet_sortedItems {items : List (Text × Value)} (hnodup : (dictKeys items).Nodup)
    (key : Text) : dictGet key (sortedItems items) = (dictGet key items).map Value.sortKeys := by
  have hperm : (sortPairs items).Perm (sortedItems items) :=
    (List.perm_insertionSort keyLe (sortPairs items)).symm
  rw [dictGet_perm (by rwa [dictKeys_sortPairs]) hperm, dictGet_sortPairs]

/-- What an object read back holds under a key. -/
lemma getValue_sortedItems {items : List (Text × Value)} (hnodup : (dictKeys items).Nodup)
    (key : Text) : getValue key (sortedItems items) = (getValue key items).sortKeys := by
  rw [getValue, getValue, dictGet_sortedItems hnodup]
  cases dictGet key items <;> rfl

lemma mem_dictKeys_sortedItems {items : List (Text × Value)} {key : Text} :
    key ∈ dictKeys (sortedItems items) ↔ key ∈ dictKeys items := by
  rw [← dictKeys_sortPairs items]
  exact ((List.perm_insertionSort keyLe (sortPairs items)).map Prod.fst).mem_iff

lemma keysAre_sortedItems (items : List (Text × Value)) (expected : List Text) :
    keysAre (sortedItems items) expected = keysAre items expected := by
  rw [Bool.eq_iff_iff, keysAre_iff, keysAre_iff]
  simp only [mem_dictKeys_sortedItems]

/-- Few containers, no floats, no key twice. -/
structure Shallow (n : ℕ) (v : Value) : Prop where
  floatFree : v.floatFree = true
  keyed : v.wellKeyed = true
  depth : v.depth ≤ n

lemma Shallow.mono {n m : ℕ} {v : Value} (h : Shallow n v) (hle : n ≤ m) : Shallow m v :=
  ⟨h.floatFree, h.keyed, h.depth.trans hle⟩

lemma shallow_null (n : ℕ) : Shallow n .null := ⟨rfl, rfl, Nat.zero_le n⟩

lemma shallow_bool (n : ℕ) (b : Bool) : Shallow n (.bool b) := ⟨rfl, rfl, Nat.zero_le n⟩

lemma shallow_int (n : ℕ) (i : ℤ) : Shallow n (.int i) := ⟨rfl, rfl, Nat.zero_le n⟩

lemma shallow_str (n : ℕ) (t : Text) : Shallow n (.str t) := ⟨rfl, rfl, Nat.zero_le n⟩

lemma depthPairs_le {n : ℕ} {items : List (Text × Value)} (h : ∀ p ∈ items, p.2.depth ≤ n) :
    depthPairs items ≤ n := by
  induction items with
  | nil => exact Nat.zero_le n
  | cons p rest ih =>
      exact max_le (h p List.mem_cons_self) (ih fun q hq => h q (List.mem_cons_of_mem p hq))

lemma shallow_obj {n : ℕ} {items : List (Text × Value)} (hnodup : (dictKeys items).Nodup)
    (h : ∀ p ∈ items, Shallow n p.2) : Shallow (n + 1) (.obj items) := by
  constructor
  · exact floatFreePairs_iff.mpr fun p hp => (h p hp).floatFree
  · simp only [Value.wellKeyed, Bool.and_eq_true, decide_eq_true_eq]
    exact ⟨hnodup, wellKeyedPairs_iff.mpr fun p hp => (h p hp).keyed⟩
  · exact Nat.succ_le_succ (depthPairs_le fun p hp => (h p hp).depth)

lemma shallow_arr {n : ℕ} {items : List Value} (h : ∀ v ∈ items, Shallow n v) :
    Shallow (n + 1) (.arr items) := by
  have hitems : floatFreeItems items = true ∧ wellKeyedItems items = true ∧
      depthItems items ≤ n := by
    induction items with
    | nil => exact ⟨rfl, rfl, Nat.zero_le n⟩
    | cons v rest ih =>
        obtain ⟨hfree, hkeyed, hdepth⟩ := ih fun w hw => h w (List.mem_cons_of_mem v hw)
        have hv := h v List.mem_cons_self
        refine ⟨?_, ?_, max_le hv.depth hdepth⟩
        · simp [floatFreeItems, hv.floatFree, hfree]
        · simp [wellKeyedItems, hv.keyed, hkeyed]
  exact ⟨hitems.1, hitems.2.1, Nat.succ_le_succ hitems.2.2⟩

/-- What an object holds under a key is as shallow as its items are. -/
lemma Shallow.getValue {n : ℕ} {items : List (Text × Value)} (h : ∀ p ∈ items, Shallow n p.2)
    (key : Text) : Shallow n (getValue key items) := by
  unfold Json.getValue
  cases hget : dictGet key items with
  | none => exact shallow_null n
  | some v => exact h (key, v) (mem_of_dictGet hget)

/-- An object is shallow when what it holds under each of its keys is. -/
lemma shallow_obj_of_keys {n : ℕ} {items : List (Text × Value)} (hnodup : (dictKeys items).Nodup)
    (h : ∀ key ∈ dictKeys items, Shallow n (getValue key items)) : Shallow (n + 1) (.obj items) := by
  refine shallow_obj hnodup fun p hp => ?_
  have hget : dictGet p.1 items = some p.2 := dictGet_of_mem hnodup hp
  have hvalue := h p.1 (List.mem_map.mpr ⟨p, hp, rfl⟩)
  rwa [Json.getValue, hget] at hvalue

/-- What is written of a shallow value reads back with its keys in order. -/
theorem Shallow.loads {n nesting : ℕ} {o : Options} {pad : Text} {floatText : Binary64 → Text}
    {v : Value} {t : Text} (h : Shallow n v) (hn : n ≤ o.nesting)
    (hpad : pad.all isJsonSpace = true) (ht : dumpsPadded pad nesting floatText v = .ok t) :
    Json.loads o t = .ok v.sortKeys := by
  have hfloats : ∀ x ∈ v.floats, ReadsBack floatText x := by
    intro x hx
    rw [floats_of_floatFree h.floatFree] at hx
    exact absurd hx List.not_mem_nil
  rw [loads_dumpsPadded o hpad hfloats h.keyed ht, if_pos (h.depth.trans hn)]

/-! ## What reading back keeps -/

lemma eqvPairs_perm {items items' : List (Text × Value)} (others : List (Text × Value))
    (h : items.Perm items') : eqvPairs items others = eqvPairs items' others := by
  induction h with
  | nil => rfl
  | cons p _ ih => simp only [eqvPairs, ih]
  | swap p q rest => simp only [eqvPairs, Bool.and_left_comm]
  | trans _ _ ih ih' => exact ih.trans ih'

mutual

/-- An equality does not mind the order of the keys on its left. -/
lemma eqv_sortKeys : ∀ v w : Value, v.sortKeys.eqv w = v.eqv w
  | .null, _ | .bool _, _ | .int _, _ | .float _, _ | .str _, _ => rfl
  | .arr items, w => by
      cases w with
      | arr items' =>
          simp only [Value.sortKeys, Value.eqv]
          exact eqvItems_sortItems items items'
      | _ => simp [Value.sortKeys, Value.eqv]
  | .obj items, w => by
      cases w with
      | obj others =>
          have hperm := List.perm_insertionSort keyLe (sortPairs items)
          have hlength : (sortPairs items).length = items.length := by
            rw [sortPairs_eq_map, List.length_map]
          simp only [Value.sortKeys, Value.eqv]
          rw [eqvPairs_perm others hperm, hperm.length_eq, hlength, eqvPairs_sortPairs]
      | _ => simp [Value.sortKeys, Value.eqv]

lemma eqvItems_sortItems : ∀ items items' : List Value,
    eqvItems (sortItems items) items' = eqvItems items items'
  | [], _ => rfl
  | v :: rest, [] => rfl
  | v :: rest, w :: rest' => by
      simp only [sortItems, eqvItems, eqv_sortKeys v w, eqvItems_sortItems rest rest']

lemma eqvPairs_sortPairs : ∀ items others : List (Text × Value),
    eqvPairs (sortPairs items) others = eqvPairs items others
  | [], _ => rfl
  | (k, v) :: rest, others => by
      simp only [sortPairs, eqvPairs, eqvPairs_sortPairs rest others]
      cases dictGet k others with
      | none => rfl
      | some w => simp only [eqv_sortKeys v w]

end

mutual

/-- A value without a NaN equals itself. -/
lemma eqv_self : ∀ v : Value, v.wellKeyed = true → (∀ x ∈ v.floats, x.eqv x = true) → v.eqv v = true
  | .null, _, _ => rfl
  | .bool b, _, _ => by simp [Value.eqv]
  | .int n, _, _ => by simp [Value.eqv]
  | .float x, _, hfloats => hfloats x (List.mem_singleton_self x)
  | .str s, _, _ => by simp [Value.eqv]
  | .arr items, hkeyed, hfloats => eqvItems_self items hkeyed hfloats
  | .obj items, hkeyed, hfloats => by
      rw [Value.wellKeyed, Bool.and_eq_true, decide_eq_true_eq] at hkeyed
      have hpairs := eqvPairs_self items items
        (fun p hp => dictGet_of_mem hkeyed.1 hp) hkeyed.2 hfloats
      simp [Value.eqv, hpairs]

lemma eqvItems_self : ∀ items : List Value, wellKeyedItems items = true →
    (∀ x ∈ floatsItems items, x.eqv x = true) → eqvItems items items = true
  | [], _, _ => rfl
  | v :: items, hkeyed, hfloats => by
      rw [wellKeyedItems, Bool.and_eq_true] at hkeyed
      rw [floatsItems, List.forall_mem_append] at hfloats
      rw [eqvItems, Bool.and_eq_true]
      exact ⟨eqv_self v hkeyed.1 hfloats.1, eqvItems_self items hkeyed.2 hfloats.2⟩

lemma eqvPairs_self : ∀ items others : List (Text × Value),
    (∀ p ∈ items, dictGet p.1 others = some p.2) → wellKeyedPairs items = true →
    (∀ x ∈ floatsPairs items, x.eqv x = true) → eqvPairs items others = true
  | [], _, _, _, _ => rfl
  | (k, v) :: items, others, hget, hkeyed, hfloats => by
      obtain ⟨hk, hrest⟩ := List.forall_mem_cons.mp hget
      rw [wellKeyedPairs, Bool.and_eq_true] at hkeyed
      rw [floatsPairs, List.forall_mem_append] at hfloats
      have hk : dictGet k others = some v := hk
      rw [eqvPairs, hk, Bool.and_eq_true]
      exact ⟨eqv_self v hkeyed.1 hfloats.1,
        eqvPairs_self items others hrest hkeyed.2 hfloats.2⟩

end

mutual

/-- A value that is not too deep and has no long integer is written. -/
lemma lenientRefusal_eq_none : ∀ (v : Value) {room : ℕ}, v.depth ≤ room → v.shortInts = true →
    v.lenientRefusal room = none
  | .null, _, _, _ | .bool _, _, _, _ | .float _, _, _, _ | .str _, _, _, _ => by
      simp [Value.lenientRefusal]
  | .int n, _, _, hshort => by
      rw [Value.shortInts] at hshort
      rw [Value.lenientRefusal, if_pos hshort]
  | .arr items, room, hdepth, hshort => by
      rw [Value.depth] at hdepth
      rw [Value.lenientRefusal, if_neg (by omega)]
      exact lenientRefusalItems_eq_none items (by omega) hshort
  | .obj items, room, hdepth, hshort => by
      rw [Value.depth] at hdepth
      rw [Value.lenientRefusal, if_neg (by omega)]
      exact lenientRefusalPairs_eq_none items (by omega) hshort

lemma lenientRefusalItems_eq_none : ∀ (items : List Value) {room : ℕ}, depthItems items ≤ room →
    shortIntsItems items = true → lenientRefusalItems room items = none
  | [], _, _, _ => rfl
  | v :: items, room, hdepth, hshort => by
      rw [depthItems, Nat.max_le] at hdepth
      rw [shortIntsItems, Bool.and_eq_true] at hshort
      rw [lenientRefusalItems, lenientRefusal_eq_none v hdepth.1 hshort.1,
        lenientRefusalItems_eq_none items hdepth.2 hshort.2]
      rfl

lemma lenientRefusalPairs_eq_none : ∀ (items : List (Text × Value)) {room : ℕ},
    depthPairs items ≤ room → shortIntsPairs items = true → lenientRefusalPairs room items = none
  | [], _, _, _ => rfl
  | (k, v) :: items, room, hdepth, hshort => by
      rw [depthPairs, Nat.max_le] at hdepth
      rw [shortIntsPairs, Bool.and_eq_true] at hshort
      rw [lenientRefusalPairs, lenientRefusal_eq_none v hdepth.1 hshort.1,
        lenientRefusalPairs_eq_none items hdepth.2 hshort.2]
      rfl

end
mutual

/-- A text opens no more containers than it has characters. -/
lemma depth_le_length (pad : Text) (floatText : Binary64 → Text) :
    ∀ v : Value, v.depth ≤ (v.written pad floatText).length
  | .null | .bool true | .bool false | .int _ | .float _ | .str _ => Nat.zero_le _
  | .arr [] => by simp [Value.depth, Value.written, depthItems]
  | .arr (v :: rest) => by
      have hv := depth_le_length pad floatText v
      have hrest := depthItems_le_length pad floatText rest
      simp only [Value.depth, Value.written, depthItems, List.length_append, List.length_cons,
        List.length_nil]
      omega
  | .obj [] => by simp [Value.depth, Value.written, depthPairs]
  | .obj ((k, v) :: rest) => by
      have hv := depth_le_length pad floatText v
      have hrest := depthPairs_le_length pad floatText rest
      simp only [Value.depth, Value.written, depthPairs, List.length_append, List.length_cons,
        List.length_nil]
      omega

lemma depthItems_le_length (pad : Text) (floatText : Binary64 → Text) :
    ∀ items : List Value, depthItems items ≤ (writtenItems pad floatText items).length
  | [] => Nat.zero_le _
  | v :: rest => by
      have hv := depth_le_length pad floatText v
      have hrest := depthItems_le_length pad floatText rest
      simp only [depthItems, writtenItems, List.length_append, List.length_cons]
      omega

lemma depthPairs_le_length (pad : Text) (floatText : Binary64 → Text) :
    ∀ items : List (Text × Value), depthPairs items ≤ (writtenPairs pad floatText items).length
  | [] => Nat.zero_le _
  | (k, v) :: rest => by
      have hv := depth_le_length pad floatText v
      have hrest := depthPairs_le_length pad floatText rest
      simp only [depthPairs, writtenPairs, List.length_append, List.length_cons]
      omega

end

/-- Without a limit on the nesting, what a padded writer wrote reads back. -/
theorem loads_dumpsPadded_length {pad : Text} {nesting : ℕ} {floatText : Binary64 → Text}
    {v : Value} {t : Text} (hpad : pad.all isJsonSpace = true)
    (hfloats : ∀ x ∈ v.floats, ReadsBack floatText x) (hkeyed : v.wellKeyed = true)
    (h : dumpsPadded pad nesting floatText v = .ok t) :
    loads ⟨t.length, false⟩ t = .ok v.sortKeys := by
  rw [loads_dumpsPadded _ hpad hfloats hkeyed h, if_pos]
  unfold dumpsPadded at h
  split at h
  · cases h
  · obtain rfl := Except.ok.inj h
    rw [← depth_sortKeys]
    exact depth_le_length pad floatText v.sortKeys

/-! ## Encodable text -/

lemma encodable_natText (n : ℕ) : Py.Encodable (natText n) := by
  intro c hc
  have hdigit := isAsciiDigit_natText hc
  have hplain : ∀ c : CodePoint, isAsciiDigit c = true → isSurrogate c = false := by
    intro c hc
    simp only [isAsciiDigit, Bool.and_eq_true, decide_eq_true_eq] at hc
    simp only [isSurrogate, Bool.and_eq_false_iff, decide_eq_false_iff_not]
    omega
  exact hplain c hdigit

lemma encodable_intText (n : ℤ) : Py.Encodable (intText n) := by
  unfold intText
  split_ifs
  · exact encodable_cons.mpr ⟨by decide, encodable_natText _⟩
  · exact encodable_natText _

lemma encodable_escapeChar {c : CodePoint} (h : isSurrogate c = false) :
    Py.Encodable (escapeChar c) := by
  have hpair : ∀ d : CodePoint, isSurrogate d = false → Py.Encodable [0x5C, d] := by
    intro d hd
    exact encodable_cons.mpr ⟨by decide, encodable_cons.mpr ⟨hd, encodable_nil⟩⟩
  unfold escapeChar
  split_ifs
  · exact hpair c h
  · exact hpair _ (by decide)
  · exact hpair _ (by decide)
  · exact hpair _ (by decide)
  · exact hpair _ (by decide)
  · exact hpair _ (by decide)
  · exact encodable_cons.mpr ⟨by decide, encodable_cons.mpr ⟨by decide, encodable_hexText 4 _⟩⟩
  · exact encodable_cons.mpr ⟨h, encodable_nil⟩

lemma encodable_escaped {s : Text} (h : Py.Encodable s) : Py.Encodable (escaped s) := by
  refine encodable_append.mpr ⟨?_, by decide⟩
  intro c hc
  obtain ⟨d, hd, hc⟩ := List.mem_flatMap.mp hc
  exact encodable_escapeChar (h d hd) c hc

section
variable {pad : Text} {floatText : Binary64 → Text}

mutual

/-- What is written of encodable strings is encodable. -/
lemma encodable_written (hpad : Py.Encodable pad) (hfloat : ∀ x, Py.Encodable (floatText x)) :
    ∀ v : Value, v.encodable = true → Py.Encodable (v.written pad floatText)
  | .null, _ => encodable_ofString _
  | .bool true, _ => encodable_ofString _
  | .bool false, _ => encodable_ofString _
  | .int n, _ => encodable_intText n
  | .float x, _ => hfloat x
  | .str s, h => encodable_cons.mpr ⟨by decide, encodable_escaped (of_decide_eq_true h)⟩
  | .arr [], _ => encodable_cons.mpr ⟨by decide, encodable_cons.mpr ⟨by decide, encodable_nil⟩⟩
  | .arr (v :: items), h => by
      simp only [Value.encodable, encodableItems, Bool.and_eq_true] at h
      simp only [Value.written, List.cons_append, encodable_cons, encodable_append]
      exact ⟨by decide, ⟨encodable_written hpad hfloat v h.1,
        encodable_writtenItems hpad hfloat items h.2⟩, by decide⟩
  | .obj [], _ => encodable_cons.mpr ⟨by decide, encodable_cons.mpr ⟨by decide, encodable_nil⟩⟩
  | .obj ((k, v) :: items), h => by
      simp only [Value.encodable, encodablePairs, Bool.and_eq_true, decide_eq_true_eq] at h
      simp only [Value.written, List.cons_append, encodable_cons, encodable_append]
      exact ⟨by decide, by decide, ⟨⟨⟨encodable_escaped h.1.1, by decide, hpad⟩,
        encodable_written hpad hfloat v h.1.2⟩, encodable_writtenPairs hpad hfloat items h.2⟩,
        by decide, encodable_nil⟩

lemma encodable_writtenItems (hpad : Py.Encodable pad) (hfloat : ∀ x, Py.Encodable (floatText x)) :
    ∀ items : List Value, encodableItems items = true →
      Py.Encodable (writtenItems pad floatText items)
  | [], _ => encodable_nil
  | v :: items, h => by
      simp only [encodableItems, Bool.and_eq_true] at h
      simp only [writtenItems, List.cons_append, encodable_cons, encodable_append]
      exact ⟨by decide, ⟨hpad, encodable_written hpad hfloat v h.1⟩,
        encodable_writtenItems hpad hfloat items h.2⟩

lemma encodable_writtenPairs (hpad : Py.Encodable pad) (hfloat : ∀ x, Py.Encodable (floatText x)) :
    ∀ items : List (Text × Value), encodablePairs items = true →
      Py.Encodable (writtenPairs pad floatText items)
  | [], _ => encodable_nil
  | (k, v) :: items, h => by
      simp only [encodablePairs, Bool.and_eq_true, decide_eq_true_eq] at h
      simp only [writtenPairs, List.cons_append, encodable_cons, encodable_append]
      exact ⟨by decide, ⟨⟨⟨hpad, by decide, encodable_escaped h.1.1⟩, by decide, hpad⟩,
        encodable_written hpad hfloat v h.1.2⟩, encodable_writtenPairs hpad hfloat items h.2⟩

end

end

lemma encodablePairs_iff {items : List (Text × Value)} :
    encodablePairs items = true ↔ ∀ p ∈ items, Py.Encodable p.1 ∧ p.2.encodable = true := by
  induction items with
  | nil => simp [encodablePairs]
  | cons p items ih => simp [encodablePairs, ih]

mutual

lemma encodable_sortKeys : ∀ v : Value, v.encodable = true → v.sortKeys.encodable = true
  | .null, h | .bool _, h | .int _, h | .float _, h | .str _, h => h
  | .arr items, h => encodable_sortItems items h
  | .obj items, h => by
      have hsorted := encodable_sortPairs items h
      have hperm := List.perm_insertionSort keyLe (sortPairs items)
      rw [Value.sortKeys]
      show encodablePairs _ = true
      rw [encodablePairs_iff] at hsorted ⊢
      exact fun p hp => hsorted p (hperm.mem_iff.mp hp)

lemma encodable_sortItems : ∀ items : List Value,
    encodableItems items = true → encodableItems (sortItems items) = true
  | [], _ => rfl
  | v :: items, h => by
      simp only [sortItems, encodableItems, Bool.and_eq_true] at h ⊢
      exact ⟨encodable_sortKeys v h.1, encodable_sortItems items h.2⟩

lemma encodable_sortPairs : ∀ items : List (Text × Value),
    encodablePairs items = true → encodablePairs (sortPairs items) = true
  | [], _ => rfl
  | (k, v) :: items, h => by
      simp only [sortPairs, encodablePairs, Bool.and_eq_true] at h ⊢
      exact ⟨⟨h.1.1, encodable_sortKeys v h.1.2⟩, encodable_sortPairs items h.2⟩

end

end AgentOrch.Json
