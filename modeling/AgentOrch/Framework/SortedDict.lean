import AgentOrch.Framework.JsonShape

/-!
# Dictionaries in key order

Two dictionaries are equal when they hold equal values under the same keys; the order of their items
does not count.  Sorting by key picks one order, which no equality and no lookup minds, and which
sorting again leaves alone.
-/

namespace AgentOrch.Py

open Json

section
variable {α β : Type}

/-- The order of items by key. -/
def byKey (p q : Text × α) : Prop := textLe p.1 q.1 = true

instance : DecidableRel (@byKey α) :=
  fun p q => inferInstanceAs (Decidable (textLe p.1 q.1 = true))

instance : Std.Total (@byKey α) := ⟨fun p q => textLe_total p.1 q.1⟩

instance : IsTrans (Text × α) byKey := ⟨fun _ _ _ => textLe_trans⟩

/-- The items in key order. -/
def sortedDict (items : List (Text × α)) : List (Text × α) := items.insertionSort byKey

/-- `a == b` for two dictionaries whose values `eq` compares. -/
def sameDict (eq : α → α → Bool) (a b : List (Text × α)) : Bool :=
  a.length == b.length && a.all fun p =>
    match dictGet p.1 b with
    | some v => eq p.2 v
    | none => false

variable {items : List (Text × α)}

lemma sortedDict_perm (items : List (Text × α)) : (sortedDict items).Perm items :=
  List.perm_insertionSort byKey items

lemma mem_sortedDict {p : Text × α} : p ∈ sortedDict items ↔ p ∈ items :=
  (sortedDict_perm items).mem_iff

lemma mem_dictKeys_sortedDict {key : Text} :
    key ∈ dictKeys (sortedDict items) ↔ key ∈ dictKeys items :=
  ((sortedDict_perm items).map Prod.fst).mem_iff

lemma nodup_sortedDict (h : (dictKeys items).Nodup) : (dictKeys (sortedDict items)).Nodup :=
  ((sortedDict_perm items).map Prod.fst).nodup_iff.mpr h

lemma dictGet_sortedDict (h : (dictKeys items).Nodup) (key : Text) :
    dictGet key (sortedDict items) = dictGet key items :=
  dictGet_perm h (sortedDict_perm items).symm

/-- Sorting again changes nothing. -/
lemma sortedDict_sortedDict (items : List (Text × α)) :
    sortedDict (sortedDict items) = sortedDict items :=
  (List.pairwise_insertionSort byKey items).insertionSort_eq

/-- Sorting minds the keys only. -/
lemma map_sortedDict (f : Text → α → β) (items : List (Text × α)) :
    (sortedDict items).map (fun p => (p.1, f p.1 p.2)) =
      sortedDict (items.map fun p => (p.1, f p.1 p.2)) :=
  List.map_insertionSort byKey byKey (fun p => (p.1, f p.1 p.2)) items fun _ _ _ _ => Iff.rfl

/-- A dictionary whose values are changed to equal ones and then sorted is the same. -/
lemma sameDict_sortedDict {eq : α → α → Bool} {f : α → α} (h : (dictKeys items).Nodup)
    (hf : ∀ p ∈ items, eq (f p.2) p.2 = true) :
    sameDict eq (sortedDict (items.map fun p => (p.1, f p.2))) items = true := by
  unfold sameDict
  rw [Bool.and_eq_true, List.all_eq_true]
  constructor
  · rw [(sortedDict_perm _).length_eq, List.length_map]
    exact beq_self_eq_true _
  · intro q hq
    obtain ⟨p, hp, rfl⟩ := List.mem_map.mp (mem_sortedDict.mp hq)
    have hget : dictGet p.1 items = some p.2 := dictGet_of_mem h hp
    rw [hget]
    exact hf p hp

end

/-- Reading an object back sorts its dictionary. -/
lemma sortedItems_eq (items : List (Text × Value)) :
    sortedItems items = sortedDict (items.map fun p => (p.1, p.2.sortKeys)) := by
  rw [sortedItems, sortPairs_eq_map]
  rfl

mutual

/-- Sorting the keys again changes nothing. -/
lemma sortKeys_sortKeys : ∀ v : Value, v.sortKeys.sortKeys = v.sortKeys
  | .null | .bool _ | .int _ | .float _ | .str _ => rfl
  | .arr items => by rw [Value.sortKeys, Value.sortKeys, sortItems_sortItems items]
  | .obj items => by
      have hmap : (sortedDict (sortPairs items)).map (fun p => (p.1, p.2.sortKeys)) =
          sortedDict ((sortPairs items).map fun p => (p.1, p.2.sortKeys)) :=
        map_sortedDict (fun _ v => v.sortKeys) (sortPairs items)
      rw [sortKeys_obj, sortKeys_obj, sortedItems_eq, sortedItems_eq, ← sortPairs_eq_map items,
        hmap, sortedDict_sortedDict, ← sortPairs_eq_map, sortPairs_sortPairs items]

lemma sortItems_sortItems : ∀ items : List Value, sortItems (sortItems items) = sortItems items
  | [] => rfl
  | v :: items => by
      rw [sortItems, sortItems, sortKeys_sortKeys v, sortItems_sortItems items]

lemma sortPairs_sortPairs : ∀ items : List (Text × Value),
    sortPairs (sortPairs items) = sortPairs items
  | [] => rfl
  | (k, v) :: items => by
      rw [sortPairs, sortPairs, sortKeys_sortKeys v, sortPairs_sortPairs items]

end

end AgentOrch.Py
