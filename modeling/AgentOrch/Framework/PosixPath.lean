import AgentOrch.Framework.Text

/-!
# POSIX paths

`pathlib` keeps a path as the components between its slashes, without the empty ones and the ones
that are a single dot.  Joining takes an absolute right operand as it is.  A component `..` stays in
the path: only the system that follows it goes up one directory.
-/

namespace AgentOrch.Py

/-! ## Components -/

/-- One name, which `pathlib` may keep as one part of a path. -/
def IsPart (t : Text) : Prop := t ≠ [] ∧ t ≠ ("." : Text) ∧ (0x2F : CodePoint) ∉ t

instance (t : Text) : Decidable (IsPart t) := inferInstanceAs (Decidable (_ ∧ _))

/-- A part that names an entry of the directory it is read in. -/
def IsComponent (t : Text) : Prop := IsPart t ∧ t ≠ (".." : Text)

instance (t : Text) : Decidable (IsComponent t) := inferInstanceAs (Decidable (_ ∧ _))

/-- No piece between two separators holds a separator. -/
lemma notMem_of_mem_splitOnChar {sep : CodePoint} (t : Text) :
    ∀ {piece : Text}, piece ∈ splitOnChar sep t → sep ∉ piece := by
  induction t with
  | nil =>
      intro piece h
      simp only [splitOnChar, List.mem_singleton] at h
      simp [h]
  | cons c t ih =>
      intro piece h
      by_cases hc : c = sep
      · simp only [splitOnChar, hc, ↓reduceIte, List.mem_cons] at h
        rcases h with rfl | h
        · simp
        · exact ih h
      · have hne : sep ≠ c := fun h => hc h.symm
        simp only [splitOnChar, hc, ↓reduceIte] at h
        cases hs : splitOnChar sep t with
        | nil =>
            simp only [hs, List.mem_singleton] at h
            simp [h, hne]
        | cons line lines =>
            simp only [hs, List.mem_cons] at h
            rcases h with rfl | h
            · have hline : sep ∉ line := ih (by simp [hs])
              simp [hne, hline]
            · exact ih (by simp [hs, h])

/-- A text without separators is one piece. -/
lemma splitOnChar_of_notMem {sep : CodePoint} {t : Text} (h : sep ∉ t) :
    splitOnChar sep t = [t] := by
  induction t with
  | nil => rfl
  | cons c t ih =>
      simp only [List.mem_cons, not_or] at h
      have hc : c ≠ sep := fun hc => h.1 hc.symm
      simp [splitOnChar, hc, ih h.2]

/-! ## Paths -/

/-- A `PurePosixPath`. -/
structure PurePath where
  absolute : Bool
  parts : List Text
  proper : ∀ part ∈ parts, IsPart part

namespace PurePath

/-- `PurePath(text)`. -/
def ofText (t : Text) : PurePath where
  absolute := t.head? = some 0x2F
  parts := (splitOnChar 0x2F t).filter fun piece => piece ≠ [] ∧ piece ≠ ("." : Text)
  proper part h := by
    simp only [decide_not, Bool.decide_and, List.mem_filter, Bool.and_eq_true,
      Bool.not_eq_true', decide_eq_false_iff_not] at h
    exact ⟨h.2.1, h.2.2, notMem_of_mem_splitOnChar t h.1⟩

/-- `path / other`, for a path as right operand. -/
def append (p other : PurePath) : PurePath where
  absolute := if other.absolute then other.absolute else p.absolute
  parts := if other.absolute then other.parts else p.parts ++ other.parts
  proper part h := by
    split at h
    · exact other.proper part h
    · exact (List.mem_append.mp h).elim (p.proper part) (other.proper part)

/-- `path / text`. -/
def joinpath (p : PurePath) (t : Text) : PurePath := p.append (ofText t)

/-- `str(path)`. -/
def text (p : PurePath) : Text :=
  if p.absolute = false ∧ p.parts = [] then "."
  else (if p.absolute then ("/" : Text) else []) ++ join "/" p.parts

/-- `path.parent`, of a path that has a name. -/
def parent (p : PurePath) : PurePath where
  absolute := p.absolute
  parts := p.parts.dropLast
  proper part h := p.proper part (List.dropLast_subset _ h)

/-- No system call takes a path with a null character. -/
def hasNul (p : PurePath) : Bool := p.parts.any fun part => decide ((0 : CodePoint) ∈ part)

/-- Where one more component leads from a directory. -/
def enter (directory : List Text) (part : Text) : List Text :=
  if part = (".." : Text) then directory.dropLast else directory ++ [part]

/-- The entry an absolute path leads to, as the names on the way down from the root, where no
directory on the way is a symbolic link. -/
def location (p : PurePath) : List Text := p.parts.foldl enter []

/-! ### Joining -/

@[ext] lemma ext {p q : PurePath} (ha : p.absolute = q.absolute) (hp : p.parts = q.parts) :
    p = q := by
  cases p
  cases q
  simp_all

/-- A name is read as itself. -/
lemma ofText_of_isPart {t : Text} (h : IsPart t) :
    (ofText t).absolute = false ∧ (ofText t).parts = [t] := by
  obtain ⟨hne, hdot, hslash⟩ := h
  refine ⟨?_, ?_⟩
  · cases t with
    | nil => exact absurd rfl hne
    | cons c t =>
        have hc : c ≠ 0x2F := fun hc => hslash (by simp [hc])
        simp [ofText, hc]
  · simp [ofText, splitOnChar_of_notMem hslash, hne, hdot]

lemma parts_joinpath {p : PurePath} {t : Text} (h : IsPart t) :
    (p.joinpath t).parts = p.parts ++ [t] := by
  obtain ⟨habs, hparts⟩ := ofText_of_isPart h
  simp [joinpath, append, habs, hparts]

lemma absolute_joinpath {p : PurePath} {t : Text} (h : IsPart t) :
    (p.joinpath t).absolute = p.absolute := by
  obtain ⟨habs, -⟩ := ofText_of_isPart h
  simp [joinpath, append, habs]

/-- A file in a directory has that directory as its parent. -/
lemma parent_joinpath {p : PurePath} {t : Text} (h : IsPart t) : (p.joinpath t).parent = p := by
  apply ext
  · exact absolute_joinpath h
  · simp [parent, parts_joinpath h]

/-! ### Where a path leads -/

/-- What a location is made of are names. -/
lemma isComponent_of_mem_location (p : PurePath) :
    ∀ {part : Text}, part ∈ p.location → IsComponent part := by
  have key : ∀ (parts directory : List Text), (∀ part ∈ parts, IsPart part) →
      (∀ part ∈ directory, IsComponent part) →
      ∀ part ∈ parts.foldl enter directory, IsComponent part := by
    intro parts
    induction parts with
    | nil => intro directory _ hd; exact hd
    | cons first parts ih =>
        intro directory hparts hd
        have hfirst : IsPart first := hparts first (by simp)
        apply ih _ (fun part h => hparts part (by simp [h]))
        intro part hpart
        unfold enter at hpart
        split at hpart
        · exact hd part (List.dropLast_subset _ hpart)
        · rename_i hne
          rcases List.mem_append.mp hpart with h | h
          · exact hd part h
          · rw [List.mem_singleton.mp h]
            exact ⟨hfirst, hne⟩
  intro part h
  exact key p.parts [] p.proper (by simp) part h

/-- A name leads one directory down. -/
lemma location_joinpath {p : PurePath} {t : Text} (h : IsComponent t) :
    (p.joinpath t).location = p.location ++ [t] := by
  simp [location, parts_joinpath h.1, List.foldl_append, enter, h.2]

/-- Only a name leads to the entry that bears it. -/
lemma location_joinpath_iff {p : PurePath} {t : Text} :
    (p.joinpath t).location = p.location ++ [t] ↔ IsComponent t := by
  constructor
  · intro h
    exact isComponent_of_mem_location (p.joinpath t) (by simp [h])
  · exact location_joinpath

end PurePath

end AgentOrch.Py
