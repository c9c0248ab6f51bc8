import AgentOrch.Framework.Occurrences
import AgentOrch.Framework.PosixPath

/-!
# Paths as texts

`os.path` works on the text of a path: it joins two texts with a slash, puts the home directory of a
user in the place of a leading tilde, and collapses what a lexical reading can collapse.  A collapsed
path is its root, and components of which only the first may be `..`, and none below a root.
-/

namespace AgentOrch.Py

/-! ## Stripping characters -/

/-- `text.rstrip(chars)` -/
def rstripChars (chars t : Text) : Text := (t.reverse.dropWhile fun c => decide (c ∈ chars)).reverse

/-- `text.strip(chars)` -/
def stripChars (chars t : Text) : Text := rstripChars chars (t.dropWhile fun c => decide (c ∈ chars))

namespace PathText

/-! ## Joining and expanding -/

/-- `os.path.isabs` -/
def isAbs (t : Text) : Bool := t.head? = some 0x2F

/-- `os.path.join(a, b)` -/
def joined (a b : Text) : Text :=
  if isAbs b then b
  else if a = [] ∨ a.getLast? = some 0x2F then a ++ b
  else a ++ "/" ++ b

/-- `os.path.expanduser`, where `home` looks up the home directory of a user, and of the current one
under the empty name. -/
def expanduser {ε : Type} (home : Text → Except ε (Option Text)) (t : Text) : Except ε Text :=
  match t with
  | [] => .ok t
  | c :: rest =>
    if c = 0x7E then
      match home (rest.takeWhile (· ≠ 0x2F)) with
      | .error e => .error e
      | .ok none => .ok t
      | .ok (some directory) =>
        let path := rstripChars "/" directory ++ rest.dropWhile (· ≠ 0x2F)
        .ok (if path = [] then "/" else path)
    else .ok t

/-! ## Collapsing -/

/-- The root of a path: none, one slash, or exactly two. -/
def root (t : Text) : Text :=
  if !isAbs t then []
  else if isAbs (t.drop 1) && !isAbs (t.drop 2) then "//"
  else "/"

/-- One component in the loop of `normpath`. -/
def collapse (rooted : Bool) (done : List Text) (component : Text) : List Text :=
  if component = [] ∨ component = ("." : Text) then done
  else if component ≠ (".." : Text) ∨ (rooted = false ∧ done = []) ∨
      done.getLast? = some ("..": Text) then done ++ [component]
  else done.dropLast

/-- The components `normpath` keeps. -/
def components (t : Text) : List Text :=
  (splitOnChar 0x2F (t.drop (root t).length)).foldl (collapse (!(root t).isEmpty)) []

/-- `os.path.normpath` -/
def normpath (t : Text) : Text :=
  if t = [] then "."
  else
    let path := root t ++ join "/" (components t)
    if path = [] then "." else path

/-- What is left of a path that has been collapsed: names, and `..` in front of them where there is
no root to stop at. -/
structure Collapsed (rooted : Bool) (parts : List Text) : Prop where
  names : ∀ part ∈ parts, part ≠ [] ∧ part ≠ ("." : Text) ∧ (0x2F : CodePoint) ∉ part
  upwards : ∃ k rest, parts = List.replicate k (".." : Text) ++ rest ∧ (".." : Text) ∉ rest ∧
    (rooted = true → k = 0)

section
variable {rooted : Bool} {parts : List Text} {component : Text}

lemma collapsed_nil (rooted : Bool) : Collapsed rooted [] :=
  ⟨by simp, 0, [], rfl, by simp, fun _ => rfl⟩

/-- One more component leaves a collapsed path collapsed. -/
lemma Collapsed.collapse (h : Collapsed rooted parts) (hplain : (0x2F : CodePoint) ∉ component) :
    Collapsed rooted (collapse rooted parts component) := by
  obtain ⟨hnames, k, rest, hparts, hrest, hroot⟩ := h
  unfold PathText.collapse
  split_ifs with hskip hkeep
  · exact ⟨hnames, k, rest, hparts, hrest, hroot⟩
  · obtain ⟨hne, hdot⟩ := not_or.mp hskip
    refine ⟨?_, ?_⟩
    · intro part hpart
      rcases List.mem_append.mp hpart with hpart | hpart
      · exact hnames part hpart
      · obtain rfl := List.mem_singleton.mp hpart
        exact ⟨hne, hdot, hplain⟩
    by_cases hup : component = (".." : Text)
    · -- a step upwards is kept only where nothing is left that it could undo
      have hnil : rest = [] ∧ (rooted = true → k + 1 = 0) := by
        rcases hkeep with hkeep | ⟨hfree, hdone⟩ | hlast
        · exact absurd hup hkeep
        · rw [hdone] at hparts
          have hsplit := List.append_eq_nil_iff.mp hparts.symm
          exact ⟨hsplit.2, fun htrue => by rw [hfree] at htrue; cases htrue⟩
        · rw [hparts] at hlast
          have hrestNil : rest = [] := by
            by_contra hne
            rw [List.getLast?_append_of_ne_nil _ hne] at hlast
            exact hrest (List.mem_of_getLast? hlast)
          refine ⟨hrestNil, fun htrue => ?_⟩
          rw [hroot htrue, hrestNil] at hlast
          cases hlast
      refine ⟨k + 1, [], ?_, by simp, hnil.2⟩
      rw [hparts, hnil.1, hup, List.append_nil, List.append_nil, List.replicate_succ']
    · refine ⟨k, rest ++ [component], ?_, ?_, hroot⟩
      · rw [hparts, List.append_assoc]
      · rw [List.mem_append, List.mem_singleton, not_or]
        exact ⟨hrest, fun heq => hup heq.symm⟩
  · refine ⟨fun part hpart => hnames part (List.dropLast_subset _ hpart), ?_⟩
    have hlast := fun h => hkeep (.inr (.inr h))
    by_cases hnil : rest = []
    · subst hnil
      rw [List.append_nil] at hparts
      cases k with
      | zero => exact ⟨0, [], by rw [hparts]; rfl, by simp, fun _ => rfl⟩
      | succ k =>
          refine absurd ?_ hlast
          rw [hparts, List.replicate_succ', List.getLast?_concat]
    · refine ⟨k, rest.dropLast, ?_, fun h => hrest (List.dropLast_subset _ h), hroot⟩
      rw [hparts, List.dropLast_append_of_ne_nil hnil]

/-- The loop of `normpath` ends with a collapsed path. -/
lemma collapsed_components (t : Text) : Collapsed (!(root t).isEmpty) (components t) := by
  have hloop : ∀ {pieces done : List Text}, (∀ piece ∈ pieces, (0x2F : CodePoint) ∉ piece) →
      Collapsed (!(root t).isEmpty) done →
      Collapsed (!(root t).isEmpty) (pieces.foldl (PathText.collapse (!(root t).isEmpty)) done) := by
    intro pieces
    induction pieces with
    | nil => exact fun _ hdone => hdone
    | cons piece pieces ih =>
        intro done hpieces hdone
        obtain ⟨hpiece, hpieces⟩ := List.forall_mem_cons.mp hpieces
        exact ih hpieces (hdone.collapse hpiece)
  exact hloop (fun piece hpiece => notMem_of_mem_splitOnChar _ hpiece) (collapsed_nil _)

/-- Names are kept as they are. -/
lemma foldl_collapse_names {rest : List Text} (hnames : ∀ part ∈ rest, part ≠ [] ∧
    part ≠ ("." : Text) ∧ (0x2F : CodePoint) ∉ part) (hup : (".." : Text) ∉ rest)
    (done : List Text) : rest.foldl (collapse rooted) done = done ++ rest := by
  induction rest generalizing done with
  | nil => rw [List.foldl_nil, List.append_nil]
  | cons part rest ih =>
      obtain ⟨hpart, hnames⟩ := List.forall_mem_cons.mp hnames
      rw [List.mem_cons, not_or] at hup
      have hkeep : collapse rooted done part = done ++ [part] := by
        unfold collapse
        rw [if_neg (not_or.mpr ⟨hpart.1, hpart.2.1⟩), if_pos (.inl fun heq => hup.1 heq.symm)]
      rw [List.foldl_cons, hkeep, ih hnames hup.2, List.append_assoc]
      rfl

/-- So are steps upwards that nothing precedes. -/
lemma foldl_collapse_upwards (j k : ℕ) :
    (List.replicate k (".." : Text)).foldl (collapse false) (List.replicate j ("..": Text)) =
      List.replicate (j + k) ("..": Text) := by
  induction k generalizing j with
  | zero => rfl
  | succ k ih =>
      have hkeep : collapse false (List.replicate j ("..": Text)) ".." =
          List.replicate (j + 1) ("..": Text) := by
        unfold collapse
        rw [if_neg (by decide), if_pos, List.replicate_succ']
        cases j with
        | zero => exact .inr (.inl ⟨rfl, rfl⟩)
        | succ j =>
            refine .inr (.inr ?_)
            rw [List.replicate_succ', List.getLast?_concat]
      rw [List.replicate_succ, List.foldl_cons, hkeep, ih, Nat.add_right_comm, Nat.add_assoc]

/-- A collapsed path has nothing left to collapse. -/
lemma Collapsed.foldl_eq (h : Collapsed rooted parts) : parts.foldl (PathText.collapse rooted) [] =
    parts := by
  obtain ⟨hnames, k, rest, rfl, hrest, hroot⟩ := h
  have hupwards : (List.replicate k (".." : Text)).foldl (PathText.collapse rooted) [] =
      List.replicate k ("..": Text) := by
    cases rooted with
    | true => rw [hroot rfl]; rfl
    | false =>
        have h := foldl_collapse_upwards 0 k
        rwa [Nat.zero_add] at h
  rw [List.foldl_append, hupwards,
    foldl_collapse_names (fun part hpart => hnames part (List.mem_append_right _ hpart)) hrest]

end

/-! ## Collapsing twice -/

section
variable {t body : Text} {parts : List Text}

lemma root_cases (t : Text) : root t = [] ∨ root t = ("/" : Text) ∨ root t = ("//" : Text) := by
  unfold root
  split_ifs
  · exact .inl rfl
  · exact .inr (.inr rfl)
  · exact .inr (.inl rfl)

/-- The root of what stands below a root is that root. -/
lemma root_append (hbody : isAbs body = false) (t : Text) : root (root t ++ body) = root t := by
  rcases root_cases t with h | h | h
  · rw [h, List.nil_append, root, hbody]
    rfl
  · rw [h]
    show root (0x2F :: body) = _
    unfold root
    rw [List.drop_one, List.tail_cons, hbody]
    rfl
  · rw [h]
    show root (0x2F :: 0x2F :: body) = _
    have hsecond : isAbs ((0x2F : CodePoint) :: body) = true := rfl
    unfold root
    rw [List.drop_one, List.tail_cons, List.drop_succ_cons, List.drop_one, List.tail_cons, hbody,
      hsecond]
    rfl

lemma isAbs_join (h : ∀ part ∈ parts, part ≠ [] ∧ part ≠ ("." : Text) ∧
    (0x2F : CodePoint) ∉ part) : isAbs (join "/" parts) = false := by
  have hname : ∀ (part tail : Text), part ≠ [] → (0x2F : CodePoint) ∉ part →
      isAbs (part ++ tail) = false := by
    intro part tail hne hplain
    cases part with
    | nil => exact absurd rfl hne
    | cons c part =>
        rw [isAbs, List.cons_append, List.head?_cons]
        refine decide_eq_false fun heq => hplain ?_
        rw [Option.some.inj heq]
        exact List.mem_cons_self
  cases parts with
  | nil => rfl
  | cons part rest =>
      obtain ⟨⟨hne, -, hplain⟩, -⟩ := List.forall_mem_cons.mp h
      cases rest with
      | nil =>
          have hpart := hname part [] hne hplain
          rwa [List.append_nil] at hpart
      | cons next rest =>
          show isAbs (part ++ "/" ++ join "/" (next :: rest)) = false
          rw [List.append_assoc]
          exact hname part _ hne hplain

/-- What `normpath` keeps, it keeps. -/
lemma components_collapsed (h : Collapsed (!(root t).isEmpty) parts) :
    components (root t ++ join "/" parts) = parts := by
  have hroot := root_append (isAbs_join h.names) t
  unfold components
  rw [hroot, List.drop_left]
  by_cases hnil : parts = []
  · subst hnil
    rfl
  · have hpieces : splitOnChar 0x2F (join "/" parts) = parts :=
      splitOnChar_join hnil fun part hpart => (h.names part hpart).2.2
    rw [hpieces, h.foldl_eq]

/-- A path that was collapsed once stays as it is. -/
theorem normpath_normpath (t : Text) : normpath (normpath t) = normpath t := by
  have hdot : normpath "." = ("." : Text) := by decide
  unfold normpath
  by_cases hnil : t = []
  · rw [if_pos hnil]
    exact hdot
  rw [if_neg hnil]
  dsimp only
  by_cases hpath : root t ++ join "/" (components t) = []
  · rw [if_pos hpath]
    exact hdot
  · have hcollapsed := collapsed_components t
    rw [if_neg hpath, if_neg hpath, root_append (isAbs_join hcollapsed.names),
      components_collapsed hcollapsed, if_neg hpath]

lemma normpath_ne_nil (t : Text) : normpath t ≠ [] := by
  unfold normpath
  dsimp only
  split_ifs with hnil hpath
  · decide
  · decide
  · exact hpath

end

end PathText

end AgentOrch.Py
