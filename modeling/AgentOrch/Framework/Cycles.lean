import AgentOrch.Framework.Digraph
import Mathlib.Logic.Relation

/-!
# What the searches of a digraph answer

`hasCycle` answers `true` exactly when there is a cycle inside the nodes: the grey nodes are a path,
so a successor among them closes a cycle, and the black ones stand in topological order.  `reach`
collects what the reflexive transitive closure of the edges relates to the root.

`SearchesAll` is the search without fuel; a derivation of it is a run that ends.
-/

namespace AgentOrch.Digraph

variable {α : Type} [DecidableEq α] {succ : α → List α} {nodes : List α}

/-! ## Cycles -/

/-- A closed walk through distinct nodes. -/
structure IsCycle (succ : α → List α) (cycle : List α) : Prop where
  ne_nil : cycle ≠ []
  nodup : cycle.Nodup
  chain : cycle.IsChain fun a b => b ∈ succ a
  closes : cycle.head ne_nil ∈ succ (cycle.getLast ne_nil)

/-- The edges inside a set of nodes. -/
def inside (succ : α → List α) (nodes : List α) (u : α) : List α := (succ u).filter (· ∈ nodes)

lemma mem_inside {u v : α} : v ∈ inside succ nodes u ↔ v ∈ succ u ∧ v ∈ nodes := by
  simp [inside]

/-- A cycle of the edges inside a set is a cycle inside the set. -/
lemma isCycle_inside {cycle : List α} :
    IsCycle (inside succ nodes) cycle ↔ IsCycle succ cycle ∧ cycle ⊆ nodes := by
  constructor
  · intro h
    have hchain : cycle.IsChain fun a b => b ∈ succ a :=
      h.chain.imp fun a b hab => (mem_inside.mp hab).1
    refine ⟨⟨h.ne_nil, h.nodup, hchain, (mem_inside.mp h.closes).1⟩, ?_⟩
    intro u hu
    obtain ⟨first, rest, rfl⟩ := List.exists_cons_of_ne_nil h.ne_nil
    rcases List.mem_cons.mp hu with rfl | hu
    · exact (mem_inside.mp h.closes).2
    · obtain ⟨i, hi, rfl⟩ := List.mem_iff_getElem.mp hu
      have hstep := List.isChain_iff_getElem.mp h.chain i (by simpa using hi)
      exact (mem_inside.mp hstep).2
  · rintro ⟨h, hsub⟩
    refine ⟨h.ne_nil, h.nodup, ?_, mem_inside.mpr ⟨h.closes, hsub (List.head_mem h.ne_nil)⟩⟩
    rw [List.isChain_iff_getElem]
    intro i hi
    exact mem_inside.mpr ⟨List.isChain_iff_getElem.mp h.chain i hi, hsub (List.getElem_mem _)⟩

/-- In a topological order every edge goes forward. -/
lemma Topo.forward {order : List α} (h : Topo succ order) :
    ∀ {u v : α}, u ∈ order → v ∈ succ u → v ∈ order ∧ order.idxOf u < order.idxOf v := by
  induction h with
  | nil => intro u v hu; cases hu
  | @cons w order _ hw hsucc ih =>
      intro u v hu hv
      by_cases huw : u = w
      · subst huw
        have hvorder : v ∈ order := hsucc v hv
        have hne : u ≠ v := fun heq => hw (heq ▸ hvorder)
        rw [List.idxOf_cons_self, List.idxOf_cons_ne _ hne]
        exact ⟨List.mem_cons_of_mem _ hvorder, by omega⟩
      · obtain ⟨hvorder, hlt⟩ := ih ((List.mem_cons.mp hu).resolve_left huw) hv
        have hne : w ≠ v := fun heq => hw (heq ▸ hvorder)
        rw [List.idxOf_cons_ne _ (Ne.symm huw), List.idxOf_cons_ne _ hne]
        exact ⟨List.mem_cons_of_mem _ hvorder, by omega⟩

/-- A topologically ordered set has no cycle. -/
lemma Topo.not_isCycle {order cycle : List α} (h : Topo succ order) (hsub : cycle ⊆ order)
    (hcycle : IsCycle succ cycle) : False := by
  have hrising : cycle.IsChain fun a b => order.idxOf a < order.idxOf b := by
    rw [List.isChain_iff_getElem]
    intro i hi
    have hstep := List.isChain_iff_getElem.mp hcycle.chain i hi
    exact (h.forward (hsub (List.getElem_mem _)) hstep).2
  have htrans : IsTrans α fun a b => order.idxOf a < order.idxOf b := ⟨fun _ _ _ => lt_trans⟩
  have hpair := List.isChain_iff_pairwise.mp hrising
  have hback := (h.forward (hsub (List.getLast_mem hcycle.ne_nil)) hcycle.closes).2
  obtain ⟨first, rest, rfl⟩ := List.exists_cons_of_ne_nil hcycle.ne_nil
  rcases List.mem_cons.mp (List.getLast_mem hcycle.ne_nil) with hlast | hlast
  · rw [hlast] at hback
    exact lt_irrefl _ hback
  · exact lt_asymm hback ((List.pairwise_cons.mp hpair).1 _ hlast)

/-! ## The search without fuel -/

/-- One depth-first search that ends, and what it answers. -/
inductive Searches (succ : α → List α) :
    (α → Colour) → List (α × List α) → Bool × (α → Colour) → Prop
  | done {colour : α → Colour} : Searches succ colour [] (false, colour)
  | blacken {colour : α → Colour} {name : α} {stack : List (α × List α)}
      {answer : Bool × (α → Colour)}
      (h : Searches succ (Function.update colour name .black) stack answer) :
    Searches succ colour ((name, []) :: stack) answer
  | found {colour : α → Colour} {name target : α} {pending : List α} {stack : List (α × List α)}
      (hgrey : colour target = .grey) :
    Searches succ colour ((name, target :: pending) :: stack) (true, colour)
  | descend {colour : α → Colour} {name target : α} {pending : List α} {stack : List (α × List α)}
      {answer : Bool × (α → Colour)} (hwhite : colour target = .white)
      (h : Searches succ (Function.update colour target .grey)
        ((target, (succ target).reverse) :: (name, pending) :: stack) answer) :
    Searches succ colour ((name, target :: pending) :: stack) answer
  | skip {colour : α → Colour} {name target : α} {pending : List α} {stack : List (α × List α)}
      {answer : Bool × (α → Colour)} (hblack : colour target = .black)
      (h : Searches succ colour ((name, pending) :: stack) answer) :
    Searches succ colour ((name, target :: pending) :: stack) answer

/-- The searches from the roots that are white, each of which ends. -/
inductive SearchesAll (succ : α → List α) : (α → Colour) → List α → Bool → Prop
  | done {colour : α → Colour} : SearchesAll succ colour [] false
  | found {colour colour' : α → Colour} {root : α} {roots : List α} (hwhite : colour root = .white)
      (h : Searches succ (Function.update colour root .grey) [(root, (succ root).reverse)]
        (true, colour')) :
    SearchesAll succ colour (root :: roots) true
  | next {colour colour' : α → Colour} {root : α} {roots : List α} {answer : Bool}
      (hwhite : colour root = .white)
      (h : Searches succ (Function.update colour root .grey) [(root, (succ root).reverse)]
        (false, colour'))
      (rest : SearchesAll succ colour' roots answer) :
    SearchesAll succ colour (root :: roots) answer
  | coloured {colour : α → Colour} {root : α} {roots : List α} {answer : Bool}
      (hcoloured : colour root ≠ .white) (rest : SearchesAll succ colour roots answer) :
    SearchesAll succ colour (root :: roots) answer

/-- What a push adds to the work is less than what it takes off. -/
lemma searchWork_push {colour : α → Colour} {name target : α} {pending : List α}
    {stack : List (α × List α)} (htarget : target ∈ nodes) (hwhite : colour target = .white) :
    searchWork succ nodes (Function.update colour target .grey)
        ((target, (succ target).reverse) :: (name, pending) :: stack) <
      searchWork succ nodes colour ((name, target :: pending) :: stack) := by
  have hw := weight_add_le succ nodes
    (p := fun u => colour u = .white)
    (q := fun u => Function.update colour target .grey u = .white) (f := target) (by
      intro x hx
      by_cases hxt : x = target
      · simp [hxt] at hx
      · simpa [hxt] using hx) htarget (by simpa using hwhite) (by simp)
  simp only [searchWork, List.map_cons, List.sum_cons, List.length_reverse, List.length_cons]
  omega

lemma searchWork_pop {colour : α → Colour} {name : α} {stack : List (α × List α)} :
    searchWork succ nodes (Function.update colour name .black) stack <
      searchWork succ nodes colour ((name, []) :: stack) := by
  have hw := weight_le succ nodes
    (p := fun u => colour u = .white)
    (q := fun u => Function.update colour name .black u = .white) (by
      intro x hx
      by_cases hxn : x = name
      · simp [hxn] at hx
      · simpa [hxn] using hx)
  simp only [searchWork, List.map_cons, List.sum_cons]
  omega

/-- With fuel enough for the work it has left, a search ends. -/
lemma searches_search (hsucc : ∀ u ∈ nodes, ∀ v ∈ succ u, v ∈ nodes) (n : ℕ) :
    ∀ {colour : α → Colour} {stack : List (α × List α)} {done : List α},
      SearchInv succ nodes colour stack done → searchWork succ nodes colour stack < n →
      Searches succ colour stack (search succ n colour stack) := by
  induction n with
  | zero => intro colour stack done _ hn; omega
  | succ n ih =>
      intro colour stack done hinv hn
      match stack, hinv, hn with
      | [], _, _ => exact .done
      | (name, []) :: stack, hinv, hn =>
          exact .blacken (ih hinv.pop (searchWork_pop.trans_le (Nat.lt_succ_iff.mp hn)))
      | (name, target :: pending) :: stack, hinv, hn =>
          rw [search]
          split
          · next hgrey => exact .found hgrey
          · next hwhite =>
            have htarget : target ∈ nodes := (List.cons_subset.mp hinv.frames.2.1).1
            exact .descend hwhite (ih (hinv.push hsucc hwhite)
              ((searchWork_push htarget hwhite).trans_le (Nat.lt_succ_iff.mp hn)))
          · next hblack =>
            refine .skip hblack (ih (hinv.skip hblack) ?_)
            simp only [searchWork, List.map_cons, List.sum_cons, List.length_cons] at hn ⊢
            omega

/-- The start of a search from a white root. -/
lemma SearchInv.start {colour : α → Colour} {root : α} {done : List α}
    (hsucc : ∀ u ∈ nodes, ∀ v ∈ succ u, v ∈ nodes) (hinv : SearchInv succ nodes colour [] done)
    (hroot : root ∈ nodes) (hwhite : colour root = .white) :
    SearchInv succ nodes (Function.update colour root .grey) [(root, (succ root).reverse)]
      done := by
  have hfresh : root ∉ done := fun hd => by
    rw [(hinv.black root).mpr hd] at hwhite
    cases hwhite
  refine ⟨hinv.topo, hinv.inside, fun u => ?_, fun u => ?_, by simp,
    fun v hv => .inl (List.mem_reverse.mpr hv),
    fun v hv => hsucc root hroot v (List.mem_reverse.mp hv), hroot, trivial⟩
  · by_cases hu : u = root
    · simp [hu, hfresh]
    · simp [hu, hinv.black u]
  · by_cases hu : u = root
    · simp [hu]
    · simpa [hu] using hinv.grey u

lemma searchWork_start {colour : α → Colour} {root : α} (hroot : root ∈ nodes) :
    searchWork succ nodes (Function.update colour root .grey) [(root, (succ root).reverse)] <
      weight succ nodes (fun _ => true) + 2 := by
  have hw := weight_add_le succ nodes (p := fun _ => true)
    (q := fun u => Function.update colour root .grey u = .white) (f := root)
    (by simp) hroot rfl (by simp)
  simp only [searchWork, List.map_cons, List.map_nil, List.sum_cons, List.sum_nil,
    List.length_reverse]
  omega

/-! ## A cycle on the stack -/

/-- The stack is a path, read from the bottom, and what a frame has left are successors. -/
structure Linked (succ : α → List α) (stack : List (α × List α)) : Prop where
  path : (stack.map Prod.fst).IsChain fun a b => a ∈ succ b
  pending : ∀ frame ∈ stack, frame.2 ⊆ succ frame.1

omit [DecidableEq α] in
lemma Linked.tail {frame : α × List α} {stack : List (α × List α)}
    (h : Linked succ (frame :: stack)) : Linked succ stack :=
  ⟨h.path.tail, fun f hf => h.pending f (List.mem_cons_of_mem _ hf)⟩

omit [DecidableEq α] in
lemma Linked.skip {name target : α} {pending : List α} {stack : List (α × List α)}
    (h : Linked succ ((name, target :: pending) :: stack)) :
    Linked succ ((name, pending) :: stack) := by
  refine ⟨h.path, ?_⟩
  intro frame hframe
  rcases List.mem_cons.mp hframe with rfl | hframe
  · exact (List.cons_subset.mp (h.pending _ List.mem_cons_self)).2
  · exact h.pending frame (List.mem_cons_of_mem _ hframe)

omit [DecidableEq α] in
lemma Linked.push {name target : α} {pending : List α} {stack : List (α × List α)}
    (h : Linked succ ((name, target :: pending) :: stack)) :
    Linked succ ((target, (succ target).reverse) :: (name, pending) :: stack) := by
  have htarget : target ∈ succ name := (List.cons_subset.mp (h.pending _ List.mem_cons_self)).1
  refine ⟨?_, ?_⟩
  · exact List.isChain_cons_cons.mpr ⟨htarget, h.path⟩
  · intro frame hframe
    rcases List.mem_cons.mp hframe with rfl | hframe
    · intro v hv
      exact List.mem_reverse.mp hv
    · exact h.skip.pending frame hframe

omit [DecidableEq α] in
/-- A successor of the top of the stack that is on the stack closes a cycle. -/
lemma Linked.isCycle {name target : α} {pending : List α} {stack : List (α × List α)}
    (h : Linked succ ((name, target :: pending) :: stack))
    (hnodup : (((name, target :: pending) :: stack).map Prod.fst).Nodup)
    (hmem : target ∈ ((name, target :: pending) :: stack).map Prod.fst) :
    ∃ cycle, IsCycle succ cycle ∧ cycle ⊆ ((name, target :: pending) :: stack).map Prod.fst := by
  have htarget : target ∈ succ name := (List.cons_subset.mp (h.pending _ List.mem_cons_self)).1
  obtain ⟨above, below, heq⟩ := List.append_of_mem hmem
  have hsplit :
      ((name, target :: pending) :: stack).map Prod.fst = (above ++ [target]) ++ below := by
    rw [heq, List.append_assoc, List.singleton_append]
  have hpath := h.path
  rw [hsplit] at hpath hnodup ⊢
  refine ⟨(above ++ [target]).reverse, ⟨by simp, ?_, ?_, ?_⟩, ?_⟩
  · exact List.nodup_reverse.mpr (List.nodup_append.mp hnodup).1
  · exact List.isChain_reverse.mpr (hpath.left_of_append)
  · have hfirst : (above ++ [target]).head (by simp) = name := by
      cases above with
      | nil => simpa using (congrArg List.head? heq).symm
      | cons first rest => simpa using (congrArg List.head? heq).symm
    rw [List.getLast_reverse, hfirst]
    simpa using htarget
  · intro u hu
    exact List.mem_append_left _ (List.mem_reverse.mp hu)

/-- A search that answers `true` has met a cycle. -/
lemma Searches.isCycle (hsucc : ∀ u ∈ nodes, ∀ v ∈ succ u, v ∈ nodes) {colour : α → Colour}
    {stack : List (α × List α)} {answer : Bool × (α → Colour)}
    (h : Searches succ colour stack answer) :
    ∀ {done : List α}, SearchInv succ nodes colour stack done → Linked succ stack →
      answer.1 = true → ∃ cycle, IsCycle succ cycle := by
  induction h with
  | done => intro _ _ _ hanswer; cases hanswer
  | blacken _ ih => intro _ hinv hlinked hanswer; exact ih hinv.pop hlinked.tail hanswer
  | found hgrey =>
      intro _ hinv hlinked _
      obtain ⟨cycle, hcycle, -⟩ := hlinked.isCycle hinv.nodup ((hinv.grey _).mp hgrey)
      exact ⟨cycle, hcycle⟩
  | descend hwhite _ ih =>
      intro _ hinv hlinked hanswer
      exact ih (hinv.push hsucc hwhite) hlinked.push hanswer
  | skip hblack _ ih =>
      intro _ hinv hlinked hanswer
      exact ih (hinv.skip hblack) hlinked.skip hanswer

/-! ## The answers -/

/-- The searches from all roots end, and if one of them answers `true` there is a cycle. -/
lemma searchesAll_searchAll (hsucc : ∀ u ∈ nodes, ∀ v ∈ succ u, v ∈ nodes) :
    ∀ {roots : List α} {colour : α → Colour} {done : List α}, roots ⊆ nodes →
      SearchInv succ nodes colour [] done →
      SearchesAll succ colour roots
          (searchAll succ (weight succ nodes (fun _ => true) + 2) colour roots) ∧
        (searchAll succ (weight succ nodes (fun _ => true) + 2) colour roots = true →
          ∃ cycle, IsCycle succ cycle) := by
  intro roots
  induction roots with
  | nil => intro colour done _ _; exact ⟨.done, fun h => nomatch h⟩
  | cons root roots ih =>
      intro colour done hroots hinv
      obtain ⟨hroot, hroots⟩ := List.cons_subset.mp hroots
      rw [searchAll]
      split
      · next hwhite =>
        have hstart := hinv.start hsucc hroot hwhite
        have hends := searches_search hsucc _ hstart (searchWork_start hroot)
        split
        · next colour' hsearch =>
          rw [hsearch] at hends
          have hlinked : Linked succ [(root, (succ root).reverse)] :=
            ⟨List.isChain_singleton _, fun frame hframe => by
              obtain rfl := List.mem_singleton.mp hframe
              intro v hv
              exact List.mem_reverse.mp hv⟩
          exact ⟨.found hwhite hends, fun _ => hends.isCycle hsucc hstart hlinked rfl⟩
        · next colour' hsearch =>
          obtain ⟨done', hinv', -⟩ :=
            search_spec hsucc _ hstart (searchWork_start hroot) hsearch
          rw [hsearch] at hends
          obtain ⟨hall, hcycle⟩ := ih hroots hinv'
          exact ⟨.next hwhite hends hall, hcycle⟩
      · next hcoloured =>
        obtain ⟨hall, hcycle⟩ := ih hroots hinv
        exact ⟨.coloured hcoloured hall, hcycle⟩

/-- `hasCycle` is the answer of searches that end. -/
theorem hasCycle_searches :
    SearchesAll (inside succ nodes) (fun _ => .white) nodes (hasCycle succ nodes) ∧
      (hasCycle succ nodes = true → ∃ cycle, IsCycle (inside succ nodes) cycle) := by
  have hinv : SearchInv (inside succ nodes) nodes (fun _ => .white) [] [] :=
    ⟨.nil, by simp, by simp, by simp, by simp, trivial⟩
  exact searchesAll_searchAll (fun u _ v hv => (mem_inside.mp hv).2) (List.Subset.refl _) hinv

/-- It is `true` exactly when there is a cycle inside the nodes. -/
theorem hasCycle_iff :
    hasCycle succ nodes = true ↔ ∃ cycle, IsCycle succ cycle ∧ cycle ⊆ nodes := by
  constructor
  · intro h
    obtain ⟨cycle, hcycle⟩ := hasCycle_searches.2 h
    exact ⟨cycle, isCycle_inside.mp hcycle⟩
  · rintro ⟨cycle, hcycle, hsub⟩
    by_contra hfalse
    obtain ⟨order, htopo, -, hsup⟩ := hasCycle_false (Bool.eq_false_iff.mpr hfalse)
    exact htopo.not_isCycle (List.Subset.trans hsub hsup) (isCycle_inside.mpr ⟨hcycle, hsub⟩)

lemma reachFrom_sound {root : α} (n : ℕ) : ∀ {seen frontier : List α},
    (∀ u ∈ seen, Relation.ReflTransGen (fun a b => b ∈ succ a) root u) →
    (∀ u ∈ frontier, Relation.ReflTransGen (fun a b => b ∈ succ a) root u) →
      ∀ u ∈ reachFrom succ n seen frontier,
        Relation.ReflTransGen (fun a b => b ∈ succ a) root u := by
  induction n with
  | zero => intro seen frontier hseen _; exact hseen
  | succ n ih =>
      intro seen frontier hseen hfrontier
      cases frontier with
      | nil => exact hseen
      | cons f frontier =>
          obtain ⟨hf, hrest⟩ := List.forall_mem_cons.mp hfrontier
          simp only [reachFrom]
          split
          · exact ih hseen hrest
          · refine ih (List.forall_mem_cons.mpr ⟨hf, hseen⟩) ?_
            intro u hu
            rcases List.mem_append.mp hu with hu | hu
            · exact hf.tail (List.mem_reverse.mp hu)
            · exact hrest u hu

/-- `reach` collects what a walk from the root leads to. -/
theorem mem_reach {verts : List α} {root u : α} (hclosed : ∀ u ∈ verts, ∀ v ∈ succ u, v ∈ verts)
    (hroot : root ∈ verts) :
    u ∈ reach succ verts root ↔ Relation.ReflTransGen (fun a b => b ∈ succ a) root u := by
  constructor
  · apply reachFrom_sound
    · simp
    · intro v hv
      obtain rfl := List.mem_singleton.mp hv
      exact .refl
  · intro hwalk
    obtain ⟨hmem, hstep, -⟩ := reach_closed hclosed hroot
    induction hwalk with
    | refl => exact hmem
    | tail _ hedge ih => exact hstep _ ih _ hedge

end AgentOrch.Digraph
