import Mathlib.Data.List.Basic
import Mathlib.Data.List.Chain
import Mathlib.Data.List.Nodup
import Mathlib.Data.List.Perm.Subperm
import Mathlib.Algebra.BigOperators.Group.List.Basic
import Mathlib.Algebra.Ring.Nat
import Mathlib.Tactic.Common

/-!
# Finite digraphs by successor lists

Two worklist algorithms over a successor function, and what their answers mean:

* `reach` collects everything an explicit stack can reach, and its answer is closed under
  successors (`reach_closed`);
* `hasCycle` is the iterative three-colour depth-first search.  When it answers `false`, the
  order in which nodes turned black is a topological order (`hasCycle_false`), and a walk inside
  a topologically ordered set is no longer than the set (`Topo.walk_length_le`).

Both run on fuel; the weight of the nodes not visited yet is fuel enough, because a node's
successors are only pushed when the node is first seen.
-/

namespace AgentOrch.Digraph

variable {α : Type} [DecidableEq α]

/-! ## Weights -/

/-- The work the nodes of `verts` satisfying `p` still cost: one step each and one for each
successor. -/
def weight (succ : α → List α) (verts : List α) (p : α → Bool) : ℕ :=
  ((verts.filter p).map fun u => (succ u).length + 1).sum

omit [DecidableEq α] in
lemma weight_le (succ : α → List α) (verts : List α) {p q : α → Bool}
    (h : ∀ x, q x = true → p x = true) : weight succ verts q ≤ weight succ verts p := by
  induction verts with
  | nil => exact le_rfl
  | cons u us ih =>
      simp only [weight] at ih ⊢
      cases hq : q u with
      | true =>
          simp only [List.filter_cons, hq, h u hq, if_true, List.map_cons, List.sum_cons]
          omega
      | false =>
          cases hp : p u <;>
            simp only [List.filter_cons, hq, hp, if_true, Bool.false_eq_true, if_false,
              List.map_cons, List.sum_cons] <;>
            omega

/-- Taking `f` out of the nodes to visit pays for pushing its successors. -/
lemma weight_add_le (succ : α → List α) (verts : List α) {p q : α → Bool} {f : α}
    (h : ∀ x, q x = true → p x = true) (hf : f ∈ verts) (hpf : p f = true)
    (hqf : q f = false) :
    weight succ verts q + ((succ f).length + 1) ≤ weight succ verts p := by
  induction verts with
  | nil => cases hf
  | cons u us ih =>
      by_cases hu : u = f
      · subst hu
        have := weight_le succ us h
        simp only [weight, List.filter_cons, hpf, hqf, if_true, if_neg Bool.false_ne_true,
          List.map_cons, List.sum_cons] at this ⊢
        omega
      · have ih := ih (List.mem_of_ne_of_mem (Ne.symm hu) hf)
        simp only [weight] at ih ⊢
        cases hq : q u with
        | true =>
            simp only [List.filter_cons, hq, h u hq, if_true, List.map_cons, List.sum_cons]
            omega
        | false =>
            cases hp : p u <;>
              simp only [List.filter_cons, hq, hp, if_true, Bool.false_eq_true, if_false,
                List.map_cons, List.sum_cons] <;>
              omega

/-! ## Reachability -/

/-- The nodes seen once the frontier is worked off; the head of the frontier is popped first. -/
def reachFrom (succ : α → List α) : ℕ → List α → List α → List α
  | 0, seen, _ => seen
  | _ + 1, seen, [] => seen
  | fuel + 1, seen, f :: frontier =>
    if f ∈ seen then reachFrom succ fuel seen frontier
    else reachFrom succ fuel (f :: seen) ((succ f).reverse ++ frontier)

/-- What can be reached from `root` inside `verts`. -/
def reach (succ : α → List α) (verts : List α) (root : α) : List α :=
  reachFrom succ (weight succ verts (fun _ => true) + 2) [] [root]

section
variable {succ : α → List α} {verts : List α}

lemma subset_reachFrom (n : ℕ) : ∀ {seen frontier : List α}, seen ⊆ reachFrom succ n seen frontier := by
  induction n with
  | zero => intro seen frontier; exact List.Subset.refl _
  | succ n ih =>
      intro seen frontier
      cases frontier with
      | nil => exact List.Subset.refl _
      | cons f frontier =>
          simp only [reachFrom]
          split
          · exact ih
          · exact List.Subset.trans (List.subset_cons_self _ _) ih

lemma reachFrom_subset (hclosed : ∀ u ∈ verts, ∀ v ∈ succ u, v ∈ verts) (n : ℕ) :
    ∀ {seen frontier : List α}, seen ⊆ verts → frontier ⊆ verts →
      reachFrom succ n seen frontier ⊆ verts := by
  induction n with
  | zero => intro seen frontier hs _; exact hs
  | succ n ih =>
      intro seen frontier hs hf
      cases frontier with
      | nil => exact hs
      | cons f frontier =>
          obtain ⟨hfu, hrest⟩ := List.cons_subset.mp hf
          simp only [reachFrom]
          split
          · exact ih hs hrest
          · refine ih (List.cons_subset.mpr ⟨hfu, hs⟩) (List.append_subset.mpr ⟨?_, hrest⟩)
            intro v hv
            exact hclosed f hfu v (List.mem_reverse.mp hv)

lemma reachFrom_closed (hclosed : ∀ u ∈ verts, ∀ v ∈ succ u, v ∈ verts) (n : ℕ) :
    ∀ seen frontier : List α, frontier ⊆ verts →
      weight succ verts (fun u => decide (u ∉ seen)) + frontier.length < n →
      (∀ u ∈ seen, ∀ v ∈ succ u, v ∈ seen ∨ v ∈ frontier) →
      (frontier ⊆ reachFrom succ n seen frontier) ∧
        ∀ u ∈ reachFrom succ n seen frontier, ∀ v ∈ succ u, v ∈ reachFrom succ n seen frontier := by
  induction n with
  | zero => intro seen frontier _ hn; omega
  | succ n ih =>
      intro seen frontier hf hn hinv
      cases frontier with
      | nil => exact ⟨by simp, fun u hu v hv => (hinv u hu v hv).resolve_right (by simp)⟩
      | cons f frontier =>
          obtain ⟨hfu, hrest⟩ := List.cons_subset.mp hf
          simp only [reachFrom]
          by_cases hseen : f ∈ seen
          · rw [if_pos hseen]
            have hn' : weight succ verts (fun u => decide (u ∉ seen)) + frontier.length < n := by
              rw [List.length_cons] at hn
              omega
            obtain ⟨hsub, hc⟩ := ih _ _ hrest hn' (fun u hu v hv => by
              rcases hinv u hu v hv with h | h
              · exact .inl h
              · rcases List.mem_cons.mp h with rfl | h
                · exact .inl hseen
                · exact .inr h)
            exact ⟨List.cons_subset.mpr ⟨subset_reachFrom n hseen, hsub⟩, hc⟩
          · rw [if_neg hseen]
            have hw := weight_add_le succ verts
              (p := fun u => decide (u ∉ seen)) (q := fun u => decide (u ∉ f :: seen)) (f := f)
              (by simp) hfu (by simpa using hseen) (by simp)
            obtain ⟨hsub, hc⟩ := ih (f :: seen) ((succ f).reverse ++ frontier)
              (List.append_subset.mpr
                ⟨fun v hv => hclosed f hfu v (List.mem_reverse.mp hv), hrest⟩)
              (by simp only [List.length_append, List.length_reverse, List.length_cons] at hn ⊢
                  omega)
              (fun u hu v hv => by
                rcases List.mem_cons.mp hu with rfl | hu
                · exact .inr (List.mem_append_left _ (List.mem_reverse.mpr hv))
                · rcases hinv u hu v hv with h | h
                  · exact .inl (List.mem_cons_of_mem _ h)
                  · rcases List.mem_cons.mp h with rfl | h
                    · exact .inl List.mem_cons_self
                    · exact .inr (List.mem_append_right _ h))
            refine ⟨List.cons_subset.mpr ⟨subset_reachFrom n List.mem_cons_self, ?_⟩, hc⟩
            exact (List.append_subset.mp hsub).2

/-- The answer of `reach` holds the root, is closed under successors and stays in `verts`. -/
theorem reach_closed {root : α} (hclosed : ∀ u ∈ verts, ∀ v ∈ succ u, v ∈ verts)
    (hroot : root ∈ verts) :
    root ∈ reach succ verts root ∧
      (∀ u ∈ reach succ verts root, ∀ v ∈ succ u, v ∈ reach succ verts root) ∧
      reach succ verts root ⊆ verts := by
  have hsub : [root] ⊆ verts := by simpa using hroot
  obtain ⟨h1, h2⟩ := reachFrom_closed hclosed (weight succ verts (fun _ => true) + 2)
    [] [root] hsub (by simp) (by simp)
  exact ⟨h1 List.mem_cons_self, h2, reachFrom_subset hclosed _ (by simp) hsub⟩

end

/-! ## Topological orders -/

/-- `order` lists nodes so that every successor of a node comes after it in the list. -/
inductive Topo (succ : α → List α) : List α → Prop
  | nil : Topo succ []
  | cons {u : α} {order : List α} (h : Topo succ order) (hu : u ∉ order)
      (hsucc : ∀ v ∈ succ u, v ∈ order) : Topo succ (u :: order)

omit [DecidableEq α] in
lemma Topo.nodup {succ : α → List α} {order : List α} (h : Topo succ order) : order.Nodup := by
  induction h with
  | nil => exact List.nodup_nil
  | cons _ hu _ ih => exact List.nodup_cons.mpr ⟨hu, ih⟩

omit [DecidableEq α] in
/-- A walk that starts in a topologically ordered set is no longer than the set. -/
theorem Topo.walk_length_le {succ : α → List α} {order : List α} (h : Topo succ order) :
    ∀ {u : α} {walk : List α}, u ∈ order → (u :: walk).IsChain (fun a b => b ∈ succ a) →
      (u :: walk).length ≤ order.length := by
  induction h with
  | nil => intro u walk hu; cases hu
  | @cons w order _ hw hsucc ih =>
      intro u walk hu hchain
      rcases List.mem_cons.mp hu with rfl | hu
      · cases walk with
        | nil => simp
        | cons v walk =>
            obtain ⟨hv, hchain⟩ := List.isChain_cons_cons.mp hchain
            have := ih (hsucc v hv) hchain
            simpa using this
      · exact (ih hu hchain).trans (by simp)

/-! ## The three-colour search -/

inductive Colour
  | white
  | grey
  | black
  deriving DecidableEq

/-- One depth-first search: `true` as soon as a successor on the stack is met, and otherwise the
colours when the stack is empty.  A frame holds a node and the successors it has left. -/
def search (succ : α → List α) : ℕ → (α → Colour) → List (α × List α) → Bool × (α → Colour)
  | 0, colour, _ => (false, colour)
  | _ + 1, colour, [] => (false, colour)
  | fuel + 1, colour, (name, []) :: stack =>
    search succ fuel (Function.update colour name .black) stack
  | fuel + 1, colour, (name, target :: pending) :: stack =>
    match colour target with
    | .grey => (true, colour)
    | .white =>
      search succ fuel (Function.update colour target .grey)
        ((target, (succ target).reverse) :: (name, pending) :: stack)
    | .black => search succ fuel colour ((name, pending) :: stack)

/-- The searches from every root that is still white. -/
def searchAll (succ : α → List α) (fuel : ℕ) : (α → Colour) → List α → Bool
  | _, [] => false
  | colour, root :: roots =>
    if colour root = .white then
      match search succ fuel (Function.update colour root .grey) [(root, (succ root).reverse)] with
      | (true, _) => true
      | (false, colour) => searchAll succ fuel colour roots
    else searchAll succ fuel colour roots

/-- Is there a cycle inside `nodes`?  Edges that leave the set are ignored. -/
def hasCycle (succ : α → List α) (nodes : List α) : Bool :=
  let inner := fun u => (succ u).filter (· ∈ nodes)
  searchAll inner (weight inner nodes (fun _ => true) + 2) (fun _ => .white) nodes

section
variable {succ : α → List α} {nodes : List α}

/-- The frames of the stack: each successor of a frame's node is still pending, is done, or is
the node of the frame above. -/
def FramesOk (succ : α → List α) (nodes done : List α) : Option α → List (α × List α) → Prop
  | _, [] => True
  | above, (name, pending) :: stack =>
    (∀ v ∈ succ name, v ∈ pending ∨ v ∈ done ∨ above = some v) ∧
      pending ⊆ nodes ∧ name ∈ nodes ∧ FramesOk succ nodes done (some name) stack

omit [DecidableEq α] in
lemma FramesOk.mono {done done' : List α} (hsub : done ⊆ done') :
    ∀ {above : Option α} {stack : List (α × List α)},
      FramesOk succ nodes done above stack → FramesOk succ nodes done' above stack
  | _, [], _ => trivial
  | _, (_, _) :: _, ⟨h1, h2, h3, h4⟩ =>
      ⟨fun v hv => (h1 v hv).imp_right (Or.imp_left (@hsub v)), h2, h3, h4.mono hsub⟩

omit [DecidableEq α] in
/-- Once the node above is done, its frame may go. -/
lemma FramesOk.pop {done : List α} {u : α} :
    ∀ {stack : List (α × List α)}, FramesOk succ nodes done (some u) stack →
      FramesOk succ nodes (u :: done) none stack
  | [], _ => trivial
  | (_, _) :: _, ⟨h1, h2, h3, h4⟩ => by
      refine ⟨fun v hv => ?_, h2, h3, h4.mono (List.subset_cons_self _ _)⟩
      rcases h1 v hv with h | h | h
      · exact .inl h
      · exact .inr (.inl (List.mem_cons_of_mem _ h))
      · exact .inr (.inl (by simp [Option.some.inj h]))

/-- The state of a search: the black nodes stand in topological order, the grey ones are the
nodes on the stack. -/
structure SearchInv (succ : α → List α) (nodes : List α) (colour : α → Colour)
    (stack : List (α × List α)) (done : List α) : Prop where
  topo : Topo succ done
  inside : done ⊆ nodes
  black : ∀ u, colour u = .black ↔ u ∈ done
  grey : ∀ u, colour u = .grey ↔ u ∈ stack.map Prod.fst
  nodup : (stack.map Prod.fst).Nodup
  frames : FramesOk succ nodes done none stack

/-- The work a search has left: the frames on the stack and the nodes still white. -/
def searchWork (succ : α → List α) (nodes : List α) (colour : α → Colour)
    (stack : List (α × List α)) : ℕ :=
  weight succ nodes (fun u => colour u = .white) + (stack.map fun f => f.2.length + 1).sum

lemma SearchInv.pop {colour : α → Colour} {name : α} {stack : List (α × List α)} {done : List α}
    (h : SearchInv succ nodes colour ((name, []) :: stack) done) :
    SearchInv succ nodes (Function.update colour name .black) stack (name :: done) := by
  obtain ⟨hsucc, -, hname, hframes⟩ := h.frames
  have hgrey : colour name = .grey := (h.grey name).mpr (by simp)
  have hfresh : name ∉ done := fun hd => by
    rw [(h.black name).mpr hd] at hgrey
    cases hgrey
  have hnotin : name ∉ stack.map Prod.fst := (List.nodup_cons.mp h.nodup).1
  refine ⟨h.topo.cons hfresh fun v hv => ?_, List.cons_subset.mpr ⟨hname, h.inside⟩, fun u => ?_,
    fun u => ?_, (List.nodup_cons.mp h.nodup).2, hframes.pop⟩
  · rcases hsucc v hv with hv | hv | hv
    · cases hv
    · exact hv
    · cases hv
  · by_cases hu : u = name
    · simp [hu]
    · simp [hu, h.black u]
  · by_cases hu : u = name
    · simp [hu, hnotin]
    · have := h.grey u
      simp only [List.map_cons, List.mem_cons, hu, false_or] at this
      simpa [hu] using this

lemma SearchInv.push {colour : α → Colour} {name target : α} {pending : List α}
    {stack : List (α × List α)} {done : List α} (hsucc : ∀ u ∈ nodes, ∀ v ∈ succ u, v ∈ nodes)
    (h : SearchInv succ nodes colour ((name, target :: pending) :: stack) done)
    (hwhite : colour target = .white) :
    SearchInv succ nodes (Function.update colour target .grey)
      ((target, (succ target).reverse) :: (name, pending) :: stack) done := by
  obtain ⟨hframe, hpending, hname, hframes⟩ := h.frames
  obtain ⟨htarget, hpending⟩ := List.cons_subset.mp hpending
  have hnotin : target ∉ ((name, target :: pending) :: stack).map Prod.fst := fun ht => by
    rw [(h.grey target).mpr ht] at hwhite
    cases hwhite
  have hdone : target ∉ done := fun hd => by
    rw [(h.black target).mpr hd] at hwhite
    cases hwhite
  refine ⟨h.topo, h.inside, fun u => ?_, fun u => ?_, ?_, ?_, ?_, htarget, ?_, hpending, hname,
    hframes⟩
  · by_cases hu : u = target
    · simp [hu, hdone]
    · simp [hu, h.black u]
  · by_cases hu : u = target
    · simp [hu]
    · simpa [hu] using h.grey u
  · exact List.nodup_cons.mpr ⟨by simpa using hnotin, by simpa using h.nodup⟩
  · intro v hv
    exact .inl (List.mem_reverse.mpr hv)
  · intro v hv
    exact hsucc target htarget v (List.mem_reverse.mp hv)
  · intro v hv
    rcases hframe v hv with hv | hv | hv
    · rcases List.mem_cons.mp hv with rfl | hv
      · exact .inr (.inr rfl)
      · exact .inl hv
    · exact .inr (.inl hv)
    · cases hv

omit [DecidableEq α] in
lemma SearchInv.skip {colour : α → Colour} {name target : α} {pending : List α}
    {stack : List (α × List α)} {done : List α}
    (h : SearchInv succ nodes colour ((name, target :: pending) :: stack) done)
    (hblack : colour target = .black) :
    SearchInv succ nodes colour ((name, pending) :: stack) done := by
  obtain ⟨hframe, hpending, hname, hframes⟩ := h.frames
  refine ⟨h.topo, h.inside, h.black, by simpa using h.grey, by simpa using h.nodup, ?_,
    (List.cons_subset.mp hpending).2, hname, hframes⟩
  intro v hv
  rcases hframe v hv with hv | hv | hv
  · rcases List.mem_cons.mp hv with rfl | hv
    · exact .inr (.inl ((h.black v).mp hblack))
    · exact .inl hv
  · exact .inr (.inl hv)
  · cases hv

/-- A search that meets no node of its own stack blackens everything it has coloured. -/
lemma search_spec (hsucc : ∀ u ∈ nodes, ∀ v ∈ succ u, v ∈ nodes) (n : ℕ) :
    ∀ {colour : α → Colour} {stack : List (α × List α)} {done : List α} {colour' : α → Colour},
      SearchInv succ nodes colour stack done → searchWork succ nodes colour stack < n →
      search succ n colour stack = (false, colour') →
      ∃ done', SearchInv succ nodes colour' [] done' ∧
        ∀ u, colour u ≠ .white → colour' u ≠ .white := by
  induction n with
  | zero => intro colour stack done colour' _ hn; omega
  | succ n ih =>
      intro colour stack done colour' hinv hn hrun
      match stack, hinv, hn, hrun with
      | [], hinv, _, hrun =>
          obtain ⟨-, rfl⟩ := Prod.mk.injEq .. ▸ hrun
          exact ⟨done, hinv, fun u hu => hu⟩
      | (name, []) :: stack, hinv, hn, hrun =>
          have hgrey : colour name = .grey := (hinv.grey name).mpr (by simp)
          have hw := weight_le succ nodes
            (p := fun u => colour u = .white)
            (q := fun u => Function.update colour name .black u = .white) (by
              intro x hx
              by_cases hxn : x = name
              · simp [hxn] at hx
              · simpa [hxn] using hx)
          obtain ⟨done', hinv', hmono⟩ := ih hinv.pop (by
            simp only [searchWork, List.map_cons, List.sum_cons] at hn ⊢
            omega) hrun
          refine ⟨done', hinv', fun u hu => hmono u ?_⟩
          by_cases hun : u = name
          · simp [hun]
          · simpa [hun] using hu
      | (name, target :: pending) :: stack, hinv, hn, hrun =>
          rw [search] at hrun
          split at hrun
          · cases hrun
          · next hwhite =>
            have htarget : target ∈ nodes := (List.cons_subset.mp hinv.frames.2.1).1
            have hw := weight_add_le succ nodes
              (p := fun u => colour u = .white)
              (q := fun u => Function.update colour target .grey u = .white) (f := target) (by
                intro x hx
                by_cases hxt : x = target
                · simp [hxt] at hx
                · simpa [hxt] using hx) htarget (by simpa using hwhite) (by simp)
            obtain ⟨done', hinv', hmono⟩ := ih (hinv.push hsucc hwhite) (by
              simp only [searchWork, List.map_cons, List.sum_cons, List.length_reverse,
                List.length_cons] at hn ⊢
              omega) hrun
            refine ⟨done', hinv', fun u hu => hmono u ?_⟩
            by_cases hut : u = target
            · simp [hut]
            · simpa [hut] using hu
          · next hblack =>
            obtain ⟨done', hinv', hmono⟩ := ih (hinv.skip hblack) (by
              simp only [searchWork, List.map_cons, List.sum_cons, List.length_cons] at hn ⊢
              omega) hrun
            exact ⟨done', hinv', hmono⟩

lemma searchAll_spec (hsucc : ∀ u ∈ nodes, ∀ v ∈ succ u, v ∈ nodes) {fuel : ℕ}
    (hfuel : weight succ nodes (fun _ => true) + 1 < fuel) :
    ∀ {roots : List α} {colour : α → Colour} {done : List α}, roots ⊆ nodes →
      SearchInv succ nodes colour [] done → searchAll succ fuel colour roots = false →
      ∃ order, Topo succ order ∧ order ⊆ nodes ∧ roots ⊆ order ∧
        ∀ u, colour u ≠ .white → u ∈ order := by
  intro roots
  induction roots with
  | nil =>
      intro colour done _ hinv _
      refine ⟨done, hinv.topo, hinv.inside, by simp, fun u hu => (hinv.black u).mp ?_⟩
      cases hc : colour u with
      | white => exact absurd hc hu
      | grey => exact absurd ((hinv.grey u).mp hc) (by simp)
      | black => rfl
  | cons root roots ih =>
      intro colour done hroots hinv hrun
      obtain ⟨hroot, hroots⟩ := List.cons_subset.mp hroots
      rw [searchAll] at hrun
      split at hrun
      · next hwhite =>
        have hstart : SearchInv succ nodes (Function.update colour root .grey)
            [(root, (succ root).reverse)] done := by
          have hfresh : root ∉ done := fun hd => by
            rw [(hinv.black root).mpr hd] at hwhite
            cases hwhite
          refine ⟨hinv.topo, hinv.inside, fun u => ?_, fun u => ?_, by simp,
            fun v hv => .inl (List.mem_reverse.mpr hv),
            fun v hv => hsucc root hroot v (List.mem_reverse.mp hv), hroot, trivial⟩
          · by_cases hu : u = root
            · simp [hu, hfresh]
            · simp [hu, hinv.black u]
          · by_cases hu : u = root
            · simp [hu]
            · simpa [hu] using hinv.grey u
        have hwork : searchWork succ nodes (Function.update colour root .grey)
            [(root, (succ root).reverse)] < fuel := by
          have hw := weight_add_le succ nodes (p := fun _ => true)
            (q := fun u => Function.update colour root .grey u = .white) (f := root)
            (by simp) hroot rfl (by simp)
          simp only [searchWork, List.map_cons, List.map_nil, List.sum_cons, List.sum_nil,
            List.length_reverse]
          omega
        split at hrun
        · cases hrun
        · next colour' hsearch =>
          obtain ⟨done', hinv', hmono⟩ := search_spec hsucc fuel hstart hwork hsearch
          obtain ⟨order, htopo, hin, hsub, hcol⟩ := ih hroots hinv' hrun
          refine ⟨order, htopo, hin, List.cons_subset.mpr ⟨?_, hsub⟩, fun u hu => ?_⟩
          · exact hcol root (hmono root (by simp))
          · refine hcol u (hmono u ?_)
            by_cases hur : u = root
            · simp [hur]
            · simpa [hur] using hu
      · next hcoloured =>
        obtain ⟨order, htopo, hin, hsub, hcol⟩ := ih hroots hinv hrun
        exact ⟨order, htopo, hin, List.cons_subset.mpr ⟨hcol root hcoloured, hsub⟩, hcol⟩

/-- When the search finds no cycle, the nodes can be put in topological order. -/
theorem hasCycle_false (h : hasCycle succ nodes = false) :
    ∃ order, Topo (fun u => (succ u).filter (· ∈ nodes)) order ∧ order ⊆ nodes ∧ nodes ⊆ order := by
  have hinv : SearchInv (fun u => (succ u).filter (· ∈ nodes)) nodes (fun _ => .white) [] [] :=
    ⟨.nil, by simp, by simp, by simp, by simp, trivial⟩
  obtain ⟨order, htopo, hin, hsub, -⟩ := searchAll_spec (fun u _ v hv => by
    simpa using (List.mem_filter.mp hv).2) (by omega) (List.Subset.refl _) hinv h
  exact ⟨order, htopo, hin, hsub⟩

/-- A walk inside a set without cycles is no longer than any list that covers the set. -/
theorem walk_length_le_of_hasCycle_false (h : hasCycle succ nodes = false) (verts walk : List α)
    (hverts : nodes ⊆ verts) (hin : walk ⊆ nodes) (hchain : walk.IsChain fun a b => b ∈ succ a) :
    walk.length ≤ verts.length := by
  obtain ⟨order, htopo, hsub, hsup⟩ := hasCycle_false h
  cases walk with
  | nil => simp
  | cons u walk =>
      have hinner : (u :: walk).IsChain (fun a b => b ∈ (succ a).filter (· ∈ nodes)) := by
        refine List.isChain_iff_forall_rel_of_append_cons_cons.mpr ?_
        intro a b l r heq
        have hab := List.isChain_iff_forall_rel_of_append_cons_cons.mp hchain heq
        have hb : b ∈ nodes := hin (by rw [heq]; simp)
        exact List.mem_filter.mpr ⟨hab, by simpa using hb⟩
      have hlen := htopo.walk_length_le (hsup (hin List.mem_cons_self)) hinner
      exact hlen.trans (htopo.nodup.subperm (List.Subset.trans hsub hverts)).length_le

end

end AgentOrch.Digraph
