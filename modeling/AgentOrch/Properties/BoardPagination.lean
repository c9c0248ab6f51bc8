import AgentOrch.Framework.ByteOrder
import AgentOrch.Properties.BoardPages

/-!
# Turning the pages of a view

The archive and the backlog are shown a page at a time.  Turned by their next cursors, the pages of
a view show every member once, in the order of the octets of the keys, and the previous cursor of a
page leads back to the page before it.

Two kinds of rows break this.  A placement row that cannot be read makes the query fail, although
evidence that cannot be read is meant to be of unknown place.  And a card without a key, which the
schema lets be stored, is neither before nor after another one: it is on a page, and turning back to
that page leaves it out.
-/

namespace AgentOrch

open Py

namespace Kanban

/-! ## Pages in a row -/

/-- The cards a page shows. -/
def Page.rows (page : Page) : List BoardCard := page.cards.map Prod.fst

/-- The pages of a view from the first one to the last, each got from the one before by its next
cursor, and giving that one back by its previous cursor. -/
structure AreTurned (pf : Platform) (board : Board) (view : View) (pages : List Page) : Prop where
  start : ∃ page, pages.head? = some page ∧ board.pageSnapshot pf view .start = .ok page
  forth : ∀ i (h : i + 1 < pages.length), ∃ token, pages[i].next = some token ∧
    board.pageSnapshot pf view (.after token) = .ok pages[i + 1]
  back : ∀ i (h : i + 1 < pages.length), ∃ token, pages[i + 1].previous = some token ∧
    board.pageSnapshot pf view (.before token) = .ok pages[i]
  stop : ∀ page ∈ pages.getLast?, page.next = none

/-- The pages show each member of the view once, in the order of the octets of the keys; all but the
last one are full, and a cursor is offered if and only if there is a card on that side. -/
structure ArePages (pf : Platform) (board : Board) (view : View) (pages : List Page) : Prop extends
    AreTurned pf board view pages where
  visited : ∀ card, card ∈ pages.flatMap Page.rows ↔
    card ∈ board.cards ∧ board.isMember pf view card = .ok true
  once : (pages.flatMap Page.rows).Nodup
  order : (pages.flatMap Page.rows).Pairwise fun a b => ∀ s, a.cardId = some s →
    ∃ t, b.cardId = some t ∧ s.flatMap encodeChar < t.flatMap encodeChar
  size : ∀ page ∈ pages, page.rows.length ≤ pageSize
  full : ∀ page ∈ pages.dropLast, page.rows.length = pageSize
  previous : ∀ i (h : i < pages.length),
    pages[i].previous.isSome = true ↔ ∃ card, card ∈ (pages.take i).flatMap Page.rows
  next : ∀ i (h : i < pages.length),
    pages[i].next.isSome = true ↔ ∃ card, card ∈ (pages.drop (i + 1)).flatMap Page.rows

/-- The view can be turned through, from its first page to its last one and back. -/
def IsPaginated (pf : Platform) (board : Board) (view : View) : Prop :=
  ∃ pages, ArePages pf board view pages

/-! ## What the query evaluates -/

/-- `EXISTS` stops at a row of unknown place; the rows up to there can be read. -/
def IsDecided (pf : Platform) (revision : Cell) : List Event → Prop
  | [] => True
  | e :: rest => IsReadable pf revision e ∧
      (placeOf pf revision e = .unknown ∨ IsDecided pf revision rest)

section
variable {pf : Platform} {revision : Cell} {rows : List Event}

lemma anyUnknown_of_decided (h : IsDecided pf revision rows) :
    anyUnknown pf revision rows = .ok (decide (HasUnknown pf revision rows)) := by
  induction rows with
  | nil => simp [anyUnknown, HasUnknown]
  | cons e rest ih =>
      obtain ⟨hread, hrest⟩ := h
      simp only [anyUnknown, sqlLocation_of_readable hread, bind, Except.bind]
      by_cases hunknown : placeOf pf revision e = .unknown
      · simp [hunknown, pure, Except.pure]
      · have hiff : HasUnknown pf revision (e :: rest) ↔ HasUnknown pf revision rest := by
          rw [HasUnknown, List.map_cons, List.mem_cons]
          exact or_iff_right fun heq => hunknown heq.symm
        rw [if_neg hunknown, ih (hrest.resolve_left hunknown)]
        exact congrArg Except.ok (decide_eq_decide.mpr hiff.symm)

lemma decided_of_anyUnknown {found : Bool} (h : anyUnknown pf revision rows = .ok found) :
    IsDecided pf revision rows := by
  induction rows with
  | nil => exact trivial
  | cons e rest ih =>
      simp only [anyUnknown, bind_eq_ok] at h
      obtain ⟨place, hplace, hrest⟩ := h
      obtain ⟨hblob, hlocation⟩ := sqlLocation_eq_ok.mp hplace
      refine ⟨⟨hblob, place, hlocation⟩, ?_⟩
      by_cases hunknown : place = .unknown
      · left
        simp [placeOf, hlocation, hunknown]
      · rw [if_neg hunknown] at hrest
        exact .inr (ih hrest)

/-- Rows of which none is of unknown place are all read. -/
lemma readable_of_decided (h : IsDecided pf revision rows) (hknown : ¬HasUnknown pf revision rows) :
    ∀ e ∈ rows, IsReadable pf revision e := by
  induction rows with
  | nil => simp
  | cons e rest ih =>
      rw [HasUnknown, List.map_cons, List.mem_cons, not_or] at hknown
      obtain ⟨hread, hrest⟩ := h
      intro e' he'
      rcases List.mem_cons.mp he' with rfl | he'
      · exact hread
      · exact ih (hrest.resolve_left fun heq => hknown.1 heq.symm) hknown.2 e' he'

lemma placementExpression_of_decided (h : IsDecided pf revision rows) :
    placementExpression pf revision rows = .ok (sqlPlace pf revision rows) := by
  by_cases hunknown : HasUnknown pf revision rows
  · simp [placementExpression, anyUnknown_of_decided h, hunknown, sqlPlace, bind, Except.bind, pure,
      Except.pure]
  · exact placementExpression_of_readable (readable_of_decided h hunknown)

lemma decided_of_placementExpression {place : Location}
    (h : placementExpression pf revision rows = .ok place) : IsDecided pf revision rows := by
  simp only [placementExpression, bind_eq_ok] at h
  obtain ⟨doubtful, hdoubtful, -⟩ := h
  exact decided_of_anyUnknown hdoubtful

end

section
variable {pf : Platform} {board : Board}

/-- The membership clause can be evaluated for the card. -/
def Board.IsDecided (pf : Platform) (board : Board) (card : BoardCard) : Prop :=
  Kanban.IsDecided pf card.revision (board.placements card)

lemma isMember_backlog_of_decided {card : BoardCard}
    (h : card.isArchived = false → board.IsDecided pf card) :
    board.isMember pf .backlog card = .ok (board.inView pf .backlog card) := by
  by_cases harchived : card.isArchived = true
  · simp [Board.isMember, Board.inView, harchived]
  · have hplace := placementExpression_of_decided (h (Bool.eq_false_of_not_eq_true harchived))
    simp [Board.isMember, Board.inView, harchived, hplace, bind, Except.bind, pure, Except.pure,
      Board.sqlPlace]
    exact decide_eq_decide.mpr Iff.rfl

lemma decided_of_isMember_backlog {card : BoardCard} {found : Bool}
    (h : board.isMember pf .backlog card = .ok found) (harchived : card.isArchived = false) :
    board.IsDecided pf card := by
  simp only [Board.isMember, harchived, Bool.false_eq_true, if_false, bind_eq_ok] at h
  obtain ⟨place, hplace, -⟩ := h
  exact decided_of_placementExpression hplace

/-- The backlog is shown as soon as the clause can be evaluated. -/
lemma isServed_backlog
    (h : ∀ card ∈ board.cards, card.isArchived = false → board.IsDecided pf card) :
    board.IsServed pf .backlog where
  member card hcard := isMember_backlog_of_decided (h card hcard)
  readable card hcard hview := by
    simp only [Board.inView, Bool.and_eq_true, decide_eq_true_eq, Bool.not_eq_true'] at hview
    exact readable_of_decided (h card hcard hview.1) (sqlPlace_eq_backlog.mp hview.2).1

/-- The archive is shown as soon as the rows of its cards can be read. -/
lemma isServed_archive
    (h : ∀ card ∈ board.cards, card.isArchived = true → board.IsReadable pf card) :
    board.IsServed pf .archive where
  member _ _ := rfl
  readable card hcard hview := h card hcard hview

end

/-! ## The pages of a view that is shown -/

section
variable (pf : Platform) (board : Board) (view : View)

/-- The page number `k` of a view. -/
def Board.pageAt (k : ℕ) : Page :=
  let members := board.members pf view
  ⟨(Keyset.block pageSize members k).map (board.located pf),
    if k = 0 then none else members[k * pageSize]?.map BoardCard.rowid,
    if (k + 1) * pageSize < members.length then
      members[(k + 1) * pageSize - 1]?.map BoardCard.rowid
    else none⟩

/-- The number of pages; an empty view has one. -/
def Board.pageCount : ℕ := (board.members pf view).length.pred / pageSize + 1

/-- The pages of a view. -/
def Board.pages : List Page := (List.range (board.pageCount pf view)).map (board.pageAt pf view)

end

section
variable {pf : Platform} {t : Tables} {view : View}

/-- A view of one page, or of cards with a key. -/
def Board.IsKeyed (pf : Platform) (board : Board) (view : View) : Prop :=
  (board.members pf view).length ≤ pageSize ∨ ∀ c ∈ board.members pf view, isKeyed c = true

lemma rows_pageAt (k : ℕ) :
    (t.board.pageAt pf view k).rows = Keyset.block pageSize (t.board.members pf view) k := by
  rw [Page.rows, Board.pageAt, List.map_map]
  exact List.map_id _

lemma lt_pageCount {k : ℕ} : k < t.board.pageCount pf view ↔
    k = 0 ∨ k * pageSize < (t.board.members pf view).length := by
  have hsize : pageSize = 20 := rfl
  rw [Board.pageCount, hsize, Nat.pred_eq_sub_one]
  omega

lemma length_pages : (t.board.pages pf view).length = t.board.pageCount pf view := by
  rw [Board.pages, List.length_map, List.length_range]

/-- The first pages show the first members. -/
lemma rows_take_pages {i : ℕ} (hi : i ≤ t.board.pageCount pf view) :
    ((t.board.pages pf view).take i).flatMap Page.rows =
      (t.board.members pf view).take (i * pageSize) := by
  rw [Board.pages, ← List.map_take, List.take_range, Nat.min_eq_left hi, List.flatMap_def,
    List.map_map, ← Keyset.flatten_blocks]
  congr 2
  funext k
  exact rows_pageAt k

/-- All pages show all members. -/
lemma rows_pages : (t.board.pages pf view).flatMap Page.rows = t.board.members pf view := by
  have hall := rows_take_pages (le_refl (t.board.pageCount pf view))
  rw [← length_pages, List.take_length, length_pages] at hall
  rw [hall, List.take_of_length_le]
  have hsize : pageSize = 20 := rfl
  rw [Board.pageCount, hsize, Nat.pred_eq_sub_one]
  omega

/-- The other pages show the other members. -/
lemma rows_drop_pages {i : ℕ} (hi : i ≤ t.board.pageCount pf view) :
    ((t.board.pages pf view).drop i).flatMap Page.rows =
      (t.board.members pf view).drop (i * pageSize) := by
  have hsplit : ((t.board.pages pf view).take i).flatMap Page.rows ++
      ((t.board.pages pf view).drop i).flatMap Page.rows = t.board.members pf view := by
    rw [← List.flatMap_append, List.take_append_drop, rows_pages]
  rw [rows_take_pages hi] at hsplit
  exact List.append_cancel_left (hsplit.trans (List.take_append_drop _ _).symm)

/-- No member stands before the first one. -/
lemma not_before_first {first : BoardCard} (h : (t.board.members pf view)[0]? = some first) :
    ¬∃ c ∈ t.board.members pf view, keyBefore c first = true := by
  rintro ⟨c, hc, hbefore⟩
  obtain ⟨h0, rfl⟩ := List.getElem?_eq_some_iff.mp h
  obtain ⟨j, hj, rfl⟩ := List.mem_iff_getElem.mp hc
  rcases Nat.eq_zero_or_pos j with rfl | hpos
  · exact Bool.false_ne_true ((keyBefore_isOrder.asymm _ _ hbefore).symm.trans hbefore)
  · have horder : Keyset.InOrder keyBefore isKeyed (t.board.members pf view) := members_inOrder
    have hforth := List.pairwise_iff_getElem.mp horder 0 j h0 hj hpos
      (keyBefore_isOrder.ranked_of_lt _ _ hbefore)
    exact Bool.false_ne_true ((keyBefore_isOrder.asymm _ _ hbefore).symm.trans hforth)

/-- No member stands behind the last one. -/
lemma not_behind_last {i : ℕ} {last : BoardCard} (h : (t.board.members pf view)[i]? = some last)
    (hlast : (t.board.members pf view).length ≤ i + 1) :
    ¬∃ c ∈ t.board.members pf view, keyBefore last c = true := by
  rintro ⟨c, hc, hbefore⟩
  obtain ⟨hi, rfl⟩ := List.getElem?_eq_some_iff.mp h
  obtain ⟨j, hj, rfl⟩ := List.mem_iff_getElem.mp hc
  rcases Nat.lt_or_ge j i with hlt | hge
  · have horder : Keyset.InOrder keyBefore isKeyed (t.board.members pf view) := members_inOrder
    have hforth := List.pairwise_iff_getElem.mp horder j i hj hi hlt
      (keyBefore_isOrder.ranked_of_lt _ _ hbefore)
    exact Bool.false_ne_true ((keyBefore_isOrder.asymm _ _ hbefore).symm.trans hforth)
  · obtain rfl : j = i := by omega
    exact Bool.false_ne_true ((keyBefore_isOrder.asymm _ _ hbefore).symm.trans hbefore)

/-- Of two keyed members, the one further in front comes first. -/
lemma before_of_lt (hkeyed : ∀ c ∈ t.board.members pf view, isKeyed c = true) {i j : ℕ}
    (hj : j < (t.board.members pf view).length) (hij : i < j) :
    keyBefore (t.board.members pf view)[i] (t.board.members pf view)[j] = true :=
  List.pairwise_iff_getElem.mp members_inOrder i j (by omega) hj hij
    (hkeyed _ (List.getElem_mem _))

variable (hserved : t.board.IsServed pf view) (hkeyed : t.board.IsKeyed pf view)
include hserved hkeyed

/-- Whatever cursor leads to its rows, a page is shown with the cursors of its number. -/
lemma pageSnapshot_block (hview : view ≠ .main) {cursor : Cursor}
    (hvalid : validCursor cursor = true) {k : ℕ} (hk : k < t.board.pageCount pf view)
    (hrows : t.board.pageRows pf view cursor =
      .ok (Keyset.block pageSize (t.board.members pf view) k)) :
    t.board.pageSnapshot pf view cursor = .ok (t.board.pageAt pf view k) := by
  have hsize : pageSize = 20 := rfl
  rw [pageSnapshot_eq hserved hvalid hview hrows Keyset.block_subset, Board.pageAt]
  have hprevious : ((Keyset.block pageSize (t.board.members pf view) k).head?.bind fun first =>
      t.board.offered pf view (keyBefore · first) first) =
      if k = 0 then none else (t.board.members pf view)[k * pageSize]?.map BoardCard.rowid := by
    rw [Keyset.head?_block (by decide)]
    by_cases hzero : k = 0
    · rw [if_pos hzero, hzero, Nat.zero_mul]
      cases hfirst : (t.board.members pf view)[0]? with
      | none => rfl
      | some first => exact if_neg (not_before_first hfirst)
    · have hlt := (lt_pageCount.mp hk).resolve_left hzero
      have hall := hkeyed.resolve_left (by rw [hsize] at hlt ⊢; omega)
      rw [if_neg hzero, List.getElem?_eq_getElem hlt]
      have hbefore := before_of_lt hall hlt (i := 0) (by rw [hsize]; omega)
      exact if_pos ⟨_, List.getElem_mem _, hbefore⟩
  have hnext : ((Keyset.block pageSize (t.board.members pf view) k).getLast?.bind fun last =>
      t.board.offered pf view (keyBefore last) last) =
      if (k + 1) * pageSize < (t.board.members pf view).length then
        (t.board.members pf view)[(k + 1) * pageSize - 1]?.map BoardCard.rowid
      else none := by
    by_cases hmore : (k + 1) * pageSize < (t.board.members pf view).length
    · have hall := hkeyed.resolve_left (by rw [hsize] at hmore ⊢; omega)
      have hlast : (k + 1) * pageSize - 1 < (t.board.members pf view).length := by omega
      rw [if_pos hmore, Keyset.getLast?_block (by decide) (le_of_lt hmore),
        List.getElem?_eq_getElem hlast]
      have hbefore := before_of_lt hall hmore (i := (k + 1) * pageSize - 1) (by rw [hsize]; omega)
      exact if_pos ⟨_, List.getElem_mem _, hbefore⟩
    · rw [if_neg hmore]
      cases hlast : (Keyset.block pageSize (t.board.members pf view) k).getLast? with
      | none => rfl
      | some last =>
          apply if_neg
          rw [List.getLast?_eq_getElem?, Keyset.length_block] at hlast
          rw [Keyset.getElem?_block (by rw [hsize]; omega)] at hlast
          apply not_behind_last hlast
          rw [hsize] at hmore ⊢
          omega
  rw [hprevious, hnext]

lemma pageSnapshot_start (hview : view ≠ .main) :
    t.board.pageSnapshot pf view .start = .ok (t.board.pageAt pf view 0) := by
  apply pageSnapshot_block hserved hkeyed hview rfl (lt_pageCount.mpr (.inl rfl))
  rw [pageRows_start hserved, if_neg hview, Keyset.block_zero]

/-- The next cursor of a page leads to the next one. -/
lemma pageSnapshot_forth (hview : view ≠ .main) {k : ℕ} (hk : k + 1 < t.board.pageCount pf view) :
    ∃ token, (t.board.pageAt pf view k).next = some token ∧
      t.board.pageSnapshot pf view (.after token) = .ok (t.board.pageAt pf view (k + 1)) := by
  have hsize : pageSize = 20 := rfl
  have hlt := (lt_pageCount.mp hk).resolve_left (Nat.succ_ne_zero k)
  have hlast : (k + 1) * pageSize - 1 < (t.board.members pf view).length := by omega
  have hall := hkeyed.resolve_left (by rw [hsize] at hlt ⊢; omega)
  have hmem := List.getElem_mem hlast
  have hvalid :
      validCursor (.after (t.board.members pf view)[(k + 1) * pageSize - 1].rowid) = true :=
    decide_eq_true (t.rowid_range _ (mem_members.mp hmem).1)
  refine ⟨_, ?_, pageSnapshot_block hserved hkeyed hview hvalid hk ?_⟩
  · simp only [Board.pageAt, if_pos hlt, List.getElem?_eq_getElem hlast]
    rfl
  · rw [pageRows_after hserved hmem]
    exact congrArg Except.ok (Keyset.block_succ keyBefore_isOrder members_inOrder (by decide) hlt
      (hall _ hmem))

/-- The previous cursor of a page leads back to the page before it. -/
lemma pageSnapshot_back (hview : view ≠ .main) {k : ℕ} (hk : k + 1 < t.board.pageCount pf view) :
    ∃ token, (t.board.pageAt pf view (k + 1)).previous = some token ∧
      t.board.pageSnapshot pf view (.before token) = .ok (t.board.pageAt pf view k) := by
  have hsize : pageSize = 20 := rfl
  have hlt := (lt_pageCount.mp hk).resolve_left (Nat.succ_ne_zero k)
  have hall := hkeyed.resolve_left (by rw [hsize] at hlt ⊢; omega)
  have hmem := List.getElem_mem hlt
  have hvalid : validCursor (.before (t.board.members pf view)[(k + 1) * pageSize].rowid) = true :=
    decide_eq_true (t.rowid_range _ (mem_members.mp hmem).1)
  refine ⟨_, ?_, pageSnapshot_block hserved hkeyed hview hvalid (by omega) ?_⟩
  · simp only [Board.pageAt, if_neg (Nat.succ_ne_zero k), List.getElem?_eq_getElem hlt]
    rfl
  · rw [pageRows_before hserved hmem]
    exact congrArg Except.ok (Keyset.block_pred keyBefore_isOrder members_inOrder hall hlt)

/-- The pages follow each other, there and back. -/
lemma areTurned_pages (hview : view ≠ .main) :
    AreTurned pf t.board view (t.board.pages pf view) where
  start := by
    refine ⟨t.board.pageAt pf view 0, ?_, pageSnapshot_start hserved hkeyed hview⟩
    rw [Board.pages, Board.pageCount, List.range_succ_eq_map, List.map_cons, List.head?_cons]
  forth i h := by
    rw [Board.pages, List.length_map, List.length_range] at h
    simp only [Board.pages, List.getElem_map, List.getElem_range]
    exact pageSnapshot_forth hserved hkeyed hview h
  back i h := by
    rw [Board.pages, List.length_map, List.length_range] at h
    simp only [Board.pages, List.getElem_map, List.getElem_range]
    exact pageSnapshot_back hserved hkeyed hview h
  stop page hpage := by
    rw [Board.pages, Board.pageCount, List.range_succ, List.map_append, List.map_singleton,
      List.getLast?_append_of_ne_nil _ (by simp), List.getLast?_singleton,
      Option.mem_some_iff] at hpage
    have hsize : pageSize = 20 := rfl
    have hend : ¬((t.board.members pf view).length.pred / pageSize + 1) * pageSize <
        (t.board.members pf view).length := by
      rw [hsize, Nat.pred_eq_sub_one]
      omega
    rw [← hpage, Board.pageAt, if_neg hend]

/-- A view that is shown, of one page or of cards with a key, can be turned through. -/
lemma arePages_pages (hview : view ≠ .main) : ArePages pf t.board view (t.board.pages pf view) where
  toAreTurned := areTurned_pages hserved hkeyed hview
  visited card := by
    rw [rows_pages, mem_members]
    refine and_congr_right fun hcard => ?_
    rw [hserved.member card hcard, Except.ok.injEq]
  once := by
    rw [rows_pages]
    exact (sortCards_perm _).nodup_iff.mpr (List.Nodup.filter _ (List.Nodup.of_map _ t.rowids))
  order := by
    rw [rows_pages]
    refine members_inOrder.imp fun {a b} hab s hs => ?_
    obtain ⟨s', t', ha, hb, hlt⟩ := keyBefore_iff.mp (hab (by simp [isKeyed, hs]))
    obtain rfl : s = s' := Option.some.inj (hs.symm.trans ha)
    exact ⟨t', hb, encode_lt_iff.mpr hlt⟩
  size page hpage := by
    obtain ⟨k, -, rfl⟩ := List.mem_map.mp hpage
    rw [rows_pageAt, Keyset.length_block]
    exact Nat.min_le_left _ _
  full page hpage := by
    rw [Board.pages, ← List.map_dropLast, Board.pageCount, List.range_succ,
      List.dropLast_concat] at hpage
    obtain ⟨k, hk, rfl⟩ := List.mem_map.mp hpage
    have hsize : pageSize = 20 := rfl
    rw [List.mem_range, hsize, Nat.pred_eq_sub_one] at hk
    rw [rows_pageAt, Keyset.length_block, hsize]
    omega
  previous i h := by
    rw [length_pages] at h
    rw [rows_take_pages (le_of_lt h)]
    simp only [Board.pages, List.getElem_map, List.getElem_range, Board.pageAt]
    rcases lt_pageCount.mp h with rfl | hlt
    · simp
    · have hsize : pageSize = 20 := rfl
      by_cases hzero : i = 0
      · simp [hzero]
      · rw [if_neg hzero, List.getElem?_eq_getElem hlt]
        refine iff_of_true rfl ⟨(t.board.members pf view)[0], ?_⟩
        exact List.mem_take_iff_getElem.mpr ⟨0, by rw [hsize] at hlt ⊢; omega, rfl⟩
  next i h := by
    rw [length_pages] at h
    rw [rows_drop_pages (show i + 1 ≤ t.board.pageCount pf view from h)]
    simp only [Board.pages, List.getElem_map, List.getElem_range, Board.pageAt]
    by_cases hmore : (i + 1) * pageSize < (t.board.members pf view).length
    · have hlast : (i + 1) * pageSize - 1 < (t.board.members pf view).length := by omega
      rw [if_pos hmore, List.getElem?_eq_getElem hlast]
      exact iff_of_true rfl ⟨_, List.mem_drop_iff_getElem.mpr ⟨0, by omega, rfl⟩⟩
    · rw [if_neg hmore, List.drop_eq_nil_of_le (by omega)]
      simp

end

/-! ## A view that can be turned through -/

/-- A test that was applied to all items returned for each. -/
lemma ok_of_keepIf {α : Type} {test : α → Except Exc Bool} {items kept : List α}
    (h : keepIf test items = .ok kept) {a : α} (ha : a ∈ items) : ∃ found, test a = .ok found := by
  induction items generalizing kept with
  | nil => exact absurd ha List.not_mem_nil
  | cons b rest ih =>
      simp only [keepIf, bind_eq_ok] at h
      obtain ⟨passed, hpassed, others, hothers, -⟩ := h
      rcases List.mem_cons.mp ha with rfl | ha
      · exact ⟨passed, hpassed⟩
      · exact ih hothers ha

section
variable {pf : Platform} {board : Board} {view : View}

lemma AreTurned.exists_snapshot {pages : List Page} (h : AreTurned pf board view pages)
    {page : Page} (hpage : page ∈ pages) :
    ∃ cursor, board.pageSnapshot pf view cursor = .ok page := by
  obtain ⟨i, hi, rfl⟩ := List.mem_iff_getElem.mp hpage
  cases i with
  | zero =>
      obtain ⟨page, hhead, hpage⟩ := h.start
      rw [List.head?_eq_getElem?, List.getElem?_eq_getElem hi, Option.some.injEq] at hhead
      exact ⟨_, hhead ▸ hpage⟩
  | succ i =>
      obtain ⟨token, -, hpage⟩ := h.forth i hi
      exact ⟨_, hpage⟩

/-- Turning back leads to cards with a key only. -/
lemma keyed_of_before {token : ℤ} {page : Page}
    (h : board.pageSnapshot pf view (.before token) = .ok page) {card : BoardCard}
    (hcard : card ∈ page.rows) : card.cardId ≠ none := by
  obtain ⟨⟨card, place⟩, hentry, rfl⟩ := List.mem_map.mp hcard
  obtain ⟨⟨rows, hrows, hmem⟩, -⟩ := exists_rows_of_snapshot h hentry
  simp only [Board.pageRows, bind_eq_ok, pure, Except.pure, Except.ok.injEq] at hrows
  obtain ⟨origin, -, found, hfound, rfl⟩ := hrows
  have hmem' : card ∈ found := List.mem_reverse.mp (List.mem_of_mem_take (List.mem_reverse.mp hmem))
  cases hkept : keepIf (board.isMember pf view)
      (board.cards.filter fun c => keyLt c.cardId origin.cardId) with
  | error e => simp [hkept, Except.map] at hfound
  | ok kept =>
      simp only [hkept, Except.map, Except.ok.injEq] at hfound
      subst hfound
      obtain ⟨hcards, -⟩ := mem_of_keepIf hkept ((sortCards_perm kept).subset hmem')
      have hbefore : keyBefore card origin = true := (List.mem_filter.mp hcards).2
      exact Option.isSome_iff_ne_none.mp (isKeyed_of_before hbefore)

variable (h : IsPaginated pf board .archive)
include h

lemma readable_of_isPaginated :
    ∀ card ∈ board.cards, card.isArchived = true → board.IsReadable pf card := by
  intro card hcard harchived
  obtain ⟨pages, hpages⟩ := h
  have hmember : board.isMember pf .archive card = .ok true := congrArg Except.ok harchived
  obtain ⟨page, hpage, hrow⟩ := List.mem_flatMap.mp ((hpages.visited card).mpr ⟨hcard, hmember⟩)
  obtain ⟨cursor, hsnapshot⟩ := hpages.exists_snapshot hpage
  obtain ⟨⟨card', place⟩, hentry, rfl⟩ := List.mem_map.mp hrow
  obtain ⟨-, -, bad, hqueue⟩ := mem_pageSnapshot hsnapshot hentry
  exact readable_of_queueLocation hqueue

/-- The first page of an archive with more than one is got back from the second one, so its cards
have keys; and so have those behind them. -/
lemma keyed_of_isPaginated (hmany : pageSize < (board.cards.filter BoardCard.isArchived).length)
    (hnodup : board.cards.Nodup) :
    ∀ card ∈ board.cards, card.isArchived = true → card.cardId ≠ none := by
  intro card hcard harchived hnone
  obtain ⟨pages, hpages⟩ := h
  have hmember : board.isMember pf .archive card = .ok true := congrArg Except.ok harchived
  have hmem := (hpages.visited card).mpr ⟨hcard, hmember⟩
  have hlength : (board.cards.filter BoardCard.isArchived).length ≤
      (pages.flatMap Page.rows).length := by
    refine (List.subperm_of_subset (hnodup.filter _) fun c hc => ?_).length_le
    obtain ⟨hc, hview⟩ := List.mem_filter.mp hc
    exact (hpages.visited c).mpr ⟨hc, congrArg Except.ok hview⟩
  obtain ⟨first, hfirst, -⟩ := hpages.start
  match pages, hfirst with
  | [first], rfl =>
      have hsize := hpages.size first List.mem_cons_self
      rw [List.flatMap_singleton] at hlength
      omega
  | first :: second :: rest, rfl =>
      obtain ⟨token, -, hback⟩ := hpages.back 0 (by simp)
      have hfull := hpages.full first (by simp)
      obtain ⟨row, rows, hrows⟩ : ∃ row rows, first.rows = row :: rows :=
        List.exists_cons_of_length_pos (by rw [hfull]; decide)
      have hkey : row.cardId ≠ none :=
        keyed_of_before hback (by rw [List.getElem_cons_zero, hrows]; exact List.mem_cons_self)
      obtain ⟨s, hs⟩ := Option.ne_none_iff_exists'.mp hkey
      have horder := hpages.order
      rw [List.flatMap_cons, hrows, List.cons_append] at horder hmem
      rcases List.mem_cons.mp hmem with rfl | hmem
      · exact hkey hnone
      · obtain ⟨t, ht, -⟩ := (List.pairwise_cons.mp horder).1 card hmem s hs
        rw [hnone] at ht
        exact Option.some_ne_none t ht.symm

end

lemma decided_of_isPaginated {pf : Platform} {board : Board} (h : IsPaginated pf board .backlog) :
    ∀ card ∈ board.cards, card.isArchived = false → board.IsDecided pf card := by
  intro card hcard harchived
  obtain ⟨pages, hpages⟩ := h
  obtain ⟨page, -, hpage⟩ := hpages.start
  simp only [Board.pageSnapshot, bind_eq_ok] at hpage
  obtain ⟨-, -, -, -, rows, hrows, -⟩ := hpage
  simp only [Board.pageRows, bind_eq_ok] at hrows
  obtain ⟨found, hfound, -⟩ := hrows
  cases hkept : keepIf (board.isMember pf .backlog) (board.cards.filter fun _ => true) with
  | error e =>
      rw [hkept] at hfound
      exact absurd hfound (by simp [Except.map])
  | ok kept =>
      have hmem : card ∈ board.cards.filter fun _ => true := by simpa using hcard
      obtain ⟨member, hmember⟩ := ok_of_keepIf hkept hmem
      exact decided_of_isMember_backlog hmember harchived

/-- Twenty archived cards with a key, and one without. -/
def unkeyedCards : List BoardCard :=
  ⟨1, none, .archived, .int 0⟩ ::
    (List.range 20).map fun i : ℕ => ⟨(i : ℤ) + 2, some [Fin.ofNat _ (0x61 + i)], .archived, .int 0⟩

def unkeyedTables : Tables where
  board := ⟨unkeyedCards, []⟩
  rowids := by decide +kernel
  rowid_range := by decide +kernel
  keys := by decide +kernel

/-- A placement row with octets where a text is due. -/
def blobPlacement : Event := { placedLater with metadataDelta := .blob [] }

def blobTables : Tables where
  board := ⟨[strandedCard], [blobPlacement]⟩
  rowids := nodup_strandedCard
  rowid_range := rowid_range_strandedCard
  keys := keys_strandedCard

end Kanban

end AgentOrch
