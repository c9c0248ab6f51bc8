import AgentOrch.Construction.Kanban.Read
import AgentOrch.Framework.Keyset
import Mathlib.Data.List.Dedup
import Mathlib.Data.List.Perm.Subperm

/-!
# Every card is on exactly one page

Whether a card is in the backlog is decided twice: by the membership clause of the page query, and by
the location the renderer filters on.  The two classify a card alike, except for one kind of journal:
a placement row without a result revision is one revision to the query and none to the count of
distinct revisions, so the query finds the card in the backlog while its location is unknown, and the
card is on no page.
-/

namespace AgentOrch

open Py Json

namespace Kanban

/-! ## Reading the placement rows -/

/-- The location of a row that can be read, and no location otherwise. -/
def placeOf (pf : Platform) (revision : Cell) (event : Event) : Location :=
  match location pf event revision with
  | .ok place => place
  | .error _ => .unknown

/-- SQLite can hand the row to `_location`, and `_location` returns. -/
def IsReadable (pf : Platform) (revision : Cell) (event : Event) : Prop :=
  event.hasBlob = false ∧ ∃ place, location pf event revision = .ok place

section
variable {pf : Platform} {revision : Cell}

lemma sqlLocation_eq_ok {event : Event} {place : Location} :
    sqlLocation pf revision event = .ok place ↔
      event.hasBlob = false ∧ location pf event revision = .ok place := by
  unfold sqlLocation
  by_cases hblob : event.hasBlob = true
  · simp [hblob]
  · rw [if_neg hblob]
    cases hplace : location pf event revision with
    | error e => simp
    | ok place' => simp [hblob]

lemma sqlLocation_of_readable {event : Event} (h : IsReadable pf revision event) :
    sqlLocation pf revision event = .ok (placeOf pf revision event) := by
  obtain ⟨hblob, place, hplace⟩ := h
  rw [sqlLocation_eq_ok]
  exact ⟨hblob, by simp [placeOf, hplace]⟩

lemma location_of_readable {event : Event} (h : IsReadable pf revision event) :
    location pf event revision = .ok (placeOf pf revision event) :=
  (sqlLocation_eq_ok.mp (sqlLocation_of_readable h)).2

lemma newestRow_mem {rows : List Event} {e : Event} (h : newestRow rows = some e) : e ∈ rows :=
  List.argmax_mem h

/-- Some row places the card nowhere. -/
abbrev HasUnknown (pf : Platform) (revision : Cell) (rows : List Event) : Prop :=
  Location.unknown ∈ rows.map (placeOf pf revision)

/-- The revisions of the rows, as the database tells them apart. -/
def revisionKeys (rows : List Event) : List (ℕ ×ₗ ℚ ×ₗ List ℕ) :=
  rows.map fun e => e.resultRevision.key

/-- Where the newest row places the card. -/
def newestPlace (pf : Platform) (revision : Cell) (rows : List Event) : Location :=
  match newestRow rows with
  | none => .board
  | some e => placeOf pf revision e

lemma anyUnknown_of_readable {rows : List Event} (h : ∀ e ∈ rows, IsReadable pf revision e) :
    anyUnknown pf revision rows = .ok (decide (HasUnknown pf revision rows)) := by
  induction rows with
  | nil => simp [anyUnknown, HasUnknown]
  | cons e rest ih =>
      have hrest := ih fun f hf => h f (List.mem_cons_of_mem e hf)
      simp only [anyUnknown, sqlLocation_of_readable (h e List.mem_cons_self), hrest, bind,
        Except.bind]
      by_cases hunknown : placeOf pf revision e = .unknown
      · simp [hunknown, pure, Except.pure]
      · have hiff : HasUnknown pf revision (e :: rest) ↔ HasUnknown pf revision rest := by
          rw [HasUnknown, List.map_cons, List.mem_cons]
          exact or_iff_right fun heq => hunknown heq.symm
        rw [if_neg hunknown]
        exact congrArg Except.ok (decide_eq_decide.mpr hiff.symm)

/-- What the membership clause computes from rows that can be read. -/
lemma placementExpression_of_readable {rows : List Event}
    (h : ∀ e ∈ rows, IsReadable pf revision e) :
    placementExpression pf revision rows =
      .ok (if HasUnknown pf revision rows ∨ ¬(revisionKeys rows).Nodup then .unknown
        else newestPlace pf revision rows) := by
  simp only [placementExpression, anyUnknown_of_readable h, bind, Except.bind]
  by_cases hunknown : HasUnknown pf revision rows
  · simp [hunknown, pure, Except.pure]
  · by_cases hnodup : (revisionKeys rows).Nodup
    · have hnodup' : (rows.map fun e => e.resultRevision.key).Nodup := hnodup
      simp only [hunknown, decide_false, hnodup', decide_true, Bool.not_true, Bool.or_false,
        Bool.false_eq_true, if_false, hnodup, not_true, or_false, newestPlace]
      cases hnewest : newestRow rows with
      | none => rfl
      | some e => exact sqlLocation_of_readable (h e (newestRow_mem hnewest))
    · have hnodup' : ¬(rows.map fun e => e.resultRevision.key).Nodup := hnodup
      simp [hnodup', hnodup, pure, Except.pure]

lemma mapM_eq_ok {α β : Type} {f : α → Except Exc β} {g : α → β} {items : List α}
    (h : ∀ a ∈ items, f a = .ok (g a)) : items.mapM f = .ok (items.map g) := by
  induction items with
  | nil => rfl
  | cons a rest ih =>
      rw [List.mapM_cons, h a List.mem_cons_self, ih fun b hb => h b (List.mem_cons_of_mem a hb)]
      rfl

/-- What a run of readings returned, it returned for some item. -/
lemma exists_of_mapM {α β : Type} {f : α → Except Exc β} {items : List α} {found : List β}
    (h : items.mapM f = .ok found) {b : β} (hb : b ∈ found) : ∃ a ∈ items, f a = .ok b := by
  induction items generalizing found with
  | nil =>
      rw [List.mapM_nil] at h
      cases h
      exact absurd hb List.not_mem_nil
  | cons a rest ih =>
      rw [List.mapM_cons, bind_eq_ok] at h
      obtain ⟨b', hb', hrest⟩ := h
      rw [bind_eq_ok] at hrest
      obtain ⟨found', hfound', hcons⟩ := hrest
      cases hcons
      rcases List.mem_cons.mp hb with rfl | hb
      · exact ⟨a, List.mem_cons_self, hb'⟩
      · obtain ⟨a', ha', hfa'⟩ := ih hfound' hb
        exact ⟨a', List.mem_cons_of_mem a ha', hfa'⟩

/-- A run of readings that returned has read every item. -/
lemma ok_of_mapM {α β : Type} {f : α → Except Exc β} {items : List α} {found : List β}
    (h : items.mapM f = .ok found) {a : α} (ha : a ∈ items) : ∃ b, f a = .ok b := by
  induction items generalizing found with
  | nil => exact absurd ha List.not_mem_nil
  | cons a' rest ih =>
      rw [List.mapM_cons, bind_eq_ok] at h
      obtain ⟨b', hb', hrest⟩ := h
      rw [bind_eq_ok] at hrest
      obtain ⟨found', hfound', -⟩ := hrest
      rcases List.mem_cons.mp ha with rfl | ha
      · exact ⟨b', hb'⟩
      · exact ih hfound' ha

/-- Is the placement flagged, or the rows not told apart? -/
def isFlagged (pf : Platform) (revision : Cell) (rows : List Event) : Bool :=
  decide (HasUnknown pf revision rows) || decide (distinctRevisions rows < rows.length)

/-- The location `_summaries` computes from rows that can be read. -/
lemma queueLocation_of_readable {rows : List Event} (h : ∀ e ∈ rows, IsReadable pf revision e) :
    queueLocation pf revision rows =
      .ok (if isFlagged pf revision rows then .unknown else newestPlace pf revision rows,
        isFlagged pf revision rows) := by
  have hfound := mapM_eq_ok fun e he => sqlLocation_of_readable (h e he)
  have hcurrent : currentLocation pf revision rows = .ok (newestPlace pf revision rows) := by
    rw [currentLocation, newestPlace]
    cases hnewest : newestRow rows with
    | none => rfl
    | some e => exact location_of_readable (h e (newestRow_mem hnewest))
  simp only [queueLocation, hcurrent, hfound, bind, Except.bind, pure, Except.pure]
  rfl

/-- A location that was computed was computed from rows that can be read. -/
lemma readable_of_queueLocation {rows : List Event} {found : Location × Bool}
    (h : queueLocation pf revision rows = .ok found) : ∀ e ∈ rows, IsReadable pf revision e := by
  intro e he
  simp only [queueLocation, bind_eq_ok] at h
  obtain ⟨-, -, places, hplaces, -⟩ := h
  obtain ⟨place, hplace⟩ := ok_of_mapM hplaces he
  exact ⟨(sqlLocation_eq_ok.mp hplace).1, place, (sqlLocation_eq_ok.mp hplace).2⟩

end

/-! ## Counting revisions -/

/-- Some placement row has no result revision. -/
def HasNull (rows : List Event) : Prop := ∃ e ∈ rows, e.resultRevision = .null

lemma distinctRevisions_le (rows : List Event) :
    distinctRevisions rows ≤ (rows.filter fun e => decide (e.resultRevision ≠ .null)).length := by
  have h := (List.dedup_sublist
    ((rows.filter fun e => decide (e.resultRevision ≠ .null)).map
      fun e => e.resultRevision.key)).length_le
  rwa [List.length_map] at h

/-- The count misses a row without a revision. -/
lemma distinctRevisions_lt_of_null {rows : List Event} (h : HasNull rows) :
    distinctRevisions rows < rows.length := by
  obtain ⟨e, he, hnull⟩ := h
  refine lt_of_le_of_lt (distinctRevisions_le rows) ?_
  exact List.length_filter_lt_length_iff_exists.mpr ⟨e, he, by simp [hnull]⟩

/-- The count misses one of two rows of one revision. -/
lemma distinctRevisions_lt_of_duplicate {rows : List Event} (h : ¬(revisionKeys rows).Nodup) :
    distinctRevisions rows < rows.length := by
  by_cases hnull : HasNull rows
  · exact distinctRevisions_lt_of_null hnull
  · have hall : (rows.filter fun e => decide (e.resultRevision ≠ .null)) = rows := by
      rw [List.filter_eq_self]
      intro e he
      simpa using fun hrev => hnull ⟨e, he, hrev⟩
    have hle : (revisionKeys rows).dedup.length ≤ (revisionKeys rows).length :=
      (List.dedup_sublist _).length_le
    have hne : (revisionKeys rows).dedup.length ≠ (revisionKeys rows).length := by
      intro heq
      have hself := (List.dedup_sublist (revisionKeys rows)).eq_of_length heq
      exact h (hself ▸ List.nodup_dedup _)
    have hlen : (revisionKeys rows).length = rows.length := List.length_map _
    simp only [distinctRevisions, hall]
    have hlt := lt_of_le_of_ne hle hne
    rwa [hlen] at hlt

/-- Revisions that are all there and all different are all counted. -/
lemma distinctRevisions_eq {rows : List Event} (hnull : ¬HasNull rows)
    (h : (revisionKeys rows).Nodup) : distinctRevisions rows = rows.length := by
  have hall : (rows.filter fun e => decide (e.resultRevision ≠ .null)) = rows := by
    rw [List.filter_eq_self]
    intro e he
    simpa using fun hrev => hnull ⟨e, he, hrev⟩
  have hdedup : (revisionKeys rows).dedup = revisionKeys rows := h.dedup
  have hlen : (revisionKeys rows).length = rows.length := List.length_map _
  simp only [distinctRevisions, hall]
  rw [← hlen]
  exact congrArg List.length hdedup

/-! ## The two classifications -/

section
variable {pf : Platform} {revision : Cell} {rows : List Event}

/-- The location of the membership clause. -/
def sqlPlace (pf : Platform) (revision : Cell) (rows : List Event) : Location :=
  if HasUnknown pf revision rows ∨ ¬(revisionKeys rows).Nodup then .unknown
  else newestPlace pf revision rows

/-- The location the renderer filters on. -/
def queuePlace (pf : Platform) (revision : Cell) (rows : List Event) : Location :=
  if isFlagged pf revision rows then .unknown else newestPlace pf revision rows

lemma sqlPlace_eq_backlog : sqlPlace pf revision rows = .backlog ↔
    ¬HasUnknown pf revision rows ∧ (revisionKeys rows).Nodup ∧
      newestPlace pf revision rows = .backlog := by
  unfold sqlPlace
  by_cases h : HasUnknown pf revision rows ∨ ¬(revisionKeys rows).Nodup
  · rw [if_pos h]
    constructor
    · intro hplace
      exact absurd hplace (by decide)
    · rintro ⟨hunknown, hnodup, -⟩
      exact absurd h (not_or.mpr ⟨hunknown, not_not.mpr hnodup⟩)
  · rw [if_neg h]
    obtain ⟨hunknown, hnodup⟩ := not_or.mp h
    exact ⟨fun hplace => ⟨hunknown, not_not.mp hnodup, hplace⟩, fun hplace => hplace.2.2⟩

/-- A missing revision flags the placement. -/
lemma queuePlace_of_null (h : HasNull rows) : queuePlace pf revision rows = .unknown := by
  have hflag : isFlagged pf revision rows = true := by
    simp [isFlagged, distinctRevisions_lt_of_null h]
  rw [queuePlace, if_pos hflag]

/-- Without one, a card the clause finds in the backlog is rendered there. -/
lemma queuePlace_of_backlog (hnull : ¬HasNull rows) (h : sqlPlace pf revision rows = .backlog) :
    queuePlace pf revision rows = .backlog := by
  obtain ⟨hunknown, hnodup, hplace⟩ := sqlPlace_eq_backlog.mp h
  have hflag : isFlagged pf revision rows = false := by
    simp only [isFlagged, hunknown, decide_false, Bool.false_or, distinctRevisions_eq hnull hnodup,
      lt_irrefl]
  rw [queuePlace, hflag, hplace]
  rfl

/-- A card the clause does not find in the backlog is not rendered there. -/
lemma queuePlace_ne_backlog (h : sqlPlace pf revision rows ≠ .backlog) :
    queuePlace pf revision rows ≠ .backlog := by
  intro hqueue
  unfold queuePlace at hqueue
  by_cases hflag : isFlagged pf revision rows = true
  · rw [if_pos hflag] at hqueue
    exact absurd hqueue (by decide)
  · rw [if_neg hflag] at hqueue
    have hunflagged := Bool.eq_false_of_not_eq_true hflag
    simp only [isFlagged, Bool.or_eq_false_iff, decide_eq_false_iff_not] at hunflagged
    obtain ⟨hunknown, hcount⟩ := hunflagged
    have hnodup : (revisionKeys rows).Nodup := by
      by_contra hdup
      exact hcount (distinctRevisions_lt_of_duplicate hdup)
    exact h (sqlPlace_eq_backlog.mpr ⟨hunknown, hnodup, hqueue⟩)

end

/-! ## Views and pages -/

/-- What the primary keys promise of the cards: every row has an identifier of its own, and no two
rows share a key. -/
structure Tables where
  board : Board
  rowids : (board.cards.map BoardCard.rowid).Nodup
  rowid_range : ∀ c ∈ board.cards, -2 ^ 63 ≤ c.rowid ∧ c.rowid < 2 ^ 63
  keys : board.cards.Pairwise fun a b => a.cardId = b.cardId → a.cardId = none

/-- The pages one gets to from the first page of a view, following the cursors to the next one. -/
inductive Shown (pf : Platform) (board : Board) (view : View) : Page → Prop
  | first {page : Page} (h : board.pageSnapshot pf view .start = .ok page) : Shown pf board view page
  | next {page after : Page} {token : ℤ} (shown : Shown pf board view page)
      (htoken : page.next = some token)
      (h : board.pageSnapshot pf view (.after token) = .ok after) : Shown pf board view after

/-- The card is rendered on some page of the view. -/
def OnView (pf : Platform) (board : Board) (view : View) (card : BoardCard) : Prop :=
  ∃ page, Shown pf board view page ∧ card ∈ page.rendered view

/-- Every card is on exactly one of the main board and the backlog, or in the archive. -/
def IsVisible (pf : Platform) (board : Board) : Prop :=
  ∀ card ∈ board.cards,
    if card.isArchived then OnView pf board .archive card
    else (OnView pf board .main card ∧ ¬OnView pf board .backlog card) ∨
      (OnView pf board .backlog card ∧ ¬OnView pf board .main card)

section
variable {pf : Platform} {board : Board} {view : View}

/-- The placement rows of the card can be read. -/
def Board.IsReadable (pf : Platform) (board : Board) (card : BoardCard) : Prop :=
  ∀ e ∈ board.placements card, Kanban.IsReadable pf card.revision e

/-- The location of the membership clause for a card. -/
def Board.sqlPlace (pf : Platform) (board : Board) (card : BoardCard) : Location :=
  Kanban.sqlPlace pf card.revision (board.placements card)

/-- The location the renderer filters on for a card. -/
def Board.queuePlace (pf : Platform) (board : Board) (card : BoardCard) : Location :=
  Kanban.queuePlace pf card.revision (board.placements card)

/-- The membership clause, where it can be evaluated. -/
def Board.inView (pf : Platform) (board : Board) (view : View) (card : BoardCard) : Bool :=
  match view with
  | .archive => card.isArchived
  | .main => !card.isArchived && decide (board.sqlPlace pf card ≠ .backlog)
  | .backlog => !card.isArchived && decide (board.sqlPlace pf card = .backlog)

lemma isMember_of_readable {card : BoardCard} (h : board.IsReadable pf card) :
    board.isMember pf view card = .ok (board.inView pf view card) := by
  have hplace := placementExpression_of_readable h
  cases view with
  | archive => rfl
  | main =>
      by_cases harchived : card.isArchived = true
      · simp [Board.isMember, Board.inView, harchived]
      · simp [Board.isMember, Board.inView, harchived, hplace, bind, Except.bind, pure, Except.pure,
          Board.sqlPlace, Kanban.sqlPlace]
  | backlog =>
      by_cases harchived : card.isArchived = true
      · simp [Board.isMember, Board.inView, harchived]
      · simp [Board.isMember, Board.inView, harchived, hplace, bind, Except.bind, pure, Except.pure,
          Board.sqlPlace, Kanban.sqlPlace]

lemma fst_ite_ne {α β : Type} {c : Prop} [Decidable c] {p q : α × β} {a : α} (hp : p.1 ≠ a)
    (hq : q.1 ≠ a) : (if c then p else q).1 ≠ a := by
  split
  · exact hp
  · exact hq

/-- The display group the renderer tells the archived cards by is that of no other card. -/
lemma displayed_eq_archived {data : CardData} {found : List Text} {delivery : Presentation} :
    (displayed data found delivery).1 = ("封存" : Text) ↔ data.card.manualState = .archived := by
  unfold displayed
  by_cases harchived : data.card.manualState = .archived
  · simp only [harchived, if_true]
  · simp only [harchived, if_false, iff_false]
    -- every other branch names a group of its own
    repeat' apply fst_ite_ne
    all_goals
      dsimp only
      decide

/-- Being rendered, read off the location of a page. -/
def isRendered (view : View) (card : BoardCard) (place : Location) : Bool :=
  match view with
  | .archive => card.isArchived
  | .main => !card.isArchived && decide (place ≠ .backlog)
  | .backlog => !card.isArchived && decide (place = .backlog)

lemma mem_rendered {page : Page} {card : BoardCard} :
    card ∈ page.rendered view ↔
      ∃ place, (card, place) ∈ page.cards ∧ isRendered view card place = true := by
  simp only [Page.rendered, List.mem_map, List.mem_filter, Prod.exists, exists_and_right,
    exists_eq_right]
  constructor
  · rintro ⟨place, hmem, hrendered⟩
    exact ⟨place, hmem, by cases view <;> exact hrendered⟩
  · rintro ⟨place, hmem, hrendered⟩
    exact ⟨place, hmem, by cases view <;> exact hrendered⟩

lemma sortCards_perm (cards : List BoardCard) : (sortCards cards).Perm cards :=
  List.perm_insertionSort _ _

/-- A row of a page is a card of its view. -/
lemma mem_pageRows {cursor : Cursor} {rows : List BoardCard}
    (h : board.pageRows pf view cursor = .ok rows) {card : BoardCard} (hcard : card ∈ rows) :
    card ∈ board.cards ∧ board.isMember pf view card = .ok true := by
  have hmembers : ∀ {p : BoardCard → Bool} {found : List BoardCard},
      (keepIf (board.isMember pf view) (board.cards.filter p)).map sortCards = .ok found →
      card ∈ found → card ∈ board.cards ∧ board.isMember pf view card = .ok true := by
    intro p found hfound hmem
    cases hkept : keepIf (board.isMember pf view) (board.cards.filter p) with
    | error e => simp [hkept, Except.map] at hfound
    | ok kept =>
        simp only [hkept, Except.map, Except.ok.injEq] at hfound
        subst hfound
        obtain ⟨hcards, hmember⟩ := mem_of_keepIf hkept ((sortCards_perm kept).subset hmem)
        exact ⟨List.mem_of_mem_filter hcards, hmember⟩
  cases cursor with
  | start =>
      simp only [Board.pageRows, bind_eq_ok] at h
      obtain ⟨found, hfound, hrows⟩ := h
      simp only [pure, Except.pure, Except.ok.injEq] at hrows
      apply hmembers hfound
      subst hrows
      split at hcard
      · exact hcard
      · exact List.mem_of_mem_take hcard
  | after token =>
      simp only [Board.pageRows, bind_eq_ok] at h
      obtain ⟨origin, -, found, hfound, hrows⟩ := h
      simp only [pure, Except.pure, Except.ok.injEq] at hrows
      subst hrows
      exact hmembers hfound (List.mem_of_mem_take hcard)
  | before token =>
      simp only [Board.pageRows, bind_eq_ok] at h
      obtain ⟨origin, -, found, hfound, hrows⟩ := h
      simp only [pure, Except.pure, Except.ok.injEq] at hrows
      subst hrows
      rw [List.mem_reverse] at hcard
      exact hmembers hfound (List.mem_reverse.mp (List.mem_of_mem_take hcard))

/-- A page holds the rows of its query, each with the location `_summaries` gives it. -/
lemma exists_rows_of_snapshot {cursor : Cursor} {page : Page}
    (h : board.pageSnapshot pf view cursor = .ok page) {card : BoardCard} {place : Location}
    (hcard : (card, place) ∈ page.cards) :
    (∃ rows, board.pageRows pf view cursor = .ok rows ∧ card ∈ rows) ∧
      ∃ bad, queueLocation pf card.revision (board.placements card) = .ok (place, bad) := by
  simp only [Board.pageSnapshot, bind_eq_ok, require_eq_ok] at h
  obtain ⟨-, -, -, -, rows, hrows, cards, hcards, hpage⟩ := h
  have hcards_eq : page.cards = cards := by
    split at hpage
    · split at hpage
      · simp only [pure, Except.pure, Except.ok.injEq] at hpage
        rw [← hpage]
      · simp only [bind_eq_ok, pure, Except.pure, Except.ok.injEq] at hpage
        obtain ⟨hasPrevious, -, hasNext, -, hpage⟩ := hpage
        rw [← hpage]
    · simp only [pure, Except.pure, Except.ok.injEq] at hpage
      rw [← hpage]
  rw [hcards_eq] at hcard
  obtain ⟨card', hcard', hread⟩ := exists_of_mapM hcards hcard
  simp only [bind_eq_ok, pure, Except.pure, Except.ok.injEq, Prod.mk.injEq] at hread
  obtain ⟨⟨place', bad⟩, hplace, rfl, rfl⟩ := hread
  exact ⟨⟨rows, hrows, hcard'⟩, bad, hplace⟩

/-- So it holds cards of its view. -/
lemma mem_pageSnapshot {cursor : Cursor} {page : Page}
    (h : board.pageSnapshot pf view cursor = .ok page) {card : BoardCard} {place : Location}
    (hcard : (card, place) ∈ page.cards) :
    card ∈ board.cards ∧ board.isMember pf view card = .ok true ∧
      ∃ bad, queueLocation pf card.revision (board.placements card) = .ok (place, bad) := by
  obtain ⟨⟨rows, hrows, hmem⟩, hplace⟩ := exists_rows_of_snapshot h hcard
  obtain ⟨hcards, hmember⟩ := mem_pageRows hrows hmem
  exact ⟨hcards, hmember, hplace⟩

/-- Every page one gets to is a page of the view. -/
lemma Shown.exists_snapshot {page : Page} (h : Shown pf board view page) :
    ∃ cursor, board.pageSnapshot pf view cursor = .ok page := by
  cases h with
  | first h => exact ⟨_, h⟩
  | next _ _ h => exact ⟨_, h⟩

/-- A card on a view is a member of it, has rows that can be read, and passes the filter. -/
lemma of_onView {card : BoardCard} (h : OnView pf board view card) :
    card ∈ board.cards ∧ board.IsReadable pf card ∧ board.inView pf view card = true ∧
      isRendered view card (board.queuePlace pf card) = true := by
  obtain ⟨page, hshown, hrendered⟩ := h
  obtain ⟨cursor, hpage⟩ := hshown.exists_snapshot
  obtain ⟨place, hmem, hpass⟩ := mem_rendered.mp hrendered
  obtain ⟨hcards, hmember, bad, hqueue⟩ := mem_pageSnapshot hpage hmem
  have hreadable : board.IsReadable pf card := readable_of_queueLocation hqueue
  rw [isMember_of_readable hreadable, Except.ok.injEq] at hmember
  rw [queueLocation_of_readable hreadable, Except.ok.injEq, Prod.mk.injEq] at hqueue
  have hplace : board.queuePlace pf card = place := hqueue.1
  exact ⟨hcards, hreadable, hmember, hplace ▸ hpass⟩

/-- The flaw: the clause finds the card in the backlog, and a placement row has no revision. -/
def Board.IsStranded (pf : Platform) (board : Board) (card : BoardCard) : Prop :=
  ¬HasUnknown pf card.revision (board.placements card) ∧
    (revisionKeys (board.placements card)).Nodup ∧
    newestPlace pf card.revision (board.placements card) = .backlog ∧
    HasNull (board.placements card)

/-- A stranded card is rendered nowhere. -/
lemma not_onView_of_stranded {card : BoardCard} (harchived : card.isArchived = false)
    (h : board.IsStranded pf card) :
    ¬OnView pf board .main card ∧ ¬OnView pf board .backlog card := by
  obtain ⟨hunknown, hnodup, hplace, hnull⟩ := h
  have hsql : board.sqlPlace pf card = .backlog :=
    sqlPlace_eq_backlog.mpr ⟨hunknown, hnodup, hplace⟩
  have hqueue : board.queuePlace pf card = .unknown := queuePlace_of_null hnull
  constructor
  · intro hview
    obtain ⟨-, -, hmember, -⟩ := of_onView hview
    simp [Board.inView, harchived, hsql] at hmember
  · intro hview
    obtain ⟨-, -, -, hrendered⟩ := of_onView hview
    simp [isRendered, harchived, hqueue] at hrendered

/-- No card is on the main board and in the backlog. -/
lemma not_onView_both {card : BoardCard} (hmain : OnView pf board .main card) :
    ¬OnView pf board .backlog card := by
  intro hbacklog
  obtain ⟨-, -, hmember, -⟩ := of_onView hmain
  obtain ⟨-, -, hmember', -⟩ := of_onView hbacklog
  simp only [Board.inView, Bool.and_eq_true, decide_eq_true_eq] at hmember hmember'
  exact hmember.2 hmember'.2

end

/-! ## Turning the pages -/

/-- A row with a key. -/
def isKeyed (card : BoardCard) : Bool := card.cardId.isSome

/-- `<` on the keys of two rows. -/
def keyBefore (a b : BoardCard) : Bool := keyLt a.cardId b.cardId

lemma keyBefore_iff {a b : BoardCard} :
    keyBefore a b = true ↔ ∃ s t, a.cardId = some s ∧ b.cardId = some t ∧ s < t := by
  unfold keyBefore keyLt
  cases a.cardId with
  | none => simp
  | some s => cases b.cardId <;> simp

lemma isKeyed_of_before {a b : BoardCard} (h : keyBefore a b = true) : isKeyed a = true := by
  obtain ⟨s, t, ha, -, -⟩ := keyBefore_iff.mp h
  simp [isKeyed, ha]

lemma keyBefore_isOrder : Keyset.IsOrder keyBefore isKeyed where
  asymm a b h := by
    obtain ⟨s, t, ha, hb, hlt⟩ := keyBefore_iff.mp h
    simp [keyBefore, keyLt, ha, hb, hlt.asymm]
  ranked_of_lt a b h := by
    obtain ⟨s, t, -, hb, -⟩ := keyBefore_iff.mp h
    simp [isKeyed, hb]

/-- Rows that share no key stand in order once they are sorted. -/
lemma sortCards_inOrder {cards : List BoardCard}
    (h : cards.Pairwise fun a b => a.cardId = b.cardId → a.cardId = none) :
    Keyset.InOrder keyBefore isKeyed (sortCards cards) := by
  have hsorted : (sortCards cards).Pairwise fun a b => a.key ≤ b.key :=
    List.pairwise_insertionSort _ _
  have hkeys : (sortCards cards).Pairwise fun a b => a.cardId = b.cardId → a.cardId = none := by
    refine (List.Perm.pairwise_iff ?_ (sortCards_perm cards)).mpr h
    intro a b hab heq
    rw [heq]
    exact hab heq.symm
  refine (hsorted.and hkeys).imp ?_
  rintro a b ⟨hle, hkey⟩ ha
  obtain ⟨s, hs⟩ := Option.isSome_iff_exists.mp ha
  cases hb : b.cardId with
  | none =>
      have hbot : b.key = ⊥ := hb
      rw [hbot, le_bot_iff] at hle
      exact absurd (hs.symm.trans hle) (by simp)
  | some t =>
      have hst : s ≤ t := by
        have hle' : ((s : WithBot Text)) ≤ (t : WithBot Text) := by
          have ha' : a.key = (s : WithBot Text) := hs
          have hb' : b.key = (t : WithBot Text) := hb
          rwa [ha', hb'] at hle
        exact WithBot.coe_le_coe.mp hle'
      have hne : s ≠ t := by
        rintro rfl
        exact absurd (hs.symm.trans (hkey (hs.trans hb.symm))) (by simp)
      exact keyBefore_iff.mpr ⟨s, t, hs, hb, lt_of_le_of_ne hst hne⟩

/-- Among keyed rows, picking and sorting can be done in either order. -/
lemma sortCards_filter {cards : List BoardCard}
    (h : cards.Pairwise fun a b => a.cardId = b.cardId → a.cardId = none) {p : BoardCard → Bool}
    (hp : ∀ c, p c = true → isKeyed c = true) :
    sortCards (cards.filter p) = (sortCards cards).filter p := by
  have hkeyed : ∀ {rows : List BoardCard}, (∀ c ∈ rows, p c = true) →
      Keyset.InOrder keyBefore isKeyed rows → rows.Pairwise fun a b => keyBefore a b = true := by
    intro rows hrows horder
    exact horder.imp_of_mem fun ha _ hlt => hlt (hp _ (hrows _ ha))
  have hleft := hkeyed
    (fun c hc => (List.mem_filter.mp ((sortCards_perm _).subset hc)).2)
    (sortCards_inOrder (h.filter p))
  have hright := hkeyed (fun c hc => (List.mem_filter.mp hc).2)
    ((sortCards_inOrder h).filter p)
  refine List.Perm.eq_of_pairwise ?_ hleft hright ?_
  · intro a b _ _ hab hba
    rw [keyBefore_isOrder.asymm a b hab] at hba
    exact absurd hba Bool.false_ne_true
  · exact (sortCards_perm _).trans ((sortCards_perm cards).symm.filter _)

section
variable {pf : Platform} {t : Tables} {view : View}

/-- A card with the location the renderer filters on. -/
def Board.located (pf : Platform) (board : Board) (card : BoardCard) : BoardCard × Location :=
  (card, board.queuePlace pf card)

/-- The cards of a view, in order. -/
def Board.members (pf : Platform) (board : Board) (view : View) : List BoardCard :=
  sortCards (board.cards.filter (board.inView pf view))

/-- The cursor of a row, offered if some member is on that side of it. -/
def Board.offered (pf : Platform) (board : Board) (view : View) (side : BoardCard → Bool)
    (row : BoardCard) : Option ℤ :=
  if ∃ c ∈ board.members pf view, side c = true then some row.rowid else none

lemma mem_members {card : BoardCard} : card ∈ t.board.members pf view ↔
    card ∈ t.board.cards ∧ t.board.inView pf view card = true := by
  rw [Board.members, (sortCards_perm _).mem_iff, List.mem_filter]

/-- The clause can be evaluated on every card, and the placement rows of the members can be read. -/
structure Board.IsServed (pf : Platform) (board : Board) (view : View) : Prop where
  member : ∀ c ∈ board.cards, board.isMember pf view c = .ok (board.inView pf view c)
  readable : ∀ c ∈ board.cards, board.inView pf view c = true → board.IsReadable pf c

lemma isServed_of_readable (h : ∀ c ∈ t.board.cards, t.board.IsReadable pf c) :
    t.board.IsServed pf view where
  member c hc := isMember_of_readable (h c hc)
  readable c hc _ := h c hc

lemma members_inOrder : Keyset.InOrder keyBefore isKeyed (t.board.members pf view) :=
  sortCards_inOrder (t.keys.filter _)

variable (hserved : t.board.IsServed pf view)
include hserved

lemma keepIf_members (p : BoardCard → Bool) :
    keepIf (t.board.isMember pf view) (t.board.cards.filter p) =
      .ok ((t.board.cards.filter (t.board.inView pf view)).filter p) := by
  rw [keepIf_eq_filter fun c hc => hserved.member c (List.mem_of_mem_filter hc), List.filter_comm]

lemma cursorCard_eq {card : BoardCard} (hcard : card ∈ t.board.members pf view) :
    t.board.cursorCard pf view card.rowid = .ok card := by
  obtain ⟨hmem, hview⟩ := mem_members.mp hcard
  have hfound : card ∈ (t.board.cards.filter (t.board.inView pf view)).filter
      fun c => decide (c.rowid = card.rowid) := by
    simp [hmem, hview]
  simp only [Board.cursorCard, keepIf_members hserved, bind, Except.bind]
  cases hrows : (t.board.cards.filter (t.board.inView pf view)).filter
      fun c => decide (c.rowid = card.rowid) with
  | nil =>
      rw [hrows] at hfound
      exact absurd hfound List.not_mem_nil
  | cons first rest =>
      have hfirst : first ∈ (t.board.cards.filter (t.board.inView pf view)).filter
          fun c => decide (c.rowid = card.rowid) := hrows ▸ List.mem_cons_self
      simp only [List.mem_filter, decide_eq_true_eq] at hfirst
      exact congrArg Except.ok
        (List.inj_on_of_nodup_map t.rowids hfirst.1.1 hmem hfirst.2)

lemma pageRows_start : t.board.pageRows pf view .start =
    .ok (if view = .main then t.board.members pf view
      else (t.board.members pf view).take pageSize) := by
  have hall : (t.board.cards.filter (t.board.inView pf view)).filter (fun _ => true) =
      t.board.cards.filter (t.board.inView pf view) := List.filter_true _
  simp only [Board.pageRows, keepIf_members hserved, Except.map, bind, Except.bind, pure, Except.pure,
    hall]
  rfl

lemma pageRows_after {card : BoardCard} (hcard : card ∈ t.board.members pf view) :
    t.board.pageRows pf view (.after card.rowid) =
      .ok (((t.board.members pf view).filter (keyBefore card)).take pageSize) := by
  have hsort := sortCards_filter (t.keys.filter (t.board.inView pf view))
    (keyBefore_isOrder.ranked_of_lt card)
  simp only [Board.pageRows, cursorCard_eq hserved hcard, keepIf_members hserved, Except.map, bind,
    Except.bind, pure, Except.pure]
  exact congrArg (fun rows => Except.ok (List.take pageSize rows)) hsort

lemma pageRows_before {card : BoardCard} (hcard : card ∈ t.board.members pf view) :
    t.board.pageRows pf view (.before card.rowid) =
      .ok (((t.board.members pf view).filter fun c => keyBefore c card).reverse.take
        pageSize).reverse := by
  have hsort := sortCards_filter (t.keys.filter (t.board.inView pf view))
    (p := fun c => keyBefore c card) fun c => isKeyed_of_before
  simp only [Board.pageRows, cursorCard_eq hserved hcard, keepIf_members hserved, Except.map, bind,
    Except.bind, pure, Except.pure]
  exact congrArg (fun rows : List BoardCard => Except.ok (rows.reverse.take pageSize).reverse) hsort

lemma hasRow_eq (p : BoardCard → Bool) : t.board.hasRow pf view p =
    .ok (!((t.board.cards.filter (t.board.inView pf view)).filter p).isEmpty) := by
  simp only [Board.hasRow, keepIf_members hserved, Except.map]

lemma mapM_located {rows : List BoardCard} (hsub : rows ⊆ t.board.members pf view) :
    (rows.mapM fun c => do
      let (place, _) ← queueLocation pf c.revision (t.board.placements c)
      return (c, place)) = Except.ok (rows.map (t.board.located pf)) := by
  apply mapM_eq_ok
  intro c hc
  obtain ⟨hmem, hview⟩ := mem_members.mp (hsub hc)
  rw [queueLocation_of_readable (hserved.readable c hmem hview)]
  rfl

/-- A page is shown, with the cursors of its ends where a member is on that side. -/
lemma pageSnapshot_eq {cursor : Cursor} {rows : List BoardCard} (hvalid : validCursor cursor = true)
    (hview : view ≠ .main) (hrows : t.board.pageRows pf view cursor = .ok rows)
    (hsub : rows ⊆ t.board.members pf view) :
    t.board.pageSnapshot pf view cursor = .ok ⟨rows.map (t.board.located pf),
      rows.head?.bind fun first => t.board.offered pf view (keyBefore · first) first,
      rows.getLast?.bind fun last => t.board.offered pf view (keyBefore last) last⟩ := by
  have hoffered : ∀ (p : BoardCard → Bool) (row : BoardCard),
      (if (!((t.board.cards.filter (t.board.inView pf view)).filter p).isEmpty) = true
        then some row.rowid else none) = t.board.offered pf view p row := by
    intro p row
    have hiff : (!((t.board.cards.filter (t.board.inView pf view)).filter p).isEmpty) = true ↔
        ∃ c ∈ t.board.members pf view, p c = true := by
      rw [Bool.not_eq_true', List.isEmpty_eq_false_iff_exists_mem]
      simp only [List.mem_filter, mem_members]
    simp only [Board.offered, hiff]
  have hcards := mapM_located hserved hsub
  simp only [bind, Except.bind, pure, Except.pure] at hcards
  simp only [Board.pageSnapshot, require, hvalid, if_true, hrows, hcards, hasRow_eq hserved,
    bind, Except.bind, pure, Except.pure, hview, ne_eq, not_false_eq_true,
    decide_true, Bool.true_or]
  cases hlast : rows.getLast? with
  | none =>
      have hnil : rows = [] := List.getLast?_eq_none_iff.mp hlast
      subst hnil
      rfl
  | some last =>
      cases hhead : rows.head? with
      | none =>
          have hnil : rows = [] := List.head?_eq_none_iff.mp hhead
          rw [hnil] at hlast
          exact absurd hlast (by simp)
      | some first =>
          simp only [if_false, Option.bind_some, hoffered]
          rfl

/-- A page is shown, with a cursor to the next one exactly when a card follows. -/
lemma pageSnapshot_of_rows {cursor : Cursor} {rows : List BoardCard}
    (hvalid : validCursor cursor = true) (hcursor : view ≠ .main ∨ cursor = .start)
    (hrows : t.board.pageRows pf view cursor = .ok rows)
    (hsub : rows ⊆ t.board.members pf view) :
    ∃ page, t.board.pageSnapshot pf view cursor = .ok page ∧
      page.cards = rows.map (t.board.located pf) ∧
      (view ≠ .main → ∀ last ∈ rows.getLast?, page.next =
        t.board.offered pf view (keyBefore last) last) := by
  by_cases hview : view = .main
  · have hguard : (decide (view ≠ .main) || decide (cursor = .start)) = true := by
      simpa using hcursor
    have hcards := mapM_located hserved hsub
    simp only [bind, Except.bind, pure, Except.pure] at hcards
    simp only [Board.pageSnapshot, require, hvalid, hguard, if_true, hrows, hcards, bind,
      Except.bind, pure, Except.pure]
    cases rows.head? with
    | none => exact ⟨_, rfl, rfl, fun hne => absurd hview hne⟩
    | some first =>
        cases rows.getLast? with
        | none => exact ⟨_, rfl, rfl, fun hne => absurd hview hne⟩
        | some last =>
            simp only [hview, if_true]
            exact ⟨_, rfl, rfl, fun hne => absurd rfl hne⟩
  · refine ⟨_, pageSnapshot_eq hserved hvalid hview hrows hsub, rfl, fun _ last hlast => ?_⟩
    rw [Option.mem_def.mp hlast]
    rfl

/-- The pages one can turn to are shown. -/
lemma exists_shown (hview : view ≠ .main) {rows : List BoardCard}
    (h : Keyset.Turned keyBefore pageSize (t.board.members pf view) rows) :
    ∃ page, Shown pf t.board view page ∧ page.cards = rows.map (t.board.located pf) ∧
      ∀ last ∈ rows.getLast?, page.next =
        t.board.offered pf view (keyBefore last) last := by
  induction h with
  | first =>
      have hrows : t.board.pageRows pf view .start = _ := pageRows_start hserved
      rw [if_neg hview] at hrows
      obtain ⟨page, hpage, hcards, hnext⟩ := pageSnapshot_of_rows hserved
        (rfl : validCursor .start = true)
        (.inl hview) hrows fun c hc => List.mem_of_mem_take hc
      exact ⟨page, .first hpage, hcards, hnext hview⟩
  | @next page last turned hlast hmore ih =>
      obtain ⟨page, hshown, -, hnext⟩ := ih
      obtain ⟨c, hc⟩ := List.exists_mem_of_ne_nil _ hmore
      obtain ⟨hc, hbefore⟩ := List.mem_filter.mp hc
      have htoken := hnext last hlast
      rw [Board.offered, if_pos ⟨c, hc, hbefore⟩] at htoken
      have hmem : last ∈ t.board.members pf view := turned.subset (List.mem_of_getLast? hlast)
      have hrange := t.rowid_range last (mem_members.mp hmem).1
      obtain ⟨after, hafter, hcards, hnext'⟩ := pageSnapshot_of_rows hserved
        (show validCursor (.after last.rowid) = true from decide_eq_true hrange) (.inl hview)
        (pageRows_after hserved hmem) fun c hc =>
          List.mem_of_mem_filter (List.mem_of_mem_take hc)
      exact ⟨after, .next hshown htoken hafter, hcards, hnext' hview⟩

/-- A member of a view whose pages end in keyed rows is rendered, if its location passes. -/
lemma onView_of_member (hview : view ≠ .main)
    (hends : ∀ i (hi : i < (t.board.members pf view).length), pageSize ≤ i + 1 →
      i + 1 < (t.board.members pf view).length → isKeyed (t.board.members pf view)[i] = true)
    {card : BoardCard} (hcard : card ∈ t.board.members pf view)
    (hrendered : isRendered view card (t.board.queuePlace pf card) = true) :
    OnView pf t.board view card := by
  obtain ⟨rows, hturned, hmem⟩ := Keyset.exists_turned keyBefore_isOrder members_inOrder
    (by decide : 0 < pageSize) hends hcard
  obtain ⟨page, hshown, hcards, -⟩ := exists_shown hserved hview hturned
  refine ⟨page, hshown, mem_rendered.mpr ⟨_, ?_, hrendered⟩⟩
  rw [hcards]
  exact List.mem_map_of_mem hmem

end

/-- A member of the main board is rendered, if its location passes. -/
lemma onView_main {pf : Platform} {t : Tables} (hserved : t.board.IsServed pf .main)
    {card : BoardCard} (hcard : card ∈ t.board.members pf .main)
    (hrendered : isRendered .main card (t.board.queuePlace pf card) = true) :
    OnView pf t.board .main card := by
  have hrows : t.board.pageRows pf .main .start = _ := pageRows_start hserved
  rw [if_pos rfl] at hrows
  obtain ⟨page, hpage, hcards, -⟩ := pageSnapshot_of_rows hserved
        (rfl : validCursor .start = true)
    (.inr rfl) hrows fun c hc => hc
  refine ⟨page, .first hpage, mem_rendered.mpr ⟨_, ?_, hrendered⟩⟩
  rw [hcards]
  exact List.mem_map_of_mem hcard

/-! ## Rows without a key -/

/-- Of the archived cards, those without a key end no page that another one follows. -/
def Board.HasFewUnkeyed (board : Board) : Prop :=
  (board.cards.filter BoardCard.isArchived).length ≤ pageSize ∨
    ((board.cards.filter BoardCard.isArchived).filter fun c => !isKeyed c).length < pageSize

section
variable {pf : Platform} {t : Tables}

/-- Behind a keyed row all rows are keyed. -/
lemma isKeyed_of_le {rows : List BoardCard} (h : Keyset.InOrder keyBefore isKeyed rows) {i j : ℕ}
    (hi : i < rows.length) (hj : j < rows.length) (hij : i ≤ j) (hkeyed : isKeyed rows[i] = true) :
    isKeyed rows[j] = true := by
  rcases Nat.lt_or_eq_of_le hij with hlt | rfl
  · exact keyBefore_isOrder.ranked_of_lt _ _
      (List.pairwise_iff_getElem.mp h i j hi hj hlt hkeyed)
  · exact hkeyed

/-- So the rows without a key are in front. -/
lemma isKeyed_iff_of_inOrder {rows : List BoardCard} (h : Keyset.InOrder keyBefore isKeyed rows)
    {i : ℕ} (hi : i < rows.length) :
    isKeyed rows[i] = true ↔ (rows.filter fun c => !isKeyed c).length ≤ i := by
  constructor
  · intro hkeyed
    have hback : (rows.drop i).filter (fun c => !isKeyed c) = [] := by
      rw [List.filter_eq_nil_iff]
      intro c hc
      obtain ⟨j, hj, rfl⟩ := List.mem_drop_iff_getElem.mp hc
      have hj' := isKeyed_of_le h hi (j := i + j) (by omega) (by omega) hkeyed
      simp [hj']
    calc (rows.filter fun c => !isKeyed c).length
        = ((rows.take i ++ rows.drop i).filter fun c => !isKeyed c).length := by
          rw [List.take_append_drop]
      _ = ((rows.take i).filter fun c => !isKeyed c).length := by
          rw [List.filter_append, hback, List.append_nil]
      _ ≤ (rows.take i).length := List.length_filter_le _ _
      _ ≤ i := List.length_take_le i rows
  · intro hle
    by_contra hkeyed
    have hfront : (rows.take (i + 1)).filter (fun c => !isKeyed c) = rows.take (i + 1) := by
      rw [List.filter_eq_self]
      intro c hc
      obtain ⟨j, hj, rfl⟩ := List.mem_take_iff_getElem.mp hc
      have hjkeyed : ¬isKeyed rows[j] = true := fun hjkeyed =>
        hkeyed (isKeyed_of_le h (by omega) hi (by omega) hjkeyed)
      simpa using hjkeyed
    have hsub := ((List.take_sublist (i + 1) rows).filter fun c => !isKeyed c).length_le
    rw [hfront, List.length_take, Nat.min_eq_left (by omega)] at hsub
    omega

lemma members_archive : t.board.members pf .archive =
    sortCards (t.board.cards.filter BoardCard.isArchived) := rfl

/-- A card in the backlog has a key, since it has placement rows. -/
lemma isKeyed_of_backlog {card : BoardCard} (h : card ∈ t.board.members pf .backlog) :
    isKeyed card = true := by
  obtain ⟨-, hview⟩ := mem_members.mp h
  simp only [Board.inView, Bool.and_eq_true, decide_eq_true_eq] at hview
  by_contra hkey
  have hnone : t.board.placements card = [] := by
    have hkey' : card.cardId.isSome = false := Bool.eq_false_of_not_eq_true hkey
    simp [Board.placements, hkey']
  have hplace := (sqlPlace_eq_backlog.mp hview.2).2.2
  rw [hnone] at hplace
  have hboard : newestPlace pf card.revision [] = .board := rfl
  exact absurd (hboard.symm.trans hplace) (by decide)

/-- Following the cursors of an archive whose first page ends in a row without a key leads
nowhere. -/
lemma shown_archive_first (hread : ∀ c ∈ t.board.cards, t.board.IsReadable pf c)
    (hmany : ¬t.board.HasFewUnkeyed) {page : Page} (h : Shown pf t.board .archive page) :
    page.cards = ((t.board.members pf .archive).take pageSize).map (t.board.located pf) ∧
      page.next = none := by
  induction h with
  | @first page hpage =>
      have hrows : t.board.pageRows pf .archive .start = _ :=
        pageRows_start (isServed_of_readable hread)
      rw [if_neg (by decide)] at hrows
      obtain ⟨page', hpage', hcards, hnext⟩ := pageSnapshot_of_rows
        (isServed_of_readable hread)
        (rfl : validCursor .start = true)
        (.inl (by decide)) hrows fun c hc => List.mem_of_mem_take hc
      obtain rfl : page' = page := Except.ok.inj (hpage'.symm.trans hpage)
      refine ⟨hcards, ?_⟩
      obtain ⟨hlong, hunkeyed⟩ := not_or.mp hmany
      have hperm := sortCards_perm (t.board.cards.filter BoardCard.isArchived)
      have hlen : (t.board.members pf .archive).length =
          (t.board.cards.filter BoardCard.isArchived).length := hperm.length_eq
      have hlt : pageSize - 1 < (t.board.members pf .archive).length := by
        have : pageSize = 20 := rfl
        omega
      have hcount : ((t.board.members pf .archive).filter fun c => !isKeyed c).length =
          ((t.board.cards.filter BoardCard.isArchived).filter fun c => !isKeyed c).length :=
        (hperm.filter _).length_eq
      have hlast : ((t.board.members pf .archive).take pageSize).getLast? =
          some (t.board.members pf .archive)[pageSize - 1] := by
        have : pageSize = 20 := rfl
        rw [List.getLast?_eq_getElem?, List.length_take, Nat.min_eq_left (by omega),
          List.getElem?_take, if_pos (by omega), List.getElem?_eq_getElem hlt]
      have hkey : isKeyed (t.board.members pf .archive)[pageSize - 1] = false := by
        apply Bool.eq_false_of_not_eq_true
        rw [isKeyed_iff_of_inOrder members_inOrder hlt, hcount]
        have : pageSize = 20 := rfl
        omega
      rw [hnext (by decide) _ hlast, Board.offered, if_neg]
      rintro ⟨c, -, hbefore⟩
      obtain ⟨s, -, hs, -⟩ := keyBefore_iff.mp hbefore
      simp [isKeyed, hs] at hkey
  | next _ htoken _ ih => exact absurd (htoken.symm.trans ih.2) (by simp)

end

/-! ## The classification is exact -/

section
variable (pf : Platform) (t : Tables)

lemma archive_onView (hread : ∀ c ∈ t.board.cards, t.board.IsReadable pf c)
    (hfew : t.board.HasFewUnkeyed) {card : BoardCard} (hcard : card ∈ t.board.cards)
    (harchived : card.isArchived = true) : OnView pf t.board .archive card := by
  have hmember : card ∈ t.board.members pf .archive := mem_members.mpr ⟨hcard, harchived⟩
  apply onView_of_member (isServed_of_readable hread) (by decide) ?_ hmember harchived
  intro i hi hfull hmore
  have hperm := sortCards_perm (t.board.cards.filter BoardCard.isArchived)
  have hlen : (t.board.members pf .archive).length =
      (t.board.cards.filter BoardCard.isArchived).length := hperm.length_eq
  have hcount : ((t.board.members pf .archive).filter fun c => !isKeyed c).length =
      ((t.board.cards.filter BoardCard.isArchived).filter fun c => !isKeyed c).length :=
    (hperm.filter _).length_eq
  rw [isKeyed_iff_of_inOrder members_inOrder hi, hcount]
  rcases hfew with hshort | hfew
  · omega
  · omega

lemma hasFewUnkeyed_of_visible (hread : ∀ c ∈ t.board.cards, t.board.IsReadable pf c)
    (h : IsVisible pf t.board) : t.board.HasFewUnkeyed := by
  by_contra hmany
  have hsub : t.board.cards.filter BoardCard.isArchived ⊆
      (t.board.members pf .archive).take pageSize := by
    intro card hcard
    obtain ⟨hmem, harchived⟩ := List.mem_filter.mp hcard
    have hview := h card hmem
    rw [if_pos harchived] at hview
    obtain ⟨page, hshown, hrendered⟩ := hview
    obtain ⟨place, hpage, -⟩ := mem_rendered.mp hrendered
    rw [(shown_archive_first hread hmany hshown).1, List.mem_map] at hpage
    obtain ⟨card', hcard', heq⟩ := hpage
    obtain rfl : card' = card := congrArg Prod.fst heq
    exact hcard'
  have hnodup : (t.board.cards.filter BoardCard.isArchived).Nodup :=
    List.Nodup.filter _ (List.Nodup.of_map _ t.rowids)
  have hle := (List.subperm_of_subset hnodup hsub).length_le
  exact hmany (.inl (hle.trans (List.length_take_le _ _)))

end

/-! ## A stranded card -/

/-- A card from before placements, created without a result revision, that was moved to the backlog
later on. -/
def strandedCard : BoardCard := ⟨1, some ("c" : Text), .inbox, .int 1⟩

def legacyCreate : Event where
  operationId := "00000000-0000-4000-8000-000000000001"
  payloadHash := .text ""
  kind := "create"
  cardId := some ("c" : Text)
  taskId := .null
  expectedRevision := .null
  resultRevision := .null
  actor := .text "u"
  time := .int 1
  result := .accepted
  reason := .null
  payload := .null
  metadataDelta := .text "\x7b\x7d"

def placeDigest : Text := "f29d2f9c7f3e38655df7980c86bbd8b8e339471b1c9bc8c8cc854d85e28fce7e"

lemma isHexDigest_placeDigest : isHexDigest placeDigest = true := by decide

def placedLater : Event where
  operationId := "00000000-0000-4000-8000-000000000002"
  payloadHash := .text placeDigest
  kind := "place"
  cardId := some ("c" : Text)
  taskId := .null
  expectedRevision := .int 0
  resultRevision := .int 1
  actor := .text "u"
  time := .int 2
  result := .accepted
  reason := .null
  payload := .text (("\x7b\"actor\": \"u\", \"card_id\": \"c\", \"destination\": \"backlog\", " : Text) ++
    ("\"expected_revision\": 0, \"user_request\": \"later\"\x7d" : Text))
  metadataDelta := .text "\x7b\"queue_location\": \"backlog\"\x7d"

lemma nodup_strandedCard : ([strandedCard].map BoardCard.rowid).Nodup := List.nodup_singleton _

lemma keys_strandedCard :
    [strandedCard].Pairwise fun a b => a.cardId = b.cardId → a.cardId = none :=
  List.pairwise_singleton _ _

lemma rowid_range_strandedCard : ∀ c ∈ [strandedCard], -2 ^ 63 ≤ c.rowid ∧ c.rowid < 2 ^ 63 := by
  intro c hc
  obtain rfl := List.mem_singleton.mp hc
  decide

def strandedTables : Tables where
  board := ⟨[strandedCard], [legacyCreate, placedLater]⟩
  rowids := nodup_strandedCard
  rowid_range := rowid_range_strandedCard
  keys := keys_strandedCard

end Kanban

end AgentOrch
