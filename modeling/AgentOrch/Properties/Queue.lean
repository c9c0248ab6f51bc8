import AgentOrch.Construction.Daemon

/-!
# No request is lost

A request leaves the queue in three ways: to the quarantine, with its own result, or because a
start took it for finished.  The start looks for a result by the stem of the file name, so a name
used twice, or a stem that continues another one, makes it drop a request that was never served.
Where this does not happen, every request dropped is still there or was answered.
-/

namespace AgentOrch

open Py Json

/-! ## Directories -/

section
variable {name n : Text} {request r : Request} {files : List (Text × Request)}

lemma mem_without {file : Text × Request} :
    file ∈ Daemon.without name files ↔ file ∈ files ∧ file.1 ≠ name := by
  simp [Daemon.without]

lemma mem_dictKeys_without :
    n ∈ dictKeys (Daemon.without name files) ↔ n ∈ dictKeys files ∧ n ≠ name := by
  simp only [dictKeys, List.mem_map, mem_without]
  constructor
  · rintro ⟨file, ⟨hfile, hne⟩, rfl⟩
    exact ⟨⟨file, hfile, rfl⟩, hne⟩
  · rintro ⟨⟨file, hfile, rfl⟩, hne⟩
    exact ⟨file, ⟨hfile, hne⟩, rfl⟩

lemma nodup_without (h : (dictKeys files).Nodup) :
    (dictKeys (Daemon.without name files)).Nodup :=
  h.sublist (List.filter_sublist.map _)

/-- A file is the one of its name, or is left in the directory. -/
lemma mem_without_or (hnodup : (dictKeys files).Nodup) (hfile : dictGet name files = some request)
    (h : (n, r) ∈ files) : (n, r) ∈ Daemon.without name files ∨ r = request := by
  by_cases hname : n = name
  · rw [hname] at h
    rw [dictGet_of_mem hnodup h] at hfile
    exact .inr (Option.some.inj hfile)
  · exact .inl (mem_without.mpr ⟨h, hname⟩)

end

namespace Daemon

variable {rt : Runtime} {d d' : Daemon} {events : List Event} {event : Event} {request : Request}

/-! ## What happens to a request -/

/-- Its action was carried out, and its result was written. -/
def Served (events : List Event) (requestId : Text) : Prop :=
  .answer requestId ∈ events ∧ .write requestId ∈ events

/-- The request waits, was put into quarantine, or was served. -/
def Keeps (d : Daemon) (events : List Event) (request : Request) : Prop :=
  (∃ place name, (name, request) ∈ d.files place) ∨ request ∈ d.quarantine ∨
    Served events request.requestId

/-- A start that takes a file for finished sees a result of the file's own request. -/
def Unmistaken (d : Daemon) : Prop :=
  ∀ place name names request, d.phase = .scanning place (name :: names) →
    dictGet name (d.files place) = some request → d.finished name = true →
    ∃ result ∈ d.results, fnmatch result.1 (resultPattern name) = true ∧
      result.2 = request.requestId

lemma Served.later {requestId : Text} (h : Served events requestId) (more : List Event) :
    Served (events ++ more) requestId :=
  ⟨List.mem_append_left _ h.1, List.mem_append_left _ h.2⟩

/-- What `_handle` has done when it stands where it stands. -/
def Progress (events : List Event) (request : Request) : Activity → Prop
  | .answered => .answer request.requestId ∈ events
  | .written => Served events request.requestId
  | _ => True

/-- A poll meets every file in `processing/`, so it takes no file over another. -/
def Underway (d : Daemon) (events : List Event) : Phase → Prop
  | .polling .processing names => ∀ n ∈ dictKeys d.processing, n ∈ names
  | .polling .inbox _ => d.processing = []
  | .handling name request activity place names =>
    dictGet name d.processing = some request ∧ Progress events request activity ∧
      ∀ n ∈ dictKeys d.processing, n = name ∨ (place = .processing ∧ n ∈ names)
  | _ => True

/-- The invariant of the queue. -/
structure Orderly (d : Daemon) (events : List Event) : Prop where
  inboxNodup : (dictKeys d.inbox).Nodup
  processingNodup : (dictKeys d.processing).Nodup
  polled : ∀ place, ∀ n ∈ dictKeys (d.files place), isRequestFile n = true
  results : ∀ result ∈ d.results, Served events result.2
  underway : d.Underway events d.phase
  kept : ∀ name request, .drop name request ∈ events → d.Keeps events request
  reconciled : ∀ name request, .reconcile name request ∈ events → .write request.requestId ∈ events

lemma Handle.answered {db : Db} {activity activity' : Activity}
    (h : Handle rt request d activity event db activity') (events : List Event) :
    Progress (events ++ [event]) request activity' ∧ activity ≠ .answered ∧ activity ≠ .written := by
  cases h with
  | fail _ hactivity => exact ⟨List.mem_append_right _ (List.mem_singleton.mpr rfl), hactivity⟩
  | kanban | answer =>
      exact ⟨List.mem_append_right _ (List.mem_singleton.mpr rfl), by simp, by simp⟩
  | _ => exact ⟨trivial, by simp, by simp⟩

/-- A request stays kept when its file does. -/
lemma Keeps.of_subset (h : d.Keeps events request) (more : List Event)
    (hinbox : d.inbox ⊆ d'.inbox) (hprocessing : d.processing ⊆ d'.processing)
    (hquarantine : d.quarantine ⊆ d'.quarantine) : d'.Keeps (events ++ more) request := by
  rcases h with ⟨place, name, hfile⟩ | hq | hserved
  · cases place with
    | inbox => exact .inl ⟨.inbox, name, hinbox hfile⟩
    | processing => exact .inl ⟨.processing, name, hprocessing hfile⟩
  · exact .inr (.inl (hquarantine hq))
  · exact .inr (.inr (hserved.later more))

/-- A request stays kept when one file goes and its request is kept otherwise. -/
lemma Keeps.of_remove {place : Place} {name : Text} {gone : Request} (h : d.Keeps events request)
    (more : List Event) (hnodup : (dictKeys (d.files place)).Nodup)
    (hfile : dictGet name (d.files place) = some gone)
    (hinbox : (d.remove place name).inbox ⊆ d'.inbox)
    (hprocessing : (d.remove place name).processing ⊆ d'.processing)
    (hquarantine : d.quarantine ⊆ d'.quarantine) (hgone : d'.Keeps (events ++ more) gone) :
    d'.Keeps (events ++ more) request := by
  rcases h with ⟨place', n, hmem⟩ | hq | hserved
  · by_cases hplace : place' = place
    · subst hplace
      rcases mem_without_or hnodup hfile hmem with hleft | rfl
      · cases place' with
        | inbox => exact .inl ⟨.inbox, n, hinbox hleft⟩
        | processing => exact .inl ⟨.processing, n, hprocessing hleft⟩
      · exact hgone
    · cases place <;> cases place' <;> first
        | exact absurd rfl hplace
        | exact .inl ⟨.processing, n, hprocessing hmem⟩
        | exact .inl ⟨.inbox, n, hinbox hmem⟩
  · exact .inr (.inl (hquarantine hq))
  · exact .inr (.inr (hserved.later more))

lemma Progress.later {activity : Activity} (h : Progress events request activity)
    (more : List Event) : Progress (events ++ more) request activity := by
  cases activity with
  | answered => exact List.mem_append_left _ h
  | written => exact Served.later h more
  | _ => trivial

lemma Underway.later {phase : Phase} (h : d.Underway events phase) (more : List Event)
    (hprocessing : d'.processing = d.processing) : d'.Underway (events ++ more) phase := by
  cases phase with
  | polling place names =>
      cases place with
      | processing =>
          intro n hn
          rw [hprocessing] at hn
          exact h n hn
      | inbox => exact hprocessing.trans h
  | handling name request activity place names =>
      obtain ⟨hfile, hprogress, hnames⟩ := h
      refine ⟨hprocessing ▸ hfile, hprogress.later more, ?_⟩
      rw [hprocessing]
      exact hnames
  | _ => trivial

/-! ## One step -/

lemma mem_snoc {e : Event} (hne : e ≠ event) (h : e ∈ events ++ [event]) : e ∈ events := by
  rcases List.mem_append.mp h with h | h
  · exact h
  · exact absurd (List.mem_singleton.mp h) hne

/-- A step that moves no file. -/
lemma Orderly.advance (h : d.Orderly events) (hinbox : d'.inbox = d.inbox)
    (hprocessing : d'.processing = d.processing) (hquarantine : d'.quarantine = d.quarantine)
    (hresults : d'.results = d.results) (hdrop : ∀ n r, Event.drop n r ≠ event)
    (hreconcile : ∀ n r, Event.reconcile n r ≠ event)
    (hunderway : d'.Underway (events ++ [event]) d'.phase) : d'.Orderly (events ++ [event]) where
  inboxNodup := by
    rw [hinbox]
    exact h.inboxNodup
  processingNodup := by
    rw [hprocessing]
    exact h.processingNodup
  polled := by
    intro place n hn
    refine h.polled place n ?_
    cases place with
    | inbox => rwa [files, hinbox] at hn
    | processing => rwa [files, hprocessing] at hn
  results := by
    intro result hresult
    rw [hresults] at hresult
    exact (h.results result hresult).later _
  underway := hunderway
  kept := fun name request hmem => (h.kept name request (mem_snoc (hdrop _ _) hmem)).of_subset _
    (hinbox ▸ List.Subset.refl _) (hprocessing ▸ List.Subset.refl _)
    (hquarantine ▸ List.Subset.refl _)
  reconciled := fun name request hmem =>
    List.mem_append_left _ (h.reconciled name request (mem_snoc (hreconcile _ _) hmem))

/-- A file that leaves its directory, after which its request is kept otherwise. -/
lemma Orderly.removed (h : d.Orderly events) {place : Place} {name : Text} {gone : Request}
    (hfile : dictGet name (d.files place) = some gone)
    (hinbox : d'.inbox = (d.remove place name).inbox)
    (hprocessing : d'.processing = (d.remove place name).processing)
    (hquarantine : d.quarantine ⊆ d'.quarantine) (hresults : d'.results = d.results)
    (hdrop : ∀ n r, Event.drop n r ≠ event)
    (hreconcile : ∀ n r, Event.reconcile n r = event → .write r.requestId ∈ events)
    (hgone : d'.Keeps (events ++ [event]) gone)
    (hunderway : d'.Underway (events ++ [event]) d'.phase) : d'.Orderly (events ++ [event]) where
  inboxNodup := by
    rw [hinbox]
    cases place with
    | inbox => exact nodup_without h.inboxNodup
    | processing => exact h.inboxNodup
  processingNodup := by
    rw [hprocessing]
    cases place with
    | inbox => exact h.processingNodup
    | processing => exact nodup_without h.processingNodup
  polled := by
    intro place' n hn
    refine h.polled place' n ?_
    cases place <;> cases place' <;> simp only [files, hinbox, hprocessing, remove] at hn <;> first
      | exact (mem_dictKeys_without.mp hn).1
      | exact hn
  results := by
    intro result hresult
    rw [hresults] at hresult
    exact (h.results result hresult).later _
  underway := hunderway
  kept := fun n r hmem => by
    have hnodup : (dictKeys (d.files place)).Nodup := by
      cases place with
      | inbox => exact h.inboxNodup
      | processing => exact h.processingNodup
    exact (h.kept n r (mem_snoc (hdrop _ _) hmem)).of_remove _ hnodup hfile
      (hinbox ▸ List.Subset.refl _) (hprocessing ▸ List.Subset.refl _) hquarantine hgone
  reconciled := fun n r hmem => by
    rcases List.mem_append.mp hmem with hmem | hmem
    · exact List.mem_append_left _ (h.reconciled n r hmem)
    · exact List.mem_append_left _ (hreconcile n r (List.mem_singleton.mp hmem))

/-- Every step from an orderly queue in which a start takes no file for another leaves an orderly
queue. -/
lemma Orderly.step (h : d.Orderly events) (hclear : d.Unmistaken) (hstep : Step rt d event d') :
    d'.Orderly (events ++ [event]) := by
  cases hstep with
  | drop name request hname hfile =>
      refine ⟨?_, h.processingNodup, ?_, fun r hr => (h.results r hr).later _,
        h.underway.later _ rfl, ?_, ?_⟩
      · show (dictKeys (d.inbox ++ [(name, request)])).Nodup
        rw [dictKeys, List.map_append]
        exact List.nodup_append.mpr ⟨h.inboxNodup, List.nodup_singleton _, by
          rintro a ha b hb rfl
          exact hname ((List.mem_singleton.mp hb : a = name) ▸ ha)⟩
      · intro place n hn
        cases place with
        | inbox =>
            rw [files, dictKeys, List.map_append] at hn
            rcases List.mem_append.mp hn with hn | hn
            · exact h.polled .inbox n hn
            · rw [List.mem_singleton.mp hn]
              exact hfile
        | processing => exact h.polled .processing n hn
      · intro n r hmem
        rcases List.mem_append.mp hmem with hmem | hmem
        · exact (h.kept n r hmem).of_subset _ (List.subset_append_left _ _) (List.Subset.refl _)
            (List.Subset.refl _)
        · cases List.mem_singleton.mp hmem
          exact .inl ⟨.inbox, _, List.mem_append_right _ (List.mem_singleton.mpr rfl)⟩
      · intro n r hmem
        exact List.mem_append_left _ (h.reconciled n r (mem_snoc (by simp) hmem))
  | crash | start | block | started | keep | scanned | ready =>
      exact h.advance rfl rfl rfl rfl (by simp) (by simp) trivial
  | poll hphase =>
      refine h.advance rfl rfl rfl rfl (by simp) (by simp) fun n hn => ?_
      exact List.mem_filter.mpr ⟨hn, h.polled .processing n hn⟩
  | replay name names request hphase hfile =>
      refine h.advance rfl rfl rfl rfl (by simp) (by simp) ⟨hfile, trivial, fun n hn => ?_⟩
      have hunderway := h.underway
      rw [hphase] at hunderway
      rcases List.mem_cons.mp (hunderway n hn) with hn | hn
      · exact .inl hn
      · exact .inr ⟨rfl, hn⟩
  | replayed hphase =>
      refine h.advance rfl rfl rfl rfl (by simp) (by simp) ?_
      have hunderway := h.underway
      rw [hphase] at hunderway
      show d.processing = []
      cases hfiles : d.processing with
      | nil => rfl
      | cons file rest =>
          have hmem : file.1 ∈ dictKeys d.processing := by simp [hfiles, dictKeys]
          exact absurd (hunderway _ hmem) List.not_mem_nil
  | polled hphase => exact h.advance rfl rfl rfl rfl (by simp) (by simp) trivial
  | handle name request activity activity' place names event db hphase hhandle =>
      have hunderway := h.underway
      rw [hphase] at hunderway
      refine h.advance rfl rfl rfl rfl ?_ ?_ ⟨hunderway.1, (hhandle.answered events).1,
        hunderway.2.2⟩
      · cases hhandle <;> simp
      · cases hhandle <;> simp
  | quarantine place name names request hphase hfile hodd =>
      refine h.removed hfile ?_ ?_ (List.subset_append_left _ _) ?_ (by simp) (by simp) ?_ trivial
      · rfl
      · rfl
      · cases place <;> rfl
      · exact .inr (.inl (List.mem_append_right _ (List.mem_singleton.mpr rfl)))
  | reconcile place name names request hphase hfile hplain hfinished =>
      obtain ⟨result, hresult, -, hown⟩ := hclear place name names request hphase hfile hfinished
      have hserved := hown ▸ h.results result hresult
      refine h.removed hfile rfl rfl ?_ ?_ (by simp) ?_ (.inr (.inr (hserved.later _))) trivial
      · cases place <;> exact List.Subset.refl _
      · cases place <;> rfl
      · rintro n r ⟨⟩
        exact hserved.2
  | take name names request hphase hfile =>
      have hempty : d.processing = [] := by
        have hunderway := h.underway
        rwa [hphase] at hunderway
      refine ⟨nodup_without h.inboxNodup, nodup_dictSet h.processingNodup, ?_,
        fun r hr => (h.results r hr).later _, ?_, ?_, ?_⟩
      · intro place n hn
        cases place with
        | inbox => exact h.polled .inbox n (mem_dictKeys_without.mp hn).1
        | processing =>
            rw [files, hempty] at hn
            rw [List.mem_singleton.mp hn]
            exact h.polled .inbox name (dictGet_isSome.mp (by rw [files, hfile]; rfl))
      · refine ⟨?_, trivial, fun n hn => ?_⟩
        · show dictGet name (dictSet name request d.processing) = some request
          rw [dictGet_dictSet, if_pos rfl]
        · rw [hempty] at hn
          exact .inl (List.mem_singleton.mp hn)
      · intro n r hmem
        rcases h.kept n r (mem_snoc (by simp) hmem) with ⟨place, n', hfile'⟩ | hq | hserved
        · cases place with
          | inbox =>
              rcases mem_without_or h.inboxNodup hfile hfile' with hleft | rfl
              · exact .inl ⟨.inbox, n', hleft⟩
              · refine .inl ⟨.processing, name, ?_⟩
                show (name, r) ∈ dictSet name r d.processing
                rw [hempty]
                exact List.mem_singleton.mpr rfl
          | processing =>
              rw [files, hempty] at hfile'
              cases hfile'
        · exact .inr (.inl hq)
        · exact .inr (.inr (hserved.later _))
      · exact fun n r hmem =>
          List.mem_append_left _ (h.reconciled n r (mem_snoc (by simp) hmem))
  | write name request place names stamp hphase =>
      have hunderway := h.underway
      rw [hphase] at hunderway
      have hserved : Served (events ++ [.write request.requestId]) request.requestId :=
        ⟨List.mem_append_left _ hunderway.2.1,
          List.mem_append_right _ (List.mem_singleton.mpr rfl)⟩
      refine ⟨h.inboxNodup, h.processingNodup, h.polled, ?_,
        ⟨hunderway.1, hserved, hunderway.2.2⟩, ?_, ?_⟩
      · intro result hresult
        rcases mem_dictSet hresult with hresult | ⟨-, hid⟩
        · exact (h.results result hresult).later _
        · rw [hid]
          exact hserved
      · exact fun n r hmem => (h.kept n r (mem_snoc (by simp) hmem)).of_subset _
          (List.Subset.refl _) (List.Subset.refl _) (List.Subset.refl _)
      · exact fun n r hmem =>
          List.mem_append_left _ (h.reconciled n r (mem_snoc (by simp) hmem))
  | finish name request place names hphase =>
      have hunderway := h.underway
      rw [hphase] at hunderway
      obtain ⟨hfile, hserved, hnames⟩ := hunderway
      have hserved : Served events request.requestId := hserved
      refine @Orderly.removed _ _ _ _ h .processing _ _ hfile rfl rfl (List.Subset.refl _) rfl (by simp)
        (by simp) (.inr (.inr (hserved.later _))) ?_
      cases place with
      | processing =>
          intro n hn
          obtain ⟨hn, hne⟩ := mem_dictKeys_without.mp hn
          exact (hnames n hn).elim (fun h => absurd h hne) And.right
      | inbox =>
          show without name d.processing = []
          refine List.eq_nil_iff_forall_not_mem.mpr fun file hmem => ?_
          obtain ⟨hmem, hne⟩ := mem_without.mp hmem
          rcases hnames file.1 (List.mem_map.mpr ⟨file, hmem, rfl⟩) with hn | ⟨hn, -⟩
          · exact hne hn
          · cases hn

lemma Runs.orderly (h : Runs rt (fun d _ => d.Unmistaken) d events) : d.Orderly events := by
  refine @Trace.invariant _ _ _ _ Orderly ?_ (fun _ _ _ _ hinv hstep => hinv.step hstep.1 hstep.2) _ _ h
  intro s hs
  rw [Fresh] at hs
  subst hs
  exact ⟨List.nodup_nil, List.nodup_nil, fun place n hn => (by cases place <;> cases hn),
    fun _ hr => (nomatch hr), trivial, fun _ _ hmem => (nomatch hmem),
    fun _ _ hmem => (nomatch hmem)⟩

end Daemon

/-- **No request is lost**: in every execution in which a start never takes a file for finished
over another request's result alone, every request dropped waits, is in quarantine, or was carried
out and has had its result written; and a start sets aside only requests with a result. -/
theorem requests_kept (rt : Runtime) (d : Daemon) (events : List Event)
    (h : Daemon.Runs rt (fun d _ => d.Unmistaken) d events) :
    (∀ name request, .drop name request ∈ events → d.Keeps events request) ∧
      ∀ name request, .reconcile name request ∈ events → .write request.requestId ∈ events := by
  have horderly := h.orderly
  exact ⟨horderly.kept, horderly.reconciled⟩

/-! ## Names that keep apart -/

namespace Daemon

variable {rt : Runtime} {d d' : Daemon} {events : List Event} {event : Event}

/-- No pattern of one request's file matches a result of another request. -/
def Apart (events : List Event) : Prop :=
  ∀ n r n' r' stamp, .drop n r ∈ events → .drop n' r' ∈ events →
    fnmatch (resultName n' stamp) (resultPattern n) = true → r'.requestId = r.requestId

/-- Every file and every result goes back to a file that was dropped. -/
structure Dropped (d : Daemon) (events : List Event) : Prop where
  files : ∀ place n r, (n, r) ∈ d.files place → .drop n r ∈ events
  handled : ∀ n r activity place names, d.phase = .handling n r activity place names →
    .drop n r ∈ events
  results : ∀ result ∈ d.results, ∃ n r stamp, .drop n r ∈ events ∧ result.1 = resultName n stamp ∧
    result.2 = r.requestId

/-- A step that brings no file and no result. -/
lemma Dropped.of_subset (h : d.Dropped events) (hfiles : ∀ place n r, (n, r) ∈ d'.files place →
      .drop n r ∈ events) (hresults : d'.results = d.results)
    (hhandled : ∀ n r activity place names, d'.phase = .handling n r activity place names →
      .drop n r ∈ events) : d'.Dropped (events ++ [event]) := by
  refine ⟨fun place n r hmem => List.mem_append_left _ (hfiles place n r hmem),
    fun n r a p ns hphase => List.mem_append_left _ (hhandled n r a p ns hphase), ?_⟩
  intro result hresult
  rw [hresults] at hresult
  obtain ⟨n, r, stamp, hdrop, hresult⟩ := h.results result hresult
  exact ⟨n, r, stamp, List.mem_append_left _ hdrop, hresult⟩

lemma files_remove {place place' : Place} {name : Text} {file : Text × Request}
    (h : file ∈ (d.remove place name).files place') : file ∈ d.files place' := by
  cases place <;> cases place' <;> first
    | exact (mem_without.mp h).1
    | exact h

lemma Dropped.step (h : d.Dropped events) (hstep : Step rt d event d') :
    d'.Dropped (events ++ [event]) := by
  cases hstep with
  | drop name request hname hfile =>
      refine ⟨fun place n r hmem => ?_, fun n r a p ns hphase =>
        List.mem_append_left _ (h.handled n r a p ns hphase), fun result hresult => ?_⟩
      · cases place with
        | inbox =>
            rcases List.mem_append.mp hmem with hmem | hmem
            · exact List.mem_append_left _ (h.files .inbox n r hmem)
            · cases List.mem_singleton.mp hmem
              exact List.mem_append_right _ (List.mem_singleton.mpr rfl)
        | processing => exact List.mem_append_left _ (h.files .processing n r hmem)
      · obtain ⟨n, r, stamp, hdrop, hresult⟩ := h.results result hresult
        exact ⟨n, r, stamp, List.mem_append_left _ hdrop, hresult⟩
  | crash | start | block | started | keep | scanned | ready | poll | replayed | polled =>
      exact h.of_subset h.files rfl fun n r a p ns hphase => (nomatch hphase)
  | quarantine place | reconcile place =>
      refine h.of_subset (fun place' n r hmem => h.files place' n r (files_remove hmem)) ?_
        fun n r a p ns hphase => (nomatch hphase)
      cases place <;> rfl
  | replay name names request hphase hfile =>
      refine h.of_subset h.files rfl ?_
      rintro _ _ _ _ _ ⟨⟩
      exact h.files .processing _ _ (mem_of_dictGet hfile)
  | take name names request hphase hfile =>
      have hdrop := h.files .inbox name request (mem_of_dictGet hfile)
      refine h.of_subset (fun place n r hmem => ?_) rfl ?_
      · cases place with
        | inbox => exact h.files .inbox n r (mem_without.mp hmem).1
        | processing =>
            rcases mem_dictSet hmem with hmem | ⟨rfl, rfl⟩
            · exact h.files .processing n r hmem
            · exact hdrop
      · rintro _ _ _ _ _ ⟨⟩
        exact hdrop
  | handle name request activity activity' place names event db hphase hhandle =>
      refine h.of_subset h.files rfl ?_
      rintro _ _ _ _ _ ⟨⟩
      exact h.handled _ _ _ _ _ hphase
  | write name request place names stamp hphase =>
      have hdrop := h.handled _ _ _ _ _ hphase
      refine ⟨fun place n r hmem => List.mem_append_left _ (h.files place n r hmem), ?_, ?_⟩
      · rintro _ _ _ _ _ ⟨⟩
        exact List.mem_append_left _ hdrop
      · intro result hresult
        rcases mem_dictSet hresult with hresult | hresult
        · obtain ⟨n, r, stamp', hdrop', hresult⟩ := h.results result hresult
          exact ⟨n, r, stamp', List.mem_append_left _ hdrop', hresult⟩
        · exact ⟨name, request, stamp, List.mem_append_left _ hdrop, hresult⟩
  | finish name request place names hphase =>
      exact h.of_subset (fun place' n r hmem => h.files place' n r (files_remove hmem)) rfl
        fun n r a p ns hphase => (nomatch hphase)

/-- Where the names keep apart, a start mistakes no file. -/
lemma Dropped.unmistaken (h : d.Dropped events) (hapart : Apart events) : d.Unmistaken := by
  intro place name names request hphase hfile hfinished
  obtain ⟨result, hresult, hmatch⟩ := List.any_eq_true.mp hfinished
  obtain ⟨n, r, stamp, hdrop, hname, hid⟩ := h.results result hresult
  refine ⟨result, hresult, hmatch, ?_⟩
  rw [hname] at hmatch
  rw [hid]
  exact hapart name request n r stamp (h.files place name request (mem_of_dictGet hfile)) hdrop
    hmatch

lemma Runs.dropped (h : Runs rt (fun _ _ => True) d events) : d.Dropped events := by
  refine @Trace.invariant _ _ _ _ Dropped ?_ (fun _ _ _ _ hinv hstep => hinv.step hstep.2) _ _ h
  intro s hs
  rw [Fresh] at hs
  subst hs
  exact ⟨fun place n r hmem => (by cases place <;> cases hmem), fun _ _ _ _ _ h => (nomatch h),
    fun _ h => (nomatch h)⟩

lemma Runs.unmistaken (h : Runs rt (fun _ _ => True) d events) (hapart : Apart events) :
    Runs rt (fun d _ => d.Unmistaken) d events := by
  induction h with
  | init h => exact .init h
  | step htrace hstep ih =>
      have hapart' : Apart _ := fun n r n' r' stamp hmem hmem' =>
        hapart n r n' r' stamp (List.mem_append_left _ hmem) (List.mem_append_left _ hmem')
      exact .step (ih hapart') ⟨(Runs.dropped htrace).unmistaken hapart', hstep.2⟩

end Daemon

/-- Requests under names that keep apart are never lost. -/
theorem requests_kept_of_apart (rt : Runtime) (d : Daemon) (events : List Event)
    (h : Daemon.Runs rt (fun _ _ => True) d events) (hapart : Daemon.Apart events)
    (name : Text) (request : Request) (hdrop : .drop name request ∈ events) :
    d.Keeps events request := by
  have hinv := (h.unmistaken hapart).orderly
  exact hinv.kept name request hdrop

/-! ## A name used twice -/

namespace Daemon

/-- Two requests of one caller, dropped under one name. -/
def firstRequest : Request :=
  ⟨"11111111-1111-4111-8111-111111111111", .resume "missing" false⟩

def secondRequest : Request :=
  ⟨"22222222-2222-4222-8222-222222222222", .resume "missing" false⟩

def jobName : Text := "job.json"

def jobStamp : ResultStamp := ⟨"0a1b2c3d", by decide +kernel⟩

/-- The service that served the first request. -/
def servedFirst : Daemon :=
  ⟨[], [], [], [], [(resultName jobName jobStamp, firstRequest.requestId)], .polling .inbox []⟩

def firstEvents : List Event :=
  [.drop jobName firstRequest, .internal, .internal, .internal, .internal, .internal, .internal,
    .internal, .internal, .answer firstRequest.requestId, .write firstRequest.requestId, .internal]

/-- Serving the first request, under any condition that holds while nothing is scanned but it. -/
lemma runs_servedFirst {condition : Daemon → Event → Prop}
    (hcondition : ∀ d event, d.results = [] ∨ (∀ place names, d.phase ≠ .scanning place names) →
      condition d event) : Runs .standard condition servedFirst firstEvents := by
  have hstep : ∀ {d d' : Daemon} {event : Event} {events : List Event},
      Runs .standard condition d events →
      (d.results = [] ∨ ∀ place names, d.phase ≠ .scanning place names) →
      Step .standard d event d' → Runs .standard condition d' (events ++ [event]) :=
    fun h hd hstep => .step h ⟨hcondition _ _ hd, hstep⟩
  have h0 : Runs .standard condition ⟨[], [], [], [], [], .down⟩ [] := .init rfl
  have h1 := hstep h0 (.inl rfl) (.drop jobName firstRequest List.not_mem_nil (by decide))
  have h2 := hstep h1 (.inl rfl) (.start rfl)
  have h3 := hstep h2 (.inl rfl) (.started rfl)
  have h4 := hstep h3 (.inl rfl) (.keep .inbox jobName [] rfl (.inr ⟨by decide, rfl⟩))
  have h5 := hstep h4 (.inl rfl) (.scanned rfl)
  have h6 := hstep h5 (.inl rfl) (.ready rfl)
  have h7 := hstep h6 (.inl rfl) (.poll rfl)
  have h8 := hstep h7 (.inl rfl) (.replayed rfl)
  have h9 := hstep h8 (.inl rfl) (.take jobName [] firstRequest (by rfl) (by rfl))
  have h10 := hstep h9 (.inl rfl) (.handle jobName firstRequest .received .answered .inbox [] _ []
    rfl (.fail .received ⟨by simp, by simp⟩))
  have h11 := hstep h10 (.inl rfl) (.write jobName firstRequest .inbox [] jobStamp rfl)
  have h12 := hstep h11 (.inr fun _ _ => by simp) (.finish jobName firstRequest .inbox [] rfl)
  exact h12

theorem requests_kept_job :
    (∀ name request, .drop name request ∈ firstEvents →
      servedFirst.Keeps firstEvents request) ∧
      ∀ name request, .reconcile name request ∈ firstEvents →
        .write request.requestId ∈ firstEvents :=
  requests_kept .standard servedFirst firstEvents (runs_servedFirst fun d _ hd => by
    rintro place name names request hphase - hfinished
    rcases hd with hnone | hquiet
    · rw [finished, hnone] at hfinished
      cases hfinished
    · exact absurd hphase (hquiet _ _))

/-- The service is stopped, the second request comes under the same name, and the next start sets
it aside: nothing is left of it. -/
theorem not_requests_kept_job :
    ¬ ∀ d events, Runs .standard (fun _ _ => True) d events →
      ∀ name request, .drop name request ∈ events → d.Keeps events request := by
  intro hall
  have h0 := @runs_servedFirst (fun _ _ => True) fun _ _ _ => trivial
  have h1 := h0.step ⟨trivial, .crash⟩
  have h2 := h1.step ⟨trivial, .drop jobName secondRequest List.not_mem_nil (by decide)⟩
  have h3 := h2.step ⟨trivial, .start rfl⟩
  have h4 := h3.step ⟨trivial, .started rfl⟩
  have h5 := h4.step ⟨trivial, .reconcile .inbox jobName [] secondRequest rfl rfl
    ⟨by decide, by decide⟩ (by decide)⟩
  rcases hall _ _ h5 jobName secondRequest (by simp) with ⟨place, name, hfile⟩ | hq | hserved
  · cases place <;> cases hfile
  · cases hq
  · have hne : firstRequest.requestId ≠ secondRequest.requestId := by decide
    have hanswer := hserved.1
    simp [firstEvents, hne.symm] at hanswer

end Daemon

end AgentOrch
