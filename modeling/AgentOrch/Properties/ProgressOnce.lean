import AgentOrch.Construction.ProgressDaemon
import AgentOrch.Properties.CardJournal

/-!
# Progress requests are applied once

The four steps of a request meet only in the stem of its file.  A stem names one `.json` file, a
file is claimed only under a free name, and a request is archived only where nothing else was; so a
result that is found belongs to the file at hand, and a crash between two steps makes the next scan
pick up that very file.  A request that is executed again is answered from the journal.
-/

namespace AgentOrch

open Py Json

/-- The stem and the suffix of a name make it up. -/
lemma stem_append_suffix (name : Text) : stem name ++ suffix name = name := by
  unfold stem suffix
  split
  · exact List.take_append_drop _ name
  · exact List.append_nil name

namespace ProgressDaemon

variable {pf : Platform} {rt : Runtime} {tasks : List Kanban.TaskRow} {d d' : State}
  {events : List Event} {event : Event} {name : Text} {content : Bytes} {request : Kanban.Request}

/-! ## Directories -/

lemma mem_without {files : List (Text × Bytes)} {file : Text × Bytes} :
    file ∈ without name files ↔ file ∈ files ∧ file.1 ≠ name := by
  simp [without]

lemma nodup_without {files : List (Text × Bytes)} (h : (dictKeys files).Nodup) :
    (dictKeys (without name files)).Nodup :=
  h.sublist (List.filter_sublist.map _)

lemma nodup_concat {files : List (Text × Bytes)} (h : (dictKeys files).Nodup)
    (hname : name ∉ dictKeys files) : (dictKeys (files ++ [(name, content)])).Nodup := by
  have hkeys : dictKeys (files ++ [(name, content)]) = dictKeys files ++ [name] := by
    simp [dictKeys]
  rw [hkeys]
  refine List.nodup_append.mpr ⟨h, List.nodup_singleton name, ?_⟩
  rintro n hn m hm rfl
  exact hname (List.mem_singleton.mp hm ▸ hn)

lemma allowed_suffix (h : progressRequest rt name content = .allowed request) :
    suffix name = ".json" := by
  by_contra hne
  unfold progressRequest at h
  rw [if_pos (by simp [hne])] at h
  cases h

lemma isAllowed_of_allowed (h : progressRequest rt name content = .allowed request) :
    isAllowed request.items = true := by
  unfold progressRequest at h
  split at h
  · cases h
  · split at h
    · cases h
    · cases h
    · split at h
      next hallowed =>
        cases h
        exact hallowed
      · cases h
    · cases h

/-- A stem names one request file. -/
lemma name_eq_of_stem {name' : Text} {content' : Bytes} {request' : Kanban.Request}
    (h : progressRequest rt name content = .allowed request)
    (h' : progressRequest rt name' content' = .allowed request') (hstem : stem name = stem name') :
    name = name' := by
  rw [← stem_append_suffix name, ← stem_append_suffix name', hstem, allowed_suffix h,
    allowed_suffix h']

/-! ## The invariant -/

/-- The result records the request of this file. -/
def Records (rt : Runtime) (name : Text) (content : Bytes) (result : ResultFile) : Prop :=
  ∃ request, progressRequest rt name content = .allowed request ∧
    result.request = some (.obj request.items)

/-- How far a request is that stands in `processing/`. -/
def Underway (rt : Runtime) (d : State) : Phase → Prop
  | .handling name request activity _ _ =>
    (∃ content, (name, content) ∈ d.processing ∧
      progressRequest rt name content = .allowed request) ∧
    match activity with
    | .received => True
    | .executed result => dictGet (stem name) d.results = none ∧
        result.request = some (.obj request.items)
    | .answered => (dictGet (stem name) d.results).isSome = true
  | _ => True

/-- A result belongs to the archived request of its stem, or to the file that is to be archived. -/
structure Orderly (rt : Runtime) (d : State) : Prop where
  inboxNodup : (dictKeys d.inbox).Nodup
  processingNodup : (dictKeys d.processing).Nodup
  answered : ∀ s, (dictGet s d.requests).isSome = true → (dictGet s d.results).isSome = true
  recorded : ∀ s result, dictGet s d.results = some result → ∃ name content, stem name = s ∧
    Records rt name content result ∧ (dictGet s d.requests = some content ∨
      dictGet s d.requests = none ∧ (name, content) ∈ d.processing)
  underway : Underway rt d d.phase

lemma Orderly.of_phase {phase : Phase} (h : Orderly rt d) (hphase : Underway rt d phase) :
    Orderly rt { d with phase := phase } := by
  refine ⟨h.inboxNodup, h.processingNodup, h.answered, h.recorded, ?_⟩
  cases phase with
  | handling => exact hphase
  | _ => trivial

/-- Another file in `processing/` changes nothing. -/
lemma Orderly.of_arrival {inbox : List (Text × Bytes)} {phase : Phase} (h : Orderly rt d)
    (hinbox : (dictKeys inbox).Nodup) (hname : name ∉ dictKeys d.processing)
    (hphase : Underway rt { d with processing := d.processing ++ [(name, content)] } phase) :
    Orderly rt { d with
      inbox := inbox, processing := d.processing ++ [(name, content)], phase := phase } := by
  refine ⟨hinbox, nodup_concat h.processingNodup hname, h.answered, ?_, ?_⟩
  · intro s result hresult
    obtain ⟨n, c, hstem, hrecords, hplace⟩ := h.recorded s result hresult
    refine ⟨n, c, hstem, hrecords, hplace.imp_right fun hleft => ?_⟩
    exact ⟨hleft.1, List.mem_append_left _ hleft.2⟩
  · cases phase with
    | handling => exact hphase
    | _ => trivial

/-- The result of a request that was just executed. -/
lemma Orderly.of_write {place : Place} {names : List Text} {result : ResultFile}
    (h : Orderly rt d) (hphase : d.phase = .handling name request (.executed result) place names) :
    Orderly rt { d with
      results := dictSet (stem name) result d.results
      phase := .handling name request .answered place names } := by
  have hunderway := h.underway
  rw [hphase] at hunderway
  obtain ⟨⟨content, hfile, hallowed⟩, hnone, hrequest⟩ := hunderway
  -- nothing is archived under a stem without a result
  have hfree : dictGet (stem name) d.requests = none := by
    by_contra hsome
    have := h.answered _ (Option.isSome_iff_ne_none.mpr hsome)
    rw [hnone] at this
    cases this
  refine ⟨h.inboxNodup, h.processingNodup, ?_, ?_, ⟨content, hfile, hallowed⟩, ?_⟩
  · intro s hs
    show (dictGet s (dictSet (stem name) result d.results)).isSome = true
    rw [dictGet_dictSet]
    split_ifs
    · rfl
    · exact h.answered s hs
  · intro s found hfound
    have hfound : dictGet s (dictSet (stem name) result d.results) = some found := hfound
    rw [dictGet_dictSet] at hfound
    split_ifs at hfound with hs
    · obtain rfl := Option.some.inj hfound
      subst hs
      exact ⟨name, content, rfl, ⟨request, hallowed, hrequest⟩, .inr ⟨hfree, hfile⟩⟩
    · exact h.recorded s found hfound
  · show (dictGet (stem name) (dictSet (stem name) result d.results)).isSome = true
    rw [dictGet_dictSet, if_pos rfl]
    rfl

/-- The file goes where its own result already stands. -/
lemma Orderly.of_archive {place : Place} {names : List Text} (h : Orderly rt d)
    (hphase : d.phase = .handling name request .answered place names)
    (hfile : dictGet name d.processing = some content)
    (harchived : ∀ archived, dictGet (stem name) d.requests = some archived → archived = content) :
    Orderly rt { d with
      processing := without name d.processing
      requests := dictSet (stem name) content d.requests
      phase := .scanning place names } := by
  have hunderway := h.underway
  rw [hphase] at hunderway
  obtain ⟨⟨content', hfile', hallowed⟩, hanswered⟩ := hunderway
  obtain rfl : content' = content :=
    Option.some.inj ((dictGet_of_mem h.processingNodup hfile').symm.trans hfile)
  refine ⟨h.inboxNodup, nodup_without h.processingNodup, ?_, ?_, trivial⟩
  · intro s hs
    have hs : (dictGet s (dictSet (stem name) content' d.requests)).isSome = true := hs
    rw [dictGet_dictSet] at hs
    split_ifs at hs with hstem
    · exact hstem ▸ hanswered
    · exact h.answered s hs
  · intro s result hresult
    obtain ⟨n, c, hstem, hrecords, hplace⟩ := h.recorded s result hresult
    refine ⟨n, c, hstem, hrecords, ?_⟩
    show dictGet s (dictSet (stem name) content' d.requests) = some c ∨
      dictGet s (dictSet (stem name) content' d.requests) = none ∧
        (n, c) ∈ without name d.processing
    rw [dictGet_dictSet]
    by_cases hs : stem name = s
    · left
      rw [if_pos hs]
      rcases hplace with harch | ⟨-, hleft⟩
      · rw [← harchived c (hs ▸ harch)]
      · -- the file of this stem is the one at hand
        obtain ⟨request', hallowed', -⟩ := hrecords
        obtain rfl := name_eq_of_stem hallowed hallowed' (hs.trans hstem.symm)
        exact (dictGet_of_mem h.processingNodup hleft) ▸ hfile.symm
    · rw [if_neg hs]
      refine hplace.imp_right fun hleft => ⟨hleft.1, mem_without.mpr ⟨hleft.2, ?_⟩⟩
      rintro rfl
      exact hs hstem

lemma Step.orderly (hs : Step pf d event d') (h : Orderly pf.toRuntime d) :
    Orderly pf.toRuntime d' := by
  have hunderway := h.underway
  cases hs with
  | deliver n c hname =>
      refine ⟨nodup_concat h.inboxNodup hname, h.processingNodup, h.answered, h.recorded, ?_⟩
      generalize d.phase = phase at hunderway
      cases phase with
      | handling => exact hunderway
      | _ => trivial
  | left n c hname hdown =>
      refine h.of_arrival h.inboxNodup hname ?_
      rw [hdown]
      trivial
  | crash => exact h.of_phase trivial
  | start => exact h.of_phase trivial
  | scan => exact h.of_phase trivial
  | scanned => exact h.of_phase trivial
  | rest => exact h.of_phase trivial
  | skip => exact h.of_phase trivial
  | collide => exact h.of_phase trivial
  | claim n names c request hphase hfile hallowed hfree =>
      refine h.of_arrival (nodup_without h.inboxNodup) hfree ⟨⟨c, ?_, hallowed⟩, trivial⟩
      exact List.mem_append_right _ (List.mem_singleton.mpr rfl)
  | resume n names c request hphase hfile hallowed =>
      exact h.of_phase ⟨⟨c, mem_of_dictGet hfile, hallowed⟩, trivial⟩
  | changed => exact h.of_phase trivial
  | found n request place names result recorded hphase _ hresult _ _ =>
      rw [hphase] at hunderway
      exact h.of_phase ⟨hunderway.1, by rw [hresult]; rfl⟩
  | differs => exact h.of_phase trivial
  | execute n request place names env out db hphase _ hresult _ =>
      rw [hphase] at hunderway
      exact ⟨h.inboxNodup, h.processingNodup, h.answered, h.recorded, hunderway.1, hresult, rfl⟩
  | refuse n request place names env exc hphase _ hresult _ _ =>
      rw [hphase] at hunderway
      exact h.of_phase ⟨hunderway.1, hresult, rfl⟩
  | write n request place names result hphase => exact h.of_write hphase
  | kept => exact h.of_phase trivial
  | archive n request place names c hphase hfile harchived =>
      exact h.of_archive hphase hfile harchived

/-! ## Where a file goes -/

/-- The file stands in a directory, or it is archived under its stem. -/
def Kept (d : State) (name : Text) (content : Bytes) : Prop :=
  (name, content) ∈ d.inbox ∨ (name, content) ∈ d.processing ∨
    dictGet (stem name) d.requests = some content

/-- Every file that came is kept as it was, and stays in its place unless its command is allowed. -/
structure Unharmed (rt : Runtime) (d : State) (events : List Event) : Prop where
  kept : ∀ place name content, .deliver place name content ∈ events → Kept d name content
  unmoved : ∀ place name content, .deliver place name content ∈ events →
    (∀ request, progressRequest rt name content ≠ .allowed request) →
    (name, content) ∈ d.files place

/-- A step that takes no file away. -/
lemma Unharmed.of_subset (h : Unharmed rt d events) (hinbox : d.inbox ⊆ d'.inbox)
    (hprocessing : d.processing ⊆ d'.processing) (hrequests : d'.requests = d.requests)
    (hevent : ∀ place name content, event = .deliver place name content →
      (name, content) ∈ d'.files place) :
    Unharmed rt d' (events ++ [event]) := by
  constructor
  · intro place n c hmem
    rcases List.mem_append.mp hmem with hold | hnew
    · rcases h.kept place n c hold with hin | hleft | harch
      · exact .inl (hinbox hin)
      · exact .inr (.inl (hprocessing hleft))
      · exact .inr (.inr (hrequests ▸ harch))
    · have hplace := hevent place n c (List.mem_singleton.mp hnew).symm
      cases place with
      | inbox => exact .inl hplace
      | processing => exact .inr (.inl hplace)
  · intro place n c hmem hother
    rcases List.mem_append.mp hmem with hold | hnew
    · have hplace := h.unmoved place n c hold hother
      cases place with
      | inbox => exact hinbox hplace
      | processing => exact hprocessing hplace
    · exact hevent place n c (List.mem_singleton.mp hnew).symm

/-- A step that touches no directory. -/
lemma Unharmed.of_internal (h : Unharmed rt d events) (hinbox : d'.inbox = d.inbox)
    (hprocessing : d'.processing = d.processing) (hrequests : d'.requests = d.requests)
    (hevent : ∀ place name content, event ≠ .deliver place name content) :
    Unharmed rt d' (events ++ [event]) := by
  refine h.of_subset ?_ ?_ hrequests fun place n c heq => absurd heq (hevent place n c)
  · rw [hinbox]
    exact List.Subset.refl _
  · rw [hprocessing]
    exact List.Subset.refl _

lemma mem_of_append_internal {e : Event} (h : e ∈ events ++ [event]) (hne : e ≠ event) :
    e ∈ events := by
  rcases List.mem_append.mp h with hold | hnew
  · exact hold
  · exact absurd (List.mem_singleton.mp hnew) hne

/-- An allowed request moves on to `processing/`. -/
lemma Unharmed.of_claim {phase : Phase} (h : Unharmed rt d events) (horderly : Orderly rt d)
    (hfile : dictGet name d.inbox = some content)
    (hallowed : progressRequest rt name content = .allowed request) :
    Unharmed rt { d with
      inbox := without name d.inbox
      processing := d.processing ++ [(name, content)]
      phase := phase } (events ++ [.internal]) := by
  constructor
  · intro place n c hmem
    rcases h.kept place n c (mem_of_append_internal hmem (by simp)) with hin | hleft | harch
    · by_cases hn : n = name
      · subst hn
        obtain rfl : c = content :=
          Option.some.inj ((dictGet_of_mem horderly.inboxNodup hin).symm.trans hfile)
        exact .inr (.inl (List.mem_append_right _ (List.mem_singleton.mpr rfl)))
      · exact .inl (mem_without.mpr ⟨hin, hn⟩)
    · exact .inr (.inl (List.mem_append_left _ hleft))
    · exact .inr (.inr harch)
  · intro place n c hmem hother
    have hplace := h.unmoved place n c (mem_of_append_internal hmem (by simp)) hother
    cases place with
    | inbox =>
        refine mem_without.mpr ⟨hplace, ?_⟩
        rintro rfl
        obtain rfl : c = content :=
          Option.some.inj ((dictGet_of_mem horderly.inboxNodup hplace).symm.trans hfile)
        exact hother request hallowed
    | processing => exact List.mem_append_left _ hplace

/-- An answered request moves on to the archive, where its stem is free or has the same bytes. -/
lemma Unharmed.of_archive {phase : Phase} (h : Unharmed rt d events) (horderly : Orderly rt d)
    (hfile : dictGet name d.processing = some content)
    (hallowed : progressRequest rt name content = .allowed request)
    (harchived : ∀ archived, dictGet (stem name) d.requests = some archived → archived = content) :
    Unharmed rt { d with
      processing := without name d.processing
      requests := dictSet (stem name) content d.requests
      phase := phase } (events ++ [.archive name content]) := by
  constructor
  · intro place n c hmem
    rcases h.kept place n c (mem_of_append_internal hmem (by simp)) with hin | hleft | harch
    · exact .inl hin
    · by_cases hn : n = name
      · subst hn
        obtain rfl : c = content :=
          Option.some.inj ((dictGet_of_mem horderly.processingNodup hleft).symm.trans hfile)
        refine .inr (.inr ?_)
        show dictGet (stem n) (dictSet (stem n) c d.requests) = some c
        rw [dictGet_dictSet, if_pos rfl]
      · exact .inr (.inl (mem_without.mpr ⟨hleft, hn⟩))
    · refine .inr (.inr ?_)
      show dictGet (stem n) (dictSet (stem name) content d.requests) = some c
      rw [dictGet_dictSet]
      split_ifs with hstem
      · rw [harchived c (hstem ▸ harch)]
      · exact harch
  · intro place n c hmem hother
    have hplace := h.unmoved place n c (mem_of_append_internal hmem (by simp)) hother
    cases place with
    | inbox => exact hplace
    | processing =>
        refine mem_without.mpr ⟨hplace, ?_⟩
        rintro rfl
        obtain rfl : c = content :=
          Option.some.inj ((dictGet_of_mem horderly.processingNodup hplace).symm.trans hfile)
        exact hother request hallowed

lemma Step.unharmed (hs : Step pf d event d') (horderly : Orderly pf.toRuntime d)
    (h : Unharmed pf.toRuntime d events) : Unharmed pf.toRuntime d' (events ++ [event]) := by
  have hunderway := horderly.underway
  cases hs with
  | deliver n c hname =>
      refine h.of_subset (List.subset_append_left _ _) (List.Subset.refl _) rfl ?_
      intro place n' c' heq
      cases heq
      exact List.mem_append_right _ (List.mem_singleton.mpr rfl)
  | left n c hname hdown =>
      refine h.of_subset (List.Subset.refl _) (List.subset_append_left _ _) rfl ?_
      intro place n' c' heq
      cases heq
      exact List.mem_append_right _ (List.mem_singleton.mpr rfl)
  | claim n names c request hphase hfile hallowed => exact h.of_claim horderly hfile hallowed
  | archive n request place names c hphase hfile harchived =>
      rw [hphase] at hunderway
      obtain ⟨⟨c', hmem, hallowed⟩, -⟩ := hunderway
      obtain rfl : c' = c :=
        Option.some.inj ((dictGet_of_mem horderly.processingNodup hmem).symm.trans hfile)
      exact h.of_archive horderly hfile hallowed harchived
  | _ => exact h.of_internal rfl rfl rfl (by simp)

/-! ## What is executed -/

/-- The calls of the board, in order. -/
def executions (events : List Event) : List Kanban.Call :=
  events.filterMap fun event => match event with
    | .execute call => some call
    | _ => none

/-- Both calls name the same operation. -/
def SameOperation (call again : Kanban.Call) : Prop :=
  getValue "operation_id" again.request.items = getValue "operation_id" call.request.items

/-- The tables change under the call. -/
def TakesEffect (pf : Platform) (db : Kanban.Db) (call : Kanban.Call) : Prop :=
  Kanban.serve pf db call ≠ db

/-- The tables are those that the executed calls leave; each call was of an allowed command, and of
the calls of one operation at most one took effect. -/
structure AppliedOnce (pf : Platform) (tasks : List Kanban.TaskRow) (d : State)
    (events : List Event) : Prop where
  allowed : ∀ call ∈ executions events, isAllowed call.request.items = true
  journal : (d.db.events.map Kanban.Event.operationId).Nodup
  once : ∃ earlier, d.db = Kanban.run pf (.fresh tasks) (earlier ++ executions events) ∧
    ∀ first call between again last,
      earlier ++ executions events = first ++ call :: between ++ again :: last →
      SameOperation call again → TakesEffect pf (Kanban.run pf (.fresh tasks) first) call →
      ¬TakesEffect pf (Kanban.run pf (.fresh tasks) (first ++ call :: between)) again

/-- A call takes effect by one more event, of an operation that is not on record. -/
lemma TakesEffect.recorded {db : Kanban.Db} {call : Kanban.Call} (h : TakesEffect pf db call) :
    ∃ event : Kanban.Event,
      getValue "operation_id" call.request.items = .str event.operationId ∧
      event.operationId ∉ db.events.map Kanban.Event.operationId ∧
      (Kanban.serve pf db call).events = db.events ++ [event] := by
  unfold TakesEffect Kanban.serve at h
  unfold Kanban.serve
  split at h
  next out after hhandle =>
    obtain ⟨cmd, hcmd, hexecute⟩ := bind_eq_ok.mp hhandle
    rcases Kanban.execute_cases hexecute with ⟨event, -, -, -, rfl⟩ | ⟨hnew, event, heffect, -⟩
    · exact absurd rfl h
    · refine ⟨event, ?_, ?_, heffect.events_eq⟩
      · rw [(Kanban.readFrom_of_readRequest hcmd).operationId, heffect.operationId_eq]
      · rw [heffect.operationId_eq]
        exact hnew
  · exact absurd rfl h

/-- An operation that took effect is on record from then on, so it takes effect no more. -/
lemma not_takesEffect_again (calls between : List Kanban.Call) {call again : Kanban.Call}
    (hsame : SameOperation call again)
    (h : TakesEffect pf (Kanban.run pf (.fresh tasks) calls) call) :
    ¬TakesEffect pf (Kanban.run pf (.fresh tasks) (calls ++ call :: between)) again := by
  intro hagain
  obtain ⟨event, hid, -, hevents⟩ := h.recorded
  obtain ⟨event', hid', hnew, -⟩ := hagain.recorded
  have hsplit : calls ++ call :: between = (calls ++ [call]) ++ between := by simp
  apply hnew
  have heq : event'.operationId = event.operationId := by
    rw [hsame, hid] at hid'
    exact (Value.str.inj hid').symm
  rw [heq, hsplit, Kanban.run_append]
  refine List.mem_map_of_mem ((Kanban.run_events_extend pf _ between).subset ?_)
  rw [Kanban.run_concat, hevents]
  exact List.mem_append_right _ (List.mem_singleton.mpr rfl)

/-- The tables are those of the calls so far, and each call was of an allowed command. -/
def Tracked (pf : Platform) (tasks : List Kanban.TaskRow) (d : State) (events : List Event) : Prop :=
  (∀ call ∈ executions events, isAllowed call.request.items = true) ∧
    ∃ earlier, d.db = Kanban.run pf (.fresh tasks) (earlier ++ executions events)

lemma executions_concat (events : List Event) (event : Event) :
    executions (events ++ [event]) = executions events ++ executions [event] :=
  List.filterMap_append

lemma Tracked.of_internal (h : Tracked pf tasks d events) (hdb : d'.db = d.db)
    (hevent : ∀ call, event ≠ .execute call) : Tracked pf tasks d' (events ++ [event]) := by
  have hnone : executions (events ++ [event]) = executions events := by
    rw [executions_concat]
    cases event with
    | execute call => exact absurd rfl (hevent call)
    | _ => exact List.append_nil _
  unfold Tracked
  rw [hnone, hdb]
  exact h

lemma handleRequest_of_execute {env : Kanban.Environment} {db after : Kanban.Db}
    {out : Kanban.Outcome} (h : execute pf env db request = .ok (out, after)) :
    Kanban.handleRequest pf env db request = .ok (out, after) := by
  unfold execute at h
  split_ifs at h
  exact h

lemma Tracked.of_execute {env : Kanban.Environment} {out : Kanban.Outcome} {db : Kanban.Db}
    (h : Tracked pf tasks d events) (hdb : d'.db = db)
    (hexecute : execute pf env d.db request = .ok (out, db))
    (hallowed : isAllowed request.items = true) :
    Tracked pf tasks d' (events ++ [.execute ⟨env, request⟩]) := by
  obtain ⟨hcalls, earlier, hrun⟩ := h
  have hone : executions [.execute ⟨env, request⟩] = [⟨env, request⟩] := rfl
  have hserve : Kanban.serve pf d.db ⟨env, request⟩ = db := by
    unfold Kanban.serve
    rw [handleRequest_of_execute hexecute]
  unfold Tracked
  rw [executions_concat, hone]
  refine ⟨?_, earlier, ?_⟩
  · intro call hcall
    rcases List.mem_append.mp hcall with hold | hnew
    · exact hcalls call hold
    · rw [List.mem_singleton.mp hnew]
      exact hallowed
  · rw [hdb, ← List.append_assoc, Kanban.run_concat, ← hrun, hserve]

lemma Step.tracked (hs : Step pf d event d') (horderly : Orderly pf.toRuntime d)
    (h : Tracked pf tasks d events) : Tracked pf tasks d' (events ++ [event]) := by
  have hunderway := horderly.underway
  cases hs with
  | execute n request place names env out db hphase _ _ hexecute =>
      rw [hphase] at hunderway
      obtain ⟨⟨c, -, hallowed⟩, -⟩ := hunderway
      exact h.of_execute rfl hexecute (isAllowed_of_allowed hallowed)
  | _ => exact h.of_internal rfl (by simp)

lemma Tracked.appliedOnce (h : Tracked pf tasks d events) : AppliedOnce pf tasks d events := by
  obtain ⟨hallowed, earlier, hrun⟩ := h
  refine ⟨hallowed, ?_, earlier, hrun, ?_⟩
  · rw [hrun]
    exact (Kanban.agrees_run pf tasks _).operations
  · intro first call between again last _ hsame heffect
    exact not_takesEffect_again first between hsame heffect

/-! ## Runs -/

lemma orderly_fresh (h : Fresh pf tasks d) : Orderly rt d := by
  obtain ⟨earlier, rfl⟩ := h
  refine ⟨List.nodup_nil, List.nodup_nil, ?_, ?_, trivial⟩
  · intro s hs
    cases hs
  · intro s result hresult
    cases hresult

/-- What holds in every state that the service reaches. -/
lemma runs_invariant (h : Runs pf tasks d events) :
    Orderly pf.toRuntime d ∧ Unharmed pf.toRuntime d events ∧ Tracked pf tasks d events := by
  induction h with
  | init hfresh =>
      refine ⟨orderly_fresh hfresh, ⟨?_, ?_⟩, ?_, ?_⟩
      · intro place n c hmem
        cases hmem
      · intro place n c hmem
        cases hmem
      · intro call hcall
        cases hcall
      · obtain ⟨earlier, rfl⟩ := hfresh
        exact ⟨earlier, by simp [executions]⟩
  | step _ hs ih =>
      obtain ⟨horderly, hunharmed, htracked⟩ := ih
      exact ⟨hs.orderly horderly, hs.unharmed horderly hunharmed, hs.tracked horderly htracked⟩

/-- Every archived request has a result, and the result records the request of that very file. -/
def ResultsRecord (rt : Runtime) (d : State) : Prop :=
  ∀ s content, dictGet s d.requests = some content → ∃ name result, stem name = s ∧
    dictGet s d.results = some result ∧ Records rt name content result

lemma Orderly.resultsRecord (h : Orderly rt d) : ResultsRecord rt d := by
  intro s content harchived
  obtain ⟨result, hresult⟩ := Option.isSome_iff_exists.mp (h.answered s (by rw [harchived]; rfl))
  obtain ⟨n, c, hstem, hrecords, hplace⟩ := h.recorded s result hresult
  rcases hplace with harch | ⟨hnone, -⟩
  · rw [harchived] at harch
    obtain rfl := Option.some.inj harch
    exact ⟨n, result, hstem, hresult, hrecords⟩
  · rw [harchived] at hnone
    cases hnone

/-- Whatever files come under whatever names, and wherever the service dies: of the executions of one
operation at most one takes effect, every archived request has the result of its own, no file is
overwritten or lost, and what is not allowed is neither executed nor moved. -/
theorem progress_once (pf : Platform) (tasks : List Kanban.TaskRow) (d : State)
    (events : List Event) (h : Runs pf tasks d events) :
    AppliedOnce pf tasks d events ∧ ResultsRecord pf.toRuntime d ∧
      Unharmed pf.toRuntime d events := by
  obtain ⟨horderly, hunharmed, htracked⟩ := runs_invariant h
  exact ⟨htracked.appliedOnce, horderly.resultsRecord, hunharmed⟩

/-! ### A request to create a card -/

def cardName : Text := "card.json"

/-- The request as its file holds it. -/
def cardBytes : Bytes := encodeReplace <|
  ("\x7b\"request_id\":\"" : Text) ++ Kanban.firstOperation ++
    ("\",\"action\":\"kanban\",\"command\":\"create\",\"operation_id\":\"" : Text) ++
    Kanban.firstOperation ++
    ("\",\"payload\":\x7b\"actor\":\"u\",\"card_id\":\"c\"," : Text) ++
    ("\"fields\":\x7b\"title\":\"t\"\x7d\x7d\x7d" : Text)

/-- A machine that writes every hash the same way. -/
def cardPlatform : Platform :=
  Kanban.hashingPlatform Kanban.placeDigest Kanban.isHexDigest_placeDigest

/-- The board serves what the file asks for. -/
def isServed : Classified → Bool
  | .allowed request =>
    !(getValue "command" request.items).eqv (.str "quota-cli-attempt") &&
      (execute cardPlatform Kanban.bareEnvironment (.fresh []) request).isOk
  | _ => false

/-- The file is a request that the board serves. -/
lemma cardBytes_served : ∃ request out db,
    progressRequest cardPlatform.toRuntime cardName cardBytes = .allowed request ∧
      (getValue "command" request.items).eqv (.str "quota-cli-attempt") = false ∧
      execute cardPlatform Kanban.bareEnvironment (.fresh []) request = .ok (out, db) := by
  have h : isServed (progressRequest cardPlatform.toRuntime cardName cardBytes) = true := by
    decide +kernel
  cases hallowed : progressRequest cardPlatform.toRuntime cardName cardBytes with
  | allowed request =>
      rw [hallowed] at h
      obtain ⟨hcommand, hok⟩ := Bool.and_eq_true_iff.mp h
      cases hexecute : execute cardPlatform Kanban.bareEnvironment (.fresh []) request with
      | error e =>
          rw [hexecute] at hok
          cases hok
      | ok answer => exact ⟨request, answer.1, answer.2, rfl, by simpa using hcommand, hexecute⟩
  | _ =>
      rw [hallowed] at h
      cases h

/-- The request is claimed, executed, answered and archived. -/
theorem progress_once_card :
    ∃ d events request, Runs cardPlatform [] d events ∧ .archive cardName cardBytes ∈ events ∧
      executions events = [⟨Kanban.bareEnvironment, request⟩] ∧
      AppliedOnce cardPlatform [] d events ∧ ResultsRecord cardPlatform.toRuntime d ∧
      Unharmed cardPlatform.toRuntime d events := by
  obtain ⟨request, out, db, hallowed, hcommand, hexecute⟩ := cardBytes_served
  have h0 : Runs cardPlatform [] ⟨.fresh [], [], [], [], [], .down⟩ [] := .init ⟨[], rfl⟩
  have h1 := h0.step (.deliver cardName cardBytes List.not_mem_nil)
  have h2 := h1.step (.start rfl)
  have h3 := h2.step (.scan rfl)
  have h4 := h3.step (.scanned rfl)
  have h5 := h4.step (.claim cardName [] cardBytes request rfl rfl hallowed List.not_mem_nil)
  have h6 := h5.step
    (.execute cardName request .inbox [] Kanban.bareEnvironment out db rfl
      (by simp [isUnchanged, hcommand]) rfl hexecute)
  have h7 := h6.step (.write cardName request .inbox [] _ rfl)
  have h8 := h7.step (.archive cardName request .inbox [] cardBytes rfl rfl (by
    intro archived harchived
    cases harchived))
  exact ⟨_, _, request, h8, by simp, rfl, progress_once _ _ _ _ h8⟩

end ProgressDaemon

end AgentOrch
