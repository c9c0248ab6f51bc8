import AgentOrch.Construction.ReviewSession

/-!
# One owner for each session

What a process has read of a record under its lock is still there when it writes, whatever the
others do: only the holder of a series' lock replaces its record, and a registration only adds one,
under the lock of the registry.  So a call starts on a record without a pending call, the pending call is the
one that was started last, and the sessions of two series differ.
-/

namespace AgentOrch

open Py

namespace ReviewSession

variable {d d' : State} {events : List Event} {event : Event} {p q : ℕ} {series : Text}
  {record : Record} {phase : Phase}

/-! ## Steps of a process -/

lemma phases_goTo_self : (d.goTo p phase).phases p = phase := by
  unfold State.goTo
  exact Function.update_self p phase d.phases

lemma phases_goTo_of_ne (h : q ≠ p) : (d.goTo p phase).phases q = d.phases q := by
  unfold State.goTo
  exact Function.update_of_ne h phase d.phases

/-- Who holds the registry after a process moved on held it before, unless the process took it. -/
lemma locksRegistry_of_goTo (h : phase.locksRegistry = true → (d.phases p).locksRegistry = true)
    (hq : ((d.goTo p phase).phases q).locksRegistry = true) :
    (d.phases q).locksRegistry = true := by
  by_cases hqp : q = p
  · subst hqp
    rw [phases_goTo_self] at hq
    exact h hq
  · rwa [phases_goTo_of_ne hqp] at hq

/-- Who holds a series after a process moved on held it before, unless the process took it. -/
lemma lockedSeries_of_goTo
    (h : phase.lockedSeries = some series → (d.phases p).lockedSeries = some series)
    (hq : ((d.goTo p phase).phases q).lockedSeries = some series) :
    (d.phases q).lockedSeries = some series := by
  by_cases hqp : q = p
  · subst hqp
    rw [phases_goTo_self] at hq
    exact h hq
  · rwa [phases_goTo_of_ne hqp] at hq

@[simp] lemma record_goTo : (d.goTo p phase).record series = d.record series := rfl

lemma record_write {s : Text} :
    (d.write series record).record s = if series = s then some record else d.record s :=
  dictGet_dictSet series s record d.records

/-! ## The checks -/

lemma inspect_strictly {expected : Binding} {owner : RuntimeOwner} {cwdAvailable : Bool}
    {found : Option Record}
    (h : inspect series (strictly expected owner cwdAvailable) found = .ok record) :
    found = some record ∧ record.specSeriesId = series ∧ record.pending = none ∧
      record.binding = expected := by
  cases found with
  | none => cases h
  | some r =>
      simp only [inspect, strictly, bind_eq_ok, require_eq_ok, decide_eq_true_eq, Bool.or_false,
        Option.all_some, Option.isNone_iff_eq_none] at h
      obtain ⟨-, hseries, -, -, -, -, -, -, -, hbinding, -, hpending, h⟩ := h
      cases h
      exact ⟨rfl, hseries, hpending, hbinding⟩

lemma inspect_leniently {owner : RuntimeOwner} {cwdAvailable : Bool} {found : Option Record}
    (h : inspect series (leniently owner cwdAvailable) found = .ok record) :
    found = some record := by
  cases found with
  | none => cases h
  | some r =>
      simp only [inspect, bind_eq_ok] at h
      obtain ⟨-, -, -, -, -, -, -, -, -, -, -, -, h⟩ := h
      cases h
      rfl

/-- The manifest is that of the pending call, and its receipt names the session and the model. -/
structure Confirms (record : Record) (c : Completion) : Prop where
  hash : c.manifest.sha256 = c.manifestHash
  pending : record.pending = some c.logPath
  log : c.manifest.logPath = some c.logPath
  session : c.manifest.providerSessionId = some record.sessionId
  model : c.manifest.providerReportedModel = some record.model

lemma finishRecord_eq_ok {finished : Record} {c : Completion}
    (h : finishRecord record c = .ok finished) :
    Confirms record c ∧ finished.pending = none ∧ finished.sessionId = record.sessionId := by
  simp only [finishRecord, bind_eq_ok, require_eq_ok, Bool.and_eq_true, decide_eq_true_eq] at h
  obtain ⟨-, hhash, -, ⟨hpending, hlog⟩, -, ⟨hsession, hmodel⟩, h⟩ := h
  cases h
  exact ⟨⟨hhash, hpending, hlog, hsession, hmodel⟩, rfl, rfl⟩

/-! ## What happened to a series -/

/-- The call of a series that is not resolved, after one more event. -/
def afterEvent (series : Text) (unresolved : Option Text) : Event → Option Text
  | .started s _ log => if s = series then some log else unresolved
  | .finished s _ => if s = series then none else unresolved
  | .rehydrated s _ _ => if s = series then none else unresolved
  | _ => unresolved

/-- The log of the call that was started last, unless it was finished or its session replaced. -/
def unresolvedCall (series : Text) (events : List Event) : Option Text :=
  events.foldl (afterEvent series) none

lemma unresolvedCall_concat : unresolvedCall series (events ++ [event]) =
    afterEvent series (unresolvedCall series events) event := by
  simp [unresolvedCall]

/-! ## The invariant -/

/-- What a process relies on. -/
def Relies (d : State) : Phase → Prop
  | .registering record others =>
    d.record record.specSeriesId = none ∧ record.pending = none ∧ record.sessionId ∈ d.sessions ∧
      ∀ s r, d.record s = some r → s ∈ others ∨ r.sessionId ≠ record.sessionId
  | .calling series expected record =>
    d.record series = some record ∧ record.pending = none ∧ record.binding = expected
  | .leased series expected record log =>
    d.record series = some (record.started log) ∧ record.binding = expected
  | .finishing series record finished c =>
    d.record series = some record ∧ finishRecord record c = .ok finished
  | .rehydrating series _ previous => d.record series = some previous
  | _ => True

/-- The locks are exclusive, the processes find what they rely on, the sessions differ and are all
named, and the pending calls are the unresolved ones. -/
structure Owned (d : State) (events : List Event) : Prop where
  registry : ∀ p q, (d.phases p).locksRegistry = true → (d.phases q).locksRegistry = true → p = q
  locks : ∀ p q s, (d.phases p).lockedSeries = some s → (d.phases q).lockedSeries = some s → p = q
  relies : ∀ p, Relies d (d.phases p)
  named : ∀ s r, d.record s = some r → r.sessionId ∈ d.sessions
  apart : ∀ s t r r', d.record s = some r → d.record t = some r' → r.sessionId = r'.sessionId →
    s = t
  pending : ∀ s r, d.record s = some r → r.pending = unresolvedCall s events
  absent : ∀ s, d.record s = none → unresolvedCall s events = none

/-- More names change nothing that a process relies on. -/
lemma Relies.of_named {sessions logs : List Text} (h : Relies d phase)
    (hsessions : d.sessions ⊆ sessions) :
    Relies { d with sessions := sessions, logs := logs } phase := by
  cases phase with
  | registering record others => exact ⟨h.1, h.2.1, hsessions h.2.2.1, h.2.2.2⟩
  | _ => exact h

/-- A process moves on without writing, to a phase it may take. -/
lemma Owned.goTo (h : Owned d events) (hrelies : Relies d phase)
    (hregistry : phase.locksRegistry = true → ∀ q, q ≠ p → (d.phases q).locksRegistry = false)
    (hlock : ∀ s, phase.lockedSeries = some s → ∀ q, q ≠ p → (d.phases q).lockedSeries ≠ some s)
    (hevent : ∀ s, afterEvent s (unresolvedCall s events) event = unresolvedCall s events) :
    Owned (d.goTo p phase) (events ++ [event]) := by
  refine ⟨?_, ?_, ?_, h.named, h.apart, ?_, ?_⟩
  · intro a b ha hb
    by_cases hap : a = p
    · by_cases hbp : b = p
      · rw [hap, hbp]
      · subst hap
        rw [phases_goTo_self] at ha
        rw [phases_goTo_of_ne hbp, hregistry ha b hbp] at hb
        cases hb
    · rw [phases_goTo_of_ne hap] at ha
      by_cases hbp : b = p
      · subst hbp
        rw [phases_goTo_self] at hb
        rw [hregistry hb a hap] at ha
        cases ha
      · rw [phases_goTo_of_ne hbp] at hb
        exact h.registry a b ha hb
  · intro a b s ha hb
    by_cases hap : a = p
    · by_cases hbp : b = p
      · rw [hap, hbp]
      · subst hap
        rw [phases_goTo_self] at ha
        rw [phases_goTo_of_ne hbp] at hb
        exact absurd hb (hlock s ha b hbp)
    · rw [phases_goTo_of_ne hap] at ha
      by_cases hbp : b = p
      · subst hbp
        rw [phases_goTo_self] at hb
        exact absurd ha (hlock s hb a hap)
      · rw [phases_goTo_of_ne hbp] at hb
        exact h.locks a b s ha hb
  · intro a
    by_cases hap : a = p
    · subst hap
      rw [phases_goTo_self]
      exact hrelies
    · rw [phases_goTo_of_ne hap]
      exact h.relies a
  · intro s r hr
    rw [unresolvedCall_concat, hevent]
    exact h.pending s r hr
  · intro s hs
    rw [unresolvedCall_concat, hevent]
    exact h.absent s hs

/-- The holder of a series replaces its record; the others rely on nothing of it but its session. -/
lemma Relies.of_write {old new : Record} (h : Relies d phase)
    (hlock : phase.lockedSeries ≠ some series) (hold : d.record series = some old)
    (hsession : new.sessionId = old.sessionId ∨ new.sessionId ∉ d.sessions) :
    Relies (d.write series new) phase := by
  cases phase with
  | registering record others =>
      obtain ⟨hnone, hpending, hnamed, hcompared⟩ := h
      have hne : series ≠ record.specSeriesId := by
        rintro rfl
        rw [hold] at hnone
        cases hnone
      refine ⟨by rwa [record_write, if_neg hne], hpending, hnamed, fun s r hr => ?_⟩
      rw [record_write] at hr
      split_ifs at hr with hs
      · obtain rfl := Option.some.inj hr
        subst hs
        rcases hsession with hsame | hdrawn
        · rw [hsame]
          exact hcompared _ old hold
        · exact .inr fun heq => hdrawn (heq ▸ hnamed)
      · exact hcompared s r hr
  | calling s expected record =>
      have hne : series ≠ s := fun heq => hlock (congrArg some heq.symm)
      exact ⟨by rw [record_write, if_neg hne]; exact h.1, h.2⟩
  | leased s expected record log =>
      have hne : series ≠ s := fun heq => hlock (congrArg some heq.symm)
      exact ⟨by rw [record_write, if_neg hne]; exact h.1, h.2⟩
  | finishing s record finished c =>
      have hne : series ≠ s := fun heq => hlock (congrArg some heq.symm)
      exact ⟨by rw [record_write, if_neg hne]; exact h.1, h.2⟩
  | rehydrating s cwd previous =>
      have hne : series ≠ s := fun heq => hlock (congrArg some heq.symm)
      show (d.write series new).record s = some previous
      rw [record_write, if_neg hne]
      exact h
  | _ => trivial

/-- What the holder of a series may write, and where it stands then. -/
structure Replaces (d : State) (events : List Event) (p : ℕ) (series : Text) (old new : Record)
    (event : Event) (sessions : List Text) : Prop where
  holds : (d.phases p).lockedSeries = some series
  found : d.record series = some old
  session : new.sessionId = old.sessionId ∨ new.sessionId ∉ d.sessions
  named : new.sessionId ∈ sessions
  kept : d.sessions ⊆ sessions
  pending : new.pending = afterEvent series (unresolvedCall series events) event
  silent : ∀ s, s ≠ series → afterEvent s (unresolvedCall s events) event = unresolvedCall s events

lemma Owned.replace {old new : Record} {sessions logs : List Text} (h : Owned d events)
    (hw : Replaces d events p series old new event sessions)
    (hrelies : Relies (d.write series new) phase) (hregistry : phase.locksRegistry = false)
    (hlock : ∀ s, phase.lockedSeries = some s → s = series) :
    Owned { (d.write series new).goTo p phase with sessions := sessions, logs := logs }
      (events ++ [event]) := by
  have hsessions : ∀ s r, (d.write series new).record s = some r → r.sessionId ∈ sessions := by
    intro s r hr
    rw [record_write] at hr
    split_ifs at hr with hs
    · exact Option.some.inj hr ▸ hw.named
    · exact hw.kept (h.named s r hr)
  refine ⟨?_, ?_, ?_, hsessions, ?_, ?_, ?_⟩
  · intro a b ha hb
    have hheld : ∀ c, (((d.write series new).goTo p phase).phases c).locksRegistry = true →
        (d.phases c).locksRegistry = true := fun c hc =>
      locksRegistry_of_goTo (d := d.write series new) (fun hp => by simp [hregistry] at hp) hc
    exact h.registry a b (hheld a ha) (hheld b hb)
  · intro a b s ha hb
    have hheld : ∀ c, (((d.write series new).goTo p phase).phases c).lockedSeries = some s →
        (d.phases c).lockedSeries = some s := fun c hc =>
      lockedSeries_of_goTo (d := d.write series new) (fun hp => hlock s hp ▸ hw.holds) hc
    exact h.locks a b s (hheld a ha) (hheld b hb)
  · intro a
    have hwritten : Relies (d.write series new) (((d.write series new).goTo p phase).phases a) := by
      by_cases hap : a = p
      · subst hap
        rw [phases_goTo_self]
        exact hrelies
      · rw [phases_goTo_of_ne hap]
        exact (h.relies a).of_write (fun hheld => hap (h.locks a p series hheld hw.holds)) hw.found
          hw.session
    have hnamed : Relies { d.write series new with sessions := sessions, logs := logs }
        (((d.write series new).goTo p phase).phases a) := hwritten.of_named hw.kept
    exact hnamed
  · intro s t r r' hr hr' hsame
    have hr : (d.write series new).record s = some r := hr
    have hr' : (d.write series new).record t = some r' := hr'
    rw [record_write] at hr hr'
    have hapart : ∀ u ru, d.record u = some ru → series ≠ u → ru.sessionId ≠ new.sessionId := by
      intro u ru hu hne heq
      rcases hw.session with hold | hdrawn
      · exact hne (h.apart series u old ru hw.found hu (hold ▸ heq.symm))
      · exact hdrawn (heq ▸ h.named u ru hu)
    split_ifs at hr hr' with hs ht ht
    · rw [← hs, ← ht]
    · obtain rfl := Option.some.inj hr
      exact absurd hsame.symm (hapart t r' hr' ht)
    · obtain rfl := Option.some.inj hr'
      exact absurd hsame (hapart s r hr hs)
    · exact h.apart s t r r' hr hr' hsame
  · intro s r hr
    have hr : (d.write series new).record s = some r := hr
    rw [record_write] at hr
    rw [unresolvedCall_concat]
    split_ifs at hr with hs
    · obtain rfl := Option.some.inj hr
      rw [← hs]
      exact hw.pending
    · rw [hw.silent s (Ne.symm hs)]
      exact h.pending s r hr
  · intro s hs
    have hs : (d.write series new).record s = none := hs
    rw [record_write] at hs
    split_ifs at hs with hne
    rw [unresolvedCall_concat, hw.silent s (Ne.symm hne)]
    exact h.absent s hs

/-- The holder of the registry adds a record. -/
lemma Owned.add {new : Record} (h : Owned d events)
    (hphase : d.phases p = .registering new []) :
    Owned ((d.write new.specSeriesId new).goTo p .idle)
      (events ++ [.registered new.specSeriesId]) := by
  have hrelies := h.relies p
  rw [hphase] at hrelies
  obtain ⟨hnone, hpending, hnamed, hcompared⟩ := hrelies
  have hholds : (d.phases p).locksRegistry = true := by rw [hphase]; rfl
  have hapart : ∀ s r, d.record s = some r → r.sessionId ≠ new.sessionId := fun s r hr =>
    (hcompared s r hr).resolve_left List.not_mem_nil
  have hother : ∀ {s r}, d.record s = some r → new.specSeriesId ≠ s := by
    rintro s r hr rfl
    rw [hnone] at hr
    cases hr
  refine ⟨?_, ?_, ?_, ?_, ?_, ?_, ?_⟩
  · intro a b ha hb
    have hheld : ∀ c, (((d.write new.specSeriesId new).goTo p .idle).phases c).locksRegistry =
        true → (d.phases c).locksRegistry = true := fun c hc =>
      locksRegistry_of_goTo (d := d.write new.specSeriesId new) (fun _ => hholds) hc
    exact h.registry a b (hheld a ha) (hheld b hb)
  · intro a b s ha hb
    have hheld : ∀ c, (((d.write new.specSeriesId new).goTo p .idle).phases c).lockedSeries =
        some s → (d.phases c).lockedSeries = some s := fun c hc =>
      lockedSeries_of_goTo (d := d.write new.specSeriesId new) (fun hp => by cases hp) hc
    exact h.locks a b s (hheld a ha) (hheld b hb)
  · intro a
    by_cases hap : a = p
    · subst hap
      rw [phases_goTo_self]
      trivial
    · rw [phases_goTo_of_ne hap]
      have hold := h.relies a
      have hidle : (d.phases a).locksRegistry ≠ true := fun hheld =>
        hap (h.registry a p hheld hholds)
      show Relies (d.write new.specSeriesId new) (d.phases a)
      have hfound : ∀ {s r}, d.record s = some r →
          (d.write new.specSeriesId new).record s = some r := by
        intro s r hr
        rw [record_write, if_neg (hother hr)]
        exact hr
      generalize d.phases a = held at hold hidle ⊢
      cases held with
      | registering => exact absurd rfl hidle
      | calling => exact ⟨hfound hold.1, hold.2⟩
      | leased => exact ⟨hfound hold.1, hold.2⟩
      | finishing => exact ⟨hfound hold.1, hold.2⟩
      | rehydrating => exact hfound hold
      | _ => trivial
  · intro s r hr
    have hr : (d.write new.specSeriesId new).record s = some r := hr
    rw [record_write] at hr
    split_ifs at hr with hs
    · exact Option.some.inj hr ▸ hnamed
    · exact h.named s r hr
  · intro s t r r' hr hr' hsame
    have hr : (d.write new.specSeriesId new).record s = some r := hr
    have hr' : (d.write new.specSeriesId new).record t = some r' := hr'
    rw [record_write] at hr hr'
    split_ifs at hr hr' with hs ht ht
    · rw [← hs, ← ht]
    · obtain rfl := Option.some.inj hr
      exact absurd hsame.symm (hapart t r' hr')
    · obtain rfl := Option.some.inj hr'
      exact absurd hsame (hapart s r hr)
    · exact h.apart s t r r' hr hr' hsame
  · intro s r hr
    have hr : (d.write new.specSeriesId new).record s = some r := hr
    rw [record_write] at hr
    rw [unresolvedCall_concat]
    show r.pending = unresolvedCall s events
    split_ifs at hr with hs
    · obtain rfl := Option.some.inj hr
      rw [hpending, ← hs, h.absent _ hnone]
    · exact h.pending s r hr
  · intro s hs
    have hs : (d.write new.specSeriesId new).record s = none := hs
    rw [record_write] at hs
    split_ifs at hs
    rw [unresolvedCall_concat]
    exact h.absent s hs

/-- A registration names its session and takes the registry. -/
lemma Owned.register {series sid cwd : Text} {owner : RuntimeOwner} {receipt : Option Text}
    {others : List Text} (h : Owned d events) (hfree : ∀ q, (d.phases q).locksRegistry = false)
    (hnew : d.record series = none) (hothers : others.Perm (dictKeys d.records)) :
    Owned { d.goTo p (.registering (newRecord series sid cwd owner receipt) others) with
      sessions := sid :: d.sessions } (events ++ [.internal]) := by
  have hnamed : Owned { d with sessions := sid :: d.sessions } events := by
    refine ⟨h.registry, h.locks, ?_, ?_, h.apart, h.pending, h.absent⟩
    · intro a
      have hmore : Relies { d with sessions := sid :: d.sessions, logs := d.logs } (d.phases a) :=
        (h.relies a).of_named (List.subset_cons_self _ _)
      exact hmore
    · intro s r hr
      exact List.mem_cons_of_mem _ (h.named s r hr)
  refine hnamed.goTo ⟨hnew, rfl, List.mem_cons_self, ?_⟩ (fun _ q _ => hfree q) ?_ fun _ => rfl
  · intro s r hr
    have hkey : s ∈ dictKeys d.records := dictGet_isSome.mp (by
      have hfound : dictGet s d.records = some r := hr
      rw [hfound]
      rfl)
    exact .inl (hothers.mem_iff.mpr hkey)
  · intro s hs
    cases hs

lemma Step.owned (hs : Step d event d') (h : Owned d events) : Owned d' (events ++ [event]) := by
  have hidle : ∀ p, Owned (d.goTo p .idle) (events ++ [.internal]) := fun p =>
    h.goTo trivial (fun hheld => by cases hheld) (fun _ hheld => by cases hheld) fun _ => rfl
  cases hs with
  | crash p => exact hidle p
  | register p series sid cwd owner receipt others hphase hfree hnew hdrawn hothers =>
      exact h.register hfree hnew hothers
  | compare p record other name others hphase hother hsession =>
      have hrelies := h.relies p
      rw [hphase] at hrelies
      obtain ⟨hnone, hpending, hnamed, hcompared⟩ := hrelies
      have hholds : (d.phases p).locksRegistry = true := by rw [hphase]; rfl
      refine h.goTo ⟨hnone, hpending, hnamed, ?_⟩ ?_ (fun _ hheld => by cases hheld) fun _ => rfl
      · intro s r hr
        rcases hcompared s r hr with hleft | hne
        · rcases List.mem_cons.mp hleft with rfl | hrest
          · rw [hother] at hr
            obtain rfl := Option.some.inj hr
            exact .inr hsession
          · exact .inl hrest
        · exact .inr hne
      · intro _ q hq
        exact Bool.eq_false_iff.mpr fun hheld => hq (h.registry q p hheld hholds)
  | registered p record hphase => exact h.add hphase
  | bind p expected record owner cwdAvailable hphase hinspect =>
      exact h.goTo trivial (fun hheld => by cases hheld) (fun _ hheld => by cases hheld)
        fun _ => rfl
  | call p series expected state record owner cwdAvailable hphase hfree hinspect hstate =>
      obtain ⟨hfound, -, hpending, hbinding⟩ := inspect_strictly hinspect
      refine h.goTo ⟨hfound, hpending, hbinding⟩ (fun hheld => by cases hheld) ?_ fun _ => rfl
      intro s hs q _
      exact Option.some.inj hs ▸ hfree q
  | started p series expected record log hphase hdrawn =>
      have hrelies := h.relies p
      rw [hphase] at hrelies
      obtain ⟨hfound, -, hbinding⟩ := hrelies
      have hnamed : (record.started log).sessionId ∈ d.sessions := h.named series record hfound
      refine h.replace ⟨by rw [hphase]; rfl, hfound, .inl rfl, hnamed, List.Subset.refl _,
        by simp [afterEvent, Record.started], ?_⟩ ⟨?_, hbinding⟩ rfl ?_
      · intro s hne
        simp [afterEvent, Ne.symm hne]
      · rw [record_write, if_pos rfl]
      · intro s hs
        exact (Option.some.inj hs).symm
  | called p series expected record log hphase =>
      have hlock : (d.phases p).lockedSeries = some series := by rw [hphase]; rfl
      refine h.goTo trivial (fun hheld => by cases hheld) ?_ fun _ => rfl
      intro s hs q hq hheld
      obtain rfl := Option.some.inj hs
      exact hq (h.locks q p _ hheld hlock)
  | returned p => exact hidle p
  | finish p series record finished c hphase hfree hrecord hfinish =>
      refine h.goTo ⟨hrecord, hfinish⟩ (fun hheld => by cases hheld) ?_ fun _ => rfl
      intro s hs q _
      exact Option.some.inj hs ▸ hfree q
  | reconcile p taskId series runs record finished c hphase htarget hfree hrecord hfinish =>
      refine h.goTo ⟨hrecord, hfinish⟩ (fun hheld => by cases hheld) ?_ fun _ => rfl
      intro s hs q _
      exact Option.some.inj hs ▸ hfree q
  | finished p series record finished c hphase =>
      have hrelies := h.relies p
      rw [hphase] at hrelies
      obtain ⟨hfound, hfinish⟩ := hrelies
      obtain ⟨-, hpending, hsession⟩ := finishRecord_eq_ok hfinish
      have hw : Replaces d events p series record finished (.finished series c) d.sessions := by
        refine ⟨by rw [hphase]; rfl, hfound, .inl hsession, hsession ▸ h.named _ _ hfound,
          List.Subset.refl _, by simp [afterEvent, hpending], ?_⟩
        intro s hne
        simp [afterEvent, Ne.symm hne]
      have hdone : Owned { (d.write series finished).goTo p .idle with
          sessions := d.sessions, logs := d.logs } (events ++ [.finished series c]) :=
        h.replace hw trivial rfl fun _ hheld => by cases hheld
      exact hdone
  | rehydrate p series expectedSession cwd previous owner cwdAvailable hphase hfree hinspect =>
      refine h.goTo (inspect_leniently hinspect) (fun hheld => by cases hheld) ?_ fun _ => rfl
      intro s hs q _
      exact Option.some.inj hs ▸ hfree q
  | rehydrated p series cwd sid previous hphase hdrawn =>
      have hrelies := h.relies p
      rw [hphase] at hrelies
      refine h.replace ⟨by rw [hphase]; rfl, hrelies, .inr hdrawn, List.mem_cons_self,
        List.subset_cons_self _ _, by simp [afterEvent, Record.rehydrated], ?_⟩ trivial rfl
        fun _ hheld => by cases hheld
      intro s hne
      simp [afterEvent, Ne.symm hne]

lemma owned_fresh (h : Fresh d) : Owned d [] := by
  obtain ⟨hnone, hidle⟩ := h
  have hrecord : ∀ s, d.record s = none := fun s => by
    unfold State.record
    rw [hnone]
    rfl
  refine ⟨?_, ?_, ?_, ?_, ?_, ?_, fun _ _ => rfl⟩
  · intro p q hp
    rw [hidle p] at hp
    cases hp
  · intro p q s hp
    rw [hidle p] at hp
    cases hp
  · intro p
    rw [hidle p]
    trivial
  · intro s r hr
    rw [hrecord s] at hr
    cases hr
  · intro s t r r' hr
    rw [hrecord s] at hr
    cases hr
  · intro s r hr
    rw [hrecord s] at hr
    cases hr

lemma Runs.owned (h : Runs d events) : Owned d events :=
  h.invariant (fun _ hfresh => owned_fresh hfresh) fun _ _ _ _ howned hs => hs.owned howned

/-! ## The properties of a step -/

/-- The write that clears a pending call writes the record of its series. -/
lemma write_of_cleared {s : Text} {new r r' : Record} {log : Text}
    (hr : d.record series = some r) (hpending : r.pending = some log)
    (hr' : (d.write s new).record series = some r') (hcleared : r'.pending ≠ some log) :
    s = series ∧ new = r' := by
  rw [record_write] at hr'
  split_ifs at hr' with hseries
  · exact ⟨hseries, Option.some.inj hr'⟩
  · rw [hr] at hr'
    obtain rfl := Option.some.inj hr'
    exact absurd hpending hcleared

/-- Only a process that finishes a call and one that rehydrates clear a pending call. -/
lemma Step.cleared {r r' : Record} {log : Text} (hs : Step d event d') (h : Owned d events)
    (hr : d.record series = some r) (hpending : r.pending = some log)
    (hr' : d'.record series = some r') (hcleared : r'.pending ≠ some log) :
    (∃ c, event = .finished series c ∧ Confirms r c) ∨
      ∃ sid, event = .rehydrated series r.sessionId sid ∧ r'.sessionId = sid ∧
        sid ∉ d.sessions := by
  have hkept : d'.record series ≠ some r := by
    rw [hr']
    intro heq
    obtain rfl := Option.some.inj heq
    exact hcleared hpending
  cases hs with
  | registered p record hphase =>
      have hrelies := h.relies p
      rw [hphase] at hrelies
      obtain ⟨rfl, -⟩ := write_of_cleared hr hpending hr' hcleared
      rw [hrelies.1] at hr
      cases hr
  | started p s expected record log' hphase hdrawn =>
      have hrelies := h.relies p
      rw [hphase] at hrelies
      obtain ⟨rfl, -⟩ := write_of_cleared hr hpending hr' hcleared
      rw [hrelies.1] at hr
      obtain rfl := Option.some.inj hr
      rw [hrelies.2.1] at hpending
      cases hpending
  | finished p s record finished c hphase =>
      have hrelies := h.relies p
      rw [hphase] at hrelies
      obtain ⟨rfl, -⟩ := write_of_cleared hr hpending hr' hcleared
      rw [hrelies.1] at hr
      obtain rfl := Option.some.inj hr
      exact .inl ⟨c, rfl, (finishRecord_eq_ok hrelies.2).1⟩
  | rehydrated p s cwd sid previous hphase hdrawn =>
      have hrelies := h.relies p
      rw [hphase] at hrelies
      obtain ⟨rfl, rfl⟩ := write_of_cleared hr hpending hr' hcleared
      have hfound : d.record s = some previous := hrelies
      rw [hfound] at hr
      obtain rfl := Option.some.inj hr
      exact .inr ⟨sid, rfl, rfl, hdrawn⟩
  | _ => exact absurd hr hkept

/-- What an event of a series says of its record: a call starts on a record without a pending call
that is bound as its task expects, the provider is called for the call that was started last, and a
pending call leaves the record with a receipt of that very call or with its session. -/
structure OwnsCalls (d : State) (events : List Event) (event : Event) (d' : State) : Prop where
  started : ∀ series expected log, event = .started series expected log →
    unresolvedCall series events = none ∧ log ∉ d.logs ∧
      ∃ r, d.record series = some r ∧ r.pending = none ∧ r.binding = expected
  called : ∀ series expected log, event = .called series expected log →
    unresolvedCall series events = some log ∧
      ∃ r, d.record series = some r ∧ r.pending = some log ∧ r.binding = expected
  cleared : ∀ series r r' log, d.record series = some r → r.pending = some log →
    d'.record series = some r' → r'.pending ≠ some log →
    unresolvedCall series events = some log ∧
      ((∃ c, event = .finished series c ∧ Confirms r c) ∨
        ∃ sid, event = .rehydrated series r.sessionId sid ∧ r'.sessionId = sid ∧
          sid ≠ r.sessionId)

/-- No two series are registered with one session. -/
def SessionsApart (d : State) : Prop :=
  ∀ s t r r', d.record s = some r → d.record t = some r' → r.sessionId = r'.sessionId → s = t

lemma Step.ownsCalls (hs : Step d event d') (h : Owned d events) :
    OwnsCalls d events event d' := by
  refine ⟨?_, ?_, ?_⟩
  · rintro series expected log rfl
    cases hs with
    | started p series expected record log hphase hdrawn =>
        have hrelies := h.relies p
        rw [hphase] at hrelies
        obtain ⟨hfound, hpending, hbinding⟩ := hrelies
        have hnone := h.pending series record hfound
        rw [hpending] at hnone
        exact ⟨hnone.symm, hdrawn, record, hfound, hpending, hbinding⟩
  · rintro series expected log rfl
    cases hs with
    | called p series expected record log hphase =>
        have hrelies := h.relies p
        rw [hphase] at hrelies
        obtain ⟨hfound, hbinding⟩ := hrelies
        exact ⟨(h.pending _ _ hfound).symm, record.started log, hfound, rfl, hbinding⟩
  · intro series r r' log hr hpending hr' hcleared
    refine ⟨by rw [← h.pending series r hr, hpending], ?_⟩
    rcases hs.cleared h hr hpending hr' hcleared with hfinished | ⟨sid, hevent, hsid, hdrawn⟩
    · exact .inl hfinished
    · refine .inr ⟨sid, hevent, hsid, ?_⟩
      rintro rfl
      exact hdrawn (h.named series r hr)

/-- Whatever the processes do and wherever they die, every step respects the owner of a session, and
the sessions stay apart. -/
theorem sessions_owned (d d' : State) (events : List Event) (event : Event) (h : Runs d events)
    (hs : Step d event d') : OwnsCalls d events event d' ∧ SessionsApart d ∧ SessionsApart d' := by
  have howned := h.owned
  exact ⟨hs.ownsCalls howned, howned.apart, (hs.owned howned).apart⟩

/-! ### A call that is finished -/

def ann : RuntimeOwner := ⟨1, "h"⟩

def annRecord : Record := newRecord "s" "u1" "/w" ann none

def annManifest : ManifestFile where
  sha256 := "f"
  taskId := some "t"
  runToken := some "r"
  logPath := some "/r.log"
  providerSessionId := some "u1"
  providerReportedModel := some reviewModel
  sessionSeries := some "s"

def annCompletion : Completion := ⟨"/r.log", "/m", "f", annManifest⟩

/-- A series is registered, called, and its call is finished with the manifest of the run. -/
theorem sessions_owned_finished :
    ∃ d d' events, Runs d events ∧ unresolvedCall "s" events = some "/r.log" ∧
      Step d (.finished "s" annCompletion) d' ∧ unresolvedCall "t" events = none ∧
      OwnsCalls d events (.finished "s" annCompletion) d' ∧ SessionsApart d ∧ SessionsApart d' := by
  have h0 : Runs ⟨[], fun _ => .idle, [], []⟩ [] := .init ⟨rfl, fun _ => rfl⟩
  have h1 := h0.step (.register 0 "s" "u1" "/w" ann none [] rfl (fun _ => rfl) rfl
    (fun _ => List.not_mem_nil) .nil)
  have h2 := h1.step (.registered 0 annRecord rfl)
  have h3 := h2.step (.bind 0 annRecord.binding annRecord ann true rfl rfl)
  have h4 := h3.step (.call 0 "s" annRecord.binding .new annRecord ann true rfl
    (by rintro (_ | q) <;> exact nofun) rfl rfl)
  have h5 := h4.step (.started 0 "s" annRecord.binding annRecord "/r.log" rfl List.not_mem_nil)
  have h6 := h5.step (.called 0 "s" annRecord.binding annRecord "/r.log" rfl)
  have h7 := h6.step (.returned 0 "s" annRecord.binding annRecord "/r.log" rfl)
  have h8 := h7.step (.finish 0 "s" (annRecord.started "/r.log") _ annCompletion rfl
    (by rintro (_ | q) <;> exact nofun) rfl rfl)
  exact ⟨_, _, _, h8, rfl, .finished 0 "s" (annRecord.started "/r.log") _ annCompletion rfl, rfl,
    sessions_owned _ _ _ _ h8
      (.finished 0 "s" (annRecord.started "/r.log") _ annCompletion rfl)⟩

end ReviewSession

end AgentOrch
