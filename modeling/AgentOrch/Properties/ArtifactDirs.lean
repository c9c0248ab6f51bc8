import AgentOrch.Construction.Submission

/-!
# The directory of a submission

Every call of `submit` is made in one directory, `tasks_dir / task_id`.  Where that leads is decided
by the identity alone: a name leads to its own entry of the task store, and no other text does.  The
daemon checks the identity of a request but not the `task_id` that takes its place, so the calls
stay in the store's own entries exactly when the identity is a name, or when `submit` ends before it
opens the directory.
-/

namespace AgentOrch.Submission

open Py Json

/-! ## Calls in one directory -/

/-- All calls of a computation are made in one directory. -/
def Within {α : Type} (directory : PurePath) (m : FileM α) : Prop :=
  ∀ made, ∃ more, (m.run.run made).2 = made ++ more ∧ ∀ call ∈ more, call.directory = directory

section Within

variable {α β : Type} {directory : PurePath}

lemma within_liftExcept (result : Except Exc α) : Within directory (liftExcept result) := by
  intro made
  exact ⟨[], (List.append_nil made).symm, by simp⟩

lemma within_throw (exc : Exc) : Within directory (throw exc : FileM α) :=
  within_liftExcept (.error exc)

lemma within_pure (a : α) : Within directory (pure a : FileM α) := within_liftExcept (.ok a)

/-- What comes second starts from the calls made first, and is not reached after an error. -/
lemma run_bind (m : FileM α) (f : α → FileM β) (made : List FileCall) :
    (m >>= f).run.run made =
      match m.run.run made with
      | (.ok a, made') => (f a).run.run made'
      | (.error exc, made') => (.error exc, made') := by
  simp only [ExceptT.run_bind, StateT.run_bind]
  rcases h : m.run.run made with ⟨result, made'⟩
  cases result <;> simp_all [StateT.run, ExceptT.run] <;> rfl

lemma Within.bind {m : FileM α} {f : α → FileM β} (hm : Within directory m)
    (hf : ∀ a, Within directory (f a)) : Within directory (m >>= f) := by
  intro made
  obtain ⟨first, hfirst, hdir⟩ := hm made
  rw [run_bind]
  rcases h : m.run.run made with ⟨result, made'⟩
  rw [h] at hfirst
  simp only at hfirst
  cases result with
  | error exc => exact ⟨first, hfirst, hdir⟩
  | ok a =>
      obtain ⟨second, hsecond, hdir'⟩ := hf a made'
      refine ⟨first ++ second, ?_, ?_⟩
      · show ((f a).run.run made').2 = _
        rw [hsecond, hfirst, List.append_assoc]
      · intro call hcall
        exact (List.mem_append.mp hcall).elim (hdir call) (hdir' call)

lemma within_ask (fs : FileSystem) {call : FileCall} (h : call.directory = directory) :
    Within directory (ask fs call) := by
  intro made
  refine ⟨[call], ?_, by simpa using h⟩
  rfl

lemma within_discard : Within directory (discard directory) := by
  intro made
  exact ⟨[.rmtree directory], rfl, by simp [FileCall.directory]⟩

lemma within_makeDirectory (fs : FileSystem) : Within directory (makeDirectory fs directory) := by
  unfold makeDirectory
  split
  · exact (within_throw _).bind fun _ => within_ask fs rfl
  · exact within_ask fs rfl

/-- A file with a name is written into the directory it is in. -/
lemma within_atomicWrite (fs : FileSystem) {name : Text} (h : IsPart name) :
    Within directory (atomicWrite fs (directory.joinpath name)) :=
  within_ask fs (PurePath.parent_joinpath h)

end Within

/-! ## The calls of `submit` -/

lemma within_openDirectory (env : Environment) (idempotent : Bool) (directory : PurePath) :
    Within directory (openDirectory env idempotent directory) := by
  apply (within_liftExcept _).bind
  intro found
  have hmake : Within directory (makeDirectory env.fs directory) := within_makeDirectory env.fs
  have hremove : Within directory (ask env.fs (.rmtree directory)) := within_ask env.fs rfl
  cases found
  · exact hmake
  · cases idempotent
    · exact (within_throw _).bind fun _ => hremove.bind fun _ => hmake
    · exact hremove.bind fun _ => hmake

/-- The suffix of a file's name is added to another name. -/
lemma isPart_inputSnapshot (input : InputFile) :
    IsPart ("input.snapshot" ++ suffix input.name) := by
  have hslash : (0x2F : CodePoint) ∉ suffix input.name := by
    intro h
    apply input.isComponent.1.2.2
    unfold suffix at h
    split at h
    · exact List.drop_subset _ _ h
    · simp at h
  refine ⟨by simp [Text.ofString], ?_, ?_⟩
  · intro h
    have hlength := congrArg List.length h
    simp [Text.ofString] at hlength
  · intro h
    rcases List.mem_append.mp h with h | h
    · revert h
      decide
    · exact hslash h

lemma within_writeSnapshots (env : Environment) (prepared : Prepared) (directory : PurePath) :
    Within directory (writeSnapshots env prepared directory) := by
  have hprofile : IsPart ("profile.snapshot.json" : Text) := by decide
  apply (within_atomicWrite env.fs hprofile).bind
  intro _
  apply (within_atomicWrite env.fs (isPart_inputSnapshot prepared.input)).bind
  intro _
  exact (within_liftExcept _).bind fun _ => within_liftExcept _

lemma within_insertTask (env : Environment) (directory : PurePath) (id : Text) :
    Within directory (insertTask env directory id) := by
  unfold insertTask
  split
  · exact within_pure id
  · exact within_discard.bind fun _ => within_throw _
  · exact within_throw _

lemma within_create (env : Environment) (prepared : Prepared) (idempotent : Bool) (id : Text) :
    Within (env.tasksDir.joinpath id) (create env prepared idempotent id) := by
  apply (within_openDirectory env idempotent _).bind
  intro _
  apply (within_writeSnapshots env prepared _).bind
  intro _
  exact within_insertTask env _ id

/-! ### Whether there are any -/

/-- A computation asks the file system for something, whatever becomes of it. -/
def Asks {α : Type} (m : FileM α) : Prop :=
  ∀ made, ∃ call more, (m.run.run made).2 = made ++ call :: more

lemma asks_ask (fs : FileSystem) (call : FileCall) : Asks (ask fs call) :=
  fun _ => ⟨call, [], rfl⟩

/-- What was asked for stays made. -/
lemma Asks.bind {α β : Type} {directory : PurePath} {m : FileM α} {f : α → FileM β}
    (hm : Asks m) (hf : ∀ a, Within directory (f a)) : Asks (m >>= f) := by
  intro made
  obtain ⟨call, more, hfirst⟩ := hm made
  rw [run_bind]
  rcases h : m.run.run made with ⟨result, made'⟩
  rw [h] at hfirst
  simp only at hfirst
  cases result with
  | error exc => exact ⟨call, more, hfirst⟩
  | ok a =>
      obtain ⟨second, hsecond, -⟩ := hf a made'
      refine ⟨call, more ++ second, ?_⟩
      show ((f a).run.run made').2 = _
      rw [hsecond, hfirst, List.append_assoc, List.cons_append]

/-- An identity that is repeated opens its directory, unless its path cannot be looked at. -/
lemma asks_openDirectory {env : Environment} {directory : PurePath}
    (hnul : directory.hasNul = false) {found : Bool}
    (hentry : env.fs.entry directory = .ok found) : Asks (openDirectory env true directory) := by
  have hmake : Asks (makeDirectory env.fs directory) := by
    simp only [makeDirectory, hnul, Bool.false_eq_true, ↓reduceIte]
    exact asks_ask env.fs _
  have hexists : pathExists env.fs directory = .ok found := by simp [pathExists, hnul, hentry]
  unfold openDirectory
  rw [hexists]
  cases found with
  | false => exact hmake
  | true =>
      exact (asks_ask env.fs (.rmtree directory)).bind fun _ => within_makeDirectory env.fs

lemma asks_create {env : Environment} {prepared : Prepared} {id : Text} {found : Bool}
    (hnul : (env.tasksDir.joinpath id).hasNul = false)
    (hentry : env.fs.entry (env.tasksDir.joinpath id) = .ok found) :
    Asks (create env prepared true id) := by
  apply (asks_openDirectory hnul hentry).bind
  intro _
  apply (within_writeSnapshots env prepared _).bind
  intro _
  exact within_insertTask env _ id

/-- Nothing is asked for when the path cannot be looked at, or no system call takes it. -/
lemma calls_create_of_unopened {env : Environment} {prepared : Prepared} {id : Text}
    (h : (env.tasksDir.joinpath id).hasNul = true ∨
      ∀ found, env.fs.entry (env.tasksDir.joinpath id) ≠ .ok found) :
    calls (create env prepared true id) = [] := by
  by_cases hnul : (env.tasksDir.joinpath id).hasNul = true
  · have hexists : pathExists env.fs (env.tasksDir.joinpath id) = .ok false := by
      simp [pathExists, hnul]
    simp only [calls, create, openDirectory, hexists, makeDirectory, hnul]
    rfl
  · cases hentry : env.fs.entry (env.tasksDir.joinpath id) with
    | error exc =>
        have hexists : pathExists env.fs (env.tasksDir.joinpath id) = .error exc := by
          simp [pathExists, hnul, hentry]
        simp only [calls, create, openDirectory, hexists]
        rfl
    | ok found => exact absurd hentry (h.resolve_left hnul found)

/-! ### Up to the directory -/

@[simp] lemma liftExcept_ok_bind {α β : Type} (a : α) (f : α → FileM β) :
    liftExcept (.ok a) >>= f = f a := rfl

/-- Where the arguments are in order and no row has the identity, the task is created. -/
lemma submit_eq_create {env : Environment} {args : Arguments} {prepared : Prepared} {id : Text}
    (hprepared : prepare args = .ok prepared) (hrow : recorded env args prepared id = .ok none) :
    submit env { args with taskId := some id } = create env prepared true id := by
  have hprepared' : prepare { args with taskId := some id } = .ok prepared := hprepared
  have hrow' : recorded env { args with taskId := some id } prepared id = .ok none := hrow
  simp only [submit, hprepared', liftExcept_ok_bind, hrow']

/-- Otherwise nothing is asked for. -/
lemma calls_submit_of_unprepared {env : Environment} {args : Arguments} {id : Text}
    (h : ∀ prepared, prepare args = .ok prepared → recorded env args prepared id ≠ .ok none) :
    calls (submit env { args with taskId := some id }) = [] := by
  have hsame : prepare { args with taskId := some id } = prepare args := rfl
  cases hprepared : prepare args with
  | error exc =>
      simp only [submit, hsame, hprepared]
      rfl
  | ok prepared =>
      have hrow' : recorded env { args with taskId := some id } prepared id =
          recorded env args prepared id := rfl
      simp only [submit, hsame, hprepared, liftExcept_ok_bind, hrow']
      cases hrow : recorded env args prepared id with
      | error exc => rfl
      | ok row =>
          cases row with
          | none => exact absurd hrow (h prepared hprepared)
          | some id' => rfl

/-! ## Staying inside the store -/

/-- `submit` gets as far as the directory: the profile, the input and the plan are in order, no row
has the identity, and the path is one that can be looked at. -/
def Opens (env : Environment) (args : Arguments) (id : Text) : Prop :=
  (∃ prepared, prepare args = .ok prepared ∧ recorded env args prepared id = .ok none) ∧
    (env.tasksDir.joinpath id).hasNul = false ∧
    ∃ found, env.fs.entry (env.tasksDir.joinpath id) = .ok found

/-- Every call of the submission is made in the entry of the task store that the identity names. -/
def StaysInside (env : Environment) (request : Request) (taskId : Option Text)
    (args : Arguments) : Prop :=
  ∀ call ∈ calls (handleRun env request taskId args),
    call.directory.location = env.tasksDir.location ++ [request.taskFor taskId]

/-- A submission that opens its directory makes all its calls there, and makes some. -/
lemma calls_of_opens {env : Environment} {request : Request} {taskId : Option Text}
    {args : Arguments} (h : Opens env args (request.taskFor taskId)) :
    calls (handleRun env request taskId args) ≠ [] ∧
      ∀ call ∈ calls (handleRun env request taskId args),
        call.directory = env.tasksDir.joinpath (request.taskFor taskId) := by
  obtain ⟨⟨prepared, hprepared, hrow⟩, hnul, found, hentry⟩ := h
  rw [handleRun, submit_eq_create hprepared hrow]
  constructor
  · have hasks : Asks (create env prepared true (request.taskFor taskId)) :=
      asks_create hnul hentry
    obtain ⟨call, more, hcalls⟩ := hasks []
    simp [calls, hcalls]
  · obtain ⟨more, hcalls, hdir⟩ := within_create env prepared true (request.taskFor taskId) []
    intro call hcall
    apply hdir
    rwa [calls, hcalls, List.nil_append] at hcall

/-- A submission that does not open its directory asks for nothing. -/
lemma calls_of_not_opens {env : Environment} {request : Request} {taskId : Option Text}
    {args : Arguments} (h : ¬ Opens env args (request.taskFor taskId)) :
    calls (handleRun env request taskId args) = [] := by
  rw [handleRun]
  by_cases hunprepared : ∀ prepared, prepare args = .ok prepared →
      recorded env args prepared (request.taskFor taskId) ≠ .ok none
  · exact calls_submit_of_unprepared hunprepared
  · push Not at hunprepared
    obtain ⟨prepared, hprepared, hrow⟩ := hunprepared
    rw [submit_eq_create hprepared hrow]
    apply calls_create_of_unopened
    by_contra hopen
    push Not at hopen
    obtain ⟨hnul, found, hentry⟩ := hopen
    exact h ⟨⟨prepared, hprepared, hrow⟩, by simpa using hnul, found, hentry⟩

/-- A submission stays in its own entry of the store if and only if its identity is a name or it
never opens a directory; and submissions that do so under different identities share none. -/
theorem staysInside_iff (env : Environment) (request : Request) (taskId : Option Text)
    (args : Arguments) :
    (StaysInside env request taskId args ↔
      IsComponent (request.taskFor taskId) ∨ ¬ Opens env args (request.taskFor taskId)) ∧
    ∀ other otherId otherArgs, request.taskFor taskId ≠ other.taskFor otherId →
      StaysInside env request taskId args → StaysInside env other otherId otherArgs →
      ∀ call ∈ calls (handleRun env request taskId args),
        ∀ call' ∈ calls (handleRun env other otherId otherArgs),
          call.directory.location ≠ call'.directory.location := by
  constructor
  · constructor
    · intro hinside
      by_cases hopen : Opens env args (request.taskFor taskId)
      · obtain ⟨hne, hdir⟩ := calls_of_opens hopen
        obtain ⟨call, hcall⟩ := List.exists_mem_of_ne_nil _ hne
        have hlocation := hinside call hcall
        rw [hdir call hcall] at hlocation
        exact .inl (PurePath.location_joinpath_iff.mp hlocation)
      · exact .inr hopen
    · intro hcondition call hcall
      by_cases hopen : Opens env args (request.taskFor taskId)
      · have hname := hcondition.resolve_right (not_not_intro hopen)
        rw [(calls_of_opens hopen).2 call hcall]
        exact PurePath.location_joinpath hname
      · rw [calls_of_not_opens hopen] at hcall
        exact absurd hcall List.not_mem_nil
  · intro other otherId otherArgs hne hinside hother call hcall call' hcall' heq
    rw [hinside call hcall, hother call' hcall'] at heq
    apply hne
    simpa using heq

/-! ### An identity that leads out of the store -/

/-- A home whose file system does whatever it is asked. -/
def openHome : Environment where
  home := PurePath.ofText "/home"
  absolute := by decide
  resolved := by decide
  fs := ⟨fun _ => .ok true, fun _ => .ok (), fun _ => .ok ()⟩
  row _ := none
  insertion _ := .committed
  fresh := []

def plainArguments : Arguments where
  taskType := "slice"
  profile := .ok ("slice", "profile-digest")
  input := some ⟨"input.md", by decide, "input-digest"⟩
  plan := .ok ()
  taskId := none

/-- A request that names the directory above the store as its task. -/
def strayRequest : Request where
  requestId := "11111111-2222-4333-8444-555555555555"
  action := .run (some "..")

/-- The submission removes the home itself. -/
theorem not_staysInside_stray :
    ¬ StaysInside openHome strayRequest (some "..") plainArguments ∧
      ∃ call rest, calls (handleRun openHome strayRequest (some "..") plainArguments) =
          .rmtree call :: rest ∧
        call.location = openHome.home.location := by
  constructor
  · intro h
    have hlocation := h (.rmtree (openHome.tasksDir.joinpath "..")) (List.mem_cons_self ..)
    revert hlocation
    decide
  · exact ⟨_, _, rfl, by decide⟩

end AgentOrch.Submission
