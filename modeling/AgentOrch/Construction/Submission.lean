import AgentOrch.Construction.Daemon
import AgentOrch.Framework.PosixPath

/-!
# Submitting a task

`Controller.submit` keeps two snapshots in a directory of the task's own before the task becomes a
row.  A directory that is there already is a submission that died before its row was written, and is
removed; the directory is removed again when the row cannot be written.

Only what the file system is asked to change is recorded.  How it answers, what the files that are
read hold and what becomes of the transaction come in; two names that differ name two entries.
-/

namespace AgentOrch

open Py Json

namespace Submission

/-! ## The file system -/

inductive FileCall
  | rmtree (directory : PurePath)
  | mkdir (directory : PurePath)
  | write (file : PurePath)

/-- The directory a call removes, makes, or puts a file into. -/
def FileCall.directory : FileCall → PurePath
  | rmtree directory => directory
  | mkdir directory => directory
  | write file => file.parent

/-- How the file system answers: to `path.exists()`, to a call, and to the check of a digest. -/
structure FileSystem where
  entry : PurePath → Except Exc Bool
  answer : FileCall → Except Exc Unit
  verify : PurePath → Except Exc Unit

/-- A computation with the calls it has made; they stay made when it raises. -/
abbrev FileM := ExceptT Exc (StateM (List FileCall))

/-- What does not change the file system. -/
def liftExcept {α : Type} (result : Except Exc α) : FileM α := ExceptT.mk (pure result)

def ask (fs : FileSystem) (call : FileCall) : FileM Unit := do
  modify (· ++ [call])
  liftExcept (fs.answer call)

/-- `path.exists()`: a path no system call takes is the path of nothing. -/
def pathExists (fs : FileSystem) (path : PurePath) : Except Exc Bool :=
  if path.hasNul then .ok false else fs.entry path

/-- `path.mkdir(parents=True, exist_ok=False)`. -/
def makeDirectory (fs : FileSystem) (path : PurePath) : FileM Unit := do
  if path.hasNul then throw (.valueError "embedded null byte")
  ask fs (.mkdir path)

/-- `_atomic_write`: the temporary file stands beside the file it becomes. -/
def atomicWrite (fs : FileSystem) (path : PurePath) : FileM Unit := ask fs (.write path)

/-! ## What is submitted -/

/-- An input file: the last name of its path, and the digest of its bytes. -/
structure InputFile where
  name : Text
  isComponent : IsComponent name
  hash : Text

/-- The arguments of `submit`, with what stands in the files they name: a profile's type and digest,
the input unless there is no such file, what reading a plan out of it raises. -/
structure Arguments where
  taskType : Text
  profile : Except Exc (Text × Text)
  input : Option InputFile
  plan : Except Exc Unit
  taskId : Option Text

/-- The columns of a row a repeated submission is compared with. -/
structure TaskRow where
  type : Text
  profileHash : Text
  inputHash : Text

/-- How the transaction ends: it commits, it raises and is rolled back, or it has committed when its
events do not agree with it. -/
inductive Insertion
  | committed
  | refused (exc : Exc)
  | disagreed (exc : Exc)

/-- The home a controller works in, resolved; its files, its tasks, and a fresh identity. -/
structure Environment where
  home : PurePath
  absolute : home.absolute = true
  resolved : (".." : Text) ∉ home.parts
  fs : FileSystem
  row : Text → Option TaskRow
  insertion : Text → Insertion
  fresh : Text

/-- `home / "tasks"`. -/
def Environment.tasksDir (env : Environment) : PurePath := env.home.joinpath "tasks"

/-- The digests of a submission whose profile and input are what they should be. -/
structure Prepared where
  profileHash : Text
  input : InputFile

/-- The start of `submit`, before it looks at the task. -/
def prepare (args : Arguments) : Except Exc Prepared := do
  let (type, profileHash) ← args.profile
  require (type = args.taskType) (.controllerError
    ("--type '" ++ args.taskType ++ "' does not match profile type '" ++ type ++ "'"))
  match args.input with
  | none => .error (.controllerError "input file does not exist")
  | some input => do
    args.plan
    return ⟨profileHash, input⟩

/-- The row of a task that was submitted before; a text no column holds cannot be looked up. -/
def recorded (env : Environment) (args : Arguments) (prepared : Prepared) (id : Text) :
    Except Exc (Option Text) := do
  require (Py.Encodable id) .unicodeEncodeError
  match env.row id with
  | none => return none
  | some row => do
    require (row.type = args.taskType && row.profileHash = prepared.profileHash &&
        row.inputHash = prepared.input.hash)
      (.controllerError ("request task id " ++ id ++ " was already used with different input"))
    return some id

/-! ## `submit` -/

/-- The directory is opened: what an earlier submission left there goes first, unless the identity
is a new one. -/
def openDirectory (env : Environment) (idempotent : Bool) (artifactDir : PurePath) :
    FileM Unit := do
  let found ← liftExcept (pathExists env.fs artifactDir)
  if found then
    if !idempotent then
      throw (.controllerError "generated task artifact already exists")
    ask env.fs (.rmtree artifactDir)
  makeDirectory env.fs artifactDir

/-- The snapshots of the profile and of the input. -/
def writeSnapshots (env : Environment) (prepared : Prepared) (artifactDir : PurePath) :
    FileM Unit := do
  let profileSnapshot := artifactDir.joinpath "profile.snapshot.json"
  let inputSnapshot := artifactDir.joinpath ("input.snapshot" ++ suffix prepared.input.name)
  atomicWrite env.fs profileSnapshot
  atomicWrite env.fs inputSnapshot
  liftExcept (env.fs.verify profileSnapshot)
  liftExcept (env.fs.verify inputSnapshot)

/-- `shutil.rmtree(path, ignore_errors=True)`. -/
def discard (path : PurePath) : FileM Unit := modify (· ++ [.rmtree path])

/-- The transaction; a task that is durable keeps its directory. -/
def insertTask (env : Environment) (artifactDir : PurePath) (id : Text) : FileM Text := do
  match env.insertion id with
  | .committed => return id
  | .refused exc => do
    discard artifactDir
    throw exc
  | .disagreed exc => throw exc

/-- `submit`, from the task's identity on. -/
def create (env : Environment) (prepared : Prepared) (idempotent : Bool) (id : Text) :
    FileM Text := do
  let artifactDir := env.tasksDir.joinpath id
  openDirectory env idempotent artifactDir
  writeSnapshots env prepared artifactDir
  insertTask env artifactDir id

/-- `Controller.submit`. -/
def submit (env : Environment) (args : Arguments) : FileM Text := do
  let prepared ← liftExcept (prepare args)
  match args.taskId with
  | none => create env prepared false env.fresh
  | some id => do
    match ← liftExcept (recorded env args prepared id) with
    | some id => return id
    | none => create env prepared true id

/-- What `submit` has asked of the file system when it returns or raises. -/
def calls {α : Type} (m : FileM α) : List FileCall := (m.run.run []).2

/-- The daemon's submission for a run request: the request's identity, unless it names a task. -/
def handleRun (env : Environment) (request : Request) (taskId : Option Text) (args : Arguments) :
    FileM Text :=
  submit env { args with taskId := some (request.taskFor taskId) }

end Submission

end AgentOrch
