import AgentOrch.Framework.FileTree
import AgentOrch.Framework.Numbers
import Mathlib.Data.List.Sort
import Mathlib.Data.List.Dedup

/-!
# The sentinel over the protected roots

`containment.py`, layer L2: a snapshot of the watched roots before a stage, and its comparison with
the tree after the stage.  A digest is the content itself, since SHA-256 is taken to be injective.
An exception that escapes is `none`.
-/

namespace AgentOrch

open Py

instance : DecidableEq PurePath := fun p q =>
  decidable_of_iff (p.absolute = q.absolute ∧ p.parts = q.parts)
    ⟨fun h => PurePath.ext h.1 h.2, fun h => h ▸ ⟨rfl, rfl⟩⟩

/-! ## The file system a path names -/

/-- What the interpreter and the kernel fix.  Until Python 3.13 `Path.resolve` raises at a loop of
links, and until 3.14 `Path.exists` raises where a directory may not be entered. -/
structure Host where
  cwd : AbsPath
  maxLinks : ℕ
  loopRaises : Bool
  existsRaises : Bool

namespace Host

variable (os : Host) (fs : Node) (p : PurePath)

/-- Where a path starts. -/
def start : AbsPath := if p.absolute then [] else os.cwd

/-- `path.stat()`. -/
def stat : Except Node.StatError Node := fs.stat os.maxLinks (os.start p) p.parts

/-- `e.errno == ELOOP` -/
def isLoop : Except Node.StatError Node → Bool
  | .error .tooManyLinks => true
  | _ => false

/-- `path.resolve()`: what `realpath` leaves of a loop of links is still one. -/
def resolve : Option AbsPath :=
  let resolved := fs.realpath (os.start p) p.parts
  if os.loopRaises && isLoop (fs.stat os.maxLinks [] resolved) then none else some resolved

/-- `path.exists()`. -/
def exists_ : Option Bool :=
  match os.stat fs p with
  | .ok _ => some true
  | .error .denied => if os.existsRaises then none else some false
  | .error _ => some false

end Host

/-! ## The sentinel -/

structure Sentinel where
  roots : List PurePath
  workspace : Option PurePath
  excludes : List Text
  hashBelowBytes : ℕ

/-- `(st_mtime_ns, st_size, digest)`. -/
structure FileReading where
  mtime : ℤ
  size : ℕ
  digest : Option Bytes
  deriving DecidableEq

/-- The `dict` a snapshot is; `str` tells paths apart. -/
abbrev SentinelState := List (PurePath × FileReading)

namespace Sentinel

variable (s : Sentinel) (os : Host) (fs : Node)

/-- `_is_excluded` -/
def isExcluded (p : PurePath) : Bool :=
  s.excludes.any fun token =>
    decide (token ∈ splitOnChar 0x2F p.text) || decide (0x2F :: token ++ [0x2F] <:+: p.text) ||
      decide (0x2F :: token <:+ p.text)

/-- `_in_workspace` -/
def inWorkspace (p : PurePath) : Option Bool :=
  match s.workspace with
  | none => some false
  | some w => do
    let here ← os.resolve fs p
    let there ← os.resolve fs w
    return decide (there <+: here)

/-- `_hash`: only a regular file that may be read has a digest. -/
def hash : Node → Option Bytes
  | .file _ content true => some content
  | _ => none

/-- The state entry of what `path.stat()` finds.  A directory is not among the file names. -/
def reading : Node → Option FileReading
  | .file mtime content readable =>
    some ⟨mtime, content.length,
      if content.length ≤ s.hashBelowBytes then hash (.file mtime content readable) else none⟩
  | .special mtime size => some ⟨mtime, size, none⟩
  | _ => none

/-- The loop body over one of the file names. -/
def readName (p : PurePath) : Option SentinelState :=
  if s.isExcluded p then some []
  else do
    if ← s.inWorkspace os fs p then return []
    match os.stat fs p with
    | .error _ => return []
    | .ok n => return ((s.reading n).map fun r => (p, r)).toList

/-- `entry.is_dir()` of a link: the kernel follows it. -/
def leadsToDirectory (p : PurePath) : Bool :=
  match os.stat fs p with
  | .ok (.directory _ _ _) => true
  | _ => false

mutual

/-- One directory of `os.walk(root)` and all below it; links to directories are not entered, and a
directory that cannot be listed is passed over. -/
def walk (p : PurePath) : Node → Option SentinelState
  | .directory readable _ entries =>
    if readable then
      if s.isExcluded p then some []
      else do
        if ← s.inWorkspace os fs p then return []
        walkEntries p entries
    else some []
  | _ => some []

def walkEntries (p : PurePath) : List (Text × Node) → Option SentinelState
  | [] => some []
  | (name, n) :: rest => do
    let here ←
      match n with
      | .directory _ _ _ =>
        if s.isExcluded (p.joinpath name) then some [] else walk (p.joinpath name) n
      | .link _ =>
        if leadsToDirectory os fs (p.joinpath name) then some []
        else s.readName os fs (p.joinpath name)
      | _ => s.readName os fs (p.joinpath name)
    let others ← walkEntries p rest
    return here ++ others

end

/-- One watched root. -/
def walkRoot (root : PurePath) : Option SentinelState := do
  if ← os.exists_ fs root then
    match os.stat fs root with
    | .ok n => s.walk os fs root n
    | .error _ => return []
  else return []

def walkRoots : List PurePath → Option SentinelState
  | [] => some []
  | root :: rest => do
    let here ← s.walkRoot os fs root
    let others ← walkRoots rest
    return here ++ others

/-- `snapshot`; a path reached from two roots is one key. -/
def snapshot : Option SentinelState := (s.walkRoots os fs s.roots).map List.dedup

/-! ## The comparison -/

inductive Drift
  | added
  | modified
  | removed
  | unverified
  deriving DecidableEq

def Drift.text : Drift → Text
  | .added => "added"
  | .modified => "modified"
  | .removed => "removed"
  | .unverified => "unverified"

structure Violation where
  path : Text
  kind : Drift
  deriving DecidableEq

/-- What the loop over the later state makes of an entry. -/
def drift (previous : Option FileReading) (entry : FileReading) : Option Drift :=
  match previous with
  | none => some .added
  | some previous =>
    if entry.digest = none ∧ entry.size ≤ s.hashBelowBytes then some .unverified
    else if previous = entry then none
    else if previous.digest ≠ none ∧ entry.digest ≠ none ∧ previous.digest = entry.digest then none
    else if previous.size = entry.size ∧ previous.digest = none ∧ entry.digest = none then
      some .modified
    else some .modified

/-- `state.get(path)` -/
def entryAt (state : SentinelState) (p : PurePath) : Option FileReading :=
  (state.find? fun e => e.1 = p).map Prod.snd

/-- `key=lambda item: (item.kind, item.path)` -/
def Violation.precedes (a b : Violation) : Bool :=
  if a.kind = b.kind then textLe a.path b.path else textLe a.kind.text b.kind.text

/-- `compare` -/
def compare (before : SentinelState) : Option (List Violation) := do
  let after ← s.snapshot os fs
  let found := after.filterMap fun e =>
    (s.drift (entryAt before e.1) e.2).map fun kind => (⟨e.1.text, kind⟩ : Violation)
  let gone := before.filterMap fun e =>
    if (entryAt after e.1).isNone then some (⟨e.1.text, .removed⟩ : Violation) else none
  return (found ++ gone).insertionSort fun a b => a.precedes b = true

end Sentinel

end AgentOrch
