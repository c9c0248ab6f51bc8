import AgentOrch.Framework.PosixPath
import AgentOrch.Framework.Utf8

/-!
# A file system with symbolic links

A tree of directories, and the two ways a path is resolved in it.  The kernel follows links up to a
limit and needs every directory on the way (`Node.follow`).  `os.path.realpath` follows them without
a limit, steps over what is missing, and stops at a link it is already following
(`Node.joinRealpath`).  Both look at nothing but links and directories: `Node.look`.
-/

namespace AgentOrch.Py

/-- What stands under a name.  A directory may refuse to be listed or to be entered, a file to be
read. -/
inductive Node
  | file (mtime : ℤ) (content : Bytes) (readable : Bool)
  | special (mtime : ℤ) (size : ℕ)
  | link (target : Text)
  | directory (readable searchable : Bool) (entries : List (Text × Node))

/-- The names on the way down from the root. -/
abbrev AbsPath := List Text

namespace Node

/-- The node at a path of names; no link is followed. -/
def lookup : Node → AbsPath → Option Node
  | n, [] => some n
  | .directory _ _ entries, c :: rest =>
    match entries.find? fun p => p.1 = c with
    | some p => p.2.lookup rest
    | none => none
  | _, _ :: _ => none

/-- What path resolution sees of a node. -/
inductive Look
  | link (target : Text)
  | directory (searchable : Bool)
  | other
  deriving DecidableEq

def kind : Node → Look
  | .link target => .link target
  | .directory _ searchable _ => .directory searchable
  | _ => .other

def look (fs : Node) (p : AbsPath) : Option Look := (fs.lookup p).map kind

/-! ## The kernel -/

inductive StatError
  | missing
  | notDirectory
  | denied
  | tooManyLinks
  deriving DecidableEq

/-- Where a path leads before the next link. -/
inductive Stop
  | reached (p : AbsPath)
  | failed (e : StatError)
  | atLink (base : AbsPath) (target : Text) (rest : List Text)

/-- Go from one directory to the next, up to the first link. -/
def advance (see : AbsPath → Option Look) : AbsPath → List Text → Stop
  | cur, [] => .reached cur
  | cur, c :: rest =>
    match see cur with
    | none => .failed .missing
    | some (.directory true) =>
      if c = [] ∨ c = ("." : Text) then advance see cur rest
      else if c = (".." : Text) then advance see cur.dropLast rest
      else match see (cur ++ [c]) with
        | none => .failed .missing
        | some (.link target) => .atLink cur target rest
        | some _ => advance see (cur ++ [c]) rest
    | some (.directory false) => .failed .denied
    | some _ => .failed .notDirectory

/-- The parts of a link's target, a trailing slash included. -/
def targetParts (target : Text) : List Text := splitOnChar 0x2F target

/-- Where a link's target begins. -/
def targetBase (base : AbsPath) (target : Text) : AbsPath :=
  if target.head? = some 0x2F then [] else base

/-- Resolve a path, following at most so many links. -/
def follow (see : AbsPath → Option Look) : ℕ → AbsPath → List Text → Except StatError AbsPath
  | links, cur, rest =>
    match advance see cur rest with
    | .reached p => .ok p
    | .failed e => .error e
    | .atLink base target rest =>
      match links with
      | 0 => .error .tooManyLinks
      | links + 1 => follow see links (targetBase base target) (targetParts target ++ rest)

/-- `os.stat` of a path from a directory, where the kernel follows so many links. -/
def stat (fs : Node) (links : ℕ) (base : AbsPath) (parts : List Text) : Except StatError Node :=
  match follow fs.look links base parts with
  | .error e => .error e
  | .ok p => (fs.lookup p).elim (.error .missing) .ok

/-! ## `os.path.realpath` -/

mutual

/-- How many links there are. -/
def linkCount : Node → ℕ
  | .link _ => 1
  | .directory _ _ entries => linkCounts entries
  | _ => 0

def linkCounts : List (Text × Node) → ℕ
  | [] => 0
  | (_, n) :: rest => n.linkCount + linkCounts rest

end

/-- `os.lstat`, for the path of a directory that is resolved and a name in it: an entry is seen
where every directory above may be entered. -/
def lookThrough (see : AbsPath → Option Look) (p : AbsPath) : Option Look :=
  if p.inits.dropLast.all fun q => decide (see q = some (.directory true)) then see p else none

/-- `_joinrealpath`, where `into` resolves the target of a link.  The error is the path that is left
unresolved at a loop. -/
def joinRealpath (see : AbsPath → Option Look) (active : List AbsPath)
    (into : AbsPath → AbsPath → Text → Except (List Text) AbsPath) :
    AbsPath → List Text → Except (List Text) AbsPath
  | cur, [] => .ok cur
  | cur, c :: rest =>
    if c = [] ∨ c = ("." : Text) then joinRealpath see active into cur rest
    else if c = (".." : Text) then joinRealpath see active into cur.dropLast rest
    else match lookThrough see (cur ++ [c]) with
      | some (.link target) =>
        if cur ++ [c] ∈ active then .error (cur ++ c :: rest)
        else match into (cur ++ [c]) cur target with
          | .ok p => joinRealpath see active into p rest
          | .error p => .error (p ++ rest)
      | _ => joinRealpath see active into (cur ++ [c]) rest

/-- Links nest no deeper than there are links, unless one is in a loop. -/
def realpathFrom (see : AbsPath → Option Look) : ℕ → List AbsPath → AbsPath → List Text →
    Except (List Text) AbsPath
  | 0, active => joinRealpath see active fun link _ _ => .error link
  | depth + 1, active => joinRealpath see active fun link base target =>
      realpathFrom see depth (link :: active) (targetBase base target) (targetParts target)

/-- `os.path.abspath` of the parts of an absolute path. -/
def collapse (parts : List Text) : AbsPath :=
  (parts.filter fun c => c ≠ [] ∧ c ≠ ("." : Text)).foldl PurePath.enter []

/-- `os.path.realpath` of a path from a directory. -/
def realpath (fs : Node) (base : AbsPath) (parts : List Text) : AbsPath :=
  match realpathFrom fs.look fs.linkCount [] base parts with
  | .ok p => p
  | .error p => collapse p

/-! ## Times of modification -/

mutual

/-- The tree without the times of its files up to a size. -/
def still (limit : ℕ) : Node → Node
  | .file mtime content readable =>
    .file (if content.length ≤ limit then 0 else mtime) content readable
  | .directory readable searchable entries => .directory readable searchable (stills limit entries)
  | n => n

def stills (limit : ℕ) : List (Text × Node) → List (Text × Node)
  | [] => []
  | (name, n) :: rest => (name, n.still limit) :: stills limit rest

end

variable {limit : ℕ} {fs fs' : Node}

lemma stills_eq_map (entries : List (Text × Node)) :
    stills limit entries = entries.map fun e => (e.1, e.2.still limit) := by
  induction entries with
  | nil => rfl
  | cons e rest ih => rw [stills, ih, List.map_cons]

lemma kind_still (n : Node) : (n.still limit).kind = n.kind := by
  cases n <;> rfl

lemma lookup_still (p : AbsPath) : (fs.still limit).lookup p = (fs.lookup p).map (still limit) := by
  induction p generalizing fs with
  | nil => rfl
  | cons c rest ih =>
      cases fs with
      | directory r x entries =>
          rw [still, lookup, lookup, stills_eq_map, List.find?_map]
          cases hfind : entries.find? fun e => e.1 = c with
          | none =>
              have hnone : entries.find? ((fun e : Text × Node => decide (e.1 = c)) ∘
                  fun e => (e.1, e.2.still limit)) = none := hfind
              rw [hnone]
              rfl
          | some e =>
              have hsome : entries.find? ((fun e : Text × Node => decide (e.1 = c)) ∘
                  fun e => (e.1, e.2.still limit)) = some e := hfind
              rw [hsome]
              exact ih
      | _ => rfl

/-- Path resolution does not see a time. -/
lemma look_still (limit : ℕ) (fs : Node) : (fs.still limit).look = fs.look := by
  funext p
  rw [look, lookup_still, Option.map_map, look]
  exact congrArg (fun f => (fs.lookup p).map f) (funext kind_still)

mutual

lemma linkCount_still (limit : ℕ) : (n : Node) → (n.still limit).linkCount = n.linkCount
  | .file _ _ _ => rfl
  | .special _ _ => rfl
  | .link _ => rfl
  | .directory _ _ entries => linkCounts_stills limit entries

lemma linkCounts_stills (limit : ℕ) : (entries : List (Text × Node)) →
    linkCounts (stills limit entries) = linkCounts entries
  | [] => rfl
  | (_, n) :: rest => by
      rw [stills, linkCounts, linkCounts, linkCount_still limit n,
        linkCounts_stills limit rest]

end

lemma look_eq_of_still (h : fs.still limit = fs'.still limit) : fs.look = fs'.look := by
  rw [← look_still limit fs, h, look_still]

lemma realpath_eq_of_still (h : fs.still limit = fs'.still limit) (base : AbsPath)
    (parts : List Text) : fs.realpath base parts = fs'.realpath base parts := by
  have hcount : fs.linkCount = fs'.linkCount := by
    rw [← linkCount_still limit fs, h, linkCount_still]
  rw [realpath, realpath, look_eq_of_still h, hcount]

/-- The same path leads to the same entry, with or without the times. -/
lemma stat_of_still (h : fs.still limit = fs'.still limit) (links : ℕ) (base : AbsPath)
    (parts : List Text) : (fs.stat links base parts).map (still limit) =
      (fs'.stat links base parts).map (still limit) := by
  rw [stat, stat, look_eq_of_still h]
  cases follow fs'.look links base parts with
  | error e => rfl
  | ok p =>
      have hlookup : (fs.lookup p).map (still limit) = (fs'.lookup p).map (still limit) := by
        rw [← lookup_still, ← lookup_still, h]
      have hfound : ∀ o : Option Node,
          (o.elim (.error .missing) .ok : Except StatError Node).map (still limit) =
            (o.map (still limit)).elim (.error .missing) .ok := by
        intro o
        cases o <;> rfl
      dsimp only
      rw [hfound, hfound, hlookup]

end Node

end AgentOrch.Py
