import AgentOrch.Construction.Containment
import Mathlib.Data.List.Perm.Basic

/-!
# What the sentinel sees

The walk sees a name when it comes to it through directories that can be listed, are not excluded
and not in the workspace, and the name itself is neither, leads to no directory and can be followed.
So a change is reported exactly when some path is seen in one of the two states with a reading that
the other does not confirm.  Links to directories, links that lead nowhere and links into the
workspace are entries the walk comes to and does not see.
-/

namespace AgentOrch

open Py

namespace Sentinel

section
variable (s : Sentinel) (os : Host) (fs : Node)

/-! ## Seeing -/

/-- The entry is one of the file names of its directory. -/
def IsName (p : PurePath) : Node → Prop
  | .directory _ _ _ => False
  | .link _ => leadsToDirectory os fs p = false
  | _ => True

/-- From a node at a path, the walk comes to another one, and asks whether that is in the
workspace. -/
inductive Visits : PurePath → Node → PurePath → Node → Prop
  | directory {p : PurePath} {searchable : Bool} {entries : List (Text × Node)}
      (hout : s.isExcluded p = false) :
      Visits p (.directory true searchable entries) p (.directory true searchable entries)
  | name {p : PurePath} {searchable : Bool} {entries : List (Text × Node)} {name : Text} {n : Node}
      (hout : s.isExcluded p = false) (hoff : s.inWorkspace os fs p = some false)
      (hmem : (name, n) ∈ entries) (hname : IsName os fs (p.joinpath name) n)
      (hnameout : s.isExcluded (p.joinpath name) = false) :
      Visits p (.directory true searchable entries) (p.joinpath name) n
  | deeper {p q : PurePath} {searchable r x : Bool} {entries es : List (Text × Node)} {name : Text}
      {m : Node} (hout : s.isExcluded p = false) (hoff : s.inWorkspace os fs p = some false)
      (hmem : (name, .directory r x es) ∈ entries)
      (h : Visits (p.joinpath name) (.directory r x es) q m) :
      Visits p (.directory true searchable entries) q m

def isDirectory : Node → Bool
  | .directory _ _ _ => true
  | _ => false

/-- The walk comes to a file name. -/
def Watched (p : PurePath) : Prop :=
  ∃ root ∈ s.roots, ∃ n, os.stat fs root = .ok n ∧
    ∃ m, Visits s os fs root n p m ∧ isDirectory m = false

/-- What there is to read at a path outside the workspace. -/
def Reads (p : PurePath) (r : FileReading) : Prop :=
  s.inWorkspace os fs p = some false ∧ ∃ n, os.stat fs p = .ok n ∧ s.reading n = some r

/-- The walk sees the path with this reading. -/
def Sees (p : PurePath) (r : FileReading) : Prop := Watched s os fs p ∧ Reads s os fs p r

/-- The walk comes to a path it cannot resolve, or a root it cannot reach. -/
def Fails : Prop :=
  ∃ root ∈ s.roots, (os.existsRaises = true ∧ os.stat fs root = .error .denied) ∨
    ∃ n, os.stat fs root = .ok n ∧
      ∃ p m, Visits s os fs root n p m ∧ s.inWorkspace os fs p = none

/-- The later reading does not confirm the earlier one: it lacks a digest it should have, or is
another one without the same digest. -/
def Differs (r r' : FileReading) : Prop :=
  (r'.digest = none ∧ r'.size ≤ s.hashBelowBytes) ∨
    (r ≠ r' ∧ ¬(r.digest ≠ none ∧ r.digest = r'.digest))

/-- Some path is seen in one of the two states with a reading the other does not confirm. -/
inductive Noticed (fs' : Node) : Prop
  | appeared {p : PurePath} {r : FileReading} (h : Sees s os fs' p r)
      (hbefore : ∀ r, ¬Sees s os fs p r)
  | vanished {p : PurePath} {r : FileReading} (h : Sees s os fs p r)
      (hafter : ∀ r, ¬Sees s os fs' p r)
  | altered {p : PurePath} {r r' : FileReading} (h : Sees s os fs p r) (h' : Sees s os fs' p r')
      (hdiffers : s.Differs r r')

end

/-! ## The walk -/

section
variable {s : Sentinel} {os : Host} {fs : Node}

/-- A walk fails on a condition, and otherwise records what is read at these paths. -/
structure Records (s : Sentinel) (os : Host) (fs : Node) (result : Option SentinelState)
    (fails : Prop) (names : PurePath → Prop) : Prop where
  fails : result = none ↔ fails
  entries : ∀ st, result = some st → ∀ p r, (p, r) ∈ st ↔ names p ∧ Reads s os fs p r

lemma Records.congr {result : Option SentinelState} {fails fails' : Prop}
    {names names' : PurePath → Prop} (h : Records s os fs result fails names)
    (hfails : fails ↔ fails') (hnames : ∀ p, names p ↔ names' p) :
    Records s os fs result fails' names' := by
  refine ⟨h.fails.trans hfails, ?_⟩
  intro st hst p r
  rw [h.entries st hst p r, hnames p]

lemma Records.nothing {fails : Prop} {names : PurePath → Prop} (hfails : ¬fails)
    (hnames : ∀ p r, names p → ¬Reads s os fs p r) : Records s os fs (some []) fails names := by
  refine ⟨by simp [hfails], ?_⟩
  intro st hst p r
  obtain rfl := Option.some.inj hst
  simp only [List.not_mem_nil, false_iff, not_and]
  exact hnames p r

/-- Two walks, one after the other. -/
lemma Records.append {here others : Option SentinelState} {fails fails' : Prop}
    {names names' : PurePath → Prop} (h : Records s os fs here fails names)
    (h' : Records s os fs others fails' names') :
    Records s os fs (here.bind fun a => others.bind fun b => some (a ++ b)) (fails ∨ fails')
      (fun p => names p ∨ names' p) := by
  constructor
  · rw [← h.fails, ← h'.fails]
    cases here with
    | none => simp
    | some a => cases others <;> simp
  · intro st hst p r
    obtain ⟨a, ha, hst⟩ := Option.bind_eq_some_iff.mp hst
    obtain ⟨b, hb, hst⟩ := Option.bind_eq_some_iff.mp hst
    obtain rfl := Option.some.inj hst
    rw [List.mem_append, h.entries a ha p r, h'.entries b hb p r]
    tauto

/-- A walk that first asks whether a path is in the workspace. -/
lemma Records.ask {p : PurePath} {result : Option SentinelState} {fails : Prop}
    {names : PurePath → Prop} (h : Records s os fs result fails names) :
    Records s os fs
      ((s.inWorkspace os fs p).bind fun inside => if inside = true then some [] else result)
      (s.inWorkspace os fs p = none ∨ s.inWorkspace os fs p = some false ∧ fails)
      (fun q => s.inWorkspace os fs p = some false ∧ names q) := by
  cases hin : s.inWorkspace os fs p with
  | none => exact ⟨by simp, fun st hst => absurd hst (by simp)⟩
  | some inside =>
      cases inside with
      | true => exact .nothing (by simp) (by simp)
      | false => exact h.congr (by simp) (by simp)

/-- The loop body over a file name. -/
lemma readName_records (p : PurePath) :
    Records s os fs (s.readName os fs p)
      (s.isExcluded p = false ∧ s.inWorkspace os fs p = none)
      (fun q => s.isExcluded p = false ∧ q = p) := by
  unfold readName
  cases hex : s.isExcluded p with
  | true => exact .nothing (by simp) (by simp)
  | false =>
      rw [if_neg (by simp)]
      cases hin : s.inWorkspace os fs p with
      | none => exact ⟨by simp, fun st hst => absurd hst (by simp)⟩
      | some inside =>
          cases inside with
          | true =>
              refine .nothing (by simp) ?_
              rintro q r ⟨-, rfl⟩ ⟨hoff, -⟩
              simp [hin] at hoff
          | false =>
              cases hstat : os.stat fs p with
              | error e =>
                  refine .nothing (by simp) ?_
                  rintro q r ⟨-, rfl⟩ ⟨-, n, hn, -⟩
                  simp [hstat] at hn
              | ok n =>
                  refine ⟨by simp, ?_⟩
                  intro st hst q r
                  obtain rfl := Option.some.inj hst
                  simp only [Option.mem_toList, Option.map_eq_some_iff, Prod.mk.injEq]
                  constructor
                  · rintro ⟨r', hr, rfl, rfl⟩
                    exact ⟨⟨trivial, rfl⟩, hin, n, hstat, hr⟩
                  · rintro ⟨⟨-, rfl⟩, -, n', hn', hr⟩
                    rw [hstat] at hn'
                    exact ⟨r, Except.ok.inj hn' ▸ hr, rfl, rfl⟩

/-- What the walk comes to among the entries of a directory. -/
def VisitsIn (s : Sentinel) (os : Host) (fs : Node) (p : PurePath) (entries : List (Text × Node))
    (q : PurePath) (m : Node) : Prop :=
  ∃ e ∈ entries, (IsName os fs (p.joinpath e.1) e.2 ∧ s.isExcluded (p.joinpath e.1) = false ∧
      q = p.joinpath e.1 ∧ m = e.2) ∨
    (isDirectory e.2 = true ∧ Visits s os fs (p.joinpath e.1) e.2 q m)

lemma visitsIn_cons {p q : PurePath} {e : Text × Node} {rest : List (Text × Node)} {m : Node} :
    VisitsIn s os fs p (e :: rest) q m ↔
      VisitsIn s os fs p [e] q m ∨ VisitsIn s os fs p rest q m := by
  simp [VisitsIn]

/-- A directory is visited itself, and what its entries lead to where it is not in the workspace. -/
lemma visits_directory {p q : PurePath} {x : Bool} {entries : List (Text × Node)} {m : Node} :
    Visits s os fs p (.directory true x entries) q m ↔
      s.isExcluded p = false ∧ ((q = p ∧ m = .directory true x entries) ∨
        (s.inWorkspace os fs p = some false ∧ VisitsIn s os fs p entries q m)) := by
  constructor
  · intro h
    cases h with
    | directory hout => exact ⟨hout, .inl ⟨rfl, rfl⟩⟩
    | name hout hoff hmem hname hnameout =>
        exact ⟨hout, .inr ⟨hoff, _, hmem, .inl ⟨hname, hnameout, rfl, rfl⟩⟩⟩
    | deeper hout hoff hmem h => exact ⟨hout, .inr ⟨hoff, _, hmem, .inr ⟨rfl, h⟩⟩⟩
  · rintro ⟨hout, ⟨rfl, rfl⟩ | ⟨hoff, ⟨name, n⟩, hmem, ⟨hname, hnameout, rfl, rfl⟩ | ⟨hdir, h⟩⟩⟩
    · exact .directory hout
    · exact .name hout hoff hmem hname hnameout
    · cases n with
      | directory r x' es => exact .deeper hout hoff hmem h
      | _ => simp [isDirectory] at hdir

/-- Only a directory that can be listed leads anywhere. -/
lemma Visits.listable {p q : PurePath} {n m : Node} (h : Visits s os fs p n q m) :
    ∃ x entries, n = .directory true x entries := by
  cases h with
  | directory => exact ⟨_, _, rfl⟩
  | name => exact ⟨_, _, rfl⟩
  | deeper => exact ⟨_, _, rfl⟩

lemma visitsIn_singleton {p q : PurePath} {e : Text × Node} {m : Node} :
    VisitsIn s os fs p [e] q m ↔
      (IsName os fs (p.joinpath e.1) e.2 ∧ s.isExcluded (p.joinpath e.1) = false ∧
          q = p.joinpath e.1 ∧ m = e.2) ∨
        (isDirectory e.2 = true ∧ Visits s os fs (p.joinpath e.1) e.2 q m) := by
  simp [VisitsIn]

/-- The walk over the entries from here on. -/
def EntriesRecord (s : Sentinel) (os : Host) (fs : Node) (p : PurePath)
    (entries : List (Text × Node)) (result : Option SentinelState) : Prop :=
  Records s os fs result
    (∃ q m, VisitsIn s os fs p entries q m ∧ s.inWorkspace os fs q = none)
    (fun q => ∃ m, VisitsIn s os fs p entries q m ∧ isDirectory m = false)

lemma EntriesRecord.cons {p : PurePath} {e : Text × Node} {rest : List (Text × Node)}
    {here others : Option SentinelState} (h : EntriesRecord s os fs p [e] here)
    (hrest : EntriesRecord s os fs p rest others) :
    EntriesRecord s os fs p (e :: rest)
      (here.bind fun a => others.bind fun b => some (a ++ b)) := by
  have hcons : ∀ q m, VisitsIn s os fs p (e :: rest) q m ↔
      VisitsIn s os fs p [e] q m ∨ VisitsIn s os fs p rest q m := fun q m => visitsIn_cons
  refine (Records.append h hrest).congr ?_ ?_
  · simp only [hcons, or_and_right, exists_or]
  · intro q
    simp only [hcons, or_and_right, exists_or]

/-- A file name is read, and nothing else is visited. -/
lemma EntriesRecord.name {p : PurePath} {name : Text} {n : Node} (hfile : isDirectory n = false)
    (hname : IsName os fs (p.joinpath name) n) :
    EntriesRecord s os fs p [(name, n)] (s.readName os fs (p.joinpath name)) := by
  refine (readName_records (p.joinpath name)).congr ?_ ?_
  · simp only [visitsIn_singleton, hname, hfile]
    constructor
    · rintro ⟨hout, hnone⟩
      exact ⟨_, n, .inl ⟨trivial, hout, rfl, rfl⟩, hnone⟩
    · rintro ⟨q, m, ⟨-, hout, rfl, -⟩ | ⟨hdir, -⟩, hnone⟩
      · exact ⟨hout, hnone⟩
      · cases hdir
  · intro q
    simp only [visitsIn_singleton, hname, hfile]
    constructor
    · rintro ⟨hout, rfl⟩
      exact ⟨n, .inl ⟨trivial, hout, rfl, rfl⟩, hfile⟩
    · rintro ⟨m, ⟨-, hout, rfl, -⟩ | ⟨hdir, -⟩, -⟩
      · exact ⟨hout, rfl⟩
      · cases hdir

/-- A link to a directory is neither read nor entered. -/
lemma EntriesRecord.skipped {p : PurePath} {name target : Text}
    (h : leadsToDirectory os fs (p.joinpath name) = true) :
    EntriesRecord s os fs p [(name, .link target)] (some []) := by
  have hnone : ∀ q m, ¬VisitsIn s os fs p [(name, .link target)] q m := by
    intro q m hvisits
    rcases visitsIn_singleton.mp hvisits with ⟨hname, -⟩ | ⟨hdir, -⟩
    · exact absurd (h.symm.trans hname) (by simp)
    · cases hdir
  refine .nothing ?_ ?_
  · rintro ⟨q, m, hvisits, -⟩
    exact hnone q m hvisits
  · rintro q r ⟨m, hvisits, -⟩
    exact absurd hvisits (hnone q m)

/-- A directory is walked. -/
lemma EntriesRecord.directory {p : PurePath} {name : Text} {n : Node}
    {result : Option SentinelState} (hdir : isDirectory n = true)
    (h : Records s os fs result
      (∃ q m, Visits s os fs (p.joinpath name) n q m ∧ s.inWorkspace os fs q = none)
      (fun q => ∃ m, Visits s os fs (p.joinpath name) n q m ∧ isDirectory m = false)) :
    EntriesRecord s os fs p [(name, n)] result := by
  have hvisits : ∀ q m, VisitsIn s os fs p [(name, n)] q m ↔
      Visits s os fs (p.joinpath name) n q m := by
    intro q m
    rw [visitsIn_singleton]
    constructor
    · rintro (⟨hname, -⟩ | ⟨-, h⟩)
      · cases n with
        | directory => cases hname
        | _ => simp [isDirectory] at hdir
      · exact h
    · exact fun h => .inr ⟨hdir, h⟩
  refine h.congr ?_ ?_
  · simp only [hvisits]
  · simp only [hvisits, implies_true]

/-- Below an excluded directory nothing is visited. -/
lemma not_visits_of_excluded {p q : PurePath} {n m : Node} (hex : s.isExcluded p = true) :
    ¬Visits s os fs p n q m := by
  intro h
  cases h with
  | directory hout => exact absurd (hex.symm.trans hout) (by simp)
  | name hout => exact absurd (hex.symm.trans hout) (by simp)
  | deeper hout => exact absurd (hex.symm.trans hout) (by simp)

mutual

lemma walk_records (p : PurePath) : (n : Node) → Records s os fs (s.walk os fs p n)
    (∃ q m, Visits s os fs p n q m ∧ s.inWorkspace os fs q = none)
    (fun q => ∃ m, Visits s os fs p n q m ∧ isDirectory m = false)
  | .file _ _ _ | .special _ _ | .link _ => by
      refine .nothing ?_ ?_
      · rintro ⟨q, m, h, -⟩
        obtain ⟨x, entries, heq⟩ := h.listable
        cases heq
      · rintro q r ⟨m, h, -⟩
        obtain ⟨x, entries, heq⟩ := h.listable
        cases heq
  | .directory false _ _ => by
      refine .nothing ?_ ?_
      · rintro ⟨q, m, h, -⟩
        obtain ⟨x, entries, heq⟩ := h.listable
        cases heq
      · rintro q r ⟨m, h, -⟩
        obtain ⟨x, entries, heq⟩ := h.listable
        cases heq
  | .directory true x entries => by
      cases hex : s.isExcluded p with
      | true =>
          rw [walk, if_pos rfl, if_pos hex]
          exact .nothing (by simp [visits_directory, hex]) (by simp [visits_directory, hex])
      | false =>
          rw [walk, if_pos rfl, if_neg (by simp [hex])]
          refine (Records.ask (walkEntries_records p entries)).congr ?_ ?_
          · constructor
            · rintro (hnone | ⟨hoff, q, m, h, hnone⟩)
              · exact ⟨p, _, .directory hex, hnone⟩
              · exact ⟨q, m, visits_directory.mpr ⟨hex, .inr ⟨hoff, h⟩⟩, hnone⟩
            · rintro ⟨q, m, h, hnone⟩
              obtain ⟨-, ⟨rfl, -⟩ | ⟨hoff, h⟩⟩ := visits_directory.mp h
              · exact .inl hnone
              · exact .inr ⟨hoff, q, m, h, hnone⟩
          · intro q
            constructor
            · rintro ⟨hoff, m, h, hfile⟩
              exact ⟨m, visits_directory.mpr ⟨hex, .inr ⟨hoff, h⟩⟩, hfile⟩
            · rintro ⟨m, h, hfile⟩
              obtain ⟨-, ⟨-, rfl⟩ | ⟨hoff, h⟩⟩ := visits_directory.mp h
              · simp [isDirectory] at hfile
              · exact ⟨hoff, m, h, hfile⟩

lemma walkEntries_records (p : PurePath) : (entries : List (Text × Node)) →
    EntriesRecord s os fs p entries (s.walkEntries os fs p entries)
  | [] => by
      refine .nothing ?_ ?_
      · simp [VisitsIn]
      · simp [VisitsIn]
  | (name, .directory r x es) :: rest => by
      have hrest := walkEntries_records p rest
      have hdir : isDirectory (.directory r x es) = true := rfl
      rw [walkEntries]
      cases hex : s.isExcluded (p.joinpath name) with
      | true =>
          refine EntriesRecord.cons (EntriesRecord.directory hdir (.nothing ?_ ?_)) hrest
          · rintro ⟨q, m, h, -⟩
            exact not_visits_of_excluded hex h
          · rintro q r ⟨m, h, -⟩
            exact absurd h (not_visits_of_excluded hex)
      | false =>
          have hwalk := walk_records (p.joinpath name) (.directory r x es)
          exact EntriesRecord.cons (EntriesRecord.directory hdir hwalk) hrest
  | (name, .link target) :: rest => by
      have hrest := walkEntries_records p rest
      rw [walkEntries]
      cases hlead : leadsToDirectory os fs (p.joinpath name) with
      | true => exact EntriesRecord.cons (.skipped hlead) hrest
      | false => exact EntriesRecord.cons (.name rfl hlead) hrest
  | (name, .file _ _ _) :: rest => by
      have hrest := walkEntries_records p rest
      rw [walkEntries]
      · exact EntriesRecord.cons (.name rfl trivial) hrest
      · simp
      · simp
  | (name, .special _ _) :: rest => by
      have hrest := walkEntries_records p rest
      rw [walkEntries]
      · exact EntriesRecord.cons (.name rfl trivial) hrest
      · simp
      · simp

end

/-! ## The snapshot -/

/-- One root: it cannot be reached, or is walked. -/
lemma walkRoot_records (root : PurePath) : Records s os fs (s.walkRoot os fs root)
    ((os.existsRaises = true ∧ os.stat fs root = .error .denied) ∨
      ∃ n, os.stat fs root = .ok n ∧
        ∃ p m, Visits s os fs root n p m ∧ s.inWorkspace os fs p = none)
    (fun p => ∃ n, os.stat fs root = .ok n ∧
      ∃ m, Visits s os fs root n p m ∧ isDirectory m = false) := by
  cases hstat : os.stat fs root with
  | ok n =>
      have hwalk : s.walkRoot os fs root = s.walk os fs root n := by
        simp [walkRoot, Host.exists_, hstat]
      rw [hwalk]
      exact (walk_records root n).congr (by simp) (by simp)
  | error e =>
      cases e with
      | denied =>
          cases hraises : os.existsRaises with
          | true =>
              have hwalk : s.walkRoot os fs root = none := by
                simp [walkRoot, Host.exists_, hstat, hraises]
              rw [hwalk]
              exact ⟨by simp, fun st hst => absurd hst (by simp)⟩
          | false =>
              have hwalk : s.walkRoot os fs root = some [] := by
                simp [walkRoot, Host.exists_, hstat, hraises]
              rw [hwalk]
              exact .nothing (by simp) (by simp)
      | _ =>
          have hwalk : s.walkRoot os fs root = some [] := by
            simp [walkRoot, Host.exists_, hstat]
          rw [hwalk]
          exact .nothing (by simp) (by simp)

lemma walkRoots_records (roots : List PurePath) : Records s os fs (s.walkRoots os fs roots)
    (∃ root ∈ roots, (os.existsRaises = true ∧ os.stat fs root = .error .denied) ∨
      ∃ n, os.stat fs root = .ok n ∧
        ∃ p m, Visits s os fs root n p m ∧ s.inWorkspace os fs p = none)
    (fun p => ∃ root ∈ roots, ∃ n, os.stat fs root = .ok n ∧
      ∃ m, Visits s os fs root n p m ∧ isDirectory m = false) := by
  induction roots with
  | nil => exact .nothing (by simp) (by simp)
  | cons root rest ih =>
      refine ((walkRoot_records root).append ih).congr ?_ ?_
      · simp only [List.mem_cons, exists_eq_or_imp]
      · intro p
        simp only [List.mem_cons, exists_eq_or_imp]

/-- A snapshot fails where the walk does, and otherwise holds what is seen. -/
lemma snapshot_records : Records s os fs (s.snapshot os fs) (Fails s os fs) (Watched s os fs) := by
  have h : Records s os fs (s.walkRoots os fs s.roots) _ _ := walkRoots_records s.roots
  constructor
  · rw [snapshot, Option.map_eq_none_iff, h.fails]
    rfl
  · intro st hst p r
    obtain ⟨entries, hentries, rfl⟩ := Option.map_eq_some_iff.mp hst
    rw [List.mem_dedup, h.entries entries hentries p r]
    rfl

lemma mem_snapshot {st : SentinelState} (hst : s.snapshot os fs = some st) {p : PurePath}
    {r : FileReading} : (p, r) ∈ st ↔ Sees s os fs p r :=
  snapshot_records.entries st hst p r

/-- What is read at a path is one reading. -/
lemma Sees.unique {p : PurePath} {r r' : FileReading} (h : Sees s os fs p r)
    (h' : Sees s os fs p r') : r = r' := by
  obtain ⟨-, -, n, hn, hr⟩ := h
  obtain ⟨-, -, n', hn', hr'⟩ := h'
  rw [hn] at hn'
  rw [← Except.ok.inj hn', hr] at hr'
  exact Option.some.inj hr'

/-- The entry of a path is what is seen there. -/
lemma entryAt_eq_some {st : SentinelState} (hst : s.snapshot os fs = some st) {p : PurePath}
    {r : FileReading} : entryAt st p = some r ↔ Sees s os fs p r := by
  rw [entryAt, Option.map_eq_some_iff]
  constructor
  · rintro ⟨⟨q, r'⟩, hfind, rfl⟩
    obtain rfl : q = p := by simpa using List.find?_some hfind
    exact (mem_snapshot hst).mp (List.mem_of_find?_eq_some hfind)
  · intro h
    have hmem := (mem_snapshot hst).mpr h
    cases hfind : st.find? fun e => e.1 = p with
    | none => exact absurd (List.find?_eq_none.mp hfind _ hmem) (by simp)
    | some e =>
        obtain ⟨q, r'⟩ := e
        obtain rfl : q = p := by simpa using List.find?_some hfind
        have h' := (mem_snapshot hst).mp (List.mem_of_find?_eq_some hfind)
        exact ⟨_, rfl, h'.unique h⟩

lemma entryAt_eq_none {st : SentinelState} (hst : s.snapshot os fs = some st) {p : PurePath} :
    entryAt st p = none ↔ ∀ r, ¬Sees s os fs p r := by
  rw [Option.eq_none_iff_forall_ne_some]
  exact forall_congr' fun r => not_congr (entryAt_eq_some hst)

/-! ## The comparison -/

/-- An entry that was there is reported when it does not confirm the earlier one. -/
lemma drift_some {r r' : FileReading} : s.drift (some r) r' = none ↔ ¬s.Differs r r' := by
  unfold drift Differs
  by_cases hlost : r'.digest = none ∧ r'.size ≤ s.hashBelowBytes
  · simp [hlost]
  · by_cases hsame : r = r'
    · simp [hlost, hsame]
    · have hdigest : (r.digest ≠ none ∧ r'.digest ≠ none ∧ r.digest = r'.digest) ↔
          (r.digest ≠ none ∧ r.digest = r'.digest) := by
        constructor
        · rintro ⟨h, -, heq⟩
          exact ⟨h, heq⟩
        · rintro ⟨h, heq⟩
          exact ⟨h, heq ▸ h, heq⟩
      dsimp only
      rw [if_neg hlost, if_neg hsame, ite_self]
      simp only [hdigest, hlost, ne_eq, hsame]
      simp

/-- The comparison answers where the later walk does not fail. -/
lemma compare_eq_none {fs' : Node} {before : SentinelState} :
    s.compare os fs' before = none ↔ Fails s os fs' := by
  rw [← snapshot_records.fails]
  cases hafter : s.snapshot os fs' with
  | none => simp [compare, hafter]
  | some after => simp [compare, hafter]

/-- No violation is found where every entry confirms what was there, and none is gone. -/
lemma compare_eq_nil {fs' : Node} {before after : SentinelState}
    (hafter : s.snapshot os fs' = some after) :
    s.compare os fs' before = some [] ↔
      (∀ e ∈ after, s.drift (entryAt before e.1) e.2 = none) ∧
        ∀ e ∈ before, entryAt after e.1 ≠ none := by
  have hcompare : s.compare os fs' before = some
      (((after.filterMap fun e =>
          (s.drift (entryAt before e.1) e.2).map fun kind => (⟨e.1.text, kind⟩ : Violation)) ++
        before.filterMap fun e =>
          if (entryAt after e.1).isNone then some (⟨e.1.text, .removed⟩ : Violation)
          else none).insertionSort fun a b => a.precedes b = true) := by
    rw [compare, hafter]
    rfl
  have hnil : ∀ l : List Violation,
      l.insertionSort (fun a b => a.precedes b = true) = [] ↔ l = [] := fun l => by
    rw [← List.length_eq_zero_iff, List.length_insertionSort, List.length_eq_zero_iff]
  rw [hcompare, Option.some.injEq, hnil, List.append_eq_nil_iff, List.filterMap_eq_nil_iff,
    List.filterMap_eq_nil_iff]
  simp

/-- The comparison is empty where the two states confirm each other. -/
lemma compare_eq_nil_iff {fs' : Node} {before : SentinelState}
    (hbefore : s.snapshot os fs = some before) (hwalk : ¬Fails s os fs') :
    s.compare os fs' before = some [] ↔ ¬Noticed s os fs fs' := by
  obtain ⟨after, hafter⟩ : ∃ after, s.snapshot os fs' = some after := by
    rw [← snapshot_records.fails] at hwalk
    exact Option.ne_none_iff_exists'.mp hwalk
  rw [compare_eq_nil hafter]
  constructor
  · rintro ⟨hconfirmed, hkept⟩ hnoticed
    cases hnoticed with
    | appeared h hnone =>
        have hdrift := hconfirmed _ ((mem_snapshot hafter).mpr h)
        rw [(entryAt_eq_none hbefore).mpr hnone] at hdrift
        cases hdrift
    | vanished h hnone =>
        exact hkept _ ((mem_snapshot hbefore).mpr h) ((entryAt_eq_none hafter).mpr hnone)
    | altered h h' hdiffers =>
        have hdrift := hconfirmed _ ((mem_snapshot hafter).mpr h')
        rw [(entryAt_eq_some hbefore).mpr h] at hdrift
        exact drift_some.mp hdrift hdiffers
  · intro hquiet
    constructor
    · rintro ⟨p, r'⟩ he
      have h' := (mem_snapshot hafter).mp he
      cases hentry : entryAt before p with
      | none => exact absurd (.appeared h' ((entryAt_eq_none hbefore).mp hentry)) hquiet
      | some r =>
          rw [drift_some]
          intro hdiffers
          exact hquiet (.altered ((entryAt_eq_some hbefore).mp hentry) h' hdiffers)
    · rintro ⟨p, r⟩ he hnone
      exact hquiet (.vanished ((mem_snapshot hbefore).mp he) ((entryAt_eq_none hafter).mp hnone))

end

/-! ## Times -/

section
variable {s : Sentinel} {os : Host} {fs fs' : Node}

lemma stat_of_still (h : fs.still s.hashBelowBytes = fs'.still s.hashBelowBytes) {p : PurePath}
    {n : Node} (hn : os.stat fs p = .ok n) :
    ∃ n', os.stat fs' p = .ok n' ∧ n.still s.hashBelowBytes = n'.still s.hashBelowBytes := by
  have hmap := Node.stat_of_still h os.maxLinks (os.start p) p.parts
  change (os.stat fs p).map _ = (os.stat fs' p).map _ at hmap
  rw [hn] at hmap
  cases hn' : os.stat fs' p with
  | error e => rw [hn'] at hmap; cases hmap
  | ok n' =>
      rw [hn'] at hmap
      exact ⟨n', rfl, Except.ok.inj hmap⟩

lemma isLoop_of_still (h : fs.still s.hashBelowBytes = fs'.still s.hashBelowBytes)
    (p : AbsPath) : Host.isLoop (fs.stat os.maxLinks [] p) =
      Host.isLoop (fs'.stat os.maxLinks [] p) := by
  have hmap : ∀ result : Except Node.StatError Node,
      Host.isLoop (result.map (Node.still s.hashBelowBytes)) = Host.isLoop result := by
    intro result
    cases result <;> rfl
  rw [← hmap, Node.stat_of_still h, hmap]

lemma stat_denied_of_still (h : fs.still s.hashBelowBytes = fs'.still s.hashBelowBytes)
    {p : PurePath} (hdenied : os.stat fs p = .error .denied) : os.stat fs' p = .error .denied := by
  have hmap := Node.stat_of_still h os.maxLinks (os.start p) p.parts
  change (os.stat fs p).map _ = (os.stat fs' p).map _ at hmap
  rw [hdenied] at hmap
  cases hn' : os.stat fs' p with
  | error e =>
      rw [hn'] at hmap
      rw [← Except.error.inj hmap]
  | ok n' => rw [hn'] at hmap; cases hmap

lemma inWorkspace_of_still (h : fs.still s.hashBelowBytes = fs'.still s.hashBelowBytes)
    (p : PurePath) : s.inWorkspace os fs p = s.inWorkspace os fs' p := by
  have hresolve : ∀ q, os.resolve fs q = os.resolve fs' q := by
    intro q
    rw [Host.resolve, Host.resolve, Node.realpath_eq_of_still h]
    simp only [isLoop_of_still h]
  simp only [inWorkspace, hresolve]

lemma leadsToDirectory_of_still (h : fs.still s.hashBelowBytes = fs'.still s.hashBelowBytes)
    (p : PurePath) : leadsToDirectory os fs p = leadsToDirectory os fs' p := by
  cases hn : os.stat fs p with
  | error e =>
      cases hn' : os.stat fs' p with
      | error e' => simp [leadsToDirectory, hn, hn']
      | ok n' =>
          obtain ⟨n, hback, -⟩ := stat_of_still h.symm hn'
          rw [hn] at hback
          cases hback
  | ok n =>
      obtain ⟨n', hn', hstill⟩ := stat_of_still h hn
      cases n <;> cases n' <;> simp [leadsToDirectory, hn, hn', Node.still] at hstill ⊢

lemma isDirectory_of_still {limit : ℕ} {n n' : Node} (h : n.still limit = n'.still limit) :
    isDirectory n = isDirectory n' := by
  cases n <;> cases n' <;> simp [isDirectory, Node.still] at h ⊢

lemma isName_of_still (h : fs.still s.hashBelowBytes = fs'.still s.hashBelowBytes) {p : PurePath}
    {limit : ℕ} {n n' : Node} (hn : n.still limit = n'.still limit) (hname : IsName os fs p n) :
    IsName os fs' p n' := by
  cases n <;> cases n' <;> simp [Node.still] at hn
  · trivial
  · trivial
  · exact (leadsToDirectory_of_still h p).symm.trans hname
  · cases hname

/-- A tree that is the same but for times is a directory with the same names. -/
lemma directory_of_still {limit : ℕ} {r x : Bool} {entries : List (Text × Node)} {n : Node}
    (h : (Node.directory r x entries).still limit = n.still limit) :
    ∃ entries', n = .directory r x entries' ∧
      ∀ name m, (name, m) ∈ entries → ∃ m', (name, m') ∈ entries' ∧
        m.still limit = m'.still limit := by
  cases n with
  | directory r' x' entries' =>
      simp only [Node.still, Node.directory.injEq, Node.stills_eq_map] at h
      obtain ⟨rfl, rfl, hentries⟩ := h
      refine ⟨entries', rfl, ?_⟩
      intro name m hmem
      have hmap : (name, m.still limit) ∈ entries'.map fun e => (e.1, e.2.still limit) := by
        rw [← hentries]
        exact List.mem_map.mpr ⟨(name, m), hmem, rfl⟩
      obtain ⟨⟨name', m'⟩, hmem', heq⟩ := List.mem_map.mp hmap
      obtain ⟨rfl, hstill⟩ := Prod.mk.inj heq
      exact ⟨m', hmem', hstill.symm⟩
  | _ => simp [Node.still] at h

/-- The walk visits the same paths. -/
lemma Visits.of_still (h : fs.still s.hashBelowBytes = fs'.still s.hashBelowBytes)
    {p q : PurePath} {n m n' : Node} (hvisits : Visits s os fs p n q m)
    (hn : n.still s.hashBelowBytes = n'.still s.hashBelowBytes) :
    ∃ m', Visits s os fs' p n' q m' ∧ m.still s.hashBelowBytes = m'.still s.hashBelowBytes := by
  induction hvisits generalizing n' with
  | directory hout =>
      obtain ⟨entries', rfl, -⟩ := directory_of_still hn
      exact ⟨_, .directory hout, hn⟩
  | name hout hoff hmem hname hnameout =>
      obtain ⟨entries', rfl, hentries⟩ := directory_of_still hn
      obtain ⟨m', hmem', hstill⟩ := hentries _ _ hmem
      rw [inWorkspace_of_still h] at hoff
      exact ⟨m', .name hout hoff hmem' (isName_of_still h hstill hname) hnameout, hstill⟩
  | deeper hout hoff hmem _ ih =>
      obtain ⟨entries', rfl, hentries⟩ := directory_of_still hn
      obtain ⟨d, hmem', hstill⟩ := hentries _ _ hmem
      obtain ⟨m', hvisits', heq⟩ := ih hstill
      obtain ⟨es, rfl, -⟩ := directory_of_still hstill
      rw [inWorkspace_of_still h] at hoff
      exact ⟨m', .deeper hout hoff hmem' hvisits', heq⟩

lemma Watched.of_still (h : fs.still s.hashBelowBytes = fs'.still s.hashBelowBytes) {p : PurePath}
    (hp : Watched s os fs p) : Watched s os fs' p := by
  obtain ⟨root, hroot, n, hn, m, hvisits, hfile⟩ := hp
  obtain ⟨n', hn', hstill⟩ := stat_of_still h hn
  obtain ⟨m', hvisits', heq⟩ := hvisits.of_still h hstill
  exact ⟨root, hroot, n', hn', m', hvisits', isDirectory_of_still heq ▸ hfile⟩

lemma Fails.of_still (h : fs.still s.hashBelowBytes = fs'.still s.hashBelowBytes)
    (hfails : Fails s os fs) : Fails s os fs' := by
  obtain ⟨root, hroot, ⟨hraises, hdenied⟩ | ⟨n, hn, p, m, hvisits, hnone⟩⟩ := hfails
  · exact ⟨root, hroot, .inl ⟨hraises, stat_denied_of_still h hdenied⟩⟩
  · obtain ⟨n', hn', hstill⟩ := stat_of_still h hn
    obtain ⟨m', hvisits', -⟩ := hvisits.of_still h hstill
    rw [inWorkspace_of_still h] at hnone
    exact ⟨root, hroot, .inr ⟨n', hn', p, m', hvisits', hnone⟩⟩

/-- Every path the walk comes to outside the workspace is a regular file that may be read. -/
def AllReadable (s : Sentinel) (os : Host) (fs : Node) : Prop :=
  ∀ p, Watched s os fs p → s.inWorkspace os fs p = some false →
    ∃ mtime content, os.stat fs p = .ok (.file mtime content true)

/-- A file that is the same but for a time it may differ in is confirmed. -/
lemma not_differs_of_still {mtime : ℤ} {content : Bytes} {n' : Node} {r r' : FileReading}
    (hn : (Node.file mtime content true).still s.hashBelowBytes = n'.still s.hashBelowBytes)
    (hr : s.reading (.file mtime content true) = some r) (hr' : s.reading n' = some r') :
    ¬s.Differs r r' := by
  cases n' with
  | file mtime' content' readable' =>
      simp only [Node.still, Node.file.injEq] at hn
      obtain ⟨htime, rfl, rfl⟩ := hn
      simp only [reading, hash, Option.some.injEq] at hr hr'
      subst hr hr'
      by_cases hsize : content.length ≤ s.hashBelowBytes
      · simp [Differs, hsize]
      · simp only [hsize, ↓reduceIte] at htime
        simp [Differs, hsize, htime]
  | _ => simp [Node.still] at hn

/-- Where only times of hashed files change, nothing is noticed. -/
lemma not_noticed_of_still (h : fs.still s.hashBelowBytes = fs'.still s.hashBelowBytes)
    (hreadable : AllReadable s os fs) : ¬Noticed s os fs fs' := by
  have hreads : ∀ {f f' : Node}, f.still s.hashBelowBytes = f'.still s.hashBelowBytes →
      ∀ {p : PurePath} {r : FileReading}, Sees s os f p r → ∃ r', Sees s os f' p r' := by
    intro f f' hf p r hsees
    obtain ⟨hwatched, hoff, n, hn, hr⟩ := hsees
    obtain ⟨n', hn', hstill⟩ := stat_of_still hf hn
    have hwatched' := hwatched.of_still hf
    rw [inWorkspace_of_still hf] at hoff
    cases n <;> cases n' <;> simp [Node.still, reading] at hstill hr
    · exact ⟨_, hwatched', hoff, _, hn', rfl⟩
    · exact ⟨_, hwatched', hoff, _, hn', rfl⟩
  intro hnoticed
  cases hnoticed with
  | appeared hsees hnone =>
      obtain ⟨r, hsees'⟩ := hreads h.symm hsees
      exact hnone r hsees'
  | vanished hsees hnone =>
      obtain ⟨r, hsees'⟩ := hreads h hsees
      exact hnone r hsees'
  | altered hsees hsees' hdiffers =>
      obtain ⟨hwatched, hoff, n, hn, hr⟩ := hsees
      obtain ⟨-, -, n', hn', hr'⟩ := hsees'
      obtain ⟨mtime, content, hfile⟩ := hreadable _ hwatched hoff
      rw [hn] at hfile
      obtain rfl := Except.ok.inj hfile
      obtain ⟨n'', hn'', hstill⟩ := stat_of_still h hn
      rw [hn'] at hn''
      obtain rfl := Except.ok.inj hn''
      exact not_differs_of_still hstill hr hr' hdiffers

end

/-! ## Changes -/

section
variable (s : Sentinel) (os : Host) (fs fs' : Node)

/-- The entry of a path and where it is located; a link at its end is not followed. -/
def lstat (p : PurePath) : Option (AbsPath × Node) :=
  match Node.follow fs.look os.maxLinks (os.start p) p.parts.dropLast, p.parts.getLast? with
  | .ok directory, some name =>
    (fs.lookup (directory ++ [name])).map fun n => (directory ++ [name], n)
  | _, _ => none

/-- The entry of a root, or one in the tree below it. -/
def treeEntry (root : PurePath) : List Text → Option (AbsPath × Node)
  | [] => lstat os fs root
  | names =>
    match Node.follow fs.look os.maxLinks (os.start root) root.parts with
    | .ok directory => (fs.lookup (directory ++ names)).map fun n => (directory ++ names, n)
    | .error _ => none

/-- An entry of interest: a regular file or a link. -/
inductive EntryKind
  | regular
  | link (target : Text)
  deriving DecidableEq

def entryKind : Option (AbsPath × Node) → Option EntryKind
  | some (_, .file _ _ _) => some .regular
  | some (_, .link target) => some (.link target)
  | _ => none

/-- The entry is not located in the workspace. -/
def Outside (entry : Option (AbsPath × Node)) : Prop :=
  ∀ w, s.workspace = some w → ∀ directory,
    Node.follow fs.look os.maxLinks (os.start w) w.parts = .ok directory →
      ∀ e, entry = some e → ¬directory <+: e.1

/-- A file or link at a watched path, neither excluded nor in the workspace, is added, removed or
retargeted, or a file that was hashed has another content. -/
structure ChangedAt (root : PurePath) (names : List Text) : Prop where
  watched : root ∈ s.roots
  included : s.isExcluded (names.foldl PurePath.joinpath root) = false
  before : Outside s os fs (treeEntry os fs root names)
  after : Outside s os fs' (treeEntry os fs' root names)
  changed : entryKind (treeEntry os fs root names) ≠ entryKind (treeEntry os fs' root names) ∨
    ∃ r content, Sees s os fs (names.foldl PurePath.joinpath root) r ∧ r.digest = some content ∧
      content.length ≤ s.hashBelowBytes ∧
      ∃ e e' mtime mtime' content' readable readable',
        treeEntry os fs root names = some (e, .file mtime content readable) ∧
          treeEntry os fs' root names = some (e', .file mtime' content' readable') ∧
            content ≠ content'

/-- Something of interest changed. -/
def Changed : Prop := ∃ root names, ChangedAt s os fs fs' root names

/-- A change is reported, and nothing is where only times of hashed files change. -/
structure Detects : Prop where
  changes : ∀ before, s.snapshot os fs = some before → Changed s os fs fs' →
    ∃ v rest, s.compare os fs' before = some (v :: rest)
  quiet : ∀ before, s.snapshot os fs = some before → AllReadable s os fs →
    fs.still s.hashBelowBytes = fs'.still s.hashBelowBytes → s.compare os fs' before = some []

end

/-- A root `/r` beside a workspace `/w` and a directory `/d`. -/
def linkSentinel : Sentinel where
  roots := [PurePath.ofText "/r"]
  workspace := some (PurePath.ofText "/w")
  excludes := []
  hashBelowBytes := 16777216

def linkHost : Host := ⟨[], 40, true, true⟩

/-- The file system with these entries below the root. -/
def linkTree (entries : List (Text × Node)) : Node :=
  .directory true true [("r", .directory true true entries), ("w", .directory true true []),
    ("d", .directory true true [])]

def linked : List (Text × Node) := [("a", .file 1 [] true), ("l", .link "/d")]

/-- The link is an entry of interest outside the workspace that was not there before. -/
lemma changed_linked : Changed linkSentinel linkHost (linkTree [("a", .file 1 [] true)])
    (linkTree linked) := by
  have hworkspace : Node.follow (linkTree linked).look 40 [] ["w"] = .ok ["w"] := by rfl
  have hbefore : treeEntry linkHost (linkTree [("a", .file 1 [] true)])
      (PurePath.ofText "/r") ["l"] = none := by rfl
  have hafter : treeEntry linkHost (linkTree linked) (PurePath.ofText "/r") ["l"] =
      some ((["r", "l"] : AbsPath), .link "/d") := by rfl
  refine ⟨PurePath.ofText "/r", ["l"], ⟨List.mem_singleton.mpr rfl, rfl, ?_, ?_, .inl ?_⟩⟩
  · intro w _ directory _ e he
    rw [hbefore] at he
    cases he
  · intro w hw directory hdirectory e he
    obtain rfl := Option.some.inj hw
    rw [hafter] at he
    obtain rfl := Option.some.inj he
    have hw : directory = ["w"] := (Except.ok.inj (hworkspace.symm.trans hdirectory)).symm
    rw [hw]
    decide
  · rw [hbefore, hafter]
    decide

end Sentinel

end AgentOrch
