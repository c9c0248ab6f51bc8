import AgentOrch.Construction.Replay
import AgentOrch.Framework.HashChain

/-!
# The trajectory is tamper evident

An event is stored as its one canonical encoding, and its hash covers everything but itself.  So
where SHA-256 tells the hashed encodings apart, the hash of an event determines the stored text of
the event (`text_eq_of_hash_eq`).  The reducer checks that every event names the hash of the one
before it, which makes the events a hash chain: two snapshots with the same head that it does not
call corrupt hold the same texts and decode to the same events.
-/

namespace AgentOrch

open Py Json

namespace Trajectory

variable {pf : Platform}

/-! ## Canonical values -/

/-- A value that normalizing and sorting leave alone. -/
def Canonical (pf : Platform) (v : Value) : Prop :=
  ∃ n, normalize pf v = .ok n ∧ n.sortKeys = v

/-- Text in ASCII. -/
def isAscii (t : Text) : Bool := t.all fun c => c.val < 0x80

lemma nfc_of_isAscii {t : Text} (h : isAscii t = true) : pf.nfc t = t := pf.nfc_ascii t h

mutual

/-- What normalizing returns holds no float and no repeated key. -/
lemma normalize_plain : ∀ {v n : Value}, normalize pf v = .ok n →
    n.floatFree = true ∧ n.wellKeyed = true
  | .null, _, h => by cases h; exact ⟨rfl, rfl⟩
  | .bool _, _, h => by cases h; exact ⟨rfl, rfl⟩
  | .int _, _, h => by cases h; exact ⟨rfl, rfl⟩
  | .float _, _, h => by cases h
  | .str _, _, h => by cases h; exact ⟨rfl, rfl⟩
  | .arr items, n, h => by
      rw [normalize] at h
      cases hitems : normalizeItems pf items with
      | error e => rw [hitems] at h; cases h
      | ok items' =>
          rw [hitems] at h
          cases h
          exact normalizeItems_plain hitems
  | .obj items, n, h => by
      rw [normalize] at h
      cases hitems : normalizePairs pf [] items with
      | error e => rw [hitems] at h; cases h
      | ok items' =>
          rw [hitems] at h
          cases h
          obtain ⟨hfree, hkeyed, hnodup, -⟩ := normalizePairs_plain hitems
          refine ⟨hfree, ?_⟩
          rw [Value.wellKeyed, Bool.and_eq_true, decide_eq_true_eq]
          exact ⟨hnodup, hkeyed⟩

lemma normalizeItems_plain : ∀ {items items' : List Value}, normalizeItems pf items = .ok items' →
    floatFreeItems items' = true ∧ wellKeyedItems items' = true
  | [], _, h => by cases h; exact ⟨rfl, rfl⟩
  | v :: rest, items', h => by
      simp only [normalizeItems, bind_eq_ok] at h
      obtain ⟨n, hn, rest', hrest, h⟩ := h
      cases h
      obtain ⟨hv, hv'⟩ := normalize_plain hn
      obtain ⟨hr, hr'⟩ := normalizeItems_plain hrest
      simp only [floatFreeItems, wellKeyedItems, hv, hv', hr, hr', Bool.and_self, and_self]

lemma normalizePairs_plain : ∀ {seen : List Text} {items items' : List (Text × Value)},
    normalizePairs pf seen items = .ok items' →
      floatFreePairs items' = true ∧ wellKeyedPairs items' = true ∧ (dictKeys items').Nodup ∧
        ∀ k ∈ dictKeys items', k ∉ seen
  | _, [], _, h => by
      cases h
      exact ⟨rfl, rfl, List.nodup_nil, fun _ hk => (nomatch hk)⟩
  | seen, (k, v) :: rest, items', h => by
      rw [normalizePairs] at h
      split at h
      · cases h
      · next hk =>
        simp only [bind_eq_ok] at h
        obtain ⟨n, hn, rest', hrest, h⟩ := h
        cases h
        obtain ⟨hv, hv'⟩ := normalize_plain hn
        obtain ⟨hr, hr', hnodup, hseen⟩ := normalizePairs_plain hrest
        refine ⟨by simp [floatFreePairs, hv, hr], by simp [wellKeyedPairs, hv', hr'], ?_, ?_⟩
        · exact List.nodup_cons.mpr ⟨fun hmem => hseen _ hmem List.mem_cons_self, hnodup⟩
        · intro k' hk'
          rcases List.mem_cons.mp hk' with rfl | hk'
          · exact hk
          · exact fun hmem => hseen k' hk' (List.mem_cons_of_mem _ hmem)

end

/-- Normalizing keeps the order of the items, so it takes one item to one item. -/
lemma normalizePairs_map : ∀ {seen : List Text} {items items' : List (Text × Value)},
    normalizePairs pf seen items = .ok items' →
      List.Forall₂ (fun p q => q.1 = pf.nfc p.1 ∧ normalize pf p.2 = .ok q.2) items items'
  | _, [], _, h => by
      cases h
      exact .nil
  | seen, (k, v) :: rest, items', h => by
      rw [normalizePairs] at h
      split at h
      · cases h
      · simp only [bind_eq_ok] at h
        obtain ⟨n, hn, rest', hrest, h⟩ := h
        cases h
        exact .cons ⟨rfl, hn⟩ (normalizePairs_map hrest)

/-- An item on the right of a pairing is paired with one on the left. -/
lemma exists_left_of_mem {α β : Type} {R : α → β → Prop} {xs : List α} {ys : List β}
    (h : List.Forall₂ R xs ys) {y : β} (hy : y ∈ ys) : ∃ x ∈ xs, R x y := by
  induction h with
  | nil => exact absurd hy List.not_mem_nil
  | cons hxy _ ih =>
      rcases List.mem_cons.mp hy with rfl | hy
      · exact ⟨_, List.mem_cons_self, hxy⟩
      · obtain ⟨x, hx, hxy⟩ := ih hy
        exact ⟨x, List.mem_cons_of_mem _ hx, hxy⟩

/-- Items whose keys stay as they are and stay apart normalize one by one. -/
lemma normalizePairs_of_forall {items items' : List (Text × Value)}
    (h : List.Forall₂ (fun p q => q.1 = pf.nfc p.1 ∧ normalize pf p.2 = .ok q.2) items items') :
    ∀ {seen : List Text}, (dictKeys items').Nodup → (∀ k ∈ dictKeys items', k ∉ seen) →
      normalizePairs pf seen items = .ok items' := by
  induction h with
  | nil => intro seen _ _; rfl
  | @cons p q rest rest' hpq _ ih =>
      intro seen hnodup hseen
      obtain ⟨k, v⟩ := p
      obtain ⟨k', n⟩ := q
      obtain ⟨rfl, hv⟩ := hpq
      obtain ⟨hk, hnodup⟩ := List.nodup_cons.mp hnodup
      have hrest := ih hnodup fun l hl (hmem : l ∈ pf.nfc k :: seen) => by
        rcases List.mem_cons.mp hmem with rfl | hmem
        · exact hk hl
        · exact hseen l (List.mem_cons_of_mem _ hl) hmem
      rw [normalizePairs, if_neg (hseen _ List.mem_cons_self), hv, hrest]
      rfl

/-- Canonical values with plain keys come from normalized items in the same order. -/
lemma exists_normalized {items : List (Text × Value)}
    (hascii : ∀ k ∈ dictKeys items, isAscii k = true) (h : ∀ p ∈ items, Canonical pf p.2) :
    ∃ items', List.Forall₂ (fun p q => q.1 = pf.nfc p.1 ∧ normalize pf p.2 = .ok q.2) items items' ∧
      sortPairs items' = items := by
  induction items with
  | nil => exact ⟨[], .nil, rfl⟩
  | cons p rest ih =>
      obtain ⟨k, v⟩ := p
      obtain ⟨rest', hrest, hsorted⟩ := ih (fun l hl => hascii l (List.mem_cons_of_mem _ hl))
        fun q hq => h q (List.mem_cons_of_mem _ hq)
      obtain ⟨n, hn, hv⟩ := h (k, v) List.mem_cons_self
      have hkey : pf.nfc k = k := nfc_of_isAscii (hascii k List.mem_cons_self)
      exact ⟨(k, n) :: rest', .cons ⟨hkey.symm, hn⟩ hrest, by simp only [sortPairs, hv, hsorted]⟩

/-- An object with plain keys is canonical when its keys are in order and apart, and its values are
canonical. -/
lemma canonical_obj {items : List (Text × Value)} (hascii : ∀ k ∈ dictKeys items, isAscii k = true) :
    Canonical pf (.obj items) ↔
      items.Pairwise keyLe ∧ (dictKeys items).Nodup ∧ ∀ p ∈ items, Canonical pf p.2 := by
  constructor
  · rintro ⟨n, hn, hsorted⟩
    rw [normalize] at hn
    cases hpairs : normalizePairs pf [] items with
    | error e => rw [hpairs] at hn; cases hn
    | ok items' =>
        rw [hpairs] at hn
        cases hn
        obtain ⟨-, -, hnodup', -⟩ := normalizePairs_plain hpairs
        have hitems : (sortPairs items').insertionSort keyLe = items := Value.obj.inj hsorted
        have hperm := List.perm_insertionSort keyLe (sortPairs items')
        rw [hitems] at hperm
        have hnodup : (dictKeys items).Nodup := by
          have hkeys := dictKeys_sortPairs items' ▸ hnodup'
          exact (hperm.map Prod.fst).nodup_iff.mpr hkeys
        refine ⟨hitems ▸ List.pairwise_insertionSort keyLe _, hnodup, fun p hp => ?_⟩
        -- `p` comes from an item with the same key, which is `p` itself
        rw [hperm.mem_iff, sortPairs_eq_map, List.mem_map] at hp
        obtain ⟨q, hq, rfl⟩ := hp
        obtain ⟨p, hp, hkey, hvalue⟩ := exists_left_of_mem (normalizePairs_map hpairs) hq
        rw [nfc_of_isAscii (hascii p.1 (List.mem_map_of_mem hp))] at hkey
        have hmem : (q.1, q.2.sortKeys) ∈ items := by
          rw [hperm.mem_iff, sortPairs_eq_map]
          exact List.mem_map_of_mem hq
        have hsame : some q.2.sortKeys = some p.2 := by
          rw [← dictGet_of_mem hnodup hmem, hkey]
          exact dictGet_of_mem hnodup hp
        exact ⟨q.2, (Option.some.inj hsame) ▸ hvalue, rfl⟩
  · rintro ⟨hpairwise, hnodup, hvalues⟩
    obtain ⟨items', hmap, hsorted⟩ := exists_normalized hascii hvalues
    have hnodup' : (dictKeys items').Nodup := by
      rw [← dictKeys_sortPairs, hsorted]
      exact hnodup
    have hpairs := normalizePairs_of_forall hmap hnodup' fun _ _ => List.not_mem_nil
    refine ⟨.obj items', by rw [normalize, hpairs]; rfl, ?_⟩
    rw [Value.sortKeys, hsorted, hpairwise.insertionSort_eq]

/-- Leaving out the hash leaves a canonical document canonical. -/
lemma Canonical.unhashed {items : List (Text × Value)}
    (hascii : ∀ k ∈ dictKeys items, isAscii k = true) (h : Canonical pf (.obj items)) :
    Canonical pf (.obj (Trajectory.unhashed items)) := by
  obtain ⟨hpairwise, hnodup, hvalues⟩ := (canonical_obj hascii).mp h
  have hsub : (Trajectory.unhashed items).Sublist items := List.filter_sublist
  refine (canonical_obj fun k hk => hascii k ((hsub.map Prod.fst).subset hk)).mpr
    ⟨hpairwise.sublist hsub, hnodup.sublist (hsub.map Prod.fst), fun p hp => ?_⟩
  exact hvalues p (hsub.subset hp)

/-! ## The encoding determines the value -/

lemma dumpsSorted_ok {rt : Runtime} {v : Value} {t : Text} (h : rt.dumpsSorted v = .ok t) :
    Json.dumps rt.dumpsDepth rt.floatRepr v = .ok t := by
  unfold Runtime.dumpsSorted at h
  split at h
  · next heq => rw [heq, Except.ok.inj h]
  all_goals cases h

lemma loads_ok {rt : Runtime} {u : Bool} {t : Text} {v : Value} (h : rt.loads u t = .ok v) :
    Json.loads ⟨rt.loadsDepth, u⟩ t = .ok v := by
  unfold Runtime.loads at h
  split at h
  · next heq => rw [heq, Except.ok.inj h]
  all_goals cases h

lemma canonicalText_ok {v : Value} {t : Text} :
    canonicalText pf v = .ok t ↔ ∃ n, normalize pf v = .ok n ∧ pf.dumpsSorted n = .ok t := by
  simp only [canonicalText, bind_eq_ok]

/-- Two canonical values with one text are one value. -/
lemma Canonical.eq_of_text {v w : Value} {t : Text} (hv : Canonical pf v) (hw : Canonical pf w)
    (h : canonicalText pf v = .ok t) (h' : canonicalText pf w = .ok t) : v = w := by
  obtain ⟨n, hn, rfl⟩ := hv
  obtain ⟨m, hm, rfl⟩ := hw
  obtain ⟨n', hn', ht⟩ := canonicalText_ok.mp h
  obtain ⟨m', hm', ht'⟩ := canonicalText_ok.mp h'
  obtain rfl := Except.ok.inj (hn.symm.trans hn')
  obtain rfl := Except.ok.inj (hm.symm.trans hm')
  exact sortKeys_eq_of_dumps_eq (normalize_plain hn).1 (normalize_plain hn).2
    (normalize_plain hm).1 (normalize_plain hm).2 (dumpsSorted_ok ht) (dumpsSorted_ok ht')

/-- A document read from its own canonical text is canonical. -/
lemma canonical_of_loads {raw : Text} {v : Value} (hload : pf.loads false raw = .ok v)
    (htext : canonicalText pf v = .ok raw) : Canonical pf v := by
  obtain ⟨n, hn, hdumps⟩ := canonicalText_ok.mp htext
  have hread := loads_dumps ⟨pf.loadsDepth, false⟩ (normalize_plain hn).1 (normalize_plain hn).2
    (dumpsSorted_ok hdumps)
  rw [loads_ok hload] at hread
  split at hread
  · exact ⟨n, hn, (Except.ok.inj hread).symm⟩
  · cases hread

lemma canonicalJson_ok {v : Value} {bytes : Bytes} :
    canonicalJson pf v = .ok bytes ↔ ∃ t, canonicalText pf v = .ok t ∧ encoded t = .ok bytes := by
  simp only [canonicalJson, bind_eq_ok]

/-! ## The hash of an event determines its text -/

lemma digest_ok {value : Value} {label t : Text} (h : digest pf value label = .ok t) :
    value = .str t := by
  simp only [digest, textThat, bind_eq_ok] at h
  obtain ⟨t', ht', _, _, h⟩ := h
  obtain rfl : t' = t := Except.ok.inj h
  unfold text at ht'
  split at ht'
  · cases ht'
  · split at ht'
    · rw [Except.ok.inj ht']
    · cases ht'
  · cases ht'

lemma keys_ok {value : Value} {expected : List Text} {label : Text} {items : List (Text × Value)}
    (h : keys value expected label = .ok items) :
    value = .obj items ∧ keysAre items expected = true := by
  unfold keys at h
  split at h
  · split at h
    · next hkeys =>
      cases h
      exact ⟨rfl, hkeys⟩
    · cases h
  · cases h

/-- The keys of an event are in ASCII. -/
lemma isAscii_of_keysAre {items : List (Text × Value)} (h : keysAre items topLevelKeys = true) :
    ∀ k ∈ dictKeys items, isAscii k = true := by
  have hall : topLevelKeys.all isAscii = true := by decide
  exact fun k hk => List.all_eq_true.mp hall k ((keysAre_iff.mp h k).mp hk)

/-- What an entry that decodes to `e` is: a document, its own canonical text, and its hash. -/
structure Decodes (pf : Platform) (raw : Text) (e : SealedEvent) (items : List (Text × Value))
    (data : Bytes) : Prop where
  loads : pf.loads false raw = .ok (.obj items)
  keys : keysAre items topLevelKeys = true
  text : canonicalText pf (.obj items) = .ok raw
  hashed : canonicalJson pf (.obj (unhashed items)) = .ok data
  eventHash : e.eventHash = prefixedDigest pf data
  supplied : getValue "event_hash" items = .str e.eventHash

lemma decodeEvent_ok {raw : Text} {e : SealedEvent} (h : decodeEvent pf raw = .ok e) :
    ∃ items data, Decodes pf raw e items data := by
  simp only [decodeEvent, canonicalEventBytes, validateEvent, check, bind_eq_ok, require_eq_ok,
    decide_eq_true_eq] at h
  obtain ⟨value, hload, ⟨event, bytes⟩, ⟨event', ⟨_, _, items, hkeys, fields, _, supplied,
    hsupplied, data, hhashed, _, hmatch, hevent⟩, bytes', hbytes, hpair⟩, stored, hstored, _,
    hsame, he⟩ := h
  obtain ⟨rfl, -⟩ := keys_ok hkeys
  obtain ⟨t, ht, htbytes⟩ := canonicalJson_ok.mp hbytes
  cases he
  cases hpair
  cases hevent
  obtain rfl : bytes = stored := hsame
  obtain rfl : t = raw := encoded_inj htbytes hstored
  obtain ⟨-, hkeys⟩ := keys_ok hkeys
  exact ⟨items, data, hload, hkeys, ht, hhashed, hmatch, digest_ok hsupplied⟩

/-- A document with the keys of an event is its hash and the rest. -/
lemma perm_unhashed {items : List (Text × Value)} (hnodup : (dictKeys items).Nodup)
    (hkeys : keysAre items topLevelKeys = true) :
    items.Perm ((("event_hash" : Text), getValue "event_hash" items) :: unhashed items) := by
  have hget : ∀ {k v}, (k, v) ∈ items → getValue k items = v := fun hmem => by
    rw [getValue, dictGet_of_mem hnodup hmem, Option.getD_some]
  have hmem : (("event_hash" : Text), getValue "event_hash" items) ∈ items := by
    have hkey := (keysAre_iff.mp hkeys ("event_hash" : Text)).mpr List.mem_cons_self
    obtain ⟨⟨k, v⟩, hp, hk⟩ := List.mem_map.mp hkey
    obtain rfl : k = ("event_hash" : Text) := hk
    rw [hget hp]
    exact hp
  have hout : (("event_hash" : Text), getValue "event_hash" items) ∉ unhashed items :=
    fun hin => of_decide_eq_true (List.mem_filter.mp hin).2 rfl
  rw [List.perm_ext_iff_of_nodup hnodup.of_map
    (List.nodup_cons.mpr ⟨hout, hnodup.of_map.filter _⟩)]
  rintro ⟨k, v⟩
  rw [List.mem_cons, unhashed, List.mem_filter, decide_eq_true_eq]
  constructor
  · intro hp
    by_cases hk : k = ("event_hash" : Text)
    · subst hk
      rw [hget hp]
      exact .inl rfl
    · exact .inr ⟨hp, hk⟩
  · rintro (heq | ⟨hp, -⟩)
    · exact heq ▸ hmem
    · exact hp

/-- Where the canonical keys are plain, documents of an event with the same hash and the same rest
are the same. -/
lemma eq_of_unhashed {items items' : List (Text × Value)} (h : Canonical pf (.obj items))
    (h' : Canonical pf (.obj items')) (hkeys : keysAre items topLevelKeys = true)
    (hkeys' : keysAre items' topLevelKeys = true)
    (hhash : getValue "event_hash" items = getValue "event_hash" items')
    (hrest : unhashed items = unhashed items') : items = items' := by
  obtain ⟨hsorted, hnodup, -⟩ := (canonical_obj (isAscii_of_keysAre hkeys)).mp h
  obtain ⟨hsorted', hnodup', -⟩ := (canonical_obj (isAscii_of_keysAre hkeys')).mp h'
  have hperm : items.Perm items' := by
    refine (perm_unhashed hnodup hkeys).trans ?_
    rw [hhash, hrest]
    exact (perm_unhashed hnodup' hkeys').symm
  refine hperm.eq_of_pairwise (fun p q hp hq hpq hqp => ?_) hsorted hsorted'
  -- the keys are apart, so two items with one key are one item
  have hkey : p.1 = q.1 := textLe_antisymm hpq hqp
  have hq := (hperm.mem_iff).mpr hq
  have hvalue : some p.2 = some q.2 := by
    rw [← dictGet_of_mem hnodup hp, hkey, dictGet_of_mem hnodup hq]
  exact Prod.ext hkey (Option.some.inj hvalue)

/-- Entries whose hashed encodings SHA-256 tells apart are equal where their hashes are. -/
lemma text_eq_of_hash_eq {raw raw' : Text} {e e' : SealedEvent} {items items' : List (Text × Value)}
    {data data' : Bytes} (h : Decodes pf raw e items data) (h' : Decodes pf raw' e' items' data')
    (hsha : pf.sha256 data = pf.sha256 data' → data = data') (hhash : e.eventHash = e'.eventHash) :
    raw = raw' := by
  have hcanonical := canonical_of_loads h.loads h.text
  have hcanonical' := canonical_of_loads h'.loads h'.text
  have hdata : data = data' := by
    apply hsha
    have hprefixed : prefixedDigest pf data = prefixedDigest pf data' := by
      rw [← h.eventHash, ← h'.eventHash, hhash]
    exact List.append_cancel_left hprefixed
  have hrest : unhashed items = unhashed items' := by
    obtain ⟨t, ht, hbytes⟩ := canonicalJson_ok.mp h.hashed
    obtain ⟨t', ht', hbytes'⟩ := canonicalJson_ok.mp h'.hashed
    obtain rfl : t = t' := encoded_inj (hdata ▸ hbytes) hbytes'
    have hsame := (hcanonical.unhashed (isAscii_of_keysAre h.keys)).eq_of_text
      (hcanonical'.unhashed (isAscii_of_keysAre h'.keys)) ht ht'
    exact Value.obj.inj hsame
  have hsupplied : getValue "event_hash" items = getValue "event_hash" items' := by
    rw [h.supplied, h'.supplied, hhash]
  have hitems := eq_of_unhashed hcanonical hcanonical' h.keys h'.keys hsupplied hrest
  have htext := h.text
  rw [hitems, h'.text] at htext
  exact (Except.ok.inj htext).symm

/-! ## What a snapshot that is not corrupt holds -/

/-- The entries of a snapshot. -/
def orderedEvents (snapshot : Value) : List Value :=
  match snapshot with
  | .obj items =>
    match getValue "ordered_events" items with
    | .arr entries => entries
    | _ => []
  | _ => []

/-- What SHA-256 was applied to for the events of a snapshot: their canonical encodings, without
the hash. -/
def hashedEncodings (pf : Platform) (snapshot : Value) : Set Bytes :=
  { data | ∃ raw items, Value.str raw ∈ orderedEvents snapshot ∧
      pf.loads false raw = .ok (.obj items) ∧ canonicalJson pf (.obj (unhashed items)) = .ok data }

/-- Entries that all decode, each with its event. -/
def Chain (pf : Platform) (decoded : List (Text × SealedEvent)) : Prop :=
  ∀ p ∈ decoded, decodeEvent pf p.1 = .ok p.2

/-- Where no entry is reported, every entry is the text of an event. -/
lemma snapshotEvents_clean : ∀ {entries : List Value} {events : List SealedEvent},
    snapshotEvents pf entries = .ok (events, []) →
      ∃ decoded : List (Text × SealedEvent), Chain pf decoded ∧
        entries = decoded.map (fun p => .str p.1) ∧ events = decoded.map Prod.snd := by
  intro entries
  induction entries with
  | nil =>
      intro events h
      cases h
      exact ⟨[], fun _ hp => absurd hp List.not_mem_nil, rfl, rfl⟩
  | cons entry rest ih =>
      intro events h
      unfold snapshotEvents at h
      split at h
      · next heq => exact absurd heq (List.cons_ne_nil _ _)
      · next raw rest' heq =>
        obtain ⟨rfl, rfl⟩ := List.cons.inj heq
        split at h
        · next event hdecode =>
          obtain ⟨⟨events', diagnostics⟩, hrest, h⟩ := bind_eq_ok.mp h
          cases h
          obtain ⟨decoded, hchain, rfl, rfl⟩ := ih hrest
          refine ⟨(raw, event) :: decoded, ?_, rfl, rfl⟩
          exact List.forall_mem_cons.mpr ⟨hdecode, hchain⟩
        · split at h
          · obtain ⟨⟨events', diagnostics⟩, -, h⟩ := bind_eq_ok.mp h
            cases h
          · cases h
      · obtain ⟨⟨events', diagnostics⟩, -, h⟩ := bind_eq_ok.mp h
        cases h

/-- Entries that decode are read without a report. -/
lemma snapshotEvents_of_chain : ∀ {decoded : List (Text × SealedEvent)}, Chain pf decoded →
    snapshotEvents pf (decoded.map fun p => .str p.1) = .ok (decoded.map Prod.snd, [])
  | [], _ => rfl
  | p :: rest, h => by
      have hrest := snapshotEvents_of_chain fun q hq => h q (List.mem_cons_of_mem _ hq)
      rw [List.map_cons, snapshotEvents, h p List.mem_cons_self, hrest]
      rfl

/-- What an entry reports about itself is structural. -/
lemma snapshotEvents_structural : ∀ {entries : List Value} {events : List SealedEvent}
    {diagnostics : List Diagnostic}, snapshotEvents pf entries = .ok (events, diagnostics) →
      ∀ d ∈ diagnostics, d.code.structural = true := by
  intro entries
  induction entries with
  | nil =>
      intro events diagnostics h
      cases h
      exact fun _ hd => absurd hd List.not_mem_nil
  | cons entry rest ih =>
      intro events diagnostics h
      unfold snapshotEvents at h
      split at h
      · next heq => exact absurd heq (List.cons_ne_nil _ _)
      · next raw rest' heq =>
        obtain ⟨rfl, rfl⟩ := List.cons.inj heq
        split at h
        · obtain ⟨⟨events', diagnostics'⟩, hrest, h⟩ := bind_eq_ok.mp h
          cases h
          exact ih hrest
        · split at h
          · obtain ⟨⟨events', diagnostics'⟩, hrest, h⟩ := bind_eq_ok.mp h
            cases h
            exact List.forall_mem_cons.mpr ⟨rfl, ih hrest⟩
          · cases h
      · next rest' _ heq =>
        obtain ⟨rfl, rfl⟩ := List.cons.inj heq
        obtain ⟨⟨events', diagnostics'⟩, hrest, h⟩ := bind_eq_ok.mp h
        cases h
        exact List.forall_mem_cons.mpr ⟨rfl, ih hrest⟩

lemma note_eq_nil {condition : Bool} {d : Diagnostic} : note condition d = [] ↔ condition = false := by
  cases condition <;> simp [note]

/-- Every event that the chain checks pass names the hash of the one before it. -/
lemma linked_of_chainDiagnostics {trajectoryId : Text} {decoded : List (Text × SealedEvent)} :
    ∀ {seq : ℤ} {earlier : List Text} {previous : Option Text},
      chainDiagnostics trajectoryId seq earlier previous (decoded.map Prod.snd) = [] →
        HashChain.Linked (fun p => p.2.eventHash) (fun p => p.2.prevEventHash) previous decoded := by
  induction decoded with
  | nil => intro _ _ _ _; trivial
  | cons p rest ih =>
      intro seq earlier previous h
      simp only [List.map_cons, chainDiagnostics, List.append_eq_nil_iff, note_eq_nil,
        decide_eq_false_iff_not, not_not] at h
      exact ⟨h.1.1.2, ih h.2⟩

/-- What the chain reports is structural. -/
lemma chainDiagnostics_structural {trajectoryId : Text} {events : List SealedEvent} :
    ∀ {seq : ℤ} {earlier : List Text} {previous : Option Text},
      ∀ d ∈ chainDiagnostics trajectoryId seq earlier previous events,
        d.code.structural = true := by
  induction events with
  | nil => exact fun _ hd => absurd hd List.not_mem_nil
  | cons e rest ih =>
      intro seq earlier previous d hd
      simp only [chainDiagnostics, List.mem_append, note] at hd
      rcases hd with ((((hd | hd) | hd) | hd) | hd) | hd
      all_goals first
        | exact ih d hd
        | (split at hd <;> simp at hd; subst hd; rfl)

/-- No structural diagnostic among those of a snapshot that is not corrupt. -/
lemma not_structural_of_integrity {diagnostics : List Diagnostic} {unknowns : List Unknown}
    (h : integrityOf diagnostics unknowns ≠ .corrupt) :
    ∀ d ∈ diagnostics, d.code.structural = false := by
  intro d hd
  by_contra hs
  apply h
  have hany : (diagnostics.any fun d => d.code.structural) = true :=
    List.any_eq_true.mpr ⟨d, hd, by simpa using hs⟩
  rw [integrityOf, if_pos hany]

/-- A list of structural diagnostics is empty where none is structural. -/
lemma eq_nil_of_structural {diagnostics : List Diagnostic}
    (hall : ∀ d ∈ diagnostics, d.code.structural = true)
    (hnone : ∀ d ∈ diagnostics, d.code.structural = false) : diagnostics = [] := by
  refine List.eq_nil_iff_forall_not_mem.mpr fun d hd => ?_
  have htrue := hall d hd
  rw [hnone d hd] at htrue
  cases htrue

/-- What a snapshot that is not corrupt holds: entries that decode to a chain with the stated head. -/
structure Sound (pf : Platform) (snapshot : Value) (decoded : List (Text × SealedEvent))
    (head : Value) : Prop where
  entries : orderedEvents snapshot = decoded.map fun p => .str p.1
  chain : Chain pf decoded
  linked : HashChain.Linked (fun p => p.2.eventHash) (fun p => p.2.prevEventHash) none decoded
  head : head = optText (HashChain.head (fun p => p.2.eventHash) decoded)

lemma optText_inj {t t' : Option Text} (h : optText t = optText t') : t = t' := by
  cases t <;> cases t' <;> simp_all [optText]

lemma eq_optText_of_eqv {v : Value} {t : Option Text} (h : v.eqv (optText t) = true) :
    v = optText t := by
  cases t with
  | none => cases v <;> simp_all [optText, Value.eqv]
  | some t => cases v <;> simp_all [optText, Value.eqv]

lemma forall_mem_note {condition : Bool} {d : Diagnostic} {p : Diagnostic → Prop} :
    (∀ d' ∈ note condition d, p d') ↔ (condition = true → p d) := by
  cases condition <;> simp [note]

/-- What a projection that is not corrupt was read from. -/
lemma project_clean {items : List (Text × Value)} {trajectoryId : Text} {state : CanonicalParts}
    {r : ProjectionResult} (h : project pf items trajectoryId state = .ok r)
    (hr : r.integrityStatus ≠ .corrupt) :
    ∃ entries events, getValue "ordered_events" items = .arr entries ∧
      snapshotEvents pf entries = .ok (events, []) ∧
      chainDiagnostics trajectoryId 1 [] none events = [] ∧
      r.inputHeadHash = optText (headHash events) := by
  unfold project at h
  dsimp only at h
  split at h
  all_goals
    next hordered =>
    obtain ⟨⟨events, decoding⟩, hevents, h⟩ := bind_eq_ok.mp h
    dsimp only at h
    split at h
    · obtain ⟨manifest, -, h⟩ := bind_eq_ok.mp h
      obtain ⟨attempts, -, h⟩ := bind_eq_ok.mp h
      obtain ⟨unknowns, -, h⟩ := bind_eq_ok.mp h
      obtain ⟨inv, -, h⟩ := bind_eq_ok.mp h
      obtain ⟨task, -, h⟩ := bind_eq_ok.mp h
      cases h
      have hnone := not_structural_of_integrity hr
      simp only [List.forall_mem_append, forall_mem_note] at hnone
      obtain ⟨⟨⟨⟨⟨⟨⟨⟨⟨⟨hdecoding, hchain⟩, hhead⟩, -⟩, -⟩, -⟩, -⟩, -⟩, -⟩, -⟩, -⟩ := hnone
      -- without a list of entries, the decoding reports one structural diagnostic
      first
        | (cases hevents
           exact absurd (hdecoding _ (List.mem_singleton_self _)) (by decide))
        | obtain rfl := eq_nil_of_structural (snapshotEvents_structural hevents) hdecoding
          have hchain := eq_nil_of_structural chainDiagnostics_structural hchain
          have hhead : (getValue "event_head_hash" items).eqv (optText (headHash events)) = true := by
            by_contra hne
            have hfalse := hhead (by simp [hne])
            cases hfalse
          refine ⟨_, events, ?_, hevents, hchain, eq_optText_of_eqv hhead⟩
          split at hordered
          · next entries heq => rw [heq, Option.some.inj hordered]
          · cases hordered
    · cases h
      exact absurd rfl hr

lemma sound_of_project {items : List (Text × Value)} {trajectoryId : Text} {state : CanonicalParts}
    {r : ProjectionResult} (h : project pf items trajectoryId state = .ok r)
    (hr : r.integrityStatus ≠ .corrupt) :
    ∃ decoded, Sound pf (.obj items) decoded r.inputHeadHash := by
  obtain ⟨entries, events, hentries, hevents, hchain, hhead⟩ := project_clean h hr
  obtain ⟨decoded, hdecoded, rfl, rfl⟩ := snapshotEvents_clean hevents
  refine ⟨decoded, ?_, hdecoded, linked_of_chainDiagnostics hchain, ?_⟩
  · rw [orderedEvents, hentries]
  · rw [hhead, headHash, HashChain.head, List.getLast?_map, Option.map_map]
    rfl

/-- An empty projection is corrupt. -/
lemma corrupt_emptyProjection {code : Code} {trajectoryId : Option Text} {r : ProjectionResult}
    (h : (.ok (emptyProjection code trajectoryId) : Except Exc ProjectionResult) = .ok r) :
    r.integrityStatus = .corrupt := by
  cases h
  rfl

lemma sound_of_reduceItems {items : List (Text × Value)} {r : ProjectionResult}
    (h : reduceItems pf items = .ok r) (hr : r.integrityStatus ≠ .corrupt) :
    ∃ decoded, Sound pf (.obj items) decoded r.inputHeadHash := by
  unfold reduceItems at h
  dsimp only at h
  split at h
  · exact absurd (corrupt_emptyProjection h) hr
  split at h
  · exact absurd (corrupt_emptyProjection h) hr
  obtain ⟨digest, -, h⟩ := bind_eq_ok.mp h
  split at h
  · exact absurd (corrupt_emptyProjection h) hr
  split at h
  · exact absurd (corrupt_emptyProjection h) hr
  split at h
  · exact absurd (corrupt_emptyProjection h) hr
  obtain ⟨created, -, h⟩ := bind_eq_ok.mp h
  split at h
  · exact absurd (corrupt_emptyProjection h) hr
  obtain ⟨sensitivity, -, h⟩ := bind_eq_ok.mp h
  split at h
  · exact absurd (corrupt_emptyProjection h) hr
  obtain ⟨state', -, h⟩ := bind_eq_ok.mp h
  split at h
  · exact absurd (corrupt_emptyProjection h) hr
  · exact sound_of_project h hr

/-- A snapshot that is not corrupt holds a chain with the head it states. -/
theorem sound_of_reduceSnapshot {projectionVersion : ℤ} {audience : List Text} {snapshot : Value}
    {r : ProjectionResult} (h : reduceSnapshot pf projectionVersion audience snapshot = .ok r)
    (hr : r.integrityStatus ≠ .corrupt) :
    ∃ decoded, Sound pf snapshot decoded r.inputHeadHash := by
  unfold reduceSnapshot at h
  split at h
  · exact absurd (corrupt_emptyProjection h) hr
  split at h
  · exact absurd (corrupt_emptyProjection h) hr
  split at h
  · split at h
    · exact sound_of_reduceItems h hr
    · exact absurd (corrupt_emptyProjection h) hr
  · exact absurd (corrupt_emptyProjection h) hr

/-! ## The head determines the chain -/

/-- Where SHA-256 tells apart what was hashed for the events of two snapshots, the snapshots agree in
every entry and every decoded event as soon as they agree in the head. -/
theorem orderedEvents_eq_of_head_eq {projectionVersion projectionVersion' : ℤ}
    {audience audience' : List Text} {s t : Value} {r r' : ProjectionResult}
    (hsha : Set.InjOn pf.sha256 (hashedEncodings pf s ∪ hashedEncodings pf t))
    (hs : reduceSnapshot pf projectionVersion audience s = .ok r)
    (ht : reduceSnapshot pf projectionVersion' audience' t = .ok r')
    (hr : r.integrityStatus ≠ .corrupt) (hr' : r'.integrityStatus ≠ .corrupt)
    (hhead : r.inputHeadHash = r'.inputHeadHash) :
    orderedEvents s = orderedEvents t ∧
      ∃ events, snapshotEvents pf (orderedEvents s) = .ok (events, []) ∧
        snapshotEvents pf (orderedEvents t) = .ok (events, []) := by
  obtain ⟨decoded, hsound⟩ := sound_of_reduceSnapshot hs hr
  obtain ⟨decoded', hsound'⟩ := sound_of_reduceSnapshot ht hr'
  have hinj : ∀ p ∈ decoded, ∀ q ∈ decoded', p.2.eventHash = q.2.eventHash → p = q := by
    intro p hp q hq hhash
    obtain ⟨items, data, hdecodes⟩ := decodeEvent_ok (hsound.chain p hp)
    obtain ⟨items', data', hdecodes'⟩ := decodeEvent_ok (hsound'.chain q hq)
    have hdata : data ∈ hashedEncodings pf s :=
      ⟨p.1, items, hsound.entries ▸ List.mem_map_of_mem hp, hdecodes.loads, hdecodes.hashed⟩
    have hdata' : data' ∈ hashedEncodings pf t :=
      ⟨q.1, items', hsound'.entries ▸ List.mem_map_of_mem hq, hdecodes'.loads, hdecodes'.hashed⟩
    have htext : p.1 = q.1 :=
      text_eq_of_hash_eq hdecodes hdecodes' (hsha (.inl hdata) (.inr hdata')) hhash
    have hevent : p.2 = q.2 := by
      have hp' := hsound.chain p hp
      rw [htext, hsound'.chain q hq] at hp'
      exact (Except.ok.inj hp').symm
    exact Prod.ext htext hevent
  have hheads : HashChain.head (fun p => p.2.eventHash) decoded =
      HashChain.head (fun p => p.2.eventHash) decoded' := by
    have htexts := hsound.head.symm.trans (hhead.trans hsound'.head)
    exact optText_inj htexts
  obtain rfl := HashChain.eq_of_head_eq hsound.linked hsound'.linked hinj hheads
  refine ⟨hsound.entries.trans hsound'.entries.symm, decoded.map Prod.snd, ?_, ?_⟩
  · rw [hsound.entries]
    exact snapshotEvents_of_chain hsound.chain
  · rw [hsound'.entries]
    exact snapshotEvents_of_chain hsound'.chain

/-! ### One event in two snapshots -/

/-- The digests of what the two snapshots hash, each of its own length. -/
def onceCreatedDigest : ℕ → Text
  | 733 => "59cd9d405b215b4deddaa49df048547ab5c4549af561895ca1a567c94810603f"
  | 74 => "68bd657927bc62f6c855c8015b44fdd669160120523191ebc18d680418cb74f4"
  | 2 => "4f53cda18c2baa0c0354bb5f9a3ecbe5ed12ab4d8e11ba873c2f11161202b945"
  | 908 => "1d8f1ba41b4f81bc6bf1e8a0cab5dda952e14da3ab1521ab9fe39f70e0a01e20"
  | 1860 => "2fc0e5e2077ffbea5a8ba8f9f01e19915d4f37b28ae5c50b09899f0f72fde88d"
  | 1861 => "af088356842f7d888db56cf39547e123ada2da76785da168c49a0ae0073e4f09"
  | _ => List.replicate 64 0x30

lemma isHexDigest_onceCreatedDigest (n : ℕ) : isHexDigest (onceCreatedDigest n) = true := by
  unfold onceCreatedDigest
  split <;> decide

def onceCreatedPlatform : Platform where
  toRuntime := .standard
  nfc := id
  sha256 bytes := onceCreatedDigest bytes.length
  walkDepth := 400
  nfc_ascii := id_ascii
  sha256_hex bytes := isHexDigest_onceCreatedDigest bytes.length

def onceCreated : SealedEvent where
  trajectoryId := "task:t1"
  seq := 1
  eventId := "11111111-1111-4111-8111-111111111111"
  recordedAtMs := 1
  taskId := "t1"
  revision := 0
  run := none
  invocationId := none
  workflowAttemptRef := none
  sessionRef := none
  parentEventId := none
  causalEventIds := []
  actor := ⟨"controller", "orchestrator", none, none⟩
  body := .taskCreated ("sha256:" ++ onceCreatedDigest 0) ("sha256:" ++ onceCreatedDigest 0)
  evidenceRefs := []
  sensitivity := "internal"
  retentionClass := "structural"
  prevEventHash := none
  eventHash := "sha256:" ++ onceCreatedDigest 733

/-- The snapshot of a task that was created, taken at the given time. -/
def createdSnapshot (capturedAtMs : ℤ) (snapshotDigest : ℕ) : Value :=
  let hash (n : ℕ) : Value := .str ("sha256:" ++ onceCreatedDigest n)
  .obj [("snapshot_version", .int 1), ("trajectory_id", .str "task:t1"),
    ("captured_at_ms", .int capturedAtMs), ("created_from", .str "test-fixture"),
    ("ordered_events", .arr [.str (onceCreated.toValue.compact fun _ => "")]),
    ("event_head_hash", hash 733), ("evidence_inventory", .arr []),
    ("canonical_state", .obj [("task", .obj [("status", .str "queued"), ("revision", .int 0)]),
      ("stage_runs", .arr []), ("transitions", .arr [])]),
    ("source_db_snapshot_hash", hash 74), ("sensitivity", .str "internal"),
    ("manifest", .obj [("created_from", .str "test-fixture"), ("event_count", .int 1),
      ("evidence_inventory_digest", hash 2), ("first_seq", .int 1), ("last_seq", .int 1),
      ("event_head_hash", hash 733), ("ordered_events_digest", hash 908),
      ("sensitivity", .str "internal"), ("source_db_snapshot_hash", hash 74)]),
    ("snapshot_digest", hash snapshotDigest)]

/-- The reducer finds nothing wrong with the snapshot, whose head is the hash of the event. -/
def accepted (snapshot : Value) : Bool :=
  match reduceSnapshot onceCreatedPlatform 1 ["internal"] snapshot with
  | .ok r => decide (r.integrityStatus = .ok) &&
      r.inputHeadHash.eqv (optText (some onceCreated.eventHash))
  | .error _ => false

lemma accepted_createdSnapshot :
    accepted (createdSnapshot 1 1860) = true ∧ accepted (createdSnapshot 10 1861) = true := by
  decide +kernel

lemma exists_of_accepted {snapshot : Value} (h : accepted snapshot = true) :
    ∃ r, reduceSnapshot onceCreatedPlatform 1 ["internal"] snapshot = .ok r ∧
      r.integrityStatus ≠ .corrupt ∧ r.inputHeadHash = optText (some onceCreated.eventHash) := by
  unfold accepted at h
  split at h
  · next r hr =>
    obtain ⟨hok, hhead⟩ := Bool.and_eq_true _ _ ▸ h
    have hok := of_decide_eq_true hok
    exact ⟨r, hr, by rw [hok]; decide, eq_optText_of_eqv hhead⟩
  · cases h

/-- One text is hashed for the events of the two snapshots. -/
lemma hashedEncodings_createdSnapshot {capturedAtMs capturedAtMs' : ℤ} {n n' : ℕ} :
    (hashedEncodings onceCreatedPlatform (createdSnapshot capturedAtMs n) ∪
      hashedEncodings onceCreatedPlatform (createdSnapshot capturedAtMs' n')).Subsingleton := by
  have hboth : ∀ {t : ℤ} {m : ℕ} {data : Bytes},
      data ∈ hashedEncodings onceCreatedPlatform (createdSnapshot t m) →
        ∃ items, onceCreatedPlatform.loads false (onceCreated.toValue.compact fun _ => "") =
            .ok (.obj items) ∧
          canonicalJson onceCreatedPlatform (.obj (unhashed items)) = .ok data := by
    rintro t m data ⟨raw, items, hraw, hload, hdata⟩
    have hentries : orderedEvents (createdSnapshot t m) =
        [.str (onceCreated.toValue.compact fun _ => "")] := rfl
    rw [hentries, List.mem_singleton] at hraw
    obtain rfl := Value.str.inj hraw
    exact ⟨items, hload, hdata⟩
  intro data hdata data' hdata'
  obtain ⟨items, hload, hhashed⟩ := hdata.elim hboth hboth
  obtain ⟨items', hload', hhashed'⟩ := hdata'.elim hboth hboth
  obtain rfl := Value.obj.inj (Except.ok.inj (hload.symm.trans hload'))
  exact Except.ok.inj (hhashed.symm.trans hhashed')

/-- Two snapshots of a created task, taken at different times, hold the same event. -/
theorem orderedEvents_eq_createdSnapshot :
    orderedEvents (createdSnapshot 1 1860) = orderedEvents (createdSnapshot 10 1861) ∧
      ∃ events,
        snapshotEvents onceCreatedPlatform (orderedEvents (createdSnapshot 1 1860)) =
          .ok (events, []) ∧
        snapshotEvents onceCreatedPlatform (orderedEvents (createdSnapshot 10 1861)) =
          .ok (events, []) := by
  obtain ⟨r, hs, hr, hhead⟩ := exists_of_accepted accepted_createdSnapshot.1
  obtain ⟨r', ht, hr', hhead'⟩ := exists_of_accepted accepted_createdSnapshot.2
  exact orderedEvents_eq_of_head_eq (hashedEncodings_createdSnapshot.injOn _) hs ht hr hr'
    (hhead.trans hhead'.symm)

end Trajectory

end AgentOrch
