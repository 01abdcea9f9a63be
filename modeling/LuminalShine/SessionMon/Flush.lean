import LuminalShine.Lib.Run
import LuminalShine.SessionMon.Store

/-!
# Flushing the sessions to disk

A housekeeping thread copies the sessions that have changed, marks them clean, and writes the
copies without holding the store: meanwhile frames change sessions and prune them, and the query
server deletes ended ones, its file removal outside the lock as well.

* `collect` — the round of `housekeeping_thread` under the lock;
* `Monitor.step` — frames, deletions, file removals, rounds and writes in any order;
* `Monitor.Sound` — a clean session is in a copy still to be written, or in its file;
* `clean_session_survives` — over any run in which no write fails: what is clean and not about to
  be written is loaded again by a service that starts on the files, unless the cap takes it.
-/

namespace LuminalShine.SessionMon

open LuminalShine.Lib

variable {V J : Type}

/-- `to_json`. -/
def Session.toJson (s : Session V J) : Record V J where
  id := s.id
  startedAt := s.startedAtEpoch
  streamEndedAt := if s.endedAtEpoch ≠ 0 then some s.endedAtEpoch else none
  metadata := s.metadata
  series := s.series

/-- `kPersistInterval`, in seconds. -/
def kPersistInterval : ℕ := 5 * 60

/-- The sessions that a round copies. -/
def due (now : ℕ) (s : Session V J) : Prop :=
  s.dirtySinceFlush = true ∧ (s.endedAtEpoch ≠ 0 ∨ s.lastFlush + kPersistInterval ≤ now)

instance (now : ℕ) (s : Session V J) : Decidable (due now s) := by
  unfold due
  infer_instance

def Session.flushed (s : Session V J) (now : ℕ) : Session V J :=
  { s with dirtySinceFlush := false, lastFlush := now }

/-- The loop of `housekeeping_thread` over the sessions. -/
def collectKeys (now : ℕ) (m : Store V J) : List String → Store V J × List (Session V J)
  | [] => (m, [])
  | id :: ids =>
      match m.lookup id with
      | some s =>
          if due now s then
            let (m, snapshots) := collectKeys now (m.insert id (s.flushed now)) ids
            (m, s :: snapshots)
          else collectKeys now m ids
      | none => collectKeys now m ids

def collect (now : ℕ) (m : Store V J) : Store V J × List (Session V J) :=
  collectKeys now m m.keys

/-- The keys whose files the cap removes when a frame is applied. -/
def prunedBy (now : ℤ) (m : Store V J) (f : Frame V J) : List String :=
  match f.subject with
  | none => []
  | some (type, id) =>
      let (s, ended) := (touch m id).update now type f
      if ended then excess (m.insert id s) else []

/-- Remove the files, as far as that succeeds. -/
def removeFiles (disk : AList fun _ : String => Record V J) (removes : String → Bool)
    (ids : List String) : AList fun _ : String => Record V J :=
  (ids.filter (removes ·)).foldl (fun disk id => disk.erase id) disk

/-- The store, the files under their ids, the copies that are still to be written, and the deleted
sessions whose file is still to be removed. -/
structure Monitor (V J : Type) where
  sessions : Store V J
  disk : AList fun _ : String => Record V J
  pending : List (Session V J)
  unlinking : List String

/-- `delete` and `unlink` are the two halves of `handle_delete_session`, `collect` and `persist`
those of a housekeeping round. -/
inductive Op (V J : Type) where
  | frame (now : ℤ) (removes : String → Bool) (f : Frame V J)
  | delete (id : String)
  | unlink (id : String) (removes : Bool)
  | collect (now : ℕ)
  | persist (ok : Bool)

namespace Monitor

/-- The start of the service. -/
def boot (now : ℤ) (removes : String → Bool) (disk : AList fun _ : String => Record V J) :
    Monitor V J where
  sessions := loadPersistedSessions now (disk.entries.map Sigma.snd)
  disk := removeFiles disk removes (excess (rehydrate now (disk.entries.map Sigma.snd)))
  pending := []
  unlinking := []

/-- `handle_delete_session` refuses live sessions. -/
def delete (s : Monitor V J) (id : String) : Monitor V J :=
  match s.sessions.lookup id with
  | some session =>
      if session.endedAtEpoch = 0 then s
      else { s with sessions := s.sessions.erase id, unlinking := id :: s.unlinking }
  | none => s

def step (s : Monitor V J) : Op V J → Option (Monitor V J)
  | .frame now removes f =>
      some { s with
        sessions := applyFrame now s.sessions f
        disk := removeFiles s.disk removes (prunedBy now s.sessions f) }
  | .delete id => some (s.delete id)
  | .unlink id removes =>
      if id ∈ s.unlinking then
        some { s with
          disk := if removes then s.disk.erase id else s.disk
          unlinking := s.unlinking.erase id }
      else none
  | .collect now =>
      if s.pending = [] then
        some { s with sessions := (SessionMon.collect now s.sessions).1
                      pending := (SessionMon.collect now s.sessions).2 }
      else none
  | .persist ok =>
      match s.pending with
      | [] => none
      | snapshot :: pending =>
          some { s with
            disk := if ok then s.disk.insert snapshot.id snapshot.toJson else s.disk
            pending := pending }

end Monitor

/-! ## A round -/

theorem collectKeys_spec (now : ℕ) {ids : List String} (hids : ids.Nodup) (m : Store V J) :
    (∀ id, (collectKeys now m ids).1.lookup id = (m.lookup id).map fun s =>
        if id ∈ ids ∧ due now s then s.flushed now else s) ∧
      ∀ s, s ∈ (collectKeys now m ids).2 ↔ ∃ id ∈ ids, m.lookup id = some s ∧ due now s := by
  induction ids generalizing m with
  | nil => simp [collectKeys]
  | cons key ids ih =>
      obtain ⟨hkey, hids⟩ := List.nodup_cons.mp hids
      have hother : ∀ id, id ≠ key → (id ∈ key :: ids ↔ id ∈ ids) := fun id hne => by
        simp [hne]
      by_cases hdue : ∃ s, m.lookup key = some s ∧ due now s
      · -- the session of the first key is copied
        obtain ⟨s, hlookup, hdue⟩ := hdue
        obtain ⟨hmap, hsnap⟩ := ih hids (m.insert key (s.flushed now))
        simp only [collectKeys, hlookup, if_pos hdue]
        constructor
        · intro id
          rw [hmap]
          by_cases hid : id = key
          · subst hid
            simp [hlookup, hkey, hdue]
          · rw [AList.lookup_insert_ne hid]
            simp only [hother id hid]
        · intro s'
          rw [List.mem_cons, hsnap]
          have hrest : ∀ id ∈ ids, (m.insert key (s.flushed now)).lookup id = m.lookup id :=
            fun id hid => AList.lookup_insert_ne (ne_of_mem_of_not_mem hid hkey)
          constructor
          · rintro (rfl | ⟨id, hid, hs', hdue'⟩)
            · exact ⟨key, List.mem_cons_self, hlookup, hdue⟩
            · exact ⟨id, List.mem_cons_of_mem _ hid, hrest id hid ▸ hs', hdue'⟩
          · rintro ⟨id, hid, hs', hdue'⟩
            rcases List.mem_cons.mp hid with rfl | hid
            · rw [hlookup, Option.some.injEq] at hs'
              exact Or.inl hs'.symm
            · exact Or.inr ⟨id, hid, (hrest id hid).trans hs', hdue'⟩
      · obtain ⟨hmap, hsnap⟩ := ih hids m
        have hskip : collectKeys now m (key :: ids) = collectKeys now m ids := by
          rcases hlookup : m.lookup key with _ | s
          · simp only [collectKeys, hlookup]
          · have hnot : ¬ due now s := fun h => hdue ⟨s, hlookup, h⟩
            simp only [collectKeys, hlookup, if_neg hnot]
        rw [hskip]
        constructor
        · intro id
          rw [hmap]
          by_cases hid : id = key
          · subst hid
            rcases hlookup : m.lookup id with _ | s
            · rfl
            · have hnot : ¬ due now s := fun h => hdue ⟨s, hlookup, h⟩
              simp [hnot]
          · simp only [hother id hid]
        · intro s
          rw [hsnap]
          constructor
          · rintro ⟨id, hid, hs⟩
            exact ⟨id, List.mem_cons_of_mem _ hid, hs⟩
          · rintro ⟨id, hid, hs⟩
            rcases List.mem_cons.mp hid with rfl | hid
            · exact absurd ⟨s, hs⟩ hdue
            · exact ⟨id, hid, hs⟩

/-- **The round.**  Exactly the due sessions are copied, and they become clean. -/
theorem collect_spec (now : ℕ) (m : Store V J) :
    (∀ id, (collect now m).1.lookup id = (m.lookup id).map fun s =>
        if due now s then s.flushed now else s) ∧
      ∀ s, s ∈ (collect now m).2 ↔ ∃ id, m.lookup id = some s ∧ due now s := by
  have hmem : ∀ id s, m.lookup id = some s → id ∈ m.keys := by
    intro id s hs
    exact AList.mem_keys.mp (AList.lookup_isSome.mp (by simp [hs]))
  obtain ⟨hmap, hsnap⟩ := collectKeys_spec now m.keys_nodup m
  constructor
  · intro id
    rw [collect, hmap]
    rcases hlookup : m.lookup id with _ | s
    · rfl
    · simp [hmem id s hlookup]
  · intro s
    rw [collect, hsnap]
    constructor
    · rintro ⟨id, -, hs⟩
      exact ⟨id, hs⟩
    · rintro ⟨id, hs, hdue⟩
      exact ⟨id, hmem id s hs, hs, hdue⟩

/-! ## Loading -/

/-- The record brings the session back, its end excepted: a record without one is given one. -/
structure Record.Restores (r : Record V J) (s : Session V J) : Prop where
  id : r.id = s.id
  startedAt : r.startedAt = s.startedAtEpoch
  metadata : r.metadata = s.metadata
  series : r.series = s.series
  streamEndedAt : r.streamEndedAt = none ∨ r.streamEndedAt = some s.endedAtEpoch

theorem Session.toJson_restores (s : Session V J) : s.toJson.Restores s := by
  refine ⟨rfl, rfl, rfl, rfl, ?_⟩
  by_cases hlive : s.endedAtEpoch = 0 <;> simp [Session.toJson, hlive]

theorem Record.load_restores (r : Record V J) (now : ℤ) : r.Restores (r.load now) := by
  refine ⟨rfl, rfl, rfl, rfl, ?_⟩
  rcases h : r.streamEndedAt with _ | e <;> simp [Record.load, h]

/-- The first file of an id is the one that is loaded. -/
theorem lookup_rehydrate (now : ℤ) (files : List (Record V J)) (id : String) :
    (rehydrate now files).lookup id = (files.find? (·.id = id)).map (Record.load now) := by
  have hfold : ∀ m : Store V J,
      (files.foldl (fun m r => emplace m r.id (r.load now)) m).lookup id =
        (m.lookup id).or ((files.find? (·.id = id)).map (Record.load now)) := by
    induction files with
    | nil => simp
    | cons r files ih =>
        intro m
        rw [List.foldl_cons, ih, lookup_emplace, Option.or_assoc, List.find?_cons]
        by_cases hid : r.id = id
        · simp [hid]
        · simp [hid, Ne.symm hid]
  simpa [rehydrate] using hfold ∅

/-- Files stored under the ids of their records. -/
def Keyed (disk : AList fun _ : String => Record V J) : Prop :=
  ∀ id r, disk.lookup id = some r → r.id = id

/-- Every file is found under its id. -/
theorem lookup_rehydrate_disk {disk : AList fun _ : String => Record V J} (h : Keyed disk)
    (now : ℤ) (id : String) :
    (rehydrate now (disk.entries.map Sigma.snd)).lookup id =
      (disk.lookup id).map (Record.load now) := by
  have hentries : ∀ e ∈ disk.entries, e.2.id = e.1 := fun e he =>
    h e.1 e.2 (AList.mem_lookup_iff.mpr he)
  have hfind : ∀ l : List (Sigma fun _ : String => Record V J), (∀ e ∈ l, e.2.id = e.1) →
      (l.map Sigma.snd).find? (·.id = id) = l.dlookup id := by
    intro l hl
    induction l with
    | nil => rfl
    | cons e l ih =>
        obtain ⟨key, r⟩ := e
        have hkey : r.id = key := hl _ List.mem_cons_self
        rw [List.map_cons, List.find?_cons, ih fun e he => hl e (List.mem_cons_of_mem _ he)]
        by_cases hid : id = key
        · subst hid
          simp [hkey]
        · simp [hkey, hid, Ne.symm hid]
  rw [lookup_rehydrate, hfind _ hentries]
  rfl

/-! ## The invariant -/

theorem update_frame (s : Session V J) (now : ℤ) (type : String) (f : Frame V J) :
    (s.update now type f).1.id = s.id ∧
      (s.update now type f).1.dirtySinceFlush = s.dirtySinceFlush := by
  rw [Session.update]
  repeat' split
  all_goals exact ⟨rfl, rfl⟩

/-- A session in the store behind a frame is the one that was there, or the frame has named it
and marked it dirty; its file has not been removed. -/
theorem lookup_applyFrame {now : ℤ} {m : Store V J} {f : Frame V J} {id : String}
    {s : Session V J} (hkeyed : ∀ id s, m.lookup id = some s → s.id = id)
    (h : (applyFrame now m f).lookup id = some s) :
    id ∉ prunedBy now m f ∧
      (m.lookup id = some s ∨ f.Names id ∧ s.id = id ∧ s.dirtySinceFlush = true) := by
  rw [applyFrame] at h
  rw [prunedBy]
  rcases hsubject : f.subject with _ | ⟨type, key⟩
  · simp only [hsubject] at h
    exact ⟨List.not_mem_nil, Or.inl h⟩
  · simp only [hsubject] at h
    have hwritten : (m.insert key ((touch m key).update now type f).1).lookup id = some s →
        m.lookup id = some s ∨ f.Names id ∧ s.id = id ∧ s.dirtySinceFlush = true := by
      intro hs
      rcases lookup_insert_eq_some.mp hs with ⟨rfl, rfl⟩ | ⟨-, hs⟩
      · right
        obtain ⟨hid, hdirty⟩ := update_frame (touch m id) now type f
        refine ⟨⟨type, hsubject⟩, hid.trans ?_, hdirty.trans rfl⟩
        rcases hlookup : m.lookup id with _ | s'
        · simp [touch, hlookup, Session.empty]
        · have := hkeyed id s' hlookup
          simp [touch, hlookup, this]
      · exact Or.inl hs
    cases hended : ((touch m key).update now type f).2
    · simp only [hended, Bool.false_eq_true, if_false] at h ⊢
      exact ⟨List.not_mem_nil, hwritten h⟩
    · simp only [hended, if_true, lookup_prune] at h ⊢
      split at h
      · cases h
      · case isFalse hkept => exact ⟨hkept, hwritten h⟩

theorem lookup_removeFiles {disk : AList fun _ : String => Record V J} {removes : String → Bool}
    {ids : List String} {id : String} (h : id ∉ ids) :
    (removeFiles disk removes ids).lookup id = disk.lookup id := by
  have hfold : ∀ (l : List String) (disk : AList fun _ : String => Record V J), id ∉ l →
      (l.foldl (fun disk id => disk.erase id) disk).lookup id = disk.lookup id := by
    intro l
    induction l with
    | nil => exact fun _ _ => rfl
    | cons key l ih =>
        intro disk hid
        rw [List.mem_cons, not_or] at hid
        rw [List.foldl_cons, ih _ hid.2, AList.lookup_erase_ne hid.1]
  exact hfold _ _ fun hmem => h (List.mem_filter.mp hmem).1

theorem Keyed.erase {disk : AList fun _ : String => Record V J} (h : Keyed disk) (id : String) :
    Keyed (disk.erase id) := fun key r hr => h key r (lookup_erase_eq_some.mp hr).2

theorem Keyed.removeFiles {disk : AList fun _ : String => Record V J} (h : Keyed disk)
    (removes : String → Bool) (ids : List String) : Keyed (removeFiles disk removes ids) := by
  rw [SessionMon.removeFiles]
  induction ids.filter (removes ·) generalizing disk with
  | nil => exact h
  | cons id l ih => exact ih (h.erase id)

namespace Monitor

variable {s s' : Monitor V J}

/-- A clean session is in the copies that are still to be written, or in its file. -/
structure Sound (s : Monitor V J) : Prop where
  keyed : ∀ id session, s.sessions.lookup id = some session → session.id = id
  files : Keyed s.disk
  copies : ∀ id session, s.sessions.lookup id = some session →
    session.dirtySinceFlush = false → ∀ p ∈ s.pending, p.id = id → p.toJson = session.toJson
  held : ∀ id session, s.sessions.lookup id = some session → session.dirtySinceFlush = false →
    (∃ p ∈ s.pending, p.id = id) ∨ ∃ r, s.disk.lookup id = some r ∧ r.Restores session
  gone : ∀ id ∈ s.unlinking, s.sessions.lookup id = none

/-- No write fails, and no frame names a session whose deletion is under way. -/
def Smooth (s : Monitor V J) : Op V J → Prop
  | .frame _ _ f => ∀ id ∈ s.unlinking, ¬ f.Names id
  | .persist ok => ok = true
  | _ => True

theorem Sound.boot {disk : AList fun _ : String => Record V J} (h : Keyed disk) (now : ℤ)
    (removes : String → Bool) : Sound (boot now removes disk) := by
  have hloaded : ∀ id session, (Monitor.boot now removes disk).sessions.lookup id = some session →
      ∃ r, disk.lookup id = some r ∧ session = r.load now ∧
        (Monitor.boot now removes disk).disk.lookup id = some r := by
    intro id session hs
    simp only [Monitor.boot, loadPersistedSessions, lookup_prune] at hs ⊢
    split at hs
    · cases hs
    · case isFalse hkept =>
      rw [lookup_rehydrate_disk h, Option.map_eq_some_iff] at hs
      obtain ⟨r, hr, rfl⟩ := hs
      exact ⟨r, hr, rfl, (lookup_removeFiles hkept).trans hr⟩
  constructor
  · intro id session hs
    obtain ⟨r, hr, rfl, -⟩ := hloaded id session hs
    exact h id r hr
  · exact h.removeFiles _ _
  · intro id session _ _ p hp
    cases hp
  · intro id session hs _
    obtain ⟨r, -, rfl, hfile⟩ := hloaded id session hs
    exact Or.inr ⟨r, hfile, r.load_restores now⟩
  · intro id hid
    cases hid

/-- A write: the copy goes to the file of its session, and to no other. -/
theorem Sound.persist (hs : Sound s) {snapshot : Session V J} {pending : List (Session V J)}
    (hpending : s.pending = snapshot :: pending) :
    Sound { s with
      disk := s.disk.insert snapshot.id snapshot.toJson, pending := pending } := by
  constructor
  · exact hs.keyed
  · exact forall_insert hs.files rfl
  · intro id session hsession hclean p hp
    exact hs.copies id session hsession hclean p (hpending ▸ List.mem_cons_of_mem _ hp)
  · intro id session hsession hclean
    have hcopies := hs.copies id session hsession hclean
    rw [hpending] at hcopies
    by_cases hid : snapshot.id = id
    · right
      have hsame := hcopies snapshot List.mem_cons_self hid
      refine ⟨snapshot.toJson, ?_, hsame ▸ session.toJson_restores⟩
      simp only [hid, AList.lookup_insert]
    · rcases hs.held id session hsession hclean with ⟨p, hp, hpid⟩ | hfile
      · rw [hpending] at hp
        rcases List.mem_cons.mp hp with rfl | hp
        · exact absurd hpid hid
        · exact Or.inl ⟨p, hp, hpid⟩
      · right
        simpa only [AList.lookup_insert_ne (Ne.symm hid)] using hfile
  · exact hs.gone

/-- A round: what becomes clean is copied, and what was clean is in its file. -/
theorem Sound.collect (hs : Sound s) (hpending : s.pending = []) (now : ℕ) :
    Sound { s with
      sessions := (SessionMon.collect now s.sessions).1
      pending := (SessionMon.collect now s.sessions).2 } := by
  obtain ⟨hmap, hsnap⟩ := collect_spec now s.sessions
  have hcases : ∀ id session, (SessionMon.collect now s.sessions).1.lookup id = some session →
      ∃ before, s.sessions.lookup id = some before ∧
        (due now before ∧ session = before.flushed now ∨
          ¬ due now before ∧ session = before) := by
    intro id session h
    rw [hmap, Option.map_eq_some_iff] at h
    obtain ⟨before, hbefore, rfl⟩ := h
    by_cases hdue : due now before
    · exact ⟨before, hbefore, Or.inl ⟨hdue, if_pos hdue⟩⟩
    · exact ⟨before, hbefore, Or.inr ⟨hdue, if_neg hdue⟩⟩
  constructor
  · intro id session h
    obtain ⟨before, hbefore, ⟨-, rfl⟩ | ⟨-, rfl⟩⟩ := hcases id session h
    · exact hs.keyed id before hbefore
    · exact hs.keyed id session hbefore
  · exact hs.files
  · intro id session h _ p hp hpid
    obtain ⟨key, hkey, hdue⟩ := (hsnap p).mp hp
    obtain rfl : key = id := (hs.keyed key p hkey).symm.trans hpid
    obtain ⟨before, hbefore, hcase⟩ := hcases key session h
    rw [hkey, Option.some.injEq] at hbefore
    subst hbefore
    rcases hcase with ⟨-, rfl⟩ | ⟨hnot, -⟩
    · rfl
    · exact absurd hdue hnot
  · intro id session h hclean
    obtain ⟨before, hbefore, ⟨hdue, rfl⟩ | ⟨-, rfl⟩⟩ := hcases id session h
    · exact Or.inl ⟨before, (hsnap before).mpr ⟨id, hbefore, hdue⟩, hs.keyed id before hbefore⟩
    · rcases hs.held id session hbefore hclean with ⟨p, hp, -⟩ | hfile
      · simp [hpending] at hp
      · exact Or.inr hfile
  · intro id hid
    rw [hmap, hs.gone id hid]
    rfl

theorem Sound.frame (hs : Sound s) (now : ℤ) (removes : String → Bool) {f : Frame V J}
    (hquiet : ∀ id ∈ s.unlinking, ¬ f.Names id) :
    Sound { s with
      sessions := applyFrame now s.sessions f
      disk := removeFiles s.disk removes (prunedBy now s.sessions f) } := by
  have hclean : ∀ id session, (applyFrame now s.sessions f).lookup id = some session →
      session.dirtySinceFlush = false →
        id ∉ prunedBy now s.sessions f ∧ s.sessions.lookup id = some session := by
    intro id session h hclean
    obtain ⟨hkept, hold | ⟨-, -, hdirty⟩⟩ := lookup_applyFrame hs.keyed h
    · exact ⟨hkept, hold⟩
    · rw [hclean] at hdirty
      cases hdirty
  constructor
  · intro id session h
    obtain ⟨-, hold | ⟨-, hid, -⟩⟩ := lookup_applyFrame hs.keyed h
    · exact hs.keyed id session hold
    · exact hid
  · exact hs.files.removeFiles _ _
  · intro id session h hc
    exact hs.copies id session (hclean id session h hc).2 hc
  · intro id session h hc
    obtain ⟨hkept, hold⟩ := hclean id session h hc
    rw [lookup_removeFiles hkept]
    exact hs.held id session hold hc
  · intro id hid
    by_contra hsome
    obtain ⟨session, h⟩ := Option.ne_none_iff_exists'.mp hsome
    obtain ⟨-, hold | ⟨hnames, -⟩⟩ := lookup_applyFrame hs.keyed h
    · rw [hs.gone id hid] at hold
      cases hold
    · exact hquiet id hid hnames

theorem Sound.delete (hs : Sound s) (id : String) : Sound (s.delete id) := by
  rw [Monitor.delete]
  split
  · split
    · exact hs
    · have hother : ∀ key session, (s.sessions.erase id).lookup key = some session →
          s.sessions.lookup key = some session :=
        fun key session h => (lookup_erase_eq_some.mp h).2
      refine ⟨fun key session h => hs.keyed key session (hother key session h), hs.files,
        fun key session h => hs.copies key session (hother key session h),
        fun key session h => hs.held key session (hother key session h), ?_⟩
      intro key hkey
      rcases List.mem_cons.mp hkey with rfl | hkey
      · exact AList.lookup_erase _ _
      · by_cases hid : key = id
        · exact hid ▸ AList.lookup_erase _ _
        · exact (AList.lookup_erase_ne hid).trans (hs.gone key hkey)
  · exact hs

/-- The removal of a file concerns no session in the store. -/
theorem Sound.unlink (hs : Sound s) {id : String} (hid : id ∈ s.unlinking) (removes : Bool) :
    Sound { s with
      disk := if removes then s.disk.erase id else s.disk
      unlinking := s.unlinking.erase id } := by
  have hfile : ∀ key session, s.sessions.lookup key = some session →
      (if removes then s.disk.erase id else s.disk).lookup key = s.disk.lookup key := by
    intro key session h
    have hne : key ≠ id := by
      rintro rfl
      rw [hs.gone key hid] at h
      cases h
    split
    · exact AList.lookup_erase_ne hne
    · rfl
  refine ⟨hs.keyed, ?_, hs.copies, ?_, fun key hkey => hs.gone key (List.mem_of_mem_erase hkey)⟩
  · show Keyed (if removes then s.disk.erase id else s.disk)
    split
    · exact hs.files.erase id
    · exact hs.files
  · intro key session h hclean
    have hheld := hs.held key session h hclean
    rwa [← hfile key session h] at hheld

/-- **One step keeps the invariant.** -/
theorem Sound.step (hs : Sound s) {op : Op V J} (hsmooth : s.Smooth op)
    (h : s.step op = some s') : Sound s' := by
  cases op with
  | frame now removes f =>
      rw [Monitor.step, Option.some.injEq] at h
      exact h ▸ hs.frame now removes hsmooth
  | delete id =>
      rw [Monitor.step, Option.some.injEq] at h
      exact h ▸ hs.delete id
  | unlink id removes =>
      rw [Monitor.step, guarded_eq_some] at h
      obtain ⟨hid, rfl⟩ := h
      exact hs.unlink hid removes
  | collect now =>
      rw [Monitor.step, guarded_eq_some] at h
      obtain ⟨hpending, rfl⟩ := h
      exact hs.collect hpending now
  | persist ok =>
      have hok : ok = true := hsmooth
      rw [Monitor.step] at h
      rcases hpending : s.pending with _ | ⟨snapshot, pending⟩
      · simp [hpending] at h
      · simp only [hpending, hok, if_true, Option.some.injEq] at h
        exact h ▸ hs.persist hpending

end Monitor

/-- What the cap takes when the service starts has newer ends above it, as many as are kept. -/
theorem lookup_loadPersistedSessions {now : ℤ} {files : List (Record V J)} {id : String}
    {loaded : Session V J} (h : (rehydrate now files).lookup id = some loaded) :
    (loadPersistedSessions now files).lookup id = some loaded ∨
      kMaxEndedSessions ≤
        above (endedSessions (rehydrate now files)) (toLex (loaded.endedAtEpoch, id)) := by
  rw [loadPersistedSessions, lookup_prune]
  by_cases hid : id ∈ excess (rehydrate now files)
  · right
    obtain ⟨e, he, hold⟩ := mem_excess.mp hid
    obtain ⟨-, s, hs, rfl⟩ := mem_endedSessions.mp he
    rw [h, Option.some.injEq] at hs
    subst hs
    by_contra hfew
    exact hold (mem_highest.mpr ⟨he, not_le.mp hfew⟩)
  · left
    rw [if_neg hid, h]

/-- **What is clean survives.**  Start the service on files that are kept under the ids of their
sessions and let frames, deletions and housekeeping interleave, no write failing and no frame
naming a session whose deletion is under way.  If the service is then killed, every session that
is clean and of which no copy is waiting to be written is in the files: with its start, its
metadata and its series, and with its end or the time of the loading.  The service that starts on
them has it, unless they hold as many newer ends as the cap keeps. -/
theorem clean_session_survives {disk : AList fun _ : String => Record V J} (hdisk : Keyed disk)
    {start : ℤ} {removes : String → Bool} {ops : List (Op V J)} {s : Monitor V J}
    (hsmooth : RunMeets Monitor.step Monitor.Smooth (Monitor.boot start removes disk) ops)
    (hrun : run Monitor.step (Monitor.boot start removes disk) ops = some s) {id : String}
    {session : Session V J} (hsession : s.sessions.lookup id = some session)
    (hclean : session.dirtySinceFlush = false) (hwritten : ∀ p ∈ s.pending, p.id ≠ id)
    (later : ℤ) :
    ∃ loaded, (rehydrate later (s.disk.entries.map Sigma.snd)).lookup id = some loaded ∧
      loaded.startedAtEpoch = session.startedAtEpoch ∧ loaded.metadata = session.metadata ∧
      loaded.series = session.series ∧
      (loaded.endedAtEpoch = session.endedAtEpoch ∨ loaded.endedAtEpoch = later) ∧
      ((loadPersistedSessions later (s.disk.entries.map Sigma.snd)).lookup id = some loaded ∨
        kMaxEndedSessions ≤
          above (endedSessions (rehydrate later (s.disk.entries.map Sigma.snd)))
            (toLex (loaded.endedAtEpoch, id))) := by
  have hstep : ∀ (s : Monitor V J) (op : Op V J) (s' : Monitor V J), s.Sound → s.Smooth op →
      s.step op = some s' → s'.Sound := fun _ _ _ hs hop h => hs.step hop h
  have hs : s.Sound :=
    run_invariant_of_meets hstep (Monitor.Sound.boot hdisk start removes) hsmooth hrun
  rcases hs.held id session hsession hclean with ⟨p, hp, hpid⟩ | ⟨r, hr, hrestores⟩
  · exact absurd hpid (hwritten p hp)
  · have hloaded : (rehydrate later (s.disk.entries.map Sigma.snd)).lookup id =
        some (r.load later) := by
      rw [lookup_rehydrate_disk hs.files, hr, Option.map_some]
    refine ⟨r.load later, hloaded, hrestores.startedAt, hrestores.metadata, hrestores.series, ?_,
      lookup_loadPersistedSessions hloaded⟩
    rcases hrestores.streamEndedAt with hend | hend
    · right
      simp [Record.load, hend]
    · left
      simp [Record.load, hend]

/-- A session that starts, ends and is flushed. -/
def flushedOps : List (Op ℤ Unit) :=
  let frame := fun type => ⟨.present type, .present "1-1", .absent, .absent, .absent, none, none⟩
  [.frame 10 (fun _ => true) (frame "session_started"),
    .frame 12 (fun _ => true) (frame "session_ended"), .collect 400, .persist true]

theorem clean_session_survives_flushed :
    ∃ s : Monitor ℤ Unit, run Monitor.step (Monitor.boot 0 (fun _ => true) ∅) flushedOps = some s ∧
      ∃ loaded, (loadPersistedSessions 500 (s.disk.entries.map Sigma.snd)).lookup "1-1" =
        some loaded ∧ loaded.startedAtEpoch = 10 := by
  have hkeyed : Keyed (∅ : AList fun _ : String => Record ℤ Unit) := by
    intro id r h
    cases h
  have hsmooth : RunMeets Monitor.step Monitor.Smooth
      (Monitor.boot 0 (fun _ => true) (∅ : AList fun _ : String => Record ℤ Unit)) flushedOps := by
    simp [flushedOps, RunMeets, Monitor.Smooth, Monitor.step, Monitor.boot]
  have hrun : ∃ s session, run Monitor.step (Monitor.boot 0 (fun _ => true) ∅) flushedOps =
      some s ∧ s.pending = [] ∧ s.sessions.lookup "1-1" = some session ∧
        session.dirtySinceFlush = false ∧ session.startedAtEpoch = 10 ∧
          (endedPairs (rehydrate 500 (s.disk.entries.map Sigma.snd))).length = 1 :=
    ⟨_, _, rfl, rfl, rfl, rfl, rfl, rfl⟩
  obtain ⟨s, session, hrun, hpending, hsession, hclean, hstart, hone⟩ := hrun
  refine ⟨s, hrun, ?_⟩
  obtain ⟨loaded, -, hstarted, -, -, -, hloaded | hmany⟩ := clean_session_survives hkeyed hsmooth
    hrun hsession hclean (by simp [hpending]) 500
  · exact ⟨loaded, hloaded, hstarted.trans hstart⟩
  · -- the file is the only one
    have hfew : above (endedSessions (rehydrate 500 (s.disk.entries.map Sigma.snd)))
        (toLex (loaded.endedAtEpoch, "1-1")) ≤ 1 :=
      (Finset.card_filter_le _ _).trans ((List.toFinset_card_le _).trans hone.le)
    have hcap : kMaxEndedSessions = 25 := rfl
    omega

end LuminalShine.SessionMon
