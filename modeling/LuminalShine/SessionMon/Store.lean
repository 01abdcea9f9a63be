import LuminalShine.Lib.Assoc
import LuminalShine.Lib.Highest
import Mathlib

/-!
# The session store of the monitor

The monitor keeps every live session and the newest of those that have ended.  A frame that names
a session unknown to the store creates it; the end of a session cuts the ended ones down to the
cap, oldest first, and so does the start of the service behind the files it has loaded.

* `Session`, `Frame` with `applyFrame` — one ingest frame;
* `pruneExcessEndedSessions`, `loadPersistedSessions` — the cap, and the start;
* `endedSessions_prune` — what the cap keeps;
* `sessions_retained` — over any stream of frames that name no session behind its end: the live
  sessions are those not ended, and the ended ones kept are the newest of all.
-/

namespace LuminalShine.SessionMon

open LuminalShine.Lib

variable {V J : Type}

/-! ## Sessions -/

def kRingCapacity : ℕ := 24 * 60 * 60

/-- `Series::push`. -/
def pushPoint (points : List (ℤ × V)) (ts : ℤ) (v : V) : List (ℤ × V) :=
  if points.getLast?.map Prod.fst = some ts then points.dropLast ++ [(ts, v)]
  else
    let points := points ++ [(ts, v)]
    points.drop (points.length - kRingCapacity)

/-- `Session`: `endedAtEpoch` is zero while the session is live. -/
structure Session (V J : Type) where
  id : String
  startedAtEpoch : ℤ
  endedAtEpoch : ℤ
  metadata : AList fun _ : String => J
  dirtySinceFlush : Bool
  lastFlush : ℕ
  series : AList fun _ : String => List (ℤ × V)

/-- The default member values. -/
def Session.empty : Session V J where
  id := ""
  startedAtEpoch := 0
  endedAtEpoch := 0
  metadata := ∅
  dirtySinceFlush := false
  lastFlush := 0
  series := ∅

/-- `g_store.sessions`. -/
abbrev Store (V J : Type) := AList fun _ : String => Session V J

/-! ## Frames -/

/-- What `value` with a default finds under a key: a value of another type makes it throw. -/
inductive Field (α : Type) where
  | absent
  | mistyped
  | present (value : α)

def Field.value {α : Type} : Field α → α → Option α
  | .absent, default => some default
  | .mistyped, _ => none
  | .present value, _ => some value

/-- An ingest frame.  `metadata` and `series` are there if they are objects, and a value of the
series if it is a number. -/
structure Frame (V J : Type) where
  type : Field String
  id : Field String
  startedAt : Field ℤ
  endedAt : Field ℤ
  ts : Field ℤ
  metadata : Option (AList fun _ : String => J)
  series : Option (List (String × Option V))

/-- The session of `g_store.sessions[id]`, marked dirty. -/
def touch (m : Store V J) (id : String) : Session V J :=
  let s := (m.lookup id).getD .empty
  { s with id := if s.id = "" then id else s.id, dirtySinceFlush := true }

/-- The loop over the values of a sample. -/
def pushSample (ts : ℤ) (series : AList fun _ : String => List (ℤ × V)) :
    List (String × Option V) → AList fun _ : String => List (ℤ × V)
  | [] => series
  | (name, some v) :: values =>
      pushSample ts (series.insert name (pushPoint ((series.lookup name).getD []) ts v)) values
  | (_, none) :: values => pushSample ts series values

/-! ## The cap -/

def kMaxEndedSessions : ℕ := 25

/-- The pairs that `prune_excess_ended_sessions_locked` sorts: the end and the key. -/
def endedPairs (m : Store V J) : List (ℤ ×ₗ String) :=
  m.entries.filterMap fun e =>
    if e.2.endedAtEpoch ≠ 0 then some (toLex (e.2.endedAtEpoch, e.1)) else none

/-- The keys of the oldest. -/
def excess (m : Store V J) : List String :=
  (((endedPairs m).insertionSort (· ≤ ·)).take
    ((endedPairs m).length - kMaxEndedSessions)).map fun p => (ofLex p).2

/-- `prune_excess_ended_sessions_locked`. -/
def pruneExcessEndedSessions (m : Store V J) : Store V J :=
  (excess m).foldl (fun m id => m.erase id) m

/-- The branches of `apply_frame` on the session it names, and whether the cap is applied.  A
field that throws leaves the session as it was. -/
def Session.update (s : Session V J) (now : ℤ) (type : String) (f : Frame V J) :
    Session V J × Bool :=
  if type = "session_started" then
    match f.startedAt.value now with
    | some startedAt =>
        ({ s with
          startedAtEpoch := startedAt
          endedAtEpoch := 0
          metadata := f.metadata.getD s.metadata }, false)
    | none => (s, false)
  else if type = "sample" then
    match f.ts.value now with
    | some ts => ({ s with series := pushSample ts s.series (f.series.getD []) }, false)
    | none => (s, false)
  else if type = "metadata_update" then
    ({ s with
      metadata := (f.metadata.getD ∅).entries.foldl (fun md e => md.insert e.1 e.2) s.metadata },
      false)
  else if type = "session_ended" then
    match f.endedAt.value now with
    | some endedAt => ({ s with endedAtEpoch := endedAt }, true)
    | none => (s, false)
  else (s, false)

/-- The type and the session of a frame, if `apply_frame` reads it at all. -/
def Frame.subject (f : Frame V J) : Option (String × String) :=
  match f.type.value "", f.id.value "" with
  | some type, some id => if type = "" ∨ id = "" then none else some (type, id)
  | _, _ => none

/-- `apply_frame`. -/
def applyFrame (now : ℤ) (m : Store V J) (f : Frame V J) : Store V J :=
  match f.subject with
  | none => m
  | some (type, id) =>
      let (s, ended) := (touch m id).update now type f
      if ended then pruneExcessEndedSessions (m.insert id s) else m.insert id s

/-- The frames of a stream, each with the time at which it is applied. -/
def ingest (m : Store V J) (frames : List (ℤ × Frame V J)) : Store V J :=
  frames.foldl (fun m f => applyFrame f.1 m f.2) m

/-! ## The files -/

/-- What `to_json` writes: a live session has no end. -/
structure Record (V J : Type) where
  id : String
  startedAt : ℤ
  streamEndedAt : Option ℤ
  metadata : AList fun _ : String => J
  series : AList fun _ : String => List (ℤ × V)

/-- `load_persisted_sessions` on a file that could be parsed: one without an end is given one. -/
def Record.load (now : ℤ) (r : Record V J) : Session V J where
  id := r.id
  startedAtEpoch := r.startedAt
  endedAtEpoch := r.streamEndedAt.getD now
  metadata := r.metadata
  dirtySinceFlush := false
  lastFlush := 0
  series := r.series

/-- The loop of `load_persisted_sessions`. -/
def rehydrate (now : ℤ) (files : List (Record V J)) : Store V J :=
  files.foldl (fun m r => emplace m r.id (r.load now)) ∅

/-- `load_persisted_sessions`. -/
def loadPersistedSessions (now : ℤ) (files : List (Record V J)) : Store V J :=
  pruneExcessEndedSessions (rehydrate now files)

/-! ## What the store holds -/

/-- The session is there and live. -/
def Live (m : Store V J) (id : String) : Prop := ∃ s, m.lookup id = some s ∧ s.endedAtEpoch = 0

/-- The ends of the ended sessions. -/
def endedSessions (m : Store V J) : Finset (ℤ ×ₗ String) := (endedPairs m).toFinset

variable {m : Store V J} {id : String} {e now : ℤ} {s : Session V J}

theorem mem_endedPairs : toLex (e, id) ∈ endedPairs m ↔
    e ≠ 0 ∧ ∃ s, m.lookup id = some s ∧ s.endedAtEpoch = e := by
  rw [endedPairs, List.mem_filterMap]
  constructor
  · rintro ⟨⟨key, s⟩, hmem, hsome⟩
    split at hsome
    · case isTrue hne =>
      rw [Option.some.injEq, EmbeddingLike.apply_eq_iff_eq, Prod.mk.injEq] at hsome
      obtain ⟨rfl, rfl⟩ := hsome
      exact ⟨hne, s, AList.mem_lookup_iff.mpr hmem, rfl⟩
    · cases hsome
  · rintro ⟨hne, s, hlookup, rfl⟩
    exact ⟨⟨id, s⟩, AList.mem_lookup_iff.mp hlookup, if_pos hne⟩

theorem mem_endedSessions : toLex (e, id) ∈ endedSessions m ↔
    e ≠ 0 ∧ ∃ s, m.lookup id = some s ∧ s.endedAtEpoch = e := by
  rw [endedSessions, List.mem_toFinset, mem_endedPairs]

/-- A key is named once. -/
theorem nodup_endedPairs_keys (m : Store V J) :
    ((endedPairs m).map fun p => (ofLex p).2).Nodup := by
  have hsub : ∀ l : List (Sigma fun _ : String => Session V J),
      ((l.filterMap fun e => if e.2.endedAtEpoch ≠ 0 then
        some (toLex (e.2.endedAtEpoch, e.1)) else none).map fun p => (ofLex p).2).Sublist
        (l.map Sigma.fst) := by
    intro l
    induction l with
    | nil => exact List.Sublist.refl _
    | cons e l ih =>
        by_cases he : e.2.endedAtEpoch = 0
        · simpa [he] using ih.cons e.1
        · simpa [he] using ih.cons_cons e.1
  exact List.Nodup.sublist (hsub m.entries) m.nodupKeys

theorem lookup_foldl_erase (ids : List String) (m : Store V J) :
    (ids.foldl (fun m id => m.erase id) m).lookup id =
      if id ∈ ids then none else m.lookup id := by
  induction ids generalizing m with
  | nil => simp
  | cons key ids ih =>
      rw [List.foldl_cons, ih]
      by_cases hkey : id = key
      · subst hkey
        simp [AList.lookup_erase]
      · simp [hkey, AList.lookup_erase_ne hkey]

/-- The keys that go are those of the ends that are not among the newest. -/
theorem mem_excess : id ∈ excess m ↔
    ∃ e, toLex (e, id) ∈ endedSessions m ∧
      toLex (e, id) ∉ highest kMaxEndedSessions (endedSessions m) := by
  have hnodup := (nodup_endedPairs_keys m).of_map
  have hmem : ∀ p : ℤ ×ₗ String, p ∈ ((endedPairs m).insertionSort (· ≤ ·)).take
      ((endedPairs m).length - kMaxEndedSessions) ↔
        p ∈ endedSessions m ∧ p ∉ highest kMaxEndedSessions (endedSessions m) := by
    intro p
    rw [mem_take_insertionSort hnodup, endedSessions, List.mem_toFinset]
  simp only [excess, List.mem_map, hmem]
  constructor
  · rintro ⟨p, hp, rfl⟩
    exact ⟨(ofLex p).1, hp⟩
  · rintro ⟨e, he⟩
    exact ⟨_, he, rfl⟩

theorem lookup_prune : (pruneExcessEndedSessions m).lookup id =
    if id ∈ excess m then none else m.lookup id := lookup_foldl_erase _ m

theorem not_mem_excess_of_live (h : Live m id) : id ∉ excess m := by
  intro hid
  obtain ⟨s, hs, hlive⟩ := h
  obtain ⟨e, he, -⟩ := mem_excess.mp hid
  obtain ⟨hne, s', hs', rfl⟩ := mem_endedSessions.mp he
  rw [hs, Option.some.injEq] at hs'
  exact hne (hs' ▸ hlive)

/-- The cap takes no live session. -/
theorem live_prune : Live (pruneExcessEndedSessions m) id ↔ Live m id := by
  constructor
  · rintro ⟨s, hs, hlive⟩
    rw [lookup_prune] at hs
    split at hs
    · cases hs
    · exact ⟨s, hs, hlive⟩
  · intro h
    have hstays := not_mem_excess_of_live h
    obtain ⟨s, hs, hlive⟩ := h
    exact ⟨s, by rw [lookup_prune, if_neg hstays, hs], hlive⟩

/-- **The cap keeps the newest.** -/
theorem endedSessions_prune (m : Store V J) :
    endedSessions (pruneExcessEndedSessions m) = highest kMaxEndedSessions (endedSessions m) := by
  ext p
  obtain ⟨⟨e, id⟩, rfl⟩ := toLex.surjective p
  rw [mem_endedSessions, lookup_prune]
  have hunique : ∀ e', toLex (e', id) ∈ endedSessions m → toLex (e, id) ∈ endedSessions m →
      e' = e := by
    intro e' he' he
    obtain ⟨-, s', hs', rfl⟩ := mem_endedSessions.mp he'
    obtain ⟨-, s, hs, rfl⟩ := mem_endedSessions.mp he
    rw [hs, Option.some.injEq] at hs'
    rw [hs']
  constructor
  · rintro ⟨hne, s, hs, rfl⟩
    split at hs
    · cases hs
    · case isFalse hexcess =>
      have hmem : toLex (s.endedAtEpoch, id) ∈ endedSessions m :=
        mem_endedSessions.mpr ⟨hne, s, hs, rfl⟩
      by_contra hold
      exact hexcess (mem_excess.mpr ⟨_, hmem, hold⟩)
  · intro hkept
    have hmem := highest_subset hkept
    obtain ⟨hne, s, hs, hend⟩ := mem_endedSessions.mp hmem
    refine ⟨hne, s, ?_, hend⟩
    rw [if_neg, hs]
    intro hexcess
    obtain ⟨e', he', hold⟩ := mem_excess.mp hexcess
    rw [hunique e' he' hmem] at hold
    exact hold hkept

/-! ## One frame -/

/-- The end that a frame gives to its session. -/
def Frame.ending (now : ℤ) (f : Frame V J) : Option (ℤ ×ₗ String) :=
  match f.subject, f.endedAt.value now with
  | some (type, id), some endedAt =>
      if type = "session_ended" ∧ endedAt ≠ 0 then some (toLex (endedAt, id)) else none
  | _, _ => none

/-- What becomes of the end of a session. -/
theorem update_endedAtEpoch (s : Session V J) (now : ℤ) (type : String) (f : Frame V J) :
    if type = "session_ended" ∧ f.endedAt.value now ≠ none then
      (s.update now type f).2 = true ∧
        f.endedAt.value now = some (s.update now type f).1.endedAtEpoch
    else (s.update now type f).2 = false ∧ ((s.update now type f).1.endedAtEpoch = 0 ∨
      (s.update now type f).1.endedAtEpoch = s.endedAtEpoch) := by
  by_cases hended : type = "session_ended"
  · subst hended
    rcases hvalue : f.endedAt.value now with _ | endedAt <;> simp [Session.update, hvalue]
  · simp only [hended, false_and, if_false, Session.update]
    repeat' split
    all_goals simp

/-- **What a frame does to the ends.**  A frame that is read writes its session, and the cap is
applied if it ends it. -/
theorem applyFrame_cases (now : ℤ) (m : Store V J) (f : Frame V J) :
    f.subject = none ∧ f.ending now = none ∧ applyFrame now m f = m ∨
      ∃ type id s, f.subject = some (type, id) ∧
        ((applyFrame now m f = m.insert id s ∧ f.ending now = none ∧
            (s.endedAtEpoch = 0 ∨
              s.endedAtEpoch = ((m.lookup id).getD .empty).endedAtEpoch)) ∨
          applyFrame now m f = pruneExcessEndedSessions (m.insert id s) ∧
            f.ending now =
              if s.endedAtEpoch ≠ 0 then some (toLex (s.endedAtEpoch, id)) else none) := by
  rcases hsubject : f.subject with _ | ⟨type, id⟩
  · exact Or.inl ⟨rfl, by simp [Frame.ending, hsubject], by simp [applyFrame, hsubject]⟩
  · refine Or.inr ⟨type, id, ((touch m id).update now type f).1, rfl, ?_⟩
    have hupdate := update_endedAtEpoch (touch m id) now type f
    simp only [applyFrame, hsubject, Frame.ending]
    split at hupdate
    · case isTrue hended =>
      right
      exact ⟨by simp only [hupdate.1, if_true], by simp [hupdate.2, hended.1]⟩
    · case isFalse hother =>
      left
      refine ⟨by simp [hupdate.1], ?_, hupdate.2⟩
      rcases hvalue : f.endedAt.value now with _ | endedAt
      · rfl
      · have htype : type ≠ "session_ended" := fun h => hother ⟨h, by simp [hvalue]⟩
        simp [htype]

/-! ## A stream of frames -/

theorem endedSessions_insert (hfresh : ∀ e, toLex (e, id) ∉ endedSessions m)
    (s : Session V J) : endedSessions (m.insert id s) =
      if s.endedAtEpoch = 0 then endedSessions m
      else insert (toLex (s.endedAtEpoch, id)) (endedSessions m) := by
  ext p
  obtain ⟨⟨e, key⟩, rfl⟩ := toLex.surjective p
  rw [mem_endedSessions]
  by_cases hkey : key = id
  · subst hkey
    have hold := hfresh e
    rw [AList.lookup_insert]
    split
    · case isTrue hlive =>
      refine iff_of_false ?_ hold
      rintro ⟨hne, s', hs', rfl⟩
      rw [Option.some.injEq] at hs'
      exact hne (hs' ▸ hlive)
    · case isFalse hended =>
      rw [Finset.mem_insert, or_iff_left hold, EmbeddingLike.apply_eq_iff_eq, Prod.mk.injEq]
      constructor
      · rintro ⟨-, s', hs', rfl⟩
        rw [Option.some.injEq] at hs'
        exact ⟨hs' ▸ rfl, rfl⟩
      · rintro ⟨rfl, -⟩
        exact ⟨hended, s, rfl, rfl⟩
  · rw [AList.lookup_insert_ne hkey, ← mem_endedSessions]
    split
    · rfl
    · rw [Finset.mem_insert, EmbeddingLike.apply_eq_iff_eq, Prod.mk.injEq]
      simp [hkey]

theorem live_insert (m : Store V J) (s : Session V J) (key : String) :
    Live (m.insert id s) key ↔ if key = id then s.endedAtEpoch = 0 else Live m key := by
  unfold Live
  split
  · case isTrue hkey =>
    subst hkey
    simp
  · case isFalse hkey => rw [AList.lookup_insert_ne hkey]

/-- The frame is about this session. -/
def Frame.Names (f : Frame V J) (id : String) : Prop := ∃ type, f.subject = some (type, id)

/-- What a store has kept of the sessions that were `seen` and of the ends that were given to
them. -/
structure Retains (m : Store V J) (ends : Finset (ℤ ×ₗ String)) (seen : String → Prop) :
    Prop where
  ended : endedSessions m = highest kMaxEndedSessions ends
  live : ∀ id, Live m id ↔ seen id ∧ ∀ e, toLex (e, id) ∉ ends

/-- **The step.**  A frame whose session has not ended adds its session, and its end. -/
theorem Retains.applyFrame {ends : Finset (ℤ ×ₗ String)} {seen : String → Prop}
    (h : Retains m ends seen) {f : Frame V J}
    (hfresh : ∀ id, f.Names id → ∀ e, toLex (e, id) ∉ ends) :
    Retains (applyFrame now m f) (ends ∪ (f.ending now).toFinset)
      (fun id => seen id ∨ f.Names id) := by
  have hidle : highest kMaxEndedSessions (endedSessions m) = endedSessions m := by
    rw [h.ended]
    exact highest_eq_of_subset (Finset.Subset.refl _) highest_subset
  rcases applyFrame_cases now m f with ⟨hsubject, hending, happly⟩ |
    ⟨type, id, s, hsubject, hcases⟩
  · rw [happly, hending]
    constructor
    · simpa using h.ended
    · simpa [Frame.Names, hsubject] using h.live
  · have hnew := hfresh id ⟨type, hsubject⟩
    have hnames : ∀ key, f.Names key ↔ key = id := by
      intro key
      simp [Frame.Names, hsubject, eq_comm]
    have hgone : ∀ e, toLex (e, id) ∉ endedSessions m := by
      intro e he
      rw [h.ended] at he
      exact hnew e (highest_subset he)
    rcases hcases with ⟨happly, hending, hend⟩ | ⟨happly, hending⟩
    · -- the session stays live
      have hlive : s.endedAtEpoch = 0 := by
        rcases hend with hend | hend
        · exact hend
        · rcases hlookup : m.lookup id with _ | s'
          · simpa [hlookup, Session.empty] using hend
          · by_contra hne
            rw [hlookup, Option.getD_some] at hend
            exact hgone _ (mem_endedSessions.mpr ⟨hne, s', hlookup, hend.symm⟩)
      rw [happly, hending]
      constructor
      · simpa [endedSessions_insert hgone, hlive] using h.ended
      · intro key
        rw [live_insert, hnames, Option.toFinset_none, Finset.union_empty]
        by_cases hkey : key = id
        · subst hkey
          simp [hlive, hnew]
        · simpa [hkey] using h.live key
    · rw [happly, hending]
      by_cases hlive : s.endedAtEpoch = 0
      · constructor
        · rw [endedSessions_prune, endedSessions_insert hgone, if_pos hlive, hidle]
          simpa [hlive] using h.ended
        · intro key
          rw [live_prune, live_insert, hnames]
          by_cases hkey : key = id
          · subst hkey
            simp [hlive, hnew]
          · simpa [hkey, hlive] using h.live key
      · have hends : ends ∪ (if s.endedAtEpoch ≠ 0 then some (toLex (s.endedAtEpoch, id))
            else none).toFinset = insert (toLex (s.endedAtEpoch, id)) ends := by
          rw [if_pos hlive, Option.toFinset_some, Finset.union_comm, Finset.singleton_union]
        rw [hends]
        constructor
        · rw [endedSessions_prune, endedSessions_insert hgone, if_neg hlive, h.ended,
            highest_insert]
        · intro key
          rw [live_prune, live_insert, hnames]
          by_cases hkey : key = id
          · subst hkey
            simp only [if_true, hlive, false_iff, not_and, not_forall, not_not]
            exact fun _ => ⟨_, Finset.mem_insert_self _ _⟩
          · simpa [hkey] using h.live key

/-- **The stream.** -/
theorem Retains.ingest {frames : List (ℤ × Frame V J)} {ends : Finset (ℤ ×ₗ String)}
    {seen : String → Prop} (h : Retains m ends seen)
    (hfresh : ∀ f ∈ frames, ∀ id, f.2.Names id → ∀ e, toLex (e, id) ∉ ends)
    (hlast : frames.Pairwise fun f g => ∀ p, f.2.ending f.1 = some p →
      ¬ g.2.Names (ofLex p).2) :
    Retains (ingest m frames) (ends ∪ (frames.filterMap fun f => f.2.ending f.1).toFinset)
      (fun id => seen id ∨ ∃ f ∈ frames, f.2.Names id) := by
  induction frames generalizing m ends seen with
  | nil => simpa [SessionMon.ingest] using h
  | cons f frames ih =>
      obtain ⟨hf, hlast⟩ := List.pairwise_cons.mp hlast
      have hstep : Retains (SessionMon.applyFrame f.1 m f.2) (ends ∪ (f.2.ending f.1).toFinset)
          (fun id => seen id ∨ f.2.Names id) := h.applyFrame (hfresh f List.mem_cons_self)
      have hrest := ih hstep ?_ hlast
      · have hends : ends ∪ ((f :: frames).filterMap fun f => f.2.ending f.1).toFinset =
            ends ∪ (f.2.ending f.1).toFinset ∪
              (frames.filterMap fun f => f.2.ending f.1).toFinset := by
          rw [Finset.union_assoc, List.filterMap_cons]
          ext q
          rcases f.2.ending f.1 with _ | p <;> simp
        have hseen : (fun id => seen id ∨ ∃ g ∈ f :: frames, g.2.Names id) =
            fun id => (seen id ∨ f.2.Names id) ∨ ∃ g ∈ frames, g.2.Names id := by
          funext id
          simp [or_assoc]
        rw [hends, hseen]
        exact hrest
      · intro g hg id hnames e hmem
        rcases Finset.mem_union.mp hmem with hmem | hmem
        · exact hfresh g (List.mem_cons_of_mem _ hg) id hnames e hmem
        · rw [Option.mem_toFinset, Option.mem_def] at hmem
          exact hf g hg _ hmem hnames

/-- **The monitor keeps the live sessions and the newest ended ones.**  Let the service start on
any files and read any stream of frames in which no session is named behind its end.  Then the
live sessions are those loaded live or named by a frame that have not ended, and the ended ones
are the newest of those that were loaded ended and those that ended since. -/
theorem sessions_retained {files : List (Record V J)} {start : ℤ}
    {frames : List (ℤ × Frame V J)}
    (hfresh : ∀ f ∈ frames, ∀ id, f.2.Names id →
      ∀ e, toLex (e, id) ∉ endedSessions (rehydrate start files))
    (hlast : frames.Pairwise fun f g => ∀ p, f.2.ending f.1 = some p →
      ¬ g.2.Names (ofLex p).2) :
    let ends := endedSessions (rehydrate start files) ∪
      (frames.filterMap fun f => f.2.ending f.1).toFinset
    let m := ingest (loadPersistedSessions start files) frames
    endedSessions m = highest kMaxEndedSessions ends ∧ (endedSessions m).card ≤ 25 ∧
      ∀ id, Live m id ↔ (Live (rehydrate start files) id ∨ ∃ f ∈ frames, f.2.Names id) ∧
        ∀ e, toLex (e, id) ∉ ends := by
  have hload : Retains (loadPersistedSessions start files)
      (endedSessions (rehydrate start files)) (Live (rehydrate start files)) := by
    constructor
    · exact endedSessions_prune _
    · intro id
      rw [loadPersistedSessions, live_prune]
      refine ⟨fun h => ⟨h, ?_⟩, fun h => h.1⟩
      intro e he
      obtain ⟨s, hs, hlive⟩ := h
      obtain ⟨hne, s', hs', rfl⟩ := mem_endedSessions.mp he
      rw [hs, Option.some.injEq] at hs'
      exact hne (hs' ▸ hlive)
  have hrun := hload.ingest hfresh hlast
  refine ⟨hrun.ended, ?_, hrun.live⟩
  rw [hrun.ended, card_highest]
  exact Nat.min_le_left _ _

/-- Two sessions of which the second one ends. -/
def twoSessions : List (ℤ × Frame ℤ Unit) :=
  let frame := fun type id => ⟨.present type, .present id, .absent, .absent, .absent, none, none⟩
  [(10, frame "session_started" "1-1"), (11, frame "session_started" "1-2"),
    (12, frame "session_ended" "1-2")]

theorem sessions_retained_two :
    Live (ingest (loadPersistedSessions 0 []) twoSessions) "1-1" ∧
      (endedSessions (ingest (loadPersistedSessions 0 []) twoSessions)).card ≤ 25 := by
  have hnone : ∀ id e, toLex (e, id) ∉ endedSessions (rehydrate 0 ([] : List (Record ℤ Unit))) := by
    simp [rehydrate, mem_endedSessions]
  obtain ⟨-, hcard, hlive⟩ := @sessions_retained ℤ Unit [] 0 twoSessions
    (fun _ _ id _ e => hnone id e)
    (by simp [twoSessions, Frame.ending, Frame.Names, Frame.subject, Field.value])
  refine ⟨(hlive "1-1").mpr ⟨Or.inr ⟨_, List.mem_cons_self, "session_started", ?_⟩, ?_⟩, hcard⟩
  · simp [Frame.subject, Field.value]
  · intro e
    simp [hnone, twoSessions, Frame.ending, Frame.subject, Field.value]

end LuminalShine.SessionMon
