import LuminalShine.Nvprefs.Driver
import Mathlib.Tactic.Common

/-!
# What the undo journal keeps

The saved setting is overwritten only behind a record of what it was, and the record goes only
when the setting is back.  The restoring functions are given their pre- and postconditions here.

## Main definitions

* `record` — the undo data for an earlier reading.
* `Inv` — what holds at every call: as long as the saved setting is what the program wrote, the
  record is in the file.
* `Brings` — a call that ends this brings the earlier reading back.
* `Clean` — a session with nothing of its own, or with a restoration that could not be saved.

## Main results

* `Clean.save` — what a save of such a session does.
* `triple_recover` — the recovery from the undo file of an earlier process.
-/

namespace LuminalShine.Nvprefs

open LuminalShine.Lib.Calls

variable (d : Driver)

/-- The undo data for the reading `e`. -/
def record (e : Option Value) : UndoData := ⟨some ⟨d.preferEnabled, e⟩⟩

/-! ## Invariant, interference and condition -/

structure Inv (h : Host) : Prop where
  written : ∀ e, h.written = some e →
    e ≠ some d.preferEnabled ∧ effective d e = e ∧ h.saved = some d.preferEnabled ∧
      ∃ flushed, h.file = some ⟨some (record d e), flushed⟩
  contents : ∀ data flushed, h.file = some ⟨some data, flushed⟩ → ∃ e, data = record d e
  memory : ∀ data, h.impl.undoData = some data → ∃ e, data = record d e
  owned : h.impl.undoFile = some true → h.file.isSome = true ∧
    ∀ e, h.written = some e → h.impl.undoData = some (record d e)
  exclusive : h.impl.undoFile = some true → h.recovery.isSome = false
  reset : h.impl.undoFile = some false → h.file = none
  recovery : h.recovery.isSome = true → h.file.isSome = true

/-- The saved setting is changed by others, or nothing happens. -/
inductive Interferes (h : Host) : Host → Prop where
  | none : Interferes h h
  | saves (saved : Option Value) : Interferes h { h with saved, written := .none }

/-- The earlier reading stays on record or is back. -/
def Brings (h t : Host) : Prop :=
  ∀ e, h.written = some e → t.written = some e ∨ effective d t.saved = e

/-- A change of the setting is not saved over another one that was made since the session took
its copy; a recovery that has failed does not delete the file while the setting is ours. -/
def Allowed (h : Host) : Call → Bool → Prop
  | .saveSettings, true => ∀ session ∈ h.impl.session,
      session.own = some d.preferEnabled → h.saved = session.base
  | .deleteFile, true => h.recovery = some true → h.written = none
  | _, _ => True

variable {d} {h : Host} {e : Option Value} {session : Session}

theorem Inv.file_of_written (hinv : Inv d h) (hwritten : h.written = some e) :
    h.file.isSome = true := by
  obtain ⟨-, -, -, flushed, hfile⟩ := hinv.written e hwritten
  simp [hfile]

theorem Inv.written_of_file (hinv : Inv d h) (hfile : h.file = none) : h.written = none := by
  cases hwritten : h.written with
  | none => rfl
  | some e => simpa [hfile] using hinv.file_of_written hwritten

theorem Inv.interferes {t : Host} (hinv : Inv d h) (ht : Interferes h t) : Inv d t := by
  cases ht with
  | none => exact hinv
  | saves saved =>
      exact {
        written := fun e he => by cases he
        contents := hinv.contents
        memory := hinv.memory
        owned := fun howned => ⟨(hinv.owned howned).1, fun e he => by cases he⟩
        exclusive := hinv.exclusive
        reset := hinv.reset
        recovery := hinv.recovery }

variable (d) in
/-- The calls with their surroundings. -/
def surroundings : Surroundings Call Call.Answer Host Bool where
  perform := perform d
  interferes := Interferes
  allowed := Allowed d
  inv := Inv d
  guarantees := Brings d
  refl := fun _ => .none
  trans := fun s t r hst htr => by
    cases hst with
    | none => exact htr
    | saves saved =>
        cases htr with
        | none => exact .saves saved
        | saves saved' => exact .saves saved'
  inv_of_interferes := fun _ _ hinv ht => hinv.interferes ht

abbrev Triple {α : Type} (P : Host → Prop) (p : Program α) (Q : α → Host → Prop) : Prop :=
  (surroundings d).Triple P p Q

/-- What mentions the saved setting only where it is ours is stable. -/
theorem stable_of {P : Host → Prop}
    (hP : ∀ h saved, P h → P { h with saved, written := none }) : (surroundings d).Stable P := by
  intro s t _ hs ht
  cases ht with
  | none => exact hs
  | saves saved => exact hP s saved hs

theorem Brings.of_eq {t : Host} (hwritten : t.written = h.written) : Brings d h t :=
  fun _ he => .inl (hwritten.trans he)

/-! ## Calls that change nothing -/

theorem triple_impl {P : Host → Prop} (hP : (surroundings d).Stable P) :
    Triple (d := d) P (ask .impl) fun impl h => P h ∧ h.impl = impl := by
  refine Surroundings.Triple.ask hP (fun impl => ?_) fun h ok hinv hpre _ => ?_
  · intro s t hs hpre ht
    refine ⟨hP s t hs hpre.1 ht, ?_⟩
    cases ht with
    | none => exact hpre.2
    | saves saved => exact hpre.2
  · exact ⟨hinv, .of_eq rfl, hpre, rfl⟩

/-- A call that leaves the host as it is. -/
theorem triple_quiet {c : Call} {P : Host → Prop} (hP : (surroundings d).Stable P)
    (hc : ∀ h ok, (perform d h c ok).1 = h) : Triple (d := d) P (ask c) fun _ => P := by
  refine Surroundings.Triple.ask hP (fun _ => hP) fun h ok hinv hpre _ => ?_
  change Inv d (perform d h c ok).1 ∧ Brings d h (perform d h c ok).1 ∧ P (perform d h c ok).1
  rw [hc]
  exact ⟨hinv, .of_eq rfl, hpre⟩

/-! ## Sessions -/

variable (d) in
/-- The session holds what was saved when it took its copy, or a restoration that could not be
saved. -/
structure Clean (h : Host) (session : Session) : Prop where
  loaded : h.impl.loaded = true
  current : h.impl.session = some session
  base : session.own = session.base ∨ session.base = some d.preferEnabled
  written : ∀ e, h.written = some e →
    session.base = some d.preferEnabled ∧ (session.own = some d.preferEnabled ∨ session.own = e)

variable (d) in
/-- The restoration of what was written is in the session. -/
def Restored (h : Host) : Prop :=
  ∀ session, h.impl.session = some session → ∀ e, h.written = some e → session.own = e

/-- What no driver call changes. -/
def Host.journal (h : Host) : Bool × Option UndoData × Option Bool × Option UndoFile × Bool :=
  (h.impl.loaded, h.impl.undoData, h.impl.undoFile, h.file, h.recovery.isSome)

@[simp] theorem journal_note (h : Host) (ok : Bool) : (h.note ok).journal = h.journal := by
  simp [Host.note, Host.journal]

@[simp] theorem written_note (h : Host) (ok : Bool) : (h.note ok).written = h.written := rfl

@[simp] theorem impl_note (h : Host) (ok : Bool) : (h.note ok).impl = h.impl := rfl

theorem recovery_note_false (h : Host) : (h.note false).recovery ≠ some false := by
  cases hrecovery : h.recovery with
  | none => simp [Host.note, hrecovery]
  | some failed => simp [Host.note, hrecovery]

/-- The invariant reads no more than this. -/
theorem Inv.of_eq {t : Host} (hinv : Inv d h) (hwritten : t.written = h.written)
    (hsaved : t.saved = h.saved) (hfile : t.file = h.file)
    (hdata : t.impl.undoData = h.impl.undoData) (hundo : t.impl.undoFile = h.impl.undoFile)
    (hrecovery : t.recovery.isSome = h.recovery.isSome) : Inv d t where
  written := by rw [hwritten, hsaved, hfile]; exact hinv.written
  contents := by rw [hfile]; exact hinv.contents
  memory := by rw [hdata]; exact hinv.memory
  owned := by rw [hundo, hfile, hwritten, hdata]; exact hinv.owned
  exclusive := by rw [hundo, hrecovery]; exact hinv.exclusive
  reset := by rw [hundo, hfile]; exact hinv.reset
  recovery := by rw [hrecovery, hfile]; exact hinv.recovery

theorem Inv.note (hinv : Inv d h) (ok : Bool) : Inv d (h.note ok) :=
  hinv.of_eq rfl rfl rfl rfl rfl (by simp [Host.note])

theorem Inv.withSession (hinv : Inv d h) (session : Option Session) :
    Inv d (h.withSession session) :=
  hinv.of_eq rfl rfl rfl rfl rfl rfl

/-- Nothing that was written is on record any more. -/
theorem Inv.forgetWritten {t : Host} (hinv : Inv d h) (hwritten : t.written = none)
    (hfile : t.file = h.file) (hdata : t.impl.undoData = h.impl.undoData)
    (hundo : t.impl.undoFile = h.impl.undoFile)
    (hrecovery : t.recovery.isSome = h.recovery.isSome) : Inv d t where
  written := fun e he => by simp [hwritten] at he
  contents := by rw [hfile]; exact hinv.contents
  memory := by rw [hdata]; exact hinv.memory
  owned := fun howned => by
    rw [hfile]
    exact ⟨(hinv.owned (hundo ▸ howned)).1, fun e he => by simp [hwritten] at he⟩
  exclusive := by rw [hundo, hrecovery]; exact hinv.exclusive
  reset := by rw [hundo, hfile]; exact hinv.reset
  recovery := by rw [hrecovery, hfile]; exact hinv.recovery

theorem Clean.note (hclean : Clean d h session) (ok : Bool) : Clean d (h.note ok) session :=
  ⟨hclean.loaded, hclean.current, hclean.base, hclean.written⟩

theorem Clean.saves (hclean : Clean d h session) (saved : Option Value) :
    Clean d { h with saved, written := none } session :=
  ⟨hclean.loaded, hclean.current, hclean.base, fun e he => by cases he⟩

/-! ### Saving a clean session -/

theorem effective_preferEnabled : effective d (some d.preferEnabled) = some d.preferEnabled := rfl

theorem writtenAfter_of_ours {own : Option Value} (hown : own = some d.preferEnabled)
    (hsaved : h.saved = some d.preferEnabled) : h.writtenAfter d own = h.written := by
  simp [Host.writtenAfter, hown, hsaved, effective_preferEnabled]

theorem writtenAfter_of_not_ours (hinv : Inv d h) {own : Option Value}
    (hown : own ≠ some d.preferEnabled) : h.writtenAfter d own = none := by
  by_cases hsaved : own = h.saved
  · cases hwritten : h.written with
    | none => simp [Host.writtenAfter, hown, hwritten]
    | some e => exact absurd (hsaved.trans (hinv.written e hwritten).2.2.1) hown
  · simp [Host.writtenAfter, hown, hsaved]

theorem save_of_session (hsession : h.impl.session = some session) :
    h.save d =
      { h with saved := session.own, written := h.writtenAfter d session.own }.withSession
        (some ⟨session.own, session.own⟩) := by
  simp [Host.save, hsession]

/-- What remains written behind the save of a clean session is what was before. -/
theorem Clean.save (hinv : Inv d h) (hclean : Clean d h session)
    (hallowed : session.own = some d.preferEnabled → h.saved = session.base) :
    Inv d (h.save d) ∧ Brings d h (h.save d) ∧
      Clean d (h.save d) ⟨session.own, session.own⟩ ∧
      ∀ e, (h.save d).written = some e →
        h.written = some e ∧ session.own = some d.preferEnabled := by
  rw [save_of_session hclean.current]
  by_cases hown : session.own = some d.preferEnabled
  · have hsaved : h.saved = some d.preferEnabled := by
      cases hclean.base with
      | inl hbase => rw [hallowed hown, ← hbase, hown]
      | inr hbase => rw [hallowed hown, hbase]
    have hwritten := writtenAfter_of_ours (h := h) hown hsaved
    refine ⟨hinv.of_eq hwritten (hown.trans hsaved.symm) rfl rfl rfl rfl, .of_eq hwritten,
      ⟨hclean.loaded, rfl, .inl rfl, fun _ _ => ⟨hown, .inl hown⟩⟩, fun e he => ?_⟩
    exact ⟨hwritten.symm.trans he, hown⟩
  · have hwritten := writtenAfter_of_not_ours hinv hown
    refine ⟨hinv.forgetWritten hwritten rfl rfl rfl rfl, fun e he => .inr ?_,
      ⟨hclean.loaded, rfl, .inl rfl, fun e he => ?_⟩, fun e he => ?_⟩
    · have hback := ((hclean.written e he).2).resolve_left hown
      change effective d session.own = e
      rw [hback]
      exact (hinv.written e he).2.1
    · exact absurd (hwritten.symm.trans he) (by simp)
    · exact absurd (hwritten.symm.trans he) (by simp)

/-- `save_settings` from its two outcomes. -/
theorem triple_saveSettings {P : Host → Prop} {Q : Bool → Host → Prop}
    (hP : (surroundings d).Stable P) (hQ : ∀ ok, (surroundings d).Stable (Q ok))
    (hsession : ∀ h, P h → h.impl.session.isSome = true)
    (hfails : ∀ h, P h → Q false (h.note false))
    (hsaves : ∀ h, Inv d h → P h → Allowed d h .saveSettings true →
      Inv d (h.save d) ∧ Brings d h (h.save d) ∧ Q true ((h.save d).note true)) :
    Triple (d := d) P saveSettings Q := by
  refine (triple_impl hP).bind fun impl => Surroundings.Triple.ite (fun _ => ?_) fun hnone => ?_
  · refine Surroundings.Triple.mono (P := P) (Q := Q) ?_ (fun _ _ hpre => hpre.1)
      (fun _ _ _ hpost => hpost)
    refine Surroundings.Triple.ask hP hQ fun h ok hinv hpre hallowed => ?_
    cases ok with
    | false => exact ⟨hinv.note false, .of_eq rfl, hfails h hpre⟩
    | true =>
        have hsaved := hsaves h hinv hpre hallowed
        exact ⟨hsaved.1.note true, hsaved.2.1, hsaved.2.2⟩
  · refine fun h _ hpre => absurd (hsession h hpre.1) ?_
    rw [hpre.2]
    simp [hnone]

/-! ## Restoring -/

variable (d) in
/-- Undo data that was written by the program; it undoes what is written now. -/
structure Undoes (data : UndoData) (h : Host) : Prop where
  ours : data.openglSwapchain = none ∨ ∃ e, data = record d e
  written : ∀ e, h.written = some e → data = record d e

variable {data : UndoData} {x : Bool × Option UndoData × Option Bool × Option UndoFile × Bool}

variable (d) in
/-- The session can be used, and what no driver call changes is `x`. -/
def Usable (x : Bool × Option UndoData × Option Bool × Option UndoFile × Bool) (h : Host) :
    Prop :=
  (∃ session, Clean d h session) ∧ h.journal = x

theorem Usable.note (h' : Usable d x h) (ok : Bool) : Usable d x (h.note ok) := by
  obtain ⟨⟨session, hclean⟩, hx⟩ := h'
  exact ⟨⟨session, hclean.note ok⟩, by rw [journal_note, hx]⟩

theorem Usable.isSome (h' : Usable d x h) : h.impl.session.isSome = true := by
  obtain ⟨⟨session, hclean⟩, -⟩ := h'
  simp [hclean.current]

theorem stable_restoring :
    (surroundings d).Stable fun h => Usable d x h ∧ Undoes d data h :=
  stable_of fun _ saved ⟨⟨⟨session, hclean⟩, hx⟩, hundoes⟩ =>
    ⟨⟨⟨session, hclean.saves saved⟩, hx⟩, ⟨hundoes.ours, fun e he => by cases he⟩⟩

variable (d) in
/-- A restoration in the session, or a failure that a recovery remembers. -/
structure Attempted (x : Bool × Option UndoData × Option Bool × Option UndoFile × Bool)
    (ok : Bool) (h : Host) : Prop where
  usable : Usable d x h
  restored : ok = true → Restored h
  fails : ok = false → h.recovery ≠ some false

theorem stable_attempted (ok : Bool) : (surroundings d).Stable (Attempted d x ok) :=
  stable_of fun _ saved ⟨⟨⟨session, hclean⟩, hx⟩, _, hfails⟩ =>
    ⟨⟨⟨session, hclean.saves saved⟩, hx⟩, fun _ _ _ _ he => (by cases he), hfails⟩

/-- The undo value replaces ours in the session. -/
theorem Clean.setOwn (hclean : Clean d h session) (hown : session.own = some d.preferEnabled)
    {undoValue : Option Value} (hundo : ∀ e, h.written = some e → undoValue = e) :
    Clean d (h.setOwn undoValue) { session with own := undoValue } where
  loaded := hclean.loaded
  current := by simp [Host.setOwn, Host.withSession, hclean.current]
  base := by
    cases hclean.base with
    | inl hbase => exact .inr (hbase.symm.trans hown)
    | inr hbase => exact .inr hbase
  written := fun e he => ⟨(hclean.written e he).1, .inr (hundo e he)⟩

theorem attempted_setOwn (h' : Usable d x h)
    (hown : ∀ session, h.impl.session = some session → session.own = some d.preferEnabled)
    {undoValue : Option Value} (hundo : ∀ e, h.written = some e → undoValue = e) (ok : Bool) :
    Attempted d x ok ((if ok then h.setOwn undoValue else h).note ok) := by
  cases ok with
  | false => exact ⟨h'.note false, fun htrue => (by cases htrue), fun _ => recovery_note_false h⟩
  | true =>
      obtain ⟨⟨session, hclean⟩, hx⟩ := h'
      have hset := hclean.setOwn (hown session hclean.current) hundo
      refine ⟨Usable.note ⟨⟨_, hset⟩, hx⟩ true, fun _ other hother e he => ?_,
        fun hfalse => by cases hfalse⟩
      have hcurrent : some other = some { session with own := undoValue } :=
        hother.symm.trans hset.current
      cases hcurrent
      exact hundo e he

theorem triple_undoSwapchain (undoValue : Option Value) :
    Triple (d := d)
      (fun h => Usable d x h ∧
        (∀ session, h.impl.session = some session → session.own = some d.preferEnabled) ∧
        ∀ e, h.written = some e → undoValue = e)
      (undoSwapchain undoValue) (Attempted d x) := by
  have hstable := stable_of (d := d) (P := fun h => Usable d x h ∧
      (∀ session, h.impl.session = some session → session.own = some d.preferEnabled) ∧
      ∀ e, h.written = some e → undoValue = e)
    fun h saved ⟨⟨⟨session, hclean⟩, hx⟩, hown, _⟩ =>
      ⟨⟨⟨session, hclean.saves saved⟩, hx⟩, hown, fun e he => by cases he⟩
  have hinvs : ∀ h ok, Inv d h → Inv d ((if ok = true then h.setOwn undoValue else h).note ok) :=
    fun h ok hinv => by
      cases ok with
      | false => exact hinv.note false
      | true => exact (hinv.withSession _).note true
  have hbrings : ∀ h (ok : Bool), Brings d h
      ((if ok = true then h.setOwn undoValue else h).note ok) := fun h ok => by
    cases ok with
    | false => exact .of_eq rfl
    | true => exact .of_eq rfl
  cases undoValue with
  | none =>
      exact Surroundings.Triple.ask hstable stable_attempted fun h ok hinv hpre _ =>
        ⟨hinvs h ok hinv, hbrings h ok, attempted_setOwn hpre.1 hpre.2.1 hpre.2.2 ok⟩
  | some value =>
      exact Surroundings.Triple.ask hstable stable_attempted fun h ok hinv hpre _ =>
        ⟨hinvs h ok hinv, hbrings h ok, attempted_setOwn hpre.1 hpre.2.1 hpre.2.2 ok⟩

/-- What is known of a failed call. -/
theorem stable_and {P : Host → Prop} (hP : (surroundings d).Stable P) {F : Host → Prop}
    (hF : ∀ h saved, F h → F { h with saved, written := none }) :
    (surroundings d).Stable fun h => P h ∧ F h := by
  intro s t hs hpre ht
  refine ⟨hP s t hs hpre.1 ht, ?_⟩
  cases ht with
  | none => exact hpre.2
  | saves saved => exact hF s saved hpre.2

theorem triple_getBaseProfile {P : Host → Prop} (hP : (surroundings d).Stable P)
    (hnote : ∀ h ok, P h → P (h.note ok)) :
    Triple (d := d) P (ask .getBaseProfile) fun ok h =>
      P h ∧ (ok = false → h.recovery ≠ some false) := by
  refine Surroundings.Triple.ask hP (fun _ => stable_and hP fun _ _ hfails => hfails)
    fun h ok hinv hpre _ => ⟨hinv.note ok, .of_eq rfl, hnote h ok hpre, fun hok => ?_⟩
  change ok = false at hok
  subst hok
  exact recovery_note_false h

theorem triple_getSetting {P : Host → Prop} (hP : (surroundings d).Stable P)
    (hnote : ∀ h ok, P h → P (h.note ok)) (hsession : ∀ h, P h → h.impl.session.isSome = true) :
    Triple (d := d) P (ask .getSetting) fun found h =>
      P h ∧ (found = .failed → h.recovery ≠ some false) ∧
        (found ≠ .failed → ∀ session, h.impl.session = some session →
          found = reading d session.own) := by
  refine Surroundings.Triple.ask hP (fun _ => stable_and hP fun _ _ hfound => hfound)
    fun h ok hinv hpre _ => ⟨hinv.note ok, .of_eq rfl, hnote h ok hpre, ?_⟩
  obtain ⟨session, hcurrent⟩ := Option.isSome_iff_exists.mp (hsession h hpre)
  cases ok with
  | false => exact ⟨fun _ => recovery_note_false h, fun hne => absurd rfl hne⟩
  | true =>
      have hfound : ((surroundings d).perform h .getSetting true).2 = reading d session.own := by
        simp [surroundings, perform, hcurrent]
      rw [hfound]
      refine ⟨fun hfailed => ?_, fun _ other hother => ?_⟩
      · simp only [reading] at hfailed
        split at hfailed <;> cases hfailed
      · change h.impl.session = some other at hother
        rw [Option.some.inj (hcurrent.symm.trans hother)]

/-- What is found when our value was written. -/
theorem reading_of_ours (d : Driver) :
    reading d (some d.preferEnabled) = .found d.preferEnabled true := rfl

theorem own_of_reading_found {own : Option Value} {value : Value}
    (hfound : Reading.found value true = reading d own) : own = some value := by
  cases own with
  | some other =>
      simp only [reading, Reading.found.injEq, and_true] at hfound
      rw [hfound]
  | none =>
      simp only [reading] at hfound
      split at hfound <;> simp_all

/-- A setting that is not ours any more has been restored. -/
theorem attempted_of_ne (h' : Usable d x h) (hundoes : Undoes d data h)
    (hne : ∀ session, h.impl.session = some session →
      (∃ e, data = record d e) → session.own ≠ some d.preferEnabled) :
    Attempted d x true h where
  usable := h'
  restored := fun _ session hsession e he => by
    obtain ⟨⟨current, hclean⟩, -⟩ := h'
    have hsame : current = session := Option.some.inj (hclean.current.symm.trans hsession)
    subst hsame
    exact (hclean.written e he).2.resolve_left
      (hne current hsession ⟨e, hundoes.written e he⟩)
  fails := fun hfalse => by cases hfalse

/-- `restore_global_profile_to_undo`. -/
theorem triple_restoreGlobalProfileToUndo (data : UndoData) :
    Triple (d := d) (fun h => Usable d x h ∧ Undoes d data h) (restoreGlobalProfileToUndo data)
      (Attempted d x) := by
  have hpre : (surroundings d).Stable fun h => Usable d x h ∧ Undoes d data h := stable_restoring
  have hnote : ∀ h ok, Usable d x h ∧ Undoes d data h →
      Usable d x (h.note ok) ∧ Undoes d data (h.note ok) :=
    fun h ok ⟨husable, hundoes⟩ => ⟨husable.note ok, ⟨hundoes.ours, hundoes.written⟩⟩
  refine (triple_impl hpre).bind fun impl => Surroundings.Triple.ite (fun _ => ?_) fun hnone => ?_
  · cases hdata : data.openglSwapchain with
    | none =>
        refine Surroundings.Triple.pure (stable_and hpre fun _ _ himpl => himpl)
          fun h _ ⟨⟨husable, hundoes⟩, _⟩ => attempted_of_ne husable hundoes ?_
        intro session _ ⟨e, he⟩
        simp [he, record] at hdata
    | some swapchain =>
        have hbase := triple_getBaseProfile hpre hnote
        refine (hbase.mono (fun _ _ hs => hs.1) fun _ _ _ hs => hs).bind fun ok =>
          Surroundings.Triple.ite (fun _ => ?_) fun hfails => ?_
        · have hsetting := triple_getSetting hpre hnote fun h hs => hs.1.isSome
          refine (hsetting.mono (fun _ _ hs => hs.1) fun _ _ _ hs => hs).bind fun found => ?_
          have hfound : (surroundings d).Stable fun h => (Usable d x h ∧ Undoes d data h) ∧
              (found = .failed → h.recovery ≠ some false) ∧
              (found ≠ .failed → ∀ session, h.impl.session = some session →
                found = reading d session.own) :=
            stable_and hpre fun _ _ hs => hs
          cases found with
          | failed =>
              exact Surroundings.Triple.pure hfound
                fun h _ hs => ⟨hs.1.1, fun hok => (by cases hok), fun _ => hs.2.1 rfl⟩
          | notFound =>
              refine Surroundings.Triple.pure hfound
                fun h _ hs => attempted_of_ne hs.1.1 hs.1.2 fun session hsession _ hown => ?_
              have hread := hs.2.2 (by simp) session hsession
              rw [hown, reading_of_ours] at hread
              cases hread
          | found value current =>
              refine Surroundings.Triple.ite (fun hours => ?_) fun hother => ?_
              · simp only [Bool.and_eq_true, beq_iff_eq] at hours
                refine (triple_undoSwapchain swapchain.undoValue).mono
                  (fun h _ hs => ⟨hs.1.1, fun session hsession => ?_, fun e he => ?_⟩)
                  fun _ _ _ hs => hs
                · have hread := hs.2.2 (by simp) session hsession
                  rw [hours.1] at hread
                  obtain ⟨e, he⟩ := hs.1.2.ours.resolve_left (by simp [hdata])
                  rw [own_of_reading_found hread, hours.2]
                  simp only [he, record, Option.some.injEq] at hdata
                  rw [← hdata]
                · have hrecord := hs.1.2.written e he
                  simp only [hrecord, record, Option.some.injEq] at hdata
                  rw [← hdata]
              · refine Surroundings.Triple.pure hfound fun h _ hs =>
                  attempted_of_ne hs.1.1 hs.1.2 fun session hsession hrecord hown => ?_
                have hread := hs.2.2 (by simp) session hsession
                rw [hown, reading_of_ours, Reading.found.injEq] at hread
                obtain ⟨e, he⟩ := hrecord
                simp only [he, record, Option.some.injEq] at hdata
                simp [hread.1, hread.2, ← hdata] at hother
        · exact Surroundings.Triple.pure (stable_and hpre fun _ _ hs => hs)
            fun h _ hs => ⟨hs.1.1, fun hok => (by cases hok), fun _ => hs.2 hfails⟩
  · refine fun h _ hs => absurd hs.1.1.isSome ?_
    rw [hs.2]
    simp [hnone]

/-! ## Recovery -/

@[simp] theorem journal_save (h : Host) : (h.save d).journal = h.journal := by
  cases hsession : h.impl.session with
  | none => simp [Host.save, hsession]
  | some session => simp [Host.save, hsession, Host.withSession, Host.journal]

variable (d) in
/-- What a save of a restoration leaves. -/
structure Finished (x : Bool × Option UndoData × Option Bool × Option UndoFile × Bool)
    (ok : Bool) (h : Host) : Prop where
  usable : Usable d x h
  written : ok = true → h.written = none
  fails : ok = false → h.recovery ≠ some false

theorem stable_finished (ok : Bool) : (surroundings d).Stable (Finished d x ok) :=
  stable_of fun _ saved ⟨⟨⟨session, hclean⟩, hx⟩, _, hfails⟩ =>
    ⟨⟨⟨session, hclean.saves saved⟩, hx⟩, fun _ => rfl, hfails⟩

theorem triple_saveRestored :
    Triple (d := d) (fun h => Usable d x h ∧ Restored h) saveSettings (Finished d x) := by
  refine triple_saveSettings (stable_of fun _ saved ⟨⟨⟨session, hclean⟩, hx⟩, _⟩ =>
    ⟨⟨⟨session, hclean.saves saved⟩, hx⟩, fun _ _ _ he => by cases he⟩) stable_finished
    (fun h hs => hs.1.isSome)
    (fun h hs => ⟨hs.1.note false, fun hok => (by cases hok), fun _ => recovery_note_false h⟩)
    fun h hinv hs hallowed => ?_
  obtain ⟨⟨⟨session, hclean⟩, hx⟩, hrestored⟩ := hs
  have hsave := hclean.save hinv (hallowed session hclean.current)
  refine ⟨hsave.1, hsave.2.1, Usable.note ⟨⟨_, hsave.2.2.1⟩, by rw [journal_save, hx]⟩ true,
    fun _ => ?_, fun hfalse => by cases hfalse⟩
  cases hwritten : (h.save d).written with
  | none => exact hwritten
  | some e =>
      have hboth := hsave.2.2.2 e hwritten
      exact absurd (hboth.2.symm.trans (hrestored session hclean.current e hboth.1)).symm
        (hinv.written e hboth.1).1

variable (d) in
/-- The file that a recovery has open, and no file of the process. -/
structure Holding (h : Host) : Prop where
  clean : ∃ session, Clean d h session
  holds : h.recovery.isSome = true
  notOwned : h.impl.undoFile ≠ some true

theorem stable_holding : (surroundings d).Stable (Holding d) :=
  stable_of fun _ saved ⟨⟨session, hclean⟩, hholds, hnot⟩ =>
    ⟨⟨session, hclean.saves saved⟩, hholds, hnot⟩

theorem Holding.note (h' : Holding d h) (ok : Bool) : Holding d (h.note ok) := by
  obtain ⟨⟨session, hclean⟩, hholds, hnot⟩ := h'
  exact ⟨⟨session, hclean.note ok⟩, by simp [Host.note, hholds], hnot⟩

/-- What was written is undone by what the file holds. -/
theorem Inv.undoes (hinv : Inv d h) {file : UndoFile} (hfile : h.file = some file) :
    Undoes d (file.content.getD {}) h := by
  obtain ⟨content, flushed⟩ := file
  refine ⟨?_, fun e he => ?_⟩
  · cases content with
    | none => exact .inl rfl
    | some data => exact .inr (hinv.contents data flushed hfile)
  · obtain ⟨-, -, -, flushed', hrecord⟩ := hinv.written e he
    have hsame := hfile.symm.trans hrecord
    simp only [Option.some.injEq, UndoFile.mk.injEq] at hsame
    simp [hsame.1]

/-- Undo data that undoes what is written, or a failure that is remembered. -/
def WasRead (d : Driver) : Option UndoData → Host → Prop
  | none, h => Holding d h ∧ h.recovery ≠ some false
  | some data, h => Holding d h ∧ Undoes d data h

theorem stable_wasRead (read : Option UndoData) : (surroundings d).Stable (WasRead d read) := by
  cases read with
  | none => exact stable_and stable_holding fun _ _ hs => hs
  | some data =>
      exact stable_and stable_holding fun _ _ hs => ⟨hs.ours, fun e he => by cases he⟩

theorem triple_readUndoData : Triple (d := d) (Holding d) readUndoData (WasRead d) := by
  have hsize : Triple (d := d) (Holding d) (ask .getFileSize) fun ok h =>
      Holding d h ∧ (ok = false → h.recovery ≠ some false) := by
    refine Surroundings.Triple.ask stable_holding
      (fun _ => stable_and stable_holding fun _ _ hs => hs)
      fun h ok hinv hs _ => ⟨hinv.note ok, .of_eq rfl, hs.note ok, fun hok => ?_⟩
    change ok = false at hok
    subst hok
    exact recovery_note_false h
  refine hsize.bind fun ok => Surroundings.Triple.ite (fun _ => ?_) fun hfails => ?_
  · refine Surroundings.Triple.ask (stable_and stable_holding fun _ _ hs => hs) stable_wasRead
      fun h ok hinv hs _ => ⟨hinv.note ok, .of_eq rfl, ?_⟩
    obtain ⟨file, hfile⟩ := Option.isSome_iff_exists.mp (hinv.recovery hs.1.holds)
    cases ok with
    | false => exact ⟨hs.1.note false, recovery_note_false h⟩
    | true =>
        have hread : ((surroundings d).perform h .readFile true).2 =
            some (file.content.getD {}) := by
          simp [surroundings, perform, hfile]
        rw [hread]
        exact ⟨hs.1.note true, ⟨(hinv.undoes hfile).ours, (hinv.undoes hfile).written⟩⟩
  · exact Surroundings.Triple.pure (stable_and stable_holding fun _ _ hs => hs)
      fun h _ hs => ⟨hs.1, hs.2 hfails⟩

variable (d) in
/-- A recovery before its deletion: unless it has failed, the setting is not ours any more. -/
structure Deleting (h : Host) : Prop where
  holding : Holding d h
  written : h.recovery = some false → h.written = none

theorem stable_deleting : (surroundings d).Stable (Deleting d) :=
  fun s t hinv hs ht => ⟨stable_holding s t hinv hs.holding ht, fun hrecovery => by
    cases ht with
    | none => exact hs.written hrecovery
    | saves saved => rfl⟩

theorem Finished.deleting {ok : Bool} (h' : Finished d x ok h)
    (hx : x.2.2.1 ≠ some true ∧ x.2.2.2.2 = true) : Deleting d h where
  holding := by
    obtain ⟨hclean, rfl⟩ := h'.usable
    exact ⟨hclean, hx.2, hx.1⟩
  written := fun hrecovery => by
    cases ok with
    | false => exact absurd hrecovery (h'.fails rfl)
    | true => exact h'.written rfl

theorem triple_restoreFromFile :
    Triple (d := d) (Holding d) restoreFromFile fun _ => Deleting d := by
  refine triple_readUndoData.bind fun read => ?_
  cases read with
  | none =>
      exact Surroundings.Triple.pure (stable_wasRead none)
        fun h _ hs => ⟨hs.1, fun hfalse => absurd hfalse hs.2⟩
  | some data =>
      have hjournal : ∀ x : Bool × Option UndoData × Option Bool × Option UndoFile × Bool,
          Triple (d := d) (fun h => (Usable d x h ∧ Undoes d data h) ∧
            (x.2.2.1 ≠ some true ∧ x.2.2.2.2 = true)) (do
              if ← restoreGlobalProfileToUndo data then
                let _ ← saveSettings
                pure ()
              else pure ()) fun _ => Deleting d := by
        refine fun x h hinv hs => Surroundings.Triple.bind
          (triple_restoreGlobalProfileToUndo data) (fun ok => ?_) h hinv hs.1
        refine Surroundings.Triple.ite (fun hok => ?_) fun hfails => ?_
        · subst hok
          refine Surroundings.Triple.bind (triple_saveRestored.mono
            (fun _ _ hs => ⟨hs.usable, hs.restored rfl⟩) fun _ _ _ hs => hs) fun ok => ?_
          exact Surroundings.Triple.pure (stable_finished ok) fun _ _ hf => hf.deleting hs.2
        · subst hfails
          refine Surroundings.Triple.pure (stable_attempted false) fun h _ ha => ?_
          have hfinished : Finished d x false h :=
            ⟨ha.usable, fun hok => (by cases hok), ha.fails⟩
          exact hfinished.deleting hs.2
      refine (Surroundings.Triple.exists hjournal).mono (fun h _ hs => ?_) fun _ _ _ hs => hs
      exact ⟨h.journal, ⟨⟨hs.1.clean, rfl⟩, hs.2⟩, hs.1.notOwned, hs.1.holds⟩

variable (d) in
/-- A session between the functions: while the process owns the file of what was written, it
holds our value. -/
def Ready (h : Host) : Prop :=
  ∃ session, Clean d h session ∧ (h.impl.undoFile = some true →
    ∀ e, h.written = some e → session.own = some d.preferEnabled)

theorem stable_ready : (surroundings d).Stable (Ready d) :=
  stable_of fun _ saved ⟨session, hclean, _⟩ =>
    ⟨session, hclean.saves saved, fun _ e he => by cases he⟩

theorem Holding.ready (h' : Holding d h) : Ready d h := by
  obtain ⟨⟨session, hclean⟩, -, hnot⟩ := h'
  exact ⟨session, hclean, fun howned => absurd howned hnot⟩

theorem triple_deleteFile :
    Triple (d := d) (Deleting d) (ask .deleteFile) fun _ => Ready d := by
  refine Surroundings.Triple.ask stable_deleting (fun _ => stable_ready)
    fun h ok hinv hs hallowed => ?_
  cases ok with
  | false => exact ⟨hinv, .of_eq rfl, hs.holding.ready⟩
  | true =>
      have hwritten : h.written = none := by
        obtain ⟨failed, hfailed⟩ := Option.isSome_iff_exists.mp hs.holding.holds
        cases failed with
        | false => exact hs.written hfailed
        | true => exact hallowed hfailed
      obtain ⟨⟨session, hclean⟩, -, hnot⟩ := hs.holding
      refine ⟨?_, .of_eq rfl, session,
        ⟨hclean.loaded, hclean.current, hclean.base, hclean.written⟩,
        fun howned => absurd howned hnot⟩
      exact {
        written := fun e he => by simp [surroundings, perform, hwritten] at he
        contents := fun _ _ hfile => by cases hfile
        memory := hinv.memory
        owned := fun howned => absurd howned hnot
        exclusive := fun _ => rfl
        reset := fun _ => rfl
        recovery := fun hsome => by cases hsome }

theorem triple_closeFile :
    Triple (d := d) (Ready d) (ask .closeFile) fun _ => Ready d := by
  refine Surroundings.Triple.ask stable_ready (fun _ => stable_ready) fun h _ hinv hs _ => ?_
  obtain ⟨session, hclean, howned⟩ := hs
  refine ⟨?_, .of_eq rfl, session,
    ⟨hclean.loaded, hclean.current, hclean.base, hclean.written⟩, howned⟩
  exact {
    written := hinv.written
    contents := hinv.contents
    memory := hinv.memory
    owned := hinv.owned
    exclusive := fun _ => rfl
    reset := hinv.reset
    recovery := fun hsome => by cases hsome }

theorem triple_openFile :
    Triple (d := d) (Ready d) (ask .openFile) fun opening h =>
      if opening = .opened then Holding d h else Ready d h := by
  have hpost : ∀ opening, (surroundings d).Stable fun h =>
      if opening = Opening.opened then Holding d h else Ready d h := fun opening => by
    cases opening with
    | opened => exact stable_holding
    | absent => exact stable_ready
    | denied => exact stable_ready
  refine Surroundings.Triple.ask stable_ready hpost fun h ok hinv hs _ => ?_
  change Inv d (openFile h ok).1 ∧ Brings d h (openFile h ok).1 ∧
    if (openFile h ok).2 = .opened then Holding d (openFile h ok).1 else Ready d (openFile h ok).1
  cases ok with
  | false => exact ⟨hinv, .of_eq rfl, hs⟩
  | true =>
      cases hfile : h.file with
      | none =>
          simp only [openFile, hfile, if_true]
          exact ⟨hinv, .of_eq rfl, hs⟩
      | some file =>
          by_cases howned : h.impl.undoFile = some true
          · simp only [openFile, hfile, howned, if_true]
            exact ⟨hinv, .of_eq rfl, hs⟩
          · have hopen : openFile h true = ({ h with recovery := some false }, .opened) := by
              simp [openFile, hfile, howned]
            rw [hopen]
            obtain ⟨session, hclean, -⟩ := hs
            refine ⟨?_, .of_eq rfl, ⟨session,
              ⟨hclean.loaded, hclean.current, hclean.base, hclean.written⟩⟩, rfl, howned⟩
            exact {
              written := hinv.written
              contents := hinv.contents
              memory := hinv.memory
              owned := hinv.owned
              exclusive := fun hother => absurd hother howned
              reset := hinv.reset
              recovery := fun _ => by simp [hfile] }

/-- `restore_from_and_delete_undo_file_if_exists`. -/
theorem triple_recover : Triple (d := d) (Ready d) recover fun _ => Ready d := by
  refine (triple_impl stable_ready).bind fun impl =>
    Surroundings.Triple.ite (fun _ => ?_) fun _ =>
      Surroundings.Triple.pure (stable_and stable_ready fun _ _ hs => hs) fun _ _ hs => hs.1
  refine (triple_openFile.mono (fun _ _ hs => hs.1) fun _ _ _ hs => hs).bind fun opening => ?_
  cases opening with
  | opened =>
      exact triple_restoreFromFile.bind fun _ => triple_deleteFile.bind fun deleted =>
        triple_closeFile.bind fun _ => Surroundings.Triple.pure stable_ready fun _ _ hs => hs
  | absent => exact Surroundings.Triple.pure stable_ready fun _ _ hs => hs
  | denied => exact Surroundings.Triple.pure stable_ready fun _ _ hs => hs

end LuminalShine.Nvprefs
