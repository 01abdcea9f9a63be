import LuminalShine.Nvprefs.Journal

/-!
# Changing and restoring the global profile

The pre- and postconditions of `modify_application_profile`, `modify_global_profile` and
`restore_global_profile`, and of the programs that call them.

## Main definitions

* `Changed` — a session with our value over an earlier reading.
* `Prepared`, `Recorded` — the undo file before and behind its new content.

## Main results

* `triple_modifyGlobalProfile`, `triple_restoreGlobalProfile`.
* `triple_program` — every caller keeps the invariant.
-/

namespace LuminalShine.Nvprefs

open LuminalShine.Lib.Calls

variable {d : Driver} {h : Host} {e : Option Value} {session : Session} {data : UndoData}

/-! ## The application profile -/

theorem Ready.isSome (h' : Ready d h) : h.impl.session.isSome = true := by
  obtain ⟨session, hclean, -⟩ := h'
  simp [hclean.current]

theorem Ready.note (h' : Ready d h) (ok : Bool) : Ready d (h.note ok) := by
  obtain ⟨session, hclean, howned⟩ := h'
  exact ⟨session, hclean.note ok, howned⟩

theorem triple_saveReady : Triple (d := d) (Ready d) saveSettings fun _ => Ready d := by
  refine triple_saveSettings stable_ready (fun _ => stable_ready) (fun _ => Ready.isSome)
    (fun _ hs => hs.note false) fun h hinv hs hallowed => ?_
  obtain ⟨session, hclean, -⟩ := hs
  have hsave := hclean.save hinv (hallowed session hclean.current)
  exact ⟨hsave.1, hsave.2.1, Ready.note ⟨_, hsave.2.2.1, fun _ e he => (hsave.2.2.2 e he).2⟩ true⟩

theorem triple_modifyApplicationProfile :
    Triple (d := d) (Ready d) modifyApplicationProfile fun _ => Ready d := by
  have hpure : ∀ ok : Bool, Triple (d := d) (Ready d) (pure ok : Program Bool) fun _ => Ready d :=
    fun _ => Surroundings.Triple.pure stable_ready fun _ _ hs => hs
  have hquiet : ∀ c : Call, (∀ h ok, (perform d h c ok).1 = h) →
      Triple (d := d) (Ready d) (ask c) fun _ => Ready d := fun _ hc => triple_quiet stable_ready hc
  have himpl : Triple (d := d) (Ready d) (ask .impl) fun _ => Ready d :=
    hquiet .impl fun _ _ => rfl
  refine himpl.bind fun impl => Surroundings.Triple.ite (fun _ => ?_) fun _ => hpure false
  refine (hquiet .checkApplicationProfile fun _ _ => rfl).bind fun ok =>
    Surroundings.Triple.ite (fun _ => ?_) fun _ => hpure false
  refine (hquiet .applicationModified fun _ _ => rfl).bind fun ok =>
    Surroundings.Triple.ite (fun _ => ?_) fun _ => hpure true
  exact triple_saveReady

/-! ## The global profile -/

def Loaded (h : Host) : Prop := h.impl.loaded = true

theorem stable_loaded : (surroundings d).Stable Loaded := stable_of fun _ _ hs => hs

theorem Ready.loaded (h' : Ready d h) : Loaded h := by
  obtain ⟨session, hclean, -⟩ := h'
  exact hclean.loaded

variable (d) in
/-- The session with our value over the reading `e`.  Over a restoration that could not be saved
it is not a change: then no file is owned, or nothing is written. -/
structure Changed (e : Option Value) (h : Host) : Prop where
  loaded : Loaded h
  different : e ≠ some d.preferEnabled ∧ effective d e = e
  current : ∃ base, h.impl.session = some ⟨some d.preferEnabled, base⟩ ∧
    (base = some d.preferEnabled ∨ effective d base = e)
  owned : h.impl.undoFile = some true → h.written = none

theorem stable_changed : (surroundings d).Stable (Changed d e) :=
  stable_of fun _ _ hs => ⟨hs.loaded, hs.different, hs.current, fun _ => rfl⟩

theorem effective_effective (own : Option Value) :
    effective d (effective d own) = effective d own := by
  cases own with
  | none => cases hpredefined : d.predefined <;> simp [effective, hpredefined]
  | some value => rfl

theorem reading_eq (d : Driver) (own : Option Value) :
    reading d own = match effective d own with
      | some value => .found value own.isSome
      | none => .notFound := by
  cases own with
  | none => cases hpredefined : d.predefined <;> simp [reading, effective, hpredefined]
  | some value => rfl

theorem Ready.change (h' : Ready d h) (he : e ≠ some d.preferEnabled)
    (hown : ∀ session, h.impl.session = some session → effective d session.own = e) :
    Changed d e (h.setOwn (some d.preferEnabled)) := by
  obtain ⟨session, hclean, howned⟩ := h'
  have hreading := hown session hclean.current
  have hother : session.own ≠ some d.preferEnabled := fun hours => he <| by
    rw [← hreading, hours, effective_preferEnabled]
  refine ⟨hclean.loaded, ⟨he, by rw [← hreading, effective_effective]⟩,
    ⟨session.base, by simp [Host.setOwn, Host.withSession, hclean.current], ?_⟩, fun howns => ?_⟩
  · cases hclean.base with
    | inl hbase => exact .inr (hbase ▸ hreading)
    | inr hbase => exact .inl hbase
  · cases hwritten : h.written with
    | none => exact hwritten
    | some r => exact absurd (howned howns r hwritten) hother

/-- What a check leaves when it fails, finds nothing to do, or has changed the session. -/
def Checked (d : Driver) : Option (Option UndoData) → Host → Prop
  | some (some data), h => ∃ e, data = record d e ∧ Changed d e h
  | some none, h | none, h => Loaded h

theorem triple_changeSwapchain (he : e ≠ some d.preferEnabled) :
    Triple (d := d) (fun h => Ready d h ∧
        ∀ session, h.impl.session = some session → effective d session.own = e)
      (changeSwapchain d e) (Checked d) := by
  have hset : Triple (d := d) (fun h => Ready d h ∧
        ∀ session, h.impl.session = some session → effective d session.own = e)
      (ask (.setSetting d.preferEnabled)) fun ok h =>
        if ok = true then Changed d e h else Loaded h := by
    have hpost : ∀ ok : Bool, (surroundings d).Stable fun h =>
        if ok = true then Changed d e h else Loaded h := fun ok => by
      cases ok with
      | false => exact stable_loaded
      | true => exact stable_changed
    refine Surroundings.Triple.ask (stable_and stable_ready fun _ _ hs => hs) hpost
      fun h ok hinv hs _ => ?_
    cases ok with
    | false => exact ⟨hinv.note false, .of_eq rfl, hs.1.loaded⟩
    | true =>
        have hchanged := hs.1.change he hs.2
        exact ⟨(hinv.withSession _).note true, .of_eq rfl, hchanged.loaded, hchanged.different,
          hchanged.current, hchanged.owned⟩
  refine hset.bind fun ok => ?_
  cases ok with
  | false => exact Surroundings.Triple.pure stable_loaded fun _ _ hs => hs
  | true => exact Surroundings.Triple.pure stable_changed fun h _ hs => ⟨e, rfl, hs⟩

/-- `check_and_modify_global_profile`. -/
theorem triple_checkAndModifyGlobalProfile :
    Triple (d := d) (Ready d) (checkAndModifyGlobalProfile d) (Checked d) := by
  have hfails : ∀ {P : Host → Prop}, (surroundings d).Stable P → (∀ h, P h → Ready d h) →
      Triple (d := d) P (pure none) (Checked d) := fun hP hready =>
    Surroundings.Triple.pure hP fun h _ hs => (hready h hs).loaded
  refine ((triple_quiet stable_ready fun _ _ => rfl : Triple (d := d) (Ready d) (ask .impl)
    fun _ => Ready d)).bind fun impl => Surroundings.Triple.ite (fun _ => ?_) fun _ =>
      hfails stable_ready fun _ hs => hs
  refine ((triple_quiet stable_ready fun _ _ => rfl : Triple (d := d) (Ready d)
    (ask .openglVulkanOnDxgi) fun _ => Ready d)).bind fun wanted =>
      Surroundings.Triple.ite (fun _ => ?_) fun _ =>
        Surroundings.Triple.pure stable_ready fun _ _ hs => hs.loaded
  refine (triple_getBaseProfile stable_ready fun _ ok hs => hs.note ok).bind fun ok =>
    Surroundings.Triple.ite (fun _ => ?_) fun _ =>
      hfails (stable_and stable_ready fun _ _ hs => hs) fun _ hs => hs.1
  have hsetting := triple_getSetting (d := d) stable_ready (fun _ ok hs => Ready.note hs ok)
    fun _ hs => Ready.isSome hs
  refine (hsetting.mono (fun _ _ hs => hs.1) fun _ _ _ hs => hs).bind fun found => ?_
  cases found with
  | failed => exact hfails (stable_and stable_ready fun _ _ hs => hs) fun _ hs => hs.1
  | notFound =>
      refine (triple_changeSwapchain (e := none) (by simp)).mono
        (fun h _ hs => ⟨hs.1, fun session hsession => ?_⟩) fun _ _ _ hs => hs
      have hread := hs.2.2 (by simp) session hsession
      rw [reading_eq] at hread
      cases heffective : effective d session.own with
      | none => rfl
      | some value => simp [heffective] at hread
  | found value current =>
      refine Surroundings.Triple.ite (fun _ =>
        Surroundings.Triple.pure (stable_and stable_ready fun _ _ hs => hs)
          fun _ _ hs => hs.1.loaded) fun hother => ?_
      refine (triple_changeSwapchain (e := some value) (by simpa using hother)).mono
        (fun h _ hs => ⟨hs.1, fun session hsession => ?_⟩) fun _ _ _ hs => hs
      have hread := hs.2.2 (by simp) session hsession
      rw [reading_eq] at hread
      cases heffective : effective d session.own with
      | none => simp [heffective] at hread
      | some other =>
          rw [heffective] at hread
          exact congrArg some (Reading.found.inj hread).1.symm

/-! ### The undo file -/

variable (d) in
/-- The undo file is there or was given up, and nothing is written. -/
structure Prepared (e : Option Value) (h : Host) : Prop where
  changed : Changed d e h
  undoFile : h.impl.undoFile.isSome = true
  written : h.written = none

theorem stable_prepared : (surroundings d).Stable (Prepared d e) :=
  stable_of fun _ _ hs => ⟨⟨hs.changed.loaded, hs.changed.different, hs.changed.current,
    fun _ => rfl⟩, hs.undoFile, rfl⟩

theorem Changed.prepared (hinv : Inv d h) (h' : Changed d e h)
    (hundo : h.impl.undoFile.isSome = true) : Prepared d e h := by
  refine ⟨h', hundo, ?_⟩
  obtain ⟨handle, hhandle⟩ := Option.isSome_iff_exists.mp hundo
  cases handle with
  | false => exact hinv.written_of_file (hinv.reset hhandle)
  | true => exact h'.owned hhandle

/-- What is done with success, or given up. -/
def Done (P : Host → Prop) (ok : Bool) (h : Host) : Prop := if ok = true then P h else Loaded h

theorem stable_done {P : Host → Prop} (hP : (surroundings d).Stable P) (ok : Bool) :
    (surroundings d).Stable (Done P ok) := by
  cases ok with
  | false => exact stable_loaded
  | true => exact hP

/-- A new file; there was none, so nothing was written. -/
theorem Changed.create (hinv : Inv d h) (h' : Changed d e h) (hfile : h.file = none) :
    Inv d (({ h with file := some ⟨none, false⟩ }).setHandle (some true)) ∧
      Prepared d e (({ h with file := some ⟨none, false⟩ }).setHandle (some true)) := by
  have hwritten := hinv.written_of_file hfile
  refine ⟨?_, ⟨h'.loaded, h'.different, h'.current, fun _ => hwritten⟩, rfl, hwritten⟩
  exact {
    written := fun e he => by simp [Host.setHandle, hwritten] at he
    contents := fun _ _ hsame => by cases hsame
    memory := hinv.memory
    owned := fun _ => ⟨rfl, fun e he => by simp [Host.setHandle, hwritten] at he⟩
    exclusive := fun _ => by
      cases hrecovery : h.recovery.isSome with
      | false => exact hrecovery
      | true => simpa [hfile] using hinv.recovery hrecovery
    reset := fun hfalse => by cases hfalse
    recovery := fun _ => rfl }

theorem triple_prepareUndoFile :
    Triple (d := d) (Changed d e) prepareUndoFile (Done (Prepared d e)) := by
  refine (triple_impl stable_changed).bind fun impl =>
    Surroundings.Triple.ite (fun hsome => ?_) fun _ => ?_
  · exact Surroundings.Triple.pure (stable_and stable_changed fun _ _ hs => hs)
      fun h hinv hs => hs.1.prepared hinv (hs.2 ▸ hsome)
  · refine ((triple_quiet stable_changed fun _ _ => rfl : Triple (d := d) (Changed d e)
      (ask .createDirectory) fun _ => Changed d e).mono (fun _ _ hs => hs.1)
        fun _ _ _ hs => hs).bind fun ok => Surroundings.Triple.ite (fun _ => ?_) fun hfails => ?_
    · refine Surroundings.Triple.ask stable_changed (stable_done stable_prepared)
        fun h ok hinv hs _ => ?_
      change Inv d (createFile h ok).1 ∧ Brings d h (createFile h ok).1 ∧
        Done (Prepared d e) (createFile h ok).2 (createFile h ok).1
      cases hboth : ok && h.file.isNone with
      | false =>
          simp only [createFile, hboth]
          exact ⟨hinv, .of_eq rfl, hs.loaded⟩
      | true =>
          simp only [createFile, hboth, if_true]
          have hcreate := hs.create hinv (by simpa using (Bool.and_eq_true_iff.mp hboth).2)
          exact ⟨hcreate.1, .of_eq rfl, hcreate.2⟩
    · exact Surroundings.Triple.pure stable_changed fun _ _ hs => hs.loaded

variable (d) in
/-- The record is in memory. -/
def Kept (e : Option Value) (h : Host) : Prop :=
  Prepared d e h ∧ h.impl.undoData = some (record d e)

theorem stable_kept : (surroundings d).Stable (Kept d e) :=
  stable_and stable_prepared fun _ _ hs => hs

/-- Newer undo data replaces the older. -/
theorem mergeInto_record (e : Option Value) (kept : Option UndoData) :
    (record d e).mergeInto kept = record d e := by
  cases kept <;> rfl

theorem triple_mergeUndoData :
    Triple (d := d) (Prepared d e) (mergeUndoData (record d e)) fun data h =>
      data = record d e ∧ Kept d e h := by
  refine (triple_impl stable_prepared).bind fun impl => ?_
  rw [mergeInto_record]
  have hkeep : Triple (d := d) (Prepared d e) (ask (.keepUndoData (record d e))) fun _ =>
      Kept d e := by
    refine Surroundings.Triple.ask stable_prepared (fun _ => stable_kept) fun h _ hinv hs _ => ?_
    refine ⟨?_, .of_eq rfl, ⟨⟨hs.changed.loaded, hs.changed.different, hs.changed.current,
      hs.changed.owned⟩, hs.undoFile, hs.written⟩, rfl⟩
    exact {
      written := hinv.written
      contents := hinv.contents
      memory := fun data hsame => ⟨e, (Option.some.inj hsame).symm⟩
      owned := fun howned => ⟨(hinv.owned howned).1, fun r hr =>
        absurd (hs.written.symm.trans hr) (by simp)⟩
      exclusive := hinv.exclusive
      reset := hinv.reset
      recovery := hinv.recovery }
  exact (hkeep.mono (fun _ _ hs => hs.1) fun _ _ _ hs => hs).bind fun _ =>
    Surroundings.Triple.pure stable_kept fun _ _ hs => ⟨rfl, hs⟩

variable (d) in
/-- The record is in the file, which the process owns. -/
structure Recorded (e : Option Value) (h : Host) : Prop where
  kept : Kept d e h
  owned : h.impl.undoFile = some true
  file : ∃ flushed, h.file = some ⟨some (record d e), flushed⟩

theorem stable_recorded : (surroundings d).Stable (Recorded d e) :=
  stable_of fun _ _ hs => ⟨⟨⟨⟨hs.kept.1.changed.loaded, hs.kept.1.changed.different,
    hs.kept.1.changed.current, fun _ => rfl⟩, hs.kept.1.undoFile, rfl⟩, hs.kept.2⟩, hs.owned,
    hs.file⟩

/-- The file can be written as long as nothing is written over. -/
theorem Inv.setFile (hinv : Inv d h) (hwritten : h.written = none) {file : Option UndoFile}
    (hsome : file.isSome = h.file.isSome)
    (hcontents : ∀ data flushed, file = some ⟨some data, flushed⟩ → ∃ e, data = record d e) :
    Inv d (h.setFile file) where
  written := fun e he => by simp [Host.setFile, hwritten] at he
  contents := hcontents
  memory := hinv.memory
  owned := fun howned => ⟨hsome.trans (hinv.owned howned).1, fun e he => by
    simp [Host.setFile, hwritten] at he⟩
  exclusive := hinv.exclusive
  reset := fun hreset => by
    have hnone := hinv.reset hreset
    simpa [hnone, Host.setFile] using hsome
  recovery := fun hrecovery => hsome.trans (hinv.recovery hrecovery)

theorem Kept.setFile (h' : Kept d e h) (file : Option UndoFile) : Kept d e (h.setFile file) :=
  ⟨⟨⟨h'.1.changed.loaded, h'.1.changed.different, h'.1.changed.current, h'.1.changed.owned⟩,
    h'.1.undoFile, h'.1.written⟩, h'.2⟩

theorem setContent_contents {content : Option UndoData}
    (hcontent : ∀ data, content = some data → ∃ e, data = record d e) :
    ∀ data flushed, (h.file.map fun _ => (⟨content, false⟩ : UndoFile)) =
      some ⟨some data, flushed⟩ → ∃ e, data = record d e := by
  intro data flushed hfile
  cases hold : h.file with
  | none => simp [hold] at hfile
  | some file =>
      simp only [hold, Option.map_some, Option.some.injEq, UndoFile.mk.injEq] at hfile
      exact hcontent data hfile.1

variable (d) in
/-- What a write of the record leaves. -/
def Wrote (e : Option Value) (ok : Bool) (h : Host) : Prop :=
  if ok = true then Recorded d e h else Kept d e h

theorem stable_wrote (ok : Bool) : (surroundings d).Stable (Wrote d e ok) := by
  cases ok with
  | false => exact stable_kept
  | true => exact stable_recorded

/-- The calls that clear the file. -/
theorem triple_setEndOfFile :
    Triple (d := d) (fun h => Kept d e h ∧ h.impl.undoFile = some true) (ask .setEndOfFile)
      fun _ h => Kept d e h ∧ h.impl.undoFile = some true := by
  have hstable := stable_and (stable_kept (d := d) (e := e))
    (F := fun h => h.impl.undoFile = some true) fun _ _ hs => hs
  refine Surroundings.Triple.ask hstable (fun _ => hstable) fun h ok hinv hs _ => ?_
  cases ok with
  | false => exact ⟨hinv, .of_eq rfl, hs⟩
  | true =>
      exact ⟨hinv.setFile hs.1.1.written (by simp)
        (setContent_contents fun _ hnone => by cases hnone), .of_eq rfl, hs.1.setFile _, hs.2⟩

theorem triple_writeFile :
    Triple (d := d) (fun h => Kept d e h ∧ h.impl.undoFile = some true)
      (ask (.writeFile (record d e))) (Wrote d e) := by
  refine Surroundings.Triple.ask (stable_and stable_kept fun _ _ hs => hs) stable_wrote
    fun h ok hinv hs _ => ?_
  obtain ⟨file, hfile⟩ := Option.isSome_iff_exists.mp (hinv.owned hs.2).1
  cases ok with
  | false =>
      exact ⟨hinv.setFile hs.1.1.written (by simp)
        (setContent_contents fun _ hnone => by cases hnone), .of_eq rfl, hs.1.setFile _⟩
  | true =>
      refine ⟨hinv.setFile hs.1.1.written (by simp)
        (setContent_contents fun data hdata => ⟨e, (Option.some.inj hdata).symm⟩), .of_eq rfl,
        hs.1.setFile _, hs.2, false, ?_⟩
      simp [surroundings, perform, Host.setContent, Host.setFile, hfile]

theorem triple_flush :
    Triple (d := d) (Recorded d e) (ask .flush) fun _ => Recorded d e := by
  refine Surroundings.Triple.ask stable_recorded (fun _ => stable_recorded)
    fun h ok hinv hs _ => ?_
  obtain ⟨flushed, hfile⟩ := hs.file
  cases ok with
  | false => exact ⟨hinv, .of_eq rfl, hs⟩
  | true =>
      refine ⟨hinv.setFile hs.kept.1.written (by simp) fun data flushed hsame => ⟨e, ?_⟩,
        .of_eq rfl, hs.kept.setFile _, hs.owned, true, ?_⟩
      · simp only [hfile, Option.map_some, Option.some.injEq, UndoFile.mk.injEq] at hsame
        exact hsame.1.symm
      · simp [surroundings, perform, Host.setFile, hfile]

theorem triple_writeUndoData :
    Triple (d := d) (Kept d e) (writeUndoData (record d e)) (Wrote d e) := by
  have howned := stable_and (stable_kept (d := d) (e := e))
    (F := fun h => h.impl.undoFile = some true) fun _ _ hs => hs
  have hgivesUp : Triple (d := d) (fun h => Kept d e h ∧ h.impl.undoFile = some true)
      (pure false) (Wrote d e) := Surroundings.Triple.pure howned fun _ _ hs => hs.1
  refine (triple_impl stable_kept).bind fun impl =>
    Surroundings.Triple.ifProp (fun hhandle => ?_) fun _ =>
      Surroundings.Triple.pure (stable_and stable_kept fun _ _ hs => hs) fun _ _ hs => hs.1
  have hpointer : Triple (d := d) (fun h => Kept d e h ∧ h.impl = impl) (ask .setFilePointer)
      fun _ h => Kept d e h ∧ h.impl.undoFile = some true :=
    Surroundings.Triple.mono (triple_quiet howned fun _ _ => rfl)
      (fun _ _ hs => ⟨hs.1, hs.2 ▸ hhandle⟩) fun _ _ _ hs => hs
  refine hpointer.bind fun ok => Surroundings.Triple.ite (fun _ => ?_) fun _ => hgivesUp
  refine triple_setEndOfFile.bind fun ok =>
    Surroundings.Triple.ite (fun _ => ?_) fun _ => hgivesUp
  refine triple_writeFile.bind fun ok => ?_
  cases ok with
  | false => exact Surroundings.Triple.pure stable_kept fun _ _ hs => hs
  | true =>
      exact triple_flush.bind fun _ => Surroundings.Triple.pure stable_recorded fun _ _ hs => hs

/-! ### The commit -/

theorem writtenAfter_of_change (hwritten : h.written = none)
    (hdifferent : e ≠ some d.preferEnabled)
    (hsaved : h.saved = some d.preferEnabled ∨ effective d h.saved = e) :
    h.writtenAfter d (some d.preferEnabled) = none ∨
      h.writtenAfter d (some d.preferEnabled) = some e := by
  cases hsaved with
  | inl hours => exact .inl ((writtenAfter_of_ours rfl hours).trans hwritten)
  | inr heffective => exact .inr (by simp [Host.writtenAfter, heffective, hdifferent])

/-- The saved setting is ours only behind the record of what it was. -/
theorem Recorded.save (hinv : Inv d h) (h' : Recorded d e h)
    (hallowed : Allowed d h .saveSettings true) :
    Inv d (h.save d) ∧ Brings d h (h.save d) ∧ Loaded (h.save d) := by
  obtain ⟨base, hcurrent, hbase⟩ := h'.kept.1.changed.current
  have hsaved : h.saved = base := hallowed _ hcurrent rfl
  rw [← hsaved] at hbase
  have hwritten := h'.kept.1.written
  have hdifferent := h'.kept.1.changed.different
  rw [save_of_session hcurrent]
  refine ⟨?_, fun r hr => absurd (hwritten.symm.trans hr) (by simp), h'.kept.1.changed.loaded⟩
  cases writtenAfter_of_change hwritten hdifferent.1 hbase with
  | inl hnone => exact hinv.forgetWritten hnone rfl rfl rfl rfl
  | inr hsome =>
      have hsame : ∀ r, h.writtenAfter d (some d.preferEnabled) = some r → r = e :=
        fun r hr => Option.some.inj (hr.symm.trans hsome)
      exact {
        written := fun r hr => by
          rw [hsame r hr]
          exact ⟨hdifferent.1, hdifferent.2, rfl, h'.file⟩
        contents := hinv.contents
        memory := hinv.memory
        owned := fun howned => ⟨(hinv.owned howned).1, fun r hr => by
          rw [hsame r hr]
          exact h'.kept.2⟩
        exclusive := hinv.exclusive
        reset := hinv.reset
        recovery := hinv.recovery }

theorem triple_commit :
    Triple (d := d) (Recorded d e) saveSettings fun _ => Loaded := by
  refine triple_saveSettings stable_recorded (fun _ => stable_loaded) (fun h hs => ?_)
    (fun _ hs => hs.kept.1.changed.loaded) fun h hinv hs hallowed => hs.save hinv hallowed
  obtain ⟨base, hcurrent, -⟩ := hs.kept.1.changed.current
  simp [hcurrent]

/-- Nothing is written over. -/
def Restful (h : Host) : Prop := Loaded h ∧ h.written = none

theorem stable_restful : (surroundings d).Stable Restful := stable_of fun _ _ hs => ⟨hs.1, rfl⟩

theorem Inv.deleteOwned (hinv : Inv d h) (hwritten : h.written = none)
    (howned : h.impl.undoFile = some true) :
    Inv d ((h.setFile none).setHandle (some false)) where
  written := fun e he => absurd (hwritten.symm.trans he) (by simp)
  contents := fun _ _ hfile => by cases hfile
  memory := hinv.memory
  owned := fun hother => by cases hother
  exclusive := fun hother => by cases hother
  reset := fun _ => rfl
  recovery := fun hrecovery => by
    have hnone : h.recovery.isSome = false := hinv.exclusive howned
    exact absurd (hnone.symm.trans hrecovery) (by simp)

theorem triple_deleteOwnedFile :
    Triple (d := d) Restful deleteOwnedFile fun _ => Restful := by
  refine (triple_impl stable_restful).bind fun impl =>
    Surroundings.Triple.ifProp (fun howned => ?_) fun _ =>
      Surroundings.Triple.pure (stable_and stable_restful fun _ _ hs => hs) fun _ _ hs => hs.1
  refine Surroundings.Triple.ask (stable_and stable_restful fun _ _ hs => hs)
    (fun _ => stable_restful) fun h ok hinv hs _ => ?_
  cases ok with
  | false => exact ⟨hinv, .of_eq rfl, hs.1⟩
  | true =>
      have hrestful := hs.1
      exact ⟨hinv.deleteOwned hs.1.2 (hs.2 ▸ howned), .of_eq rfl, hrestful.1, hrestful.2⟩

/-! ## Sessions and functions -/

/-- What loading the settings leaves: the session as it was saved, or none. -/
def Copied (d : Driver) (loaded : Bool) (ok : Bool) (h : Host) : Prop :=
  h.impl.loaded = loaded ∧ if ok = true then
    ∃ own, h.impl.session = some ⟨own, own⟩ ∧ ∀ e, h.written = some e → own = some d.preferEnabled
  else h.impl.session = none

theorem stable_copied (loaded ok : Bool) : (surroundings d).Stable (Copied d loaded ok) := by
  cases ok with
  | false => exact stable_of fun _ _ hs => hs
  | true =>
      exact stable_of fun _ _ ⟨hloaded, own, hsession, _⟩ =>
        ⟨hloaded, own, hsession, fun _ he => by cases he⟩

theorem triple_destroySession {P : Host → Prop} {Q : Host → Prop}
    (hP : (surroundings d).Stable P) (hQ : (surroundings d).Stable Q)
    (h : ∀ h, P h → Q (h.withSession none)) :
    Triple (d := d) P (ask .destroySession) fun _ => Q :=
  Surroundings.Triple.ask hP (fun _ => hQ) fun s _ hinv hs _ =>
    ⟨hinv.withSession none, .of_eq rfl, h s hs⟩

/-- `load_settings`. -/
theorem triple_loadSettings (loaded : Bool) :
    Triple (d := d) (fun h => h.impl.loaded = loaded) loadSettings (Copied d loaded) := by
  have hstable : (surroundings d).Stable fun h => h.impl.loaded = loaded :=
    stable_of fun _ _ hs => hs
  have hboth := fun impl : Impl => stable_and hstable (F := fun h => h.impl = impl)
    fun _ _ hs => hs
  refine (triple_impl hstable).bind fun impl =>
    Surroundings.Triple.ite (fun _ => ?_) fun hnone =>
      Surroundings.Triple.pure (hboth impl) fun h _ hs => ⟨hs.1, ?_⟩
  · have hload : Triple (d := d) (fun h => h.impl.loaded = loaded ∧ h.impl = impl)
        (ask .loadSettings) fun ok h =>
          if ok = true then Copied d loaded true h else h.impl.loaded = loaded := by
      refine Surroundings.Triple.ask (hboth impl) (fun ok => ?_) fun h ok hinv hs _ => ?_
      · cases ok with
        | false => exact hstable
        | true => exact stable_copied loaded true
      · cases ok with
        | false => exact ⟨hinv, .of_eq rfl, hs.1⟩
        | true =>
            exact ⟨hinv.withSession _, .of_eq rfl, hs.1, h.saved, rfl,
              fun e he => (hinv.written e he).2.2.1⟩
    refine hload.bind fun ok => ?_
    cases ok with
    | true => exact Surroundings.Triple.pure (stable_copied loaded true) fun _ _ hs => hs
    | false =>
        exact (triple_destroySession hstable (stable_copied loaded false)
          fun _ hs => ⟨hs, rfl⟩).bind fun _ =>
            Surroundings.Triple.pure (stable_copied loaded false) fun _ _ hs => hs
  · have hsession : h.impl.session.isSome = false := by rw [hs.2, hnone]
    simpa using hsession

theorem triple_makeUndoAndCommit :
    Triple (d := d) (Changed d e) (makeUndoAndCommit (record d e)) fun _ => Loaded := by
  refine triple_prepareUndoFile.bind fun ok => ?_
  cases ok with
  | false => exact Surroundings.Triple.pure stable_loaded fun _ _ hs => hs
  | true =>
      refine Surroundings.Triple.bind triple_mergeUndoData fun data => ?_
      intro h hinv ⟨hdata, hkept⟩
      subst hdata
      refine Surroundings.Triple.bind triple_writeUndoData (fun ok => ?_) h hinv hkept
      cases ok with
      | true => exact triple_commit
      | false =>
          have hrests : Triple (d := d) (Kept d e) deleteOwnedFile fun _ => Restful :=
            triple_deleteOwnedFile.mono (fun _ _ hs => ⟨hs.1.changed.loaded, hs.1.written⟩)
              fun _ _ _ hs => hs
          exact hrests.bind fun _ => Surroundings.Triple.pure stable_restful fun _ _ hs => hs.1

/-- `modify_global_profile`. -/
theorem triple_modifyGlobalProfile :
    Triple (d := d) (Ready d) (modifyGlobalProfile d) fun _ => Loaded := by
  refine (triple_impl stable_ready).bind fun impl =>
    Surroundings.Triple.ite (fun _ => ?_) fun _ =>
      Surroundings.Triple.pure (stable_and stable_ready fun _ _ hs => hs) fun _ _ hs => hs.1.loaded
  refine (triple_checkAndModifyGlobalProfile.mono (fun _ _ hs => hs.1)
    fun _ _ _ hs => hs).bind fun checked => ?_
  match checked with
  | none => exact Surroundings.Triple.pure stable_loaded fun _ _ hs => hs
  | some none => exact Surroundings.Triple.pure stable_loaded fun _ _ hs => hs
  | some (some data) =>
      intro h hinv ⟨e, hdata, hchanged⟩
      subst hdata
      refine Surroundings.Triple.bind triple_makeUndoAndCommit (fun ok => ?_) h hinv hchanged
      cases ok with
      | true => exact Surroundings.Triple.pure stable_loaded fun _ _ hs => hs
      | false =>
          exact (triple_loadSettings true).bind fun ok =>
            Surroundings.Triple.pure (stable_copied true ok) fun _ _ hs => hs.1

/-- What a process that keeps undo data with an undo file undoes by it. -/
theorem Inv.undoesOwn (hinv : Inv d h) (hdata : h.impl.undoData = some data)
    (hfile : h.impl.undoFile.isSome = true) : Undoes d data h where
  ours := .inr (hinv.memory data hdata)
  written := fun e he => by
    obtain ⟨handle, hhandle⟩ := Option.isSome_iff_exists.mp hfile
    cases handle with
    | false => simp [hinv.written_of_file (hinv.reset hhandle)] at he
    | true => exact Option.some.inj (hdata.symm.trans ((hinv.owned hhandle).2 e he))

theorem triple_forget : Triple (d := d) Restful (ask .forget) fun _ => Loaded :=
  Surroundings.Triple.ask stable_restful (fun _ => stable_loaded) fun h _ hinv hs _ =>
    ⟨{ written := hinv.written
       contents := hinv.contents
       memory := fun _ hdata => by cases hdata
       owned := fun howned => by cases howned
       exclusive := fun howned => by cases howned
       reset := fun hreset => by cases hreset
       recovery := hinv.recovery }, .of_eq rfl, hs.1⟩

/-- `restore_global_profile`. -/
theorem triple_restoreGlobalProfile :
    Triple (d := d) (Ready d) restoreGlobalProfile fun _ => Loaded := by
  have hreadyBoth := fun impl : Impl => stable_and (stable_ready (d := d))
    (F := fun h => h.impl = impl) fun _ _ hs => hs
  have hgivesUp : ∀ {P : Host → Prop}, (surroundings d).Stable P → (∀ h, P h → Loaded h) →
      Triple (d := d) P (pure false) fun _ => Loaded :=
    fun hP hloaded => Surroundings.Triple.pure hP fun h _ hs => hloaded h hs
  refine (triple_impl stable_ready).bind fun impl => ?_
  cases hdata : impl.undoData with
  | none => exact hgivesUp (hreadyBoth impl) fun _ hs => hs.1.loaded
  | some data =>
      refine Surroundings.Triple.ite (fun hboth => ?_) fun _ =>
        hgivesUp (hreadyBoth impl) fun _ hs => hs.1.loaded
      intro h hinv ⟨⟨session, hclean, _⟩, himpl⟩
      have hfile : h.impl.undoFile.isSome = true := by
        rw [himpl]
        exact (Bool.and_eq_true_iff.mp hboth).2
      have hundoes := hinv.undoesOwn (himpl ▸ hdata) hfile
      refine Surroundings.Triple.bind (triple_restoreGlobalProfileToUndo (x := h.journal) data)
        (fun ok => ?_) h hinv ⟨⟨⟨session, hclean⟩, rfl⟩, hundoes⟩
      have hloaded : ∀ g, Usable d h.journal g → Loaded g :=
        fun g ⟨⟨session, hclean⟩, _⟩ => hclean.loaded
      refine Surroundings.Triple.ite (fun hok => ?_) fun _ =>
        hgivesUp (stable_attempted ok) fun g hs => hloaded g hs.usable
      refine Surroundings.Triple.bind (triple_saveRestored.mono
        (fun _ _ hs => ⟨hs.usable, hs.restored hok⟩) fun _ _ _ hs => hs) fun saved => ?_
      refine Surroundings.Triple.ite (fun hsaved => ?_) fun _ =>
        hgivesUp (stable_finished saved) fun g hs => hloaded g hs.usable
      refine Surroundings.Triple.bind (triple_deleteOwnedFile.mono
        (fun g _ hs => ⟨hloaded g hs.usable, hs.written hsaved⟩) fun _ _ _ hs => hs)
          fun deleted => ?_
      refine Surroundings.Triple.ite (fun _ => ?_) fun _ =>
        hgivesUp stable_restful fun _ hs => hs.1
      exact triple_forget.bind fun _ => Surroundings.Triple.pure stable_loaded fun _ _ hs => hs

/-! ## The callers -/

/-- Between the programs nothing is loaded. -/
def Idle (h : Host) : Prop := h.impl.loaded = false ∧ h.impl.session = none

theorem stable_idle : (surroundings d).Stable Idle := stable_of fun _ _ hs => hs

/-- A session is only there while the library is loaded. -/
def Loose (h : Host) : Prop := h.impl.loaded = false → h.impl.session = none

theorem stable_loose : (surroundings d).Stable Loose := stable_of fun _ _ hs => hs

theorem Loaded.loose (h' : Loaded h) : Loose h :=
  fun hfalse => absurd (h'.symm.trans hfalse) (by simp)

theorem triple_setLoaded (loaded : Bool) {P Q : Host → Prop} (hP : (surroundings d).Stable P)
    (hQ : (surroundings d).Stable Q)
    (h : ∀ h, P h → Q { h with impl := { h.impl with loaded } }) :
    Triple (d := d) P (ask (.setLoaded loaded)) fun _ => Q :=
  Surroundings.Triple.ask hP (fun _ => hQ) fun s _ hinv hs _ =>
    ⟨hinv.of_eq rfl rfl rfl rfl rfl rfl, .of_eq rfl, h s hs⟩

theorem triple_unload : Triple (d := d) Loose unload fun _ => Idle := by
  have hnone : (surroundings d).Stable fun h => h.impl.session = none := stable_of fun _ _ hs => hs
  refine (triple_impl stable_loose).bind fun impl =>
    Surroundings.Triple.ite (fun _ => ?_) fun hfalse => ?_
  · exact (triple_destroySession (stable_and stable_loose fun _ _ hs => hs) hnone
      fun _ _ => rfl).bind fun _ => triple_setLoaded false hnone stable_idle fun _ hs => ⟨rfl, hs⟩
  · refine Surroundings.Triple.pure (stable_and stable_loose fun _ _ hs => hs) fun h _ hs => ?_
    have hloaded : h.impl.loaded = false := by rw [hs.2, hfalse]
    exact ⟨hloaded, hs.1 hloaded⟩

theorem triple_init : Triple (d := d) Idle init (Copied d false) := by
  have hgivesUp : Triple (d := d) Idle (pure false) (Copied d false) :=
    Surroundings.Triple.pure stable_idle fun _ _ hs => hs
  have hunloaded : (surroundings d).Stable fun h => h.impl.loaded = false :=
    stable_of fun _ _ hs => hs
  refine (triple_impl stable_idle).bind fun impl =>
    Surroundings.Triple.ite (fun hsome => ?_) fun _ => ?_
  · refine fun h _ hs => absurd hs.1.2 fun hnone => ?_
    rw [← hs.2, hnone] at hsome
    cases hsome
  · have hquiet : Triple (d := d) (fun h => Idle h ∧ h.impl = impl) (ask .initializeApi) fun _ =>
        Idle := Surroundings.Triple.mono (triple_quiet stable_idle fun _ _ => rfl)
          (fun _ _ hs => hs.1) fun _ _ _ hs => hs
    refine hquiet.bind fun ok => Surroundings.Triple.ite (fun _ => ?_) fun _ => hgivesUp
    have hcreate : Triple (d := d) Idle (ask .createSession) fun ok h =>
        if ok = true then h.impl.loaded = false else Idle h := by
      refine Surroundings.Triple.ask stable_idle (fun ok => ?_) fun h ok hinv hs _ => ?_
      · cases ok with
        | false => exact stable_idle
        | true => exact hunloaded
      · cases ok with
        | false => exact ⟨hinv, .of_eq rfl, hs⟩
        | true => exact ⟨hinv.withSession _, .of_eq rfl, hs.1⟩
    refine hcreate.bind fun ok => ?_
    cases ok with
    | false => exact hgivesUp
    | true => exact triple_loadSettings false

/-- `load`. -/
theorem triple_load :
    Triple (d := d) Idle load fun ok h => if ok = true then Ready d h else Idle h := by
  have hgivesUp : Triple (d := d) Idle (pure false) fun ok h =>
      if ok = true then Ready d h else Idle h :=
    Surroundings.Triple.pure stable_idle fun _ _ hs => hs
  refine (triple_impl stable_idle).bind fun impl =>
    Surroundings.Triple.ite (fun hloaded => ?_) fun _ => ?_
  · refine fun h _ hs => absurd hs.1.1 ?_
    rw [hs.2, hloaded]
    simp
  · have hquiet : Triple (d := d) (fun h => Idle h ∧ h.impl = impl) (ask .getEnvironment)
        fun _ => Idle := Surroundings.Triple.mono (triple_quiet stable_idle fun _ _ => rfl)
          (fun _ _ hs => hs.1) fun _ _ _ hs => hs
    refine hquiet.bind fun ok => Surroundings.Triple.ite (fun _ => ?_) fun _ => hgivesUp
    refine triple_init.bind fun ok => ?_
    cases ok with
    | false =>
        exact (triple_setLoaded false (stable_copied false false) stable_idle
          fun _ hs => ⟨rfl, hs.2⟩).bind fun _ => hgivesUp
    | true =>
        refine (triple_setLoaded true (stable_copied false true) stable_ready
          fun h ⟨_, own, hsession, hours⟩ => ⟨⟨own, own⟩, ⟨rfl, hsession, .inl rfl, fun e he =>
            ⟨hours e he, .inl (hours e he)⟩⟩, fun _ => hours⟩).bind fun _ => ?_
        exact Surroundings.Triple.pure stable_ready fun _ _ hs => hs

theorem triple_applyPreferences (recovers : Bool) :
    Triple (d := d) (Ready d) (applyPreferences d recovers) fun _ => Idle := by
  have hrest : Triple (d := d) (Ready d) (do
      let _ ← modifyApplicationProfile
      let _ ← modifyGlobalProfile d
      unload) fun _ => Idle :=
    triple_modifyApplicationProfile.bind fun _ => triple_modifyGlobalProfile.bind fun _ =>
      triple_unload.mono (fun _ _ hs => hs.loose) fun _ _ _ hs => hs
  cases recovers with
  | false => exact hrest
  | true => exact triple_recover.bind fun _ => hrest

/-- Every caller keeps the invariant and leaves nothing loaded. -/
theorem triple_program (entry : Entry) :
    Triple (d := d) Idle (entry.program d) fun _ => Idle := by
  have hidle : Triple (d := d) Idle (pure ()) fun _ => Idle :=
    Surroundings.Triple.pure stable_idle fun _ _ hs => hs
  have hunload : Triple (d := d) Idle unload fun _ => Idle :=
    triple_unload.mono (fun _ _ hs _ => hs.2) fun _ _ _ hs => hs
  cases entry with
  | startup =>
      refine triple_load.bind fun ok => ?_
      cases ok with
      | false => exact hidle
      | true => exact triple_applyPreferences true
  | streamingWillStart =>
      refine triple_load.bind fun ok => ?_
      cases ok with
      | false => exact hidle
      | true =>
          have himpl : Triple (d := d) (Ready d) (ask .impl) fun _ => Ready d :=
            triple_quiet stable_ready fun _ _ => rfl
          exact himpl.bind fun impl => triple_applyPreferences impl.undoFile.isNone
  | restoreGuard =>
      have himpl : Triple (d := d) Idle (ask .impl) fun _ => Idle :=
        triple_quiet stable_idle fun _ _ => rfl
      refine himpl.bind fun impl => ?_
      cases hsome : impl.undoFile.isSome with
      | false => exact hunload
      | true =>
          refine triple_load.bind fun ok => ?_
          cases ok with
          | false => exact hunload
          | true =>
              exact triple_restoreGlobalProfile.bind fun _ =>
                triple_unload.mono (fun _ _ hs => Loaded.loose hs) fun _ _ _ hs => hs
  | restoreNvprefsUndo =>
      refine triple_load.bind fun ok => ?_
      cases ok with
      | false => exact hidle
      | true =>
          exact triple_recover.bind fun _ =>
            triple_unload.mono (fun _ _ hs => hs.loaded.loose) fun _ _ _ hs => hs

end LuminalShine.Nvprefs
