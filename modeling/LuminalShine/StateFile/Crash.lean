import LuminalShine.StateFile.Disk
import LuminalShine.Lib.Run

/-!
# State files across crashes

Sequences of writes, loads, crashes and damage on the files beside one path.

Recovery takes a left-over temporary before the backup, as the newer of the two.  It is the
newer one until a later write reaches the backup: no write clears the temporaries that
earlier crashes left.

## Main definitions

* `Store`, `step` — a sequence of calls, crashes and damage.
* `RecoversNewest` — what recovery owes the primary and the backup.
* `Orderly` — no backup is renamed into place beside an older temporary.

## Main results

* `orderly_run_recovers` — in orderly runs recovery never goes back.
-/

namespace LuminalShine.StateFile

open LuminalShine.Lib

/-! ## Runs -/

inductive File where
  | primary
  | bak
  | temp (name : ℕ)
  deriving DecidableEq, Repr

/-- A file becomes `content`; `none` is a loss. -/
def Disk.damage (d : Disk) (file : File) (size : Option ℕ) : Disk :=
  let content := size.map Content.corrupt
  match file with
  | .primary => { d with primary := content }
  | .bak => { d with bak := content }
  | .temp name =>
      { d with temps := match content with
        | none => d.others name
        | some content =>
            d.temps.map fun temp => if temp.name = name then { temp with content } else temp }

/-- The disk, the number of the next write, the last one that returned `true` with its
backup in place, and whether the backup was damaged since the start. -/
structure Store where
  disk : Disk
  next : ℕ
  mirrored : Option ℕ
  bakDamaged : Bool

inductive Label where
  | write (tree : Ptree) (calls : WriteCalls) (crash : Option ℕ)
  | load (calls : WriteCalls) (removeOk : Bool) (crash : Option ℕ)
  | damage (file : File) (size : Option ℕ)

def Store.init : Store := ⟨⟨none, none, none, []⟩, 0, none, false⟩

/-- The write a label performs: what it writes, under which name, and the operations done. -/
def writing (s : Store) : Label → Option (Snapshot × ℕ × List Op)
  | .write tree calls crash =>
      let snapshot : Snapshot := ⟨s.next, tree⟩
      some (snapshot, calls.name, cut crash (writeOps snapshot calls).1)
  | .load calls removeOk crash =>
      match s.disk.readPrimary with
      | some _ => none
      | none => (s.disk.recovery calls removeOk).map fun (snapshot, ops) =>
          (snapshot, calls.name, cut crash ops)
  | .damage _ _ => none

def step (s : Store) : Label → Option Store
  | .write tree calls crash =>
      let snapshot : Snapshot := ⟨s.next, tree⟩
      let ops := (writeOps snapshot calls).1
      some {
        disk := atomicWriteJson snapshot calls crash s.disk
        next := s.next + 1
        mirrored := if crash = none ∧ ops.any Op.isRenameBackup then some s.next else s.mirrored
        bakDamaged := s.bakDamaged }
  | .load calls removeOk crash =>
      some { s with disk := (s.disk.loadOrRecover calls removeOk crash).2 }
  | .damage file size =>
      some { s with
        disk := s.disk.damage file size
        bakDamaged := s.bakDamaged || file = .bak }

/-- A load returns a tree at least as new as the primary and the backup, where these are
intact, and as the last write that was mirrored, unless the backup was damaged. -/
structure RecoversNewest (s : Store) : Prop where
  file : ∀ snapshot, s.disk.readPrimary = some snapshot ∨ s.disk.readBak = some snapshot →
    ∀ calls removeOk crash, ∃ loaded,
      (s.disk.loadOrRecover calls removeOk crash).1 = some loaded ∧
        snapshot.version ≤ loaded.version
  mirrored : s.bakDamaged = false → ∀ version, s.mirrored = some version →
    ∀ calls removeOk crash, ∃ loaded,
      (s.disk.loadOrRecover calls removeOk crash).1 = some loaded ∧ version ≤ loaded.version

/-- No temporary but the one named is older. -/
def Disk.Fresh (d : Disk) (name version : ℕ) : Prop :=
  ∀ temp ∈ d.others name, ∀ snapshot ∈ temp.content.read, version ≤ snapshot.version

/-- A step that renames a backup into place leaves no older temporary beside it. -/
def Orderly (s : Store) (label : Label) : Prop :=
  ∀ w ∈ writing s label, w.2.2.any Op.isRenameBackup = true →
    s.disk.Fresh w.2.1 w.1.version

instance (s : Store) (label : Label) : Decidable (Orderly s label) :=
  inferInstanceAs (Decidable (∀ w ∈ writing s label, w.2.2.any Op.isRenameBackup = true →
    ∀ temp ∈ s.disk.others w.2.1, ∀ snapshot ∈ temp.content.read,
      w.1.version ≤ snapshot.version))

/-! ## What a step does -/

/-- A step writes a new tree, restores one that the disk holds, damages a file, or leaves
the disk as it is. -/
theorem step_cases {s s' : Store} {label : Label} (h : step s label = some s') :
    (∃ snapshot name ops, writing s label = some (snapshot, name, ops) ∧
      Outcome s.disk snapshot name (ops.any Op.isRenameBackup) s'.disk ∧
      s'.bakDamaged = s.bakDamaged ∧
      (snapshot.version = s.next ∧ s'.next = s.next + 1 ∧
          (s'.mirrored = s.mirrored ∨
            s'.mirrored = some s.next ∧ ops.any Op.isRenameBackup = true) ∨
        s.disk.Holds snapshot ∧ s'.next = s.next ∧ s'.mirrored = s.mirrored)) ∨
    (∃ file size, s' = { s with
      disk := s.disk.damage file size, bakDamaged := s.bakDamaged || file = .bak }) ∨
    s' = s := by
  cases label with
  | write tree calls crash =>
      simp only [step, Option.some.injEq] at h
      subst h
      refine Or.inl ⟨⟨s.next, tree⟩, calls.name, _, rfl,
        (leavesCut_writeOps s.disk _ calls).cut crash, rfl, Or.inl ⟨rfl, rfl, ?_⟩⟩
      dsimp only
      split
      · case isTrue hmirrored =>
          obtain ⟨rfl, hmirrored⟩ := hmirrored
          exact Or.inr ⟨rfl, hmirrored⟩
      · exact Or.inl rfl
  | load calls removeOk crash =>
      simp only [step, Option.some.injEq] at h
      subst h
      cases hprimary : s.disk.readPrimary with
      | some snapshot => simp [Disk.loadOrRecover, hprimary]
      | none =>
          cases hrecovery : s.disk.recovery calls removeOk with
          | none => simp [Disk.loadOrRecover, hprimary, hrecovery]
          | some taken =>
              obtain ⟨snapshot, ops⟩ := taken
              refine Or.inl ⟨snapshot, calls.name, cut crash ops, ?_, ?_, rfl,
                Or.inr ⟨recovery_holds hrecovery, rfl, rfl⟩⟩
              · simp [writing, hprimary, hrecovery]
              · simp only [Disk.loadOrRecover, hprimary, hrecovery]
                exact (leavesCut_recovery s.disk snapshot calls hrecovery).cut crash
  | damage file size =>
      simp only [step, Option.some.injEq] at h
      exact Or.inr (Or.inl ⟨file, size, h.symm⟩)

/-! ## Orderly runs -/

/-- The backup is not newer than what recovery tries before it. -/
structure Ordered (s : Store) : Prop where
  bak_lt : ∀ b ∈ s.disk.readBak, b.version < s.next
  temps_lt : ∀ temp ∈ s.disk.temps, ∀ t ∈ temp.content.read, t.version < s.next
  bak_le_primary : ∀ b ∈ s.disk.readBak, ∀ p ∈ s.disk.readPrimary, b.version ≤ p.version
  bak_le_temps : ∀ b ∈ s.disk.readBak, ∀ temp ∈ s.disk.temps, ∀ t ∈ temp.content.read,
    b.version ≤ t.version
  mirrored : s.bakDamaged = false → ∀ version ∈ s.mirrored,
    ∃ b, s.disk.readBak = some b ∧ version ≤ b.version

namespace Outcome

variable {d d' : Disk} {snapshot : Snapshot} {name : ℕ} {mirrors : Bool}

theorem readPrimary (h : Outcome d snapshot name mirrors d') {p : Snapshot}
    (hp : p ∈ d'.readPrimary) : p ∈ d.readPrimary ∨ p = snapshot := by
  rcases h.primary with hprimary | hprimary
  · left
    simpa [Disk.readPrimary, hprimary] using hp
  · right
    simp only [Disk.readPrimary, hprimary, Option.bind_some, Content.read, Option.mem_def,
      Option.some.injEq] at hp
    exact hp.symm

theorem readTemps (h : Outcome d snapshot name mirrors d') {temp : Temp} (htemp : temp ∈ d'.temps)
    {t : Snapshot} (ht : t ∈ temp.content.read) :
    (temp ∈ d.temps ∧ t ∈ temp.content.read) ∨ t = snapshot := by
  rcases h.temps temp htemp with hold | hnew
  · exact Or.inl ⟨hold, ht⟩
  · exact Or.inr (hnew t ht)

theorem readBak (h : Outcome d snapshot name mirrors d') :
    d'.readBak = if mirrors then some snapshot else d.readBak := by
  cases mirrors with
  | false => simp [Disk.readBak, h.unmirrored rfl]
  | true => simp [Disk.readBak, (h.mirrored rfl).1, Content.read]

end Outcome

/-- A write of a tree that is not older than the backup, and that leaves no older temporary
beside a new one. -/
theorem Ordered.write {s s' : Store} {snapshot : Snapshot} {name : ℕ} {mirrors : Bool}
    (h : Ordered s) (houtcome : Outcome s.disk snapshot name mirrors s'.disk)
    (hnext : s.next ≤ s'.next) (hlt : snapshot.version < s'.next)
    (hbak : ∀ b ∈ s.disk.readBak, b.version ≤ snapshot.version)
    (hfresh : mirrors = true → s.disk.Fresh name snapshot.version)
    (hdamaged : s'.bakDamaged = s.bakDamaged)
    (hmirrored : s'.mirrored = s.mirrored ∨
      s'.mirrored = some snapshot.version ∧ mirrors = true) : Ordered s' := by
  have htemps_lt : ∀ temp ∈ s'.disk.temps, ∀ t ∈ temp.content.read, t.version < s'.next := by
    intro temp htemp t ht
    rcases houtcome.readTemps htemp ht with ⟨hold, ht⟩ | rfl
    · have := h.temps_lt temp hold t ht
      omega
    · exact hlt
  cases mirrors with
  | false =>
      have hreadBak : s'.disk.readBak = s.disk.readBak := houtcome.readBak
      constructor
      · intro b hb
        rw [hreadBak] at hb
        have := h.bak_lt b hb
        omega
      · exact htemps_lt
      · intro b hb p hp
        rw [hreadBak] at hb
        rcases houtcome.readPrimary hp with hp | rfl
        · exact h.bak_le_primary b hb p hp
        · exact hbak b hb
      · intro b hb temp htemp t ht
        rw [hreadBak] at hb
        rcases houtcome.readTemps htemp ht with ⟨hold, ht⟩ | rfl
        · exact h.bak_le_temps b hb temp hold t ht
        · exact hbak b hb
      · intro hsound version hversion
        rw [hdamaged] at hsound
        rcases hmirrored with hmirrored | ⟨-, hmirrors⟩
        · rw [hmirrored] at hversion
          rw [hreadBak]
          exact h.mirrored hsound version hversion
        · cases hmirrors
  | true =>
      have hreadBak : s'.disk.readBak = some snapshot := houtcome.readBak
      obtain ⟨-, hprimary, htemps⟩ := houtcome.mirrored rfl
      constructor
      · intro b hb
        rw [hreadBak, Option.mem_some_iff] at hb
        exact hb ▸ hlt
      · exact htemps_lt
      · intro b hb p hp
        rw [hreadBak, Option.mem_some_iff] at hb
        simp only [Disk.readPrimary, hprimary, Option.bind_some, Content.read,
          Option.mem_some_iff] at hp
        rw [← hb, ← hp]
      · intro b hb temp htemp t ht
        rw [hreadBak, Option.mem_some_iff] at hb
        exact hb ▸ hfresh rfl temp (htemps temp htemp) t ht
      · intro hsound version hversion
        refine ⟨snapshot, hreadBak, ?_⟩
        rw [hdamaged] at hsound
        rcases hmirrored with hmirrored | ⟨hmirrored, -⟩
        · rw [hmirrored] at hversion
          obtain ⟨b, hb, hle⟩ := h.mirrored hsound version hversion
          have := hbak b hb
          omega
        · rw [hmirrored, Option.mem_some_iff] at hversion
          omega

theorem mem_damage_temps {d : Disk} {file : File} {size : Option ℕ} {temp : Temp}
    (htemp : temp ∈ (d.damage file size).temps) {t : Snapshot} (ht : t ∈ temp.content.read) :
    ∃ old ∈ d.temps, t ∈ old.content.read := by
  cases file with
  | primary => exact ⟨temp, htemp, ht⟩
  | bak => exact ⟨temp, htemp, ht⟩
  | temp name =>
      cases size with
      | none => exact ⟨temp, Disk.mem_of_mem_others htemp, ht⟩
      | some size =>
          simp only [Disk.damage, Option.map_some, List.mem_map] at htemp
          obtain ⟨old, hold, rfl⟩ := htemp
          split at ht
          · simp [Content.read] at ht
          · exact ⟨old, hold, ht⟩

/-- Damage takes trees away and adds none. -/
theorem Ordered.damage {s : Store} (h : Ordered s) (file : File) (size : Option ℕ) :
    Ordered { s with
      disk := s.disk.damage file size, bakDamaged := s.bakDamaged || file = .bak } := by
  have hreadBak : ∀ b ∈ (s.disk.damage file size).readBak, b ∈ s.disk.readBak := by
    intro b hb
    cases file with
    | primary => exact hb
    | bak => cases size <;> simp [Disk.damage, Disk.readBak, Content.read] at hb
    | temp name => exact hb
  have hreadPrimary : ∀ p ∈ (s.disk.damage file size).readPrimary, p ∈ s.disk.readPrimary := by
    intro p hp
    cases file with
    | primary => cases size <;> simp [Disk.damage, Disk.readPrimary, Content.read] at hp
    | bak => exact hp
    | temp name => exact hp
  constructor
  · intro b hb
    exact h.bak_lt b (hreadBak b hb)
  · intro temp htemp t ht
    obtain ⟨old, hold, ht⟩ := mem_damage_temps htemp ht
    exact h.temps_lt old hold t ht
  · intro b hb p hp
    exact h.bak_le_primary b (hreadBak b hb) p (hreadPrimary p hp)
  · intro b hb temp htemp t ht
    obtain ⟨old, hold, ht⟩ := mem_damage_temps htemp ht
    exact h.bak_le_temps b (hreadBak b hb) old hold t ht
  · intro hsound version hversion
    simp only [Bool.or_eq_false_iff, decide_eq_false_iff_not] at hsound
    obtain ⟨b, hb, hle⟩ := h.mirrored hsound.1 version hversion
    refine ⟨b, ?_, hle⟩
    cases file with
    | primary => exact hb
    | bak => exact absurd rfl hsound.2
    | temp name => exact hb

/-- One orderly step. -/
theorem step_ordered {s s' : Store} {label : Label} (h : Ordered s) (horderly : Orderly s label)
    (hstep : step s label = some s') : Ordered s' := by
  rcases step_cases hstep with
    ⟨snapshot, name, ops, hwriting, houtcome, hdamaged, hwrite⟩ | ⟨file, size, rfl⟩ | rfl
  · have hfresh := horderly _ hwriting
    rcases hwrite with ⟨hversion, hnext, hmirrored⟩ | ⟨hholds, hnext, hmirrored⟩
    · -- A new tree is newer than all that is on the disk.
      refine h.write houtcome (by omega) (by omega) ?_ hfresh hdamaged (hversion ▸ hmirrored)
      intro b hb
      have := h.bak_lt b hb
      omega
    · -- A restored one is the backup's or that of a temporary.
      refine h.write houtcome (by omega) ?_ ?_ hfresh hdamaged (Or.inl hmirrored)
      · rw [hnext]
        rcases hholds with ⟨temp, htemp, hread⟩ | hbak
        · exact h.temps_lt temp htemp snapshot hread
        · exact h.bak_lt snapshot hbak
      · intro b hb
        rcases hholds with ⟨temp, htemp, hread⟩ | hbak
        · exact h.bak_le_temps b hb temp htemp snapshot hread
        · rw [Option.mem_unique hb hbak]
  · exact h.damage file size
  · exact h

/-- Recovery finds what is at least as new as the backup, and the primary if it is there. -/
theorem Ordered.loads {s : Store} (h : Ordered s) {b : Snapshot} (hb : s.disk.readBak = some b)
    (calls : WriteCalls) (removeOk : Bool) (crash : Option ℕ) :
    ∃ loaded, (s.disk.loadOrRecover calls removeOk crash).1 = some loaded ∧
      b.version ≤ loaded.version := by
  rw [loadOrRecover_fst]
  cases hprimary : s.disk.readPrimary with
  | some p => exact ⟨p, rfl, h.bak_le_primary b hb p hprimary⟩
  | none =>
      cases htemp : s.disk.readTemp with
      | some taken =>
          obtain ⟨temp, hmem, hread⟩ := readTemp_mem htemp
          exact ⟨taken.2, rfl, h.bak_le_temps b hb temp hmem taken.2 hread⟩
      | none => exact ⟨b, by simpa using hb, Nat.le_refl _⟩

theorem Ordered.recoversNewest {s : Store} (h : Ordered s) : RecoversNewest s where
  file := by
    intro snapshot hfile calls removeOk crash
    rcases hfile with hprimary | hbak
    · exact ⟨snapshot, by rw [loadOrRecover_fst, hprimary]; rfl, Nat.le_refl _⟩
    · exact h.loads hbak calls removeOk crash
  mirrored := by
    intro hsound version hversion calls removeOk crash
    obtain ⟨b, hb, hle⟩ := h.mirrored hsound version hversion
    obtain ⟨loaded, hloaded, hle'⟩ := h.loads hb calls removeOk crash
    exact ⟨loaded, hloaded, by omega⟩

theorem ordered_init : Ordered .init := by
  constructor <;> simp [Store.init, Disk.readBak]

/-- In a run whose backups are never renamed into place beside an older temporary, every
load returns a tree at least as new as the primary, the backup and the last mirrored
write. -/
theorem orderly_run_recovers {labels : List Label} {s : Store}
    (hmeets : RunMeets step Orderly .init labels) (hrun : run step .init labels = some s) :
    RecoversNewest s :=
  (run_invariant_of_meets (P := Ordered)
    (fun _ _ _ h horderly hstep => step_ordered h horderly hstep) ordered_init hmeets
    hrun).recoversNewest

/-- A crash before the rename, then the loss of the primary: the temporary is restored and
removed, and a later write finds none. -/
def crashThenLoss : List Label :=
  [.write (.leaf "a") (.succeed 0) none, .write (.leaf "b") (.succeed 1) (some 3),
    .damage .primary none, .load (.succeed 2) true none,
    .write (.leaf "c") (.succeed 3) none, .damage .primary (some 0)]

theorem orderly_run_recovers_crashThenLoss :
    ∃ s, run step .init crashThenLoss = some s ∧ s.mirrored = some 2 ∧ RecoversNewest s := by
  have hmeets : RunMeets step Orderly .init crashThenLoss := by decide
  exact ⟨_, rfl, rfl, orderly_run_recovers hmeets rfl⟩

/-- The same crash, and a write before the primary is lost: the temporary is restored over
the newer backup. -/
theorem recovery_goes_back :
    ∃ s, run step .init
        [.write (.leaf "a") (.succeed 0) none, .write (.leaf "b") (.succeed 1) (some 3),
          .write (.leaf "c") (.succeed 2) none, .damage .primary none] = some s ∧
      ¬ RecoversNewest s := by
  refine ⟨_, rfl, ?_⟩
  intro h
  obtain ⟨loaded, hloaded, hle⟩ := h.mirrored rfl 2 rfl (.succeed 3) true none
  cases hloaded
  exact absurd hle (by decide)

end LuminalShine.StateFile
