import LuminalShine.UserCreds.Threads

/-!
# Password changes, resets and logins

A login with a legacy record is checked against a snapshot and then written back with
Argon2id.  Nothing compares the record with the snapshot before it is overwritten, a reset
erases the record while another thread reloads it, and the fields are assigned one by one.

## Main results

* `step_inv` — in orderly steps nothing in the store or in memory falls behind what is
  completed.
* `orderly_run_sound` — orderly runs are sound.
-/

namespace LuminalShine.UserCreds

open LuminalShine.Lib

variable (crypto : Crypto)

/-! ## The invariant -/

section Invariant

variable {crypto}

theorem entry_append {history : List Entry} {version : ℕ} (h : version ≤ history.length)
    (e : Entry) : entry (history ++ [e]) version = entry history version := by
  unfold entry
  split
  · rfl
  · rw [List.getElem?_append_left (by omega)]

theorem entry_append_self (history : List Entry) (e : Entry) :
    entry (history ++ [e]) (history.length + 1) = some e := by
  simp [entry]

variable (crypto)

/-- A record of that number accepts the login of its change, or none; and with Argon2id it is
not one an upgrade would touch. -/
structure Carries (history : List Entry) (version : ℕ) (c : Credentials) : Prop where
  le_length : version ≤ history.length
  accepts_entry : 0 < version →
    (∀ username password, accepts crypto c username password = false) ∨
      ∃ username password, entry history version = some (.password username password) ∧
        accepts crypto c username password = true
  not_legacy : crypto.argon2idAvailable = true → c.legacy = true → 0 < version →
    ∀ username password, accepts crypto c username password = false

/-- The same of what a reload would read. -/
def BlobCarries (history : List Entry) (version : ℕ) (blob : Blob) : Prop :=
  version ≤ history.length ∧ ∀ tree c, blob = .json tree → (assignRecord c tree).2 = true →
    Carries crypto history version (assignRecord c tree).1

/-- What a thread knows at its place. -/
def ThreadOk (s : Process) : Pc → Prop
  | .idle => True
  | .verifying username password snapshot version =>
      (accepts crypto snapshot username password && snapshot.legacy &&
        crypto.argon2idAvailable) = true → version = 0
  | .locked save => ∀ version ∈ save.upgrades, version = 0
  | .saving save _ => ∀ version ∈ save.upgrades, version = 0
  | .reloading completes => ∀ version ∈ completes, s.floor ≤ version ∧
      ∃ blob, s.persisted = some (blob, version)
  | .loaded completes blob version => s.floor ≤ version ∧
      BlobCarries crypto s.history version blob ∧
      ∀ completed ∈ completes, completed = version ∧ ∃ blob, s.persisted = some (blob, version)
  | .erased version => version ≤ s.floor

/-- Nothing is older than what is completed. -/
structure Core (s : Process) : Prop where
  lock : ∀ tid, (s.threads tid).holdsLock = true ↔ s.lock = some tid
  completed_le : s.completed ≤ s.floor
  floor_le : s.floor ≤ s.history.length
  persisted : ∀ blob version, s.persisted = some (blob, version) →
    s.floor ≤ version ∧ BlobCarries crypto s.history version blob
  completed_le_ram : s.completed ≤ s.ramVersion
  ram : Carries crypto s.history s.ramVersion s.ram
  reload : s.reloadSpoiled = false

structure Inv (s : Process) : Prop extends Core crypto s where
  threads : ∀ tid, ThreadOk crypto s (s.threads tid)

variable {crypto}

theorem Carries.append {history : List Entry} {version : ℕ} {c : Credentials}
    (h : Carries crypto history version c) (e : Entry) :
    Carries crypto (history ++ [e]) version c where
  le_length := by
    have := h.le_length
    simp
    omega
  accepts_entry := by
    intro hpos
    rw [entry_append h.le_length]
    exact h.accepts_entry hpos
  not_legacy := h.not_legacy

/-- A record that accepts nothing can carry any number. -/
theorem carries_of_accepts_nothing {history : List Entry} {version : ℕ} {c : Credentials}
    (hle : version ≤ history.length)
    (h : ∀ username password, accepts crypto c username password = false) :
    Carries crypto history version c :=
  ⟨hle, fun _ => Or.inl h, fun _ _ _ => h⟩

/-- A record of an upgrade is as old as the process. -/
theorem carries_zero (history : List Entry) (c : Credentials) : Carries crypto history 0 c :=
  ⟨Nat.zero_le _, fun h => absurd h (Nat.lt_irrefl 0), fun _ _ h => absurd h (Nat.lt_irrefl 0)⟩

/-- A record that is not older than what is completed accepts it, something newer, or
nothing. -/
theorem Carries.not_onlyOlder {s : Process} {version : ℕ} {c : Credentials}
    (h : Carries crypto s.history version c) (hle : s.completed ≤ version) :
    ¬ OnlyOlder crypto s c := by
  rintro ⟨hpos, ⟨username, password, haccepts⟩, hnone⟩
  rcases h.accepts_entry (by omega) with hnothing | ⟨user, pass, hentry, hnew⟩
  · rw [hnothing] at haccepts
    cases haccepts
  · rw [hnone version user pass hle hentry] at hnew
    cases hnew

theorem Inv.sound {s : Process} (h : Inv crypto s) : Sound crypto s where
  ram := h.ram.not_onlyOlder h.completed_le_ram
  persisted := by
    intro tree version hpersisted hok
    obtain ⟨hfloor, hblob⟩ := h.persisted _ _ hpersisted
    exact (hblob.2 tree s.ram rfl hok).not_onlyOlder (le_trans h.completed_le hfloor)
  reload := h.reload

theorem inv_init (persisted : Option Blob) (ram : Credentials) :
    Inv crypto (.init persisted ram) where
  lock := by
    intro tid
    simp [Process.init, Pc.holdsLock]
  completed_le := Nat.le_refl _
  floor_le := Nat.le_refl _
  persisted := by
    intro blob version h
    simp only [Process.init, Option.map_eq_some_iff, Prod.mk.injEq] at h
    obtain ⟨_, _, _, rfl⟩ := h
    exact ⟨Nat.le_refl _, Nat.le_refl _, fun _ _ _ _ => carries_zero _ _⟩
  completed_le_ram := Nat.le_refl _
  ram := carries_zero _ _
  threads := fun _ => trivial
  reload := rfl

/-! ### Threads -/

/-- A thread outside the mutex depends on the changes only through their number. -/
theorem ThreadOk.of_free {s s' : Process} {pc : Pc} (h : ThreadOk crypto s pc)
    (hfree : pc.holdsLock = false) (hfloor : s.floor ≤ s'.floor) : ThreadOk crypto s' pc := by
  cases pc with
  | idle => trivial
  | verifying username password snapshot version => exact h
  | erased version => exact le_trans h hfloor
  | _ => cases hfree

theorem ThreadOk.of_same {s s' : Process} {pc : Pc} (h : ThreadOk crypto s pc)
    (hpersisted : s'.persisted = s.persisted) (hhistory : s'.history = s.history)
    (hfloor : s'.floor = s.floor) : ThreadOk crypto s' pc := by
  cases pc with
  | idle => trivial
  | verifying username password snapshot version => exact h
  | locked save => exact h
  | saving save existing => exact h
  | reloading completes =>
      simp only [ThreadOk, hpersisted, hfloor] at h ⊢
      exact h
  | loaded completes blob version =>
      simp only [ThreadOk, hpersisted, hfloor, hhistory] at h ⊢
      exact h
  | erased version =>
      simp only [ThreadOk, hfloor] at h ⊢
      exact h

/-- The holder of the mutex is alone. -/
theorem Core.free_of_ne {s : Process} (h : Core crypto s) {tid other : ℕ}
    (hholds : (s.threads tid).holdsLock = true) (hne : other ≠ tid) :
    (s.threads other).holdsLock = false := by
  rw [Bool.eq_false_iff]
  intro hother
  have hlock := (h.lock tid).mp hholds
  rw [(h.lock other).mp hother, Option.some.injEq] at hlock
  exact hne hlock

theorem Core.free_of_none {s : Process} (h : Core crypto s) (hlock : s.lock = none) (tid : ℕ) :
    (s.threads tid).holdsLock = false := by
  rw [Bool.eq_false_iff]
  intro hholds
  rw [(h.lock tid).mp hholds] at hlock
  cases hlock

/-- A thread moves on without taking or leaving the mutex. -/
theorem Core.goto {s : Process} (h : Core crypto s) {tid : ℕ} {pc : Pc}
    (hothers : ∀ other, other ≠ tid → ThreadOk crypto s (s.threads other))
    (hholds : pc.holdsLock = (s.threads tid).holdsLock) (hpc : ThreadOk crypto s pc) :
    Inv crypto (s.goto tid pc) where
  lock := by
    intro other
    by_cases hne : other = tid
    · subst hne
      simp only [Process.goto, Function.update_self, hholds]
      exact h.lock other
    · simp only [Process.goto, Function.update_of_ne hne]
      exact h.lock other
  completed_le := h.completed_le
  floor_le := h.floor_le
  persisted := h.persisted
  completed_le_ram := h.completed_le_ram
  ram := h.ram
  reload := h.reload
  threads := by
    intro other
    by_cases hne : other = tid
    · subst hne
      simp only [Process.goto, Function.update_self]
      exact hpc.of_same rfl rfl rfl
    · simp only [Process.goto, Function.update_of_ne hne]
      exact (hothers other hne).of_same rfl rfl rfl

theorem Core.release {s : Process} (h : Core crypto s) {tid : ℕ}
    (hothers : ∀ other, other ≠ tid → ThreadOk crypto s (s.threads other))
    (hholds : (s.threads tid).holdsLock = true) : Inv crypto (s.release tid) where
  lock := by
    intro other
    by_cases hne : other = tid
    · subst hne
      simp [Process.release, Process.goto, Pc.holdsLock]
    · simp [Process.release, Process.goto, Function.update_of_ne hne, h.free_of_ne hholds hne]
  completed_le := h.completed_le
  floor_le := h.floor_le
  persisted := h.persisted
  completed_le_ram := h.completed_le_ram
  ram := h.ram
  reload := h.reload
  threads := by
    intro other
    by_cases hne : other = tid
    · subst hne
      simp only [Process.release, Process.goto, Function.update_self]
      trivial
    · simp only [Process.release, Process.goto, Function.update_of_ne hne]
      exact (hothers other hne).of_same rfl rfl rfl

theorem Inv.acquire {s : Process} (h : Inv crypto s) (hlock : s.lock = none) (tid : ℕ) {pc : Pc}
    (hholds : pc.holdsLock = true) (hpc : ThreadOk crypto s pc) :
    Inv crypto ({ s with lock := some tid }.goto tid pc) where
  lock := by
    intro other
    by_cases hne : other = tid
    · subst hne
      simp [Process.goto, hholds]
    · simp only [Process.goto, Function.update_of_ne hne, h.free_of_none hlock other,
        Bool.false_eq_true, Option.some.injEq, false_iff]
      exact Ne.symm hne
  completed_le := h.completed_le
  floor_le := h.floor_le
  persisted := h.persisted
  completed_le_ram := h.completed_le_ram
  ram := h.ram
  reload := h.reload
  threads := by
    intro other
    by_cases hne : other = tid
    · subst hne
      simp only [Process.goto, Function.update_self]
      exact hpc.of_same rfl rfl rfl
    · simp only [Process.goto, Function.update_of_ne hne]
      exact (h.threads other).of_same rfl rfl rfl

/-! ### The steps that change the store or the fields -/

/-- A record reaches the store; the record of an upgrade, while nothing newer did. -/
theorem Inv.put {s : Process} (h : Inv crypto s) {tid : ℕ} {save : Save} {existing : Option Blob}
    {salt : String} {tree : Ptree} (hpc : s.threads tid = .saving save existing)
    (htree : saveRecord crypto (existingTree existing) save.username save.password salt =
      some tree)
    (horderly : ∀ version ∈ save.upgrades, s.floor ≤ version) :
    Inv crypto (s.put tid save tree) := by
  have hholds : (s.threads tid).holdsLock = true := by rw [hpc]; rfl
  have hthread := h.threads tid
  rw [hpc] at hthread
  have hrecord := fun c => saveRecord_accepts htree c
  cases hupgrades : save.upgrades with
  | some version =>
      have hzero : version = 0 := hthread version hupgrades
      subst hzero
      have hfloor : s.floor ≤ 0 := horderly 0 hupgrades
      simp only [Process.put, hupgrades]
      refine Core.goto ?_ ?_ hholds.symm ?_
      · refine ⟨h.lock, h.completed_le, h.floor_le, ?_, h.completed_le_ram, h.ram, h.reload⟩
        intro blob version hpersisted
        simp only [Option.some.injEq, Prod.mk.injEq] at hpersisted
        obtain ⟨rfl, rfl⟩ := hpersisted
        exact ⟨hfloor, Nat.zero_le _, fun _ _ _ _ => carries_zero _ _⟩
      · intro other hne
        exact (h.threads other).of_free (h.free_of_ne hholds hne) (Nat.le_refl _)
      · intro version hversion
        cases hversion
  | none =>
      simp only [Process.put, hupgrades]
      have hblob : BlobCarries crypto
          (s.history ++ [Entry.password save.username save.password]) s.next (.json tree) := by
        refine ⟨by simp [Process.next], ?_⟩
        intro tree' c htree' _
        simp only [Blob.json.injEq] at htree'
        subst htree'
        obtain ⟨-, haccepts, hlegacy⟩ := hrecord c
        refine ⟨by simp [Process.next], ?_, ?_⟩
        · intro _
          exact haccepts.imp_right fun haccepts =>
            ⟨save.username, save.password, entry_append_self _ _, haccepts⟩
        · intro havailable hlegacy'
          rw [hlegacy havailable] at hlegacy'
          cases hlegacy'
      have hfloor : s.floor ≤ s.next := le_trans h.floor_le (Nat.le_succ _)
      refine Core.goto ?_ ?_ hholds.symm ?_
      · refine ⟨h.lock, h.completed_le, ?_, ?_, h.completed_le_ram, h.ram.append _, h.reload⟩
        · have := h.floor_le
          simp
          omega
        · intro blob version hpersisted
          simp only [Option.some.injEq, Prod.mk.injEq] at hpersisted
          obtain ⟨rfl, rfl⟩ := hpersisted
          exact ⟨hfloor, hblob⟩
      · intro other hne
        exact (h.threads other).of_free (h.free_of_ne hholds hne) (Nat.le_refl _)
      · intro version hversion
        simp only [Option.mem_def, Option.some.injEq] at hversion
        subst hversion
        exact ⟨hfloor, _, rfl⟩

/-- The fields are assigned from a record that was not overtaken. -/
theorem Inv.assign {s : Process} (h : Inv crypto s) {tid version : ℕ} {completes : Option ℕ}
    {tree : Ptree} (hpc : s.threads tid = .loaded completes (.json tree) version)
    (htruncated : ¬ Truncated tree) :
    Inv crypto ((s.assign completes tree version).release tid) := by
  have hholds : (s.threads tid).holdsLock = true := by rw [hpc]; rfl
  have hthread := h.threads tid
  rw [hpc] at hthread
  obtain ⟨hfloor, hblob, hcompletes⟩ := hthread
  have hle : completes.getD 0 ≤ version := by
    cases completes with
    | none => exact Nat.zero_le _
    | some completed => exact Nat.le_of_eq (hcompletes completed rfl).1
  have hcompleted := h.completed_le
  unfold Process.assign
  cases hok : (assignRecord s.ram tree).2 with
  | false =>
      have hram := assignRecord_of_not_truncated hok htruncated
      have hassign : assignRecord s.ram tree = (s.ram, false) := Prod.ext hram hok
      rw [hassign]
      refine Core.release ?_ ?_ hholds
      · refine ⟨h.lock, h.completed_le, h.floor_le, h.persisted, h.completed_le_ram, h.ram, ?_⟩
        simp [h.reload]
      · intro other _
        exact (h.threads other).of_same rfl rfl rfl
  | true =>
      have hassign : assignRecord s.ram tree = ((assignRecord s.ram tree).1, true) :=
        Prod.ext rfl hok
      rw [hassign]
      refine Core.release ?_ ?_ hholds
      · refine ⟨h.lock, ?_, ?_, ?_, ?_, hblob.2 tree s.ram rfl hok, h.reload⟩
        · dsimp only
          omega
        · have hversion := hblob.1
          have hbound := h.floor_le
          dsimp only
          omega
        · intro blob stored hpersisted
          obtain ⟨hstored, hcarries⟩ := h.persisted blob stored hpersisted
          refine ⟨?_, hcarries⟩
          cases completes with
          | none =>
              dsimp only [Option.getD_none]
              omega
          | some completed =>
              obtain ⟨rfl, _, hsame⟩ := hcompletes completed rfl
              have hpersisted' : s.persisted = some (blob, stored) := hpersisted
              rw [hsame, Option.some.injEq, Prod.mk.injEq] at hpersisted'
              dsimp only [Option.getD_some]
              omega
        · dsimp only
          omega
      · intro other hne
        exact (h.threads other).of_free (h.free_of_ne hholds hne) (Nat.le_max_left _ _)

/-- The record is erased while no thread holds the mutex. -/
theorem Inv.erase {s : Process} (h : Inv crypto s) (hlock : s.lock = none) :
    Inv crypto s.erase where
  lock := h.lock
  completed_le := by
    have := h.completed_le
    have := h.floor_le
    simp only [Process.erase, Process.next]
    omega
  floor_le := by simp [Process.erase, Process.next]
  persisted := by
    intro blob version hpersisted
    cases hpersisted
  completed_le_ram := h.completed_le_ram
  ram := h.ram.append _
  reload := h.reload
  threads := by
    intro tid
    refine (h.threads tid).of_free (h.free_of_none hlock tid) ?_
    have := h.floor_le
    simp only [Process.erase, Process.next]
    omega

/-- The fields are cleared after an erasure. -/
theorem Inv.clear {s : Process} (h : Inv crypto s) {tid version : ℕ}
    (hpc : s.threads tid = .erased version) :
    Inv crypto ({ s with
      ram := s.ram.clear
      ramVersion := s.history.length
      completed := max s.completed version }.goto tid .idle) := by
  have hthread := h.threads tid
  rw [hpc] at hthread
  have hversion : version ≤ s.floor := hthread
  have hcompleted := h.completed_le
  have hfloor := h.floor_le
  refine Core.goto ?_ ?_ ?_ trivial
  · refine ⟨h.lock, ?_, h.floor_le, h.persisted, ?_, ?_, h.reload⟩
    · dsimp only
      omega
    · dsimp only
      omega
    · exact carries_of_accepts_nothing (Nat.le_refl _) (accepts_clear crypto s.ram)
  · intro other _
    exact (h.threads other).of_same rfl rfl rfl
  · simp [hpc, Pc.holdsLock]

theorem Inv.restart {s : Process} (h : Inv crypto s) :
    Inv crypto { s with
      ram := s.ram.clear
      ramVersion := s.history.length
      lock := none
      threads := fun _ => .idle } where
  lock := by
    intro tid
    simp [Pc.holdsLock]
  completed_le := h.completed_le
  floor_le := h.floor_le
  persisted := h.persisted
  completed_le_ram := le_trans h.completed_le h.floor_le
  ram := carries_of_accepts_nothing (Nat.le_refl _) (accepts_clear crypto s.ram)
  reload := h.reload
  threads := fun _ => trivial

/-! ### Every step -/

theorem Inv.others {s : Process} (h : Inv crypto s) (tid : ℕ) :
    ∀ other, other ≠ tid → ThreadOk crypto s (s.threads other) :=
  fun other _ => h.threads other

/-- The snapshot of a login that would be upgraded is as old as the process. -/
theorem Inv.snapshot {s : Process} (h : Inv crypto s) (username password : String) :
    ThreadOk crypto s (.verifying username password s.ram s.ramVersion) := by
  intro hupgrade
  simp only [Bool.and_eq_true] at hupgrade
  obtain ⟨⟨haccepts, hlegacy⟩, havailable⟩ := hupgrade
  by_contra hne
  rw [h.ram.not_legacy havailable hlegacy (by omega)] at haccepts
  cases haccepts

theorem step_inv {s s' : Process} {label : Label} (h : Inv crypto s) (horderly : Orderly s label)
    (hstep : step crypto s label = some s') : Inv crypto s' := by
  cases label with
  | snapshot tid username password =>
      simp only [step] at hstep
      split at hstep
      · case h_1 hpc =>
          simp only [Option.some.injEq] at hstep
          subst hstep
          exact h.toCore.goto (h.others tid) (by rw [hpc]; rfl) (h.snapshot username password)
      · cases hstep
  | verified tid =>
      simp only [step] at hstep
      split at hstep
      · case h_1 hpc =>
          split at hstep
          · cases hstep
          · simp only [Option.some.injEq] at hstep
            subst hstep
            exact h.toCore.goto (h.others tid) (by rw [hpc]; rfl) trivial
      · cases hstep
  | upgrade tid =>
      simp only [step] at hstep
      split at hstep
      · case h_1 username password snapshot version hpc =>
          obtain ⟨⟨hupgrade, hlock⟩, rfl⟩ := guarded_eq_some.mp hstep
          have hthread := h.threads tid
          rw [hpc] at hthread
          refine h.acquire hlock tid rfl ?_
          intro version' hversion
          simp only [Option.mem_def, Option.some.injEq] at hversion
          exact hversion ▸ hthread hupgrade
      · cases hstep
  | beginChange tid username password =>
      simp only [step] at hstep
      split at hstep
      · obtain ⟨hlock, rfl⟩ := guarded_eq_some.mp hstep
        exact h.acquire hlock tid rfl (by intro version hversion; cases hversion)
      · cases hstep
  | beginReload tid =>
      simp only [step] at hstep
      split at hstep
      · obtain ⟨hlock, rfl⟩ := guarded_eq_some.mp hstep
        exact h.acquire hlock tid rfl (by intro version hversion; cases hversion)
      · cases hstep
  | loadExisting tid ok =>
      simp only [step] at hstep
      split at hstep
      · case h_1 save hpc =>
          simp only [Option.some.injEq] at hstep
          subst hstep
          have hthread := h.threads tid
          rw [hpc] at hthread
          exact h.toCore.goto (h.others tid) (by rw [hpc]; rfl) hthread
      · cases hstep
  | store tid salt ok =>
      simp only [step] at hstep
      split at hstep
      · case h_1 save existing hpc =>
          have hholds : (s.threads tid).holdsLock = true := by rw [hpc]; rfl
          split at hstep
          · simp only [Option.some.injEq] at hstep
            subst hstep
            exact h.toCore.release (h.others tid) hholds
          · case h_2 tree htree =>
              split at hstep
              · case isTrue hok =>
                  simp only [Option.some.injEq] at hstep
                  subst hstep
                  simp only [Orderly, hpc, Pc.upgrading] at horderly
                  exact h.put hpc htree (horderly hok)
              · simp only [Option.some.injEq] at hstep
                subst hstep
                exact h.toCore.release (h.others tid) hholds
      · cases hstep
  | loadBlob tid ok =>
      simp only [step] at hstep
      split at hstep
      · case h_1 completes hpc =>
          have hholds : (s.threads tid).holdsLock = true := by rw [hpc]; rfl
          have hthread := h.threads tid
          rw [hpc] at hthread
          split at hstep
          · case h_1 blob version hpersisted =>
              split at hstep
              · simp only [Option.some.injEq] at hstep
                subst hstep
                obtain ⟨hfloor, hblob⟩ := h.persisted blob version hpersisted
                refine h.toCore.goto (h.others tid) hholds.symm ⟨hfloor, hblob, ?_⟩
                intro completed hcompleted
                obtain ⟨-, stored, hstored⟩ := hthread completed hcompleted
                rw [hpersisted, Option.some.injEq, Prod.mk.injEq] at hstored
                exact ⟨hstored.2.symm, blob, hpersisted⟩
              · simp only [Option.some.injEq] at hstep
                subst hstep
                exact h.toCore.release (h.others tid) hholds
          · simp only [Option.some.injEq] at hstep
            subst hstep
            exact h.toCore.release (h.others tid) hholds
      · cases hstep
  | assign tid =>
      simp only [step] at hstep
      split at hstep
      · case h_1 completes blob version hpc =>
          have hholds : (s.threads tid).holdsLock = true := by rw [hpc]; rfl
          cases blob with
          | garbage =>
              simp only [Option.some.injEq] at hstep
              subst hstep
              exact h.toCore.release (h.others tid) hholds
          | json tree =>
              simp only [Option.some.injEq] at hstep
              subst hstep
              simp only [Orderly, hpc, Pc.record] at horderly
              exact h.assign hpc (horderly tree rfl)
      · cases hstep
  | erase tid erasure =>
      simp only [step] at hstep
      split at hstep
      · case h_1 hpc =>
          cases erasure with
          | failed =>
              simp only [Option.some.injEq] at hstep
              exact hstep ▸ h
          | halfway =>
              simp only [Option.some.injEq] at hstep
              subst hstep
              exact h.erase (horderly (by decide))
          | done =>
              simp only [Option.some.injEq] at hstep
              subst hstep
              have herase := h.erase (horderly (by decide))
              refine herase.toCore.goto (herase.others tid) ?_ (Nat.le_refl _)
              simp [Process.erase, hpc, Pc.holdsLock]
      · cases hstep
  | clear tid =>
      simp only [step] at hstep
      split at hstep
      · case h_1 version hpc =>
          simp only [Option.some.injEq] at hstep
          subst hstep
          exact h.clear hpc
      · cases hstep
  | restart =>
      simp only [step, Option.some.injEq] at hstep
      subst hstep
      exact h.restart

end Invariant

/-- In an orderly run, from any record and any fields, no record accepts only what a completed
change or reset replaced, and a failed reload leaves the fields as they were. -/
theorem orderly_run_sound {persisted : Option Blob} {ram : Credentials} {labels : List Label}
    {s : Process} (hmeets : RunMeets (step crypto) Orderly (.init persisted ram) labels)
    (hrun : run (step crypto) (.init persisted ram) labels = some s) : Sound crypto s :=
  (run_invariant_of_meets (P := Inv crypto) (fun _ _ _ h horderly hstep =>
    step_inv h horderly hstep) (inv_init persisted ram) hmeets hrun).sound

/-! ## Runs -/

/-- Hashes that keep their input. -/
def plainCrypto : Crypto where
  sha256Hex text := "sha256:" ++ text
  argon2idAvailable := true
  argon2id password salt _ _ _ := "argon2id:" ++ password ++ salt
  argon2id_unavailable := by
    intro h
    cases h

/-- A record of an early release, for the password `old`. -/
def legacyRecord : Ptree :=
  .node "" [("username", .leaf "admin"), ("salt", .leaf "-"), ("password", .leaf "sha256:old-")]

/-- The fields it is loaded to. -/
def legacyFields : Credentials := ⟨"admin", "sha256:old-", "-", "sha256", 0, 0, 0⟩

/-- A change of thread `tid`, from the mutex to the fields. -/
def changeLabels (tid : ℕ) (password : String) : List Label :=
  [.beginChange tid "admin" password, .loadExisting tid true, .store tid "+" true,
    .loadBlob tid true, .assign tid]

/-- The upgrade of a login, from the mutex to the record it reloads. -/
def upgradeLabels (tid : ℕ) : List Label :=
  [.upgrade tid, .loadExisting tid true, .store tid "*" true, .loadBlob tid true]

/-- The fields accept a login, something is completed, and no login as new is accepted. -/
def outdated (s : Process) (username password : String) : Bool :=
  decide (0 < s.completed) && accepts crypto s.ram username password &&
    (s.history.drop (s.completed - 1)).all fun e =>
      match e with
      | .password username password => !accepts crypto s.ram username password
      | .reset => true

variable {crypto} in
theorem not_sound_of_outdated {s : Process} {username password : String}
    (h : outdated crypto s username password = true) : ¬ Sound crypto s := by
  simp only [outdated, Bool.and_eq_true, decide_eq_true_eq] at h
  obtain ⟨⟨hpos, haccepts⟩, hrejects⟩ := h
  intro hsound
  refine hsound.ram ⟨hpos, ⟨username, password, haccepts⟩, ?_⟩
  intro version user pass hle hentry
  rw [entry, if_neg (by omega)] at hentry
  -- A change that is at least as new is among those the check went through.
  have hmem : Entry.password user pass ∈ s.history.drop (s.completed - 1) := by
    refine List.mem_of_getElem? (i := version - s.completed) ?_
    rw [List.getElem?_drop, ← hentry]
    congr 1
    omega
  simpa using List.all_eq_true.mp hrejects _ hmem

/-- A login is upgraded, the password is changed, the host restarts and the credentials are
reset. -/
def quietLabels : List Label :=
  [Label.snapshot 1 "Admin" "old"] ++ upgradeLabels 1 ++ [Label.assign 1] ++
    changeLabels 0 "new" ++ [Label.restart, .beginReload 2, .loadBlob 2 true, .assign 2,
      .erase 3 .done, .clear 3]

theorem orderly_run_sound_quiet :
    ∃ s, run (step plainCrypto) (.init (some (.json legacyRecord)) legacyFields) quietLabels =
      some s ∧ s.completed = 2 ∧ Sound plainCrypto s := by
  have hmeets : RunMeets (step plainCrypto) Orderly
      (.init (some (.json legacyRecord)) legacyFields) quietLabels := by
    decide
  have hrun : (run (step plainCrypto) (.init (some (.json legacyRecord)) legacyFields)
      quietLabels).any (·.completed = 2) = true := by
    rfl
  obtain ⟨s, hs, hcompleted⟩ := (Option.any_eq_true _ _).mp hrun
  exact ⟨s, hs, by simpa using hcompleted, orderly_run_sound plainCrypto hmeets hs⟩

/-- A login that was checked before a change writes the old password back; one that reloads
while the credentials are reset brings it back to memory; and a record without a password
leaves the new user with the old one. -/
theorem logins_undo_changes :
    (∃ s, run (step plainCrypto) (.init (some (.json legacyRecord)) legacyFields)
        ([Label.snapshot 1 "admin" "old"] ++ changeLabels 0 "new" ++ upgradeLabels 1 ++ [Label.assign 1]) =
          some s ∧ ¬ Sound plainCrypto s) ∧
    (∃ s, run (step plainCrypto) (.init (some (.json legacyRecord)) legacyFields)
        ([Label.snapshot 1 "admin" "old"] ++ upgradeLabels 1 ++
          [Label.erase 0 .done, .clear 0, .assign 1]) = some s ∧ ¬ Sound plainCrypto s) ∧
    (∃ s, run (step plainCrypto)
        (.init (some (.json (.node "" [("username", .leaf "other")]))) legacyFields)
        [.beginReload 0, .loadBlob 0 true, .assign 0] = some s ∧ ¬ Sound plainCrypto s) := by
  refine ⟨?_, ?_, ?_⟩
  · have h : (run (step plainCrypto) (.init (some (.json legacyRecord)) legacyFields)
        ([Label.snapshot 1 "admin" "old"] ++ changeLabels 0 "new" ++ upgradeLabels 1 ++
          [Label.assign 1])).any (outdated plainCrypto · "admin" "old") = true := by
      rfl
    obtain ⟨s, hs, houtdated⟩ := (Option.any_eq_true _ _).mp h
    exact ⟨s, hs, not_sound_of_outdated houtdated⟩
  · have h : (run (step plainCrypto) (.init (some (.json legacyRecord)) legacyFields)
        ([Label.snapshot 1 "admin" "old"] ++ upgradeLabels 1 ++
          [Label.erase 0 .done, .clear 0, .assign 1])).any
          (outdated plainCrypto · "admin" "old") = true := by
      rfl
    obtain ⟨s, hs, houtdated⟩ := (Option.any_eq_true _ _).mp h
    exact ⟨s, hs, not_sound_of_outdated houtdated⟩
  · have h : (run (step plainCrypto)
        (.init (some (.json (.node "" [("username", .leaf "other")]))) legacyFields)
        [.beginReload 0, .loadBlob 0 true, .assign 0]).any (·.reloadSpoiled) = true := by
      rfl
    obtain ⟨s, hs, hspoiled⟩ := (Option.any_eq_true _ _).mp h
    refine ⟨s, hs, ?_⟩
    intro hsound
    rw [hsound.reload] at hspoiled
    cases hspoiled

end LuminalShine.UserCreds
