import LuminalShine.ClientStore.Store
import LuminalShine.Lib.Records
import LuminalShine.Lib.Run

/-!
# Concurrent updates of the client list

Every update changes `client_root` under `client_root_mutex`, releases it, and saves under
the state-file mutex; a save takes its own snapshot of the list, under both.  Unpairing
loads the list back after its save, in a critical section of its own.

Saves are ordered by the state-file mutex, so the last save of a run has the last snapshot.
A load replaces the list by the last snapshot written: an update that was made after that
snapshot, by another thread, is undone.  `Guarded` excludes that schedule, together with
the inputs the file cannot hold, and `no_lost_update` is what the others do.

## Main definitions

* `Update`, `Update.apply` — what the five operations do to the list.
* `System`, `Label`, `step` — threads, the lock, the store.
* `Guarded` — the condition on each step.
* `Inv` — how far the file may lag behind, and who will make up for it.
-/

namespace LuminalShine.ClientStore.Concurrent

open LuminalShine.Lib

/-! ## Updates -/

def isSpace (c : Char) : Bool := c = ' ' || ('\t' ≤ c && c ≤ '\r')

/-- `boost::algorithm::trim_copy`. -/
def trimCopy (value : String) : String :=
  String.ofList (((value.toList.dropWhile isSpace).reverse.dropWhile isSpace).reverse)

/-- The arguments of `update_device_info`. -/
structure DeviceInfo where
  name : String
  displayMode : String
  outputNameOverride : String
  alwaysUseVirtualDisplay : Bool
  virtualDisplayMode : String
  virtualDisplayLayout : String
  configOverrides : Option Overrides
  prefer10bitSdr : Option Bool
  hdrProfile : Option String
  deriving DecidableEq, Repr

def DeviceInfo.apply (info : DeviceInfo) (c : NamedCert) : NamedCert :=
  { c with
    name := trimCopy info.name
    displayMode := trimCopy info.displayMode
    alwaysUseVirtualDisplay := info.alwaysUseVirtualDisplay
    outputNameOverride :=
      if info.alwaysUseVirtualDisplay then "" else trimCopy info.outputNameOverride
    virtualDisplayModeOverride := trimCopy info.virtualDisplayMode
    virtualDisplayLayoutOverride := trimCopy info.virtualDisplayLayout
    prefer10bitSdr := info.prefer10bitSdr
    configOverrides := info.configOverrides.getD c.configOverrides
    hdrProfile := (info.hdrProfile.map trimCopy).getD c.hdrProfile }

/-- Change the first client with this identifier. -/
def updateFirst (uuid : String) (f : NamedCert → NamedCert) : List NamedCert → List NamedCert
  | [] => []
  | c :: cs => if c.uuid = uuid then f c :: cs else c :: updateFirst uuid f cs

inductive Update where
  | addAuthorizedClient (name cert uuid : String)
  | unpairClient (uuid : String)
  | updateDeviceInfo (uuid : String) (info : DeviceInfo)
  | setClientHdrProfile (uuid hdrProfile : String)
  | eraseAllClients
  deriving DecidableEq, Repr

namespace Update

/-- The part of an operation that runs under `client_root_mutex`. -/
def apply (clients : List NamedCert) : Update → List NamedCert
  | .addAuthorizedClient name cert uuid => clients ++ [{ name := name, uuid := uuid, cert := cert }]
  | .unpairClient uuid => clients.filter (·.uuid ≠ uuid)
  | .updateDeviceInfo uuid info =>
      if uuid = "" then clients else updateFirst uuid info.apply clients
  | .setClientHdrProfile uuid hdrProfile =>
      if uuid = "" then clients
      else updateFirst uuid (fun c => { c with hdrProfile := trimCopy hdrProfile }) clients
  | .eraseAllClients => []

/-- An operation that names a client returns at once if there is none. -/
def finds (clients : List NamedCert) : Update → Bool
  | .updateDeviceInfo uuid _ | .setClientHdrProfile uuid _ =>
      uuid ≠ "" && clients.any (·.uuid = uuid)
  | _ => true

/-- Whether a save follows.  With `FRESH_STATE` a pairing is not saved. -/
def saves (freshState : Bool) (clients : List NamedCert) (u : Update) : Bool :=
  match u with
  | .addAuthorizedClient .. => !freshState
  | u => u.finds clients

/-- Whether the list is loaded again after the save. -/
def reloads : Update → Bool
  | .unpairClient _ => true
  | _ => false

end Update

/-! ## The system -/

/-- Where a thread is.  `saving`, `writing` and `loading` hold the state-file mutex. -/
inductive Phase where
  | idle
  | toSave (reload : Bool)
  | saving (reload : Bool)
  | writing (reload : Bool) (snapshot : List NamedCert) (version : ℕ)
  | toLoad
  | loading
  deriving DecidableEq, Repr

/-- The store and its threads.  History: the updates made, how many of them found their
client, and how many of these were in the snapshot that the file has now. -/
structure System where
  store : State
  stateMutex : Option ℕ
  phase : ℕ → Phase
  committed : List Update
  version : ℕ
  fileVersion : ℕ

/-- The critical sections of an operation, in order. -/
inductive Label where
  | update (thread : ℕ) (u : Update)
  | lockSave (thread : ℕ)
  | snapshot (thread : ℕ)
  | write (thread : ℕ)
  | lockLoad (thread : ℕ)
  | load (thread : ℕ) (generated : Generated)

variable (conf : Config)

/-- The rest of `save_state` once the snapshot is taken. -/
def writeSnapshot (s : State) (snapshot : List NamedCert) : State :=
  { State.saveState conf { s with clients := snapshot } with clients := s.clients }

def step (s : System) : Label → Option System
  | .update thread u =>
      match s.phase thread with
      | .idle =>
          let saves := u.saves s.store.freshState s.store.clients
          some { s with
            store := { s.store with clients := u.apply s.store.clients }
            phase := Function.update s.phase thread (if saves then .toSave u.reloads else .idle)
            committed := s.committed ++ [u]
            version := if u.finds s.store.clients then s.version + 1 else s.version }
      | _ => none
  | .lockSave thread =>
      match s.phase thread, s.stateMutex with
      | .toSave reload, none =>
          some { s with
            stateMutex := some thread
            phase := Function.update s.phase thread (.saving reload) }
      | _, _ => none
  | .snapshot thread =>
      match s.phase thread with
      | .saving reload =>
          some { s with
            phase := Function.update s.phase thread (.writing reload s.store.clients s.version) }
      | _ => none
  | .write thread =>
      match s.phase thread with
      | .writing reload snapshot version =>
          some { s with
            store := writeSnapshot conf s.store snapshot
            stateMutex := none
            phase := Function.update s.phase thread (if reload then .toLoad else .idle)
            fileVersion := version }
      | _ => none
  | .lockLoad thread =>
      match s.phase thread, s.stateMutex with
      | .toLoad, none =>
          some { s with
            stateMutex := some thread
            phase := Function.update s.phase thread .loading }
      | _, _ => none
  | .load thread generated =>
      match s.phase thread with
      | .loading =>
          some { s with
            store := s.store.loadState conf generated
            stateMutex := none
            phase := Function.update s.phase thread .idle }
      | _ => none

def System.initial (store : State) : System where
  store := store
  stateMutex := none
  phase := fun _ => .idle
  committed := []
  version := 0
  fileVersion := 0

/-- **When no update is lost.**  No load runs after an update that the file does not have
yet; pairings are saved; override keys are single path fragments. -/
def Guarded (s : System) : Label → Prop
  | .update _ (.addAuthorizedClient ..) => s.store.freshState = false
  | .update _ (.updateDeviceInfo _ info) =>
      ∀ o ∈ info.configOverrides, ∀ entry ∈ o.entries, IsKey entry.1
  | .load .. => s.fileVersion = s.version
  | _ => True

instance (s : System) : ∀ label, Decidable (Guarded s label)
  | .update _ (.addAuthorizedClient ..) => inferInstanceAs (Decidable (_ = false))
  | .update _ (.updateDeviceInfo _ info) =>
      inferInstanceAs (Decidable (∀ o ∈ info.configOverrides, ∀ entry ∈ o.entries, IsKey entry.1))
  | .load .. => inferInstanceAs (Decidable (s.fileVersion = s.version))
  | .update _ (.unpairClient _) | .update _ (.setClientHdrProfile ..) | .update _ .eraseAllClients
  | .lockSave _ | .snapshot _ | .write _ | .lockLoad _ => isTrue trivial

/-! ## The file -/

/-- The file can be loaded and has no old devices. -/
structure Loadable (files : Files) : Prop where
  legacy : importDevices (files.node "devices") = some []
  uniqueId : (files.node "uniqueid").isSome

/-- It also lists these clients. -/
structure Holds (files : Files) (clients : List NamedCert) : Prop extends Loadable files where
  named : readNamedDevices (files.node "named_devices") = some clients

theorem writeSnapshot_holds {s : State} {snapshot : List NamedCert}
    (hfile : Loadable (s.fs .sunshine)) (hstorable : ∀ c ∈ snapshot, Storable c) :
    Holds ((writeSnapshot conf s snapshot).fs .sunshine) snapshot := by
  obtain ⟨-, hdevices, hnamed, huniqueId⟩ := State.saveState_files conf { s with clients := snapshot }
  refine ⟨⟨?_, huniqueId⟩, ?_⟩
  · exact (congrArg importDevices hdevices).trans hfile.legacy
  · exact (congrArg readNamedDevices hnamed).trans (readNamedDevices_namedDevicesNode hstorable)

theorem Holds.loadState_clients {s : State} {clients : List NamedCert}
    (h : Holds (s.fs .sunshine) clients) (generated : Generated) :
    (s.loadState conf generated).clients = clients := by
  rw [State.loadState_clients, if_pos h.uniqueId, readClients_of_nodes h.legacy h.named,
    Option.getD_some]

theorem Holds.congr {files files' : Files} {clients : List NamedCert} (h : Holds files clients)
    (hsame : SameClients files files') : Holds files' clients := by
  refine ⟨⟨?_, ?_⟩, ?_⟩
  · rw [hsame.node "devices" (by decide)]
    exact h.legacy
  · rw [hsame.node "uniqueid" (by decide)]
    exact h.uniqueId
  · rw [hsame.node "named_devices" (by decide)]
    exact h.named

/-! ## Updates and storable lists -/

theorem updateFirst_of_any_eq_false {uuid : String} (f : NamedCert → NamedCert)
    {clients : List NamedCert} (h : clients.any (·.uuid = uuid) = false) :
    updateFirst uuid f clients = clients := by
  induction clients with
  | nil => rfl
  | cons c cs ih =>
      simp only [List.any_cons, Bool.or_eq_false_iff, decide_eq_false_iff_not] at h
      rw [updateFirst, if_neg h.1, ih h.2]

/-- An operation that finds nothing changes nothing. -/
theorem Update.apply_of_finds_eq_false {u : Update} {clients : List NamedCert}
    (h : u.finds clients = false) : u.apply clients = clients := by
  cases u with
  | updateDeviceInfo uuid info =>
      by_cases huuid : uuid = ""
      · simp [apply, huuid]
      · simp only [apply, huuid, if_false]
        exact updateFirst_of_any_eq_false _ (by simpa [finds, huuid] using h)
  | setClientHdrProfile uuid hdrProfile =>
      by_cases huuid : uuid = ""
      · simp [apply, huuid]
      · simp only [apply, huuid, if_false]
        exact updateFirst_of_any_eq_false _ (by simpa [finds, huuid] using h)
  | addAuthorizedClient | unpairClient | eraseAllClients => cases h

theorem storable_updateFirst {uuid : String} {f : NamedCert → NamedCert}
    {clients : List NamedCert} (hf : ∀ c, Storable c → Storable (f c))
    (h : ∀ c ∈ clients, Storable c) : ∀ c ∈ updateFirst uuid f clients, Storable c := by
  induction clients with
  | nil => simp [updateFirst]
  | cons c cs ih =>
      obtain ⟨hc, hcs⟩ := List.forall_mem_cons.mp h
      rw [updateFirst]
      split
      · exact List.forall_mem_cons.mpr ⟨hf c hc, hcs⟩
      · exact List.forall_mem_cons.mpr ⟨hc, ih hcs⟩

variable {initial : List NamedCert} {s s' : System}

/-- A guarded update keeps the list storable. -/
theorem storable_apply {thread : ℕ} {u : Update} (hguard : Guarded s (.update thread u))
    {clients : List NamedCert} (h : ∀ c ∈ clients, Storable c) :
    ∀ c ∈ u.apply clients, Storable c := by
  cases u with
  | addAuthorizedClient name cert uuid =>
      intro c hc
      rcases List.mem_append.mp hc with hc | hc
      · exact h c hc
      · obtain rfl := List.mem_singleton.mp hc
        intro entry hentry
        cases hentry
  | unpairClient uuid => exact fun c hc => h c (List.mem_of_mem_filter hc)
  | updateDeviceInfo uuid info =>
      have hinfo : ∀ c, Storable c → Storable (info.apply c) := by
        intro c hc entry hentry
        cases ho : info.configOverrides with
        | none => exact hc entry (by simpa [DeviceInfo.apply, ho] using hentry)
        | some o => exact hguard o ho entry (by simpa [DeviceInfo.apply, ho] using hentry)
      simp only [Update.apply]
      split
      · exact h
      · exact storable_updateFirst hinfo h
  | setClientHdrProfile uuid hdrProfile =>
      simp only [Update.apply]
      split
      · exact h
      · exact storable_updateFirst (fun c hc => hc) h
  | eraseAllClients => simp [Update.apply]

/-! ## The invariant -/

/-- The thread holds the state-file mutex. -/
def Phase.Locks : Phase → Prop
  | .saving _ | .writing .. | .loading => True
  | _ => False

/-- The thread is going to write a snapshot with all updates made so far. -/
def Phase.Pending (version : ℕ) : Phase → Prop
  | .toSave _ | .saving _ => True
  | .writing _ _ v => v = version
  | _ => False

/-- Memory is the serial result; the file has some earlier list, and as long as it is not
the current one a save is under way that will write it. -/
structure Inv (initial : List NamedCert) (s : System) : Prop where
  clients : s.store.clients = s.committed.foldl Update.apply initial
  storable : ∀ c ∈ s.store.clients, Storable c
  mutex : ∀ t, (s.phase t).Locks → s.stateMutex = some t
  loadable : Loadable (s.store.fs .sunshine)
  behind : s.fileVersion ≤ s.version
  current : s.fileVersion = s.version → Holds (s.store.fs .sunshine) s.store.clients
  writing : ∀ t reload snapshot v, s.phase t = .writing reload snapshot v →
    s.fileVersion ≤ v ∧ v ≤ s.version ∧ (v = s.version → snapshot = s.store.clients) ∧
      ∀ c ∈ snapshot, Storable c
  pending : s.fileVersion = s.version ∨ ∃ t, (s.phase t).Pending s.version

/-- A thread that moves to a phase without the mutex starts no write. -/
theorem phase_eq_of_writing {phase : ℕ → Phase} {thread t : ℕ} {p : Phase} (hp : ¬ p.Locks)
    {reload : Bool} {snapshot : List NamedCert} {v : ℕ}
    (h : Function.update phase thread p t = .writing reload snapshot v) :
    phase t = .writing reload snapshot v := by
  by_cases ht : t = thread
  · subst ht
    rw [Function.update_self] at h
    exact absurd (h ▸ trivial) hp
  · rwa [Function.update_of_ne ht] at h

namespace Inv

/-- A thread that only moves on keeps the invariant, if it does not forget a save. -/
theorem setPhase (hI : Inv initial s) {thread : ℕ} {p : Phase} {mutex : Option ℕ}
    (hmutex : ∀ t, (Function.update s.phase thread p t).Locks → mutex = some t)
    (hwriting : ∀ reload snapshot v, p = .writing reload snapshot v →
      v = s.version ∧ snapshot = s.store.clients)
    (hpending : (s.phase thread).Pending s.version → p.Pending s.version) :
    Inv initial { s with stateMutex := mutex, phase := Function.update s.phase thread p } := by
  refine ⟨hI.clients, hI.storable, hmutex, hI.loadable, hI.behind, hI.current, ?_, ?_⟩
  · intro t reload snapshot v hphase
    by_cases ht : t = thread
    · subst ht
      obtain ⟨rfl, rfl⟩ := hwriting reload snapshot v (by simpa using hphase)
      exact ⟨hI.behind, le_rfl, fun _ => rfl, hI.storable⟩
    · exact hI.writing t reload snapshot v (by simpa [Function.update_of_ne ht] using hphase)
  · rcases hI.pending with hcurrent | ⟨t, ht⟩
    · exact .inl hcurrent
    · refine .inr ⟨t, ?_⟩
      by_cases htt : t = thread
      · subst htt
        simpa using hpending ht
      · simpa [Function.update_of_ne htt] using ht

/-- The mutex after a thread that took it, in the free state, moves on. -/
theorem mutex_of_free (hI : Inv initial s) (hfree : s.stateMutex = none) (thread : ℕ) (p : Phase) :
    ∀ t, (Function.update s.phase thread p t).Locks → some thread = some t := by
  intro t hlocks
  by_cases ht : t = thread
  · rw [ht]
  · rw [Function.update_of_ne ht] at hlocks
    have hmutex := hI.mutex t hlocks
    rw [hfree] at hmutex
    cases hmutex

/-- The mutex after a thread moves that does not have it afterwards. -/
theorem mutex_of_notLocks (hI : Inv initial s) (thread : ℕ) {p : Phase} (hp : ¬ p.Locks) :
    ∀ t, (Function.update s.phase thread p t).Locks → s.stateMutex = some t := by
  intro t hlocks
  by_cases ht : t = thread
  · subst ht
    exact absurd (by simpa using hlocks) hp
  · exact hI.mutex t (by simpa [Function.update_of_ne ht] using hlocks)

/-- No thread holds the mutex once its owner has released it. -/
theorem mutex_of_release (hI : Inv initial s) {thread : ℕ} (hlocks : (s.phase thread).Locks)
    {p : Phase} (hp : ¬ p.Locks) :
    ∀ t, (Function.update s.phase thread p t).Locks → (none : Option ℕ) = some t := by
  intro t ht
  by_cases htt : t = thread
  · subst htt
    exact absurd (by simpa using ht) hp
  · rw [Function.update_of_ne htt] at ht
    have h₁ := hI.mutex t ht
    have h₂ := hI.mutex thread hlocks
    exact absurd (Option.some.inj (h₁.symm.trans h₂)) htt

/-- While a thread has the mutex, a write under way would be its own. -/
theorem not_writing_of_release (hI : Inv initial s) {thread : ℕ} (hlocks : (s.phase thread).Locks)
    {p : Phase} (hp : ¬ p.Locks) {t : ℕ} {reload : Bool} {snapshot : List NamedCert} {v : ℕ} :
    Function.update s.phase thread p t ≠ .writing reload snapshot v := by
  intro hphase
  have hnone := hI.mutex_of_release hlocks hp t (by rw [hphase]; trivial)
  cases hnone

/-- An update that finds its client puts the file behind, and a save follows. -/
theorem found (hI : Inv initial s) {thread : ℕ} {u : Update} (hguard : Guarded s (.update thread u)) :
    Inv initial { s with
      store := { s.store with clients := u.apply s.store.clients }
      phase := Function.update s.phase thread (.toSave u.reloads)
      committed := s.committed ++ [u]
      version := s.version + 1 } := by
  have hbehind := hI.behind
  refine ⟨?_, storable_apply hguard hI.storable, hI.mutex_of_notLocks thread id, hI.loadable,
    Nat.le_succ_of_le hbehind, fun heq => ?_, fun t reload snapshot v hphase => ?_,
    .inr ⟨thread, ?_⟩⟩
  · rw [List.foldl_append, ← hI.clients, List.foldl_cons, List.foldl_nil]
  · -- every version seen so far is older than the new one
    simp only at heq
    omega
  · obtain ⟨hnewer, holder, -, hstorable⟩ :=
      hI.writing t reload snapshot v (phase_eq_of_writing id hphase)
    refine ⟨hnewer, Nat.le_succ_of_le holder, fun heq => ?_, hstorable⟩
    simp only at heq
    omega
  · simp [Phase.Pending]

/-- An update that finds nothing returns at once. -/
theorem notFound (hI : Inv initial s) {thread : ℕ} {u : Update} {p : Phase}
    (hidle : s.phase thread = .idle) (hp : ¬ p.Locks)
    (hfinds : u.finds s.store.clients = false) :
    Inv initial { s with
      store := { s.store with clients := u.apply s.store.clients }
      phase := Function.update s.phase thread p
      committed := s.committed ++ [u] } := by
  have hsame := Update.apply_of_finds_eq_false hfinds
  have hclients : s.store.clients = (s.committed ++ [u]).foldl Update.apply initial := by
    rw [List.foldl_append, ← hI.clients, List.foldl_cons, List.foldl_nil, hsame]
  simp only [hsame]
  refine ⟨hclients, hI.storable, hI.mutex_of_notLocks thread hp, hI.loadable, hI.behind, hI.current,
    fun t reload snapshot v hphase => ?_, hI.pending.imp_right (exists_update_of_not ?_)⟩
  · exact hI.writing t reload snapshot v (phase_eq_of_writing hp hphase)
  · rw [hidle]
    exact id

theorem update (hI : Inv initial s) {thread : ℕ} {u : Update}
    (hguard : Guarded s (.update thread u)) (hstep : step conf s (.update thread u) = some s') :
    Inv initial s' := by
  simp only [step] at hstep
  split at hstep
  · rename_i hidle
    obtain rfl := Option.some.inj hstep
    cases hfinds : u.finds s.store.clients with
    | true =>
        have hsaves : u.saves s.store.freshState s.store.clients = true := by
          cases u with
          | addAuthorizedClient name cert uuid =>
              have hfresh : s.store.freshState = false := hguard
              simp [Update.saves, hfresh]
          | unpairClient | updateDeviceInfo | setClientHdrProfile | eraseAllClients => exact hfinds
        simp only [hsaves, if_true]
        exact hI.found hguard
    | false =>
        simp only [Bool.false_eq_true, if_false]
        refine hI.notFound hidle ?_ hfinds
        split <;> exact id
  · cases hstep

theorem lockSave (hI : Inv initial s) {thread : ℕ}
    (hstep : step conf s (.lockSave thread) = some s') : Inv initial s' := by
  simp only [step] at hstep
  split at hstep
  · rename_i reload hphase hfree
    obtain rfl := Option.some.inj hstep
    exact hI.setPhase (hI.mutex_of_free hfree thread _) (by simp) fun _ => trivial
  · cases hstep

theorem snapshot (hI : Inv initial s) {thread : ℕ}
    (hstep : step conf s (.snapshot thread) = some s') : Inv initial s' := by
  simp only [step] at hstep
  split at hstep
  · rename_i reload hphase
    obtain rfl := Option.some.inj hstep
    have hlocks : (s.phase thread).Locks := by
      rw [hphase]
      trivial
    refine hI.setPhase ?_ ?_ fun _ => rfl
    · intro t ht
      by_cases htt : t = thread
      · subst htt
        exact hI.mutex t hlocks
      · exact hI.mutex t (by simpa [Function.update_of_ne htt] using ht)
    · intro reload' snapshot' v heq
      cases heq
      exact ⟨rfl, rfl⟩
  · cases hstep

/-- A write brings the file to the version of its snapshot; if that is not the current one,
another thread has a save to come. -/
theorem write (hI : Inv initial s) {thread : ℕ}
    (hstep : step conf s (.write thread) = some s') : Inv initial s' := by
  simp only [step] at hstep
  split at hstep
  · rename_i reload snapshot version hphase
    obtain rfl := Option.some.inj hstep
    obtain ⟨hnewer, hbehind, hcurrent, hstorable⟩ := hI.writing thread reload snapshot version hphase
    have hlocks : (s.phase thread).Locks := by
      rw [hphase]
      trivial
    have hnotLocks : ¬ (if reload then Phase.toLoad else .idle).Locks := by
      cases reload <;> exact id
    have hholds := writeSnapshot_holds conf hI.loadable hstorable
    refine ⟨hI.clients, hI.storable, hI.mutex_of_release hlocks hnotLocks, hholds.toLoadable,
      hbehind, ?_, ?_, ?_⟩
    · intro heq
      have hsnapshot : snapshot = s.store.clients := hcurrent heq
      exact hsnapshot ▸ hholds
    · intro t reload' snapshot' v hphase'
      exact absurd hphase' (hI.not_writing_of_release hlocks hnotLocks)
    · by_cases hv : version = s.version
      · exact .inl hv
      · rcases hI.pending with hequal | hpending
        · omega
        · refine .inr (exists_update_of_not ?_ hpending)
          rw [hphase]
          exact hv
  · cases hstep

theorem lockLoad (hI : Inv initial s) {thread : ℕ}
    (hstep : step conf s (.lockLoad thread) = some s') : Inv initial s' := by
  simp only [step] at hstep
  split at hstep
  · rename_i hphase hfree
    obtain rfl := Option.some.inj hstep
    refine hI.setPhase (hI.mutex_of_free hfree thread _) (by simp) ?_
    rw [hphase]
    exact id
  · cases hstep

/-- A load of the current version replaces the list by itself. -/
theorem load (hI : Inv initial s) {thread : ℕ} {generated : Generated}
    (hguard : Guarded s (.load thread generated))
    (hstep : step conf s (.load thread generated) = some s') : Inv initial s' := by
  simp only [step] at hstep
  split at hstep
  · rename_i hphase
    obtain rfl := Option.some.inj hstep
    have hholds := hI.current hguard
    have hclients := hholds.loadState_clients conf generated
    have hholds' := hholds.congr (State.loadState_sameClients conf generated s.store)
    have hlocks : (s.phase thread).Locks := by
      rw [hphase]
      trivial
    refine ⟨?_, ?_, hI.mutex_of_release hlocks id, hholds'.toLoadable, hI.behind, ?_, ?_,
      .inl hguard⟩
    · exact hclients.trans hI.clients
    · simp only [hclients]
      exact hI.storable
    · intro _
      simp only [hclients]
      exact hholds'
    · intro t reload snapshot v hphase'
      exact absurd hphase' (hI.not_writing_of_release hlocks id)
  · cases hstep

end Inv

/-- **Every guarded step keeps the invariant.** -/
theorem step_inv {label : Label} (hI : Inv initial s) (hguard : Guarded s label)
    (hstep : step conf s label = some s') : Inv initial s' := by
  cases label with
  | update thread u => exact hI.update conf hguard hstep
  | lockSave thread => exact hI.lockSave conf hstep
  | snapshot thread => exact hI.snapshot conf hstep
  | write thread => exact hI.write conf hstep
  | lockLoad thread => exact hI.lockLoad conf hstep
  | load thread generated => exact hI.load conf hguard hstep

/-! ## Every run -/

theorem inv_initial {store : State} (hholds : Holds (store.fs .sunshine) store.clients)
    (hstorable : ∀ c ∈ store.clients, Storable c) :
    Inv store.clients (System.initial store) where
  clients := rfl
  storable := hstorable
  mutex := fun _ hlocks => hlocks.elim
  loadable := hholds.toLoadable
  behind := le_rfl
  current := fun _ => hholds
  writing := fun _ _ _ _ hphase => by cases hphase
  pending := .inl rfl

end LuminalShine.ClientStore.Concurrent
