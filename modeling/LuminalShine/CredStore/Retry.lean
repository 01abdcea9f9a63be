import LuminalShine.CredStore.SelfHeal
import LuminalShine.UserCreds.Password

/-!
# Locked credentials

`http::init` and `creds_reload_retry_once` of `src/httpcommon.cpp`, `probe` of
`src/cred_store/cred_store_windows.cpp` and `available` of `src/cred_store/tpm_seal_windows.cpp`.

At start the record may be there and not open, since the provider is not up yet.  Then the
credentials are locked, and the record is tried again every ten seconds.

`unseal` asks `available` before it opens the provider, and `available` asks the provider once
in the life of the process.  Where that one answer was a failure, no later attempt gets as far
as the provider.

## Main definitions

* `Process`, `askAvailable` — the process and the answer it remembers.
* `probe`, `reloadUserCreds`, `attempt`, `init` — the source's functions.
* `Recovered` — what an attempt owes.

## Main results

* `attempt_recovers_iff` — the attempts without a failure that do.
-/

namespace LuminalShine.CredStore.Retry

open LuminalShine.Lib LuminalShine.UserCreds

variable {P : Platform}

/-! ## The process -/

/-- `available` is `probe_result()` once `probe_done()` is set; `retry` is the number of attempts
left of the one that is scheduled. -/
structure Process (P : Platform) where
  host : Host P
  available : Option Bool
  locked : Bool
  ram : Credentials
  retry : Option ℕ

/-- `available()`: only the first call asks the provider. -/
def askAvailable (opens : Bool) (s : Process P) : Bool × Process P :=
  match s.available with
  | some answer => (answer, s)
  | none => (opens, { s with available := some opens })

inductive ProbeResult where
  | absent
  | presentLoadable
  | presentUnloadable
  deriving DecidableEq, Repr

/-- The calls of one `probe`; of those of `load` it makes the import and the read. -/
structure ProbeCalls (P : Platform) where
  load : LoadCalls P
  opens : Bool
  unsealing : UnsealCalls

/-- `probe` -/
def probe (key : KeyPath) (calls : ProbeCalls P) (s : Process P) : ProbeResult × Process P :=
  let s := { s with host := importFileOnce key calls.load s.host }
  match credRead s.host.record calls.load.read with
  | .notFound => (.absent, s)
  | .failed => (.presentUnloadable, s)
  | .success raw =>
      if raw.isEmpty then (.presentUnloadable, s)
      else if looksSealed raw then
        let (available, s) := askAvailable calls.opens s
        match unsealRecord s.host.persisted available calls.unsealing raw with
        | some text => (if text.isEmpty then .presentUnloadable else .presentLoadable, s)
        | none => (.presentUnloadable, s)
      else (.presentLoadable, s)

/-- A load comes to a sealed record, and asks `available`. -/
def asksAvailable (key : KeyPath) (calls : LoadCalls P) (host : Host P) : Bool :=
  match credRead (importFileOnce key calls host).record calls.read with
  | .success raw => looksSealed raw
  | _ => false

/-- What `available()` answers a load, and the process after that. -/
def askForLoad (key : KeyPath) (calls : LoadCalls P) (s : Process P) : LoadCalls P × Process P :=
  let (answer, asked) := askAvailable calls.available s
  ({ calls with available := answer }, if asksAvailable key calls s.host then asked else s)

variable (readJson : Bytes → Option Ptree)

/-- `reload_user_creds`; `calls.available` is what the provider would say. -/
def reloadUserCreds (key : KeyPath) (calls : LoadCalls P) (s : Process P) : Bool × Process P :=
  let (calls, s) := askForLoad key calls s
  let (blob, host) := load key calls s.host
  let s := { s with host }
  match blob with
  | none => (false, s)
  | some blob =>
      if blob.isEmpty then (false, s)
      else match readJson blob with
        | none => (false, s)
        | some tree =>
            let (ram, done) := assignRecord s.ram tree
            (done, { s with ram })

/-- `user_creds_exist` -/
def checkUserCreds (key : KeyPath) (calls : CheckCalls P) (s : Process P) : Bool × Process P :=
  let (loadCalls, s) := askForLoad key calls.load s
  let (exist, host) := userCredsExist readJson key { calls with load := loadCalls } s.host
  (exist, { s with host })

/-- The calls of one attempt. -/
structure AttemptCalls (P : Platform) where
  probe : ProbeCalls P
  reload : LoadCalls P
  check : CheckCalls P

/-- `creds_reload_retry_once` -/
def attempt (key : KeyPath) (calls : AttemptCalls P) (attemptsLeft : ℕ) (s : Process P) :
    Process P :=
  match probe key calls.probe s with
  | (.absent, s) => { s with locked := false }
  | (.presentLoadable, s) =>
      match reloadUserCreds readJson key calls.reload s with
      | (true, s) => { s with locked := false }
      | (false, s) => { (checkUserCreds readJson key calls.check s).2 with locked := false }
  | (.presentUnloadable, s) =>
      { s with retry := if 1 < attemptsLeft then some (attemptsLeft - 1) else none }

/-- The part of `http::init` about the credentials. -/
def init (key : KeyPath) (calls : AttemptCalls P) (s : Process P) : Process P :=
  match probe key calls.probe s with
  | (.absent, s) => s
  | (.presentUnloadable, s) => { s with locked := true, retry := some 30 }
  | (.presentLoadable, s) =>
      match checkUserCreds readJson key calls.check s with
      | (false, s) => s
      | (true, s) => (reloadUserCreds readJson key calls.reload s).2

/-! ## Histories -/

/-- What may come before an attempt.  `ask` is any other caller of `available()`, and `change`
whatever else writes the record, the key or the files. -/
inductive Event (P : Platform) where
  | init (calls : AttemptCalls P)
  | attempt (calls : AttemptCalls P) (attemptsLeft : ℕ)
  | ask (opens : Bool)
  | change (host : Host P)

def step (key : KeyPath) (s : Process P) : Event P → Option (Process P)
  | .init calls => some (init readJson key calls s)
  | .attempt calls attemptsLeft => some (attempt readJson key calls attemptsLeft s)
  | .ask opens => some (askAvailable opens s).2
  | .change host => some { s with host }

/-- A process that has just started. -/
def fresh (host : Host P) : Process P where
  host := host
  available := none
  locked := false
  ram := ⟨"", "", "", "", 0, 0, 0⟩
  retry := none

/-- No call of the attempt fails: the record is read, the provider opens, the record unseals. -/
def AttemptCalls.ok (calls : AttemptCalls P) : Bool :=
  calls.probe.load.importRead && calls.probe.load.read && calls.probe.opens &&
    calls.probe.unsealing.ok && calls.reload.importRead && calls.reload.read &&
    calls.reload.available && calls.reload.first.ok

/-- The text is the record of a user with this password. -/
def RecordOf (crypto : Crypto) (text : Bytes) (username password : String) : Prop :=
  text ≠ [] ∧ ∃ tree c, readJson text = some tree ∧ (assignRecord c tree).2 = true ∧
    accepts crypto (assignRecord c tree).1 username password = true

/-- The credentials are not locked, and the fields in memory accept the login. -/
def Recovered (crypto : Crypto) (username password : String) (s : Process P) : Prop :=
  s.locked = false ∧ accepts crypto s.ram username password = true

/-- The first `available()` of the process, if this event makes it, finds the provider. -/
def FirstAskOpens (key : KeyPath) (s : Process P) (event : Event P) : Prop :=
  s.available = none →
    ∀ s', step readJson key s event = some s' → s'.available ≠ some false

/-! ## The remembered answer -/

section Remembered

variable (key : KeyPath) {s : Process P}

theorem askAvailable_of_some {answer : Bool} (h : s.available = some answer) (opens : Bool) :
    askAvailable opens s = (answer, s) := by
  simp [askAvailable, h]

theorem askAvailable_available {answer : Bool} (h : s.available = some answer) (opens : Bool) :
    (askAvailable opens s).2.available = some answer := by
  rw [askAvailable_of_some h]
  exact h

theorem probe_available {answer : Bool} (h : s.available = some answer)
    (calls : ProbeCalls P) : (probe key calls s).2.available = some answer := by
  simp only [probe]
  split
  · exact h
  · exact h
  · split
    · exact h
    · split
      · let imported : Process P := { s with host := importFileOnce key calls.load s.host }
        have himported : imported.available = some answer := h
        have hasked := askAvailable_available himported calls.opens
        split <;> exact hasked
      · exact h

theorem askForLoad_available {answer : Bool} (h : s.available = some answer)
    (calls : LoadCalls P) : (askForLoad key calls s).2.available = some answer := by
  simp only [askForLoad, askAvailable_of_some h]
  split <;> exact h

theorem reloadUserCreds_available {answer : Bool} (h : s.available = some answer)
    (calls : LoadCalls P) :
    (reloadUserCreds readJson key calls s).2.available = some answer := by
  have hask := askForLoad_available key h calls
  simp only [reloadUserCreds]
  split
  · exact hask
  · split
    · exact hask
    · split <;> exact hask

theorem checkUserCreds_available {answer : Bool} (h : s.available = some answer)
    (calls : CheckCalls P) : (checkUserCreds readJson key calls s).2.available = some answer :=
  askForLoad_available key h calls.load

theorem attempt_available {answer : Bool} (h : s.available = some answer)
    (calls : AttemptCalls P) (attemptsLeft : ℕ) :
    (attempt readJson key calls attemptsLeft s).available = some answer := by
  have hprobe := probe_available key h calls.probe
  simp only [attempt]
  split
  · case h_1 heq => simpa [heq] using hprobe
  · case h_2 after heq =>
      rw [heq] at hprobe
      have hreload := reloadUserCreds_available readJson key hprobe
        calls.reload
      split
      · case h_1 heq => simpa [heq] using hreload
      · case h_2 heq =>
          rw [heq] at hreload
          exact checkUserCreds_available readJson key hreload calls.check
  · case h_3 heq => simpa [heq] using hprobe

theorem init_available {answer : Bool} (h : s.available = some answer)
    (calls : AttemptCalls P) : (init readJson key calls s).available = some answer := by
  have hprobe := probe_available key h calls.probe
  simp only [init]
  split
  · case h_1 heq => simpa [heq] using hprobe
  · case h_2 heq => simpa [heq] using hprobe
  · case h_3 after heq =>
      rw [heq] at hprobe
      have hcheck := checkUserCreds_available readJson key hprobe
        calls.check
      split
      · case h_1 heq => simpa [heq] using hcheck
      · case h_2 heq =>
          rw [heq] at hcheck
          exact reloadUserCreds_available readJson key hcheck calls.reload

/-- The answer stays for the life of the process. -/
theorem step_available {answer : Bool} {s' : Process P} {event : Event P}
    (h : s.available = some answer) (hs : step readJson key s event = some s') :
    s'.available = some answer := by
  cases event with
  | init calls =>
      cases hs
      exact init_available readJson key h calls
  | attempt calls attemptsLeft =>
      cases hs
      exact attempt_available readJson key h calls attemptsLeft
  | ask opens =>
      cases hs
      exact askAvailable_available h opens
  | change host =>
      cases hs
      exact h

end Remembered

/-! ## One attempt -/

variable {readJson} (key : KeyPath) {s : Process P} {blob text : Bytes} {k : P.Key}

/-- A read that finds the record is no import. -/
theorem record_importFileOnce {calls : LoadCalls P} {host : Host P}
    (hread : calls.importRead = true) (hrecord : host.record = some blob) :
    (importFileOnce key calls host).record = some blob := by
  rcases importFileOnce_record key calls hrecord with ⟨-, h⟩ | ⟨h, -⟩
  · exact h
  · simp [overwrites, hread] at h

theorem not_isEmpty_of_openWith (hopen : openWith k blob = some text) :
    blob.isEmpty = false := by
  have hsealed := looksSealed_of_sealedUnder ⟨text, hopen⟩
  cases blob with
  | nil => simp [looksSealed, magic] at hsealed
  | cons b blob => rfl

/-- The probe of a record that opens: the answer of `available` decides. -/
theorem probe_of_ok {calls : ProbeCalls P} (hkey : s.host.persisted = some k)
    (hrecord : s.host.record = some blob) (hopen : openWith k blob = some text)
    (htext : text ≠ []) (himport : calls.load.importRead = true) (hread : calls.load.read = true)
    (hopens : calls.opens = true) (hunsealing : calls.unsealing.ok = true) :
    probe key calls s =
      (if s.available = some false then .presentUnloadable else .presentLoadable,
        (askAvailable true { s with host := importFileOnce key calls.load s.host }).2) := by
  have hfound := record_importFileOnce key himport hrecord
  have hpersisted := importFileOnce_persisted key calls.load s.host
  have hsealed := looksSealed_of_sealedUnder ⟨text, hopen⟩
  have hempty := not_isEmpty_of_openWith hopen
  have hunseal : ∀ available, unsealRecord (some k) available calls.unsealing blob =
      if available then some text else none := by
    intro available
    simp [unsealRecord_eq, hunsealing, hopen]
  cases h : s.available with
  | none =>
      simp [probe, credRead, hfound, hread, hempty, hsealed, hpersisted, hkey, hopens, hunseal,
        askAvailable, h, htext]
  | some answer =>
      cases answer <;>
        simp [probe, credRead, hfound, hread, hempty, hsealed, hpersisted, hkey, hunseal,
          askAvailable, h, htext]

/-- The load of a record that opens. -/
theorem load_of_ok {calls : LoadCalls P} {host : Host P} (hkey : host.persisted = some k)
    (hrecord : host.record = some blob) (hopen : openWith k blob = some text)
    (hne : text ≠ []) (himport : calls.importRead = true) (hread : calls.read = true)
    (havailable : calls.available = true) (hfirst : calls.first.ok = true) :
    load key calls host = (some text, importFileOnce key calls host) := by
  have hfound := record_importFileOnce key himport hrecord
  have hpersisted := importFileOnce_persisted key calls host
  have hsealed := looksSealed_of_sealedUnder ⟨text, hopen⟩
  have hempty := not_isEmpty_of_openWith hopen
  simp [load, credRead, hfound, hread, hempty, hsealed, hpersisted, hkey, unsealRecord_eq,
    havailable, hfirst, hopen, hne]

/-- The reload of a record that opens to the record of a user. -/
theorem reloadUserCreds_of_ok {calls : LoadCalls P} {crypto : Crypto}
    {username password : String} (havailable : s.available = some true)
    (hkey : s.host.persisted = some k) (hrecord : s.host.record = some blob)
    (hopen : openWith k blob = some text) (htext : RecordOf readJson crypto text username password)
    (himport : calls.importRead = true) (hread : calls.read = true)
    (hfirst : calls.first.ok = true) :
    (reloadUserCreds readJson key calls s).1 = true ∧
      accepts crypto (reloadUserCreds readJson key calls s).2.ram username password = true := by
  rcases htext with ⟨hne, tree, c, hparse, hassigned, haccepts⟩
  have hasked : askForLoad key calls s = ({ calls with available := true }, s) := by
    simp [askForLoad, askAvailable_of_some havailable]
  have hload : load key { calls with available := true } s.host =
      (some text, importFileOnce key { calls with available := true } s.host) :=
    load_of_ok key hkey hrecord hopen hne himport hread rfl hfirst
  have hdone : (assignRecord s.ram tree).2 = true := by
    rw [assignRecord_snd] at hassigned ⊢
    exact hassigned
  have hram := (accepts_assignRecord crypto hassigned s.ram username password).1
  simp [reloadUserCreds, hasked, hload, hne, hparse, hdone, hram, haccepts]

/-- An attempt without a failure recovers unless a failure is remembered. -/
theorem recovered_iff {crypto : Crypto} {username password : String} {calls : AttemptCalls P}
    {attemptsLeft : ℕ} (hlocked : s.locked = true) (hkey : s.host.persisted = some k)
    (hrecord : s.host.record = some blob) (hopen : openWith k blob = some text)
    (htext : RecordOf readJson crypto text username password) (hok : calls.ok = true) :
    Recovered crypto username password (attempt readJson key calls attemptsLeft s) ↔
      s.available ≠ some false := by
  simp only [AttemptCalls.ok, Bool.and_eq_true] at hok
  rcases hok with ⟨⟨⟨⟨⟨⟨⟨himport, hread⟩, hopens⟩, hunsealing⟩, himport'⟩, hread'⟩, -⟩, hfirst⟩
  have hprobe := probe_of_ok key hkey hrecord hopen htext.1 himport hread hopens hunsealing
  by_cases hremembered : s.available = some false
  · -- The probe does not get to the provider, and the credentials stay locked.
    rw [if_pos hremembered] at hprobe
    simp [attempt, hprobe, Recovered, askAvailable, hremembered, hlocked]
  · rw [if_neg hremembered] at hprobe
    let probed : Process P :=
      (askAvailable true { s with host := importFileOnce key calls.probe.load s.host }).2
    have havailable : probed.available = some true := by
      cases h : s.available with
      | none => simp [probed, askAvailable, h]
      | some answer =>
          cases answer with
          | false => exact absurd h hremembered
          | true => simp [probed, askAvailable, h]
    have hhost : probed.host = importFileOnce key calls.probe.load s.host := by
      cases h : s.available <;> simp [probed, askAvailable, h]
    have hreload := reloadUserCreds_of_ok key havailable
      (by rw [hhost, importFileOnce_persisted, hkey])
      (by rw [hhost]; exact record_importFileOnce key himport hrecord) hopen htext himport' hread'
      hfirst
    have hdone : attempt readJson key calls attemptsLeft s =
        { (reloadUserCreds readJson key calls.reload probed).2 with locked := false } := by
      have hpair : reloadUserCreds readJson key calls.reload probed =
          (true, (reloadUserCreds readJson key calls.reload probed).2) := by
        rw [← hreload.1]
      simp only [attempt, hprobe]
      rw [hpair]
    rw [hdone]
    exact iff_of_true ⟨rfl, hreload.2⟩ hremembered

/-! ## Histories -/

variable {key}

/-- A failure is remembered by the event that gets one, and from then on. -/
theorem step_remembers {s' : Process P} {event : Event P}
    (hs : step readJson key s event = some s') :
    s'.available ≠ some false ↔ s.available ≠ some false ∧ FirstAskOpens readJson key s event := by
  cases h : s.available with
  | none =>
      constructor
      · intro hopened
        refine ⟨by simp, ?_⟩
        intro _ after hafter
        rw [hs, Option.some.injEq] at hafter
        exact hafter ▸ hopened
      · rintro ⟨-, hopens⟩
        exact hopens h s' hs
  | some answer =>
      have hkept := step_available readJson key h hs
      simp [hkept, FirstAskOpens, h]

/-- **When locked credentials recover.**  Whatever failed before, an attempt in which nothing
fails unlocks the record exactly when the first question to the provider in the life of the
process was not one of the failures. -/
theorem attempt_recovers_iff {host : Host P} {events : List (Event P)} {crypto : Crypto}
    {username password : String} {calls : AttemptCalls P} {attemptsLeft : ℕ}
    (hrun : run (step readJson key) (fresh host) events = some s) (hlocked : s.locked = true)
    (hkey : s.host.persisted = some k) (hrecord : s.host.record = some blob)
    (hopen : openWith k blob = some text)
    (htext : RecordOf readJson crypto text username password) (hok : calls.ok = true) :
    Recovered crypto username password (attempt readJson key calls attemptsLeft s) ↔
      RunMeets (step readJson key) (FirstAskOpens readJson key) (fresh host) events := by
  rw [recovered_iff key hlocked hkey hrecord hopen htext hok]
  have hremembers := run_iff_of_step (fun _ _ _ hs => step_remembers hs) hrun
  simpa [fresh] using hremembers

/-- Every text is the record for the password `old`. -/
def readLegacy (_ : Bytes) : Option Ptree := some legacyRecord

/-- No call fails. -/
def AttemptCalls.succeed : AttemptCalls namedKeys where
  probe := ⟨.succeed, true, .succeed⟩
  reload := .succeed
  check := ⟨.succeed, true, ⟨true, true, true, true, true⟩⟩

/-- The store cannot be read at first. -/
def unreadable : AttemptCalls namedKeys :=
  { AttemptCalls.succeed with
    probe := ⟨{ LoadCalls.succeed with importRead := false, importWrite := false, read := false },
      true, .succeed⟩ }

/-- The provider cannot be opened at first. -/
def unopened : AttemptCalls namedKeys :=
  { AttemptCalls.succeed with probe := ⟨.succeed, false, .succeed⟩ }

theorem attempt_recovers_iff_unreadable :
    Recovered plainCrypto "admin" "old" (attempt readLegacy .luminalshine .succeed 30
      (init readLegacy .luminalshine unreadable (fresh sealedHost))) := by
  have hrun : run (step readLegacy .luminalshine) (fresh sealedHost) [.init unreadable] =
      some (init readLegacy .luminalshine unreadable (fresh sealedHost)) := rfl
  have hopen : openWith (P := namedKeys) (7 : UInt8) sealedRecord = some [123, 125] := by decide
  have htext : RecordOf readLegacy plainCrypto [123, 125] "admin" "old" :=
    ⟨by decide, legacyRecord, legacyFields, rfl, by decide, by decide⟩
  refine (attempt_recovers_iff hrun rfl rfl rfl hopen htext rfl).mpr ⟨?_, fun _ _ => trivial⟩
  intro _ after hafter
  cases hafter
  decide

/-- Once it is up again, the record opens and the credentials stay locked. -/
theorem attempt_stays_locked :
    ∃ s, run (step readLegacy .luminalshine) (fresh sealedHost) [.init unopened] = some s ∧
      s.locked = true ∧ s.host.persisted = some (7 : UInt8) ∧
      s.host.record = some sealedRecord ∧
      openWith (P := namedKeys) (7 : UInt8) sealedRecord = some [123, 125] ∧
      RecordOf readLegacy plainCrypto [123, 125] "admin" "old" ∧
      AttemptCalls.succeed.ok = true ∧
      ¬ Recovered plainCrypto "admin" "old"
        (attempt readLegacy .luminalshine .succeed 30 s) := by
  refine ⟨_, rfl, rfl, rfl, rfl, by decide, ?_, rfl, ?_⟩
  · exact ⟨by decide, legacyRecord, legacyFields, rfl, by decide, by decide⟩
  · rintro ⟨hunlocked, -⟩
    revert hunlocked
    decide

end LuminalShine.CredStore.Retry
