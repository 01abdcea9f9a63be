import LuminalShine.CredStore.Seal

/-!
# Loading the stored credential

`load` of `src/cred_store/cred_store_windows.cpp`, with the one-shot import it begins with
and `diagnose_unseal_failure` of `tpm_seal_windows.cpp`, whose answer decides whether a
record that could not be unsealed is erased.

Two answers erase one.  `KeyMissing` is given when the key could not be opened, for any
reason, and `BindingMismatch` when a probe goes through after the record did not; neither
says that the record is lost, so two short failures in a row are enough to lose it.

## Main definitions

* `Host` — the record, the persisted key and the legacy files.
* `diagnoseUnsealFailure`, `importFileOnce`, `load` — the source's functions.
* `Keeps` — what a load owes the record.
* `LoadCalls.misjudge`, `overwrites` — the failures under which it does not.

## Main results

* `load_keeps_iff` — a load keeps a recoverable record exactly outside those.
-/

namespace LuminalShine.CredStore

variable {P : Platform}

/-! ## Diagnosis -/

inductive UnsealFailureCause where
  | notApplicable
  | keyMissing
  | bindingMismatch
  | keyTransientlyUnavailable
  deriving DecidableEq, Repr

/-- The calls one diagnosis makes, and its probe. -/
structure DiagnoseCalls (P : Platform) where
  openProvider : Bool
  openKey : Bool
  random : Bool
  probe : Draw 16
  sealing : SealCalls P
  unsealing : UnsealCalls

/-- `diagnose_unseal_failure`, with the key persisted after it. -/
def diagnoseUnsealFailure (persisted : Option P.Key) (available : Bool)
    (calls : DiagnoseCalls P) (blob : Bytes) : UnsealFailureCause × Option P.Key :=
  if !looksSealed blob then (.notApplicable, persisted)
  else if !available then (.keyTransientlyUnavailable, persisted)
  else if !calls.openProvider then (.keyTransientlyUnavailable, persisted)
  else match openExistingKey persisted calls.openKey with
    | none => (.keyMissing, persisted)
    | some _ =>
        if !calls.random then (.keyTransientlyUnavailable, persisted)
        else match sealRecord persisted available calls.sealing calls.probe with
          | (none, persisted) => (.keyTransientlyUnavailable, persisted)
          | (some probeSealed, persisted) =>
              match unsealRecord persisted available calls.unsealing probeSealed with
              | none => (.keyTransientlyUnavailable, persisted)
              | some probeUnsealed =>
                  if probeUnsealed != calls.probe then (.keyTransientlyUnavailable, persisted)
                  else (.bindingMismatch, persisted)

/-- The calls of the probe that have to go through. -/
def DiagnoseCalls.roundtrip (calls : DiagnoseCalls P) : Bool :=
  calls.random && calls.sealing.ok && calls.unsealing.ok

/-- Without a persisted key the diagnosis says so once the provider is open. -/
theorem diagnoseUnsealFailure_none {blob : Bytes} (hsealed : looksSealed blob = true)
    (available : Bool) (calls : DiagnoseCalls P) :
    diagnoseUnsealFailure none available calls blob =
      (if available && calls.openProvider then .keyMissing else .keyTransientlyUnavailable,
        none) := by
  have hopen : openExistingKey (none : Option P.Key) calls.openKey = none := by
    cases h : calls.openKey <;> rfl
  cases available <;> cases hprovider : calls.openProvider <;>
    simp [diagnoseUnsealFailure, hsealed, hopen, hprovider]

/-- With one it does not look at the record again. -/
theorem diagnoseUnsealFailure_some {blob : Bytes} (hsealed : looksSealed blob = true)
    (key : P.Key) (available : Bool) (calls : DiagnoseCalls P) :
    diagnoseUnsealFailure (some key) available calls blob =
      (if available && calls.openProvider then
          if calls.openKey then
            if calls.roundtrip then .bindingMismatch else .keyTransientlyUnavailable
          else .keyMissing
        else .keyTransientlyUnavailable, some key) := by
  obtain ⟨probeSealed, hopen, hseal⟩ :=
    sealRecord_of_persisted key available calls.sealing calls.probe
  cases available with
  | false => simp [diagnoseUnsealFailure, hsealed]
  | true =>
      cases hprovider : calls.openProvider <;> cases hkey : calls.openKey <;>
        cases hrandom : calls.random <;> cases hok : calls.sealing.ok <;>
        cases hunseal : calls.unsealing.ok <;>
        simp [diagnoseUnsealFailure, hsealed, hprovider, hkey, hrandom, hseal, hok,
          unsealRecord_eq, hunseal, hopen, openExistingKey, ncryptOpenKey,
          DiagnoseCalls.roundtrip]

/-! ## The host -/

/-- What `write_json` prints for a file that parses. -/
structure Payload where
  bytes : Bytes
  brace : bytes.head? = some 123

/-- A file of credentials: its payload, unless it does not parse. -/
abbrev CredFile := Option Payload

/-- The configured path, and `sunshine_credentials.json` beside it. -/
structure LegacyFiles where
  configured : Option CredFile
  sunshine : Option CredFile

/-- The `key` of a load: no path, one with the file name of the default, or another. -/
inductive KeyPath where
  | empty
  | luminalshine
  | other
  deriving DecidableEq, Repr

structure Host (P : Platform) where
  persisted : Option P.Key
  record : Option Bytes
  quarantine : Option Bytes
  importAttempted : Bool
  files : LegacyFiles

/-- The calls one load makes; `available` is the cached answer of `available()`. -/
structure LoadCalls (P : Platform) where
  copyLegacy : Bool
  archiveLegacy : Bool
  importRead : Bool
  importWrite : Bool
  archiveImported : Bool
  read : Bool
  available : Bool
  first : UnsealCalls
  second : UnsealCalls
  diagnose : DiagnoseCalls P
  quarantine : Bool
  delete : Bool

/-- The status of `CredReadW`. -/
inductive ReadStatus where
  | success (blob : Bytes)
  | notFound
  | failed
  deriving DecidableEq, Repr

def credRead (record : Option Bytes) (ok : Bool) : ReadStatus :=
  if ok then
    match record with
    | some blob => .success blob
    | none => .notFound
  else .failed

def credDelete (ok : Bool) (host : Host P) : Host P :=
  if ok then { host with record := none } else host

/-! ## Loading -/

/-- `maybe_migrate_legacy_filename` -/
def migrateLegacyFilename (key : KeyPath) (calls : LoadCalls P) (files : LegacyFiles) :
    LegacyFiles :=
  if key ≠ .luminalshine then files
  else match files.configured, files.sunshine with
    | some _, _ => files
    | none, none => files
    | none, some file =>
        if !calls.copyLegacy then files
        else ⟨some file, if calls.archiveLegacy then none else some file⟩

/-- What an import would write. -/
def importPayload (key : KeyPath) (files : LegacyFiles) : Option Payload :=
  if key = .empty then none else files.configured.join

/-- `maybe_import_file_once`: only a read that succeeds stops it. -/
def importFileOnce (key : KeyPath) (calls : LoadCalls P) (host : Host P) : Host P :=
  if host.importAttempted then host
  else
    let host := { host with
      importAttempted := true
      files := migrateLegacyFilename key calls host.files }
    match credRead host.record calls.importRead with
    | .success _ => host
    | _ =>
        match importPayload key host.files with
        | none => host
        | some payload =>
            if !calls.importWrite then host
            else { host with
              record := some payload.bytes
              files := { host.files with
                configured :=
                  if calls.archiveImported then none else host.files.configured } }

/-- The two self-heals of a record that is held for lost. -/
def selfHeal (calls : LoadCalls P) (raw : Bytes) (host : Host P) : Host P :=
  credDelete calls.delete
    { host with quarantine := if calls.quarantine then some raw else host.quarantine }

/-- `load`: the text it gives, if it succeeds, and the host after it. -/
def load (key : KeyPath) (calls : LoadCalls P) (host : Host P) : Option Bytes × Host P :=
  let host := importFileOnce key calls host
  match credRead host.record calls.read with
  | .notFound | .failed => (none, host)
  | .success raw =>
      if raw.isEmpty then (none, credDelete calls.delete host)
      else if looksSealed raw then
        match unsealRecord host.persisted calls.available calls.first raw with
        | some out => (if out.isEmpty then none else some out, host)
        | none =>
            match unsealRecord host.persisted calls.available calls.second raw with
            | some out => (if out.isEmpty then none else some out, host)
            | none =>
                let (cause, persisted) :=
                  diagnoseUnsealFailure host.persisted calls.available calls.diagnose raw
                let host := { host with persisted }
                match cause with
                | .keyMissing => (none, selfHeal calls raw host)
                | .bindingMismatch => (none, selfHeal calls raw host)
                | .keyTransientlyUnavailable | .notApplicable => (none, host)
      else (some raw, host)

/-! ## What a load owes the record -/

/-- The key opens the record. -/
def SealedUnder (key : P.Key) (raw : Bytes) : Prop := ∃ plaintext, openWith key raw = some plaintext

/-- What `seal` makes is sealed under the persisted key. -/
theorem sealedUnder_of_seal {key : P.Key} {available : Bool} {calls : SealCalls P}
    {plaintext blob : Bytes}
    (h : (sealRecord (some key) available calls plaintext).1 = some blob) :
    SealedUnder key blob := by
  obtain ⟨sealed, hopen, hseal⟩ := sealRecord_of_persisted key available calls plaintext
  rw [hseal] at h
  simp only [Option.ite_none_right_eq_some, Option.some.injEq] at h
  exact ⟨plaintext, h.2 ▸ hopen⟩

/-- A record sealed under the persisted key stays, and an erased one was empty, was sealed
under a key the provider reported as not present, or is one the key cannot open at any
call. -/
structure Keeps (key : KeyPath) (calls : LoadCalls P) (host : Host P) (raw : Bytes) : Prop where
  kept : ∀ k, host.persisted = some k → SealedUnder k raw →
    (load key calls host).2.record = some raw
  erased : (load key calls host).2.record = none →
    raw = [] ∨ ncryptOpenKey host.persisted calls.diagnose.openKey = .badKeyset ∨
      looksSealed raw = true ∧ ∃ k, host.persisted = some k ∧
        ∀ unsealing, unsealRecord (some k) true unsealing raw = none

/-- The import goes over the record: its own probe of the store failed. -/
def overwrites (key : KeyPath) (calls : LoadCalls P) (host : Host P) : Bool :=
  !host.importAttempted && !calls.importRead && calls.importWrite &&
    (importPayload key (migrateLegacyFilename key calls host.files)).isSome

/-- The calls with which a diagnosis that is reached holds the record for lost. -/
def DiagnoseCalls.lost (calls : DiagnoseCalls P) : Bool :=
  calls.openProvider && (!calls.openKey || calls.roundtrip)

/-- The calls with which a record its key opens is erased. -/
def LoadCalls.misjudge (calls : LoadCalls P) : Bool :=
  calls.read && calls.available && !calls.first.ok && !calls.second.ok && calls.diagnose.lost &&
    calls.delete

/-- The calls with which a sealed record is erased although nothing reported the key as
missing. -/
def LoadCalls.unreported (calls : LoadCalls P) : Bool :=
  calls.read && calls.available && calls.diagnose.openProvider && !calls.diagnose.openKey &&
    calls.delete

/-! ## What a load does -/

theorem credDelete_record (ok : Bool) (host : Host P) :
    (credDelete ok host).record = if ok then none else host.record := by
  cases ok <;> rfl

theorem selfHeal_record (calls : LoadCalls P) (raw : Bytes) (host : Host P) :
    (selfHeal calls raw host).record = if calls.delete then none else host.record :=
  credDelete_record _ _

theorem looksSealed_payload (payload : Payload) :
    payload.bytes.isEmpty = false ∧ looksSealed payload.bytes = false := by
  obtain ⟨bytes, hbrace⟩ := payload
  cases bytes with
  | nil => simp at hbrace
  | cons b bytes =>
      have hb : b = 123 := by simpa using hbrace
      subst hb
      exact ⟨rfl, by simp [looksSealed, magic]⟩

theorem importFileOnce_persisted (key : KeyPath) (calls : LoadCalls P) (host : Host P) :
    (importFileOnce key calls host).persisted = host.persisted := by
  unfold importFileOnce
  split
  · rfl
  · dsimp only
    split
    · rfl
    · split
      · rfl
      · split <;> rfl

/-- The record after the import. -/
theorem importFileOnce_record (key : KeyPath) (calls : LoadCalls P) {host : Host P}
    {raw : Bytes} (hrecord : host.record = some raw) :
    (overwrites key calls host = false ∧ (importFileOnce key calls host).record = some raw) ∨
      overwrites key calls host = true ∧
        ∃ payload : Payload, (importFileOnce key calls host).record = some payload.bytes := by
  unfold importFileOnce overwrites
  cases hattempted : host.importAttempted with
  | true => simp [hrecord]
  | false =>
      cases hread : calls.importRead with
      | true => simp [credRead, hrecord]
      | false =>
          cases hpayload : importPayload key (migrateLegacyFilename key calls host.files) with
          | none => simp [credRead, hpayload, hrecord]
          | some payload =>
              cases hwrite : calls.importWrite with
              | false => simp [credRead, hpayload, hrecord]
              | true => exact Or.inr ⟨by simp, payload, by simp [credRead, hpayload]⟩

/-- After an import over the record, the payload is what is read, and it stays. -/
theorem load_record_of_overwrites {key : KeyPath} {calls : LoadCalls P} {host : Host P}
    {raw : Bytes} (hrecord : host.record = some raw) (hover : overwrites key calls host = true) :
    ∃ payload : Payload, (load key calls host).2.record = some payload.bytes := by
  rcases importFileOnce_record key calls hrecord with h | ⟨-, payload, h⟩
  · simp [hover] at h
  · refine ⟨payload, ?_⟩
    obtain ⟨hempty, hsealed⟩ := looksSealed_payload payload
    unfold load
    cases hread : calls.read with
    | false => simpa [credRead] using h
    | true => simp [credRead, h, hempty, hsealed]

/-- A record that does not look sealed is erased only when it is empty. -/
theorem load_record_of_plain {key : KeyPath} {calls : LoadCalls P} {host : Host P}
    {raw : Bytes} (hrecord : host.record = some raw) (hover : overwrites key calls host = false)
    (hsealed : looksSealed raw = false) (hraw : raw ≠ []) :
    (load key calls host).2.record = some raw := by
  rcases importFileOnce_record key calls hrecord with ⟨-, h⟩ | ⟨h, -⟩
  · unfold load
    cases hread : calls.read with
    | false => simpa [credRead] using h
    | true => simp [credRead, h, hsealed, hraw]
  · simp [hover] at h

/-- A sealed record is erased when no unsealing works and the diagnosis holds it for lost. -/
theorem load_record_of_sealed {key : KeyPath} {calls : LoadCalls P} {host : Host P}
    {raw : Bytes} (hrecord : host.record = some raw) (hover : overwrites key calls host = false)
    (hsealed : looksSealed raw = true) :
    (load key calls host).2.record =
      if calls.read && (unsealRecord host.persisted calls.available calls.first raw).isNone &&
          (unsealRecord host.persisted calls.available calls.second raw).isNone &&
          calls.available && calls.diagnose.openProvider &&
          (host.persisted.isNone || !calls.diagnose.openKey || calls.diagnose.roundtrip) &&
          calls.delete then none
      else some raw := by
  rcases importFileOnce_record key calls hrecord with ⟨-, h⟩ | ⟨h, -⟩
  · have hpersisted := importFileOnce_persisted key calls host
    have hraw : raw.isEmpty = false := by
      cases raw with
      | nil => simp [looksSealed, magic] at hsealed
      | cons b raw => rfl
    unfold load
    cases hread : calls.read with
    | false => simpa [credRead] using h
    | true =>
        simp only [credRead, h, hraw, hsealed, hpersisted, Bool.false_eq_true, if_true, if_false]
        cases hfirst : unsealRecord host.persisted calls.available calls.first raw with
        | some out => simp [h]
        | none =>
            cases hsecond : unsealRecord host.persisted calls.available calls.second raw with
            | some out => simp [h]
            | none =>
                cases hkey : host.persisted with
                | none =>
                    rw [diagnoseUnsealFailure_none hsealed]
                    cases calls.available <;> cases calls.diagnose.openProvider <;>
                      simp [selfHeal_record]
                | some k =>
                    rw [diagnoseUnsealFailure_some hsealed]
                    cases calls.available <;> cases calls.diagnose.openProvider <;>
                      cases calls.diagnose.openKey <;> cases calls.diagnose.roundtrip <;>
                      simp [selfHeal_record]
  · simp [hover] at h

theorem looksSealed_of_sealedUnder {k : P.Key} {raw : Bytes} (h : SealedUnder k raw) :
    looksSealed raw = true := by
  obtain ⟨plaintext, h⟩ := h
  cases hsealed : looksSealed raw with
  | true => rfl
  | false => simp [openWith, hsealed] at h

/-- Under the key that opens it, one pattern of failures erases a record. -/
theorem load_record_of_sealedUnder {key : KeyPath} {calls : LoadCalls P} {host : Host P}
    {raw : Bytes} (hrecord : host.record = some raw) (hover : overwrites key calls host = false)
    {k : P.Key} (hkey : host.persisted = some k) (hsealed : SealedUnder k raw) :
    (load key calls host).2.record = if calls.misjudge then none else some raw := by
  rw [load_record_of_sealed hrecord hover (looksSealed_of_sealedUnder hsealed)]
  obtain ⟨plaintext, hopen⟩ := hsealed
  have hnone : ∀ unsealing : UnsealCalls,
      (unsealRecord host.persisted calls.available unsealing raw).isNone =
        !(calls.available && unsealing.ok) := by
    intro unsealing
    rw [unsealRecord_eq, hkey, Option.bind_some, hopen]
    cases calls.available && unsealing.ok <;> rfl
  refine if_congr ?_ rfl rfl
  rw [hnone, hnone, hkey, LoadCalls.misjudge, DiagnoseCalls.lost]
  cases calls.available <;> simp [and_assoc]

/-- Without a key, every diagnosis that is reached erases one. -/
theorem load_record_of_no_key {key : KeyPath} {calls : LoadCalls P} {host : Host P}
    {raw : Bytes} (hrecord : host.record = some raw) (hover : overwrites key calls host = false)
    (hkey : host.persisted = none) (hsealed : looksSealed raw = true) :
    (load key calls host).2.record =
      if calls.read && calls.available && calls.diagnose.openProvider && calls.delete then none
      else some raw := by
  rw [load_record_of_sealed hrecord hover hsealed]
  simp [unsealRecord_eq, hkey]

/-! ## The exact condition -/

theorem Keeps.conditions {key : KeyPath} {calls : LoadCalls P} {host : Host P} {raw : Bytes}
    (hrecord : host.record = some raw) (h : Keeps key calls host raw) :
    (∀ k, host.persisted = some k → SealedUnder k raw →
      overwrites key calls host = false ∧ calls.misjudge = false) ∧
    (host.persisted = none → looksSealed raw = true → overwrites key calls host = false →
      calls.unreported = false) := by
  constructor
  · intro k hkey hsealed
    have hkept := h.kept k hkey hsealed
    have hover : overwrites key calls host = false := by
      rw [Bool.eq_false_iff]
      intro hover
      obtain ⟨payload, hpayload⟩ := load_record_of_overwrites hrecord hover
      have hraw : payload.bytes = raw := Option.some.inj (hpayload.symm.trans hkept)
      have hplain := (looksSealed_payload payload).2
      rw [hraw, looksSealed_of_sealedUnder hsealed] at hplain
      cases hplain
    refine ⟨hover, ?_⟩
    rw [load_record_of_sealedUnder hrecord hover hkey hsealed] at hkept
    cases hmisjudge : calls.misjudge with
    | false => rfl
    | true => simp [hmisjudge] at hkept
  · intro hkey hsealed hover
    rw [Bool.eq_false_iff]
    intro hcalls
    simp only [LoadCalls.unreported, Bool.and_eq_true, Bool.not_eq_true'] at hcalls
    obtain ⟨⟨⟨⟨hread, havailable⟩, hprovider⟩, hopen⟩, hdelete⟩ := hcalls
    have herased : (load key calls host).2.record = none := by
      rw [load_record_of_no_key hrecord hover hkey hsealed]
      simp [hread, havailable, hprovider, hdelete]
    rcases h.erased herased with hraw | hreport | ⟨-, k, hk, -⟩
    · rw [hraw] at hsealed
      simp [looksSealed, magic] at hsealed
    · simp [ncryptOpenKey, hopen] at hreport
    · rw [hkey] at hk
      cases hk

theorem keeps_of_conditions {key : KeyPath} {calls : LoadCalls P} {host : Host P} {raw : Bytes}
    (hrecord : host.record = some raw)
    (hsome : ∀ k, host.persisted = some k → SealedUnder k raw →
      overwrites key calls host = false ∧ calls.misjudge = false)
    (hnone : host.persisted = none → looksSealed raw = true →
      overwrites key calls host = false → calls.unreported = false) :
    Keeps key calls host raw where
  kept := by
    intro k hkey hsealed
    obtain ⟨hover, hmisjudge⟩ := hsome k hkey hsealed
    rw [load_record_of_sealedUnder hrecord hover hkey hsealed, hmisjudge]
    rfl
  erased := by
    intro herased
    have hover : overwrites key calls host = false := by
      rw [Bool.eq_false_iff]
      intro hover
      obtain ⟨payload, hpayload⟩ := load_record_of_overwrites hrecord hover
      simp [hpayload] at herased
    cases hsealed : looksSealed raw with
    | false =>
        -- A plain record is erased when it is empty.
        by_cases hraw : raw = []
        · exact Or.inl hraw
        · simp [load_record_of_plain hrecord hover hsealed hraw] at herased
    | true =>
        cases hkey : host.persisted with
        | none =>
            -- The pattern that erases it without a report is excluded.
            have hreport := hnone hkey hsealed hover
            rw [load_record_of_no_key hrecord hover hkey hsealed] at herased
            have hcalls : calls.read && calls.available && calls.diagnose.openProvider &&
                calls.delete := by
              by_contra hcalls
              simp [hcalls] at herased
            simp only [Bool.and_eq_true] at hcalls
            obtain ⟨⟨⟨hread, havailable⟩, hprovider⟩, hdelete⟩ := hcalls
            simp only [LoadCalls.unreported, hread, havailable, hprovider, hdelete,
              Bool.and_true, Bool.true_and, Bool.not_eq_false'] at hreport
            refine Or.inr (Or.inl ?_)
            simp [ncryptOpenKey, hreport]
        | some k =>
            -- The key opens the record, and the record stays, or it never does.
            cases hopen : openWith k raw with
            | some plaintext =>
                obtain ⟨-, hmisjudge⟩ := hsome k hkey ⟨plaintext, hopen⟩
                rw [load_record_of_sealedUnder hrecord hover hkey ⟨plaintext, hopen⟩,
                  hmisjudge] at herased
                simp at herased
            | none =>
                refine Or.inr (Or.inr ⟨rfl, k, rfl, ?_⟩)
                intro unsealing
                simp [unsealRecord_eq, hopen]

/-- A load keeps a recoverable record, and erases no other without cause, exactly when it
does not import over the one or misjudge it, and does not take a failed open for a report
that the key is gone. -/
theorem load_keeps_iff (key : KeyPath) (calls : LoadCalls P) (host : Host P) (raw : Bytes)
    (hrecord : host.record = some raw) :
    Keeps key calls host raw ↔
      (∀ k, host.persisted = some k → SealedUnder k raw →
        overwrites key calls host = false ∧ calls.misjudge = false) ∧
      (host.persisted = none → looksSealed raw = true → overwrites key calls host = false →
        calls.unreported = false) := by
  constructor
  · intro h
    exact h.conditions hrecord
  · rintro ⟨hsome, hnone⟩
    exact keeps_of_conditions hrecord hsome hnone

/-! ## A platform -/

/-- A provider whose keys are bytes, and whose wrapped keys name the one they need. -/
def namedKeys : Platform where
  Key := UInt8
  wrap key _ aesKey := key :: aesKey
  unwrap key wrapped := if wrapped.head? = some key then some wrapped.tail else none
  gcmEncrypt _ _ plaintext := (List.replicate 16 0, plaintext)
  gcmDecrypt _ _ tag ciphertext := if tag = List.replicate 16 0 then some ciphertext else none
  unwrap_wrap := by
    intro key seed aesKey
    simp
  wrap_length := by
    intro key seed aesKey
    simp [aesKey.2]
  gcm_tag := by
    intro aesKey iv plaintext
    simp
  gcm_decrypt := by
    intro aesKey iv plaintext
    simp

/-- Every call of an unsealing goes through. -/
def UnsealCalls.succeed : UnsealCalls := ⟨true, true, true, true⟩

/-- Every call of a load goes through. -/
def LoadCalls.succeed : LoadCalls namedKeys where
  copyLegacy := true
  archiveLegacy := true
  importRead := true
  importWrite := true
  archiveImported := true
  read := true
  available := true
  first := .succeed
  second := .succeed
  diagnose := {
    openProvider := true
    openKey := true
    random := true
    probe := ⟨List.replicate 16 3, rfl⟩
    sealing := {
      openProvider := true
      openKey := true
      createKey := true
      random := true
      encryptSize := true
      encrypt := true
      gcm := true
      newKey := (8 : UInt8)
      aesKey := ⟨List.replicate 32 4, rfl⟩
      iv := ⟨List.replicate 12 5, rfl⟩
      seed := 0 }
    unsealing := .succeed }
  quarantine := true
  delete := true

/-- A record that the key 7 opens. -/
def sealedRecord : Bytes :=
  Envelope.bytes ⟨7 :: List.replicate 32 1, List.replicate 12 2, List.replicate 16 0, [123, 125]⟩

/-- A host with that record, its key and the file of an earlier release. -/
def sealedHost : Host namedKeys where
  persisted := some (7 : UInt8)
  record := some sealedRecord
  quarantine := none
  importAttempted := false
  files := ⟨none, some (some ⟨[123, 125], rfl⟩)⟩

/-- A failed first decryption is absorbed by the retry. -/
theorem load_keeps_iff_retry :
    Keeps .luminalshine
      { LoadCalls.succeed with first := { UnsealCalls.succeed with decrypt := false } }
      sealedHost sealedRecord :=
  (load_keeps_iff _ _ _ _ rfl).mpr
    ⟨fun _ _ _ => by decide, fun h => by cases h⟩

/-- The key cannot be opened for a while: the record is held for orphaned.  Decryption
fails twice and then works: it is held for another key's.  The store cannot be read
once: the old file is imported over it. -/
theorem load_loses_sealed :
    ¬ Keeps .luminalshine
        { LoadCalls.succeed with
          first := { UnsealCalls.succeed with openKey := false }
          second := { UnsealCalls.succeed with openKey := false }
          diagnose := { LoadCalls.succeed.diagnose with openKey := false } }
        sealedHost sealedRecord ∧
      ¬ Keeps .luminalshine
        { LoadCalls.succeed with
          first := { UnsealCalls.succeed with decrypt := false }
          second := { UnsealCalls.succeed with decrypt := false } }
        sealedHost sealedRecord ∧
      ¬ Keeps .luminalshine { LoadCalls.succeed with importRead := false }
        sealedHost sealedRecord := by
  have hsealed : SealedUnder (P := namedKeys) (7 : UInt8) sealedRecord :=
    ⟨[123, 125], by decide⟩
  refine ⟨?_, ?_, ?_⟩
  · intro h
    exact absurd (h.kept (7 : UInt8) rfl hsealed) (by decide)
  · intro h
    exact absurd (h.kept (7 : UInt8) rfl hsealed) (by decide)
  · intro h
    exact absurd (h.kept (7 : UInt8) rfl hsealed) (by decide)

end LuminalShine.CredStore
