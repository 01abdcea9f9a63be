import LuminalShine.CredStore.Load
import LuminalShine.Lib.PropertyTree
import LuminalShine.Lib.Run

/-!
# The quarantine slot

`quarantine` and `erase` of `src/cred_store/cred_store_windows.cpp` and `user_creds_exist` of
`src/httpcommon.cpp`.

A self-heal puts the record it is about to remove into the quarantine slot.  The two heals of
`load` delete the record alone.  `user_creds_exist` calls `erase`, which is the user's reset
and discards the slot as well; and what it has put there is the unsealed text.

A step is one call, or anything else that writes the record, the key or the files.  The
parser of the credentials is a parameter.

## Main definitions

* `eraseRecord`, `userCredsExist` — the source's functions, with the outcomes of their calls.
* `Label`, `step` — calls in any order.
* `KeepsCopy` — what a call owes the slot.
* `Spares` — the calls that do.

## Main results

* `keepsCopy_iff` — for one call.
* `selfHeal_run` — for all calls of a run.
-/

namespace LuminalShine.CredStore

open LuminalShine.Lib

variable {P : Platform}

/-! ## Erasing -/

/-- The calls of `tpm_seal::clear` and the two deletions before it. -/
structure EraseCalls where
  delete : Bool
  deleteSlot : Bool
  openProvider : Bool
  openKey : Bool
  deleteKey : Bool
  deriving DecidableEq, Repr

/-- `tpm_seal::clear`: whether it succeeds, and the key that is left. -/
def clearKey (persisted : Option P.Key) (calls : EraseCalls) : Bool × Option P.Key :=
  if !calls.openProvider then (true, persisted)
  else match ncryptOpenKey persisted calls.openKey with
    | .badKeyset => (true, persisted)
    | .failed => (false, persisted)
    | .success _ => if calls.deleteKey then (true, none) else (false, persisted)

/-- `erase` -/
def eraseRecord (calls : EraseCalls) (host : Host P) : Bool × Host P :=
  let host := credDelete calls.delete host
  let host := if calls.deleteSlot then { host with quarantine := none } else host
  let (ok, persisted) := clearKey host.persisted calls
  (calls.delete && ok, { host with persisted })

/-! ## The check -/

/-- The calls of `user_creds_exist`. -/
structure CheckCalls (P : Platform) where
  load : LoadCalls P
  quarantine : Bool
  erase : EraseCalls

/-- `fields_present` -/
def fieldsPresent (readJson : Bytes → Option Ptree) (blob : Bytes) : Bool :=
  match readJson blob with
  | none => false
  | some tree =>
      (tree.find? "username").isSome && (tree.find? "password").isSome &&
        (tree.find? "salt").isSome

/-- `user_creds_exist` -/
def userCredsExist (readJson : Bytes → Option Ptree) (key : KeyPath) (calls : CheckCalls P)
    (host : Host P) : Bool × Host P :=
  match load key calls.load host with
  | (none, host) => (false, host)
  | (some blob, host) =>
      if blob.isEmpty then (false, host)
      else if fieldsPresent readJson blob then (true, host)
      else
        let host := { host with
          quarantine := if calls.quarantine then some blob else host.quarantine }
        (false, (eraseRecord calls.erase host).2)

/-! ## Steps -/

/-- `reset` is the user's.  `other` is a save, a restart of the process or another program. -/
inductive Label (P : Platform) where
  | load (key : KeyPath) (calls : LoadCalls P)
  | userCredsExist (key : KeyPath) (calls : CheckCalls P)
  | reset (calls : EraseCalls)
  | other (record : Option Bytes) (persisted : Option P.Key) (files : LegacyFiles)
      (importAttempted : Bool)

def step (readJson : Bytes → Option Ptree) (host : Host P) : Label P → Option (Host P)
  | .load key calls => some (load key calls host).2
  | .userCredsExist key calls => some (userCredsExist readJson key calls host).2
  | .reset calls => some (eraseRecord calls host).2
  | .other record persisted files importAttempted =>
      some { host with record, persisted, files, importAttempted }

/-! ## What a call owes the slot -/

/-- The record a load finds, an imported one included. -/
def found (key : KeyPath) (calls : LoadCalls P) (host : Host P) : Option Bytes :=
  (importFileOnce key calls host).record

/-- A record that was found and is gone is in the slot, if it was `written` there.  An empty
record is removed without a write. -/
def Copied (found : Option Bytes) (written : Bool) (after : Host P) : Prop :=
  ∀ raw, found = some raw → raw ≠ [] → after.record = none → written = true →
    after.quarantine = some raw

/-- The slot is not cleared. -/
def Uncleared (before after : Host P) : Prop :=
  before.quarantine ≠ none → after.quarantine ≠ none

/-- What a call keeps; only the user's reset may clear the slot, and nothing else touches it.
When the load of `user_creds_exist` fails, the write that counts is the load's. -/
def KeepsCopy (readJson : Bytes → Option Ptree) (host : Host P) : Label P → Prop
  | .load key calls =>
      Copied (found key calls host) calls.quarantine (load key calls host).2 ∧
        Uncleared host (load key calls host).2
  | .userCredsExist key calls =>
      Copied (found key calls.load host)
          (if (load key calls.load host).1.isSome then calls.quarantine else calls.load.quarantine)
          (userCredsExist readJson key calls host).2 ∧
        Uncleared host (userCredsExist readJson key calls host).2
  | .reset _ | .other _ _ _ _ => True

/-- The text that is read from a record. -/
def openRecord (persisted : Option P.Key) (calls : LoadCalls P) (raw : Bytes) : Option Bytes :=
  if looksSealed raw then
    (unsealRecord persisted calls.available calls.first raw).or
      (unsealRecord persisted calls.available calls.second raw)
  else some raw

/-- The erasure leaves the copy: the slot cannot be deleted, or it was empty and no copy of a
removed record was put there; and what is put there is the record itself. -/
def SparesCopy (calls : CheckCalls P) (before : Host P) (raw blob : Bytes) : Prop :=
  (calls.erase.deleteSlot = true → before.quarantine = none) ∧
    (calls.erase.delete = true → calls.quarantine = true →
      calls.erase.deleteSlot = false ∧ blob = raw)

instance (calls : CheckCalls P) (before : Host P) (raw blob : Bytes) :
    Decidable (SparesCopy calls before raw blob) := by
  unfold SparesCopy
  infer_instance

/-- `user_creds_exist` reads no record that opens to a text without credentials, or its
erasure leaves the copy. -/
def Spares (readJson : Bytes → Option Ptree) (host : Host P) : Label P → Prop
  | .userCredsExist key calls =>
      calls.load.read = true → ∀ raw ∈ found key calls.load host,
        ∀ blob ∈ openRecord host.persisted calls.load raw, blob ≠ [] →
          fieldsPresent readJson blob = false → SparesCopy calls host raw blob
  | _ => True

/-! ## What a load does to the slot -/

theorem importFileOnce_quarantine (key : KeyPath) (calls : LoadCalls P) (host : Host P) :
    (importFileOnce key calls host).quarantine = host.quarantine := by
  rw [importFileOnce]
  split
  · rfl
  · dsimp only
    split
    · rfl
    · split
      · rfl
      · split <;> rfl

/-- What comes out of a load: nothing was read, an empty record, a text, or a record that does
not open and is either left or healed. -/
inductive Loaded (key : KeyPath) (calls : LoadCalls P) (host : Host P) :
    Option Bytes × Host P → Prop where
  | nothing : calls.read = false ∨ found key calls host = none →
      Loaded key calls host (none, importFileOnce key calls host)
  | empty : found key calls host = some [] →
      Loaded key calls host (none, credDelete calls.delete (importFileOnce key calls host))
  | opened {raw blob : Bytes} : calls.read = true → found key calls host = some raw →
      openRecord host.persisted calls raw = some blob →
      Loaded key calls host (if blob.isEmpty then none else some blob, importFileOnce key calls host)
  | left {raw : Bytes} (persisted : Option P.Key) : found key calls host = some raw → raw ≠ [] →
      openRecord host.persisted calls raw = none →
      Loaded key calls host (none, { importFileOnce key calls host with persisted })
  | healed {raw : Bytes} (persisted : Option P.Key) : found key calls host = some raw →
      openRecord host.persisted calls raw = none →
      Loaded key calls host
        (none, selfHeal calls raw { importFileOnce key calls host with persisted })

theorem loaded (key : KeyPath) (calls : LoadCalls P) (host : Host P) :
    Loaded key calls host (load key calls host) := by
  have hpersisted := importFileOnce_persisted key calls host
  rw [load]
  dsimp only
  cases hread : calls.read with
  | false => exact .nothing (Or.inl hread)
  | true =>
      rcases Option.eq_none_or_eq_some (importFileOnce key calls host).record with
        hrecord | ⟨raw, hrecord⟩
      · rw [show credRead (importFileOnce key calls host).record true = .notFound by
          simp [credRead, hrecord]]
        exact .nothing (Or.inr hrecord)
      · rw [show credRead (importFileOnce key calls host).record true = .success raw by
          simp [credRead, hrecord]]
        dsimp only
        by_cases hempty : raw = []
        · subst hempty
          exact .empty hrecord
        have hnonempty : raw.isEmpty = false := by simpa using hempty
        rw [hnonempty, if_neg (by decide), hpersisted]
        cases hsealed : looksSealed raw with
        | false =>
            have hopened : Loaded key calls host
                (if raw.isEmpty then none else some raw, importFileOnce key calls host) :=
              .opened hread hrecord (by simp [openRecord, hsealed])
            simpa [hnonempty] using hopened
        | true =>
            have hopen : ∀ text, (unsealRecord host.persisted calls.available calls.first
                raw).or (unsealRecord host.persisted calls.available calls.second raw) = text →
                openRecord host.persisted calls raw = text := by
              intro text htext
              rw [openRecord, if_pos hsealed, htext]
            cases hfirst : unsealRecord host.persisted calls.available calls.first raw with
            | some blob => exact .opened hread hrecord (hopen _ (by simp [hfirst]))
            | none =>
                cases hsecond : unsealRecord host.persisted calls.available calls.second
                  raw with
                | some blob => exact .opened hread hrecord (hopen _ (by simp [hfirst, hsecond]))
                | none =>
                    have hnone := hopen none (by simp [hfirst, hsecond])
                    simp only [if_true]
                    split
                    · exact .healed _ hrecord hnone
                    · exact .healed _ hrecord hnone
                    · exact .left _ hrecord hempty hnone
                    · exact .left _ hrecord hempty hnone

variable {key : KeyPath} {host : Host P}

/-- The two heals of `load` keep the copy, whatever comes out. -/
theorem Loaded.keeps {calls : LoadCalls P} {result : Option Bytes × Host P}
    (h : Loaded key calls host result) :
    Copied (found key calls host) calls.quarantine result.2 ∧ Uncleared host result.2 := by
  have hslot := importFileOnce_quarantine key calls host
  have hkept : ∀ {after : Host P}, after.record = found key calls host →
      Copied (found key calls host) calls.quarantine after := by
    intro after hrecord raw hfound hne hnone
    rw [hrecord, hfound] at hnone
    cases hnone
  cases h with
  | nothing h => exact ⟨hkept rfl, fun hbefore => hslot ▸ hbefore⟩
  | empty hfound =>
      constructor
      · intro raw hraw hne
        rw [hfound, Option.some.injEq] at hraw
        exact absurd hraw.symm hne
      · intro hbefore
        rw [credDelete]
        split
        · exact hslot ▸ hbefore
        · exact hslot ▸ hbefore
  | opened hread hfound hopen => exact ⟨hkept rfl, fun hbefore => hslot ▸ hbefore⟩
  | left persisted hfound hne hopen => exact ⟨hkept rfl, fun hbefore => hslot ▸ hbefore⟩
  | @healed raw persisted hfound hopen =>
      have hafter : (selfHeal calls raw
          { importFileOnce key calls host with persisted }).quarantine =
          if calls.quarantine then some raw else host.quarantine := by
        rw [← hslot]
        unfold selfHeal credDelete
        split <;> rfl
      constructor
      · intro raw' hraw' hne hnone hwritten
        rw [hfound] at hraw'
        rw [hafter, if_pos hwritten, hraw']
      · intro hbefore
        rw [hafter]
        split
        · simp
        · exact hbefore

/-! ## What the check does to it -/

theorem eraseRecord_record (calls : EraseCalls) (host : Host P) :
    (eraseRecord calls host).2.record = if calls.delete then none else host.record := by
  unfold eraseRecord credDelete
  cases calls.delete <;> cases calls.deleteSlot <;> rfl

theorem eraseRecord_quarantine (calls : EraseCalls) (host : Host P) :
    (eraseRecord calls host).2.quarantine =
      if calls.deleteSlot then none else host.quarantine := by
  unfold eraseRecord credDelete
  cases calls.delete <;> cases calls.deleteSlot <;> rfl

/-- The record of a text without credentials: what an erasure keeps of it. -/
theorem erased_keeps_iff {calls : CheckCalls P} {raw blob : Bytes} (hraw : raw ≠ [])
    (loaded : Host P) :
    (Copied (some raw) calls.quarantine (eraseRecord calls.erase { loaded with
          record := some raw
          quarantine := if calls.quarantine then some blob else host.quarantine }).2 ∧
        Uncleared host (eraseRecord calls.erase { loaded with
          record := some raw
          quarantine := if calls.quarantine then some blob else host.quarantine }).2) ↔
      SparesCopy calls host raw blob := by
  simp only [Copied, Uncleared, SparesCopy, eraseRecord_record, eraseRecord_quarantine]
  cases calls.erase.delete <;> cases calls.erase.deleteSlot <;> cases calls.quarantine <;>
    simp [hraw]

/-- When the load gives no text, the check is the load. -/
theorem userCredsExist_keeps_of_none (readJson : Bytes → Option Ptree) {calls : CheckCalls P}
    (hnone : (load key calls.load host).1 = none) :
    KeepsCopy readJson host (.userCredsExist key calls) := by
  have hcheck : (userCredsExist readJson key calls host).2 = (load key calls.load host).2 := by
    rw [userCredsExist]
    split
    · case h_1 after heq => rw [heq]
    · case h_2 blob after heq => simp [heq] at hnone
  simp only [KeepsCopy, hcheck, hnone]
  exact (loaded key calls.load host).keeps

/-- **A check keeps the copy exactly when it does not erase, or its erasure spares it.** -/
theorem userCredsExist_keeps_iff (readJson : Bytes → Option Ptree) (calls : CheckCalls P) :
    KeepsCopy readJson host (.userCredsExist key calls) ↔
      Spares readJson host (.userCredsExist key calls) := by
  have hloaded := loaded key calls.load host
  generalize hresult : load key calls.load host = result at hloaded
  cases hloaded with
  | nothing h =>
      refine iff_of_true (userCredsExist_keeps_of_none readJson (by rw [hresult])) ?_
      intro hread raw hfound
      rcases h with h | h
      · simp [hread] at h
      · simp [h] at hfound
  | empty h =>
      refine iff_of_true (userCredsExist_keeps_of_none readJson (by rw [hresult])) ?_
      intro _ raw hfound blob hblob hne
      rw [h, Option.mem_some_iff] at hfound
      subst hfound
      have hnil : blob = [] := by simpa [openRecord, looksSealed, magic] using hblob.symm
      exact absurd hnil hne
  | left persisted h hraw hopen =>
      refine iff_of_true (userCredsExist_keeps_of_none readJson (by rw [hresult])) ?_
      intro _ raw hfound blob hblob
      rw [h, Option.mem_some_iff] at hfound
      simp [← hfound, hopen] at hblob
  | healed persisted h hopen =>
      refine iff_of_true (userCredsExist_keeps_of_none readJson (by rw [hresult])) ?_
      intro _ raw hfound blob hblob
      rw [h, Option.mem_some_iff] at hfound
      simp [← hfound, hopen] at hblob
  | @opened raw blob hread h hopen =>
      have hspares : Spares readJson host (.userCredsExist key calls) ↔
          (blob ≠ [] → fieldsPresent readJson blob = false → SparesCopy calls host raw blob) := by
        simp [Spares, hread, h, hopen]
      rw [hspares]
      by_cases hblob : blob = []
      · exact iff_of_true (userCredsExist_keeps_of_none readJson (by simp [hresult, hblob]))
          fun hne => absurd hblob hne
      have hload : load key calls.load host = (some blob, importFileOnce key calls.load host) := by
        rw [hresult, if_neg (by simpa using hblob)]
      have hempty : blob.isEmpty = false := by simpa using hblob
      cases hfields : fieldsPresent readJson blob with
      | true =>
          have hcheck : (userCredsExist readJson key calls host).2 =
              importFileOnce key calls.load host := by
            simp [userCredsExist, hload, hempty, hfields]
          refine iff_of_true ?_ (fun _ h => by cases h)
          have hkeeps := (loaded key calls.load host).keeps
          simp only [hload] at hkeeps
          simp only [KeepsCopy, hcheck]
          refine ⟨?_, hkeeps.2⟩
          intro raw' hraw' hne hnone
          have hrecord : found key calls.load host = none := hnone
          simp [hraw'] at hrecord
      | false =>
          have hcheck : (userCredsExist readJson key calls host).2 =
              (eraseRecord calls.erase { importFileOnce key calls.load host with
                record := some raw
                quarantine := if calls.quarantine then some blob else host.quarantine }).2 := by
            have hrecord : (importFileOnce key calls.load host).record = some raw := h
            simp [userCredsExist, hload, hempty, hfields, importFileOnce_quarantine, hrecord]
          have hraw : raw ≠ [] := by
            rintro rfl
            exact hblob (by simpa [openRecord, looksSealed, magic] using hopen.symm)
          simp only [KeepsCopy, hload, hcheck, h, Option.isSome_some, if_true]
          rw [erased_keeps_iff hraw]
          simp [hblob]

/-! ## Runs -/

/-- A call keeps the copy exactly when it is not an erasing check, or one that spares it. -/
theorem keepsCopy_iff (readJson : Bytes → Option Ptree) (host : Host P) (label : Label P) :
    KeepsCopy readJson host label ↔ Spares readJson host label := by
  cases label with
  | load key calls => exact iff_of_true (loaded key calls host).keeps trivial
  | userCredsExist key calls => exact userCredsExist_keeps_iff readJson calls
  | reset calls => exact Iff.rfl
  | other record persisted files importAttempted => exact Iff.rfl

/-- **Self-heal keeps a copy exactly while no check erases.**  In a run from any host every
call keeps the record it removes and the slot, exactly when every check of the run finds
credentials or nothing to read, or erases without harm. -/
theorem selfHeal_run (readJson : Bytes → Option Ptree) (host : Host P) (labels : List (Label P)) :
    RunMeets (step readJson) (KeepsCopy readJson) host labels ↔
      RunMeets (step readJson) (Spares readJson) host labels :=
  runMeets_congr (keepsCopy_iff readJson) host labels

/-- Three bytes that are no JSON, with the copy of an earlier record in the slot. -/
def brokenHost : Host namedKeys where
  persisted := some (7 : UInt8)
  record := some [1, 2, 3]
  quarantine := some sealedRecord
  importAttempted := true
  files := ⟨none, none⟩

/-- Every call of a check goes through. -/
def CheckCalls.succeed : CheckCalls namedKeys :=
  ⟨.succeed, true, ⟨true, true, true, true, true⟩⟩

/-- The check removes the record, its copy and the copy that was there. -/
theorem selfHeal_erases_copy :
    (userCredsExist (fun _ => none) .other .succeed brokenHost).2.record = none ∧
      (userCredsExist (fun _ => none) .other .succeed brokenHost).2.quarantine = none ∧
      ¬ RunMeets (step fun _ => none) (KeepsCopy fun _ => none) brokenHost
        [.userCredsExist .other .succeed] := by
  refine ⟨by decide, by decide, ?_⟩
  rintro ⟨⟨hcopied, -⟩, -⟩
  exact absurd (hcopied [1, 2, 3] (by decide) (by decide) (by decide) (by decide)) (by decide)

end LuminalShine.CredStore
