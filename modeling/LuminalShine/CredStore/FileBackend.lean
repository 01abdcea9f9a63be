import LuminalShine.Lib.Run
import LuminalShine.StateFile.Crash

/-!
# Credentials in a file

`src/cred_store/file_backend.cpp`: the credential record as a state file, with the backup and
the temporaries a state file has beside it.

`load` takes the record from any of them, in the order of `load_or_recover`, and `erase`
removes the file and its backup.  A store that was cut short, or could not clean up after
itself, leaves a temporary, and with it the record that a later `erase` reports as removed.

The path is not empty.  What the JSON library reads and prints is a parameter.

## Main definitions

* `fileExists`, `load`, `store`, `erase` — the source's functions.
* `Final` — what a successful `erase` owes until the next store.

## Main results

* `erase_final_iff` — the runs in which it does.
-/

namespace LuminalShine.CredStore.FileBackend

open LuminalShine.Lib LuminalShine.StateFile

/-! ## The backend -/

/-- `read_json` and `write_json` on texts; the printer takes the trees that are `writable`. -/
structure Json where
  read : List UInt8 → Option Ptree
  print : Ptree → List UInt8

/-- `exists` -/
def fileExists (d : Disk) : Bool := d.primary.isSome || d.bak.isSome

variable (json : Json)

/-- `load`, with the disk after it. -/
def load (calls : WriteCalls) (removeOk : Bool) (crash : Option ℕ) (d : Disk) :
    Option (List UInt8) × Disk :=
  let (snapshot, d) := d.loadOrRecover calls removeOk crash
  (snapshot.bind fun s => if s.tree.writable then some (json.print s.tree) else none, d)

/-- `store`: a blob that does not parse is refused, and a tree that JSON cannot hold is not
written out. -/
def store (version : ℕ) (blob : List UInt8) (calls : WriteCalls) (crash : Option ℕ) (d : Disk) :
    Bool × Disk :=
  match json.read blob with
  | none => (false, d)
  | some tree =>
      let calls := { calls with write := calls.write && tree.writable }
      ((writeOps ⟨version, tree⟩ calls).2, atomicWriteJson ⟨version, tree⟩ calls crash d)

/-- `erase`; a file that is not there is no failure. -/
def erase (removePrimary removeBak : Bool) (d : Disk) : Bool × Disk :=
  (removePrimary && removeBak,
    { d with
      primary := if removePrimary then none else d.primary
      bak := if removeBak then none else d.bak })

/-! ## Runs -/

/-- The disk, the number of the next write, and whether the last `erase` that returned `true`
has had no store after it. -/
structure Backend where
  disk : Disk
  next : ℕ
  erased : Bool

def Backend.init : Backend := ⟨⟨none, none, none, []⟩, 0, false⟩

inductive Call where
  | store (blob : List UInt8) (calls : WriteCalls) (crash : Option ℕ)
  | load (calls : WriteCalls) (removeOk : Bool) (crash : Option ℕ)
  | erase (removePrimary removeBak : Bool)

def step (s : Backend) : Call → Option Backend
  | .store blob calls crash =>
      some {
        disk := (store json s.next blob calls crash s.disk).2
        next := s.next + 1
        erased := s.erased && (json.read blob).isNone }
  | .load calls removeOk crash =>
      some { s with disk := (load json calls removeOk crash s.disk).2 }
  | .erase removePrimary removeBak =>
      let (done, disk) := erase removePrimary removeBak s.disk
      some { s with disk, erased := s.erased || done }

/-- After an `erase` that returned `true`, no record is found. -/
def Final (s : Backend) : Prop :=
  s.erased = true →
    fileExists s.disk = false ∧
      ∀ calls removeOk crash, (load json calls removeOk crash s.disk).1 = none

/-- An `erase` that returns `true` finds no temporary that parses. -/
def NoTempLeft (s : Backend) : Call → Prop
  | .erase removePrimary removeBak =>
      (erase removePrimary removeBak s.disk).1 = true → s.disk.readTemp = none
  | _ => True

/-! ## What is on the disk -/

/-- The snapshot is in one of the files a load can take it from. -/
def Stored (d : Disk) (snapshot : Snapshot) : Prop :=
  snapshot ∈ d.readPrimary ∨ snapshot ∈ d.readBak ∨
    ∃ temp ∈ d.temps, snapshot ∈ temp.content.read

/-- Whatever parses on the disk can be printed again. -/
def Printable (d : Disk) : Prop := ∀ snapshot, Stored d snapshot → snapshot.tree.writable = true

variable {json}

theorem Printable.outcome {d d' : Disk} {snapshot : Snapshot} {name : ℕ} {mirrors : Bool}
    (h : Printable d) (hd' : Outcome d snapshot name mirrors d')
    (hsnapshot : snapshot.tree.writable = true) : Printable d' := by
  intro found hfound
  rcases hfound with hprimary | hbak | ⟨temp, htemp, hread⟩
  · rcases hd'.readPrimary hprimary with hold | rfl
    · exact h found (Or.inl hold)
    · exact hsnapshot
  · rw [hd'.readBak] at hbak
    cases mirrors with
    | false => exact h found (Or.inr (Or.inl hbak))
    | true =>
        simp only [if_true, Option.mem_def, Option.some.injEq] at hbak
        exact hbak ▸ hsnapshot
  · rcases hd'.readTemps htemp hread with ⟨hold, hread⟩ | rfl
    · exact h found (Or.inr (Or.inr ⟨temp, hold, hread⟩))
    · exact hsnapshot

/-- A write that fails before its temporary is complete has the same operations for every
tree. -/
theorem writeOps_of_not_write {calls : WriteCalls} (h : calls.write = false)
    (snapshot snapshot' : Snapshot) : writeOps snapshot calls = writeOps snapshot' calls := by
  simp [writeOps, h]

theorem Printable.store {d : Disk} (h : Printable d) (version : ℕ) (blob : List UInt8)
    (calls : WriteCalls) (crash : Option ℕ) :
    Printable (store json version blob calls crash d).2 := by
  simp only [FileBackend.store]
  cases hread : json.read blob with
  | none => exact h
  | some tree =>
      cases htree : tree.writable with
      | true =>
          exact h.outcome ((leavesCut_writeOps d ⟨version, tree⟩ _).cut crash) htree
      | false =>
          have hfails : (calls.write && tree.writable) = false := by simp [htree]
          simp only [atomicWriteJson]
          rw [writeOps_of_not_write hfails _ ⟨version, Ptree.empty⟩]
          exact h.outcome ((leavesCut_writeOps d ⟨version, Ptree.empty⟩ _).cut crash)
            Ptree.writable_empty

theorem stored_of_holds {d : Disk} {snapshot : Snapshot} (h : d.Holds snapshot) :
    Stored d snapshot := by
  rcases h with htemp | hbak
  · exact Or.inr (Or.inr htemp)
  · exact Or.inr (Or.inl hbak)

theorem Printable.load {d : Disk} (h : Printable d) (calls : WriteCalls) (removeOk : Bool)
    (crash : Option ℕ) : Printable (load json calls removeOk crash d).2 := by
  simp only [FileBackend.load, Disk.loadOrRecover]
  cases hprimary : d.readPrimary with
  | some snapshot => exact h
  | none =>
      cases hrecovery : d.recovery calls removeOk with
      | none => exact h
      | some taken =>
          have hstored := stored_of_holds (recovery_holds hrecovery)
          exact h.outcome ((leavesCut_recovery d taken.1 calls hrecovery).cut crash)
            (h _ hstored)

theorem Printable.erase {d : Disk} (h : Printable d) (removePrimary removeBak : Bool) :
    Printable (erase removePrimary removeBak d).2 := by
  intro found hfound
  refine h found ?_
  rcases hfound with hprimary | hbak | htemp
  · cases removePrimary with
    | true => simp [FileBackend.erase, Disk.readPrimary] at hprimary
    | false => exact Or.inl hprimary
  · cases removeBak with
    | true => simp [FileBackend.erase, Disk.readBak] at hbak
    | false => exact Or.inr (Or.inl hbak)
  · exact Or.inr (Or.inr htemp)

/-! ## Nothing is left -/


/-- No file a load can take a record from. -/
structure Cleared (d : Disk) : Prop where
  primary : d.primary = none
  bak : d.bak = none
  temps : d.readTemp = none

theorem Cleared.loadOrRecover {d : Disk} (h : Cleared d) (calls : WriteCalls) (removeOk : Bool)
    (crash : Option ℕ) : d.loadOrRecover calls removeOk crash = (none, d) := by
  simp [Disk.loadOrRecover, Disk.recovery, Disk.readPrimary, Disk.readBak, h.primary, h.bak,
    h.temps]

/-- Between two calls. -/
structure Inv (s : Backend) : Prop where
  cleared : s.erased = true → Cleared s.disk
  printable : Printable s.disk

theorem inv_init : Inv Backend.init where
  cleared := by simp [Backend.init]
  printable := by
    intro found hfound
    simp [Backend.init, Stored, Disk.readPrimary, Disk.readBak] at hfound

theorem Inv.final {s : Backend} (h : Inv s) : Final json s := by
  intro herased
  have hcleared := h.cleared herased
  refine ⟨by simp [fileExists, hcleared.primary, hcleared.bak], ?_⟩
  intro calls removeOk crash
  simp [load, hcleared.loadOrRecover]

theorem Inv.step {s s' : Backend} {c : Call} (h : Inv s) (hguard : NoTempLeft s c)
    (hs : step json s c = some s') : Inv s' := by
  cases c with
  | store blob calls crash =>
      cases hs
      refine ⟨?_, h.printable.store s.next blob calls crash⟩
      intro herased
      simp only [Bool.and_eq_true, Option.isNone_iff_eq_none] at herased
      simp only [store, herased.2]
      exact h.cleared herased.1
  | load calls removeOk crash =>
      cases hs
      have hprintable : Printable (load json calls removeOk crash s.disk).2 :=
        h.printable.load calls removeOk crash
      refine ⟨?_, hprintable⟩
      intro herased
      have hcleared := h.cleared herased
      simp only [load, hcleared.loadOrRecover]
      exact hcleared
  | erase removePrimary removeBak =>
      cases hs
      refine ⟨?_, h.printable.erase removePrimary removeBak⟩
      intro herased
      simp only [Bool.or_eq_true] at herased
      rcases herased with herased | hdone
      · have hcleared := h.cleared herased
        exact ⟨by simp [hcleared.primary], by simp [hcleared.bak], hcleared.temps⟩
      · have htemps := hguard hdone
        simp only [Bool.and_eq_true] at hdone
        exact ⟨by simp [hdone.1], by simp [hdone.2], htemps⟩

/-- A temporary that parses comes back with the next load. -/
theorem Inv.not_final {s s' : Backend} {c : Call} (h : Inv s) (hguard : ¬ NoTempLeft s c)
    (hs : FileBackend.step json s c = some s') : ¬ Final json s' := by
  cases c with
  | store blob calls crash => exact absurd trivial hguard
  | load calls removeOk crash => exact absurd trivial hguard
  | erase removePrimary removeBak =>
      cases hs
      simp only [NoTempLeft, Classical.not_imp] at hguard
      rcases hguard with ⟨hdone, htemps⟩
      rcases Option.ne_none_iff_exists'.mp htemps with ⟨⟨name, snapshot⟩, htemp⟩
      have hwritable := h.printable snapshot (Or.inr (Or.inr (readTemp_mem htemp)))
      have hboth : removePrimary = true ∧ removeBak = true := by simpa [erase] using hdone
      let left : Disk := { s.disk with primary := none, bak := none }
      have hread : left.readTemp = some (name, snapshot) := htemp
      have hload : (left.loadOrRecover (.succeed 0) true none).1 = some snapshot := by
        rw [loadOrRecover_fst, hread]
        simp [left, Disk.readPrimary]
      intro hfinal
      have hnone := (hfinal (by simp [hboth])).2 (.succeed 0) true none
      simp only [hboth, if_true] at hnone
      change (load json (.succeed 0) true none left).1 = none at hnone
      simp [load, hload, hwritable] at hnone

/-- **When erasing is final.**  Whatever stores, loads, crashes and recoveries there were, a
record that was erased stays away until the next store exactly when every `erase` that returned
`true` found no temporary with a record in it. -/
theorem erase_final_iff (json : Json) (calls : List Call) :
    Always (step json) (Final json) Backend.init calls ↔
      RunMeets (step json) NoTempLeft Backend.init calls := by
  have htotal : ∀ s c, ∃ s', step json s c = some s' := by
    intro s c
    cases c <;> exact ⟨_, rfl⟩
  obtain ⟨s, hrun⟩ := exists_run htotal Backend.init calls
  exact always_iff_runMeets (fun _ h => h.final) (fun _ _ _ h hguard hs => h.step hguard hs)
    (fun _ _ _ h hguard hs => h.not_final hguard hs) inv_init hrun

/-- A store that is cut after its temporary, and then an `erase`. -/
def interruptedThenErased : List Call :=
  [.store [1] (.succeed 0) (some 2), .erase true true]

/-- Every text is an object with a user name. -/
def oneUser : Json where
  read _ := some (.node "" [("username", .leaf "admin")])
  print _ := [2]

/-- The record comes back. -/
theorem erase_not_final :
    ¬ Always (step oneUser) (Final oneUser) Backend.init interruptedThenErased := by
  intro halways
  have hfinal := halways 2 _ rfl
  have hload := (hfinal rfl).2 (.succeed 1) true none
  revert hload
  decide

end LuminalShine.CredStore.FileBackend
