import LuminalShine.Changelog.Acks
import LuminalShine.Changelog.Size
import LuminalShine.StateFile.Disk

/-!
# The changelog on the disk

`load` and `acknowledge` on the files beside the changelog's path, which is not empty.  The
operations on the files may fail.

## Main definitions

* `readState`, `load`, `acknowledge` — the source's functions on the disk.
* `held` — what the acknowledgements of a user come to.
* `Kept` — the files hold a book that agrees with the acknowledgements so far.
* `Outcome` — what one call of `acknowledge` does.

## Main results

* `Kept.load` — what each user loads.
* `Kept.outcome` — the outcome of an acknowledgement.
-/

namespace LuminalShine.Changelog

open LuminalShine.Lib StateFile

/-! ## The functions on the disk -/

/-- `file_size` -/
def fileSize : Content → ℕ
  | .corrupt size => size
  | .intact snapshot => snapshot.tree.prettySize

/-- A candidate that is there is larger than what is read. -/
def tooLarge (file : Option Content) : Bool :=
  match file with
  | none => false
  | some content => maxStateBytes < fileSize content

/-- The calls that recover a tree and restore the file of it. -/
structure Recovery where
  write : WriteCalls
  remove : Bool

/-- `read_state` -/
def readState (d : Disk) (recovery : Recovery) : Except Error Ptree × Disk :=
  if tooLarge d.primary || tooLarge d.bak then
    (.error (.runtimeError "Changelog state exceeds size limit"), d)
  else
    match d.loadOrRecover recovery.write recovery.remove none with
    | (none, d) =>
        if d.primary.isSome || d.bak.isSome then
          (.error (.runtimeError "Changelog state could not be recovered"), d)
        else (.ok .empty, d)
    | (some snapshot, d) =>
        match snapshot.tree.find? "users" with
        | none => (.ok snapshot.tree, d)
        | some users =>
            if maxUsers < users.children.length then
              (.error (.runtimeError "Changelog state exceeds user limit"), d)
            else (.ok snapshot.tree, d)

def load (d : Disk) (username : String) (recovery : Recovery) : Except Error UserState × Disk :=
  match userKey username with
  | .error e => (.error e, d)
  | .ok key =>
      match readState d recovery with
      | (.error e, d) => (.error e, d)
      | (.ok tree, d) => (loadTree tree key, d)

/-- A call of `acknowledge`, and what the operations on files do during it. -/
structure Call where
  username : String
  version : String
  installed : Bool
  recovery : Recovery
  write : WriteCalls

/-- `acknowledge`; `number` is that of its write. -/
def acknowledge (d : Disk) (number : ℕ) (call : Call) : Except Error UserState × Disk :=
  if !validVersion call.version then
    (.error (.invalidArgument "Invalid changelog version"), d)
  else
    match userKey call.username with
    | .error e => (.error e, d)
    | .ok key =>
        match readState d call.recovery with
        | (.error e, d) => (.error e, d)
        | (.ok tree, d) =>
            match acknowledgeTree tree key call.version call.installed with
            | .error e => (.error e, d)
            | .ok (state, none) => (.ok state, d)
            | .ok (state, some tree) =>
                let d' := atomicWriteJson ⟨number, tree⟩ call.write none d
                if (writeOps ⟨number, tree⟩ call.write).2 then (.ok state, d')
                else (.error (.runtimeError "Could not save changelog state"), d')

/-! ## A write that returns -/

/-- A temporary that was written out and could not take its place is removed. -/
def Clears (calls : WriteCalls) : Prop :=
  calls.makeDir = true → calls.write = true → calls.rename = false → calls.removeTemp = true

section

variable {d : Disk} {snapshot : Snapshot} {calls : WriteCalls}

/-- The operations of a write that failed: none, a torn temporary, or a whole one. -/
theorem writeOps_of_failed (h : (writeOps snapshot calls).2 = false) :
    (writeOps snapshot calls).1 = [] ∨
      (∃ cleanup ∈ [[], [Op.removeTemp calls.name]], (writeOps snapshot calls).1 =
        .writeTemp ⟨calls.name, calls.mtime, .corrupt 0⟩ :: cleanup) ∨
      ∃ cleanup ∈ [[], [Op.removeTemp calls.name]], (writeOps snapshot calls).1 =
        tempOps snapshot calls ++ Op.flush :: cleanup ∧
          (Clears calls → cleanup = [Op.removeTemp calls.name]) := by
  unfold writeOps at h ⊢
  dsimp only at h ⊢
  cases hdir : calls.makeDir with
  | false => exact .inl rfl
  | true =>
      cases hwrite : calls.write with
      | false =>
          refine .inr (.inl ⟨if calls.removeTemp then [.removeTemp calls.name] else [], ?_, rfl⟩)
          cases calls.removeTemp <;> simp
      | true =>
          cases hrename : calls.rename with
          | false =>
              refine .inr (.inr ⟨if calls.removeTemp then [.removeTemp calls.name] else [], ?_,
                rfl, ?_⟩)
              · cases calls.removeTemp <;> simp
              · intro hclears
                rw [if_pos (hclears hdir hwrite hrename)]
          | true =>
              rw [hdir, hwrite, hrename] at h
              cases h

theorem disk_of_failed (h : (writeOps snapshot calls).2 = false) :
    ∃ temps, atomicWriteJson snapshot calls none d = { d with temps } ∧
      (Clears calls → ∀ temp ∈ temps, temp ∈ d.temps ∨ temp.content.read = none) := by
  rcases writeOps_of_failed h with hops | ⟨cleanup, hmem, hops⟩ | ⟨cleanup, hmem, hops, hclears⟩
  · exact ⟨d.temps, by rw [atomicWriteJson, StateFile.cut, hops]; rfl, fun _ _ => .inl⟩
  · rw [atomicWriteJson, StateFile.cut, hops]
    simp only [List.mem_cons, List.not_mem_nil, or_false] at hmem
    rcases hmem with rfl | rfl
    · refine ⟨_, rfl, ?_⟩
      intro _ temp htemp
      rcases List.mem_append.mp htemp with hold | hnew
      · exact .inl (Disk.mem_of_mem_others hold)
      · rw [List.mem_singleton.mp hnew]
        exact .inr rfl
    · exact ⟨_, exec_removeTemp_writeTemp d calls.name calls.mtime _,
        fun _ _ htemp => .inl (Disk.mem_of_mem_others htemp)⟩
  · rw [atomicWriteJson, StateFile.cut, hops, execute_tempOps]
    simp only [List.mem_cons, List.not_mem_nil, or_false] at hmem
    rcases hmem with rfl | rfl
    · refine ⟨_, rfl, ?_⟩
      intro hclear
      exact absurd (hclears hclear) (List.cons_ne_nil _ _).symm
    · exact ⟨_, exec_removeTemp_writeTemp d calls.name calls.mtime _,
        fun _ _ htemp => .inl (Disk.mem_of_mem_others htemp)⟩

/-- A write that succeeded has replaced the file, and perhaps the backup. -/
theorem files_of_written (h : (writeOps snapshot calls).2 = true) :
    (atomicWriteJson snapshot calls none d).primary = some (.intact snapshot) ∧
      ((atomicWriteJson snapshot calls none d).bak = d.bak ∨
        (atomicWriteJson snapshot calls none d).bak = some (.intact snapshot)) := by
  have hops : (writeOps snapshot calls).1 = renamedOps snapshot calls ++ backupOps calls := by
    unfold writeOps at h ⊢
    dsimp only at h ⊢
    cases hdir : calls.makeDir with
    | false =>
        rw [hdir] at h
        cases h
    | true =>
        cases hwrite : calls.write with
        | false =>
            rw [hdir, hwrite] at h
            cases h
        | true =>
            cases hrename : calls.rename with
            | false =>
                rw [hdir, hwrite, hrename] at h
                cases h
            | true => rfl
  rw [atomicWriteJson, StateFile.cut, hops, execute_renamed]
  unfold backupOps
  split
  · exact ⟨rfl, .inl rfl⟩
  · split
    · exact ⟨rfl, .inl rfl⟩
    · exact ⟨rfl, .inr rfl⟩

end

/-! ## What a log comes to -/

/-- An acknowledgement that returned. -/
structure Ack where
  key : String
  version : String
  installed : Bool

def installedBy (log : List Ack) (key : String) : List String :=
  (log.filter fun ack => ack.key = key ∧ ack.installed = true).map (·.version)

def dismissedBy (log : List Ack) (key : String) : List String :=
  (log.filter fun ack => ack.key = key ∧ ack.installed = false).map (·.version)

/-- The versions that are remembered, and the last one that was dismissed. -/
def held (log : List Ack) (key : String) : UserState :=
  ⟨remembered maxSeenVersions (installedBy log key), (dismissedBy log key).getLastD ""⟩

theorem held_concat (log : List Ack) (ack : Ack) (key : String) :
    held (log ++ [ack]) key =
      if ack.key = key then (held log key).next ack.version ack.installed else held log key := by
  by_cases hkey : ack.key = key
  · rw [if_pos hkey]
    cases hinstalled : ack.installed with
    | true =>
        simp [held, installedBy, dismissedBy, UserState.next, List.filter_append, hkey,
          hinstalled]
    | false =>
        simp [held, installedBy, dismissedBy, UserState.next, List.filter_append, hkey,
          hinstalled]
  · rw [if_neg hkey]
    simp [held, installedBy, dismissedBy, List.filter_append, hkey]

/-- Twice in a row is once. -/
theorem acknowledge_next (state : UserState) (version : String) (installed : Bool) :
    (state.next version installed).acknowledge version installed = none := by
  cases installed with
  | true => exact if_pos (mem_remember (by decide) state.seenInstalledVersions version)
  | false => exact if_pos rfl

/-! ## What is on the disk -/

theorem loadTree_encode {book : Book} (h : book.Valid) (key : String) :
    loadTree (encode book) key = .ok (book.get key) := by
  simp only [loadTree, find?_encode, Ptree.children_node, findEntry_encodeUsers]
  cases hlookup : book.lookup key with
  | none =>
      rw [Book.get_of_none hlookup]
      rfl
  | some state =>
      have hstate := h.get key
      rw [Book.get_of_lookup hlookup] at hstate ⊢
      exact decode_encodeUser hstate

/-- The file holds a book that agrees with the log, or nothing was written yet. -/
inductive Kept (d : Disk) (log : List Ack) : Prop
  | fresh (hprimary : d.primary = none) (hbak : d.bak = none)
    (htemps : ∀ temp ∈ d.temps, temp.content.read = none) (hheld : ∀ key, held log key = .new)
  | stored {number : ℕ} {book : Book}
    (hprimary : d.primary = some (.intact ⟨number, encode book⟩))
    (hbak : tooLarge d.bak = false) (hbook : book.Valid)
    (hheld : ∀ key, book.get key = held log key)
    (husers : ∀ user ∈ book, ∃ ack ∈ log, ack.key = user.1)

theorem tooLarge_encode {book : Book} (h : book.Valid) (number : ℕ) :
    tooLarge (some (.intact ⟨number, encode book⟩)) = false :=
  decide_eq_false (Nat.not_lt.mpr (prettySize_encode_le h))

theorem readTemp_eq_none {d : Disk} (h : ∀ temp ∈ d.temps, temp.content.read = none) :
    d.readTemp = none := by
  rw [Disk.readTemp, List.findSome?_eq_none_iff]
  intro temp hmem
  rw [h temp ((List.mem_insertionSort _).mp hmem)]
  rfl

/-- A tree is read that is the one of a book, or none was written yet. -/
theorem Kept.read {d : Disk} {log : List Ack} (h : Kept d log) (recovery : Recovery) :
    ∃ (tree : Ptree) (book : Book), readState d recovery = (.ok tree, d) ∧ book.Valid ∧
      (∀ key, book.get key = held log key) ∧ (∀ user ∈ book, ∃ ack ∈ log, ack.key = user.1) ∧
      (tree = .empty ∧ book = [] ∨ tree = encode book) := by
  cases h with
  | fresh hprimary hbak htemps hheld =>
      refine ⟨.empty, [], ?_, ⟨Nat.zero_le _, by simp, by simp⟩, fun key => (hheld key).symm,
        by simp, .inl ⟨rfl, rfl⟩⟩
      simp [readState, tooLarge, hprimary, hbak, Disk.loadOrRecover, Disk.readPrimary,
        Disk.recovery, readTemp_eq_none htemps, Disk.readBak]
  | @stored number book hprimary hbak hbook hheld husers =>
      refine ⟨encode book, book, ?_, hbook, hheld, husers, .inr rfl⟩
      have hlength : ¬maxUsers < book.length := Nat.not_lt.mpr hbook.length
      simp [readState, hprimary, tooLarge_encode hbook, hbak, Disk.loadOrRecover,
        Disk.readPrimary, Content.read, find?_encode, length_encodeUsers, hlength]

theorem Kept.load {d : Disk} {log : List Ack} (h : Kept d log) {username key : String}
    (hkey : userKey username = .ok key) (recovery : Recovery) :
    load d username recovery = (.ok (held log key), d) := by
  rcases h.read recovery with ⟨tree, book, hread, hbook, hheld, -, htree⟩
  have hload : loadTree tree key = .ok (held log key) := by
    rw [← hheld]
    rcases htree with ⟨rfl, rfl⟩ | rfl
    · rfl
    · exact loadTree_encode hbook key
  simp only [Changelog.load, hkey, hread, hload]

/-- What one call of `acknowledge` does. -/
inductive Outcome (d : Disk) (log : List Ack) (call : Call) : Except Error UserState × Disk → Prop
  | refused (e : Error) : Outcome d log call (.error e, d)
  | same {key : String} (hkey : userKey call.username = .ok key)
    (hsame : (held log key).next call.version call.installed = held log key) :
    Outcome d log call (.ok (held log key), d)
  | failed (e : Error) {temps : List Temp}
    (htemps : Clears call.write → ∀ temp ∈ temps, temp ∈ d.temps ∨ temp.content.read = none) :
    Outcome d log call (.error e, { d with temps })
  | written {key : String} {number : ℕ} {book : Book} {d' : Disk}
    (hkey : userKey call.username = .ok key)
    (hprimary : d'.primary = some (.intact ⟨number, encode book⟩))
    (hbak : tooLarge d'.bak = false) (hbook : book.Valid)
    (hheld : ∀ k, book.get k = if key = k then (held log k).next call.version call.installed
      else held log k)
    (husers : ∀ user ∈ book, user.1 = key ∨ ∃ ack ∈ log, ack.key = user.1) :
    Outcome d log call (.ok ((held log key).next call.version call.installed), d')

theorem Kept.bak {d : Disk} {log : List Ack} (h : Kept d log) : tooLarge d.bak = false := by
  cases h with
  | fresh hprimary hbak htemps hheld =>
      rw [hbak]
      rfl
  | stored hprimary hbak hbook hheld husers => exact hbak

/-- The part of `acknowledge` behind its read. -/
theorem outcome_write {d : Disk} {log : List Ack} (h : Kept d log) (number : ℕ) {call : Call}
    {key : String} (hkey : userKey call.username = .ok key)
    (hversion : validVersion call.version = true) {book : Book} (hbook : book.Valid)
    (hheld : ∀ key, book.get key = held log key)
    (husers : ∀ user ∈ book, ∃ ack ∈ log, ack.key = user.1)
    (hroom : book.lookup key = none → book.length < maxUsers) :
    Outcome d log call
      (let snapshot : Snapshot := ⟨number, encode (book.put key
        ((held log key).next call.version call.installed))⟩
      let d' := atomicWriteJson snapshot call.write none d
      if (writeOps snapshot call.write).2 then
        (.ok ((held log key).next call.version call.installed), d')
      else (.error (.runtimeError "Could not save changelog state"), d')) := by
  have hstate : ((held log key).next call.version call.installed).Valid := by
    rw [← hheld]
    exact (hbook.get key).next hversion call.installed
  have hput := hbook.put (byteSize_userKey hkey) hstate hroom
  dsimp only
  split
  · case isTrue hok =>
      have hfiles := files_of_written (d := d) hok
      refine .written hkey hfiles.1 ?_ hput (fun k => ?_) fun user hmem => ?_
      · rcases hfiles.2 with hbak | hbak
        · rw [hbak]
          exact h.bak
        · rw [hbak]
          exact tooLarge_encode hput number
      · by_cases hk : key = k
        · subst hk
          rw [if_pos rfl, Book.get_put_self]
        · rw [if_neg hk, Book.get_put_ne (Ne.symm hk), hheld]
      · rcases Book.mem_put hmem with hmem | rfl
        · exact .inr (husers user hmem)
        · exact .inl rfl
  · case isFalse hfailed =>
      rcases disk_of_failed (d := d) (Bool.eq_false_iff.mpr hfailed) with ⟨temps, hdisk, htemps⟩
      rw [hdisk]
      exact .failed _ htemps

theorem Kept.outcome {d : Disk} {log : List Ack} (h : Kept d log) (number : ℕ) (call : Call) :
    Outcome d log call (acknowledge d number call) := by
  unfold acknowledge
  split
  · exact .refused _
  · case isFalse hversion =>
      rw [Bool.not_eq_true, Bool.not_eq_false'] at hversion
      cases hkey : userKey call.username with
      | error e => exact .refused e
      | ok key =>
          rcases h.read call.recovery with ⟨tree, book, hread, hbook, hheld, husers, htree⟩
          have hack : acknowledgeTree tree key call.version call.installed =
              acknowledgeTree (encode book) key call.version call.installed := by
            rcases htree with ⟨rfl, rfl⟩ | rfl
            · exact acknowledgeTree_empty key call.version call.installed
            · rfl
          simp only [hread, hack]
          by_cases hroom : book.lookup key = none → book.length < maxUsers
          · rw [acknowledgeTree_encode hbook hroom, hheld]
            have hstate := hbook.get key
            rw [hheld] at hstate
            rcases acknowledge_cases hstate call.version call.installed with
              ⟨hnone, hsame⟩ | hsome
            · rw [hnone]
              exact .same hkey hsame
            · rw [hsome]
              exact outcome_write h number hkey hversion hbook hheld husers hroom
          · rw [Classical.not_imp, Nat.not_lt] at hroom
            rw [acknowledgeTree_full hroom.1 hroom.2]
            exact .refused _

end LuminalShine.Changelog
