import LuminalShine.Changelog.Disk
import LuminalShine.Lib.Run

/-!
# Runs of the changelog

Calls of `load` and `acknowledge` by any users, one after the other.

A version that was dropped from memory is new again when it comes back.  A write that leaves its
temporary is recovered as long as there is no file.

## Main definitions

* `Label`, `step` — the calls.
* `Tidy` — before there is a file, no failed write leaves a temporary that a recovery would take.
* `Sound` — what holds of the files, of the next load and of the next acknowledgement.

## Main results

* `kept_run` — the files agree with the acknowledgements after every tidy run.
* `sound_of_run` — every tidy run is sound.
-/

namespace LuminalShine.Changelog

open LuminalShine.Lib StateFile

/-! ## Runs -/

/-- The files, the number of calls so far, and the acknowledgements that returned. -/
structure Store where
  disk : Disk
  writes : ℕ
  log : List Ack

namespace Store

/-- No file was written yet. -/
def init : Store := ⟨⟨none, none, none, []⟩, 0, []⟩

end Store

inductive Label where
  | load (username : String) (recovery : Recovery)
  | acknowledge (call : Call)

/-- The log after a call. -/
def logAfter (log : List Ack) (call : Call) (result : Except Error UserState) : List Ack :=
  match result, userKey call.username with
  | .ok _, .ok key => log ++ [⟨key, call.version, call.installed⟩]
  | _, _ => log

theorem logAfter_ok {call : Call} {key : String} (hkey : userKey call.username = .ok key)
    (log : List Ack) (state : UserState) :
    logAfter log call (.ok state) = log ++ [⟨key, call.version, call.installed⟩] := by
  simp only [logAfter, hkey]

def step (s : Store) : Label → Option Store
  | .load username recovery =>
      some { s with disk := (load s.disk username recovery).2 }
  | .acknowledge call =>
      some {
        disk := (acknowledge s.disk s.writes call).2
        writes := s.writes + 1
        log := logAfter s.log call (acknowledge s.disk s.writes call).1 }

theorem exists_step (s : Store) (label : Label) : ∃ s', step s label = some s' := by
  cases label with
  | load username recovery => exact ⟨_, rfl⟩
  | acknowledge call => exact ⟨_, rfl⟩

/-- Before there is a file, a write that fails leaves nothing that a recovery would take. -/
def Tidy (s : Store) : Label → Prop
  | .load _ _ => True
  | .acknowledge call => s.disk.primary = none → Clears call.write

theorem Outcome.kept {d : Disk} {log : List Ack} {call : Call}
    {result : Except Error UserState × Disk} (h : Kept d log)
    (hout : Outcome d log call result)
    (hclears : ∀ e, result.1 = .error e → d.primary = none → Clears call.write) :
    Kept result.2 (logAfter log call result.1) := by
  cases hout with
  | refused e => exact h
  | @same key hkey hsame =>
      have hheld : ∀ k, held (logAfter log call (.ok (held log key))) k = held log k := by
        intro k
        rw [logAfter_ok hkey, held_concat]
        split
        · case isTrue heq =>
            dsimp only at heq
            subst heq
            exact hsame
        · rfl
      cases h with
      | fresh hprimary hbak htemps hnew =>
          exact .fresh hprimary hbak htemps fun k => (hheld k).trans (hnew k)
      | stored hprimary hbak hbook hget husers =>
          refine .stored hprimary hbak hbook (fun k => (hget k).trans (hheld k).symm) ?_
          intro user hmem
          rcases husers user hmem with ⟨ack, hack, heq⟩
          rw [logAfter_ok hkey]
          exact ⟨ack, List.mem_append_left _ hack, heq⟩
  | failed e htemps =>
      cases h with
      | fresh hprimary hbak hold hnew =>
          refine .fresh hprimary hbak (fun temp hmem => ?_) hnew
          rcases htemps (hclears e rfl hprimary) temp hmem with hmem | hread
          · exact hold temp hmem
          · exact hread
      | stored hprimary hbak hbook hget husers =>
          exact .stored hprimary hbak hbook hget husers
  | @written key number book d' hkey hprimary hbak hbook hget husers =>
      rw [logAfter_ok hkey]
      refine .stored hprimary hbak hbook (fun k => ?_) fun user hmem => ?_
      · rw [held_concat, hget]
      · rcases husers user hmem with heq | ⟨ack, hack, heq⟩
        · exact ⟨_, List.mem_append_right _ (List.mem_singleton_self _), heq.symm⟩
        · exact ⟨ack, List.mem_append_left _ hack, heq⟩

theorem Kept.step {s s' : Store} {label : Label} (h : Kept s.disk s.log) (htidy : Tidy s label)
    (hstep : step s label = some s') : Kept s'.disk s'.log := by
  cases label with
  | load username recovery =>
      simp only [Changelog.step, Option.some.injEq] at hstep
      subst hstep
      have hdisk : (Changelog.load s.disk username recovery).2 = s.disk := by
        cases hkey : userKey username with
        | error e => simp only [Changelog.load, hkey]
        | ok key => rw [h.load hkey]
      dsimp only
      rw [hdisk]
      exact h
  | acknowledge call =>
      simp only [Changelog.step, Option.some.injEq] at hstep
      subst hstep
      exact (h.outcome s.writes call).kept h fun _ _ => htidy

theorem kept_init : Kept Store.init.disk Store.init.log :=
  .fresh rfl rfl (by simp [Store.init]) fun _ => rfl

theorem kept_run {s : Store} {labels : List Label} (hmeets : RunMeets step Tidy .init labels)
    (hrun : run step .init labels = some s) : Kept s.disk s.log := by
  refine run_invariant_of_meets (P := fun s => Kept s.disk s.log) ?_ ?_ hmeets hrun
  · intro s label s' h htidy hstep
    exact h.step htidy hstep
  · exact kept_init

/-- What holds of the files, of the next load and of the next acknowledgement. -/
structure Sound (s : Store) : Prop where
  /-- Each user loads what their own acknowledgements come to. -/
  loads : ∀ {username key}, userKey username = .ok key → ∀ recovery,
    load s.disk username recovery = (.ok (held s.log key), s.disk)
  bounded : ∀ key, (held s.log key).seenInstalledVersions.length ≤ maxSeenVersions
  nodup : ∀ key, (held s.log key).seenInstalledVersions.Nodup
  /-- As long as no version comes back that was dropped. -/
  newest : ∀ key, NoReturn maxSeenVersions (installedBy s.log key) →
    (held s.log key).seenInstalledVersions =
      newest maxSeenVersions (firstSeen (installedBy s.log key))
  /-- An acknowledgement leaves the other users. -/
  others : ∀ {call username key}, Tidy s (.acknowledge call) → userKey username = .ok key →
    userKey call.username ≠ .ok key → ∀ recovery recovery',
      (load (acknowledge s.disk s.writes call).2 username recovery).1 =
        (load s.disk username recovery').1
  /-- The same acknowledgement once more changes nothing. -/
  twice : ∀ {call call' state} number, (acknowledge s.disk s.writes call).1 = .ok state →
    userKey call'.username = userKey call.username → call'.version = call.version →
      call'.installed = call.installed →
        acknowledge (acknowledge s.disk s.writes call).2 number call' =
          (.ok state, (acknowledge s.disk s.writes call).2)
  /-- One that throws leaves the file and the backup, and what every user loads. -/
  thrown : ∀ {call e}, (acknowledge s.disk s.writes call).1 = .error e →
    (acknowledge s.disk s.writes call).2.primary = s.disk.primary ∧
      (acknowledge s.disk s.writes call).2.bak = s.disk.bak ∧
        (Tidy s (.acknowledge call) → ∀ username recovery recovery',
          (load (acknowledge s.disk s.writes call).2 username recovery).1 =
            (load s.disk username recovery').1)
  /-- The files can be read back, within the reader's limits. -/
  readable : ∀ recovery, ∃ tree, readState s.disk recovery = (.ok tree, s.disk) ∧
    (tree.find? "users").elim 0 (·.children.length) ≤ maxUsers
  size : ∀ content, s.disk.primary = some content ∨ s.disk.bak = some content →
    fileSize content ≤ maxStateBytes

section

variable {d : Disk} {log : List Ack} {call : Call}

theorem load_of_error {username : String} {e : Error} (h : userKey username = .error e)
    (d : Disk) (recovery : Recovery) : load d username recovery = (.error e, d) := by
  simp only [load, h]

theorem held_logAfter_of_ne {key : String} (h : userKey call.username ≠ .ok key)
    (result : Except Error UserState) : held (logAfter log call result) key = held log key := by
  cases hkey : userKey call.username with
  | error e => cases result <;> simp only [logAfter, hkey]
  | ok key' =>
      cases result with
      | error e => simp only [logAfter]
      | ok state =>
          have hne : key' ≠ key := by
            rintro rfl
            exact h hkey
          rw [logAfter_ok hkey, held_concat, if_neg hne]

/-- What an acknowledgement returns is what the user then loads. -/
theorem Outcome.returned {result : Except Error UserState × Disk} {state : UserState}
    (hout : Outcome d log call result) (hok : result.1 = .ok state) :
    ∃ key, userKey call.username = .ok key ∧
      state = (held log key).next call.version call.installed := by
  cases hout with
  | refused e => cases hok
  | @same key hkey hsame =>
      cases hok
      exact ⟨key, hkey, hsame.symm⟩
  | failed e htemps => cases hok
  | @written key number book d' hkey hprimary hbak hbook hget husers =>
      cases hok
      exact ⟨key, hkey, rfl⟩

/-- After an acknowledgement, another user loads what they did before. -/
theorem load_acknowledge_of_ne {s : Store} (h : Kept s.disk s.log)
    (htidy : Tidy s (.acknowledge call)) {username key : String}
    (hkey : userKey username = .ok key) (hne : userKey call.username ≠ .ok key)
    (recovery recovery' : Recovery) :
    (load (acknowledge s.disk s.writes call).2 username recovery).1 =
      (load s.disk username recovery').1 := by
  have hkept := (h.outcome s.writes call).kept h fun _ _ => htidy
  rw [hkept.load hkey, h.load hkey, held_logAfter_of_ne hne]

theorem validVersion_of_ok {number : ℕ} {state : UserState}
    (hok : (acknowledge d number call).1 = .ok state) : validVersion call.version = true := by
  by_contra hversion
  rw [Bool.not_eq_true] at hversion
  rw [acknowledge, hversion] at hok
  cases hok

theorem new_acknowledge {version : String} (hversion : validVersion version = true)
    (installed : Bool) : UserState.new.acknowledge version installed ≠ none := by
  cases installed with
  | true => simp [UserState.acknowledge, UserState.new]
  | false =>
      have hne : version ≠ "" := by
        rintro rfl
        exact absurd hversion (by decide)
      simp [UserState.acknowledge, UserState.new, Ne.symm hne]

/-- An acknowledgement of what the user has acknowledged already. -/
theorem acknowledge_same (h : Kept d log) {key : String} (hkey : userKey call.username = .ok key)
    (hversion : validVersion call.version = true)
    (hnone : (held log key).acknowledge call.version call.installed = none) (number : ℕ) :
    acknowledge d number call = (.ok (held log key), d) := by
  rcases h.read call.recovery with ⟨tree, book, hread, hbook, hheld, -, htree⟩
  have hack : acknowledgeTree tree key call.version call.installed =
      acknowledgeTree (encode book) key call.version call.installed := by
    rcases htree with ⟨rfl, rfl⟩ | rfl
    · exact acknowledgeTree_empty key call.version call.installed
    · rfl
  have hroom : book.lookup key = none → book.length < maxUsers := by
    intro hlookup
    rw [← hheld, Book.get_of_none hlookup] at hnone
    exact absurd hnone (new_acknowledge hversion call.installed)
  rw [acknowledgeTree_encode hbook hroom, hheld, hnone] at hack
  simp only [acknowledge, hversion, hkey, hread, hack]
  rfl

theorem acknowledge_twice {s : Store} (h : Kept s.disk s.log) {call' : Call} {state : UserState}
    (number : ℕ) (hok : (acknowledge s.disk s.writes call).1 = .ok state)
    (husername : userKey call'.username = userKey call.username)
    (hversion : call'.version = call.version) (hinstalled : call'.installed = call.installed) :
    acknowledge (acknowledge s.disk s.writes call).2 number call' =
      (.ok state, (acknowledge s.disk s.writes call).2) := by
  have hout := h.outcome s.writes call
  have hkept : Kept (acknowledge s.disk s.writes call).2 (logAfter s.log call (.ok state)) := by
    rw [← hok]
    refine hout.kept h fun e he => ?_
    rw [hok] at he
    cases he
  rcases hout.returned hok with ⟨key, hkey, hstate⟩
  have hheld : held (logAfter s.log call (.ok state)) key = state := by
    rw [logAfter_ok hkey, held_concat, if_pos rfl, hstate]
  have hvalid : validVersion call'.version = true := by
    rw [hversion]
    exact validVersion_of_ok hok
  have hnone : (held (logAfter s.log call (.ok state)) key).acknowledge call'.version
      call'.installed = none := by
    rw [hheld, hstate, hversion, hinstalled]
    exact acknowledge_next _ _ _
  rw [acknowledge_same hkept (husername.trans hkey) hvalid hnone number, hheld]

theorem thrown_files {s : Store} (h : Kept s.disk s.log) {e : Error}
    (hthrown : (acknowledge s.disk s.writes call).1 = .error e) :
    (acknowledge s.disk s.writes call).2.primary = s.disk.primary ∧
      (acknowledge s.disk s.writes call).2.bak = s.disk.bak := by
  have hout := h.outcome s.writes call
  revert hthrown hout
  generalize acknowledge s.disk s.writes call = result
  intro hthrown hout
  cases hout with
  | refused e => exact ⟨rfl, rfl⟩
  | same hkey hsame => cases hthrown
  | failed e htemps => exact ⟨rfl, rfl⟩
  | written hkey hprimary hbak hbook hget husers => cases hthrown

theorem Kept.readable {d : Disk} {log : List Ack} (h : Kept d log) (recovery : Recovery) :
    ∃ tree, readState d recovery = (.ok tree, d) ∧
      (tree.find? "users").elim 0 (·.children.length) ≤ maxUsers := by
  rcases h.read recovery with ⟨tree, book, hread, hbook, -, -, htree⟩
  refine ⟨tree, hread, ?_⟩
  rcases htree with ⟨rfl, rfl⟩ | rfl
  · exact Nat.zero_le _
  · rw [find?_encode, Option.elim_some, Ptree.children_node, length_encodeUsers]
    exact hbook.length

theorem fileSize_le_of_tooLarge {content : Content} (h : tooLarge (some content) = false) :
    fileSize content ≤ maxStateBytes :=
  Nat.not_lt.mp (of_decide_eq_false h)

theorem Kept.size {d : Disk} {log : List Ack} (h : Kept d log) {content : Content}
    (hcontent : d.primary = some content ∨ d.bak = some content) :
    fileSize content ≤ maxStateBytes := by
  have hprimary : tooLarge d.primary = false := by
    cases h with
    | fresh hprimary hbak htemps hnew =>
        rw [hprimary]
        rfl
    | stored hprimary hbak hbook hget husers =>
        rw [hprimary]
        exact tooLarge_encode hbook _
  rcases hcontent with heq | heq
  · rw [heq] at hprimary
    exact fileSize_le_of_tooLarge hprimary
  · have hbak := h.bak
    rw [heq] at hbak
    exact fileSize_le_of_tooLarge hbak

theorem Kept.sound {s : Store} (h : Kept s.disk s.log) : Sound s where
  loads hkey recovery := h.load hkey recovery
  bounded key := length_remembered_le _ _
  nodup key := nodup_remembered _ _
  newest key hreturn := remembered_eq_newest hreturn
  others htidy hkey hne recovery recovery' :=
    load_acknowledge_of_ne h htidy hkey hne recovery recovery'
  twice number hok husername hversion hinstalled :=
    acknowledge_twice h number hok husername hversion hinstalled
  thrown := by
    intro call e hthrown
    have hfiles := thrown_files h hthrown
    refine ⟨hfiles.1, hfiles.2, fun htidy username recovery recovery' => ?_⟩
    have hkept := (h.outcome s.writes call).kept h fun _ _ => htidy
    rw [hthrown] at hkept
    cases hkey : userKey username with
    | error e => rw [load_of_error hkey, load_of_error hkey]
    | ok key => rw [hkept.load hkey, h.load hkey]; rfl
  readable recovery := h.readable recovery
  size content hcontent := h.size hcontent

end

/-- Calls that go through. -/
def Recovery.works : Recovery := ⟨.succeed 0, true⟩

/-- The user `a` acknowledges an installed version. -/
def install (version : String) (write : WriteCalls) : Call := ⟨"a", version, true, .works, write⟩

theorem clears_succeed (name : ℕ) : Clears (.succeed name) := by
  intro _ _ hrename
  cases hrename

theorem userKey_install (version : String) (write : WriteCalls) :
    userKey (install version write).username = .ok "a" := by
  have hsize : ¬("a" = "" ∨ 256 < byteSize "a") := by decide
  have hlower : String.ofList ("a".toList.map Char.toLower) = "a" := by decide
  change userKey "a" = .ok "a"
  rw [userKey, if_neg hsize, hlower]

/-- In every run that leaves no readable temporary before there is a file, the changelog is
what was acknowledged. -/
theorem sound_of_run {s : Store} {labels : List Label}
    (hmeets : RunMeets step Tidy .init labels) (hrun : run step .init labels = some s) :
    Sound s :=
  (kept_run hmeets hrun).sound

theorem sound_of_run_installed : ∃ s,
    run step .init [.acknowledge (install "26.10.0" (.succeed 0)), .load "A" .works] = some s ∧
      Sound s := by
  have hmeets : RunMeets step Tidy .init
      [.acknowledge (install "26.10.0" (.succeed 0)), .load "A" .works] :=
    ⟨fun _ => clears_succeed 0, fun _ _ => ⟨trivial, fun _ _ => trivial⟩⟩
  rcases exists_run exists_step .init
    [.acknowledge (install "26.10.0" (.succeed 0)), .load "A" .works] with ⟨s, hrun⟩
  exact ⟨s, hrun, sound_of_run hmeets hrun⟩

/-! ## Versions that come back, and writes that are left over -/

/-- With room for the user, and a write that goes through. -/
theorem Kept.acknowledge_ok {d : Disk} {log : List Ack} {call : Call} (h : Kept d log)
    (number : ℕ) {key : String}
    (hkey : userKey call.username = .ok key) (hversion : validVersion call.version = true)
    (hroom : ∀ book : Book, (∀ user ∈ book, ∃ ack ∈ log, ack.key = user.1) →
      book.lookup key = none → book.length < maxUsers)
    (hwrite : ∀ snapshot, (writeOps snapshot call.write).2 = true) :
    ∃ state, (acknowledge d number call).1 = .ok state := by
  rcases h.read call.recovery with ⟨tree, book, hread, hbook, -, husers, htree⟩
  have hack : acknowledgeTree tree key call.version call.installed =
      acknowledgeTree (encode book) key call.version call.installed := by
    rcases htree with ⟨rfl, rfl⟩ | rfl
    · exact acknowledgeTree_empty key call.version call.installed
    · rfl
  rw [acknowledgeTree_encode hbook (hroom book husers)] at hack
  simp only [acknowledge, hversion, hkey, hread, hack]
  cases (book.get key).acknowledge call.version call.installed with
  | none => exact ⟨_, rfl⟩
  | some state => exact ⟨state, by simp [hwrite]⟩

theorem room_of_one {log : List Ack} {key : String} (hlog : ∀ ack ∈ log, ack.key = key)
    (book : Book) (husers : ∀ user ∈ book, ∃ ack ∈ log, ack.key = user.1)
    (hnone : book.lookup key = none) : book.length < maxUsers := by
  cases book with
  | nil => decide
  | cons user book =>
      rcases husers user List.mem_cons_self with ⟨ack, hack, heq⟩
      rcases user with ⟨k, state⟩
      rw [hlog ack hack] at heq
      subst heq
      rw [List.lookup_cons_self] at hnone
      cases hnone

/-- The acknowledgements of one user by writes that go through. -/
theorem run_installs {versions : List String}
    (hvalid : ∀ version ∈ versions, validVersion version = true) {s : Store}
    (hkept : Kept s.disk s.log) (hlog : ∀ ack ∈ s.log, ack.key = "a") : ∃ s',
      run step s (versions.map fun version => .acknowledge (install version (.succeed 0))) =
          some s' ∧
        Kept s'.disk s'.log ∧
          s'.log = s.log ++ versions.map fun version => ⟨"a", version, true⟩ := by
  induction versions generalizing s with
  | nil => exact ⟨s, rfl, hkept, by simp⟩
  | cons version versions ih =>
      rw [List.forall_mem_cons] at hvalid
      have hkey := userKey_install version (.succeed 0)
      rcases hkept.acknowledge_ok s.writes hkey hvalid.1 (room_of_one hlog) (fun _ => rfl) with
        ⟨state, hok⟩
      rcases exists_step s (.acknowledge (install version (.succeed 0))) with ⟨s₁, hstep⟩
      have hlog₁ : s₁.log = s.log ++ [⟨"a", version, true⟩] := by
        simp only [step, Option.some.injEq] at hstep
        subst hstep
        dsimp only
        rw [hok, logAfter_ok hkey]
        rfl
      have htidy : Tidy s (.acknowledge (install version (.succeed 0))) :=
        fun _ => clears_succeed 0
      have hkept₁ := hkept.step htidy hstep
      rcases ih hvalid.2 hkept₁ (by simpa [hlog₁, or_imp, forall_and] using hlog) with
        ⟨s', hrun, hkept', hlog'⟩
      refine ⟨s', ?_, hkept', ?_⟩
      · rw [List.map_cons, run_cons, hstep, Option.bind_some, hrun]
      · rw [hlog', hlog₁, List.append_assoc, List.map_cons]
        rfl

/-- Versions that differ. -/
def release (i : ℕ) : String :=
  String.ofList ['1', Char.ofNat (97 + i % 16), Char.ofNat (97 + i / 16)]

theorem toNat_letter {n : ℕ} (h : n ≤ 16) : (Char.ofNat (97 + n)).toNat = 97 + n := by
  rw [Char.toNat_ofNat, if_pos]
  exact .inl (by omega)

theorem release_injective {i j : ℕ} (hi : i ≤ 256) (hj : j ≤ 256) (h : release i = release j) :
    i = j := by
  have hlists := congrArg String.toList h
  simp only [release, String.toList_ofList, List.cons.injEq, true_and, and_true] at hlists
  have hlow := congrArg Char.toNat hlists.1
  have hhigh := congrArg Char.toNat hlists.2
  rw [toNat_letter (by omega), toNat_letter (by omega)] at hlow hhigh
  omega

theorem validVersion_release {i : ℕ} (h : i ≤ 256) : validVersion (release i) = true := by
  have hletter : ∀ n ≤ 16, versionChar (Char.ofNat (97 + n)) = true := by decide
  have hlow := Char.utf8Size_le_four (Char.ofNat (97 + i % 16))
  have hhigh := Char.utf8Size_le_four (Char.ofNat (97 + i / 16))
  have hsize : byteSize (release i) ≤ 96 := by
    simp only [byteSize, release, String.toList_ofList, List.map_cons, List.map_nil,
      List.sum_cons, List.sum_nil]
    have hone : '1'.utf8Size = 1 := by decide
    omega
  have hfront : '1'.isDigit = true := by decide
  have hone : versionChar '1' = true := by decide
  rw [release] at hsize ⊢
  simp only [validVersion, hsize, String.toList_ofList, hfront, List.all_cons,
    List.all_nil, hone, hletter (i % 16) (by omega), hletter (i / 16) (by omega), decide_true,
    Bool.and_self]

/-- More versions than are remembered. -/
def releases : List String := (List.range (maxSeenVersions + 1)).map release

theorem nodup_releases : releases.Nodup := by
  refine List.Nodup.map_on ?_ List.nodup_range
  intro i hi j hj heq
  rw [List.mem_range, maxSeenVersions] at hi hj
  exact release_injective (by omega) (by omega) heq

theorem validVersion_releases {version : String} (h : version ∈ releases) :
    validVersion version = true := by
  rcases List.mem_map.mp h with ⟨i, hi, rfl⟩
  rw [List.mem_range, maxSeenVersions] at hi
  exact validVersion_release (by omega)

/-- The oldest is not among the newest. -/
theorem release_notMem : release 0 ∉ newest maxSeenVersions releases := by
  have hnewest : newest maxSeenVersions releases =
      ((List.range' 1 maxSeenVersions).map release) := by
    rw [newest, releases, List.length_map, List.length_range, Nat.add_sub_cancel_left,
      ← List.map_drop, List.range_eq_range', List.drop_range', Nat.add_sub_cancel, Nat.zero_add,
      Nat.one_mul]
  rw [hnewest, List.mem_map]
  rintro ⟨i, hi, heq⟩
  rw [List.mem_range'_1, maxSeenVersions] at hi
  have hzero := release_injective (by omega) (by omega) heq
  omega

/-- The first write, whose temporary stays behind. -/
def leftOver : WriteCalls :=
  { WriteCalls.succeed 0 with rename := false, removeTemp := false }

/-- A version that was dropped is remembered again when it comes back, though it was first seen
before all that are remembered; and a call that throws may leave what the next load recovers. -/
theorem returned_and_leftOver :
    (∃ s, run step .init ((releases ++ [release 0]).map fun version =>
        .acknowledge (install version (.succeed 0))) = some s ∧ ∃ state,
      load s.disk "a" .works = (.ok state, s.disk) ∧
        release 0 ∈ state.seenInstalledVersions ∧
          release 0 ∉ newest maxSeenVersions (firstSeen (installedBy s.log "a"))) ∧
      (acknowledge Store.init.disk 0 (install "26.10.0" leftOver)).1 =
          .error (.runtimeError "Could not save changelog state") ∧
        (load Store.init.disk "a" .works).1 = .ok .new ∧
          (load (acknowledge Store.init.disk 0 (install "26.10.0" leftOver)).2 "a" .works).1 =
            .ok ⟨["26.10.0"], ""⟩ := by
  refine ⟨?_, rfl, rfl, rfl⟩
  have hzero : release 0 ∈ releases := List.mem_map_of_mem (List.mem_range.mpr (Nat.succ_pos _))
  have hvalid : ∀ version ∈ releases ++ [release 0], validVersion version = true := by
    intro version hmem
    rcases List.mem_append.mp hmem with hmem | hmem
    · exact validVersion_releases hmem
    · rw [List.mem_singleton.mp hmem]
      exact validVersion_releases hzero
  have hkept : Kept Store.init.disk Store.init.log := kept_init
  rcases run_installs hvalid hkept (by simp [Store.init]) with ⟨s, hrun, hkept', hlog⟩
  have hinstalled : installedBy s.log "a" = releases ++ [release 0] := by
    simp [hlog, Store.init, installedBy, List.filter_map, Function.comp_def]
  refine ⟨s, hrun, held s.log "a", hkept'.load (userKey_install "" leftOver) .works, ?_, ?_⟩
  · have hroom : 0 < maxSeenVersions := Nat.zero_lt_succ _
    simp only [held, hinstalled, remembered_concat, mem_remember hroom]
  · rw [hinstalled, firstSeen_append_of_mem hzero, firstSeen_of_nodup nodup_releases]
    exact release_notMem

end LuminalShine.Changelog
