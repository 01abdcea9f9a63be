import LuminalShine.Config.Line

/-!
# Updating the config file

`saveConfig` and `patchConfig` of `src/confighttp.cpp`, and the file `parse_config` reads
afterwards.

Both print names and values as they are.  An entry that is not clean is read as something
else, and takes or forges others; so does an old entry that the file held and that the PATCH
does not name.

The file is its text.  `file_handler` opens it in text mode: on Windows a line end is two
bytes of the file and one of the text, and the byte `0x1A` ends what is read.  The order in
which an `unordered_map` is walked is a parameter.

## Main definitions

* `Body` — the JSON object of a request.
* `readFile` — what is read of a file.
* `saveConfig`, `patchConfig`, `handle` — what the handlers write.
* `wanted` — what the file is to hold.

## Main results

* `parse_printEntries_iff` — which entries survive printing and reading.
* `update_iff` — which requests change only what they name.
-/

namespace LuminalShine.Config

open LuminalShine.Lib

/-! ## The file -/

/-- The end of a file that is read in text mode on Windows. -/
def fileEnd : Char := '\x1a'

/-- `read_file` of `src/file_handler.cpp`; `windows` says where it runs. -/
def readFile (windows : Bool) (file : String) : String :=
  if windows then String.ofList (file.toList.takeWhile (· ≠ fileEnd)) else file

/-! ## The handlers -/

/-- A member of the body; what is no string is kept as its `dump()`. -/
inductive BodyValue where
  | null
  | string (value : String)
  | other (dump : String)
  deriving DecidableEq, Repr

abbrev Body := AList fun _ : String => BodyValue

/-- What is written for a member; null and the empty string are none. -/
def BodyValue.text : BodyValue → Option String
  | .null => none
  | .string value => if value = "" then none else some value
  | .other dump => some dump

/-- An entry of an `unordered_map<string, string>`. -/
abbrev Entry := Sigma fun _ : String => String

/-- The loops over `config_stream`. -/
def printEntries (entries : List Entry) : String :=
  String.ofList (entries.flatMap fun entry => printLine entry.1.toList entry.2.toList)

def memberEntry (member : Sigma fun _ : String => BodyValue) : Option Entry :=
  member.2.text.map (Sigma.mk member.1)

/-- The entries `saveConfig` prints, in the order of the object. -/
def bodyEntries (body : Body) : List Entry := body.entries.filterMap memberEntry

/-- `saveConfig` -/
def saveConfig (body : Body) : String := printEntries (bodyEntries body)

/-- The loop of `patchConfig` over the members of the body. -/
def mergeBody (current : Vars) (body : Body) : Vars :=
  body.entries.foldl (fun current member =>
    match member.2.text with
    | none => current.erase member.1
    | some value => current.insert member.1 value) current

/-- `patchConfig` -/
def patchConfig (windows : Bool) (order : Vars → List Entry) (file : String) (body : Body) :
    String :=
  printEntries (order (mergeBody (parseConfig (readFile windows file)) body))

inductive Method where
  | post
  | patch
  deriving DecidableEq, Repr

/-- Whether the request is taken, and the file behind it.  The body is `none` when the
handler turns the request away: by its content type, its authentication or its text. -/
def handle (windows : Bool) (order : Vars → List Entry) (method : Method) (file : String)
    (body : Option Body) : Bool × String :=
  match body, method with
  | none, _ => (false, file)
  | some body, .post => (true, saveConfig body)
  | some body, .patch => (true, patchConfig windows order file body)

/-! ## What a request asks for -/

/-- The value the file is to have under `key`. -/
def wanted (windows : Bool) (method : Method) (file : String) (body : Body) (key : String) :
    Option String :=
  match body.lookup key, method with
  | some value, _ => value.text
  | none, .post => none
  | none, .patch => (parseConfig (readFile windows file)).lookup key

/-- Refused with the file unchanged, or the file holds what is asked for and nothing else. -/
def Honours (windows : Bool) (order : Vars → List Entry) (method : Method) (file : String)
    (body : Option Body) : Prop :=
  match body with
  | none => handle windows order method file none = (false, file)
  | some body => ∀ key,
      (parseConfig (readFile windows (handle windows order method file (some body)).2)).lookup
        key = wanted windows method file body key

/-- The characters that a written file gives back. -/
def Readable (windows : Bool) (text : List Char) : Prop := windows = true → fileEnd ∉ text

/-- Each entry the file is to hold has a clean name and a clean value, both readable. -/
def CleanUpdate (windows : Bool) (method : Method) (file : String) (body : Option Body) : Prop :=
  ∀ members ∈ body, ∀ key value, wanted windows method file members key = some value →
    (CleanName key.toList ∧ CleanValue value.toList) ∧
      Readable windows key.toList ∧ Readable windows value.toList

/-! ## The reader's loop -/

section Loop

variable {vars : Vars} {name value : String}

/-- What is read first stays. -/
theorem lookup_parseLines (fuel : ℕ) (text : List Char) (h : vars.lookup name = some value) :
    (parseLines fuel text vars).lookup name = some value := by
  induction fuel generalizing text vars with
  | zero => exact h
  | succ fuel ih =>
      cases text with
      | nil => exact h
      | cons ch text =>
          simp only [parseLines]
          split
          · exact ih _ h
          · exact ih _ (by simp [lookup_emplace, h])

/-- What holds of every option that a text with `Q` gives holds of everything that is read,
when `Q` passes to the text behind an option. -/
theorem forall_parseLines {P : String → String → Prop} {Q : List Char → Prop}
    (hsuffix : ∀ text rest, Q text → rest <:+ text → Q rest)
    (hoption : ∀ text endl read, Q text → parseOption text = (endl, some read) → P read.1 read.2)
    (fuel : ℕ) {text : List Char} (htext : Q text)
    (h : ∀ name value, vars.lookup name = some value → P name value) :
    ∀ name value, (parseLines fuel text vars).lookup name = some value → P name value := by
  induction fuel generalizing text vars with
  | zero => exact h
  | succ fuel ih =>
      cases text with
      | nil => exact h
      | cons ch text =>
          have hrest := hsuffix _ _ htext
            ((List.drop_suffix (if (parseOption (ch :: text)).1.head? = some '\r' then 2 else 1)
              _).trans (parseOption_suffix (ch :: text)))
          simp only [parseLines]
          split
          · exact ih hrest h
          · case h_2 read hread =>
              refine ih hrest fun name value hlookup => ?_
              rw [lookup_emplace, Option.or_eq_some_iff] at hlookup
              rcases hlookup with hlookup | ⟨-, hnew⟩
              · exact h name value hlookup
              · rw [Option.ite_none_right_eq_some] at hnew
                obtain ⟨rfl, heq⟩ := hnew
                rw [← Option.some.inj heq]
                exact hoption _ _ _ htext (Prod.ext rfl hread : parseOption _ = (_, some _))

/-- The loop behind a line that gives `read`. -/
theorem parseLines_printLine {fuel : ℕ} {rest endl : List Char} {read : String × String}
    (h : parseOption (printLine name.toList value.toList ++ rest) = (endl, some read)) :
    parseLines (fuel + 1) (printLine name.toList value.toList ++ rest) vars =
      parseLines fuel (endl.drop (if endl.head? = some '\r' then 2 else 1))
        (emplace vars read.1 read.2) := by
  cases htext : printLine name.toList value.toList ++ rest with
  | nil => simp [printLine] at htext
  | cons ch text =>
      rw [htext] at h
      simp only [parseLines, h]

end Loop

/-! ## Printing and reading -/

/-- The text of the entries. -/
def flatten (entries : List Entry) : List Char :=
  entries.flatMap fun entry => printLine entry.1.toList entry.2.toList

def Clean (entry : Entry) : Prop := CleanName entry.1.toList ∧ CleanValue entry.2.toList

/-- A clean line takes one round and leaves the lines behind it. -/
theorem parseLines_clean_cons {entry : Entry} (h : Clean entry) (fuel : ℕ) (rest : List Char)
    (vars : Vars) :
    parseLines (fuel + 1) (printLine entry.1.toList entry.2.toList ++ rest) vars =
      parseLines fuel rest (emplace vars entry.1 entry.2) := by
  have hread := parseOption_clean h.1 h.2 rest
  rw [String.ofList_toList, String.ofList_toList] at hread
  rw [parseLines_printLine hread]
  rfl

/-- Each line is longer than the one round it takes. -/
theorem fuel_cons {entry : Entry} {entries : List Entry} {fuel : ℕ}
    (h : (flatten (entry :: entries)).length ≤ fuel) :
    ∃ fuel', fuel = fuel' + 1 ∧ (flatten entries).length ≤ fuel' := by
  have hcons : flatten (entry :: entries) =
      printLine entry.1.toList entry.2.toList ++ flatten entries := rfl
  rw [hcons, List.length_append] at h
  have hline : 4 ≤ (printLine entry.1.toList entry.2.toList).length := by
    simp only [printLine, List.length_append, List.length_cons, List.length_nil]
    omega
  exact ⟨fuel - 1, by omega, by omega⟩

/-- Clean entries are read back, the first of a name before the others. -/
theorem lookup_parseLines_flatten {entries : List Entry} (h : ∀ entry ∈ entries, Clean entry)
    {fuel : ℕ} (hfuel : (flatten entries).length ≤ fuel) (vars : Vars) (name : String) :
    (parseLines fuel (flatten entries) vars).lookup name =
      (vars.lookup name).or (entries.dlookup name) := by
  induction entries generalizing fuel vars with
  | nil => cases fuel <;> simp [flatten, parseLines]
  | cons entry entries ih =>
      obtain ⟨fuel, rfl, hrest⟩ := fuel_cons hfuel
      have hcons : flatten (entry :: entries) =
          printLine entry.1.toList entry.2.toList ++ flatten entries := rfl
      rw [hcons, parseLines_clean_cons (h entry List.mem_cons_self),
        ih (fun e he => h e (List.mem_cons_of_mem _ he)) hrest, lookup_emplace, Option.or_assoc]
      congr 1
      by_cases hname : name = entry.1
      · subst hname
        obtain ⟨name, value⟩ := entry
        simp
      · rw [List.dlookup_cons_ne _ _ hname, if_neg hname, Option.none_or]

/-- Entries that are read back are clean. -/
theorem clean_of_parseLines {entries : List Entry} (hnodup : entries.NodupKeys) {fuel : ℕ}
    (hfuel : (flatten entries).length ≤ fuel) {vars : Vars}
    (hnew : ∀ entry ∈ entries, vars.lookup entry.1 = none)
    (hplain : ∀ entry ∈ entries, CleanName entry.1.toList ∧ '#' ∉ entry.2.toList)
    (hread : ∀ entry ∈ entries,
      (parseLines fuel (flatten entries) vars).lookup entry.1 = some entry.2) :
    ∀ entry ∈ entries, Clean entry := by
  induction entries generalizing fuel vars with
  | nil => simp
  | cons entry entries ih =>
      obtain ⟨fuel, rfl, hrest⟩ := fuel_cons hfuel
      have hcons : flatten (entry :: entries) =
          printLine entry.1.toList entry.2.toList ++ flatten entries := rfl
      have hfirst := hread entry List.mem_cons_self
      obtain ⟨hname, hcomment⟩ := hplain entry List.mem_cons_self
      -- the line of the entry is the first that gives its name
      obtain ⟨read, hoption⟩ := exists_parseOption hname hcomment (flatten entries)
      rw [String.ofList_toList] at hoption
      have hvalue : read = entry.2 := by
        have hstays : (emplace vars entry.1 read).lookup entry.1 = some read := by
          simp [lookup_emplace, hnew entry List.mem_cons_self]
        rw [hcons, parseLines_printLine (Prod.ext rfl hoption : parseOption _ = (_, some _)),
          lookup_parseLines _ _ hstays] at hfirst
        exact Option.some.inj hfirst
      have hback : (parseOption (printLine entry.1.toList entry.2.toList ++ flatten entries)).2 =
          some (entry.1, String.ofList entry.2.toList) := by
        rw [hoption, hvalue, String.ofList_toList]
      have hclean : Clean entry := ⟨hname, cleanValue_of_parseOption hname hcomment hback⟩
      obtain ⟨hother, hnodup⟩ := List.nodupKeys_cons.mp hnodup
      have hne : ∀ e ∈ entries, e.1 ≠ entry.1 := fun e he heq =>
        hother (heq ▸ List.mem_keys_of_mem he)
      rw [hcons, parseLines_clean_cons hclean] at hread
      rintro e (_ | ⟨_, he⟩)
      · exact hclean
      · refine ih hnodup hrest (fun e he => ?_) (fun e he => hplain e (List.mem_cons_of_mem _ he))
          (fun e he => hread e (List.mem_cons_of_mem _ he)) e he
        simp [lookup_emplace, hnew e (List.mem_cons_of_mem _ he), hne e he]

/-- **Entries survive printing and reading exactly when each is clean**, in any order. -/
theorem parse_printEntries_iff {entries : List Entry} (hnodup : entries.NodupKeys) :
    (∀ name, (parseConfig (printEntries entries)).lookup name = entries.dlookup name) ↔
      ∀ entry ∈ entries, Clean entry := by
  have htext : parseConfig (printEntries entries) =
      parseLines (flatten entries).length (flatten entries) ∅ := by
    simp only [parseConfig, printEntries, String.toList_ofList]
    rfl
  rw [htext]
  constructor
  · intro hread
    have hentry : ∀ entry ∈ entries, (parseLines (flatten entries).length (flatten entries)
        ∅).lookup entry.1 = some entry.2 := by
      intro entry hentry
      rw [hread]
      exact List.mem_dlookup hnodup hentry
    refine clean_of_parseLines hnodup le_rfl (fun _ _ => AList.lookup_empty _) ?_ hentry
    intro entry hmem
    exact forall_parseLines (P := fun name value => CleanName name.toList ∧ '#' ∉ value.toList)
      (Q := fun _ => True) (fun _ _ h _ => h) (fun _ _ _ _ h => parseOption_some h) _ trivial
      (by simp) _ _ (hentry entry hmem)
  · intro hclean name
    simp [lookup_parseLines_flatten hclean le_rfl]

/-! ## Text mode -/

section TextMode

variable {windows : Bool}

/-- Nothing behind the end of the file is read. -/
theorem readable_readFile (windows : Bool) (file : String) :
    Readable windows (readFile windows file).toList := by
  rintro rfl hmem
  rw [readFile, if_pos rfl, String.toList_ofList] at hmem
  simpa using List.mem_takeWhile_imp hmem

theorem readFile_eq_self {file : String} (h : Readable windows file.toList) :
    readFile windows file = file := by
  cases windows with
  | false => rfl
  | true =>
      have hall : file.toList.takeWhile (· ≠ fileEnd) = file.toList := by
        rw [List.takeWhile_eq_self_iff]
        intro ch hch
        simpa using fun heq : ch = fileEnd => h rfl (heq ▸ hch)
      rw [readFile, if_pos rfl, hall, String.ofList_toList]

/-- What is read of a file has the characters of the file that are read. -/
theorem readable_of_lookup {file name value : String}
    (h : (parseConfig (readFile windows file)).lookup name = some value) :
    Readable windows name.toList ∧ Readable windows value.toList := by
  refine forall_parseLines
    (P := fun name value => Readable windows name.toList ∧ Readable windows value.toList)
    (Q := Readable windows) (fun text rest htext hrest hwindows hmem =>
      htext hwindows (hrest.subset hmem)) ?_ _ (readable_readFile windows file) (by simp) _ _ h
  intro text endl read htext hread
  obtain ⟨hname, hvalue⟩ := parseOption_subset hread
  exact ⟨fun hwindows hmem => htext hwindows (hname hmem),
    fun hwindows hmem => htext hwindows (hvalue hmem)⟩

/-- Readable entries are printed to a text that is read whole. -/
theorem readFile_printEntries {entries : List Entry} (h : ∀ entry ∈ entries,
    Readable windows entry.1.toList ∧ Readable windows entry.2.toList) :
    readFile windows (printEntries entries) = printEntries entries := by
  refine readFile_eq_self fun hwindows hmem => ?_
  rw [printEntries, String.toList_ofList, List.mem_flatMap] at hmem
  obtain ⟨entry, hentry, hmem⟩ := hmem
  have hname := (h entry hentry).1 hwindows
  have hvalue := (h entry hentry).2 hwindows
  have hplain : fileEnd ∉ [' ', '=', '\n'] := by decide
  simp only [List.mem_cons, not_or] at hplain
  simp [printLine, hname, hvalue, hplain] at hmem

end TextMode

/-! ## The handlers' entries -/

section Members

variable {members : List (Sigma fun _ : String => BodyValue)}

/-- The printed entries are the members that have a text. -/
theorem dlookup_filterMap (h : members.NodupKeys) (name : String) :
    (members.filterMap memberEntry).dlookup name =
      (members.dlookup name).bind BodyValue.text := by
  induction members with
  | nil => rfl
  | cons member members ih =>
      obtain ⟨hother, hrest⟩ := List.nodupKeys_cons.mp h
      obtain ⟨key, value⟩ := member
      by_cases hname : name = key
      · subst hname
        have hnone : members.dlookup name = none := List.dlookup_eq_none.mpr hother
        cases htext : value.text <;> simp [memberEntry, htext, ih hrest, hnone]
      · cases htext : value.text <;> simp [memberEntry, htext, ih hrest, hname]

theorem keys_filterMap_sublist :
    List.Sublist (members.filterMap memberEntry).keys members.keys := by
  induction members with
  | nil => simp
  | cons member members ih =>
      cases htext : member.2.text with
      | none => simpa [memberEntry, htext] using ih.cons member.1
      | some text => simpa [memberEntry, htext] using ih

/-- Each member is put in or taken out under its own name. -/
theorem lookup_foldl_members (h : members.NodupKeys) (current : Vars) (name : String) :
    (members.foldl (fun current member =>
      match member.2.text with
      | none => current.erase member.1
      | some value => current.insert member.1 value) current).lookup name =
      ((members.dlookup name).map BodyValue.text).getD (current.lookup name) := by
  induction members generalizing current with
  | nil => rfl
  | cons member members ih =>
      obtain ⟨hother, hrest⟩ := List.nodupKeys_cons.mp h
      obtain ⟨key, value⟩ := member
      rw [List.foldl_cons, ih hrest]
      by_cases hname : name = key
      · subst hname
        rw [List.dlookup_eq_none.mpr hother]
        cases htext : value.text <;> simp [htext]
      · cases value.text <;> simp [hname, AList.lookup_insert_ne, AList.lookup_erase_ne]

end Members

/-- The merged map has what a PATCH wants. -/
theorem lookup_mergeBody (windows : Bool) (file : String) (body : Body) (name : String) :
    (mergeBody (parseConfig (readFile windows file)) body).lookup name =
      wanted windows .patch file body name := by
  rw [mergeBody, lookup_foldl_members body.nodupKeys]
  cases hlookup : body.lookup name <;> simp only [wanted, hlookup] <;>
    simp only [AList.lookup] at hlookup <;> simp [hlookup, AList.lookup]

theorem dlookup_bodyEntries (windows : Bool) (file : String) (body : Body) (name : String) :
    (bodyEntries body).dlookup name = wanted windows .post file body name := by
  rw [bodyEntries, dlookup_filterMap body.nodupKeys]
  cases hlookup : body.lookup name <;> simp only [wanted, hlookup] <;>
    simp only [AList.lookup] at hlookup <;> simp [hlookup]

/-- What is to be read back is what each entry has, when the entries are those wanted. -/
theorem clean_iff_of_dlookup {windows : Bool} {entries : List Entry} (hnodup : entries.NodupKeys)
    {want : String → Option String} (h : ∀ name, entries.dlookup name = want name) :
    (∀ name, (parseConfig (readFile windows (printEntries entries))).lookup name = want name) ↔
      ∀ name value, want name = some value →
        (CleanName name.toList ∧ CleanValue value.toList) ∧
          Readable windows name.toList ∧ Readable windows value.toList := by
  simp only [← h]
  constructor
  · intro hread
    have hreadable : ∀ entry ∈ entries,
        Readable windows entry.1.toList ∧ Readable windows entry.2.toList := fun entry hentry =>
      readable_of_lookup ((hread entry.1).trans (List.mem_dlookup hnodup hentry))
    simp only [readFile_printEntries hreadable, parse_printEntries_iff hnodup] at hread
    intro name value hlookup
    have hentry := List.of_mem_dlookup hlookup
    exact ⟨hread _ hentry, hreadable _ hentry⟩
  · intro hclean
    have hentry : ∀ entry ∈ entries, Clean entry ∧
        Readable windows entry.1.toList ∧ Readable windows entry.2.toList := fun entry hentry =>
      hclean entry.1 entry.2 (List.mem_dlookup hnodup hentry)
    rw [readFile_printEntries fun entry h => (hentry entry h).2]
    exact (parse_printEntries_iff hnodup).mpr fun entry h => (hentry entry h).1

variable {order : Vars → List Entry}

/-- **Which updates change only what they name.**  A request that is not refused leaves a file
that is read as what is asked for exactly when every entry the file is to hold is clean and
readable: those the body names, and for a PATCH the old ones as well. -/
theorem update_iff (windows : Bool) (horder : ∀ vars, (order vars).Perm vars.entries)
    (method : Method) (file : String) (body : Option Body) :
    Honours windows order method file body ↔ CleanUpdate windows method file body := by
  cases body with
  | none => simp [Honours, CleanUpdate, handle]
  | some body =>
      have hclean : CleanUpdate windows method file (some body) ↔
          ∀ name value, wanted windows method file body name = some value →
            (CleanName name.toList ∧ CleanValue value.toList) ∧
              Readable windows name.toList ∧ Readable windows value.toList := by
        simp [CleanUpdate]
      rw [hclean]
      cases method with
      | post =>
          exact clean_iff_of_dlookup (keys_filterMap_sublist.nodup body.nodupKeys)
            (dlookup_bodyEntries windows file body)
      | patch =>
          have hperm := horder (mergeBody (parseConfig (readFile windows file)) body)
          have hnodup := (List.perm_nodupKeys hperm).mpr (AList.nodupKeys _)
          refine clean_iff_of_dlookup hnodup fun name => ?_
          rw [List.perm_dlookup name hnodup hperm]
          exact lookup_mergeBody windows file body name

/-- A PATCH that names one option of a file with another. -/
def renameHost : Body := AList.singleton "name" (.string "den")

theorem update_iff_renameHost :
    Honours true AList.entries .patch "port = 1\n" (some renameHost) := by
  refine (update_iff true (fun vars => List.Perm.refl vars.entries) .patch _ _).mpr ?_
  have hold : (parseConfig (readFile true "port = 1\n")).entries = [⟨"port", "1"⟩] := by rfl
  have hname : wanted true .patch "port = 1\n" renameHost "name" = some "den" := by rfl
  have hother : ∀ key, key ≠ "name" → wanted true .patch "port = 1\n" renameHost key =
      [(⟨"port", "1"⟩ : Entry)].dlookup key := by
    intro key hkey
    have hnone : renameHost.lookup key = none := by
      rw [AList.lookup_eq_none, renameHost, AList.mem_keys, AList.keys_singleton]
      simpa using hkey
    simp only [wanted, hnone]
    rw [AList.lookup, hold]
  rintro members ⟨rfl⟩ key value hwanted
  by_cases hkey : key = "name"
  · subst hkey
    rw [hname, Option.some.injEq] at hwanted
    subst hwanted
    simp [CleanName, CleanValue, cleanShape, endline, spaceTab, Readable, fileEnd]
  · rw [hother key hkey] at hwanted
    have hentry := List.of_mem_dlookup hwanted
    rw [List.mem_singleton] at hentry
    cases hentry
    simp [CleanName, CleanValue, cleanShape, endline, spaceTab, Readable, fileEnd]

/-- A value with a line end forges an option: after this PATCH the file sets the port. -/
theorem update_forges :
    (parseConfig (readFile true (handle true AList.entries .patch "" (some (AList.singleton "name"
      (.string "den\nport = 1")))).2)).lookup "port" = some "1" ∧
      ¬ Honours true AList.entries .patch ""
        (some (AList.singleton "name" (.string "den\nport = 1"))) := by
  have hforged : (parseConfig (readFile true (handle true AList.entries .patch ""
      (some (AList.singleton "name" (.string "den\nport = 1")))).2)).lookup "port" =
      some "1" := by rfl
  refine ⟨hforged, ?_⟩
  intro hkept
  rw [hkept "port"] at hforged
  revert hforged
  decide

end LuminalShine.Config
