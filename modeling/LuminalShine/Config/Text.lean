import LuminalShine.Lib.Assoc

/-!
# Reading a config file

`to_string`, `skip_list`, `parse_option` and `parse_config` of `src/config.cpp`, and the
splitting of a list value by `list_string_f`.  A `Char` stands for one byte of the text, and
an iterator for the characters from its position on.

## Main definitions

* `Vars` — the options of a text, by name.
* `parseOption`, `parseConfig` — the readers of one option and of a whole text.
* `insertOrAssignAll` — the options of one map put over those of another.
* `splitList` — the elements of a list value.
-/

namespace LuminalShine.Config

open LuminalShine.Lib

/-- `std::unordered_map<std::string, std::string>`. -/
abbrev Vars := AList fun _ : String => String

/-! ## Characters -/

def endline (ch : Char) : Bool := ch = '\r' || ch = '\n'

def spaceTab (ch : Char) : Bool := ch = ' ' || ch = '\t'

def whitespace (ch : Char) : Bool := spaceTab ch || endline ch

/-- `std::isspace`. -/
def isSpace (c : Char) : Bool := c = ' ' || ('\t' ≤ c && c ≤ '\r')

/-- The text up to the last character that is not of the kind `p`. -/
def dropTrailing (p : Char → Bool) (text : List Char) : List Char :=
  (text.reverse.dropWhile p).reverse

/-- The two trimming lambdas of the readers. -/
def trim (text : List Char) : List Char := dropTrailing isSpace (text.dropWhile isSpace)

/-! ## Options -/

/-- `to_string`: the text without its comments, each of which ends before a line end. -/
def stripComments (inComment : Bool) : List Char → List Char
  | [] => []
  | ch :: rest =>
      if inComment && !endline ch then stripComments true rest
      else if ch = '#' then stripComments true rest
      else ch :: stripComments false rest

/-- `skip_list`: what follows the bracket that closes `stack` open ones. -/
def skipList : ℕ → List Char → List Char
  | 0, rest => rest
  | _ + 1, [] => []
  | stack + 1, ch :: rest =>
      skipList (if ch = '[' then stack + 2 else if ch = ']' then stack else stack + 1) rest

/-- `parse_option`: the position after the option, and the option when there is one. -/
def parseOption (text : List Char) : List Char × Option (String × String) :=
  let text := text.dropWhile whitespace
  let line := text.takeWhile (!endline ·)
  let endl := text.dropWhile (!endline ·)
  -- `begin` to `endc`
  let option := dropTrailing whitespace (line.takeWhile (· ≠ '#'))
  let name := option.takeWhile (· ≠ '=')
  if name.length = option.length ∨ name = [] then (endl, none)
  else
    let value := (option.drop (name.length + 1)).dropWhile spaceTab
    let beginVal := option.length - value.length
    if beginVal = line.length then (endl, none)
    else
      let name := String.ofList (stripComments false (dropTrailing spaceTab name))
      match text.drop beginVal with
      | '[' :: items =>
          -- lists might contain newlines
          let endl := skipList 1 items
          if endl = [] ∧ items = [] then (endl, none)
          else
            let value := ('[' :: items).take (items.length + 1 - endl.length)
            (endl, some (name, String.ofList (stripComments false value)))
      | _ => (endl, some (name, String.ofList (stripComments false (line.drop beginVal))))

/-- The loop of `parse_config`.  Each round consumes a character of what is left, so that the
length of the text is fuel enough. -/
def parseLines : ℕ → List Char → Vars → Vars
  | 0, _, vars => vars
  | _ + 1, [], vars => vars
  | fuel + 1, text@(_ :: _), vars =>
      let (endl, var) := parseOption text
      let pos := endl.drop (if endl.head? = some '\r' then 2 else 1)
      match var with
      | none => parseLines fuel pos vars
      | some (name, value) => parseLines fuel pos (emplace vars name value)

/-- `parse_config`. -/
def parseConfig (fileContent : String) : Vars :=
  parseLines fileContent.toList.length fileContent.toList ∅

/-- The loop `for (auto &[name, value] : from) vars.insert_or_assign(name, value)`. -/
def insertOrAssignAll (vars fromVars : Vars) : Vars :=
  fromVars.entries.foldl (fun vars entry => vars.insert entry.1 entry.2) vars

/-! ## List values -/

/-- The loop of `list_string_f`: `item` has the characters from `begin` to `pos`, backwards.
After a nested list one character more is taken, past the end the terminating zero. -/
def splitItems : ℕ → List Char → List Char → List String
  | 0, item, _ => if item = [] then [] else [String.ofList item.reverse]
  | _ + 1, item, [] => if item = [] then [] else [String.ofList item.reverse]
  | fuel + 1, item, ch :: rest =>
      if ch = '[' then
        let after := skipList 1 rest
        let nested := rest.take (rest.length - after.length) ++ [after.headD '\x00']
        splitItems fuel (nested.reverse ++ ch :: item) after.tail
      else if ch = ']' then if item = [] then [] else [String.ofList item.reverse]
      else if ch = ',' then
        String.ofList item.reverse :: splitItems fuel [] (rest.dropWhile whitespace)
      else splitItems fuel (ch :: item) rest

/-- What `list_string_f` makes of a value that is not empty. -/
def splitList (value : String) : List String :=
  let text :=
    match value.toList with
    | '[' :: rest => rest
    | text => text
  splitItems text.length [] (text.dropWhile whitespace)

/-! ## Merged options -/

theorem lookup_foldl_insert (name : String) (entries : List (Sigma fun _ : String => String))
    (vars : Vars) (h : ∀ entry ∈ entries, entry.1 ≠ name) :
    (entries.foldl (fun vars entry => vars.insert entry.1 entry.2) vars).lookup name =
      vars.lookup name := by
  induction entries generalizing vars with
  | nil => rfl
  | cons entry entries ih =>
      rw [List.foldl_cons, ih _ fun e he => h e (List.mem_cons_of_mem _ he),
        AList.lookup_insert_ne (h entry List.mem_cons_self).symm]

/-- A map put over another leaves the names it does not have. -/
theorem lookup_insertOrAssignAll {vars fromVars : Vars} {name : String} (h : name ∉ fromVars) :
    (insertOrAssignAll vars fromVars).lookup name = vars.lookup name := by
  refine lookup_foldl_insert name fromVars.entries vars ?_
  intro entry hentry hname
  exact h (hname ▸ List.mem_keys_of_mem hentry)

end LuminalShine.Config
