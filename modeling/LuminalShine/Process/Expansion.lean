import LuminalShine.Process.Refresh

/-!
# The expansion of variables

What `parse_env_val` of `src/process.cpp` makes of a text, as a substitution from left to right.
`$$` gives a dollar sign, and `$(text)` the value of the variable `text`; every other character
stays.

The scan counts open brackets, and the substitution asks for balanced text between two of them.

## Main definitions

* `Balanced` — text whose brackets match.
* `Expands` — the substitution; `none` is an exception.

## Main results

* `findMatch_eq_some_iff` — the bracket that is found closes balanced text.
* `expands_iff` — `parse_env_val` is the substitution.
-/

namespace LuminalShine.Process.AppFiles

/-! ## Brackets -/

/-- Every bracket is closed, the last one first. -/
inductive Balanced : List Char → Prop
  | nil : Balanced []
  | char {c : Char} {text : List Char} (hopen : c ≠ '(') (hclose : c ≠ ')')
    (h : Balanced text) : Balanced (c :: text)
  | brackets {inner text : List Char} (hinner : Balanced inner) (h : Balanced text) :
    Balanced ('(' :: (inner ++ ')' :: text))

/-- Balanced texts with `n` closing brackets between them. -/
inductive Closes : ℕ → List Char → Prop
  | zero {text : List Char} (h : Balanced text) : Closes 0 text
  | succ {n : ℕ} {inner text : List Char} (hinner : Balanced inner) (h : Closes n text) :
    Closes (n + 1) (inner ++ ')' :: text)

section

variable {c : Char} {stack : ℕ} {text tail body name rest : List Char}

theorem openBrackets_other (hopen : c ≠ '(') (hclose : c ≠ ')') (stack : ℕ) :
    openBrackets stack c = stack := by
  rw [openBrackets, if_neg hopen, if_neg hclose]

theorem findMatch_cons (h : openBrackets stack c ≠ 0) (text : List Char) :
    findMatch stack (c :: text) =
      (findMatch (openBrackets stack c) text).map fun found => (c :: found.1, found.2) := by
  rw [findMatch, if_neg h]

/-- Balanced text is passed. -/
theorem findMatch_append (h : Balanced text) (stack : ℕ) (tail : List Char) :
    findMatch (stack + 1) (text ++ tail) =
      (findMatch (stack + 1) tail).map fun found => (text ++ found.1, found.2) := by
  induction h generalizing stack tail with
  | nil => simp
  | @char c text hopen hclose h ih =>
      have hstack : openBrackets (stack + 1) c = stack + 1 := openBrackets_other hopen hclose _
      rw [List.cons_append, findMatch_cons (by omega), hstack, ih, Option.map_map]
      rfl
  | @brackets inner text hinner h ihinner ih =>
      have hopen : openBrackets (stack + 1) '(' = stack + 1 + 1 := rfl
      have hclose : openBrackets (stack + 1 + 1) ')' = stack + 1 := rfl
      rw [List.cons_append, findMatch_cons (by omega), hopen, List.append_assoc, ihinner,
        List.cons_append, findMatch_cons (by omega), hclose, ih]
      simp only [Option.map_map]
      congr 1
      funext found
      simp

theorem findMatch_of_balanced (h : Balanced name) (rest : List Char) :
    findMatch 1 (name ++ ')' :: rest) = some (name, rest) := by
  rw [findMatch_append h 0]
  simp [findMatch, openBrackets]

theorem Closes.cons_char (hopen : c ≠ '(') (hclose : c ≠ ')') (h : Closes stack text) :
    Closes stack (c :: text) := by
  cases h with
  | zero h => exact .zero (.char hopen hclose h)
  | succ hinner h => exact .succ (.char hopen hclose hinner) h

/-- An opening bracket takes the first of the closing ones. -/
theorem Closes.cons_open (h : Closes (stack + 1) text) : Closes stack ('(' :: text) := by
  cases h with
  | @succ n inner text hinner h =>
      cases h with
      | zero h => exact .zero (.brackets hinner h)
      | @succ n inner' text hinner' h =>
          have hsplit : '(' :: (inner ++ ')' :: (inner' ++ ')' :: text)) =
              '(' :: (inner ++ ')' :: inner') ++ ')' :: text := by
            simp
          rw [hsplit]
          exact .succ (.brackets hinner hinner') h

theorem closes_of_findMatch (h : findMatch (stack + 1) body = some (name, rest)) :
    Closes stack name ∧ body = name ++ ')' :: rest := by
  induction body generalizing stack name with
  | nil => cases h
  | cons c body ih =>
      by_cases hopen : c = '('
      · subst hopen
        have hstack : openBrackets (stack + 1) '(' = stack + 1 + 1 := rfl
        rw [findMatch_cons (by omega), hstack, Option.map_eq_some_iff] at h
        rcases h with ⟨⟨name', rest'⟩, hfound, heq⟩
        cases heq
        rcases ih hfound with ⟨hcloses, rfl⟩
        exact ⟨hcloses.cons_open, rfl⟩
      · by_cases hclose : c = ')'
        · subst hclose
          cases stack with
          | zero =>
              cases h
              exact ⟨.zero .nil, rfl⟩
          | succ stack =>
              have hstack : openBrackets (stack + 1 + 1) ')' = stack + 1 := rfl
              rw [findMatch_cons (by omega), hstack, Option.map_eq_some_iff] at h
              rcases h with ⟨⟨name', rest'⟩, hfound, heq⟩
              cases heq
              rcases ih hfound with ⟨hcloses, rfl⟩
              exact ⟨.succ .nil hcloses, rfl⟩
        · have hstack : openBrackets (stack + 1) c = stack + 1 :=
            openBrackets_other hopen hclose _
          rw [findMatch_cons (by omega), hstack, Option.map_eq_some_iff] at h
          rcases h with ⟨⟨name', rest'⟩, hfound, heq⟩
          cases heq
          rcases ih hfound with ⟨hcloses, rfl⟩
          exact ⟨hcloses.cons_char hopen hclose, rfl⟩

/-- The bracket that is found is the one that closes balanced text. -/
theorem findMatch_eq_some_iff :
    findMatch 1 body = some (name, rest) ↔ Balanced name ∧ body = name ++ ')' :: rest := by
  constructor
  · intro h
    have hfound : findMatch (0 + 1) body = some (name, rest) := h
    rcases closes_of_findMatch hfound with ⟨hcloses, hbody⟩
    cases hcloses with
    | zero hbalanced => exact ⟨hbalanced, hbody⟩
  · rintro ⟨hbalanced, rfl⟩
    exact findMatch_of_balanced hbalanced rest

end

/-! ## The substitution -/

/-- The substitution from left to right. -/
inductive Expands (value : List Char → List Char) : List Char → Option (List Char) → Prop
  | nil : Expands value [] (some [])
  | dollars {rest : List Char} {out : Option (List Char)} (h : Expands value rest out) :
    Expands value ('$' :: '$' :: rest) (out.map ('$' :: ·))
  | named {body name rest : List Char} {out : Option (List Char)} (hname : Balanced name)
    (hbody : body = name ++ ')' :: rest) (h : Expands value rest out) :
    Expands value ('$' :: '(' :: body) (out.map (value name ++ ·))
  | unclosed {body : List Char}
    (hnone : ∀ name rest, Balanced name → body ≠ name ++ ')' :: rest) :
    Expands value ('$' :: '(' :: body) none
  | other {c : Char} {rest : List Char} {out : Option (List Char)}
    (hplain : c = '$' → rest.head? ≠ some '$' ∧ rest.head? ≠ some '(')
    (h : Expands value rest out) : Expands value (c :: rest) (out.map (c :: ·))

/-- There is one result. -/
theorem Expands.unique {value : List Char → List Char} {text : List Char}
    {out out' : Option (List Char)} (h : Expands value text out) (h' : Expands value text out') :
    out = out' := by
  induction h generalizing out' with
  | nil =>
      cases h'
      rfl
  | dollars h ih =>
      cases h' with
      | dollars h' => rw [ih h']
      | other hplain h' => exact absurd rfl (hplain rfl).1
  | @named body name rest out hname hbody h ih =>
      have hfound := findMatch_eq_some_iff.mpr ⟨hname, hbody⟩
      cases h' with
      | @named _ name' rest' _ hname' hbody' h' =>
          have hfound' := findMatch_eq_some_iff.mpr ⟨hname', hbody'⟩
          rw [hfound] at hfound'
          cases hfound'
          rw [ih h']
      | unclosed hnone => exact absurd hbody (hnone name rest hname)
      | other hplain h' => exact absurd rfl (hplain rfl).2
  | unclosed hnone =>
      cases h' with
      | named hname hbody h' => exact absurd hbody (hnone _ _ hname)
      | unclosed hnone' => rfl
      | other hplain h' => exact absurd rfl (hplain rfl).2
  | other hplain h ih =>
      cases h' with
      | dollars h' => exact absurd rfl (hplain rfl).1
      | named hname hbody h' => exact absurd rfl (hplain rfl).2
      | unclosed hnone => exact absurd rfl (hplain rfl).2
      | other hplain' h' => rw [ih h']

/-! ## The scan -/

/-- A look-up leaves every value as it is: a name that was not there gets the empty value. -/
theorem run_readVariable (env : Env) (name : String) :
    ∃ env', (readVariable name).run env = some (env.value name, env') ∧
      ∀ name', env'.value name' = env.value name' := by
  refine ⟨env.touch (((env.findEntry name).map Prod.fst).getD name), ?_, value_touch env _⟩
  rw [← value_spelled env name]
  rfl

/-- The values a text is expanded with. -/
def Env.valueOf (env : Env) (name : List Char) : List Char :=
  (env.value (String.ofList name)).toList

theorem spanDollar_dollar (rest : List Char) : spanDollar ('$' :: rest) = ([], '$' :: rest) := by
  rw [spanDollar, List.span_eq_takeWhile_dropWhile]
  simp

theorem spanDollar_cons {c : Char} (h : c ≠ '$') (rest : List Char) :
    spanDollar (c :: rest) = (c :: (spanDollar rest).1, (spanDollar rest).2) := by
  rw [spanDollar, spanDollar, List.span_eq_takeWhile_dropWhile, List.span_eq_takeWhile_dropWhile]
  simp [h]

/-- The scan from a position on, with what is pending before it. -/
def scanned (pending text : List Char) : Expand (List Char) :=
  parseEnvLoop (pending ++ (spanDollar text).1) (spanDollar text).2

section

variable {c : Char} {pending body name rest : List Char}

theorem scanned_nil : scanned pending [] = pure pending := by
  rw [scanned, show spanDollar [] = ([], []) from rfl, parseEnvLoop, List.append_nil]

theorem scanned_cons (h : c ≠ '$') :
    scanned pending (c :: rest) = scanned (pending ++ [c]) rest := by
  rw [scanned, scanned, spanDollar_cons h, List.append_assoc, List.singleton_append]

theorem scanned_last : scanned pending ['$'] = pure (pending ++ ['$']) := by
  rw [scanned, spanDollar_dollar, parseEnvLoop, List.append_nil]

theorem scanned_dollars :
    scanned pending ('$' :: '$' :: rest) =
      (fun text => pending ++ '$' :: text) <$> scanned [] rest := by
  rw [scanned, spanDollar_dollar, parseEnvLoop, List.append_nil]
  simp [scanned]

theorem scanned_named (h : findMatch 1 body = some (name, rest)) :
    scanned pending ('$' :: '(' :: body) = readVariable (String.ofList name) >>= fun value =>
      (fun text => pending ++ value.toList ++ text) <$> scanned [] rest := by
  rw [scanned, spanDollar_dollar, parseEnvLoop, List.append_nil]
  split
  · case h_1 hnone =>
      rw [h] at hnone
      cases hnone
  · case h_2 name' rest' hsome =>
      rw [h] at hsome
      cases hsome
      simp [scanned]

theorem scanned_unclosed (h : findMatch 1 body = none) :
    scanned pending ('$' :: '(' :: body) = failure := by
  rw [scanned, spanDollar_dollar, parseEnvLoop]
  split
  · rfl
  · case h_2 hsome =>
      rw [h] at hsome
      cases hsome

/-- A dollar sign that stands before anything else stays. -/
theorem scanned_lone (hopen : c ≠ '(') (hdollar : c ≠ '$') :
    scanned pending ('$' :: c :: rest) = scanned (pending ++ ['$']) (c :: rest) := by
  rw [scanned, spanDollar_dollar, parseEnvLoop, List.append_nil, scanned, List.append_assoc,
    List.singleton_append]
  · exact List.cons_ne_nil c rest
  · exact fun body h => hopen (List.cons.inj h).1
  · exact fun rest' h => hdollar (List.cons.inj h).1

end

/-- From every position on the scan is the substitution, behind what is pending. -/
theorem expands_scanned (text pending : List Char) (env : Env) :
    ∃ out, Expands env.valueOf text out ∧
      ((scanned pending text).run env).map Prod.fst = out.map (pending ++ ·) := by
  induction hlength : text.length using Nat.strong_induction_on generalizing text pending env with
  | _ n ih =>
      subst hlength
      cases text with
      | nil =>
          refine ⟨some [], .nil, ?_⟩
          rw [scanned_nil]
          simp
      | cons c rest =>
          by_cases hc : c = '$'
          · subst hc
            cases rest with
            | nil =>
                refine ⟨some ['$'], .other (by simp) .nil, ?_⟩
                rw [scanned_last]
                simp
            | cons c rest =>
                by_cases hopen : c = '('
                · subst hopen
                  cases hfound : findMatch 1 rest with
                  | none =>
                      refine ⟨none, .unclosed fun name rest' hname hbody => ?_, ?_⟩
                      · rw [findMatch_eq_some_iff.mpr ⟨hname, hbody⟩] at hfound
                        cases hfound
                      · rw [scanned_unclosed hfound]
                        rfl
                  | some found =>
                      rcases found with ⟨name, rest'⟩
                      rcases findMatch_eq_some_iff.mp hfound with ⟨hname, hbody⟩
                      rcases run_readVariable env (String.ofList name) with ⟨env', hrun, hvalue⟩
                      have hlt : rest'.length < ('$' :: '(' :: rest).length := by
                        rw [hbody]
                        simp
                        omega
                      rcases ih _ hlt rest' [] env' rfl with ⟨out, hout, hresult⟩
                      have hsame : env'.valueOf = env.valueOf := by
                        funext name'
                        rw [Env.valueOf, Env.valueOf, hvalue]
                      rw [hsame] at hout
                      refine ⟨_, .named hname hbody hout, ?_⟩
                      have hresult' := congrArg (Option.map
                        fun text => pending ++ (env.valueOf name ++ text)) hresult
                      rw [scanned_named hfound, StateT.run_bind, hrun]
                      simpa [Env.valueOf, Function.comp_def] using hresult'
                · by_cases hdollar : c = '$'
                  · subst hdollar
                    rcases ih _ (by simp) rest [] env rfl with ⟨out, hout, hresult⟩
                    refine ⟨_, .dollars hout, ?_⟩
                    have hresult' := congrArg (Option.map fun text => pending ++ '$' :: text)
                      hresult
                    rw [scanned_dollars, StateT.run_map]
                    simpa [Function.comp_def] using hresult'
                  · rcases ih _ (by simp) (c :: rest) (pending ++ ['$']) env rfl with
                      ⟨out, hout, hresult⟩
                    refine ⟨_, .other (by simp [hopen, hdollar]) hout, ?_⟩
                    rw [scanned_lone hopen hdollar, hresult]
                    simp [Function.comp_def]
          · rcases ih _ (by simp) rest (pending ++ [c]) env rfl with ⟨out, hout, hresult⟩
            refine ⟨_, .other (fun h => absurd h hc) hout, ?_⟩
            rw [scanned_cons hc, hresult]
            simp [Function.comp_def]

/-- The text that `parse_env_val` returns, or that it raises. -/
def parsedText (env : Env) (text : String) : Option (List Char) :=
  ((parseEnvVal text).run env).map fun result => result.1.toList

/-- **`parse_env_val` is the substitution.** -/
theorem expands_iff (env : Env) (text : String) (out : Option (List Char)) :
    Expands env.valueOf text.toList out ↔ parsedText env text = out := by
  have hparsed : Expands env.valueOf text.toList (parsedText env text) := by
    rcases expands_scanned text.toList [] env with ⟨out, hout, hresult⟩
    have heq : parsedText env text = out := by
      rw [parsedText, parseEnvVal]
      simpa [scanned, Function.comp_def] using hresult
    rw [heq]
    exact hout
  constructor
  · exact hparsed.unique
  · rintro rfl
    exact hparsed

end LuminalShine.Process.AppFiles
