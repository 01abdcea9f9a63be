import Mathlib.Data.List.Basic
import Mathlib.Data.List.Induction
import Mathlib.Data.List.TakeWhile
import Mathlib.Data.Nat.Notation

/-!
# Reading a cookie

`extract_cookie_value` of `src/http_auth.cpp`: the tokens of a session come in a `Cookie` header,
and are found there by a search for the name and `=`.

The search does not look at what stands before the name.  A cookie whose name ends with the
name, or whose value holds the name and `=`, supplies its own text when it stands first.

A header is its characters; a percent-encoded value is decoded by a parameter.

## Main definitions

* `find`, `supplied`, `extractCookieValue` — the source's lookup.
* `cookieList`, `lookup` — the cookies of a header, and the one of a name.
* `StartsCookie` — nothing but blanks stands since the last semicolon.

## Main results

* `cookieList_render` — the list of a header that was made from one.
* `first_pieces` — the lookup is the search for the name at the start of a cookie.
-/

namespace LuminalShine.HttpAuth.Cookies

abbrev Text := List Char

/-! ## The source's lookup -/

/-- The cookies the server uses. -/
inductive CookieName
  | session
  | refresh
  deriving DecidableEq, Repr

/-- `session_cookie_name` and `refresh_cookie_name`. -/
def CookieName.text : CookieName → Text
  | .session => "__Host-sunshine_session".toList
  | .refresh => "__Host-sunshine_refresh".toList

/-- `std::string::find`: where a pattern first stands. -/
def find (pattern : Text) : Text → Option ℕ
  | [] => if pattern = [] then some 0 else none
  | c :: rest =>
      if pattern.isPrefixOf (c :: rest) then some 0 else (find pattern rest).map (· + 1)

/-- What is searched for. -/
def searched (name : Text) : Text := name ++ ['=']

/-- The text from a position up to the next semicolon, with its position. -/
def valueAt (header : Text) (start : ℕ) : ℕ × Text :=
  (start, (header.drop start).takeWhile (· ≠ ';'))

/-- The text that a header supplies for a name, and where it stands. -/
def supplied (header name : Text) : Option (ℕ × Text) :=
  (find (searched name) header).map fun pos => valueAt header (pos + (searched name).length)

/-- `extract_cookie_value` -/
def extractCookieValue (unescape : Text → Text) (header : Option Text) (name : Text) : Text :=
  match header.bind fun cookies => supplied cookies name with
  | none => []
  | some (_, raw) => unescape raw

/-! ## Lists of cookies -/

/-- Blanks may stand before a cookie. -/
def isBlank (c : Char) : Bool := c = ' ' || c = '\t'

/-- A cookie of a header; `start` is where its value stands. -/
structure Cookie where
  name : Text
  start : ℕ
  value : Text
  deriving DecidableEq, Repr

/-- What stands up to the first semicolon, and then each piece with its position. -/
def pieces (i : ℕ) : Text → Text × List (ℕ × Text)
  | [] => ([], [])
  | c :: rest =>
      if c = ';' then ([], (i + 1, (pieces (i + 1) rest).1) :: (pieces (i + 1) rest).2)
      else (c :: (pieces (i + 1) rest).1, (pieces (i + 1) rest).2)

/-- The cookie of a piece without leading blanks: its name ends at the first `=`. -/
def cookieOfBody (i : ℕ) (body : Text) : Option Cookie :=
  if '=' ∈ body then
    some { name := body.takeWhile (· ≠ '='),
           start := i + (body.takeWhile (· ≠ '=')).length + 1,
           value := body.drop ((body.takeWhile (· ≠ '=')).length + 1) }
  else none

/-- The cookie of a piece. -/
def cookieOf (piece : ℕ × Text) : Option Cookie :=
  cookieOfBody (piece.1 + (piece.2.takeWhile isBlank).length) (piece.2.dropWhile isBlank)

/-- The cookies of a header, in order. -/
def cookieList (header : Text) : List Cookie :=
  ((0, (pieces 0 header).1) :: (pieces 0 header).2).filterMap cookieOf

/-- The first cookie of a name in some pieces. -/
def first (name : Text) (ps : List (ℕ × Text)) : Option (ℕ × Text) :=
  ((ps.filterMap cookieOf).find? (·.name = name)).map fun c => (c.start, c.value)

/-- The value of the cookie whose name is exactly this one. -/
def lookup (name header : Text) : Option (ℕ × Text) :=
  ((cookieList header).find? (·.name = name)).map fun c => (c.start, c.value)

/-- The text before a position, since its last semicolon, is blank. -/
def StartsCookie (before : Text) : Prop :=
  ∀ c ∈ before.reverse.takeWhile (· ≠ ';'), isBlank c

instance (before : Text) : Decidable (StartsCookie before) :=
  inferInstanceAs (Decidable (∀ c ∈ before.reverse.takeWhile (· ≠ ';'), isBlank c))

/-- A name without the separators, and with no blank in front. -/
structure Clean (name : Text) : Prop where
  equals : '=' ∉ name
  semicolon : ';' ∉ name
  head : ∀ c ∈ name.head?, isBlank c = false

theorem CookieName.clean (name : CookieName) : Clean name.text := by
  have hhead : name.text.head? = some '_' := by cases name <;> rfl
  refine ⟨by cases name <;> decide, by cases name <;> decide, ?_⟩
  rw [hhead]
  rintro c hc
  cases hc
  decide

/-! ## A header made of pairs -/

/-- A header made of pairs. -/
def render : List (Text × Text) → Text
  | [] => []
  | [(name, value)] => name ++ '=' :: value
  | (name, value) :: rest => name ++ '=' :: value ++ ';' :: ' ' :: render rest

theorem takeWhile_clean {p : Text} {c : Char} (h : c ∉ p) (rest : Text) :
    (p ++ c :: rest).takeWhile (· ≠ c) = p := by
  rw [List.takeWhile_append_of_pos]
  · simp
  · intro x hx
    simpa using fun heq : x = c => h (heq ▸ hx)

/-- A body of a name, `=` and a value is a cookie of them. -/
theorem cookieOfBody_append {name : Text} (h : '=' ∉ name) (i : ℕ) (value : Text) :
    cookieOfBody i (name ++ '=' :: value) =
      some { name, start := i + (name.length + 1), value } := by
  have hdrop : (name ++ '=' :: value).drop (name.length + 1) = value := by
    rw [List.drop_append, List.drop_of_length_le (by omega)]
    simp
  rw [cookieOfBody, takeWhile_clean h, hdrop, if_pos (by simp), Nat.add_assoc]

/-- A clean name in front leaves no blank to skip. -/
theorem cookieOf_append {name : Text} (h : Clean name) (i : ℕ) (value : Text) :
    cookieOf (i, name ++ '=' :: value) =
      some { name, start := i + (name.length + 1), value } := by
  have hhead : ∀ c ∈ (name ++ '=' :: value).head?, isBlank c = false := by
    cases name with
    | nil => simp [isBlank]
    | cons c name => exact h.head
  have hdrop : (name ++ '=' :: value).dropWhile isBlank = name ++ '=' :: value := by
    cases hc : name ++ '=' :: value with
    | nil => rfl
    | cons c rest =>
        rw [hc] at hhead
        rw [List.dropWhile_cons_of_neg]
        simp [hhead c rfl]
  have htake : (name ++ '=' :: value).takeWhile isBlank = [] := by
    cases hc : name ++ '=' :: value with
    | nil => rfl
    | cons c rest =>
        rw [hc] at hhead
        rw [List.takeWhile_cons_of_neg]
        simp [hhead c rfl]
  rw [cookieOf, hdrop, htake]
  exact cookieOfBody_append h.equals i value

/-- A leading blank is skipped. -/
theorem cookieOf_blank {c : Char} (h : isBlank c = true) (i : ℕ) (p : Text) :
    cookieOf (i, c :: p) = cookieOf (i + 1, p) := by
  simp only [cookieOf, List.takeWhile_cons_of_pos h, List.dropWhile_cons_of_pos h,
    List.length_cons]
  congr 1
  omega

theorem pieces_append {p : Text} (h : ';' ∉ p) (i : ℕ) (rest : Text) :
    pieces i (p ++ ';' :: rest) =
      (p, (i + p.length + 1, (pieces (i + p.length + 1) rest).1) ::
        (pieces (i + p.length + 1) rest).2) := by
  induction p generalizing i with
  | nil => rfl
  | cons c p ih =>
      rw [List.mem_cons, not_or] at h
      rw [List.cons_append, pieces, if_neg (Ne.symm h.1), ih h.2,
        show i + 1 + p.length + 1 = i + (c :: p).length + 1 by rw [List.length_cons]; omega]

theorem pieces_all {p : Text} (h : ';' ∉ p) (i : ℕ) : pieces i p = (p, []) := by
  induction p generalizing i with
  | nil => rfl
  | cons c p ih =>
      rw [List.mem_cons, not_or] at h
      rw [pieces, if_neg (Ne.symm h.1), ih h.2]

/-- Pairs that may stand in a header. -/
def CleanPairs (pairs : List (Text × Text)) : Prop :=
  ∀ pair ∈ pairs, Clean pair.1 ∧ ';' ∉ pair.2

theorem semicolon_notMem {name value : Text} (hname : Clean name) (hvalue : ';' ∉ value) :
    ';' ∉ name ++ '=' :: value := by
  simp [hname.semicolon, hvalue]

theorem filterMap_pieces_render {pairs : List (Text × Text)} (h : CleanPairs pairs) (i : ℕ) :
    (((i, (pieces i (render pairs)).1) :: (pieces i (render pairs)).2).filterMap cookieOf).map
      (fun c => (c.name, c.value)) = pairs := by
  induction pairs using render.induct generalizing i with
  | case1 => rfl
  | case2 name value =>
      have hpair := h (name, value) (by simp)
      rw [render, pieces_all (semicolon_notMem hpair.1 hpair.2), List.filterMap_cons_some
        (cookieOf_append hpair.1 i value)]
      rfl
  | case3 name value rest hrest ih =>
      have hpair := h (name, value) (by simp)
      have htail : CleanPairs rest := fun pair hp => h pair (List.mem_cons_of_mem _ hp)
      have hspace : ∀ j t, pieces j (' ' :: t) =
          (' ' :: (pieces (j + 1) t).1, (pieces (j + 1) t).2) := fun j t => by
        rw [pieces, if_neg (by decide)]
      have hskip : ∀ j p, cookieOf (j, ' ' :: p) = cookieOf (j + 1, p) := fun j p =>
        cookieOf_blank (by decide) j p
      rw [render, pieces_append (semicolon_notMem hpair.1 hpair.2), hspace,
        List.filterMap_cons_some (cookieOf_append hpair.1 i value), List.map_cons]
      · have hfirst := ih htail (i + (name ++ '=' :: value).length + 1 + 1)
        rw [List.filterMap_cons] at hfirst ⊢
        rw [hskip, hfirst]
      · exact hrest

/-- **The list of a header.**  Pairs that are written into a header are read from it, in
order. -/
theorem cookieList_render {pairs : List (Text × Text)} (h : CleanPairs pairs) :
    (cookieList (render pairs)).map (fun c => (c.name, c.value)) = pairs :=
  filterMap_pieces_render h 0

/-! ## Where a cookie starts -/

/-- Whether a cookie may start after a further character. -/
def after (s : Bool) (c : Char) : Bool := c = ';' || (s && isBlank c)

theorem startsCookie_iff (before : Text) :
    StartsCookie before ↔ before.foldl after true = true := by
  induction before using List.reverseRecOn with
  | nil => simp [StartsCookie]
  | append_singleton before c ih =>
      rw [List.foldl_concat, after]
      simp only [StartsCookie, List.reverse_append, List.reverse_singleton, List.singleton_append]
      by_cases hc : c = ';'
      · simp [hc]
      · rw [List.takeWhile_cons_of_pos (by simpa using hc)]
        simp only [List.mem_cons, forall_eq_or_imp, hc, decide_false, Bool.false_or,
          Bool.and_eq_true, ← ih, StartsCookie]
        exact and_comm

/-- Where a pattern first stands at the start of a cookie. -/
def properFind (pattern : Text) : Bool → Text → Option ℕ
  | _, [] => none
  | s, c :: rest =>
      if s && pattern.isPrefixOf (c :: rest) then some 0
      else (properFind pattern (after s c) rest).map (· + 1)

theorem searched_ne_nil (name : Text) : searched name ≠ [] := by simp [searched]

/-- The first occurrence is a cookie's exactly if a cookie starts there. -/
theorem properFind_of_find {name text : Text} {pos : ℕ} (s : Bool)
    (h : find (searched name) text = some pos) :
    properFind (searched name) s text = some pos ↔ (text.take pos).foldl after s = true := by
  induction text generalizing s pos with
  | nil =>
      rw [find, if_neg (searched_ne_nil name)] at h
      cases h
  | cons c rest ih =>
      rw [find] at h
      rw [properFind]
      by_cases hpre : (searched name).isPrefixOf (c :: rest) = true
      · rw [if_pos hpre, Option.some.injEq] at h
        subst h
        cases s <;> simp [hpre]
      · rw [if_neg hpre, Option.map_eq_some_iff] at h
        rcases h with ⟨pos, hpos, rfl⟩
        rw [if_neg (by simp [hpre]), List.take_succ_cons, List.foldl_cons, ← ih _ hpos]
        simp

theorem properFind_of_find_none {name text : Text} (s : Bool)
    (h : find (searched name) text = none) : properFind (searched name) s text = none := by
  induction text generalizing s with
  | nil => rfl
  | cons c rest ih =>
      rw [find] at h
      rw [properFind]
      by_cases hpre : (searched name).isPrefixOf (c :: rest) = true
      · rw [if_pos hpre] at h
        cases h
      · rw [if_neg hpre, Option.map_eq_none_iff] at h
        rw [if_neg (by simp [hpre]), ih _ h]
        rfl

/-! ## The list and the search -/

theorem pieces_fst (i : ℕ) (text : Text) : (pieces i text).1 = text.takeWhile (· ≠ ';') := by
  induction text generalizing i with
  | nil => rfl
  | cons c rest ih =>
      rw [pieces]
      by_cases hc : c = ';'
      · simp [hc]
      · rw [if_neg hc, ih, List.takeWhile_cons_of_pos (by simpa using hc)]

theorem first_cons (name : Text) (p : ℕ × Text) (ps : List (ℕ × Text)) :
    first name (p :: ps) = if (cookieOf p).any (·.name = name) then
      (cookieOf p).map fun c => (c.start, c.value) else first name ps := by
  cases hp : cookieOf p with
  | none => simp [first, hp]
  | some c =>
      simp only [first, List.filterMap_cons_some hp, List.find?_cons, Option.any_some]
      by_cases hc : c.name = name <;> simp [hc]

/-- A piece without a leading blank that is a cookie of the name begins with the name and `=`. -/
theorem isPrefixOf_of_cookieOf {name : Text} {i : ℕ} {c : Char} {p : Text}
    (hblank : isBlank c = false) (h : (cookieOf (i, c :: p)).any (·.name = name) = true) :
    searched name <+: c :: p := by
  have hneg : ¬isBlank c = true := by simp [hblank]
  simp only [cookieOf, List.dropWhile_cons_of_neg hneg, cookieOfBody] at h
  split_ifs at h with hequals
  · simp only [Option.any_some, decide_eq_true_eq] at h
    have hsplit := List.takeWhile_append_dropWhile (p := (· ≠ '=')) (l := c :: p)
    cases hdrop : (c :: p).dropWhile (· ≠ '=') with
    | nil =>
        rw [hdrop, List.append_nil] at hsplit
        rw [← hsplit] at hequals
        simpa using List.mem_takeWhile_imp hequals
    | cons d rest =>
        have hd : d = '=' := by
          have hhead := List.head?_dropWhile_not (fun x : Char => decide (x ≠ '=')) (c :: p)
          rw [hdrop] at hhead
          simpa using hhead
        rw [hdrop, h, hd] at hsplit
        exact ⟨rest, by rw [← hsplit]; simp [searched]⟩
  · simp at h

/-- What stands after an occurrence of the searched text. -/
def spanAt (name : Text) (i : ℕ) (text : Text) (k : ℕ) : ℕ × Text :=
  (i + k + (searched name).length,
    (text.drop (k + (searched name).length)).takeWhile (· ≠ ';'))

theorem map_spanAt_cons (name : Text) (i : ℕ) (c : Char) (rest : Text) (found : Option ℕ) :
    (found.map (· + 1)).map (spanAt name i (c :: rest)) = found.map (spanAt name (i + 1) rest) := by
  rw [Option.map_map]
  congr 1
  funext k
  simp only [Function.comp_apply, spanAt, Prod.mk.injEq]
  refine ⟨by omega, ?_⟩
  rw [show k + 1 + (searched name).length = k + (searched name).length + 1 by omega,
    List.drop_succ_cons]

/-- A cookie of the name that stands first is the one that is found. -/
theorem first_of_prefix {name text : Text} (h : Clean name) (i : ℕ) (ps : List (ℕ × Text))
    (hpre : searched name <+: text) :
    first name ((i, text.takeWhile (· ≠ ';')) :: ps) = some (spanAt name i text 0) := by
  rcases hpre with ⟨v, rfl⟩
  have htake : (searched name ++ v).takeWhile (· ≠ ';') =
      name ++ '=' :: v.takeWhile (· ≠ ';') := by
    rw [List.takeWhile_append_of_pos]
    · simp [searched]
    · intro c hc
      simpa using fun heq : c = ';' => semicolon_notMem h (by simp) (heq ▸ hc)
  rw [first_cons, htake, cookieOf_append h]
  simp [spanAt, searched]

/-- **The list and the search.**  The first cookie of a name stands where the name and `=` first
stand at the start of a cookie; within a piece, where the next cookie starts. -/
theorem first_pieces {name : Text} (h : Clean name) (i : ℕ) (text : Text) :
    first name ((i, (pieces i text).1) :: (pieces i text).2) =
        (properFind (searched name) true text).map (spanAt name i text) ∧
      first name (pieces i text).2 =
        (properFind (searched name) false text).map (spanAt name i text) := by
  induction text generalizing i with
  | nil => exact ⟨rfl, rfl⟩
  | cons c rest ih =>
      have hfalse : properFind (searched name) false (c :: rest) =
          (properFind (searched name) (after false c) rest).map (· + 1) := rfl
      rw [hfalse, map_spanAt_cons]
      by_cases hc : c = ';'
      · subst hc
        have hnot : ¬(searched name).isPrefixOf (';' :: rest) = true := by
          rw [List.isPrefixOf_iff_prefix]
          rintro ⟨v, hv⟩
          have hclean := semicolon_notMem h (show ';' ∉ [] by simp)
          cases name with
          | nil => simp [searched] at hv
          | cons d name =>
              simp only [searched, List.cons_append, List.cons.injEq] at hv
              exact hclean (by simp [hv.1])
        have hpieces : pieces i (';' :: rest) =
            ([], (i + 1, (pieces (i + 1) rest).1) :: (pieces (i + 1) rest).2) := by
          rw [pieces, if_pos rfl]
        have hempty : cookieOf (i, []) = none := rfl
        rw [hpieces, properFind, if_neg (by simp [hnot]), map_spanAt_cons, first_cons, hempty]
        exact ⟨(ih (i + 1)).1, (ih (i + 1)).1⟩
      · have hpieces : pieces i (c :: rest) =
            (c :: (pieces (i + 1) rest).1, (pieces (i + 1) rest).2) := by
          rw [pieces, if_neg hc]
        have hafter : after false c = false := by simp [after, hc]
        refine ⟨?_, by rw [hpieces, hafter]; exact (ih (i + 1)).2⟩
        by_cases hpre : (searched name).isPrefixOf (c :: rest) = true
        · rw [properFind, if_pos (by simp [hpre]), pieces_fst]
          exact first_of_prefix h i _ (List.isPrefixOf_iff_prefix.mp hpre)
        · rw [hpieces, properFind, if_neg (by simp [hpre]), map_spanAt_cons]
          cases hblank : isBlank c with
          | true =>
              have htrue : after true c = true := by simp [after, hblank]
              rw [htrue, ← (ih (i + 1)).1, first_cons, first_cons, cookieOf_blank hblank]
          | false =>
              have hskip : ¬(cookieOf (i, c :: (pieces (i + 1) rest).1)).any (·.name = name) =
                  true := by
                intro hany
                refine hpre (List.isPrefixOf_iff_prefix.mpr ?_)
                refine (isPrefixOf_of_cookieOf hblank hany).trans ?_
                rw [pieces_fst]
                exact List.cons_prefix_cons.mpr ⟨rfl, List.takeWhile_prefix _⟩
              have hleft : after true c = false := by simp [after, hc, hblank]
              rw [hleft, ← (ih (i + 1)).2, first_cons, if_neg hskip]

theorem lookup_eq {name : Text} (h : Clean name) (header : Text) :
    lookup name header = (properFind (searched name) true header).map (spanAt name 0 header) :=
  (first_pieces h 0 header).1

/-- What a header supplies, and what it should, wherever the name first stands. -/
theorem supplied_eq_lookup {name header : Text} (h : Clean name) :
    supplied header name = lookup name header ↔
      ∀ pos, find (searched name) header = some pos → StartsCookie (header.take pos) := by
  rw [lookup_eq h, supplied]
  cases hfind : find (searched name) header with
  | none => simp [properFind_of_find_none true hfind]
  | some pos =>
      simp only [Option.map_some, Option.some.injEq, forall_eq', startsCookie_iff,
        ← properFind_of_find true hfind]
      constructor
      · intro heq
        rw [eq_comm, Option.map_eq_some_iff] at heq
        rcases heq with ⟨k, hk, hspan⟩
        simp only [spanAt, valueAt, Prod.mk.injEq] at hspan
        rw [hk, Option.some.injEq]
        omega
      · intro hproper
        simp [hproper, spanAt, valueAt]

/-- What the server owes: the text it decodes is that of the cookie of exactly this name, and
it decodes none when there is no such cookie. -/
structure Exact (unescape : Text → Text) (name header : Text) : Prop where
  supplier : supplied header name = lookup name header
  value : extractCookieValue unescape (some header) name =
    (lookup name header).elim [] fun found => unescape found.2

/-- **Whose value it is.**  For each of the server's cookies, a header supplies its value and no
other text exactly if the name and `=` first stand at the start of a cookie, or nowhere. -/
theorem exact_iff (unescape : Text → Text) (name : CookieName) (header : Text) :
    Exact unescape name.text header ↔
      ∀ pos, find (searched name.text) header = some pos → StartsCookie (header.take pos) := by
  rw [← supplied_eq_lookup name.clean]
  refine ⟨fun h => h.supplier, fun h => ⟨h, ?_⟩⟩
  rw [extractCookieValue, Option.bind_some, h]
  cases lookup name.text header <;> rfl

/-- Another cookie's name ends with the name of the session's, and its value is taken. -/
theorem suffixed_name_not_exact :
    ¬∀ unescape name header, Exact unescape (CookieName.text name) header := by
  intro h
  have hsupplier := (h id .session
    "x__Host-sunshine_session=a; __Host-sunshine_session=b".toList).supplier
  revert hsupplier
  decide +kernel

end LuminalShine.HttpAuth.Cookies
