import Mathlib.Data.List.Basic

/-!
# Paths of Windows

The part of `std::filesystem::path` that is used to resolve a path against a directory, on
the characters of a native path: a root name (a disk, or a host after two separators), a
root directory, and names between separators.

## Main definitions

* `rootName`, `isAbsolute`, `parentPath`, `removeFilename` — the decompositions.
* `join` — `operator/`.
* `resolve` — a path seen from a directory.

## Main results

* `resolve_resolve` — resolving twice against an absolute directory is resolving once.
-/

namespace LuminalShine.Lib.WindowsPath

def isSeparator (c : Char) : Bool := c = '/' || c = '\\'

/-- `root_name()`. -/
def rootName : List Char → List Char
  | disk :: ':' :: _ => [disk, ':']
  | a :: b :: c :: rest =>
      if isSeparator a && isSeparator b && !isSeparator c then
        a :: b :: c :: rest.takeWhile (!isSeparator ·)
      else []
  | _ => []

/-- The path without its root name. -/
def afterRootName (p : List Char) : List Char := p.drop (rootName p).length

def hasRootDirectory (p : List Char) : Bool := (afterRootName p).head?.any isSeparator

def isAbsolute (p : List Char) : Bool := rootName p ≠ [] && hasRootDirectory p

/-- `relative_path()`. -/
def relativePath (p : List Char) : List Char := (afterRootName p).dropWhile isSeparator

/-- `root_path()`. -/
def rootPath (p : List Char) : List Char := p.take (p.length - (relativePath p).length)

def hasFilename (p : List Char) : Bool := (relativePath p).getLast?.any (!isSeparator ·)

/-- `remove_filename()`. -/
def removeFilename (p : List Char) : List Char :=
  rootPath p ++ ((relativePath p).reverse.dropWhile (!isSeparator ·)).reverse

/-- `parent_path()`. -/
def parentPath (p : List Char) : List Char :=
  rootPath p ++
    (((relativePath p).reverse.dropWhile (!isSeparator ·)).dropWhile isSeparator).reverse

/-- `operator/`. -/
def join (a b : List Char) : List Char :=
  if isAbsolute b || (rootName b ≠ [] && rootName b ≠ rootName a) then b
  else if hasRootDirectory b then rootName a ++ afterRootName b
  else if hasFilename a || (!hasRootDirectory a && isAbsolute a) then
    a ++ '\\' :: afterRootName b
  else a ++ afterRootName b

/-- A relative path is seen from the directory. -/
def resolve (directory p : List Char) : List Char :=
  if isAbsolute p then p else join directory p

/-! ## Absolute results -/

/-- A root name is that of what continues it with a separator. -/
theorem rootName_append {a : List Char} (ha : rootName a ≠ []) {c : Char}
    (hc : isSeparator c = true) (x : List Char) : rootName (rootName a ++ c :: x) = rootName a := by
  fun_cases rootName a with
  | case1 disk rest => simp [rootName]
  | case2 a b d rest hcolon h =>
      have hname : (rest.takeWhile (!isSeparator ·)).all (!isSeparator ·) = true :=
        List.all_takeWhile
      have htake : (rest.takeWhile (!isSeparator ·) ++ c :: x).takeWhile (!isSeparator ·) =
          rest.takeWhile (!isSeparator ·) := by
        rw [List.takeWhile_append_of_pos (List.all_eq_true.mp hname),
          List.takeWhile_cons_of_neg (by simp [hc]), List.append_nil]
      rw [List.cons_append, List.cons_append, List.cons_append, rootName, if_pos h, htake]
      exact hcolon
  | case3 a b d rest hcolon h => simp_all [rootName]
  | case4 p h₁ h₂ => simp_all [rootName]

theorem isAbsolute_rootName_append {a : List Char} (ha : rootName a ≠ []) {c : Char}
    (hc : isSeparator c = true) (x : List Char) : isAbsolute (rootName a ++ c :: x) = true := by
  simp [isAbsolute, hasRootDirectory, afterRootName, rootName_append ha hc, ha, hc]

theorem rootName_isInitial (p : List Char) : rootName p <+: p := by
  fun_cases rootName p with
  | case1 disk rest => simp
  | case2 a b d rest hcolon h => simp [List.takeWhile_prefix]
  | case3 a b d rest hcolon h => simp
  | case4 p h₁ h₂ => simp

theorem rootName_append_afterRootName (p : List Char) : rootName p ++ afterRootName p = p :=
  List.prefix_iff_eq_append.mp (rootName_isInitial p)

/-- What is after a root name, and begins with the root directory. -/
theorem afterRootName_eq_cons {p : List Char} (h : hasRootDirectory p = true) :
    ∃ c rest, isSeparator c = true ∧ afterRootName p = c :: rest := by
  unfold hasRootDirectory at h
  cases hp : afterRootName p with
  | nil => simp [hp] at h
  | cons c rest => exact ⟨c, rest, by simpa [hp] using h, rfl⟩

theorem isAbsolute_append {a : List Char} (ha : isAbsolute a = true) (x : List Char) :
    isAbsolute (a ++ x) = true := by
  simp only [isAbsolute, ne_eq, decide_not, Bool.and_eq_true, Bool.not_eq_true',
    decide_eq_false_iff_not] at ha
  obtain ⟨c, rest, hc, hrest⟩ := afterRootName_eq_cons ha.2
  rw [← rootName_append_afterRootName a, hrest, List.append_assoc, List.cons_append]
  exact isAbsolute_rootName_append ha.1 hc (rest ++ x)

/-- A path that is joined to an absolute one is absolute, unless it is on another disk. -/
theorem join_isAbsolute {a : List Char} (ha : isAbsolute a = true) (b : List Char) :
    join a b = b ∨ isAbsolute (join a b) = true := by
  unfold join
  split
  · exact .inl rfl
  split
  · rename_i hroot
    obtain ⟨c, rest, hc, hrest⟩ := afterRootName_eq_cons hroot
    rw [hrest]
    simp only [isAbsolute, ne_eq, decide_not, Bool.and_eq_true, Bool.not_eq_true',
      decide_eq_false_iff_not] at ha
    exact .inr (isAbsolute_rootName_append ha.1 hc rest)
  split
  · exact .inr (isAbsolute_append ha _)
  · exact .inr (isAbsolute_append ha _)

/-- Resolving twice against an absolute directory is resolving once. -/
theorem resolve_resolve {directory : List Char} (h : isAbsolute directory = true)
    (p : List Char) : resolve directory (resolve directory p) = resolve directory p := by
  by_cases hp : isAbsolute p = true
  · simp [resolve, hp]
  · have hresolve : resolve directory p = join directory p := by simp [resolve, hp]
    rw [hresolve]
    rcases join_isAbsolute h p with hjoin | hjoin
    · rw [hjoin, hresolve, hjoin]
    · simp [resolve, hjoin]

end LuminalShine.Lib.WindowsPath
