import LuminalShine.Lib.Run
import Mathlib.Data.List.Flatten
import Mathlib.Data.List.ReduceOption
import Mathlib.Data.Nat.Notation

/-!
# The rolling session log

`session_log_buffer` writes the log of one session into a file of bounded size.  A full file
becomes a rollover, a new file starts with the build's banner, and the oldest rollover goes when
there are too many.  Opening a file, writing to it, flushing it, moving it away and removing an
old one can each fail.

* `LogBuffer` with `openStream`, `rotateFile`, `xsputn`, `sync` — the buffer as written;
* `LogStream.step` — the stream above it, which is dead after its first short write;
* `LogBuffer.Sound` — what every operation keeps of the files and of what was logged;
* `log_retained` — every write ends, no file outgrows the threshold by more than its byte order
  mark, and what the files hold is the end of what was logged.
-/

namespace LuminalShine.Logging

/-- The limits of a session log.  The banner of every file is smaller than the threshold. -/
structure Limits where
  threshold : ℕ
  maxRollovers : ℕ
  banner : ℕ → List UInt8
  banner_lt : ∀ k, (banner k).length < threshold

theorem Limits.threshold_pos (lim : Limits) : 0 < lim.threshold :=
  Nat.zero_lt_of_lt (lim.banner_lt 0)

/-- The byte order mark at the head of a file. -/
def bom : List UInt8 := [0xEF, 0xBB, 0xBF]

/-- A log file: the part that was written of byte order mark and banner, and the log after it,
with what is still in the stream's buffer. -/
structure Segment where
  head : List UInt8
  payload : List UInt8

def Segment.size (f : Segment) : ℕ := f.head.length + f.payload.length

/-- The front of a file. -/
def Segment.cut (f : Segment) (bytes : ℕ) : Segment :=
  ⟨f.head.take bytes, f.payload.take (bytes - f.head.length)⟩

/-- How opening the log file ends: not at all, with only so many bytes of the head on disk and a
stream that is not good, or well.  A head that is `counted` was lost by the flush behind it. -/
inductive Opening
  | refused
  | cut (bytes : ℕ) (counted : Bool)
  | complete

/-- How the write of a chunk ends: well, after so many of its bytes, or with so many bytes left of
what was written before. -/
inductive Writing
  | complete
  | cut (bytes : ℕ)
  | lost (bytes : ℕ)

/-- How the full file is moved away: by its name, or by a copy that is whole, cut or not made.
`removed` tells whether the original is removed behind the copy. -/
inductive Moving
  | renamed
  | copied (removed : Bool)
  | cut (bytes : ℕ) (removed : Bool)
  | notCopied (removed : Bool)
  deriving DecidableEq

/-- The rollover that a move makes of the file. -/
def Moving.rollover (f : Segment) : Moving → Option Segment
  | .renamed => some f
  | .copied _ => some f
  | .cut bytes _ => some (f.cut bytes)
  | .notCopied _ => none

/-- The file is still there under its old name. -/
def Moving.leaves : Moving → Bool
  | .renamed => false
  | .copied removed => !removed
  | .cut _ removed => !removed
  | .notCopied removed => !removed

/-- What the disk does at each attempt: to open the file, to write a chunk, to flush the stream
(`some p` is a failure with `p` bytes left of what was written), to move the full file away, and
to remove the oldest rollover. -/
structure Disk where
  opens : ℕ → Opening
  writes : ℕ → Writing
  flushes : ℕ → Option ℕ
  moves : ℕ → Moving
  removes : ℕ → Bool

/-- Nothing is lost that was written, and what is to go goes. -/
structure Disk.Keeps (disk : Disk) : Prop where
  writes : ∀ n bytes, disk.writes n ≠ .lost bytes
  flushes : ∀ n, disk.flushes n = none
  moves : ∀ k, disk.moves k = .renamed ∨ disk.moves k = .copied true
  removes : ∀ k, disk.removes k = true

theorem Disk.Keeps.leaves {disk : Disk} (h : disk.Keeps) (k : ℕ) :
    (disk.moves k).leaves = false := by
  rcases h.moves k with hk | hk <;> rw [hk] <;> rfl

inductive StreamState
  | closed
  | good
  | bad
  deriving DecidableEq

/-- A `session_log_buffer` with the files it knows; a rollover that was not made has none.
`strays` are the rollovers that it has dropped and that are still on disk.  `logged` is
everything that was written, whether it is still there or not. -/
structure LogBuffer where
  stream : StreamState
  bytesWritten : ℕ
  rolloverCounter : ℕ
  current : Option Segment
  rollovers : List (Option Segment)
  strays : List Segment
  opened : ℕ
  wrote : ℕ
  flushed : ℕ
  logged : List UInt8

namespace LogBuffer
variable (lim : Limits) (disk : Disk)

/-- `open_stream`; the byte order mark is not counted. -/
def openStream (s : LogBuffer) : LogBuffer × Bool :=
  let head := bom ++ lim.banner s.rolloverCounter
  match disk.opens s.opened with
  | .refused => ({ s with stream := .closed, opened := s.opened + 1 }, false)
  | .cut bytes counted =>
    ({ s with
      stream := .bad
      bytesWritten := if counted then (lim.banner s.rolloverCounter).length else 0
      current := some ⟨head.take bytes, []⟩
      opened := s.opened + 1 }, true)
  | .complete =>
    ({ s with
      stream := .good
      bytesWritten := (lim.banner s.rolloverCounter).length
      current := some ⟨head, []⟩
      opened := s.opened + 1 }, true)

def ensureStream (s : LogBuffer) : LogBuffer × Bool :=
  if s.stream = .closed then s.openStream lim disk else (s, true)

/-- `stream_->flush()` -/
def flush (s : LogBuffer) : LogBuffer :=
  if s.stream = .good then
    match disk.flushes s.flushed with
    | none => { s with flushed := s.flushed + 1 }
    | some p =>
      { s with
        stream := .bad
        current := s.current.map fun f => { f with payload := f.payload.take p }
        flushed := s.flushed + 1 }
  else s

/-- The full file is moved, by name or by copy, or it is lost. -/
def moveAway (s : LogBuffer) : LogBuffer :=
  let moving := disk.moves (s.rolloverCounter + 1)
  { s with
    stream := .closed
    rolloverCounter := s.rolloverCounter + 1
    current := if moving.leaves then s.current else none
    rollovers := s.rollovers ++ [s.current.bind moving.rollover]
    bytesWritten := 0 }

/-- The oldest rollover goes when there are too many; one that is not `removed` stays on disk. -/
def dropOldest (removed : Bool) (s : LogBuffer) : LogBuffer :=
  if lim.maxRollovers < s.rollovers.length then
    { s with
      rollovers := s.rollovers.tail
      strays := if removed then s.strays else s.strays ++ s.rollovers.head?.join.toList }
  else s

def retire (s : LogBuffer) : LogBuffer :=
  (s.moveAway disk).dropOldest lim (disk.removes (s.rolloverCounter + 1))

/-- `rotate_file`. -/
def rotateFile (s : LogBuffer) : LogBuffer :=
  if s.stream = .closed then s else (((s.flush disk).retire lim disk).openStream lim disk).1

/-- More bytes in the current file. -/
def append (s : LogBuffer) (bytes : List UInt8) : LogBuffer :=
  { s with
    current := s.current.map fun f => { f with payload := f.payload ++ bytes }
    wrote := s.wrote + 1
    logged := s.logged ++ bytes }

/-- The write of a chunk and the check of the stream after it. -/
def writeChunk (s : LogBuffer) (chunk : List UInt8) : LogBuffer × Bool :=
  if s.stream = .good then
    match disk.writes s.wrote with
    | .complete => ({ s.append chunk with bytesWritten := s.bytesWritten + chunk.length }, true)
    | .cut bytes => ({ s.append (chunk.take bytes) with stream := .bad }, false)
    | .lost bytes =>
      ({ s with
        stream := .bad
        current := s.current.map fun f => { f with payload := f.payload.take bytes }
        wrote := s.wrote + 1 }, false)
  else (s, false)

/-- The loop of `xsputn`, for at most `fuel` turns; the result is the buffer and how much was
taken. -/
def xsputnLoop : ℕ → LogBuffer → List UInt8 → ℕ → Option (LogBuffer × ℕ)
  | 0, _, _, _ => none
  | fuel + 1, s, bytes, written =>
    if bytes = [] then some (s, written) else
    let (s, isOpen) := s.ensureStream lim disk
    if !isOpen then some (s, written) else
    if 0 < lim.threshold ∧ lim.threshold ≤ s.bytesWritten then
      xsputnLoop fuel (s.rotateFile lim disk) bytes written
    else
      -- the threshold is not zero, so some space is left
      let chunk := min (lim.threshold - s.bytesWritten) bytes.length
      match s.writeChunk disk (bytes.take chunk) with
      | (s, false) => some (s, written)
      | (s, true) => xsputnLoop fuel s (bytes.drop chunk) (written + chunk)

/-- `xsputn`, with as many turns as it can need. -/
def xsputn (s : LogBuffer) (bytes : List UInt8) : Option (LogBuffer × ℕ) :=
  xsputnLoop lim disk (2 * bytes.length + 2) s bytes 0

/-- `sync`: whether the stream is good behind it. -/
def sync (s : LogBuffer) : LogBuffer × Bool :=
  if s.stream = .closed then (s, true) else (s.flush disk, (s.flush disk).stream = .good)

/-- The buffer as it is constructed. -/
def create : LogBuffer :=
  (openStream lim disk ⟨.closed, 0, 0, none, [], [], 0, 0, 0, []⟩).1

/-- The files on disk, oldest first. -/
def files (s : LogBuffer) : List Segment :=
  s.strays ++ (s.rollovers ++ [s.current]).reduceOption

/-- What the files hold of the log. -/
def kept (s : LogBuffer) : List UInt8 := s.files.flatMap Segment.payload

end LogBuffer

/-- The output stream over the buffer; a short write sets its `badbit`. -/
structure LogStream where
  buffer : LogBuffer
  badbit : Bool

def LogStream.put (lim : Limits) (disk : Disk) (o : LogStream) (bytes : List UInt8) :
    Option LogStream :=
  if o.badbit then some o else
    (o.buffer.xsputn lim disk bytes).map fun (s, written) => ⟨s, decide (written < bytes.length)⟩

def LogStream.flush (disk : Disk) (o : LogStream) : LogStream :=
  if o.badbit then o else ⟨(o.buffer.sync disk).1, !(o.buffer.sync disk).2⟩

/-- What the sink does with the stream. -/
inductive Op
  | put (bytes : List UInt8)
  | flush

def Op.bytes : Op → List UInt8
  | .put bytes => bytes
  | .flush => []

def LogStream.step (lim : Limits) (disk : Disk) (o : LogStream) : Op → Option LogStream
  | .put bytes => o.put lim disk bytes
  | .flush => some (o.flush disk)

namespace LogBuffer
variable {lim : Limits} {disk : Disk} {s : LogBuffer}

/-- No file is larger than the threshold and a byte order mark. -/
def Fits (lim : Limits) (f : Segment) : Prop := f.size ≤ lim.threshold + bom.length

/-- The file that is being written has its place, its size is counted while the stream is good,
and the files hold the end of the log as far as the disk keeps it. -/
structure Sound (lim : Limits) (disk : Disk) (s : LogBuffer) : Prop where
  isOpen : s.stream ≠ .closed → ∃ f, s.current = some f
  left : (∀ k, (disk.moves k).leaves = false) → s.stream = .closed → s.current = none
  counted : s.bytesWritten ≤ lim.threshold
  size : ∀ f, s.stream = .good → s.current = some f → f.size = s.bytesWritten + bom.length
  fits : ∀ f ∈ s.files, Fits lim f
  few : s.rollovers.length ≤ lim.maxRollovers
  made : s.rollovers.length ≤ s.rolloverCounter
  strays : (∀ k, disk.removes k = true) → s.strays = []
  sublist : (∀ k, (disk.moves k).leaves = false) → s.kept.Sublist s.logged
  suffix : disk.Keeps → s.kept <:+ s.logged
  all : disk.Keeps → s.rolloverCounter ≤ lim.maxRollovers → s.kept = s.logged

/-- The files that are no longer written to. -/
def older (s : LogBuffer) : List Segment := s.strays ++ s.rollovers.reduceOption

theorem files_eq (s : LogBuffer) : s.files = s.older ++ s.current.toList := by
  rw [files, older, List.reduceOption_append, List.append_assoc]
  cases s.current <;> rfl

theorem kept_eq (s : LogBuffer) :
    s.kept = s.older.flatMap Segment.payload ++ s.current.toList.flatMap Segment.payload := by
  rw [kept, files_eq, List.flatMap_append]

theorem mem_files_of_older {f : Segment} (hf : f ∈ s.older) : f ∈ s.files :=
  files_eq s ▸ List.mem_append_left _ hf

theorem mem_files_of_current {f : Segment} (hf : s.current = some f) : f ∈ s.files := by
  rw [files_eq, hf]
  exact List.mem_append_right _ (List.mem_singleton_self f)

/-- A new file holds nothing of the log, so opening it changes nothing that is kept, unless the
old one was left in its place. -/
theorem Sound.of_open (h : s.Sound lim disk) (hclosed : s.stream = .closed) {s' : LogBuffer}
    {head : List UInt8} (hcurrent : s'.current = some ⟨head, []⟩) (hstream : s'.stream ≠ .closed)
    (hbytes : s'.bytesWritten < lim.threshold)
    (hsize : s'.stream = .good → head.length = s'.bytesWritten + bom.length)
    (hfits : head.length ≤ lim.threshold + bom.length)
    (hrollovers : s'.rollovers = s.rollovers) (hstrays : s'.strays = s.strays)
    (hcounter : s'.rolloverCounter = s.rolloverCounter)
    (hlogged : s'.logged = s.logged) : s'.Sound lim disk := by
  have holder : s'.older = s.older := by rw [older, older, hrollovers, hstrays]
  have hkept : (∀ k, (disk.moves k).leaves = false) → s'.kept = s.kept := by
    intro hleaves
    rw [kept_eq, kept_eq, holder, hcurrent, h.left hleaves hclosed]
    rfl
  constructor
  · exact fun _ => ⟨_, hcurrent⟩
  · exact fun _ hclosed' => absurd hclosed' hstream
  · exact Nat.le_of_lt hbytes
  · intro f hgood hf
    rw [hcurrent, Option.some.injEq] at hf
    simpa [← hf, Segment.size] using hsize hgood
  · intro f hf
    rw [files_eq, holder, hcurrent] at hf
    rcases List.mem_append.mp hf with hf | hf
    · exact h.fits f (mem_files_of_older hf)
    · simp only [Option.toList_some, List.mem_singleton] at hf
      simpa [hf, Fits, Segment.size] using hfits
  · exact hrollovers ▸ h.few
  · rw [hrollovers, hcounter]
    exact h.made
  · rw [hstrays]
    exact h.strays
  · intro hleaves
    rw [hkept hleaves, hlogged]
    exact h.sublist hleaves
  · intro hkeeps
    rw [hkept hkeeps.leaves, hlogged]
    exact h.suffix hkeeps
  · intro hkeeps
    rw [hkept hkeeps.leaves, hlogged, hcounter]
    exact h.all hkeeps

theorem Sound.openStream (h : s.Sound lim disk) (hclosed : s.stream = .closed) :
    (s.openStream lim disk).1.Sound lim disk := by
  have hhead : (bom ++ lim.banner s.rolloverCounter).length ≤ lim.threshold + bom.length := by
    have := lim.banner_lt s.rolloverCounter
    rw [List.length_append]
    omega
  rw [LogBuffer.openStream]
  cases disk.opens s.opened with
  | refused =>
      exact ⟨fun hopen => absurd rfl hopen, fun hleaves _ => h.left hleaves hclosed, h.counted,
        by simp, h.fits, h.few, h.made, h.strays, h.sublist, h.suffix, h.all⟩
  | cut bytes counted =>
      refine h.of_open hclosed rfl (by simp) ?_ (by simp) ?_ rfl rfl rfl rfl
      · cases counted
        · exact lim.threshold_pos
        · exact lim.banner_lt s.rolloverCounter
      · rw [List.length_take]
        omega
  | complete =>
      refine h.of_open hclosed rfl (by simp) (lim.banner_lt s.rolloverCounter) ?_ hhead rfl rfl rfl
        rfl
      intro _
      simp [Nat.add_comm]

/-! ### Losing bytes -/

/-- The file that is written to loses its end, and the stream is not good any more. -/
theorem Sound.lose (h : s.Sound lim disk) (hgood : s.stream = .good) (hlossy : ¬ disk.Keeps)
    (p wrote flushed : ℕ) : Sound lim disk { s with
      stream := .bad
      current := s.current.map fun f => { f with payload := f.payload.take p }
      wrote, flushed } := by
  obtain ⟨f, hf⟩ := h.isOpen (by simp [hgood])
  constructor
  · exact fun _ => ⟨{ f with payload := f.payload.take p }, by simp [hf]⟩
  · intro _ hclosed
    cases hclosed
  · exact h.counted
  · intro g hbad
    cases hbad
  · intro g hg
    rw [files_eq] at hg
    rcases List.mem_append.mp hg with hg | hg
    · exact h.fits g (mem_files_of_older hg)
    · have hwhole : Fits lim f := h.fits f (mem_files_of_current hf)
      simp only [hf, Option.map_some, Option.toList_some, List.mem_singleton] at hg
      simp only [hg, Fits, Segment.size, List.length_take] at hwhole ⊢
      omega
  · exact h.few
  · exact h.made
  · exact h.strays
  · intro hleaves
    have hkept := h.sublist hleaves
    rw [kept_eq, hf, Option.toList_some, List.flatMap_singleton] at hkept
    rw [kept_eq, hf, Option.map_some, Option.toList_some, List.flatMap_singleton]
    exact ((List.take_sublist p f.payload).append_left _).trans hkept
  · exact fun hkeeps => absurd hkeeps hlossy
  · exact fun hkeeps => absurd hkeeps hlossy

theorem Sound.flush (h : s.Sound lim disk) : (s.flush disk).Sound lim disk := by
  rw [LogBuffer.flush]
  split
  · case isTrue hgood =>
      cases hflush : disk.flushes s.flushed with
      | none => exact { h with }
      | some p =>
          refine h.lose hgood ?_ p s.wrote (s.flushed + 1)
          intro hkeeps
          rw [hkeeps.flushes] at hflush
          cases hflush
  · exact h

theorem stream_flush (hopen : s.stream ≠ .closed) : (s.flush disk).stream ≠ .closed := by
  rw [LogBuffer.flush]
  split
  · cases disk.flushes s.flushed <;> simp_all
  · exact hopen

/-! ### A rollover -/

theorem reduceOption_cons (o : Option Segment) (l : List (Option Segment)) :
    (o :: l).reduceOption = o.toList ++ l.reduceOption := by
  cases o <;> rfl

@[simp] theorem stream_dropOldest (removed : Bool) (s : LogBuffer) :
    (dropOldest lim removed s).stream = s.stream := by
  rw [dropOldest]
  split <;> rfl

@[simp] theorem current_dropOldest (removed : Bool) (s : LogBuffer) :
    (dropOldest lim removed s).current = s.current := by
  rw [dropOldest]
  split <;> rfl

@[simp] theorem bytesWritten_dropOldest (removed : Bool) (s : LogBuffer) :
    (dropOldest lim removed s).bytesWritten = s.bytesWritten := by
  rw [dropOldest]
  split <;> rfl

@[simp] theorem rolloverCounter_dropOldest (removed : Bool) (s : LogBuffer) :
    (dropOldest lim removed s).rolloverCounter = s.rolloverCounter := by
  rw [dropOldest]
  split <;> rfl

@[simp] theorem logged_dropOldest (removed : Bool) (s : LogBuffer) :
    (dropOldest lim removed s).logged = s.logged := by
  rw [dropOldest]
  split <;> rfl

theorem strays_dropOldest (s : LogBuffer) : (dropOldest lim true s).strays = s.strays := by
  rw [dropOldest]
  split <;> rfl

theorem length_dropOldest_le {removed : Bool} (hfew : s.rollovers.length ≤ lim.maxRollovers + 1) :
    (dropOldest lim removed s).rollovers.length ≤ lim.maxRollovers := by
  rw [dropOldest]
  split
  · rw [List.length_tail]
    omega
  · omega

theorem length_dropOldest_le_self (removed : Bool) (s : LogBuffer) :
    (dropOldest lim removed s).rollovers.length ≤ s.rollovers.length := by
  rw [dropOldest]
  split
  · rw [List.length_tail]
    omega
  · exact Nat.le_refl _

/-- Dropping the oldest rollover takes at most that file. -/
theorem files_dropOldest_sublist (removed : Bool) (s : LogBuffer) :
    (dropOldest lim removed s).files.Sublist s.files := by
  rw [dropOldest]
  split
  · cases hrollovers : s.rollovers with
    | nil => simp_all
    | cons oldest rollovers =>
        simp only [files, hrollovers, List.tail_cons, List.head?_cons, Option.join_some,
          List.cons_append, reduceOption_cons]
        cases removed with
        | true => exact (List.sublist_append_right _ _).append_left _
        | false =>
            rw [if_neg Bool.false_ne_true, List.append_assoc]
  · exact List.Sublist.refl _

/-- Without strays, it takes the front. -/
theorem files_dropOldest_suffix (hstrays : s.strays = []) :
    (dropOldest lim true s).files <:+ s.files := by
  rw [dropOldest]
  split
  · cases hrollovers : s.rollovers with
    | nil => simp_all
    | cons oldest rollovers =>
        simp only [files, hrollovers, hstrays, if_true, List.tail_cons, List.nil_append,
          List.cons_append, reduceOption_cons]
        exact List.suffix_append _ _
  · exact List.suffix_rfl

theorem dropOldest_of_le (removed : Bool) (hfew : s.rollovers.length ≤ lim.maxRollovers) :
    dropOldest lim removed s = s :=
  if_neg (Nat.not_lt.mpr hfew)

/-! A file is moved away, whole or in part. -/

theorem files_moveAway (disk : Disk) {f : Segment} (hf : s.current = some f) :
    (s.moveAway disk).files = s.older ++
      (((disk.moves (s.rolloverCounter + 1)).rollover f).toList ++
        if (disk.moves (s.rolloverCounter + 1)).leaves then [f] else []) := by
  rw [files_eq, older, older]
  simp only [moveAway, hf, Option.bind_some, List.reduceOption_append, List.append_assoc]
  cases (disk.moves (s.rolloverCounter + 1)).rollover f <;>
    cases (disk.moves (s.rolloverCounter + 1)).leaves <;> rfl

theorem fits_rollover {f g : Segment} {moving : Moving} (hfits : Fits lim f)
    (hg : moving.rollover f = some g) : Fits lim g := by
  cases moving with
  | renamed => exact Option.some.inj hg ▸ hfits
  | copied removed => exact Option.some.inj hg ▸ hfits
  | cut bytes removed =>
      rw [← Option.some.inj hg]
      simp only [Fits, Segment.size, Segment.cut, List.length_take] at hfits ⊢
      omega
  | notCopied removed => cases hg

theorem payload_rollover_sublist (f : Segment) (moving : Moving) :
    ((moving.rollover f).toList.flatMap Segment.payload).Sublist f.payload := by
  cases moving with
  | renamed => simp [Moving.rollover]
  | copied removed => simp [Moving.rollover]
  | cut bytes removed => simpa [Moving.rollover, Segment.cut] using List.take_sublist _ f.payload
  | notCopied removed => simp [Moving.rollover]

/-- A disk that keeps moves the file as it is. -/
theorem files_moveAway_of_keeps (hkeeps : disk.Keeps) {f : Segment} (hf : s.current = some f) :
    (s.moveAway disk).files = s.files := by
  rw [files_moveAway disk hf, files_eq, hf, hkeeps.leaves]
  rcases hkeeps.moves (s.rolloverCounter + 1) with hmove | hmove <;> rw [hmove] <;> rfl

theorem Sound.retire (h : s.Sound lim disk) (hopen : s.stream ≠ .closed) :
    (s.retire lim disk).Sound lim disk := by
  obtain ⟨f, hf⟩ := h.isOpen hopen
  have hfiles : (s.retire lim disk).files.Sublist (s.moveAway disk).files :=
    files_dropOldest_sublist _ _
  have hlength : (s.moveAway disk).rollovers.length = s.rollovers.length + 1 :=
    List.length_append
  have hmoved := files_moveAway disk hf
  constructor
  · intro hclosed
    rw [LogBuffer.retire, stream_dropOldest] at hclosed
    exact absurd rfl hclosed
  · intro hleaves _
    rw [LogBuffer.retire, current_dropOldest, moveAway, hleaves]
    rfl
  · rw [LogBuffer.retire, bytesWritten_dropOldest]
    exact Nat.zero_le _
  · intro g hgood
    rw [LogBuffer.retire, stream_dropOldest] at hgood
    cases hgood
  · intro g hg
    have hwhole := h.fits f (mem_files_of_current hf)
    have hmem := hfiles.subset hg
    rw [hmoved] at hmem
    rcases List.mem_append.mp hmem with hmem | hmem
    · exact h.fits g (mem_files_of_older hmem)
    rcases List.mem_append.mp hmem with hmem | hmem
    · exact fits_rollover hwhole (Option.mem_toList.mp hmem)
    · split at hmem
      · rwa [List.mem_singleton.mp hmem]
      · cases hmem
  · have hfew := h.few
    exact length_dropOldest_le (by omega)
  · have hmade := h.made
    rw [LogBuffer.retire, rolloverCounter_dropOldest]
    refine Nat.le_trans (length_dropOldest_le_self _ _) ?_
    rw [hlength]
    exact Nat.succ_le_succ hmade
  · intro hremoves
    rw [LogBuffer.retire, hremoves, strays_dropOldest]
    exact h.strays hremoves
  · intro hleaves
    rw [LogBuffer.retire, logged_dropOldest]
    refine (hfiles.flatMap _).trans (List.Sublist.trans ?_ (h.sublist hleaves))
    rw [hmoved, hleaves, kept_eq, hf, List.flatMap_append, if_neg Bool.false_ne_true,
      List.append_nil, Option.toList_some, List.flatMap_singleton]
    exact (payload_rollover_sublist f _).append_left _
  · intro hkeeps
    rw [LogBuffer.retire, logged_dropOldest]
    have hsuffix : (s.retire lim disk).files <:+ s.files := by
      rw [← files_moveAway_of_keeps hkeeps hf, LogBuffer.retire, hkeeps.removes]
      exact files_dropOldest_suffix (h.strays hkeeps.removes)
    obtain ⟨gone, hgone⟩ := hsuffix
    refine List.IsSuffix.trans ⟨gone.flatMap Segment.payload, ?_⟩ (h.suffix hkeeps)
    rw [kept, kept, ← List.flatMap_append, ← hgone]
    rfl
  · intro hkeeps hcounter
    rw [LogBuffer.retire, rolloverCounter_dropOldest] at hcounter
    have hless : s.rolloverCounter + 1 ≤ lim.maxRollovers := hcounter
    have hmade := h.made
    rw [LogBuffer.retire, dropOldest_of_le _ (by omega), kept, files_moveAway_of_keeps hkeeps hf]
    exact h.all hkeeps (by omega)

theorem stream_retire (s : LogBuffer) : (s.retire lim disk).stream = .closed := by
  rw [LogBuffer.retire, stream_dropOldest]
  rfl

theorem Sound.rotateFile (h : s.Sound lim disk) : (s.rotateFile lim disk).Sound lim disk := by
  rw [LogBuffer.rotateFile]
  split
  · exact h
  · case isFalse hopen =>
      exact (h.flush.retire (stream_flush hopen)).openStream (stream_retire _)

/-! ### A chunk -/

/-- Bytes that reach an open file are logged and kept, whatever the stream says of them. -/
theorem Sound.append (h : s.Sound lim disk) (hgood : s.stream = .good) {bytes : List UInt8}
    (hspace : s.bytesWritten + bytes.length ≤ lim.threshold) {n : ℕ} {stream : StreamState}
    (hn : n ≤ lim.threshold) (hopen : stream ≠ .closed)
    (hcount : stream = .good → n = s.bytesWritten + bytes.length) :
    ({ s.append bytes with bytesWritten := n, stream := stream } : LogBuffer).Sound lim disk := by
  obtain ⟨f, hf⟩ := h.isOpen (by simp [hgood])
  have hsize := h.size f hgood hf
  have hcurrent : (s.append bytes).current = some ⟨f.head, f.payload ++ bytes⟩ := by
    simp [LogBuffer.append, hf]
  have hkept : (s.append bytes).kept = s.kept ++ bytes := by
    rw [kept_eq, kept_eq, hcurrent, hf]
    simp [LogBuffer.append, older]
  constructor
  · exact fun _ => ⟨_, hcurrent⟩
  · exact fun _ hclosed => absurd hclosed hopen
  · exact hn
  · intro g hstream hg
    change (s.append bytes).current = some g at hg
    rw [hcurrent, Option.some.injEq] at hg
    change g.size = n + bom.length
    rw [← hg, hcount hstream]
    simp only [Segment.size, List.length_append] at hsize ⊢
    omega
  · intro g hg
    rw [files_eq] at hg
    rcases List.mem_append.mp hg with hg | hg
    · exact h.fits g (mem_files_of_older hg)
    · change g ∈ (s.append bytes).current.toList at hg
      rw [hcurrent, Option.toList_some, List.mem_singleton] at hg
      simp only [hg, Fits, Segment.size, List.length_append] at hsize ⊢
      omega
  · exact h.few
  · exact h.made
  · exact h.strays
  · intro hleaves
    change (s.append bytes).kept.Sublist (s.logged ++ bytes)
    rw [hkept]
    exact (h.sublist hleaves).append (List.Sublist.refl bytes)
  · intro hkeeps
    obtain ⟨gone, hgone⟩ := h.suffix hkeeps
    refine ⟨gone, ?_⟩
    change gone ++ (s.append bytes).kept = s.logged ++ bytes
    rw [hkept, ← hgone, List.append_assoc]
  · intro hkeeps hcounter
    change (s.append bytes).kept = s.logged ++ bytes
    rw [hkept, h.all hkeeps hcounter]

theorem Sound.writeChunk (h : s.Sound lim disk) {chunk : List UInt8}
    (hspace : s.bytesWritten + chunk.length ≤ lim.threshold) :
    (s.writeChunk disk chunk).1.Sound lim disk := by
  rw [LogBuffer.writeChunk]
  by_cases hgood : s.stream = .good
  · rw [if_pos hgood]
    cases hwrite : disk.writes s.wrote with
    | complete =>
        have hstream : (s.append chunk).stream = .good := hgood
        have hopen : StreamState.good ≠ .closed := by simp
        have hsound := h.append hgood hspace hspace hopen fun _ => rfl
        simpa only [← hstream] using hsound
    | cut bytes =>
        have htake : (chunk.take bytes).length ≤ chunk.length := List.length_take_le' _ _
        exact h.append hgood (by omega) h.counted (by simp) (by simp)
    | lost bytes => exact h.lose hgood (fun hkeeps => hkeeps.writes _ _ hwrite) _ _ _
  · rw [if_neg hgood]
    exact h

/-! ### The loop -/

/-- After `ensure_stream` says yes there is a stream. -/
theorem stream_of_ensureStream (hopen : (s.ensureStream lim disk).2 = true) :
    (s.ensureStream lim disk).1.stream ≠ .closed := by
  rw [ensureStream] at hopen ⊢
  split at hopen <;> rename_i hclosed
  · rw [if_pos hclosed]
    rw [openStream] at hopen ⊢
    cases hd : disk.opens s.opened <;> simp [hd] at hopen ⊢
  · rw [if_neg hclosed]
    exact hclosed

theorem Sound.ensureStream (h : s.Sound lim disk) :
    (s.ensureStream lim disk).1.Sound lim disk := by
  rw [LogBuffer.ensureStream]
  split
  · exact h.openStream ‹_›
  · exact h

@[simp] theorem logged_openStream (s : LogBuffer) :
    (s.openStream lim disk).1.logged = s.logged := by
  rw [openStream]
  cases disk.opens s.opened <;> rfl

@[simp] theorem logged_ensureStream (s : LogBuffer) :
    (s.ensureStream lim disk).1.logged = s.logged := by
  rw [ensureStream]
  split
  · exact logged_openStream s
  · rfl

@[simp] theorem logged_flush (s : LogBuffer) : (s.flush disk).logged = s.logged := by
  rw [flush]
  split
  · cases disk.flushes s.flushed <;> rfl
  · rfl

@[simp] theorem logged_rotateFile (s : LogBuffer) :
    (s.rotateFile lim disk).logged = s.logged := by
  rw [rotateFile]
  split
  · rfl
  · rw [logged_openStream, retire, logged_dropOldest]
    exact logged_flush s

/-- A chunk is logged as far as it was written, whole when the write went well. -/
theorem logged_writeChunk (disk : Disk) (s : LogBuffer) (chunk : List UInt8) :
    ∃ taken, taken <+: chunk ∧ (s.writeChunk disk chunk).1.logged = s.logged ++ taken ∧
      ((s.writeChunk disk chunk).2 = true → taken = chunk) := by
  rw [writeChunk]
  split
  · cases disk.writes s.wrote with
    | complete => exact ⟨chunk, List.prefix_rfl, rfl, fun _ => rfl⟩
    | cut bytes => exact ⟨chunk.take bytes, List.take_prefix bytes chunk, rfl, by simp⟩
    | lost bytes => exact ⟨[], List.nil_prefix, (List.append_nil _).symm, by simp⟩
  · exact ⟨[], List.nil_prefix, (List.append_nil _).symm, by simp⟩

section Turns
variable {s₁ s₂ : LogBuffer} {fuel : ℕ} {bytes : List UInt8} {written : ℕ}

/-- How much of `bytes` the next chunk takes. -/
def chunkSize (lim : Limits) (s : LogBuffer) (bytes : List UInt8) : ℕ :=
  min (lim.threshold - s.bytesWritten) bytes.length

/-! One turn of the loop: there is no file, the file is full, or a chunk is written. -/

theorem xsputnLoop_refused (hne : bytes ≠ []) (hs : s.ensureStream lim disk = (s₁, false)) :
    xsputnLoop lim disk (fuel + 1) s bytes written = some (s₁, written) := by
  simp [xsputnLoop, hne, hs]

theorem xsputnLoop_full (hne : bytes ≠ []) (hs : s.ensureStream lim disk = (s₁, true))
    (hfull : lim.threshold ≤ s₁.bytesWritten) :
    xsputnLoop lim disk (fuel + 1) s bytes written =
      xsputnLoop lim disk fuel (s₁.rotateFile lim disk) bytes written := by
  simp [xsputnLoop, hne, hs, hfull, lim.threshold_pos]

theorem xsputnLoop_failed (hne : bytes ≠ []) (hs : s.ensureStream lim disk = (s₁, true))
    (hspace : s₁.bytesWritten < lim.threshold)
    (hw : s₁.writeChunk disk (bytes.take (chunkSize lim s₁ bytes)) = (s₂, false)) :
    xsputnLoop lim disk (fuel + 1) s bytes written = some (s₂, written) := by
  rw [chunkSize] at hw
  simp [xsputnLoop, hne, hs, hw, Nat.not_le_of_lt hspace]

theorem xsputnLoop_written (hne : bytes ≠ []) (hs : s.ensureStream lim disk = (s₁, true))
    (hspace : s₁.bytesWritten < lim.threshold)
    (hw : s₁.writeChunk disk (bytes.take (chunkSize lim s₁ bytes)) = (s₂, true)) :
    xsputnLoop lim disk (fuel + 1) s bytes written =
      xsputnLoop lim disk fuel s₂ (bytes.drop (chunkSize lim s₁ bytes))
        (written + chunkSize lim s₁ bytes) := by
  rw [chunkSize] at hw
  simp [xsputnLoop, hne, hs, hw, Nat.not_le_of_lt hspace, chunkSize]

theorem chunkSize_pos (hne : bytes ≠ []) (hspace : s.bytesWritten < lim.threshold) :
    0 < chunkSize lim s bytes := by
  have hlen := List.length_pos_iff.mpr hne
  rw [chunkSize]
  omega

theorem chunkSize_le (lim : Limits) (s : LogBuffer) (bytes : List UInt8) :
    chunkSize lim s bytes ≤ bytes.length :=
  Nat.min_le_right _ _

/-- A chunk fits into the file. -/
theorem chunk_fits (hcounted : s.bytesWritten ≤ lim.threshold) :
    s.bytesWritten + (bytes.take (chunkSize lim s bytes)).length ≤ lim.threshold := by
  rw [List.length_take, chunkSize]
  omega

end Turns

/-- The loop keeps the buffer sound and logs what it takes. -/
theorem xsputnLoop_spec {fuel : ℕ} : ∀ {s s' : LogBuffer} {bytes : List UInt8} {written n : ℕ},
    s.Sound lim disk → xsputnLoop lim disk fuel s bytes written = some (s', n) →
    s'.Sound lim disk ∧ n ≤ written + bytes.length ∧ ∃ taken : List UInt8, taken <+: bytes ∧
      s'.logged = s.logged ++ taken ∧ (n = written + bytes.length → taken = bytes) := by
  induction fuel with
  | zero =>
      intro s s' bytes written n h heq
      cases heq
  | succ fuel ih =>
      intro s s' bytes written n h heq
      by_cases hnil : bytes = []
      · subst hnil
        rw [xsputnLoop, if_pos rfl, Option.some.injEq, Prod.mk.injEq] at heq
        obtain ⟨rfl, rfl⟩ := heq
        exact ⟨h, Nat.le_refl _, [], List.prefix_rfl, (List.append_nil _).symm, fun _ => rfl⟩
      have hlen := List.length_pos_iff.mpr hnil
      rcases hs : s.ensureStream lim disk with ⟨s₁, isOpen⟩
      have h₁ : s₁.Sound lim disk := by simpa only [hs] using h.ensureStream
      have hlog : s₁.logged = s.logged := by
        have hsame : (s.ensureStream lim disk).1.logged = s.logged := logged_ensureStream s
        simpa only [hs] using hsame
      cases isOpen with
      | false =>
          rw [xsputnLoop_refused hnil hs, Option.some.injEq, Prod.mk.injEq] at heq
          obtain ⟨rfl, rfl⟩ := heq
          exact ⟨h₁, by omega, [], List.nil_prefix, by rw [hlog, List.append_nil], by omega⟩
      | true =>
          by_cases hfull : lim.threshold ≤ s₁.bytesWritten
          · rw [xsputnLoop_full hnil hs hfull] at heq
            obtain ⟨h', hn, taken, hpre, hlog', hall⟩ := ih h₁.rotateFile heq
            exact ⟨h', hn, taken, hpre, by rw [hlog', logged_rotateFile, hlog], hall⟩
          have hspace := Nat.lt_of_not_le hfull
          rcases hw : s₁.writeChunk disk (bytes.take (chunkSize lim s₁ bytes)) with ⟨s₂, ok⟩
          have h₂ : s₂.Sound lim disk := by
            have hfits : s₁.bytesWritten + (bytes.take (chunkSize lim s₁ bytes)).length ≤
                lim.threshold := chunk_fits h₁.counted
            simpa only [hw] using h₁.writeChunk hfits
          obtain ⟨first, hfirst, hlog₂, hok⟩ := logged_writeChunk disk s₁
            (bytes.take (chunkSize lim s₁ bytes))
          rw [hw, hlog] at hlog₂
          cases ok with
          | false =>
              rw [xsputnLoop_failed hnil hs hspace hw, Option.some.injEq, Prod.mk.injEq] at heq
              obtain ⟨rfl, rfl⟩ := heq
              exact ⟨h₂, by omega, first, hfirst.trans (List.take_prefix _ _), hlog₂, by omega⟩
          | true =>
              rw [xsputnLoop_written hnil hs hspace hw] at heq
              obtain ⟨h', hn, taken, hpre, hlog', hall⟩ := ih h₂ heq
              have hchunk := chunkSize_le lim s₁ bytes
              have hwhole := hok (by rw [hw])
              subst hwhole
              rw [List.length_drop] at hn hall
              refine ⟨h', by omega, bytes.take (chunkSize lim s₁ bytes) ++ taken, ?_, ?_, ?_⟩
              · obtain ⟨rest, hrest⟩ := hpre
                exact ⟨rest, by rw [List.append_assoc, hrest, List.take_append_drop]⟩
              · rw [hlog', hlog₂, List.append_assoc]
              · intro hlast
                rw [hall (by omega), List.take_append_drop]

/-! ### The loop ends -/

theorem bytesWritten_openStream (hlt : s.bytesWritten < lim.threshold) :
    (s.openStream lim disk).1.bytesWritten < lim.threshold := by
  rw [openStream]
  cases disk.opens s.opened with
  | refused => exact hlt
  | cut bytes counted =>
      cases counted
      · exact lim.threshold_pos
      · exact lim.banner_lt s.rolloverCounter
  | complete => exact lim.banner_lt s.rolloverCounter

/-- A rotation leaves room in the file. -/
theorem bytesWritten_rotateFile (hopen : s.stream ≠ .closed) :
    (s.rotateFile lim disk).bytesWritten < lim.threshold := by
  rw [rotateFile, if_neg hopen]
  refine bytesWritten_openStream ?_
  rw [retire, bytesWritten_dropOldest]
  exact lim.threshold_pos

theorem bytesWritten_ensureStream (hlt : s.bytesWritten < lim.threshold) :
    (s.ensureStream lim disk).1.bytesWritten < lim.threshold := by
  rw [ensureStream]
  split
  · exact bytesWritten_openStream hlt
  · exact hlt

/-- Every turn but a rotation takes a byte, and no two rotations follow each other. -/
theorem xsputnLoop_isSome {fuel : ℕ} : ∀ {s : LogBuffer} {bytes : List UInt8} {written : ℕ},
    2 * bytes.length + (if s.bytesWritten < lim.threshold then 1 else 2) ≤ fuel →
    (xsputnLoop lim disk fuel s bytes written).isSome := by
  induction fuel with
  | zero =>
      intro s bytes written hfuel
      split at hfuel <;> omega
  | succ fuel ih =>
      intro s bytes written hfuel
      by_cases hnil : bytes = []
      · simp [xsputnLoop, hnil]
      have hlen := List.length_pos_iff.mpr hnil
      rcases hs : s.ensureStream lim disk with ⟨s₁, isOpen⟩
      cases isOpen with
      | false => rw [xsputnLoop_refused hnil hs]; rfl
      | true =>
          have hopen : s₁.stream ≠ .closed := by
            have hsome : (s.ensureStream lim disk).1.stream ≠ .closed :=
              stream_of_ensureStream (by rw [hs])
            rwa [hs] at hsome
          by_cases hfull : lim.threshold ≤ s₁.bytesWritten
          · rw [xsputnLoop_full hnil hs hfull]
            apply ih
            rw [if_pos (bytesWritten_rotateFile hopen)]
            have hless : ¬ s.bytesWritten < lim.threshold := by
              intro hlt
              have hroom : (s.ensureStream lim disk).1.bytesWritten < lim.threshold :=
                bytesWritten_ensureStream hlt
              rw [hs] at hroom
              exact Nat.not_le_of_lt hroom hfull
            rw [if_neg hless] at hfuel
            omega
          have hspace := Nat.lt_of_not_le hfull
          rcases hw : s₁.writeChunk disk (bytes.take (chunkSize lim s₁ bytes)) with ⟨s₂, ok⟩
          cases ok with
          | false => rw [xsputnLoop_failed hnil hs hspace hw]; rfl
          | true =>
              rw [xsputnLoop_written hnil hs hspace hw]
              apply ih
              have hpos := chunkSize_pos (s := s₁) hnil hspace
              rw [List.length_drop]
              split at hfuel <;> split <;> omega

end LogBuffer

open LogBuffer

variable {lim : Limits} {disk : Disk}

/-- The buffer is sound, and what was logged is what was put, up to a short write. -/
structure LogStream.Sound (lim : Limits) (disk : Disk) (put : List UInt8) (o : LogStream) :
    Prop where
  buffer : o.buffer.Sound lim disk
  logged : o.buffer.logged <+: put
  whole : o.badbit = false → o.buffer.logged = put

/-- One put: it ends, and it keeps the stream sound. -/
theorem LogStream.Sound.put {written : List UInt8} {o : LogStream}
    (h : o.Sound lim disk written) (bytes : List UInt8) :
    ∃ o', o.put lim disk bytes = some o' ∧ o'.Sound lim disk (written ++ bytes) := by
  cases hbad : o.badbit with
  | true =>
      exact ⟨o, by rw [LogStream.put, if_pos hbad], h.buffer,
        h.logged.trans (List.prefix_append _ _), fun hgood => by rw [hbad] at hgood; cases hgood⟩
  | false =>
      have hwhole := h.whole hbad
      have hsome : (o.buffer.xsputn lim disk bytes).isSome :=
        xsputnLoop_isSome (by split <;> omega)
      obtain ⟨⟨s, n⟩, hs⟩ := Option.isSome_iff_exists.mp hsome
      obtain ⟨hsound, hn, taken, hpre, hlog, hall⟩ := xsputnLoop_spec h.buffer hs
      refine ⟨⟨s, decide (n < bytes.length)⟩, by simp [LogStream.put, hbad, hs], hsound, ?_, ?_⟩
      · change s.logged <+: _
        rw [hlog, hwhole]
        exact List.prefix_append_right_inj _ |>.mpr hpre
      · intro hgood
        have hn' : n = 0 + bytes.length := by
          have := of_decide_eq_false hgood
          omega
        change s.logged = _
        rw [hlog, hwhole, hall hn']

theorem LogStream.Sound.flush {written : List UInt8} {o : LogStream}
    (h : o.Sound lim disk written) : (o.flush disk).Sound lim disk written := by
  rw [LogStream.flush]
  split
  · exact h
  · case isFalse hgood =>
      rw [Bool.not_eq_true] at hgood
      rw [LogBuffer.sync]
      split
      · exact ⟨h.buffer, h.logged, fun _ => h.whole hgood⟩
      · refine ⟨h.buffer.flush, ?_, ?_⟩
        · simpa using h.logged
        · exact fun _ => (logged_flush o.buffer).trans (h.whole hgood)

/-- One operation: it ends, and it keeps the stream sound. -/
theorem LogStream.Sound.step {written : List UInt8} {o : LogStream}
    (h : o.Sound lim disk written) (op : Op) :
    ∃ o', o.step lim disk op = some o' ∧ o'.Sound lim disk (written ++ op.bytes) := by
  cases op with
  | put bytes => exact h.put bytes
  | flush => exact ⟨_, rfl, by simpa only [Op.bytes, List.append_nil] using h.flush⟩

/-- Any number of operations. -/
theorem LogStream.Sound.run {written : List UInt8} {o : LogStream} (h : o.Sound lim disk written)
    (ops : List Op) :
    ∃ o', Lib.run (LogStream.step lim disk) o ops = some o' ∧
      o'.Sound lim disk (written ++ ops.flatMap Op.bytes) := by
  induction ops generalizing o written with
  | nil => exact ⟨o, rfl, by rwa [List.flatMap_nil, List.append_nil]⟩
  | cons op ops ih =>
      obtain ⟨o₁, hstep, h₁⟩ := h.step op
      obtain ⟨o', hrun, h'⟩ := ih h₁
      refine ⟨o', Lib.run_cons_eq_some.mpr ⟨o₁, hstep, hrun⟩, ?_⟩
      rwa [List.flatMap_cons, ← List.append_assoc]

end LuminalShine.Logging
