import LuminalShine.Lib.Run
import LuminalShine.Pipes.Framed

/-!
# Overlapped reads and writes

`WinPipe::receive` and `WinPipe::send` of `src/platform/windows/ipc/pipes.cpp`.  A call starts an
overlapped operation and waits for it; when the wait expires, it cancels the operation and
waits for its end.

The operation may end by itself between the two, and then it has moved bytes.  The call does
not look at the result: it reports a timeout, and the bytes are gone from the stream.

The steps are those of the caller, of the system and of the peer, in any order.  An operation
ends with some bytes, with an error, or by being cancelled.

## Main definitions

* `handlePendingReceive`, `handlePendingSend` — what a call makes of the end of its operation.
* `Half`, `Pipe`, `step` — the two directions, one operation at a time in each.
* `Lossless` — what the calls so far owe the two streams.

## Main results

* `lossless_iff` — the runs in which they do.
-/

namespace LuminalShine.Pipes.Overlapped

open LuminalShine.Lib

/-! ## The calls -/

inductive WinError
  | brokenPipe
  | operationAborted
  | other
  deriving DecidableEq, Repr

/-- What `GetOverlappedResult` gives. -/
inductive OverlappedResult
  | transferred (bytes : Bytes)
  | failed (err : WinError)
  deriving DecidableEq, Repr

/-- `WAIT_OBJECT_0`, `WAIT_TIMEOUT`, and anything else. -/
inductive WaitResult
  | object0
  | timeout
  | failed
  deriving DecidableEq, Repr

def OverlappedResult.bytes : OverlappedResult → Bytes
  | .transferred bytes => bytes
  | .failed _ => []

/-- `handle_pending_receive_operation`: the result, and the bytes the caller gets. -/
def handlePendingReceive : WaitResult → OverlappedResult → PipeResult × Bytes
  | .object0, .transferred bytes => (.success, bytes)
  | .object0, .failed .brokenPipe => (.brokenPipe, [])
  | .object0, .failed .operationAborted => (.disconnected, [])
  | .object0, .failed .other => (.error, [])
  -- The operation is cancelled, and its result is not looked at.
  | .timeout, _ => (.timeout, [])
  | .failed, _ => (.error, [])

/-- `handle_pending_send_operation` -/
def handlePendingSend : WaitResult → OverlappedResult → Bool × Bytes
  | .object0, .transferred _ => (true, [])
  | .object0, .failed _ => (false, [])
  | .timeout, _ => (false, [])
  | .failed, _ => (false, [])

/-! ## One direction -/

/-- A call that has returned: whether it was by the timeout, the bytes its operation moved, and
those its caller got. -/
structure Call (R : Type) where
  result : R
  timedOut : Bool
  moved : Bytes
  handed : Bytes
  deriving DecidableEq, Repr

/-- `pending` is an operation with room for some bytes, and `ended` one whose call has not
returned; the flag says that the wait for it has expired before. -/
inductive Phase
  | idle
  | pending (room : ℕ) (expired : Bool)
  | ended (expired : Bool) (result : OverlappedResult)
  deriving DecidableEq, Repr

def Phase.bytes : Phase → Bytes
  | .ended _ result => result.bytes
  | _ => []

/-- `source` is what an operation can move. -/
structure Half (R : Type) where
  source : Bytes := []
  phase : Phase := .idle
  log : List (Call R) := []
  deriving DecidableEq, Repr

/-- The steps of an operation and of the call that waits for it. -/
inductive Event
  | completes (n : ℕ)
  | fails (err : WinError)
  | expires
  | cancels
  | waitFails
  | returns
  deriving DecidableEq, Repr

namespace Half

variable {R : Type}

/-- The call returns. -/
def finish (handle : WaitResult → OverlappedResult → R × Bytes) (wait : WaitResult)
    (result : OverlappedResult) (h : Half R) : Half R :=
  { h with
    phase := .idle
    log := h.log ++ [⟨(handle wait result).1, wait = .timeout, result.bytes,
      (handle wait result).2⟩] }

def advance (handle : WaitResult → OverlappedResult → R × Bytes) (h : Half R) :
    Event → Option (Half R)
  | .completes n =>
      match h.phase with
      | .pending room expired =>
          if n ≤ room ∧ n ≤ h.source.length then
            some { h with
              source := h.source.drop n
              phase := .ended expired (.transferred (h.source.take n)) }
          else none
      | _ => none
  | .fails err =>
      match h.phase with
      | .pending _ expired => some { h with phase := .ended expired (.failed err) }
      | _ => none
  | .expires =>
      match h.phase with
      | .pending room false => some { h with phase := .pending room true }
      | _ => none
  | .cancels =>
      match h.phase with
      | .pending _ true => some { h with phase := .ended true (.failed .operationAborted) }
      | _ => none
  | .waitFails =>
      -- A failed wait is taken to leave no operation behind.
      match h.phase with
      | .pending _ false => some (h.finish handle .failed (.failed .operationAborted))
      | _ => none
  | .returns =>
      match h.phase with
      | .ended expired result =>
          some (h.finish handle (if expired then .timeout else .object0) result)
      | _ => none

/-- The call that returns did not time out on an operation that has moved bytes. -/
def NotLate (h : Half R) : Event → Prop
  | .returns => ∀ result, h.phase = .ended true result → result.bytes = []
  | _ => True

end Half

/-! ## The pipe -/

/-- `sent` is what the peer has written so far. -/
structure Pipe where
  connected : Bool := true
  sent : Bytes := []
  rx : Half PipeResult := {}
  tx : Half Bool := {}
  deriving DecidableEq, Repr

/-- How `ReadFile` or `WriteFile` returns. -/
inductive Start
  | done (n : ℕ)
  | pending
  | fails (err : WinError)
  deriving DecidableEq, Repr

inductive Label
  | peerWrites (bytes : Bytes)
  | receive (size : ℕ) (start : Start)
  | send (message : Bytes) (start : Start)
  | rx (event : Event)
  | tx (event : Event)
  deriving DecidableEq, Repr

/-- A call that returns without having waited. -/
def Half.logged {R : Type} (result : R) (moved handed : Bytes) (h : Half R) : Half R :=
  { h with log := h.log ++ [⟨result, false, moved, handed⟩] }

/-- `receive`, up to the wait. -/
def receive (size : ℕ) (start : Start) (s : Pipe) : Option Pipe :=
  if s.rx.phase ≠ .idle then none
  else if !s.connected then some { s with rx := s.rx.logged .disconnected [] [] }
  else match start with
    | .done n =>
        if n ≤ size ∧ n ≤ s.rx.source.length then
          let rx := { s.rx with source := s.rx.source.drop n }
          some { s with rx := rx.logged .success (s.rx.source.take n) (s.rx.source.take n) }
        else none
    | .pending => some { s with rx := { s.rx with phase := .pending size false } }
    | .fails .brokenPipe =>
        some { s with connected := false, rx := s.rx.logged .brokenPipe [] [] }
    | .fails _ => some { s with rx := s.rx.logged .error [] [] }

/-- `send`, up to the wait. -/
def send (message : Bytes) (start : Start) (s : Pipe) : Option Pipe :=
  if s.tx.phase ≠ .idle then none
  else if !s.connected then some { s with tx := s.tx.logged false [] [] }
  else match start with
    | .done n =>
        if n ≤ message.length then
          some { s with tx := s.tx.logged (n == message.length) (message.take n) [] }
        else none
    | .pending =>
        let tx := { s.tx with source := message, phase := .pending message.length false }
        some { s with tx }
    | .fails .brokenPipe => some { s with connected := false, tx := s.tx.logged false [] [] }
    | .fails _ => some { s with tx := s.tx.logged false [] [] }

/-- Both handlers disconnect when the wait succeeds and the pipe is broken. -/
def breaks (phase : Phase) (event : Event) : Bool :=
  event = .returns && phase = .ended false (.failed .brokenPipe)

def step (s : Pipe) : Label → Option Pipe
  | .peerWrites bytes =>
      some { s with sent := s.sent ++ bytes, rx := { s.rx with source := s.rx.source ++ bytes } }
  | .receive size start => receive size start s
  | .send message start => send message start s
  | .rx event =>
      (s.rx.advance handlePendingReceive event).map fun rx =>
        { s with rx, connected := s.connected && !breaks s.rx.phase event }
  | .tx event =>
      (s.tx.advance handlePendingSend event).map fun tx =>
        { s with tx, connected := s.connected && !breaks s.tx.phase event }

/-- A `receive` that reports a timeout has taken no byte, a `send` that timed out has moved none,
and what the receives have handed out is the beginning of what the peer has written. -/
structure Lossless (s : Pipe) : Prop where
  receives : ∀ c ∈ s.rx.log, c.result = .timeout → c.moved = []
  sends : ∀ c ∈ s.tx.log, c.timedOut = true → c.moved = []
  stream : s.rx.log.flatMap (·.handed) <+: s.sent

/-- In this step, no call times out on an operation that has moved bytes. -/
def NotLate (s : Pipe) : Label → Prop
  | .rx event => s.rx.NotLate event
  | .tx event => s.tx.NotLate event
  | _ => True

/-! ## What a step moves -/

section Half

variable {R : Type} {handle : WaitResult → OverlappedResult → R × Bytes} {h h' : Half R}
  {event : Event}

/-- A step of an operation moves its bytes out of the source; the return of its call records
them. -/
theorem Half.advance_cases (hs : h.advance handle event = some h') :
    (h'.log = h.log ∧ h'.phase.bytes ++ h'.source = h.phase.bytes ++ h.source) ∨
      ∃ wait result, h' = h.finish handle wait result ∧ result.bytes = h.phase.bytes ∧
        (wait = .timeout → event = .returns ∧ h.phase = .ended true result) ∧
        (wait = .failed → result.bytes = []) := by
  cases event with
  | completes n =>
      simp only [advance] at hs
      split at hs
      · case h_1 room expired hphase =>
          simp only [Option.ite_none_right_eq_some, Option.some.injEq] at hs
          rcases hs with ⟨-, rfl⟩
          exact Or.inl ⟨rfl, by simp [hphase, Phase.bytes, OverlappedResult.bytes]⟩
      · cases hs
  | fails err =>
      simp only [advance] at hs
      split at hs
      · case h_1 room expired hphase =>
          cases hs
          exact Or.inl ⟨rfl, by simp [hphase, Phase.bytes, OverlappedResult.bytes]⟩
      · cases hs
  | expires =>
      simp only [advance] at hs
      split at hs
      · case h_1 room hphase =>
          cases hs
          exact Or.inl ⟨rfl, by simp [hphase, Phase.bytes]⟩
      · cases hs
  | cancels =>
      simp only [advance] at hs
      split at hs
      · case h_1 room hphase =>
          cases hs
          exact Or.inl ⟨rfl, by simp [hphase, Phase.bytes, OverlappedResult.bytes]⟩
      · cases hs
  | waitFails =>
      simp only [advance] at hs
      split at hs
      · case h_1 room hphase =>
          cases hs
          refine Or.inr ⟨.failed, .failed .operationAborted, rfl, ?_, by simp, fun _ => rfl⟩
          simp [hphase, Phase.bytes, OverlappedResult.bytes]
      · cases hs
  | returns =>
      simp only [advance] at hs
      split at hs
      · case h_1 expired result hphase =>
          cases hs
          refine Or.inr ⟨_, result, rfl, by simp [hphase, Phase.bytes], ?_, ?_⟩
          · cases expired <;> simp [hphase]
          · cases expired <;> simp
      · cases hs

end Half

/-- A receive that did not time out hands out what its operation has moved. -/
theorem handlePendingReceive_snd {wait : WaitResult} {result : OverlappedResult}
    (htimeout : wait = .timeout → result.bytes = [])
    (hfailed : wait = .failed → result.bytes = []) :
    (handlePendingReceive wait result).2 = result.bytes := by
  cases wait with
  | object0 =>
      cases result with
      | transferred bytes => rfl
      | failed err => cases err <;> rfl
  | timeout => simp [handlePendingReceive, htimeout]
  | failed => simp [handlePendingReceive, hfailed]

theorem handlePendingReceive_timeout {wait : WaitResult} {result : OverlappedResult}
    (h : (handlePendingReceive wait result).1 = .timeout) : wait = .timeout := by
  cases wait with
  | object0 =>
      cases result with
      | transferred bytes => cases h
      | failed err => cases err <;> cases h
  | timeout => rfl
  | failed => cases h

/-- A receive starts an operation, or returns with what it has read at once. -/
theorem receive_cases {s s' : Pipe} {size : ℕ} {start : Start}
    (hs : receive size start s = some s') :
    s.rx.phase = .idle ∧ s'.sent = s.sent ∧ s'.tx = s.tx ∧ s'.rx.phase.bytes = [] ∧
      (s'.rx.log = s.rx.log ∧ s'.rx.source = s.rx.source ∨
        ∃ result bytes, result ≠ .timeout ∧ bytes ++ s'.rx.source = s.rx.source ∧
          s'.rx.log = s.rx.log ++ [⟨result, false, bytes, bytes⟩]) := by
  unfold receive at hs
  split at hs
  · cases hs
  · case isFalse hidle =>
      have hphase : s.rx.phase = .idle := not_not.mp hidle
      split at hs
      · cases hs
        exact ⟨hphase, rfl, rfl, by simp [Half.logged, hphase, Phase.bytes],
          Or.inr ⟨.disconnected, [], by simp, rfl, rfl⟩⟩
      · split at hs
        · case h_1 n =>
            simp only [Option.ite_none_right_eq_some, Option.some.injEq] at hs
            rcases hs with ⟨-, rfl⟩
            exact ⟨hphase, rfl, rfl, by simp [Half.logged, hphase, Phase.bytes],
              Or.inr ⟨.success, _, by simp, List.take_append_drop n _, rfl⟩⟩
        · case h_2 =>
            cases hs
            exact ⟨hphase, rfl, rfl, rfl, Or.inl ⟨rfl, rfl⟩⟩
        · case h_3 =>
            cases hs
            exact ⟨hphase, rfl, rfl, by simp [Half.logged, hphase, Phase.bytes],
              Or.inr ⟨.brokenPipe, [], by simp, rfl, rfl⟩⟩
        · case h_4 =>
            cases hs
            exact ⟨hphase, rfl, rfl, by simp [Half.logged, hphase, Phase.bytes],
              Or.inr ⟨.error, [], by simp, rfl, rfl⟩⟩

/-- A send starts an operation, or returns without having waited. -/
theorem send_cases {s s' : Pipe} {message : Bytes} {start : Start}
    (hs : send message start s = some s') :
    s'.sent = s.sent ∧ s'.rx = s.rx ∧
      ∀ c ∈ s'.tx.log, c ∈ s.tx.log ∨ c.timedOut = false := by
  have hlogged : ∀ result moved,
      ∀ c ∈ (s.tx.logged result moved []).log, c ∈ s.tx.log ∨ c.timedOut = false := by
    intro result moved c hc
    simp only [Half.logged, List.mem_append, List.mem_singleton] at hc
    rcases hc with hc | rfl
    · exact Or.inl hc
    · exact Or.inr rfl
  unfold send at hs
  split at hs
  · cases hs
  · split at hs
    · cases hs
      exact ⟨rfl, rfl, hlogged false []⟩
    · split at hs
      · simp only [Option.ite_none_right_eq_some, Option.some.injEq] at hs
        rcases hs with ⟨-, rfl⟩
        exact ⟨rfl, rfl, hlogged _ _⟩
      · cases hs
        exact ⟨rfl, rfl, fun c hc => Or.inl hc⟩
      · cases hs
        exact ⟨rfl, rfl, hlogged false []⟩
      · cases hs
        exact ⟨rfl, rfl, hlogged false []⟩

/-! ## The stream -/

/-- What the peer has written is what the operations have moved, what the current one has, and
what is still in the pipe. -/
structure Inv (s : Pipe) : Prop where
  stream : s.sent = s.rx.log.flatMap (·.moved) ++ (s.rx.phase.bytes ++ s.rx.source)
  handed : ∀ c ∈ s.rx.log, c.handed = c.moved
  receives : ∀ c ∈ s.rx.log, c.result = .timeout → c.moved = []
  sends : ∀ c ∈ s.tx.log, c.timedOut = true → c.moved = []

theorem Inv.lossless {s : Pipe} (h : Inv s) : Lossless s := by
  refine ⟨h.receives, h.sends, ?_⟩
  have hlog : s.rx.log.flatMap (·.handed) = s.rx.log.flatMap (·.moved) :=
    List.flatMap_congr h.handed
  rw [hlog, h.stream]
  exact List.prefix_append _ _

/-- A call that has returned with what it moved. -/
theorem Inv.log {s s' : Pipe} {c : Call PipeResult} (h : Inv s) (hsent : s'.sent = s.sent)
    (htx : s'.tx = s.tx) (hlog : s'.rx.log = s.rx.log ++ [c])
    (hmoved : c.moved ++ (s'.rx.phase.bytes ++ s'.rx.source) = s.rx.phase.bytes ++ s.rx.source)
    (hhanded : c.handed = c.moved) (htimeout : c.result = .timeout → c.moved = []) :
    Inv s' where
  stream := by
    rw [hsent, h.stream, hlog, ← hmoved]
    simp
  handed := by
    rw [hlog]
    intro d hd
    simp only [List.mem_append, List.mem_singleton] at hd
    rcases hd with hd | rfl
    · exact h.handed d hd
    · exact hhanded
  receives := by
    rw [hlog]
    intro d hd
    simp only [List.mem_append, List.mem_singleton] at hd
    rcases hd with hd | rfl
    · exact h.receives d hd
    · exact htimeout
  sends := by
    rw [htx]
    exact h.sends

theorem Inv.step {s s' : Pipe} {label : Label} (h : Inv s) (hlate : NotLate s label)
    (hs : Overlapped.step s label = some s') : Inv s' := by
  cases label with
  | peerWrites bytes =>
      cases hs
      refine ⟨?_, h.handed, h.receives, h.sends⟩
      simp [h.stream]
  | receive size start =>
      rcases receive_cases hs with ⟨hidle, hsent, htx, hphase, hsame | hreturned⟩
      · refine ⟨?_, ?_, ?_, ?_⟩
        · rw [hsent, h.stream, hsame.1, hsame.2, hphase, hidle]
          rfl
        · rw [hsame.1]
          exact h.handed
        · rw [hsame.1]
          exact h.receives
        · rw [htx]
          exact h.sends
      · rcases hreturned with ⟨result, bytes, hresult, hmoved, hlog⟩
        refine h.log hsent htx hlog ?_ rfl (fun htimeout => absurd htimeout hresult)
        rw [hphase, hidle]
        exact hmoved
  | send message start =>
      rcases send_cases hs with ⟨hsent, hrx, hlogs⟩
      refine ⟨?_, ?_, ?_, ?_⟩
      · rw [hsent, hrx]
        exact h.stream
      · rw [hrx]
        exact h.handed
      · rw [hrx]
        exact h.receives
      · intro c hc htimedOut
        rcases hlogs c hc with hold | hnew
        · exact h.sends c hold htimedOut
        · simp [hnew] at htimedOut
  | rx event =>
      simp only [Overlapped.step, Option.map_eq_some_iff] at hs
      rcases hs with ⟨rx, hadvance, rfl⟩
      rcases Half.advance_cases hadvance with ⟨hlog, hmoved⟩ | hreturned
      · refine ⟨?_, ?_, ?_, h.sends⟩
        · change s.sent = rx.log.flatMap (·.moved) ++ (rx.phase.bytes ++ rx.source)
          rw [hlog, hmoved, h.stream]
        · simpa [hlog] using h.handed
        · simpa [hlog] using h.receives
      · rcases hreturned with ⟨wait, result, rfl, hbytes, hwait, hfailed⟩
        have htimeout : wait = .timeout → result.bytes = [] := by
          intro hexpired
          rcases hwait hexpired with ⟨rfl, hphase⟩
          exact hlate result hphase
        refine h.log rfl rfl rfl ?_ (handlePendingReceive_snd htimeout hfailed) ?_
        · simp [Half.finish, Phase.bytes, hbytes]
        · intro hresult
          exact htimeout (handlePendingReceive_timeout hresult)
  | tx event =>
      simp only [Overlapped.step, Option.map_eq_some_iff] at hs
      rcases hs with ⟨tx, hadvance, rfl⟩
      refine ⟨h.stream, h.handed, h.receives, ?_⟩
      rcases Half.advance_cases hadvance with ⟨hlog, -⟩ | hreturned
      · simpa [hlog] using h.sends
      · rcases hreturned with ⟨wait, result, rfl, hbytes, hwait, hfailed⟩
        intro c hc htimedOut
        simp only [Half.finish, List.mem_append, List.mem_singleton] at hc
        rcases hc with hc | rfl
        · exact h.sends c hc htimedOut
        · rcases hwait (by simpa using htimedOut) with ⟨rfl, hphase⟩
          exact hlate result hphase

/-- A call that times out on an operation that has moved bytes has lost them. -/
theorem not_lossless_of_late {s s' : Pipe} {label : Label} (hlate : ¬ NotLate s label)
    (hs : step s label = some s') : ¬ Lossless s' := by
  intro hlossless
  cases label with
  | peerWrites bytes => exact hlate trivial
  | receive size start => exact hlate trivial
  | send message start => exact hlate trivial
  | rx event =>
      cases event with
      | returns =>
          simp only [NotLate, Half.NotLate, not_forall] at hlate
          rcases hlate with ⟨result, hphase, hbytes⟩
          simp only [step, Half.advance, hphase, Option.map_some, Option.some.injEq] at hs
          subst hs
          have hmoved := hlossless.receives ⟨.timeout, true, result.bytes, []⟩
            (by simp [Half.finish, handlePendingReceive]) rfl
          exact hbytes hmoved
      | _ => exact hlate trivial
  | tx event =>
      cases event with
      | returns =>
          simp only [NotLate, Half.NotLate, not_forall] at hlate
          rcases hlate with ⟨result, hphase, hbytes⟩
          simp only [step, Half.advance, hphase, Option.map_some, Option.some.injEq] at hs
          subst hs
          have hmoved := hlossless.sends ⟨false, true, result.bytes, []⟩
            (by simp [Half.finish, handlePendingSend]) rfl
          exact hbytes hmoved
      | _ => exact hlate trivial

/-- **When timeouts lose nothing.**  Along a run of receives, sends and whatever the system and
the peer do in between, the calls lose no byte exactly when none of them times out on an
operation that has moved some. -/
theorem lossless_iff {labels : List Label} {s : Pipe} (hrun : run step {} labels = some s) :
    Always step Lossless {} labels ↔ RunMeets step NotLate {} labels := by
  have hinit : Inv {} := ⟨rfl, by simp, by simp, by simp⟩
  exact always_iff_runMeets (fun _ h => h.lossless) (fun _ _ _ h hlate hs => h.step hlate hs)
    (fun _ _ _ _ hlate hs => not_lossless_of_late hlate hs) hinit hrun

/-- A receive that is cancelled in time, and one that then gets the bytes. -/
def cancelledInTime : List Label :=
  [.receive 8 .pending, .rx .expires, .rx .cancels, .rx .returns, .peerWrites [1, 2],
    .receive 8 (.done 2)]

theorem lossless_iff_cancelledInTime : Always step Lossless {} cancelledInTime := by
  refine (lossless_iff rfl).mpr ?_
  simp [cancelledInTime, RunMeets, NotLate, Half.NotLate, step, receive, Half.advance,
    OverlappedResult.bytes]

/-- The bytes arrive after the wait and before the cancellation. -/
def completedLate : List Label :=
  [.receive 8 .pending, .rx .expires, .peerWrites [1, 2], .rx (.completes 2), .rx .returns]

/-- The timeout has eaten them. -/
theorem completedLate_loses : ¬ Always step Lossless {} completedLate := by
  intro halways
  have hlossless := halways 5 _ rfl
  have hmoved := hlossless.receives ⟨.timeout, true, [1, 2], []⟩ (by decide) rfl
  cases hmoved

end LuminalShine.Pipes.Overlapped
