import LuminalShine.Lib.Search
import Mathlib.Data.Nat.Digits.Defs
import Mathlib.Tactic.Ring

/-!
# Reading a plaintext RTSP request

`socket_t` of `src/rtsp.cpp`, the plaintext side.  TCP hands over the bytes of a request in
reads of any size.  `handle_read_plaintext` waits for the blank line, then
`handle_plaintext_payload` waits for the bytes `Content-length` announces, and the request
is dispatched once.

The message parser is vendored code outside the repository: `parse` and `options` are
parameters, and `Request` says what a request is for them.

The search for the blank line starts at `std::max(begin - 4, begin)`, which is `begin`: it
looks at the bytes of the last read only.

## Main definitions

* `Socket`, `handleReadPlaintext`, `handlePlaintextPayload`, `receive` — the reader.
* `Request` — a request that fits the buffer.
* `receive_eq_single_iff` — which fragmentations give the request of a single read.
-/

namespace LuminalShine.Rtsp

open LuminalShine.Lib

/-! ## Content-length -/

/-- `std::isdigit` of the C locale. -/
def isDigit (ch : UInt8) : Bool := decide (48 ≤ ch.toNat) && decide (ch.toNat ≤ 57)

/-- `ch - '0'`; a `char` is signed. -/
def digitValue (ch : UInt8) : ℤ := ch.toInt8.toInt - 48

/-- `util::from_chars`.  The loop goes from the last character down to the second one. -/
def fromChars : List UInt8 → ℤ
  | [] => 0
  | first :: rest =>
      let (res, mul) := rest.foldr (fun ch (res, mul) => (res + digitValue ch * mul, mul * 10))
        ((0, 1) : ℤ × ℤ)
      if first ≠ 45 then res + digitValue first * mul else -res

/-- The first `Content-length` option from its first digit on, cast to `int`; zero without
one. -/
def contentLength (options : List (String × List UInt8)) : ℤ :=
  match options.find? (fun option => option.1 == "Content-length") with
  | none => 0
  | some (_, content) => Int.bmod (fromChars (content.dropWhile (!isDigit ·))) (2 ^ 32)

/-! ## The reader -/

/-- The handler of the queued read, if there is one. -/
inductive Pending where
  | readPlaintext
  | plaintextPayload
  | none
  deriving DecidableEq, Repr

/-- `socket_t`.  `msgBuf` holds the bytes before the `begin` pointer; the requests handed to
`handle_data_fn` and the refusals are kept as history. -/
structure Socket (M : Type) where
  msgBuf : List UInt8
  crlf : ℕ
  pending : Pending
  dispatched : List M
  badRequests : ℕ
  closed : Bool
  deriving DecidableEq, Repr

/-- `std::array<char, 2048> msg_buf`. -/
def msgBufSize : ℕ := 2048

/-- `"\r\n\r\n"sv`. -/
def needle : List UInt8 := [13, 10, 13, 10]

section Reader

variable {M : Type}

/-- `respond(..., 400, "BAD REQUEST", ...)` and the socket closed. -/
def Socket.refuse (socket : Socket M) : Socket M :=
  { socket with pending := .none, badRequests := socket.badRequests + 1, closed := true }

/-- `socket_t::read` without a cipher. -/
def Socket.read (socket : Socket M) : Socket M :=
  if socket.msgBuf.length = msgBufSize then socket.refuse
  else { socket with pending := .readPlaintext }

/-- `socket_t::read_plaintext_payload`. -/
def Socket.readPlaintextPayload (socket : Socket M) : Socket M :=
  if socket.msgBuf.length = msgBufSize then socket.refuse
  else { socket with pending := .plaintextPayload }

/-- The state an accepted connection starts in. -/
def Socket.accepted : Socket M :=
  Socket.read ⟨[], 0, .none, [], 0, false⟩

variable (parse : List UInt8 → Option M) (options : M → List (String × List UInt8))

/-- `handle_plaintext_payload` without a read error: `bytes` stand behind `begin`. -/
def handlePlaintextPayload (socket : Socket M) (bytes : List UInt8) : Socket M :=
  let buffer := socket.msgBuf ++ bytes
  match parse buffer with
  | none => socket.refuse
  | some req =>
      if ((buffer.length : ℤ) - socket.crlf) ≥ contentLength (options req) then
        { socket with
          dispatched := socket.dispatched ++ [req], msgBuf := buffer, pending := .none }
      else { socket with msgBuf := buffer }.readPlaintextPayload

/-- Where the search of `handle_read_plaintext` starts. -/
def searchBegin (socket : Socket M) : ℤ :=
  max ((socket.msgBuf.length : ℤ) - 4) socket.msgBuf.length

/-- `handle_read_plaintext` without a read error.  The terminator found ends the header, and
the bytes behind it go to the payload handler as if they had just been read. -/
def handleReadPlaintext (socket : Socket M) (bytes : List UInt8) : Socket M :=
  let begin := searchBegin socket
  let bufSize := bytes.length + (begin - socket.msgBuf.length)
  let end_ := begin + bufSize
  let buffer := socket.msgBuf ++ bytes
  match search needle ((buffer.take end_.toNat).drop begin.toNat) with
  | none => { socket with msgBuf := buffer.take end_.toNat }.read
  | some it =>
      let header := begin.toNat + it + needle.length
      handlePlaintextPayload parse options
        { socket with msgBuf := buffer.take header, crlf := header }
        ((buffer.take end_.toNat).drop header)

/-- A read completes and its handler runs; without a queued read nothing is received. -/
def handleRead (socket : Socket M) (bytes : List UInt8) : Socket M :=
  match socket.pending with
  | .readPlaintext => handleReadPlaintext parse options socket bytes
  | .plaintextPayload => handlePlaintextPayload parse options socket bytes
  | .none => socket

/-- The reads of a connection, in order. -/
def receive (reads : List (List UInt8)) : Socket M :=
  reads.foldl (handleRead parse options) .accepted

end Reader

/-! ## What Content-length announces -/

/-- The content ends in the decimal digits of `n`, with no digit before them. -/
def Declares (content : List UInt8) (n : ℕ) : Prop :=
  ∃ text digits : List UInt8, content = text ++ digits ∧
    (∀ ch ∈ text, isDigit ch = false) ∧ (∀ ch ∈ digits, isDigit ch = true) ∧
    Nat.ofDigits 10 (digits.map fun ch => ch.toNat - 48).reverse = n

theorem digitValue_of_isDigit {ch : UInt8} (h : isDigit ch = true) :
    digitValue ch = ((ch.toNat - 48 : ℕ) : ℤ) := by
  rw [isDigit, Bool.and_eq_true, decide_eq_true_iff, decide_eq_true_iff] at h
  have hvalue : ch.toInt8.toInt = ch.toNat := by
    change ch.toBitVec.toInt = ch.toNat
    rw [BitVec.toInt_eq_toNat_bmod, UInt8.toNat_toBitVec, Int.bmod_eq_of_le (by omega) (by omega)]
  rw [digitValue, hvalue]
  omega

/-- The loop computes the digits below the first one and their weight. -/
theorem foldr_digits {digits : List UInt8} (h : ∀ ch ∈ digits, isDigit ch = true) :
    digits.foldr (fun ch (res, mul) => (res + digitValue ch * mul, mul * 10)) ((0, 1) : ℤ × ℤ) =
      (((Nat.ofDigits 10 (digits.map fun ch => ch.toNat - 48).reverse : ℕ) : ℤ),
        10 ^ digits.length) := by
  induction digits with
  | nil => rfl
  | cons ch rest ih =>
      rw [List.foldr_cons, ih (fun c hc => h c (List.mem_cons_of_mem _ hc)), List.map_cons,
        List.reverse_cons, Nat.ofDigits_append, Nat.ofDigits_singleton,
        digitValue_of_isDigit (h ch (List.mem_cons_self ..))]
      simp only [List.length_reverse, List.length_map, List.length_cons, Prod.mk.injEq]
      constructor
      · push_cast
        ring
      · ring

/-- `from_chars` reads decimal digits. -/
theorem fromChars_digits {digits : List UInt8} (h : ∀ ch ∈ digits, isDigit ch = true) :
    fromChars digits = (Nat.ofDigits 10 (digits.map fun ch => ch.toNat - 48).reverse : ℕ) := by
  cases digits with
  | nil => rfl
  | cons first rest =>
      have hfirst := h first (List.mem_cons_self ..)
      have hsign : first ≠ 45 := by
        intro heq
        subst heq
        exact absurd hfirst (by decide)
      rw [fromChars, foldr_digits (fun c hc => h c (List.mem_cons_of_mem _ hc))]
      dsimp only
      rw [if_pos hsign, List.map_cons, List.reverse_cons, Nat.ofDigits_append,
        Nat.ofDigits_singleton, digitValue_of_isDigit hfirst]
      simp only [List.length_reverse, List.length_map]
      push_cast
      ring

/-- The first digit starts the announced number. -/
theorem dropWhile_text {text digits : List UInt8} (htext : ∀ ch ∈ text, isDigit ch = false)
    (hdigits : ∀ ch ∈ digits, isDigit ch = true) :
    (text ++ digits).dropWhile (!isDigit ·) = digits := by
  rw [List.dropWhile_append_of_pos (by simpa using htext)]
  cases digits with
  | nil => rfl
  | cons first rest => simp [hdigits first (List.mem_cons_self ..)]

/-- A declared length that fits an `int` is the one the reader uses. -/
theorem contentLength_of_declares {options : List (String × List UInt8)}
    {option : String × List UInt8} {n : ℕ}
    (hfind : options.find? (fun option => option.1 == "Content-length") = some option)
    (h : Declares option.2 n) (hn : n < 2 ^ 31) : contentLength options = n := by
  obtain ⟨text, digits, hcontent, htext, hdigits, hvalue⟩ := h
  simp only [contentLength, hfind]
  rw [hcontent, dropWhile_text htext hdigits, fromChars_digits hdigits, hvalue,
    Int.bmod_eq_of_le (by omega) (by omega)]

/-! ## Requests -/

section Fragmentation

variable {M : Type} {parse : List UInt8 → Option M} {options : M → List (String × List UInt8)}

/-- A plaintext request that fits the buffer: a header that ends at its first blank line and
a body of the announced length, empty without an announcement.  The parser accepts the
header whatever part of the body follows, with the options of the header. -/
structure Request (parse : List UInt8 → Option M) (options : M → List (String × List UInt8)) where
  header : List UInt8
  body : List UInt8
  opts : List (String × List UInt8)
  headerEnd : ℕ
  terminated : search needle header = some headerEnd
  header_length : header.length = headerEnd + needle.length
  announced : match opts.find? (fun option => option.1 == "Content-length") with
    | none => body = []
    | some option => Declares option.2 body.length
  fits : (header ++ body).length ≤ msgBufSize
  parsed : ∀ rest, rest <+: body → ∃ req, parse (header ++ rest) = some req ∧ options req = opts

namespace Request

variable (request : Request parse options)

theorem length_le : request.header.length + request.body.length ≤ 2048 := by
  have hfits := request.fits
  rwa [List.length_append] at hfits

theorem contentLength_opts : contentLength request.opts = request.body.length := by
  have hlength := request.length_le
  have hannounced := request.announced
  cases hfind : request.opts.find? (fun option => option.1 == "Content-length") with
  | none =>
      rw [hfind] at hannounced
      simp only [contentLength, hfind]
      rw [hannounced]
      rfl
  | some option =>
      rw [hfind] at hannounced
      exact contentLength_of_declares hfind hannounced (by omega)

/-- The blank line of the header is the first one of the request. -/
theorem occursAt_iff {i : ℕ} (hi : i ≤ request.headerEnd) :
    OccursAt needle (request.header ++ request.body) i ↔ i = request.headerEnd := by
  have hlength := request.header_length
  rw [occursAt_append_right (by omega)]
  obtain ⟨hoccurs, hfirst⟩ := (search_eq_some_iff (by decide)).mp request.terminated
  constructor
  · intro h
    by_contra hne
    exact hfirst i (by omega) h
  · intro h
    exact h ▸ hoccurs

end Request

/-! ## One read -/

/-- `std::max(begin - 4, begin)` is `begin`. -/
theorem searchBegin_eq (socket : Socket M) : searchBegin socket = socket.msgBuf.length :=
  max_eq_right (by omega)

/-- The header handler searches the bytes of this read only. -/
theorem handleReadPlaintext_eq (socket : Socket M) (bytes : List UInt8) :
    handleReadPlaintext parse options socket bytes =
      match search needle bytes with
      | none => { socket with msgBuf := socket.msgBuf ++ bytes }.read
      | some it =>
          handlePlaintextPayload parse options
            { socket with
              msgBuf := (socket.msgBuf ++ bytes).take
                (socket.msgBuf.length + it + needle.length)
              crlf := socket.msgBuf.length + it + needle.length }
            ((socket.msgBuf ++ bytes).drop (socket.msgBuf.length + it + needle.length)) := by
  have hend : ((socket.msgBuf.length : ℤ) + (bytes.length +
      ((socket.msgBuf.length : ℤ) - socket.msgBuf.length))).toNat =
      (socket.msgBuf ++ bytes).length := by
    rw [List.length_append]
    omega
  simp only [handleReadPlaintext, searchBegin_eq, hend, List.take_length, Int.toNat_natCast,
    List.drop_left]

/-- The payload handler dispatches once the announced bytes stand behind `crlf`. -/
theorem handlePlaintextPayload_eq (request : Request parse options) {socket : Socket M}
    {bytes rest : List UInt8} (hbuffer : socket.msgBuf ++ bytes = request.header ++ rest)
    (hrest : rest <+: request.body) :
    ∃ req, parse (request.header ++ rest) = some req ∧
      handlePlaintextPayload parse options socket bytes =
        if (request.header.length : ℤ) + rest.length - socket.crlf ≥ request.body.length then
          { socket with
            dispatched := socket.dispatched ++ [req], msgBuf := request.header ++ rest,
            pending := .none }
        else { socket with msgBuf := request.header ++ rest }.readPlaintextPayload := by
  obtain ⟨req, hreq, hopts⟩ := request.parsed rest hrest
  refine ⟨req, hreq, ?_⟩
  simp only [handlePlaintextPayload, hbuffer, hreq, hopts, request.contentLength_opts]
  rw [List.length_append, Nat.cast_add]

/-- **From a header that is found, the request of the whole bytes is dispatched**, whatever
the reads the body comes in. -/
theorem foldl_payload (request : Request parse options) (reads : List (List UInt8))
    (hne : ∀ read ∈ reads, read ≠ []) {socket : Socket M} {bytes rest : List UInt8}
    (hbuffer : socket.msgBuf ++ bytes = request.header ++ rest)
    (hbody : rest ++ reads.flatten = request.body)
    (hcrlf : socket.crlf = request.header.length) (hnone : socket.dispatched = []) :
    ∃ req, parse (request.header ++ request.body) = some req ∧
      (reads.foldl (handleRead parse options)
        (handlePlaintextPayload parse options socket bytes)).dispatched = [req] := by
  induction reads generalizing socket bytes rest with
  | nil =>
      rw [List.flatten_nil, List.append_nil] at hbody
      subst hbody
      obtain ⟨req, hreq, heq⟩ := handlePlaintextPayload_eq request hbuffer (List.prefix_refl _)
      refine ⟨req, hreq, ?_⟩
      rw [List.foldl_nil, heq, if_pos (by omega)]
      exact congrArg (· ++ [req]) hnone
  | cons read reads ih =>
      have hrest : rest <+: request.body := ⟨_, hbody⟩
      obtain ⟨req, -, heq⟩ := handlePlaintextPayload_eq request hbuffer hrest
      have hpos := List.length_pos_iff.mpr (hne read (List.mem_cons_self ..))
      have hshort := congrArg List.length hbody
      rw [List.flatten_cons, List.length_append, List.length_append] at hshort
      have hfits := request.length_le
      have hroom : (request.header ++ rest).length ≠ msgBufSize := by
        rw [List.length_append, msgBufSize]
        omega
      rw [heq, if_neg (by omega), List.foldl_cons, Socket.readPlaintextPayload, if_neg hroom]
      refine ih (fun r hr => hne r (List.mem_cons_of_mem _ hr)) (List.append_assoc ..) ?_ hcrlf hnone
      rw [List.append_assoc, ← List.flatten_cons]
      exact hbody

/-! ## A terminator that is missed -/

/-- The blank line of the header was missed: nothing is dispatched, and nothing will be,
because whatever blank line is found later leaves fewer bytes than announced behind it. -/
structure Missed (request : Request parse options) (socket : Socket M)
    (reads : List (List UInt8)) : Prop where
  none_dispatched : socket.dispatched = []
  buffer : socket.pending ≠ .none →
    socket.msgBuf ++ reads.flatten = request.header ++ request.body
  past : socket.pending = .readPlaintext → request.headerEnd < socket.msgBuf.length
  late : socket.pending = .plaintextPayload → request.header.length < socket.crlf ∧
    request.header.length ≤ socket.msgBuf.length

/-- A buffer at least as long as the header is the header and a part of the body. -/
theorem Request.exists_rest (request : Request parse options) {buffer rest : List UInt8}
    (hbuffer : buffer ++ rest = request.header ++ request.body)
    (hlength : request.header.length ≤ buffer.length) :
    ∃ part, buffer = request.header ++ part ∧ part <+: request.body := by
  have hpre : request.header <+: buffer :=
    List.prefix_of_prefix_length_le ⟨request.body, rfl⟩ ⟨rest, hbuffer⟩ hlength
  obtain ⟨part, hpart⟩ := hpre
  subst hpart
  rw [List.append_assoc, List.append_cancel_left_eq] at hbuffer
  exact ⟨part, rfl, ⟨rest, hbuffer⟩⟩

/-- A blank line behind the header's leaves too few bytes. -/
theorem missed_payload (request : Request parse options) {socket : Socket M}
    {bytes : List UInt8} {reads : List (List UInt8)} (hnone : socket.dispatched = [])
    (hbuffer : socket.msgBuf ++ bytes ++ reads.flatten = request.header ++ request.body)
    (hlate : request.header.length < socket.crlf)
    (hlength : request.header.length ≤ (socket.msgBuf ++ bytes).length) :
    Missed request (handlePlaintextPayload parse options socket bytes) reads := by
  obtain ⟨part, hpart, hpre⟩ := request.exists_rest hbuffer hlength
  obtain ⟨req, -, heq⟩ := handlePlaintextPayload_eq request hpart hpre
  have hshort := hpre.length_le
  rw [heq, if_neg (by omega), Socket.readPlaintextPayload]
  split
  · exact ⟨hnone, fun h => absurd rfl h, nofun, nofun⟩
  · refine ⟨hnone, fun _ => hpart ▸ hbuffer, nofun, fun _ => ⟨hlate, ?_⟩⟩
    rw [← hpart]
    exact hlength

/-- A read of the header phase that does not bring the header's blank line: the phase goes
on, or a later blank line is found. -/
theorem missed_header (request : Request parse options) {socket : Socket M}
    {bytes : List UInt8} {reads : List (List UInt8)} (hnone : socket.dispatched = [])
    (hbuffer : socket.msgBuf ++ bytes ++ reads.flatten = request.header ++ request.body)
    (hpast : request.headerEnd < (socket.msgBuf ++ bytes).length)
    (hsplit : ∀ it, OccursAt needle bytes it →
      request.headerEnd < socket.msgBuf.length + it) :
    Missed request (handleReadPlaintext parse options socket bytes) reads := by
  rw [handleReadPlaintext_eq]
  cases hsearch : search needle bytes with
  | none =>
      dsimp only
      rw [Socket.read]
      split
      · exact ⟨hnone, fun h => absurd rfl h, nofun, nofun⟩
      · exact ⟨hnone, fun _ => hbuffer, fun _ => hpast, nofun⟩
  | some it =>
      have hoccurs := ((search_eq_some_iff (by decide)).mp hsearch).1
      have hbehind := hsplit it hoccurs
      have hheader := request.header_length
      have hinside := hoccurs.length_le (by decide)
      refine missed_payload request hnone ?_ ?_ ?_
      · dsimp only
        rw [List.take_append_drop]
        exact hbuffer
      · dsimp only
        omega
      · dsimp only
        rw [List.take_append_drop, List.length_append]
        omega

/-- **What was missed stays missed.** -/
theorem foldl_missed (request : Request parse options) (reads : List (List UInt8))
    {socket : Socket M} (h : Missed request socket reads) :
    (reads.foldl (handleRead parse options) socket).dispatched = [] := by
  induction reads generalizing socket with
  | nil => exact h.none_dispatched
  | cons read reads ih =>
      refine ih ?_
      have hbuffer := h.buffer
      rw [List.flatten_cons, ← List.append_assoc] at hbuffer
      cases hpending : socket.pending with
      | none =>
          simp only [handleRead, hpending]
          exact ⟨h.none_dispatched, fun hn => absurd hpending hn,
            fun hp => absurd (hpending.symm.trans hp) nofun,
            fun hp => absurd (hpending.symm.trans hp) nofun⟩
      | readPlaintext =>
          have hpast := h.past hpending
          simp only [handleRead, hpending]
          refine missed_header request h.none_dispatched (hbuffer (by rw [hpending]; nofun)) ?_ ?_
          · rw [List.length_append]
            omega
          · intro it _
            omega
      | plaintextPayload =>
          obtain ⟨hlate, hlength⟩ := h.late hpending
          simp only [handleRead, hpending]
          refine missed_payload request h.none_dispatched (hbuffer (by rw [hpending]; nofun))
            hlate ?_
          rw [List.length_append]
          omega

/-! ## Every fragmentation -/

/-- The read that brings the byte at `pos` brings the `len` bytes from there on. -/
def inOneRead (len : ℕ) : ℕ → List (List UInt8) → Bool
  | _, [] => false
  | pos, read :: reads =>
      if read.length ≤ pos then inOneRead len (pos - read.length) reads
      else decide (pos + len ≤ read.length)

/-- The state that waits for the blank line behind `received`. -/
def Socket.waiting (received : List UInt8) : Socket M :=
  ⟨received, 0, .readPlaintext, [], 0, false⟩

/-- A blank line within a read stands in the request. -/
theorem Request.occursAt_read (request : Request parse options) {received read rest : List UInt8}
    (hcut : received ++ (read ++ rest) = request.header ++ request.body) {it : ℕ}
    (hit : it + needle.length ≤ read.length) :
    OccursAt needle read it ↔
      OccursAt needle (request.header ++ request.body) (received.length + it) := by
  rw [← hcut, occursAt_append_left, occursAt_append_right hit]

/-- A blank line within a read is not before the header's. -/
theorem Request.headerEnd_le (request : Request parse options) {received read rest : List UInt8}
    (hcut : received ++ (read ++ rest) = request.header ++ request.body) {it : ℕ}
    (hoccurs : OccursAt needle read it) : request.headerEnd ≤ received.length + it := by
  by_contra hbefore
  have hinside := hoccurs.length_le (by decide)
  have hfirst := (request.occursAt_iff (by omega)).mp
    ((request.occursAt_read hcut hinside).mp hoccurs)
  omega

/-- The reader on the rest of a request whose header has not ended. -/
theorem foldl_waiting (request : Request parse options) (reads : List (List UInt8))
    (hne : ∀ read ∈ reads, read ≠ []) {received : List UInt8}
    (hcut : received ++ reads.flatten = request.header ++ request.body)
    (hbefore : received.length ≤ request.headerEnd) :
    ∃ req, parse (request.header ++ request.body) = some req ∧
      (reads.foldl (handleRead parse options) (.waiting received)).dispatched =
        if inOneRead needle.length (request.headerEnd - received.length) reads then [req]
        else [] := by
  have hheader := request.header_length
  have hneedle : needle.length = 4 := rfl
  have hfits := request.length_le
  induction reads generalizing received with
  | nil =>
      have hlength := congrArg List.length hcut
      rw [List.flatten_nil, List.append_nil, List.length_append] at hlength
      omega
  | cons read reads ih =>
      rw [List.flatten_cons] at hcut
      have hnext : received ++ read ++ reads.flatten = request.header ++ request.body := by
        rw [List.append_assoc, hcut]
      have hread : handleRead parse options (.waiting received) read =
          handleReadPlaintext parse options (.waiting received) read := rfl
      rw [List.foldl_cons, hread, inOneRead]
      by_cases hshort : read.length ≤ request.headerEnd - received.length
      -- The blank line starts behind this read.
      · have hsearch : search needle read = none := by
          rw [search_eq_none_iff (by decide)]
          intro it hoccurs
          have hbehind := request.headerEnd_le hcut hoccurs
          have hinside := hoccurs.length_le (by decide)
          omega
        have hroom : ¬ (received ++ read).length = msgBufSize := by
          rw [List.length_append, msgBufSize]
          omega
        have hstate : handleReadPlaintext parse options (.waiting received) read =
            .waiting (received ++ read) := by
          rw [handleReadPlaintext_eq, hsearch]
          exact if_neg hroom
        have hlength : (received ++ read).length ≤ request.headerEnd := by
          rw [List.length_append]
          omega
        obtain ⟨req, hreq, hdispatched⟩ :=
          ih (fun r hr => hne r (List.mem_cons_of_mem _ hr)) hnext hlength
        refine ⟨req, hreq, ?_⟩
        rw [hstate, hdispatched, if_pos hshort, List.length_append, Nat.sub_add_eq]
      · rw [if_neg hshort]
        by_cases hwhole : request.headerEnd - received.length + needle.length ≤ read.length
        -- The blank line is in this read, and it is the first one there.
        · have hpos : received.length + (request.headerEnd - received.length) =
              request.headerEnd := by omega
          have hsearch : search needle read = some (request.headerEnd - received.length) := by
            rw [search_eq_some_iff (by decide)]
            constructor
            · rw [request.occursAt_read hcut hwhole, hpos]
              exact (request.occursAt_iff (Nat.le_refl _)).mpr rfl
            · intro j hj hoccurs
              have hbehind := request.headerEnd_le hcut hoccurs
              omega
          rw [handleReadPlaintext_eq, hsearch]
          dsimp only [Socket.waiting]
          rw [hpos, ← hheader]
          have hlength : request.header.length ≤ (received ++ read).length := by
            rw [List.length_append]
            omega
          obtain ⟨part, hpart, -⟩ := request.exists_rest hnext hlength
          have hbody : part ++ reads.flatten = request.body := by
            rw [hpart, List.append_assoc, List.append_cancel_left_eq] at hnext
            exact hnext
          obtain ⟨req, hreq, hdispatched⟩ := foldl_payload request reads
            (fun r hr => hne r (List.mem_cons_of_mem _ hr))
            (show (⟨(received ++ read).take request.header.length, request.header.length,
                .readPlaintext, [], 0, false⟩ : Socket M).msgBuf ++
                  (received ++ read).drop request.header.length = request.header ++ part by
              rw [List.take_append_drop, hpart]) hbody rfl rfl
          exact ⟨req, hreq, by rw [hdispatched, if_pos (decide_eq_true hwhole)]⟩
        -- The blank line is cut by the end of this read.
        · obtain ⟨req, hreq, -⟩ := request.parsed request.body (List.prefix_refl _)
          refine ⟨req, hreq, ?_⟩
          rw [if_neg (by simpa using hwhole)]
          refine foldl_missed request reads (missed_header request rfl hnext ?_ ?_)
          · change request.headerEnd < (received ++ read).length
            rw [List.length_append]
            omega
          · intro it hoccurs
            have hbehind := request.headerEnd_le hcut hoccurs
            have hinside := hoccurs.length_le (by decide)
            change request.headerEnd < received.length + it
            omega

/-- What a connection dispatches. -/
theorem dispatched_receive (request : Request parse options) (reads : List (List UInt8))
    (hne : ∀ read ∈ reads, read ≠ []) (hcut : reads.flatten = request.header ++ request.body) :
    ∃ req, parse (request.header ++ request.body) = some req ∧
      (receive parse options reads).dispatched =
        if inOneRead needle.length request.headerEnd reads then [req] else [] :=
  foldl_waiting request reads hne (by rw [List.nil_append, hcut]) (Nat.zero_le _)

/-- The terminator of a single read is in one read. -/
theorem inOneRead_single (request : Request parse options) :
    inOneRead needle.length request.headerEnd [request.header ++ request.body] = true := by
  have hheader := request.header_length
  have hneedle : needle.length = 4 := rfl
  rw [inOneRead, if_neg (by rw [List.length_append]; omega), decide_eq_true_iff,
    List.length_append]
  omega

/-- **Fragmentation.**  For every request that fits the buffer and every way of cutting it
into reads, the reader dispatches exactly one request, the one of a single read, if and only
if one read brings the whole blank line that ends the header. -/
theorem receive_eq_single_iff (request : Request parse options) (reads : List (List UInt8))
    (hne : ∀ read ∈ reads, read ≠ []) (hcut : reads.flatten = request.header ++ request.body) :
    ((receive parse options reads).dispatched =
          (receive parse options [request.header ++ request.body]).dispatched ∧
        (receive parse options reads).dispatched.length = 1) ↔
      inOneRead needle.length request.headerEnd reads = true := by
  obtain ⟨req, hreq, hreads⟩ := dispatched_receive request reads hne hcut
  have hbytes : request.header ++ request.body ≠ [] := by
    intro hnil
    have hlength := congrArg List.length hnil
    rw [List.length_append, request.header_length] at hlength
    exact absurd hlength (by simp [needle])
  obtain ⟨req', hreq', hsingle⟩ := dispatched_receive request [request.header ++ request.body]
    (by simpa using hbytes) (by simp)
  rw [inOneRead_single, if_pos rfl] at hsingle
  have hsame : req = req' := Option.some.inj (hreq.symm.trans hreq')
  subst hsame
  rw [hreads, hsingle]
  by_cases hone : inOneRead needle.length request.headerEnd reads = true
  · simp [hone]
  · simp [hone]

end Fragmentation

/-! ## A request of two bytes of payload -/

/-- `PLAY / RTSP/1.0`, `Content-length: 2`, a blank line, and the body `v=`. -/
def playRequest :
    Request (fun _ => some [("Content-length", [32, 50])])
      (id : List (String × List UInt8) → List (String × List UInt8)) where
  header := [80, 76, 65, 89, 32, 47, 32, 82, 84, 83, 80, 47, 49, 46, 48, 13, 10,
    67, 111, 110, 116, 101, 110, 116, 45, 108, 101, 110, 103, 116, 104, 58, 32, 50,
    13, 10, 13, 10]
  body := [118, 61]
  opts := [("Content-length", [32, 50])]
  headerEnd := 34
  terminated := by decide
  header_length := rfl
  announced :=
    ⟨[32], [50], rfl, List.forall_mem_singleton.mpr rfl, List.forall_mem_singleton.mpr rfl, rfl⟩
  fits := by decide
  parsed := fun _ _ => ⟨_, rfl, rfl⟩

/-- Cut within the header's first line and within the body. -/
theorem receive_play_in_three_reads :
    (receive (fun _ => some [("Content-length", [32, 50])])
        (id : List (String × List UInt8) → List (String × List UInt8))
        [playRequest.header.take 5, playRequest.header.drop 5 ++ [118], [61]]).dispatched.length =
      1 :=
  ((receive_eq_single_iff playRequest
    [playRequest.header.take 5, playRequest.header.drop 5 ++ [118], [61]] (by decide)
    (by decide)).mpr (by decide)).2

/-- Cut between the two line ends of the blank line: nothing is dispatched, where a single
read dispatches the request. -/
theorem receive_play_split_terminator :
    let reads := [playRequest.header.take 36, playRequest.header.drop 36 ++ playRequest.body]
    (∀ read ∈ reads, read ≠ []) ∧ reads.flatten = playRequest.header ++ playRequest.body ∧
      (receive (fun _ => some [("Content-length", [32, 50])])
        (id : List (String × List UInt8) → List (String × List UInt8)) reads).dispatched = [] ∧
      (receive (fun _ => some [("Content-length", [32, 50])])
        (id : List (String × List UInt8) → List (String × List UInt8))
        [playRequest.header ++ playRequest.body]).dispatched.length = 1 := by
  decide

end LuminalShine.Rtsp
