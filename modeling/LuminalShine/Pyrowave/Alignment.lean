import Mathlib

/-!
# Records and RTP payloads

The output of `encode_frame` of `src/pyrowave/pyrowave_encode.cpp`.  The RTP layer cuts the
frame into payloads of `shard_payload_size_` bytes, the first one 8 bytes shorter, and a record
that lies in one payload is lost only with that payload.  Padding records move a record that
does not fit to the next payload.

Padding takes 8 bytes, and every length is a multiple of 4.  So output that ends 4 bytes before
a boundary cannot be padded to it: that boundary is passed, and the record crosses it.

## Main definitions

* `Out`, `appendRecord`, `appendRecords` — the output and the loop over the records.
* `Boundary`, `Crosses`, `Aligned` — where the pieces lie.

## Main results

* `appendRecords_aligned` — the loop ends, keeps the records, and aligns them.
-/

namespace LuminalShine.Pyrowave.Alignment

/-! ## The output -/

/-- `BitstreamPaddingMagic` -/
def bitstreamPaddingMagic : UInt32 := 0xFFFFFFFF

def littleEndian (x : UInt32) : List UInt8 :=
  [x.toUInt8, (x >>> 8).toUInt8, (x >>> 16).toUInt8, (x >>> 24).toUInt8]

/-- What is appended to `out.data`: the bytes of a record, or padding of some length. -/
inductive Piece where
  | record (bytes : List UInt8)
  | padding (len : ℕ)
  deriving DecidableEq, Repr

namespace Piece

/-- Padding is a magic word, the number of words that follow, and zeros. -/
def bytes : Piece → List UInt8
  | .record bytes => bytes
  | .padding len =>
      littleEndian bitstreamPaddingMagic ++ littleEndian (UInt32.ofNat (len / 4 - 2)) ++
        List.replicate (len - 8) 0

def record? : Piece → Option (List UInt8)
  | .record bytes => some bytes
  | .padding _ => none

theorem length_bytes_padding {len : ℕ} (h : 8 ≤ len) : (padding len).bytes.length = len := by
  simp only [bytes, littleEndian, List.length_append, List.length_cons, List.length_nil,
    List.length_replicate]
  omega

end Piece

/-- The bytes of some pieces. -/
def dataOf (pieces : List Piece) : List UInt8 := pieces.flatMap Piece.bytes

/-- `out.data`, by its pieces, and `next_boundary`. -/
structure Out where
  pieces : List Piece
  nextBoundary : ℕ
  deriving DecidableEq, Repr

namespace Out

def data (out : Out) : List UInt8 := dataOf out.pieces

def size (out : Out) : ℕ := out.data.length

def append (piece : Piece) (out : Out) : Out := { out with pieces := out.pieces ++ [piece] }

def moveOn (shard : ℕ) (out : Out) : Out :=
  { out with nextBoundary := out.nextBoundary + shard }

/-- Before the first record; a `shard` of 0 is a stream that is not aligned. -/
def start (shard : ℕ) : Out where
  pieces := []
  nextBoundary := if shard ≠ 0 then shard - 8 else 2 ^ 64 - 1

@[simp] theorem pieces_append (piece : Piece) (out : Out) :
    (out.append piece).pieces = out.pieces ++ [piece] := rfl

@[simp] theorem nextBoundary_append (piece : Piece) (out : Out) :
    (out.append piece).nextBoundary = out.nextBoundary := rfl

@[simp] theorem pieces_moveOn (shard : ℕ) (out : Out) :
    (out.moveOn shard).pieces = out.pieces := rfl

@[simp] theorem nextBoundary_moveOn (shard : ℕ) (out : Out) :
    (out.moveOn shard).nextBoundary = out.nextBoundary + shard := rfl

@[simp] theorem size_moveOn (shard : ℕ) (out : Out) : (out.moveOn shard).size = out.size := rfl

@[simp] theorem size_append (piece : Piece) (out : Out) :
    (out.append piece).size = out.size + piece.bytes.length := by
  simp [size, data, dataOf, append]

end Out

/-! ## The loop -/

/-- One round of the loop in `append_record` goes on or breaks. -/
inductive Round where
  | again (out : Out) (padded : Bool)
  | done (out : Out)

def round (shard len : ℕ) (out : Out) (padded : Bool) : Round :=
  let pos := out.size
  -- A sliver of less than 8 bytes, or a boundary that is crossed already.
  if out.nextBoundary < pos + 8 then .again (out.moveOn shard) padded
  else
    let rem := out.nextBoundary - pos
    if shard < len then .done out
    else if len ≤ rem ∧ rem - len ≠ 4 then .done out
    else if padded then .done out
    else .again ((out.append (.padding rem)).moveOn shard) true

/-- The loop, for as many rounds as it is given. -/
def rounds (shard len : ℕ) : ℕ → Out → Bool → Option Out
  | 0, _, _ => none
  | fuel + 1, out, padded =>
      match round shard len out padded with
      | .done out => some out
      | .again out padded => rounds shard len fuel out padded

/-- The end of `append_record`. -/
def place (shard : ℕ) (record : List UInt8) (out : Out) : Out :=
  let out := out.append (.record record)
  if shard ≠ 0 ∧ out.size = out.nextBoundary then out.moveOn shard else out

def appendRecord (fuel shard : ℕ) (out : Out) (record : List UInt8) : Option Out :=
  if shard ≠ 0 then (rounds shard record.length fuel out false).map (place shard record)
  else some (place shard record out)

/-- The records of a frame, its header first. -/
def appendRecords (fuel shard : ℕ) (records : List (List UInt8)) (out : Out) : Option Out :=
  records.foldlM (appendRecord fuel shard) out

/-! ## Alignment -/

/-- A payload ends at `b`. -/
def Boundary (shard b : ℕ) : Prop := shard ∣ b + 8

/-- The bytes from `pos` on lie on both sides of a boundary. -/
def Crosses (shard pos len : ℕ) : Prop := ∃ b, Boundary shard b ∧ pos < b ∧ b < pos + len

/-- What holds of a piece that was appended at `pos`. -/
def PieceAligned (shard pos : ℕ) : Piece → Prop
  | .record bytes =>
      bytes.length ≤ shard → Crosses shard pos bytes.length → Boundary shard (pos + 4)
  | .padding len => 8 ≤ len ∧ 4 ∣ len ∧ 4 ∣ pos ∧ Boundary shard (pos + len)

/-- Every piece, where it stands. -/
def Aligned (shard : ℕ) (pieces : List Piece) : Prop :=
  ∀ before piece after, pieces = before ++ piece :: after →
    PieceAligned shard (dataOf before).length piece

theorem aligned_nil (shard : ℕ) : Aligned shard [] := by
  intro before piece after h
  simp at h

theorem Aligned.concat {shard : ℕ} {pieces : List Piece} {piece : Piece}
    (h : Aligned shard pieces) (hpiece : PieceAligned shard (dataOf pieces).length piece) :
    Aligned shard (pieces ++ [piece]) := by
  intro before p after heq
  rcases List.eq_nil_or_concat after with rfl | ⟨after, last, rfl⟩
  · have hsplit := List.append_inj' heq rfl
    simp only [List.cons.injEq, and_true] at hsplit
    rw [← hsplit.1, ← hsplit.2]
    exact hpiece
  · have hsplit : pieces ++ [piece] = (before ++ p :: after) ++ [last] := by simpa using heq
    exact h before p after (List.append_inj' hsplit rfl).1

variable {shard len : ℕ} {out : Out} {padded : Bool}

/-- Between two rounds: `next_boundary` is a boundary, and no other one lies between it and the
first place where padding could end. -/
structure Inv (shard : ℕ) (out : Out) : Prop where
  words : 4 ∣ out.size
  boundary : Boundary shard out.nextBoundary
  near : out.nextBoundary < out.size + 8 + shard
  aligned : Aligned shard out.pieces

theorem inv_start (h64 : 64 ≤ shard) : Inv shard (Out.start shard) := by
  have hne : shard ≠ 0 := by omega
  refine ⟨by simp [Out.start, Out.size, Out.data, dataOf], ?_, ?_, aligned_nil shard⟩
  · simp only [Out.start, hne, ne_eq, not_false_eq_true, if_true, Boundary]
    rw [Nat.sub_add_cancel (by omega)]
  · simp only [Out.start, hne, ne_eq, not_false_eq_true, if_true]
    omega

theorem Boundary.words (h4 : 4 ∣ shard) {b : ℕ} (h : Boundary shard b) : 4 ∣ b := by
  have hdvd : 4 ∣ b + 8 := h4.trans h
  omega

/-- Two boundaries are at least one payload apart. -/
theorem Boundary.add_le {b b' : ℕ} (h : Boundary shard b) (h' : Boundary shard b')
    (hlt : b < b') : b + shard ≤ b' := by
  have hdvd : shard ∣ b' - b := by
    have hsub := Nat.dvd_sub h' h
    rwa [show b' + 8 - (b + 8) = b' - b by omega] at hsub
  have hle := Nat.le_of_dvd (by omega) hdvd
  omega

theorem Inv.moveOn (h : Inv shard out) (hpast : out.nextBoundary < out.size + 8) :
    Inv shard (out.moveOn shard) where
  words := by simpa using h.words
  boundary := by
    have hdvd := Nat.dvd_add h.boundary (Nat.dvd_refl shard)
    rwa [show out.nextBoundary + 8 + shard = out.nextBoundary + shard + 8 by omega] at hdvd
  near := by
    simp only [Out.nextBoundary_moveOn, Out.size_moveOn]
    omega
  aligned := by simpa using h.aligned

/-- The padding of a round. -/
theorem Inv.pad (h : Inv shard out) (h4 : 4 ∣ shard) (hroom : out.size + 8 ≤ out.nextBoundary) :
    PieceAligned shard out.size (.padding (out.nextBoundary - out.size)) := by
  have hwords := h.boundary.words h4
  have hsize := h.words
  refine ⟨by omega, by omega, hsize, ?_⟩
  rw [show out.size + (out.nextBoundary - out.size) = out.nextBoundary by omega]
  exact h.boundary

/-- A record that ends at `next_boundary` or before it crosses no boundary, unless one is 4 bytes
away. -/
theorem Inv.fits (h : Inv shard out) (h4 : 4 ∣ shard)
    (hlen : out.size + len ≤ out.nextBoundary) (hcrosses : Crosses shard out.size len) :
    Boundary shard (out.size + 4) := by
  rcases hcrosses with ⟨b, hb, hafter, hbefore⟩
  have hapart := hb.add_le h.boundary (by omega)
  have hwords := hb.words h4
  have hsize := h.words
  have hnear := h.near
  rwa [show out.size + 4 = b by omega]

/-! ## The loop ends -/

/-- What the loop leaves for a record of `len` bytes: the same records, and room for it. -/
structure Placed (shard len : ℕ) (out out' : Out) : Prop where
  inv : Inv shard out'
  records : out'.pieces.filterMap Piece.record? = out.pieces.filterMap Piece.record?
  room : len ≤ shard → out'.size + len ≤ out'.nextBoundary

/-- The loop breaks with `out'`, whatever fuel it has beyond some number of rounds. -/
def Breaks (shard len : ℕ) (out : Out) (padded : Bool) (out' : Out) : Prop :=
  ∃ fuel, ∀ more, fuel ≤ more → rounds shard len more out padded = some out'

theorem Breaks.of_done {out' : Out} (h : round shard len out padded = .done out') :
    Breaks shard len out padded out' := by
  refine ⟨1, ?_⟩
  intro more hmore
  cases more with
  | zero => omega
  | succ fuel => simp [rounds, h]

theorem Breaks.of_again {out₁ out' : Out} {padded₁ : Bool}
    (h : round shard len out padded = .again out₁ padded₁)
    (h₁ : Breaks shard len out₁ padded₁ out') : Breaks shard len out padded out' := by
  rcases h₁ with ⟨fuel, hfuel⟩
  refine ⟨fuel + 1, ?_⟩
  intro more hmore
  cases more with
  | zero => omega
  | succ fuel' => simpa [rounds, h] using hfuel fuel' (by omega)

theorem round_passed (h : out.nextBoundary < out.size + 8) :
    round shard len out padded = .again (out.moveOn shard) padded := by
  simp [round, h]

theorem round_padded (h : out.size + 8 ≤ out.nextBoundary) :
    round shard len out true = .done out := by
  simp [round, Nat.not_lt.mpr h]

/-- With room for padding before the boundary, the loop pads at most once. -/
theorem breaks_ready (h : Inv shard out) (h64 : 64 ≤ shard) (h4 : 4 ∣ shard)
    (hready : out.size + 8 ≤ out.nextBoundary) :
    ∃ out', Breaks shard len out false out' ∧ Placed shard len out out' := by
  by_cases hdone : shard < len ∨
      len ≤ out.nextBoundary - out.size ∧ out.nextBoundary - out.size - len ≠ 4
  · refine ⟨out, Breaks.of_done ?_, ⟨h, rfl, ?_⟩⟩
    · simp only [round, Nat.not_lt.mpr hready, if_false]
      rcases hdone with hlong | hfits
      · simp [hlong]
      · simp [hfits]
    · intro hshort
      omega
  · simp only [not_or] at hdone
    have hpad := h.pad h4 hready
    have hlength := Piece.length_bytes_padding hpad.1
    -- The padding makes a fresh payload, and the record is placed there in any case.
    have hsize : ((out.append (.padding (out.nextBoundary - out.size))).moveOn shard).size =
        out.nextBoundary := by
      rw [Out.size_moveOn, Out.size_append, hlength]
      omega
    have hagain : round shard len out false =
        .again ((out.append (.padding (out.nextBoundary - out.size))).moveOn shard) true := by
      simp [round, Nat.not_lt.mpr hready, hdone.1, hdone.2]
    refine ⟨_, Breaks.of_again hagain (Breaks.of_done (round_padded ?_)),
      ⟨⟨?_, ?_, ?_, ?_⟩, ?_, ?_⟩⟩
    · rw [hsize, Out.nextBoundary_moveOn, Out.nextBoundary_append]
      omega
    · rw [hsize]
      exact h.boundary.words h4
    · have hdvd := Nat.dvd_add h.boundary (Nat.dvd_refl shard)
      rwa [show out.nextBoundary + 8 + shard = out.nextBoundary + shard + 8 by omega] at hdvd
    · rw [hsize, Out.nextBoundary_moveOn, Out.nextBoundary_append]
      omega
    · exact h.aligned.concat hpad
    · simp [Piece.record?]
    · intro hshort
      rw [hsize, Out.nextBoundary_moveOn, Out.nextBoundary_append]
      omega

/-- Boundaries that are passed or too near are left behind one by one. -/
theorem breaks (h : Inv shard out) (h64 : 64 ≤ shard) (h4 : 4 ∣ shard) :
    ∃ out', Breaks shard len out false out' ∧ Placed shard len out out' := by
  induction hgap : out.size + 8 - out.nextBoundary using Nat.strong_induction_on
    generalizing out with
  | _ gap ih =>
      by_cases hready : out.size + 8 ≤ out.nextBoundary
      · exact breaks_ready h h64 h4 hready
      · have hpast : out.nextBoundary < out.size + 8 := by omega
        have hnext : (out.moveOn shard).size + 8 - (out.moveOn shard).nextBoundary < gap := by
          rw [Out.size_moveOn, Out.nextBoundary_moveOn]
          omega
        rcases ih _ hnext (h.moveOn hpast) rfl with ⟨out', hbreaks, hplaced⟩
        exact ⟨out', hbreaks.of_again (round_passed hpast),
          ⟨hplaced.inv, hplaced.records, hplaced.room⟩⟩

/-- A record is put where the loop has left off. -/
theorem Placed.place {out' : Out} {record : List UInt8} (h : Placed shard record.length out out')
    (h4 : 4 ∣ shard) (hrecord : 4 ∣ record.length) : Inv shard (place shard record out') := by
  have hinv : Inv shard (out'.append (.record record)) := by
    refine ⟨?_, h.inv.boundary, ?_, ?_⟩
    · rw [Out.size_append]
      exact Nat.dvd_add h.inv.words hrecord
    · have hnear := h.inv.near
      rw [Out.size_append, Out.nextBoundary_append]
      omega
    · exact h.inv.aligned.concat fun hshort => h.inv.fits h4 (h.room hshort)
  simp only [Alignment.place]
  split
  · case isTrue hend => exact hinv.moveOn (by omega)
  · exact hinv

theorem pieces_place (record : List UInt8) :
    (place shard record out).pieces = out.pieces ++ [.record record] := by
  simp only [place]
  split <;> rfl

theorem appendRecord_aligned (h : Inv shard out) (h64 : 64 ≤ shard) (h4 : 4 ∣ shard)
    {record : List UInt8} (hrecord : 4 ∣ record.length) :
    ∃ out' fuel, (∀ more, fuel ≤ more → appendRecord more shard out record = some out') ∧
      Inv shard out' ∧ out'.pieces.filterMap Piece.record? =
        out.pieces.filterMap Piece.record? ++ [record] := by
  have hne : shard ≠ 0 := by omega
  have hbreaks : ∃ out', Breaks shard record.length out false out' ∧
      Placed shard record.length out out' := breaks h h64 h4
  rcases hbreaks with ⟨out', ⟨fuel, hfuel⟩, hplaced⟩
  refine ⟨place shard record out', fuel, ?_, hplaced.place h4 hrecord, ?_⟩
  · intro more hmore
    simp [appendRecord, hne, hfuel more hmore]
  · simp [pieces_place, hplaced.records, Piece.record?]

/-- **The alignment of a frame.**  The loop ends for every record.  The pieces that are not
padding are the records in order; padding is whole words, at least 8 bytes of them, and ends a
payload; a record that would fit into one payload crosses a boundary only where the output
before it ended 4 bytes short of that boundary. -/
theorem appendRecords_aligned (h64 : 64 ≤ shard) (h4 : 4 ∣ shard) {records : List (List UInt8)}
    (hrecords : ∀ r ∈ records, 8 ≤ r.length ∧ 4 ∣ r.length) :
    ∃ out fuel,
      (∀ more, fuel ≤ more → appendRecords more shard records (Out.start shard) = some out) ∧
      out.pieces.filterMap Piece.record? = records ∧ Aligned shard out.pieces := by
  suffices hall : ∀ out, Inv shard out → ∃ out' fuel,
      (∀ more, fuel ≤ more → appendRecords more shard records out = some out') ∧
      Inv shard out' ∧ out'.pieces.filterMap Piece.record? =
        out.pieces.filterMap Piece.record? ++ records by
    rcases hall _ (inv_start h64) with ⟨out, fuel, hfuel, hinv, hkeeps⟩
    exact ⟨out, fuel, hfuel, by simpa [Out.start] using hkeeps, hinv.aligned⟩
  induction records with
  | nil =>
      intro out h
      exact ⟨out, 0, fun _ _ => rfl, h, by simp⟩
  | cons record records ih =>
      intro out h
      simp only [List.forall_mem_cons] at hrecords
      rcases appendRecord_aligned h h64 h4 hrecords.1.2 with ⟨out₁, fuel₁, hfuel₁, hinv₁, hkeeps₁⟩
      rcases ih hrecords.2 out₁ hinv₁ with ⟨out', fuel, hfuel, hinv, hkeeps⟩
      refine ⟨out', max fuel₁ fuel, ?_, hinv, by simp [hkeeps, hkeeps₁]⟩
      intro more hmore
      have hfirst := hfuel₁ more (by omega)
      have hrest := hfuel more (by omega)
      simpa [appendRecords, List.foldlM_cons, hfirst] using hrest

/-- In payloads of 64 bytes the second record leaves 4 bytes of its payload, and the third one
crosses the end of it. -/
def someRecords : List (List UInt8) :=
  [List.replicate 8 0, List.replicate 60 1, List.replicate 8 2]

theorem appendRecords_aligned_someRecords :
    (64 ≤ 64 ∧ 4 ∣ 64 ∧ ∀ r ∈ someRecords, 8 ≤ r.length ∧ 4 ∣ r.length) ∧
      ∃ out fuel,
        (∀ more, fuel ≤ more → appendRecords more 64 someRecords (Out.start 64) = some out) ∧
        out.pieces.filterMap Piece.record? = someRecords ∧ Aligned 64 out.pieces := by
  have hrecords : ∀ r ∈ someRecords, 8 ≤ r.length ∧ 4 ∣ r.length := by decide
  exact ⟨⟨by decide, by decide, hrecords⟩,
    appendRecords_aligned (by decide) (by decide) hrecords⟩

end LuminalShine.Pyrowave.Alignment
