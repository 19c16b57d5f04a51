import Lsw.Core.IsoDownload
import Lsw.Lib.Tiling
import Lsw.Lib.Word

/-!
# Byte Ranges in Machine Words

`split_ranges` cuts a length that the CDN reports into at most four byte ranges.  It computes with
`u64`, so an addition, a multiplication or a subtraction that does not fit panics.

The ranges are a partition of the file, and the last of them is where the arithmetic comes closest to
the end of the machine words: its exclusive end is computed before one is subtracted from it, and for
the three largest lengths that end is two to the sixty-four.
-/

namespace Lsw.Core.IsoDownload

open Lsw.Lib

/-! ## The computation -/

/-- `ByteRange::len`. -/
def ByteRange.lenU64 (range : ByteRange) : Exec LswError Nat := do
  addUsize (← subUsize range.last range.start) 1

/-- `u64::div_ceil`, which does not overflow. -/
def divCeil (n d : Nat) : Nat := if 0 < n % d then n / d + 1 else n / d

/-- One iteration of the map in `split_ranges`. -/
def splitRange (length chunk index : Nat) : Exec LswError ByteRange := do
  let start ← mulUsize index chunk
  let last ← subUsize (← addUsize start chunk) 1
  return ⟨start, min last (← subUsize length 1)⟩

/-- `split_ranges`, in `u64`. -/
def splitRangesU64 (length : Nat) : Exec LswError (List ByteRange) := do
  rejectIf (length = 0) (.error (.invalidValue "Windows ISO download"
    [.text "Microsoft CDN reported an empty file"]))
  let connections := min length maxCdnConnections
  let chunk := divCeil length connections
  let ranges ← (List.range connections).mapM (splitRange length chunk)
  return ranges.filter fun range => range.start ≤ range.last

/-! ## The partition -/

/-- The ranges cut the file into pieces, one after the other. -/
structure Splits (length : Nat) (ranges : List ByteRange) : Prop where
  length_pos : 1 ≤ ranges.length
  length_le : ranges.length ≤ maxCdnConnections
  nonempty : ∀ range ∈ ranges, range.start ≤ range.last
  /-- They begin at the first byte, and each where the one before it ends. -/
  contiguous : ranges.IsChain (fun range next => next.start = range.last + 1) ∧
    ∀ range ∈ ranges.head?, range.start = 0
  ordered : ranges.Pairwise fun range later => range.last < later.start
  covers : ∀ offset, offset < length ↔
    ∃ range ∈ ranges, range.start ≤ offset ∧ offset ≤ range.last
  len : ∀ range ∈ ranges, range.lenU64 = .ok range.len
  sum_len : (ranges.map ByteRange.len).sum = length

/-- The end of a range that it does not have. -/
def ByteRange.past (range : ByteRange) : Nat := range.last + 1

/-- The range of an index, where it does not overflow. -/
def rangeAt (length chunk index : Nat) : ByteRange :=
  ⟨index * chunk, min (index * chunk + chunk - 1) (length - 1)⟩

theorem divCeil_eq {n d : Nat} (hd : 0 < d) : divCeil n d = (n + d - 1) / d := by
  unfold divCeil
  have hsplit := Nat.div_add_mod n d
  have hmod := Nat.mod_lt n hd
  symm
  split
  · rw [Nat.div_eq_iff hd, Nat.mul_comm, Nat.mul_add]
    omega
  · rw [Nat.div_eq_iff hd, Nat.mul_comm]
    omega

/-- The chunks reach the end of the file. -/
theorem le_mul_divCeil {n d : Nat} (hd : 0 < d) : n ≤ d * divCeil n d := by
  unfold divCeil
  have hsplit := Nat.div_add_mod n d
  have hmod := Nat.mod_lt n hd
  split
  · rw [Nat.mul_add]
    omega
  · omega

/-- They do not reach further than they must. -/
theorem mul_divCeil_le {n d : Nat} (hd : 0 < d) : d * divCeil n d ≤ n + (d - 1) := by
  unfold divCeil
  have hsplit := Nat.div_add_mod n d
  have hmod := Nat.mod_lt n hd
  split
  · rw [Nat.mul_add]
    omega
  · omega

/-- The ranges of the first indices that are not empty follow one another, as far as the file goes. -/
theorem tiles_filter_rangeAt {length chunk : Nat} (hlength : 0 < length) (hchunk : 0 < chunk)
    (n : Nat) :
    Tiles ByteRange.start ByteRange.past 0
      (((List.range n).map (rangeAt length chunk)).filter fun range => range.start ≤ range.last)
      (min (n * chunk) length) := by
  -- Over the number of indices.
  induction n with
  | zero => simpa using Tiles.nil 0
  | succ n ih =>
    rw [List.range_succ, List.map_append, List.filter_append, List.map_singleton]
    by_cases hinside : n * chunk < length
    · -- The next range begins inside the file.
      have hkept : (rangeAt length chunk n).start ≤ (rangeAt length chunk n).last := by
        simp only [rangeAt]
        omega
      have hpast : (rangeAt length chunk n).past = min ((n + 1) * chunk) length := by
        simp only [rangeAt, ByteRange.past, Nat.succ_mul]
        omega
      rw [List.filter_singleton, decide_eq_true hkept, cond_true, ← hpast]
      refine ih.snoc ?_ ?_
      · simp only [rangeAt]
        omega
      · rw [hpast, Nat.succ_mul]
        omega
    -- It begins behind the end, so it is empty, and dropped.
    · have hdropped : ¬ (rangeAt length chunk n).start ≤ (rangeAt length chunk n).last := by
        simp only [rangeAt]
        omega
      have hsame : min ((n + 1) * chunk) length = min (n * chunk) length := by
        rw [Nat.succ_mul]
        omega
      rw [List.filter_singleton, decide_eq_false hdropped, cond_false, List.append_nil, hsame]
      exact ih

/-- A tiling of the file is a partition as it is meant. -/
theorem Splits.of_tiles {length : Nat} {ranges : List ByteRange}
    (h : Tiles ByteRange.start ByteRange.past 0 ranges length) (hlength : 0 < length)
    (hsize : length < usizeSize) (hcount : ranges.length ≤ maxCdnConnections) :
    Splits length ranges where
  length_pos := List.length_pos_iff.mpr (h.ne_nil hlength)
  length_le := hcount
  nonempty range hrange := Nat.le_of_lt_succ (h.mem hrange).2.1
  contiguous := ⟨h.isChain.1, h.isChain.2.2⟩
  ordered := h.pairwise.imp fun hpast => hpast
  covers offset := by
    have hcovers := h.covers offset
    simp only [Nat.zero_le, true_and, ByteRange.past, Nat.lt_succ_iff] at hcovers
    exact hcovers
  len range hrange := by
    obtain ⟨-, hne, hpast⟩ := h.mem hrange
    simp only [ByteRange.past] at hne hpast
    have hsub : subUsize (ε := LswError) range.last range.start = .ok (range.last - range.start) :=
      subUsize_eq_ok (by omega)
    rw [ByteRange.lenU64, hsub, ok_bind, addUsize_eq_ok (by omega)]
    rfl
  sum_len := by
    have hlens : ranges.map ByteRange.len = ranges.map fun range => range.past - range.start := by
      refine List.map_congr_left fun range hrange => ?_
      have hne := (h.mem hrange).2.1
      simp only [ByteRange.len, ByteRange.past] at hne ⊢
      omega
    have hsum := h.sum
    rw [hlens]
    omega

/-! ## Where it fits -/

theorem splitRange_eq_ok {length chunk index : Nat} (hlength : 0 < length) (hchunk : 0 < chunk)
    (hfits : index * chunk + chunk < usizeSize) :
    splitRange length chunk index = .ok (rangeAt length chunk index) := by
  rw [splitRange, mulUsize_eq_ok (by omega), ok_bind, addUsize_eq_ok hfits, ok_bind,
    subUsize_eq_ok (by omega), ok_bind, subUsize_eq_ok hlength, ok_bind]
  rfl

/-- The ranges of a file whose length leaves room for the last one. -/
theorem splitRangesU64_eq_ok {length : Nat} (hlength : 0 < length)
    (hfits : length + 3 < usizeSize) :
    splitRangesU64 length = .ok (((List.range (min length maxCdnConnections)).map
      (rangeAt length (divCeil length (min length maxCdnConnections)))).filter
        fun range => range.start ≤ range.last) := by
  -- There is at least one connection, and each has at least one byte.
  have hconnections : 0 < min length maxCdnConnections := by
    simp only [maxCdnConnections]
    omega
  have hreach := le_mul_divCeil (n := length) hconnections
  have htight := mul_divCeil_le (n := length) hconnections
  have hchunk : 0 < divCeil length (min length maxCdnConnections) :=
    Nat.pos_of_ne_zero fun hzero => by
      rw [hzero, Nat.mul_zero] at hreach
      omega
  -- No index overflows: the last range ends less than a chunk behind the length.
  have hmap : (List.range (min length maxCdnConnections)).mapM
      (splitRange length (divCeil length (min length maxCdnConnections))) =
      .ok ((List.range (min length maxCdnConnections)).map
        (rangeAt length (divCeil length (min length maxCdnConnections)))) := by
    refine mapM_eq_ok_iff.mpr (List.forall₂_map_right_iff.mpr (List.forall₂_same.mpr ?_))
    intro index hmem
    have hindex := List.mem_range.mp hmem
    refine splitRange_eq_ok hlength hchunk ?_
    -- The end of a range is at most the end of the last one.
    have hmul : index * divCeil length (min length maxCdnConnections) +
        divCeil length (min length maxCdnConnections) ≤
        min length maxCdnConnections * divCeil length (min length maxCdnConnections) := by
      rw [← Nat.succ_mul]
      exact Nat.mul_le_mul_right _ hindex
    have hfour : min length maxCdnConnections ≤ 4 := Nat.min_le_right _ _
    omega
  rw [splitRangesU64, rejectIf_of_not _ (by omega), ok_bind]
  simp only [hmap, ok_bind]
  rfl

/-- Where nothing overflows, the ranges are those of the model of the downloader. -/
theorem splitRangesU64_eq_splitRanges {length : Nat} (hlength : 0 < length)
    (hfits : length + 3 < usizeSize) :
    splitRangesU64 length = (splitRanges length).mapError Fault.error := by
  have hconnections : 0 < min length maxCdnConnections := by
    simp only [maxCdnConnections]
    omega
  rw [splitRangesU64_eq_ok hlength hfits, splitRanges, if_neg (by omega), divCeil_eq hconnections]
  rfl

/-- The three largest lengths: the end of the last of four ranges does not fit. -/
theorem splitRangesU64_panics {length : Nat} (hlarge : usizeSize ≤ length + 3)
    (hsize : length < usizeSize) : splitRangesU64 length = .error .panic := by
  -- Four ranges of a quarter each.
  have hfour : min length maxCdnConnections = 4 := by
    simp only [maxCdnConnections, usizeSize] at hlarge ⊢
    omega
  have hchunk : divCeil length 4 = 2 ^ 62 := by
    rw [divCeil_eq (by decide)]
    simp only [usizeSize] at hlarge hsize
    omega
  -- The first three are computed without an overflow.
  have hfits (index : Nat) (h : index < 3) : splitRange length (2 ^ 62) index =
      .ok (rangeAt length (2 ^ 62) index) := by
    refine splitRange_eq_ok ?_ (by decide) ?_
    · simp only [usizeSize] at hlarge
      omega
    · simp only [usizeSize]
      omega
  -- The fourth begins at three quarters of the range of a word, and its end does not fit.
  have hlast : splitRange length (2 ^ 62) 3 = .error .panic := by
    rw [splitRange, mulUsize_eq_ok (by decide), ok_bind, addUsize, if_neg (by decide)]
    rfl
  have hne : length ≠ 0 := by
    simp only [usizeSize] at hlarge
    omega
  rw [splitRangesU64, rejectIf_of_not _ hne, ok_bind]
  simp only [hfour, hchunk, List.range_succ, List.range_zero, List.nil_append, List.cons_append,
    List.mapM_cons, hfits 0 (by decide), hfits 1 (by decide), hfits 2 (by decide), hlast, ok_bind,
    error_bind]

/-- `split_ranges` cuts a file into ranges that partition it, without an overflow, unless the file
    has one of the three largest lengths. -/
theorem split_ranges_partitions_iff (length : UInt64) (h : 0 < length) :
    (∃ ranges, splitRangesU64 length.toNat = .ok ranges ∧ Splits length.toNat ranges) ↔
      length.toNat ≤ 2 ^ 64 - 4 := by
  have hlength : 0 < length.toNat := h
  have hsize : length.toNat < usizeSize := length.toNat_lt
  constructor
  · rintro ⟨ranges, hranges, -⟩
    by_contra hlarge
    -- One of the three largest lengths panics.
    have hpanics : splitRangesU64 length.toNat = .error .panic :=
      splitRangesU64_panics (by simp only [usizeSize]; omega) hsize
    rw [hpanics] at hranges
    cases hranges
  · intro hfits
    refine ⟨_, splitRangesU64_eq_ok hlength (by simp only [usizeSize]; omega), ?_⟩
    -- For any other one the ranges tile the file.
    have hconnections : 0 < min length.toNat maxCdnConnections := by
      simp only [maxCdnConnections]
      omega
    have hreach := le_mul_divCeil (n := length.toNat) hconnections
    have hchunk : 0 < divCeil length.toNat (min length.toNat maxCdnConnections) :=
      Nat.pos_of_ne_zero fun hzero => by
        rw [hzero, Nat.mul_zero] at hreach
        omega
    have htiles := tiles_filter_rangeAt hlength hchunk (min length.toNat maxCdnConnections)
    rw [Nat.min_eq_right hreach] at htiles
    refine .of_tiles htiles hlength hsize ((List.length_filter_le _ _).trans ?_)
    rw [List.length_map, List.length_range]
    exact Nat.min_le_right _ _

/-- Ten bytes are cut into four ranges. -/
theorem ten_bytes_are_partitioned :
    ∃ ranges, splitRangesU64 (10 : UInt64).toNat = .ok ranges ∧ Splits (10 : UInt64).toNat ranges :=
  (split_ranges_partitions_iff 10 (by decide)).mpr (by decide)

/-- The largest length that a response can report. -/
theorem largest_length_overflows :
    ¬ ∃ ranges, splitRangesU64 (18446744073709551615 : UInt64).toNat = .ok ranges := by
  rintro ⟨ranges, hranges⟩
  have hpanics : splitRangesU64 (18446744073709551615 : UInt64).toNat = .error .panic :=
    splitRangesU64_panics (by decide) (by decide)
  rw [hpanics] at hranges
  cases hranges

end Lsw.Core.IsoDownload
