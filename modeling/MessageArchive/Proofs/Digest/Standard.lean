import Mathlib.Algebra.Ring.Nat
import Mathlib.Data.List.Induction
import MessageArchive.Digest.Sha256

set_option autoImplicit false

/-! # The digest of the standard

FIPS 180-4 lays down a digest in three parts: the blocks that a message is made into (`Blocks`), the
words of a block's schedule, each by its number (`scheduleWord`), and what one block does to the
state (`takeIn`). The digest is what is in the state behind the last block (`IsDigest`).

The hash is written the other way around. It takes blocks off what has come so far, without knowing
the end, and keeps only the last sixteen words of a schedule. `isDigest_iff` says that it comes to
the same.
-/

namespace MessageArchive.Digest.Sha256

/-! ## The standard -/

/-- The word of a block's schedule with a number below 64. -/
def scheduleWord (block : List UInt8) (t : Nat) : UInt32 :=
  if t < 16 then
    word (block.getD (4 * t) 0) (block.getD (4 * t + 1) 0) (block.getD (4 * t + 2) 0)
      (block.getD (4 * t + 3) 0)
  else
    lowerSigma1 (scheduleWord block (t - 2)) + scheduleWord block (t - 7)
      + lowerSigma0 (scheduleWord block (t - 15)) + scheduleWord block (t - 16)
termination_by t

/-- What a block does to the state: 64 rounds, and the state from before is added. -/
def takeIn (s : State) (block : List UInt8) : State :=
  ((List.range 64).foldl (fun v t => round v (constants.getD t 0) (scheduleWord block t)) s).add s

/-- The number that bytes stand for, the most significant byte first. -/
def bigEndian (bytes : List UInt8) : Nat := bytes.foldl (fun n b => 256 * n + b.toNat) 0

/-- The blocks that a message is made into: the message, a one bit, as few zeros as it takes, and
the length of the message in bits as a number of 64 bits. The standard has no longer messages than
that; of a length beyond it the last 64 bits are taken. -/
structure Blocks (message : List UInt8) (blocks : List (List UInt8)) : Prop where
  full : ∀ block ∈ blocks, block.length = 64
  filled : ∃ zeros length, zeros < 64 ∧ length.length = 8 ∧
    bigEndian length = 8 * message.length % 2 ^ 64 ∧
    blocks.flatten = message ++ 0x80 :: (List.replicate zeros 0 ++ length)

/-- The digest of a message. -/
def IsDigest (message digest : List UInt8) : Prop :=
  ∃ blocks, Blocks message blocks ∧ digest = (blocks.foldl takeIn initial).bytes

/-! ## The schedule -/

theorem scheduleWord_add (block : List UInt8) (t : Nat) :
    scheduleWord block (t + 16) = lowerSigma1 (scheduleWord block (t + 14))
      + scheduleWord block (t + 9) + lowerSigma0 (scheduleWord block (t + 1))
      + scheduleWord block t := by
  rw [scheduleWord, if_neg (by omega)]
  rfl

/-- From any sixteen words on, the schedule goes on as the standard has it. -/
theorem extend_eq (block : List UInt8) (count start : Nat) :
    extend count ((List.range' start 16).map (scheduleWord block)) =
      (List.range' (start + 16) count).map (scheduleWord block) := by
  induction count generalizing start with
  | zero => rfl
  | succ count ih =>
      have hnext : (List.range' (start + 1) 16).map (scheduleWord block) =
          (List.range' (start + 1) 15).map (scheduleWord block) ++
            [scheduleWord block (start + 16)] := by
        rw [List.range'_concat, List.map_append]
        rfl
      have hrest := ih (start + 1)
      rw [hnext, scheduleWord_add, Nat.add_right_comm start 1 16] at hrest
      rw [extend]
      show _ = scheduleWord block (start + 16) ::
        (List.range' (start + 16 + 1) count).map (scheduleWord block)
      rw [← hrest, scheduleWord_add]
      rfl

theorem words_eq (block : List UInt8) :
    words block = (List.range (block.length / 4)).map fun t =>
      word (block.getD (4 * t) 0) (block.getD (4 * t + 1) 0) (block.getD (4 * t + 2) 0)
        (block.getD (4 * t + 3) 0) := by
  fun_induction words block with
  | case1 a b c d rest ih =>
      have hlength : (a :: b :: c :: d :: rest).length / 4 = rest.length / 4 + 1 := by
        simp only [List.length_cons]
        omega
      rw [hlength, List.range_succ_eq_map, List.map_cons, List.map_map, ih]
      rfl
  | case2 block hshort =>
      have hlength : block.length / 4 = 0 := by
        match block, hshort with
        | [], _ | [_], _ | [_, _], _ | [_, _, _], _ => simp
        | a :: b :: c :: d :: rest, h => exact absurd rfl (h a b c d rest)
      rw [hlength]
      rfl

theorem schedule_eq {block : List UInt8} (h : block.length = 64) :
    schedule block = (List.range 64).map (scheduleWord block) := by
  have hwords : words block = (List.range' 0 16).map (scheduleWord block) := by
    rw [words_eq, h, List.range_eq_range']
    refine List.map_congr_left fun t ht => ?_
    rw [scheduleWord, if_pos (by simpa using ht)]
  rw [schedule, hwords, extend_eq, ← List.map_append, List.range_eq_range']
  rfl

theorem constants_eq : constants = (List.range 64).map fun t => constants.getD t 0 := by
  decide

theorem compress_eq_takeIn (s : State) {block : List UInt8} (h : block.length = 64) :
    compress s block = takeIn s block := by
  have hzip : constants.zip (schedule block) =
      (List.range 64).map fun t => (constants.getD t 0, scheduleWord block t) := by
    rw [schedule_eq h, ← List.zip_map', ← constants_eq]
  rw [compress, hzip, List.foldl_map, takeIn]

/-! ## The blocks -/

theorem absorb_flatten (s : State) {blocks : List (List UInt8)}
    (h : ∀ block ∈ blocks, block.length = 64) :
    absorb s blocks.flatten = (blocks.foldl takeIn s, []) := by
  induction blocks generalizing s with
  | nil => exact absorb_of_length_lt (by simp)
  | cons block blocks ih =>
      have hblock := h block List.mem_cons_self
      have hlength : 64 ≤ (block ++ blocks.flatten).length := by
        simp only [List.length_append]
        omega
      rw [List.flatten_cons, absorb_of_le_length hlength, List.take_left' hblock,
        List.drop_left' hblock, compress_eq_takeIn s hblock,
        ih _ fun b hb => h b (List.mem_cons_of_mem _ hb), List.foldl_cons]

theorem exists_blocks (count : Nat) {data : List UInt8} (h : data.length = 64 * count) :
    ∃ blocks : List (List UInt8),
      (∀ block ∈ blocks, block.length = 64) ∧ blocks.flatten = data := by
  induction count generalizing data with
  | zero => exact ⟨[], by simp, (List.eq_nil_of_length_eq_zero h).symm⟩
  | succ count ih =>
      obtain ⟨blocks, hfull, hflatten⟩ :=
        @ih (data.drop 64) (by rw [List.length_drop]; omega)
      refine ⟨data.take 64 :: blocks, ?_, ?_⟩
      · rintro block (_ | ⟨_, hmem⟩)
        · rw [List.length_take]
          omega
        · exact hfull block hmem
      · rw [List.flatten_cons, hflatten, List.take_append_drop]

theorem length_flatten_blocks {blocks : List (List UInt8)}
    (h : ∀ block ∈ blocks, block.length = 64) : blocks.flatten.length = 64 * blocks.length := by
  induction blocks with
  | nil => rfl
  | cons block blocks ih =>
      have hblock := h block List.mem_cons_self
      have hrest := ih fun b hb => h b (List.mem_cons_of_mem _ hb)
      simp only [List.flatten_cons, List.length_append, List.length_cons]
      omega

/-! ## The length behind the message -/

theorem bigEndian_snoc (bytes : List UInt8) (b : UInt8) :
    bigEndian (bytes ++ [b]) = 256 * bigEndian bytes + b.toNat := by
  rw [bigEndian, List.foldl_append]
  rfl

/-- Bytes of one length are told by the number they stand for. -/
theorem bigEndian_inj {xs ys : List UInt8} (hlength : xs.length = ys.length)
    (h : bigEndian xs = bigEndian ys) : xs = ys := by
  induction xs using List.reverseRecOn generalizing ys with
  | nil => exact (List.eq_nil_of_length_eq_zero hlength.symm).symm
  | append_singleton xs x ih =>
      obtain rfl | ⟨ys, y, rfl⟩ := List.eq_nil_or_concat ys
      · simp at hlength
      · rw [List.concat_eq_append] at hlength h ⊢
        rw [bigEndian_snoc, bigEndian_snoc] at h
        have hx := x.toNat_lt
        have hy := y.toNat_lt
        have hlast : x.toNat = y.toNat := by omega
        have hfront := ih (by simpa using hlength) (by omega)
        rw [hfront, UInt8.toNat_inj.1 hlast]

/-- The last bytes of a number, the most significant byte first. -/
def lastBytes : Nat → Nat → List UInt8
  | 0, _ => []
  | count + 1, n => lastBytes count (n / 256) ++ [UInt8.ofNat n]

theorem bigEndian_lastBytes (count n : Nat) : bigEndian (lastBytes count n) = n % 256 ^ count := by
  induction count generalizing n with
  | zero => exact (Nat.mod_one n).symm
  | succ count ih =>
      calc bigEndian (lastBytes (count + 1) n)
        _ = 256 * (n / 256 % 256 ^ count) + n % 256 := by
          rw [lastBytes, bigEndian_snoc, ih, UInt8.toNat_ofNat']
        _ = n % 256 ^ (count + 1) := by rw [Nat.pow_succ', Nat.mod_mul, Nat.add_comm]

theorem lengthBytes_eq (n : Nat) : lengthBytes n = lastBytes 8 n := by
  simp [lengthBytes, lastBytes, Nat.shiftRight_eq_div_pow, Nat.div_div_eq_div_mul]

theorem bigEndian_lengthBytes (n : Nat) : bigEndian (lengthBytes n) = n % 2 ^ 64 := by
  rw [lengthBytes_eq]
  exact bigEndian_lastBytes 8 n

/-! ## The digest -/

theorem length_padding (length : Nat) :
    (padding length).length = 9 + (119 - length % 64) % 64 := by
  simp only [padding, List.length_append, List.length_cons, List.length_replicate, lengthBytes,
    List.length_map, List.length_nil]
  omega

/-- The standard leaves no choice in what a message is filled up with. -/
theorem Blocks.flatten_eq {message : List UInt8} {blocks : List (List UInt8)}
    (h : Blocks message blocks) : blocks.flatten = message ++ padding message.length := by
  obtain ⟨hfull, zeros, length, hzeros, hlength, hnumber, hflatten⟩ := h
  have hbytes : length = lengthBytes (8 * message.length) :=
    bigEndian_inj hlength (hnumber.trans (bigEndian_lengthBytes _).symm)
  have htotal := length_flatten_blocks hfull
  simp only [hflatten, List.length_append, List.length_cons, List.length_replicate, hlength]
    at htotal
  have hcount : zeros = (119 - message.length % 64) % 64 := by omega
  rw [hflatten, hbytes, hcount]
  rfl

theorem exists_blocks_of_message (message : List UInt8) : ∃ blocks, Blocks message blocks := by
  have htotal : (message ++ padding message.length).length =
      64 * ((message.length + 72) / 64) := by
    rw [List.length_append, length_padding]
    omega
  obtain ⟨blocks, hfull, hflatten⟩ := exists_blocks _ htotal
  exact ⟨blocks, hfull, _, _, Nat.mod_lt _ (by decide), rfl, bigEndian_lengthBytes _, hflatten⟩

/-- **The hash is that of the standard.** Every message has one digest after FIPS 180-4, and it is
the one that is computed. -/
theorem isDigest_iff {message d : List UInt8} : IsDigest message d ↔ d = digest message := by
  have hdigest : ∀ blocks, Blocks message blocks →
      digest message = (blocks.foldl takeIn initial).bytes := by
    intro blocks h
    rw [digest, ← h.flatten_eq, absorb_flatten initial h.full]
  constructor
  · rintro ⟨blocks, h, rfl⟩
    exact (hdigest blocks h).symm
  · rintro rfl
    obtain ⟨blocks, h⟩ := exists_blocks_of_message message
    exact ⟨blocks, h, hdigest blocks h⟩

-- The digest of `abc`, as the standard's own example has it.
example : IsDigest [0x61, 0x62, 0x63]
    [0xba, 0x78, 0x16, 0xbf, 0x8f, 0x01, 0xcf, 0xea, 0x41, 0x41, 0x40, 0xde, 0x5d, 0xae, 0x22, 0x23,
      0xb0, 0x03, 0x61, 0xa3, 0x96, 0x17, 0x7a, 0x9c, 0xb4, 0x10, 0xff, 0x61, 0xf2, 0x00, 0x15,
      0xad] :=
  isDigest_iff.2 (by
    rw [digest, absorb_of_le_length (by decide), absorb_of_length_lt (by decide)]
    decide +kernel)

end MessageArchive.Digest.Sha256
