import Mathlib.Data.Int.Notation
import Mathlib.Data.List.Basic

/-!
# UTF-8 as Python encodes and decodes it

`str.encode()` and `bytes.decode(errors="replace")`.  The decoder reads one byte
at a time; a byte that cannot go on with the character under way replaces what
came of it by U+FFFD and is then read as the first byte of the next one.
-/

set_option autoImplicit false

namespace Utf8

def replacementCharacter : Char := Char.ofNat 0xFFFD

def continuation (bits : ℕ) : UInt8 := UInt8.ofNat (0x80 + bits % 0x40)

def encodeChar (c : Char) : List UInt8 :=
  let n := c.toNat
  if n < 0x80 then [UInt8.ofNat n]
  else if n < 0x800 then [UInt8.ofNat (0xC0 + n / 0x40), continuation n]
  else if n < 0x10000 then
    [UInt8.ofNat (0xE0 + n / 0x1000), continuation (n / 0x40), continuation n]
  else
    [UInt8.ofNat (0xF0 + n / 0x40000), continuation (n / 0x1000), continuation (n / 0x40),
      continuation n]

def encode (text : String) : List UInt8 := text.toList.flatMap encodeChar

/-- The character under way: how many bytes it still needs, the range of the
next one, and its bits so far. -/
structure Pending where
  missing : ℕ
  lower : ℕ
  upper : ℕ
  bits : ℕ
deriving DecidableEq

inductive FirstByte where
  | complete (c : Char)
  | begins (pending : Pending)
  | invalid
deriving DecidableEq

def firstByte (byte : ℕ) : FirstByte :=
  if byte < 0x80 then .complete (Char.ofNat byte)
  else if 0xC2 ≤ byte ∧ byte ≤ 0xDF then .begins ⟨1, 0x80, 0xBF, byte - 0xC0⟩
  else if byte = 0xE0 then .begins ⟨2, 0xA0, 0xBF, 0⟩
  else if byte = 0xED then .begins ⟨2, 0x80, 0x9F, byte - 0xE0⟩
  else if 0xE1 ≤ byte ∧ byte ≤ 0xEF then .begins ⟨2, 0x80, 0xBF, byte - 0xE0⟩
  else if byte = 0xF0 then .begins ⟨3, 0x90, 0xBF, 0⟩
  else if 0xF1 ≤ byte ∧ byte ≤ 0xF3 then .begins ⟨3, 0x80, 0xBF, byte - 0xF0⟩
  else if byte = 0xF4 then .begins ⟨3, 0x80, 0x8F, byte - 0xF0⟩
  else .invalid

def decodeFrom : Option Pending → List UInt8 → List Char
  | none, [] => []
  | some _, [] => [replacementCharacter]
  | none, byte :: rest =>
      match firstByte byte.toNat with
      | .complete c => c :: decodeFrom none rest
      | .begins pending => decodeFrom (some pending) rest
      | .invalid => replacementCharacter :: decodeFrom none rest
  | some pending, byte :: rest =>
      if pending.lower ≤ byte.toNat ∧ byte.toNat ≤ pending.upper then
        if pending.missing ≤ 1 then
          Char.ofNat (pending.bits * 0x40 + byte.toNat % 0x40) :: decodeFrom none rest
        else
          decodeFrom
            (some ⟨pending.missing - 1, 0x80, 0xBF, pending.bits * 0x40 + byte.toNat % 0x40⟩)
            rest
      else
        replacementCharacter ::
          match firstByte byte.toNat with
          | .complete c => c :: decodeFrom none rest
          | .begins pending => decodeFrom (some pending) rest
          | .invalid => replacementCharacter :: decodeFrom none rest

/-- `bytes.decode(errors="replace")` -/
def decode (bytes : List UInt8) : String := String.ofList (decodeFrom none bytes)

/-- `bytes[:limit]`, where a negative limit counts from the end. -/
def slice (bytes : List UInt8) (limit : ℤ) : List UInt8 :=
  if 0 ≤ limit then bytes.take limit.toNat else bytes.take (bytes.length - limit.natAbs)

/-! ## Bytes of one character -/

theorem toNat_valid (c : Char) : c.toNat < 0xD800 ∨ 0xDFFF < c.toNat ∧ c.toNat < 0x110000 :=
  c.valid

theorem toNat_continuation (bits : ℕ) : (continuation bits).toNat = 0x80 + bits % 0x40 := by
  unfold continuation
  rw [UInt8.toNat_ofNat_of_lt']
  change 0x80 + bits % 0x40 < 256
  omega

theorem decodeFrom_last {lower upper bits next : ℕ} (least : lower ≤ 0x80 + next % 0x40)
    (most : 0x80 + next % 0x40 ≤ upper) (rest : List UInt8) :
    decodeFrom (some ⟨1, lower, upper, bits⟩) (continuation next :: rest) =
      Char.ofNat (bits * 0x40 + next % 0x40) :: decodeFrom none rest := by
  rw [decodeFrom]
  simp only [toNat_continuation]
  rw [if_pos ⟨least, most⟩, if_pos (Nat.le_refl 1)]
  congr 2
  omega

theorem decodeFrom_middle {missing lower upper bits next : ℕ} (more : 1 < missing)
    (least : lower ≤ 0x80 + next % 0x40) (most : 0x80 + next % 0x40 ≤ upper)
    (rest : List UInt8) :
    decodeFrom (some ⟨missing, lower, upper, bits⟩) (continuation next :: rest) =
      decodeFrom (some ⟨missing - 1, 0x80, 0xBF, bits * 0x40 + next % 0x40⟩) rest := by
  rw [decodeFrom]
  simp only [toNat_continuation]
  rw [if_pos ⟨least, most⟩, if_neg (by omega)]
  congr 3
  omega

theorem decodeFrom_first {byte : ℕ} {pending : Pending} (small : byte < 256)
    (begins : firstByte byte = .begins pending) (rest : List UInt8) :
    decodeFrom none (UInt8.ofNat byte :: rest) = decodeFrom (some pending) rest := by
  have same : (UInt8.ofNat byte).toNat = byte := UInt8.toNat_ofNat_of_lt' small
  rw [decodeFrom, same, begins]

theorem firstByte_two {n : ℕ} (least : 0x80 ≤ n) (most : n < 0x800) :
    firstByte (0xC0 + n / 0x40) = .begins ⟨1, 0x80, 0xBF, n / 0x40⟩ := by
  unfold firstByte
  rw [if_neg (by omega), if_pos (by omega), Nat.add_sub_cancel_left]

theorem firstByte_three {n : ℕ} (least : 0x800 ≤ n) (most : n < 0x10000)
    (valid : n < 0xD800 ∨ 0xDFFF < n) :
    ∃ lower upper, firstByte (0xE0 + n / 0x1000) = .begins ⟨2, lower, upper, n / 0x1000⟩ ∧
      lower ≤ 0x80 + n / 0x40 % 0x40 ∧ 0x80 + n / 0x40 % 0x40 ≤ upper := by
  unfold firstByte
  rw [if_neg (by omega), if_neg (by omega)]
  by_cases first : 0xE0 + n / 0x1000 = 0xE0
  · have none : n / 0x1000 = 0 := by omega
    rw [if_pos first, none]
    exact ⟨_, _, rfl, by omega, by omega⟩
  · rw [if_neg first]
    by_cases surrogate : 0xE0 + n / 0x1000 = 0xED
    · rw [if_pos surrogate, Nat.add_sub_cancel_left]
      exact ⟨_, _, rfl, by omega, by omega⟩
    · rw [if_neg surrogate, if_pos (by omega), Nat.add_sub_cancel_left]
      exact ⟨_, _, rfl, by omega, by omega⟩

theorem firstByte_four {n : ℕ} (least : 0x10000 ≤ n) (most : n < 0x110000) :
    ∃ lower upper, firstByte (0xF0 + n / 0x40000) = .begins ⟨3, lower, upper, n / 0x40000⟩ ∧
      lower ≤ 0x80 + n / 0x1000 % 0x40 ∧ 0x80 + n / 0x1000 % 0x40 ≤ upper := by
  unfold firstByte
  rw [if_neg (by omega), if_neg (by omega), if_neg (by omega), if_neg (by omega),
    if_neg (by omega)]
  by_cases first : 0xF0 + n / 0x40000 = 0xF0
  · have none : n / 0x40000 = 0 := by omega
    rw [if_pos first, none]
    exact ⟨_, _, rfl, by omega, by omega⟩
  · rw [if_neg first]
    by_cases middle : 0xF1 ≤ 0xF0 + n / 0x40000 ∧ 0xF0 + n / 0x40000 ≤ 0xF3
    · rw [if_pos middle, Nat.add_sub_cancel_left]
      exact ⟨_, _, rfl, by omega, by omega⟩
    · rw [if_neg middle, if_pos (by omega), Nat.add_sub_cancel_left]
      exact ⟨_, _, rfl, by omega, by omega⟩

structure Decodes (c : Char) (bytes : List UInt8) : Prop where
  whole : ∀ rest, decodeFrom none (bytes ++ rest) = c :: decodeFrom none rest
  part : ∀ kept, 0 < kept → kept < bytes.length →
    decodeFrom none (bytes.take kept) = [replacementCharacter]

theorem decodes_one {c : Char} (ascii : c.toNat < 0x80) : Decodes c [UInt8.ofNat c.toNat] where
  whole := by
    intro rest
    have same : (UInt8.ofNat c.toNat).toNat = c.toNat :=
      UInt8.toNat_ofNat_of_lt' (Nat.lt_of_lt_of_le ascii (by decide))
    have first : firstByte c.toNat = .complete c := by
      unfold firstByte
      rw [if_pos ascii, Char.ofNat_toNat]
    rw [List.singleton_append, decodeFrom, same, first]
  part := by
    intro kept some less
    rw [List.length_singleton] at less
    omega

theorem decodes_two {c : Char} (least : 0x80 ≤ c.toNat) (most : c.toNat < 0x800) :
    Decodes c [UInt8.ofNat (0xC0 + c.toNat / 0x40), continuation c.toNat] where
  whole := by
    intro rest
    have bits : c.toNat / 0x40 * 0x40 + c.toNat % 0x40 = c.toNat := by omega
    rw [List.cons_append, decodeFrom_first (by omega) (firstByte_two least most),
      List.singleton_append, decodeFrom_last (by omega) (by omega), bits, Char.ofNat_toNat]
  part := by
    intro kept some less
    simp only [List.length_cons, List.length_nil] at less
    obtain rfl : kept = 1 := by omega
    rw [List.take_succ_cons, decodeFrom_first (by omega) (firstByte_two least most),
      List.take_zero, decodeFrom]

theorem decodes_three {c : Char} (least : 0x800 ≤ c.toNat) (most : c.toNat < 0x10000) :
    Decodes c [UInt8.ofNat (0xE0 + c.toNat / 0x1000), continuation (c.toNat / 0x40),
      continuation c.toNat] := by
  have valid : c.toNat < 0xD800 ∨ 0xDFFF < c.toNat := (toNat_valid c).imp_right And.left
  obtain ⟨lower, upper, first, above, below⟩ := firstByte_three least most valid
  have begins := decodeFrom_first (by omega) first
  refine { whole := ?whole, part := ?part }
  case whole =>
    intro rest
    have bits : (c.toNat / 0x1000 * 0x40 + c.toNat / 0x40 % 0x40) * 0x40 + c.toNat % 0x40 =
        c.toNat := by omega
    rw [List.cons_append, begins, List.cons_append,
      decodeFrom_middle (by omega) above below, List.singleton_append,
      decodeFrom_last (by omega) (by omega), bits, Char.ofNat_toNat]
  case part =>
    intro kept some less
    simp only [List.length_cons, List.length_nil] at less
    have either : kept = 1 ∨ kept = 2 := by omega
    rcases either with rfl | rfl
    · rw [List.take_succ_cons, begins, List.take_zero, decodeFrom]
    · rw [List.take_succ_cons, begins, List.take_succ_cons,
        decodeFrom_middle (by omega) above below, List.take_zero, decodeFrom]

theorem decodes_four {c : Char} (least : 0x10000 ≤ c.toNat) :
    Decodes c [UInt8.ofNat (0xF0 + c.toNat / 0x40000), continuation (c.toNat / 0x1000),
      continuation (c.toNat / 0x40), continuation c.toNat] := by
  have most : c.toNat < 0x110000 := by
    have valid := toNat_valid c
    omega
  obtain ⟨lower, upper, first, above, below⟩ := firstByte_four least most
  have begins := decodeFrom_first (by omega) first
  refine { whole := ?whole, part := ?part }
  case whole =>
    intro rest
    have bits : ((c.toNat / 0x40000 * 0x40 + c.toNat / 0x1000 % 0x40) * 0x40 +
        c.toNat / 0x40 % 0x40) * 0x40 + c.toNat % 0x40 = c.toNat := by omega
    rw [List.cons_append, begins, List.cons_append,
      decodeFrom_middle (by omega) above below, List.cons_append,
      decodeFrom_middle (by omega) (by omega) (by omega), List.singleton_append,
      decodeFrom_last (by omega) (by omega), bits, Char.ofNat_toNat]
  case part =>
    intro kept some less
    simp only [List.length_cons, List.length_nil] at less
    have three : kept = 1 ∨ kept = 2 ∨ kept = 3 := by omega
    rcases three with rfl | rfl | rfl
    · rw [List.take_succ_cons, begins, List.take_zero, decodeFrom]
    · rw [List.take_succ_cons, begins, List.take_succ_cons,
        decodeFrom_middle (by omega) above below, List.take_zero, decodeFrom]
    · rw [List.take_succ_cons, begins, List.take_succ_cons,
        decodeFrom_middle (by omega) above below, List.take_succ_cons,
        decodeFrom_middle (by omega) (by omega) (by omega), List.take_zero, decodeFrom]

theorem decodes_encodeChar (c : Char) : Decodes c (encodeChar c) := by
  unfold encodeChar
  dsimp only
  split
  · rename_i ascii
    exact decodes_one ascii
  · split
    · exact decodes_two (by omega) (by assumption)
    · split
      · exact decodes_three (by omega) (by assumption)
      · exact decodes_four (by omega)

theorem length_encodeChar (c : Char) :
    0 < (encodeChar c).length ∧ (encodeChar c).length ≤ 4 := by
  unfold encodeChar
  dsimp only
  split_ifs <;> exact ⟨by simp, by simp⟩

/-! ## A text that is cut -/

def encodeChars (letters : List Char) : List UInt8 := letters.flatMap encodeChar

/-- The characters whose bytes all stand before the cut. -/
def wholeChars : ℕ → List Char → List Char
  | _, [] => []
  | limit, c :: rest =>
      if (encodeChar c).length ≤ limit then
        c :: wholeChars (limit - (encodeChar c).length) rest
      else []

def leftover : ℕ → List Char → ℕ
  | _, [] => 0
  | limit, c :: rest =>
      if (encodeChar c).length ≤ limit then leftover (limit - (encodeChar c).length) rest
      else limit

theorem encodeChars_cons (c : Char) (rest : List Char) :
    encodeChars (c :: rest) = encodeChar c ++ encodeChars rest := List.flatMap_cons

theorem encodeChars_append (letters more : List Char) :
    encodeChars (letters ++ more) = encodeChars letters ++ encodeChars more :=
  List.flatMap_append

theorem decodeFrom_take (limit : ℕ) (letters : List Char) :
    decodeFrom none ((encodeChars letters).take limit) =
      wholeChars limit letters ++
        if leftover limit letters = 0 then [] else [replacementCharacter] := by
  induction letters generalizing limit with
  | nil => simp [encodeChars, wholeChars, leftover, decodeFrom]
  | cons c rest ih =>
      rw [encodeChars_cons, wholeChars, leftover]
      by_cases fits : (encodeChar c).length ≤ limit
      · rw [if_pos fits, if_pos fits, List.take_append, List.take_of_length_le fits,
          (decodes_encodeChar c).whole, ih, List.cons_append]
      · have short : limit ≤ (encodeChar c).length := Nat.le_of_not_le fits
        rw [if_neg fits, if_neg fits, List.take_append_of_le_length short, List.nil_append]
        by_cases empty : limit = 0
        · rw [if_pos empty, empty, List.take_zero, decodeFrom]
        · rw [if_neg empty]
          exact (decodes_encodeChar c).part limit (Nat.pos_of_ne_zero empty) (Nat.lt_of_not_le fits)

theorem wholeChars_of_fits {limit : ℕ} {letters : List Char}
    (fits : (encodeChars letters).length ≤ limit) :
    wholeChars limit letters = letters ∧ leftover limit letters = 0 := by
  induction letters generalizing limit with
  | nil => exact ⟨rfl, rfl⟩
  | cons c rest ih =>
      rw [encodeChars_cons, List.length_append] at fits
      have own : (encodeChar c).length ≤ limit := by omega
      have left : (encodeChars rest).length ≤ limit - (encodeChar c).length := by omega
      obtain ⟨whole, none⟩ := ih left
      rw [wholeChars, leftover, if_pos own, if_pos own, whole, none]
      exact ⟨rfl, rfl⟩

theorem length_wholeChars {limit : ℕ} {letters : List Char}
    (cut : limit < (encodeChars letters).length) :
    (encodeChars (wholeChars limit letters)).length + leftover limit letters = limit ∧
      leftover limit letters ≤ 3 := by
  induction letters generalizing limit with
  | nil => exact absurd cut (Nat.not_lt_zero limit)
  | cons c rest ih =>
      rw [encodeChars_cons, List.length_append] at cut
      rw [wholeChars, leftover]
      by_cases fits : (encodeChar c).length ≤ limit
      · have left : limit - (encodeChar c).length < (encodeChars rest).length := by omega
        obtain ⟨filled, few⟩ := ih left
        rw [if_pos fits, if_pos fits, encodeChars_cons, List.length_append]
        exact ⟨by omega, few⟩
      · have width := (length_encodeChar c).2
        rw [if_neg fits, if_neg fits]
        exact ⟨by simp [encodeChars], by omega⟩

/-- The cut goes through no character, or it leaves three bytes of one. -/
def CutsCleanly (limit : ℕ) (text : String) : Prop :=
  leftover limit text.toList = 0 ∨ leftover limit text.toList = 3

theorem toList_decode_slice (text : String) (limit : ℕ) :
    (decode (slice (encode text) limit)).toList =
      wholeChars limit text.toList ++
        if leftover limit text.toList = 0 then [] else [replacementCharacter] := by
  unfold decode slice encode
  rw [if_pos (Int.natCast_nonneg limit), Int.toNat_natCast, String.toList_ofList]
  exact decodeFrom_take limit text.toList

theorem decode_slice_of_fits {text : String} {limit : ℕ}
    (fits : (encode text).length ≤ limit) : decode (slice (encode text) limit) = text := by
  obtain ⟨whole, none⟩ := wholeChars_of_fits fits
  apply String.toList_injective
  rw [toList_decode_slice, whole, none, if_pos rfl, List.append_nil]

theorem decode_encode (text : String) : decode (encode text) = text := by
  have whole := decode_slice_of_fits (Nat.le_refl (encode text).length)
  unfold slice at whole
  rwa [if_pos (Int.natCast_nonneg _), Int.toNat_natCast, List.take_length] at whole

/-- What is decoded stays within the limit exactly when the cut is clean: a replacement is
three bytes long. -/
theorem length_encode_decode_slice_iff (text : String) (limit : ℕ) :
    (encode (decode (slice (encode text) limit))).length ≤ limit ↔ CutsCleanly limit text := by
  have encoded : encode (decode (slice (encode text) limit)) =
      encodeChars (wholeChars limit text.toList) ++
        encodeChars (if leftover limit text.toList = 0 then [] else [replacementCharacter]) := by
    rw [← encodeChars_append, ← toList_decode_slice]
    rfl
  have replaced : (encodeChars [replacementCharacter]).length = 3 := by decide
  have nothing : (encodeChars []).length = 0 := rfl
  unfold CutsCleanly
  by_cases fits : (encodeChars text.toList).length ≤ limit
  · have same : decode (slice (encode text) limit) = text := decode_slice_of_fits fits
    rw [same]
    exact iff_of_true fits (Or.inl (wholeChars_of_fits fits).2)
  · obtain ⟨filled, few⟩ := length_wholeChars (Nat.lt_of_not_le fits)
    rw [encoded, List.length_append]
    split
    · rw [nothing]
      omega
    · rw [replaced]
      omega

example : decode (slice (encode "aé€😀") 7) = "aé€\uFFFD" := by decide

end Utf8
