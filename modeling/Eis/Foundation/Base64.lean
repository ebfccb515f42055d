import Mathlib.Data.List.Basic
import Mathlib.Data.Nat.Notation

/-!
# Base 64 as Python encodes and decodes it

`base64.b64encode` and `base64.b64decode` without `validate`.  The decoder passes over
characters that are not of the alphabet, so an encoded text may be broken into lines, and
it stops at the padding that completes a group of four.
-/

set_option autoImplicit false

namespace Base64

def value (c : Char) : Option ℕ :=
  if 65 ≤ c.toNat ∧ c.toNat ≤ 90 then some (c.toNat - 65)
  else if 97 ≤ c.toNat ∧ c.toNat ≤ 122 then some (c.toNat - 71)
  else if 48 ≤ c.toNat ∧ c.toNat ≤ 57 then some (c.toNat + 4)
  else if c.toNat = 43 then some 62
  else if c.toNat = 47 then some 63
  else none

def letter (place : ℕ) : Char :=
  Char.ofNat
    (if place < 26 then place + 65
    else if place < 52 then place + 71
    else if place < 62 then place - 4
    else if place = 62 then 43
    else 47)

/-- `quad` characters of a group of four have been read; `left` are the bits of the last
one that belong to the next byte, and `pads` counts the padding since then. -/
def decodeFrom : ℕ → ℕ → ℕ → List Char → Option (List UInt8)
  | quad, _, _, [] => if quad = 0 then some [] else none
  | quad, left, pads, c :: rest =>
      if c = '=' then
        if 2 ≤ quad then
          if 4 ≤ quad + (pads + 1) then some [] else decodeFrom quad left (pads + 1) rest
        else decodeFrom quad left pads rest
      else
        match value c with
        | none => decodeFrom quad left pads rest
        | some v =>
            match quad with
            | 0 => decodeFrom 1 v 0 rest
            | 1 => (decodeFrom 2 (v % 16) 0 rest).map (UInt8.ofNat (left * 4 + v / 16) :: ·)
            | 2 => (decodeFrom 3 (v % 4) 0 rest).map (UInt8.ofNat (left * 16 + v / 4) :: ·)
            | _ => (decodeFrom 0 0 0 rest).map (UInt8.ofNat (left * 64 + v) :: ·)

/-- `b64decode(text)`; nothing stands for a `ValueError`. -/
def decode (text : String) : Option (List UInt8) :=
  if text.toList.all fun c => decide (c.toNat < 128) then decodeFrom 0 0 0 text.toList else none

def encodeList : List UInt8 → List Char
  | [] => []
  | [a] => [letter (a.toNat / 4), letter (a.toNat % 4 * 16), '=', '=']
  | [a, b] =>
      [letter (a.toNat / 4), letter (a.toNat % 4 * 16 + b.toNat / 16),
        letter (b.toNat % 16 * 4), '=']
  | a :: b :: c :: rest =>
      letter (a.toNat / 4) :: letter (a.toNat % 4 * 16 + b.toNat / 16) ::
        letter (b.toNat % 16 * 4 + c.toNat / 64) :: letter (c.toNat % 64) :: encodeList rest

def encode (bytes : List UInt8) : String := String.ofList (encodeList bytes)

/-! ## The alphabet -/

theorem toNat_ofNat {n : ℕ} (small : n < 128) : (Char.ofNat n).toNat = n := by
  have valid : n.isValidChar := Or.inl (by omega)
  rw [Char.ofNat, dif_pos valid]
  rfl

theorem toNat_letter {place : ℕ} (small : place < 64) :
    (letter place).toNat =
      if place < 26 then place + 65
      else if place < 52 then place + 71
      else if place < 62 then place - 4
      else if place = 62 then 43
      else 47 := by
  unfold letter
  apply toNat_ofNat
  split_ifs <;> omega

theorem letter_ne_pad {place : ℕ} (small : place < 64) : letter place ≠ '=' := by
  intro same
  have code := toNat_letter small
  rw [same] at code
  have pad : ('=' : Char).toNat = 61 := rfl
  rw [pad] at code
  split_ifs at code <;> omega

theorem value_letter {place : ℕ} (small : place < 64) : value (letter place) = some place := by
  unfold value
  rw [toNat_letter small]
  grind

theorem decodeFrom_letter {place : ℕ} (small : place < 64) (quad left pads : ℕ)
    (rest : List Char) :
    decodeFrom quad left pads (letter place :: rest) =
      match quad with
      | 0 => decodeFrom 1 place 0 rest
      | 1 => (decodeFrom 2 (place % 16) 0 rest).map (UInt8.ofNat (left * 4 + place / 16) :: ·)
      | 2 => (decodeFrom 3 (place % 4) 0 rest).map (UInt8.ofNat (left * 16 + place / 4) :: ·)
      | _ => (decodeFrom 0 0 0 rest).map (UInt8.ofNat (left * 64 + place) :: ·) := by
  rw [decodeFrom.eq_def]
  simp only [if_neg (letter_ne_pad small), value_letter small]

/-! ## The round trip -/

theorem ofNat_joined (byte : UInt8) {n : ℕ} (same : n = byte.toNat) : UInt8.ofNat n = byte := by
  rw [same]
  exact UInt8.ofNat_toNat

theorem decodeFrom_encodeList (bytes : List UInt8) :
    decodeFrom 0 0 0 (encodeList bytes) = some bytes := by
  induction bytes using encodeList.induct with
  | case1 => rfl
  | case2 a =>
      have small := a.toNat_lt
      rw [encodeList, decodeFrom_letter (by omega), decodeFrom_letter (by omega)]
      have byte : UInt8.ofNat (a.toNat / 4 * 4 + a.toNat % 4 * 16 / 16) = a :=
        ofNat_joined a (by omega)
      simp only [byte]
      simp [decodeFrom]
  | case3 a b =>
      have small := a.toNat_lt
      have small' := b.toNat_lt
      rw [encodeList, decodeFrom_letter (by omega), decodeFrom_letter (by omega)]
      have byte : UInt8.ofNat (a.toNat / 4 * 4 + (a.toNat % 4 * 16 + b.toNat / 16) / 16) = a :=
        ofNat_joined a (by omega)
      have byte' : UInt8.ofNat
          ((a.toNat % 4 * 16 + b.toNat / 16) % 16 * 16 + b.toNat % 16 * 4 / 4) = b :=
        ofNat_joined b (by omega)
      simp only [decodeFrom_letter (show b.toNat % 16 * 4 < 64 by omega), byte, byte']
      simp [decodeFrom]
  | case4 a b c rest ih =>
      have small := a.toNat_lt
      have small' := b.toNat_lt
      have small'' := c.toNat_lt
      rw [encodeList, decodeFrom_letter (by omega), decodeFrom_letter (by omega)]
      have byte : UInt8.ofNat (a.toNat / 4 * 4 + (a.toNat % 4 * 16 + b.toNat / 16) / 16) = a :=
        ofNat_joined a (by omega)
      have byte' : UInt8.ofNat ((a.toNat % 4 * 16 + b.toNat / 16) % 16 * 16 +
          (b.toNat % 16 * 4 + c.toNat / 64) / 4) = b :=
        ofNat_joined b (by omega)
      have byte'' : UInt8.ofNat
          ((b.toNat % 16 * 4 + c.toNat / 64) % 4 * 64 + c.toNat % 64) = c :=
        ofNat_joined c (by omega)
      simp only [decodeFrom_letter (show b.toNat % 16 * 4 + c.toNat / 64 < 64 by omega),
        decodeFrom_letter (show c.toNat % 64 < 64 by omega), byte, byte', byte'', ih]
      rfl

def Significant (c : Char) : Prop := c = '=' ∨ value c ≠ none

instance (c : Char) : Decidable (Significant c) := inferInstanceAs (Decidable (_ ∨ _))

theorem decodeFrom_filter (text : List Char) (quad left pads : ℕ) :
    decodeFrom quad left pads text =
      decodeFrom quad left pads (text.filter fun c => decide (Significant c)) := by
  induction text generalizing quad left pads with
  | nil => rfl
  | cons c rest ih =>
      by_cases significant : Significant c
      · rw [List.filter_cons_of_pos (by simpa using significant)]
        simp only [decodeFrom]
        split
        · simp only [← ih]
        · split <;> simp only [← ih]
      · rw [List.filter_cons_of_neg (by simpa using significant), ← ih]
        unfold Significant at significant
        obtain ⟨data, skipped⟩ := not_or.mp significant
        rw [not_not] at skipped
        rw [decodeFrom.eq_def]
        simp only [if_neg data, skipped]

/-- The text is an encoding of the bytes, with other characters of ASCII in between. -/
structure Encodes (text : String) (bytes : List UInt8) : Prop where
  ascii : ∀ c ∈ text.toList, c.toNat < 128
  letters : (text.toList.filter fun c => decide (Significant c)) = encodeList bytes

theorem Encodes.decode {text : String} {bytes : List UInt8} (encodes : Encodes text bytes) :
    decode text = some bytes := by
  unfold Base64.decode
  rw [if_pos (by simpa using encodes.ascii), decodeFrom_filter, encodes.letters]
  exact decodeFrom_encodeList bytes

example : decode "aGVs\nbG8=\n" = some [104, 101, 108, 108, 111] := by decide

end Base64
