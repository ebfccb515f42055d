import Eis.Tools.Execution

/-!
# How far the output is capped

`_cap_output` cuts bytes and decodes what is left with replacements, so a character that
the cut goes through may become longer than its part.
-/

set_option autoImplicit false

namespace Eis.Tools

/-- A text within the limit, and the same text where that is within it already. -/
structure TextCapped (limit : ℤ) (text capped : String) : Prop where
  short : (Utf8.encode capped).length ≤ limit
  unchanged : (Utf8.encode text).length ≤ limit → capped = text

namespace SecureExecutor

variable (executor : SecureExecutor)

structure OutputCapped (result : ToolResult) : Prop where
  stdout : TextCapped executor.limits.maxOutputBytes result.stdout
    (executor.capOutput result).stdout
  stderr : TextCapped executor.limits.maxOutputBytes result.stderr
    (executor.capOutput result).stderr
  output : ∀ text, result.output = .str text → ∃ capped,
    (executor.capOutput result).output = .str capped ∧
      TextCapped executor.limits.maxOutputBytes text capped

/-- No text is cut within a character, but for a last byte of four. -/
structure CutsCleanly (result : ToolResult) : Prop where
  stdout : Utf8.CutsCleanly executor.limits.maxOutputBytes.toNat result.stdout
  stderr : Utf8.CutsCleanly executor.limits.maxOutputBytes.toNat result.stderr
  output : ∀ text, result.output = .str text →
    Utf8.CutsCleanly executor.limits.maxOutputBytes.toNat text

variable {executor}

theorem capText_capped_iff (nonnegative : 0 ≤ executor.limits.maxOutputBytes) (text : String) :
    TextCapped executor.limits.maxOutputBytes text (executor.capText text) ↔
      Utf8.CutsCleanly executor.limits.maxOutputBytes.toNat text := by
  unfold capText
  obtain ⟨limit, same⟩ := Int.eq_ofNat_of_zero_le nonnegative
  rw [same, Int.toNat_natCast]
  constructor
  · intro capped
    exact (Utf8.length_encode_decode_slice_iff text limit).mp (Int.ofNat_le.mp capped.short)
  · intro clean
    refine { short := ?short, unchanged := ?unchanged }
    case short =>
      exact Int.ofNat_le.mpr ((Utf8.length_encode_decode_slice_iff text limit).mpr clean)
    case unchanged =>
      intro fits
      exact Utf8.decode_slice_of_fits (Int.ofNat_le.mp fits)

/-- For every result and every limit that is not negative: the texts stay within the limit
exactly when they are cut cleanly. -/
theorem output_capped_iff (nonnegative : 0 ≤ executor.limits.maxOutputBytes)
    (result : ToolResult) : executor.OutputCapped result ↔ executor.CutsCleanly result := by
  have each := capText_capped_iff nonnegative
  constructor
  · intro capped
    refine { stdout := ?stdout, stderr := ?stderr, output := ?output }
    case stdout => exact (each result.stdout).mp capped.stdout
    case stderr => exact (each result.stderr).mp capped.stderr
    case output =>
      intro text given
      obtain ⟨after, same, short⟩ := capped.output text given
      have own : (executor.capOutput result).output = .str (executor.capText text) := by
        unfold capOutput
        rw [given]
      obtain rfl := Value.str.inj (own.symm.trans same)
      exact (each text).mp short
  · intro clean
    refine { stdout := ?stdout, stderr := ?stderr, output := ?output }
    case stdout => exact (each result.stdout).mpr clean.stdout
    case stderr => exact (each result.stderr).mpr clean.stderr
    case output =>
      intro text given
      refine ⟨executor.capText text, ?_, (each text).mpr (clean.output text given)⟩
      unfold capOutput
      rw [given]

end SecureExecutor

/-! ### A replacement that is longer than what is cut -/

def twoBytes : SecureExecutor where
  tools := fun _ => none
  limits := { maxOutputBytes := 2 }

def accented : ToolResult where
  status := .success
  stdout := "aé"

theorem output_capped_iff_accented :
    twoBytes.OutputCapped accented ↔ twoBytes.CutsCleanly accented :=
  SecureExecutor.output_capped_iff (by decide) accented

/-- Three bytes are cut to two, and come out as four. -/
theorem replacement_exceeds_limit :
    (twoBytes.capOutput accented).stdout = "a\uFFFD" ∧
      (Utf8.encode (twoBytes.capOutput accented).stdout).length = 4 ∧
      ¬ twoBytes.OutputCapped accented := by
  have long : (Utf8.encode (twoBytes.capOutput accented).stdout).length = 4 := by decide
  refine ⟨by decide, long, ?_⟩
  intro capped
  have short := capped.stdout.short
  rw [long] at short
  exact absurd short (by decide)

end Eis.Tools
