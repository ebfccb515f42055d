import Eis.Foundation.Text

/-!
# Substitution in two parts of a text

The matches of a pattern are replaced from left to right, so the front of a text is
rewritten on its own as far as its matches do not depend on what comes behind: a match
that begins in the front ends there, or runs on, always up to the same place.
-/

set_option autoImplicit false

namespace Text

variable {pattern : List Char → Option (List Char)} {replacement : List Char}

theorem sub_skip (skip : ℕ) (text : List Char) :
    sub pattern replacement skip text = sub pattern replacement 0 (text.drop skip) := by
  induction text generalizing skip with
  | nil => simp [sub]
  | cons c text ih =>
      cases skip with
      | zero => rfl
      | succ skip =>
          rw [sub, List.drop_succ_cons]
          exact ih skip

theorem sub_of_match {c : Char} {text behind : List Char}
    (matched : pattern (c :: text) = some behind) (ends : behind <:+ text) :
    sub pattern replacement 0 (c :: text) =
      replacement ++ sub pattern replacement 0 behind := by
  have left : text.drop (text.length - behind.length) = behind :=
    (List.suffix_iff_eq_drop.mp ends).symm
  rw [sub, matched]
  simp only
  rw [sub_skip, left]

theorem sub_of_none {front behind : List Char}
    (unmatched : ∀ part, part <:+ front → part ≠ [] → pattern (part ++ behind) = none) :
    sub pattern replacement 0 (front ++ behind) =
      front ++ sub pattern replacement 0 behind := by
  induction front with
  | nil => rfl
  | cons c front ih =>
      have here : pattern (c :: (front ++ behind)) = none :=
        unmatched (c :: front) List.suffix_rfl (List.cons_ne_nil c front)
      have later := ih fun part inside => unmatched part (inside.trans (List.suffix_cons c front))
      rw [List.cons_append, sub, here]
      simp only
      rw [later, List.cons_append]

/-! ## Matches that begin in the front -/

/-- Where a match that begins at the first character of a text ends: in the text with
`left` behind it, or beyond its end. -/
inductive Reach where
  | nowhere
  | within (left : List Char)
  | beyond
deriving DecidableEq

/-- What is behind the match when the text goes on with `after`, and `rest` is what a
match that runs on leaves of that. -/
def Reach.behind (reach : Reach) (after rest : List Char) : Option (List Char) :=
  match reach with
  | .nowhere => none
  | .within left => some (left ++ after)
  | .beyond => some rest

def reach (pattern : List Char → Option (List Char)) (probe text : List Char) : Reach :=
  match pattern (text ++ probe) with
  | none => .nowhere
  | some behind =>
      if probe.length ≤ behind.length then
        .within (behind.take (behind.length - probe.length))
      else .beyond

theorem reach_eq {probe text : List Char} (present : probe ≠ []) {found : Reach}
    (behind : pattern (text ++ probe) = found.behind probe []) :
    reach pattern probe text = found := by
  unfold reach
  rw [behind]
  cases found with
  | nowhere => rfl
  | within left => simp [Reach.behind]
  | beyond =>
      have positive := List.length_pos_iff.mpr present
      simp [Reach.behind, present]

section Front
variable (reaches : List Char → Reach)

def rewritten (replacement : List Char) : ℕ → List Char → List Char
  | _, [] => []
  | skip + 1, _ :: text => rewritten replacement skip text
  | 0, c :: text =>
      match reaches (c :: text) with
      | .nowhere => c :: rewritten replacement 0 text
      | .within left => replacement ++ rewritten replacement (text.length - left.length) text
      | .beyond => replacement

def runsOn : ℕ → List Char → Bool
  | _, [] => false
  | skip + 1, _ :: text => runsOn skip text
  | 0, c :: text =>
      match reaches (c :: text) with
      | .nowhere => runsOn 0 text
      | .within left => runsOn (text.length - left.length) text
      | .beyond => true

variable {reaches}

/-- The front is rewritten on its own, and the substitution goes on behind it or behind
the match that runs on. -/
theorem sub_append (replacement : List Char) {after rest : List Char} (ends : rest <:+ after)
    {front : List Char} (reads : ∀ part, part <:+ front → part ≠ [] →
      pattern (part ++ after) = (reaches part).behind after rest)
    {skip : ℕ} (inside : skip ≤ front.length) :
    sub pattern replacement skip (front ++ after) =
      rewritten reaches replacement skip front ++
        sub pattern replacement 0 (if runsOn reaches skip front then rest else after) := by
  induction front generalizing skip with
  | nil =>
      obtain rfl : skip = 0 := Nat.le_zero.mp inside
      rfl
  | cons c front ih =>
      have later := fun (skip : ℕ) (inside : skip ≤ front.length) =>
        ih (fun part suffix => reads part (suffix.trans (List.suffix_cons c front))) inside
      cases skip with
      | succ skip => exact later skip (Nat.le_of_succ_le_succ inside)
      | zero =>
          have here : pattern (c :: (front ++ after)) =
              (reaches (c :: front)).behind after rest :=
            reads (c :: front) List.suffix_rfl (List.cons_ne_nil c front)
          cases found : reaches (c :: front) with
          | nowhere =>
              rw [found] at here
              rw [List.cons_append, sub, here]
              simp only [rewritten, runsOn, found, Reach.behind]
              rw [later 0 (Nat.zero_le _), List.cons_append]
          | within left =>
              rw [found] at here
              have counted : (front ++ after).length - (left ++ after).length =
                  front.length - left.length := by
                simp only [List.length_append]
                omega
              rw [List.cons_append, sub, here]
              simp only [rewritten, runsOn, found, Reach.behind]
              rw [counted, later _ (Nat.sub_le _ _), List.append_assoc]
          | beyond =>
              rw [found] at here
              rw [List.cons_append,
                sub_of_match here (ends.trans (List.suffix_append front after))]
              simp [rewritten, runsOn, found]

theorem replacement_suffix {skip : ℕ} {front : List Char}
    (runs : runsOn reaches skip front = true) :
    replacement <:+ rewritten reaches replacement skip front := by
  induction front generalizing skip with
  | nil => cases runs
  | cons c front ih =>
      cases skip with
      | succ skip => exact ih runs
      | zero =>
          unfold runsOn at runs
          unfold rewritten
          cases found : reaches (c :: front) with
          | nowhere =>
              rw [found] at runs
              exact (ih runs).trans (List.suffix_cons c _)
          | within left =>
              rw [found] at runs
              exact (ih runs).trans (List.suffix_append replacement _)
          | beyond => exact List.suffix_rfl

end Front

end Text
