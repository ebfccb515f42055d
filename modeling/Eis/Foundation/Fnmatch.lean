import Mathlib.Data.List.Infix

/-!
# Shell patterns

`fnmatch(name, pattern)` on a POSIX system: `*` matches everything, `?` any
single character, `[seq]` any character in `seq` and `[!seq]` any character not
in `seq`.  A `[` that is never closed stands for itself.
-/

set_option autoImplicit false

namespace Fnmatch

inductive Token where
  | star
  | any
  | one (accepted : List (Char × Char)) (negated : Bool)
deriving DecidableEq

/-- The characters and ranges between the brackets; `]` may stand first. -/
def ranges : List Char → List (Char × Char)
  | low :: '-' :: high :: rest => (low, high) :: ranges rest
  | c :: rest => (c, c) :: ranges rest
  | [] => []

/-- Splits behind the bracket that closes a set, whose first character is
part of it. -/
def closing : List Char → Option (List Char × List Char)
  | [] => none
  | first :: rest =>
      match rest.span (· ≠ ']') with
      | (inside, _ :: behind) => some (first :: inside, behind)
      | (_, []) => none

/-- One token from the front of a pattern, and the number of characters it
takes beyond the first. -/
def token (c : Char) (rest : List Char) : Token × Nat :=
  if c = '*' then (Token.star, 0)
  else if c = '?' then (Token.any, 0)
  else if c = '[' then
    match rest with
    | '!' :: set =>
        match closing set with
        | some (inside, _) => (Token.one (ranges inside) true, inside.length + 2)
        | none => (Token.one [('[', '[')] false, 0)
    | set =>
        match closing set with
        | some (inside, _) => (Token.one (ranges inside) false, inside.length + 1)
        | none => (Token.one [('[', '[')] false, 0)
  else (Token.one [(c, c)] false, 0)

def tokens : Nat → List Char → List Token
  | _, [] => []
  | skip + 1, _ :: rest => tokens skip rest
  | 0, c :: rest => (token c rest).1 :: tokens (token c rest).2 rest

def accepts (accepted : List (Char × Char)) (negated : Bool) (c : Char) : Bool :=
  (accepted.any fun range => range.1 ≤ c && c ≤ range.2) != negated

def matchTokens : List Token → List Char → Bool
  | [], name => name.isEmpty
  | .star :: rest, name => name.tails.any (matchTokens rest)
  | .any :: rest, _ :: name => matchTokens rest name
  | .one accepted negated :: rest, c :: name =>
      accepts accepted negated c && matchTokens rest name
  | _ :: _, [] => false

end Fnmatch

def fnmatch (name pattern : String) : Bool :=
  Fnmatch.matchTokens (Fnmatch.tokens 0 pattern.toList) name.toList

theorem fnmatch_star (name : String) : fnmatch name "*" = true := by
  have tokens : Fnmatch.tokens 0 "*".toList = [.star] := by decide
  unfold fnmatch
  rw [tokens, Fnmatch.matchTokens, List.any_eq_true]
  exact ⟨[], (List.mem_tails _ _).mpr List.nil_suffix, rfl⟩

namespace Fnmatch

example : fnmatch "file-7.txt" "file-[0-9].t?t" = true := by decide +kernel
example : fnmatch "a[]b" "a[]b" = true := by decide +kernel
example : fnmatch "a]" "a[!]]" = false := by decide +kernel

end Fnmatch
