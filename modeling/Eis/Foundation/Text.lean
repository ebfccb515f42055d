import Mathlib.Data.List.Infix

/-!
# Text as Python's `str` and `re` see it

White space, `strip`, and what the substitution of a pattern needs: a matcher
takes the text from some position on and answers with what is left of it
behind the match.  Letters are compared as `re.IGNORECASE` compares them.
-/

set_option autoImplicit false

namespace Text

/-- `str.isspace` of one character, which is also the `\s` of a pattern. -/
def isSpace (c : Char) : Bool :=
  (9 ≤ c.toNat && c.toNat ≤ 13) || (28 ≤ c.toNat && c.toNat ≤ 32) || c.toNat = 0x85 ||
    c.toNat = 0xA0 || c.toNat = 0x1680 || (0x2000 ≤ c.toNat && c.toNat ≤ 0x200A) ||
    c.toNat = 0x2028 || c.toNat = 0x2029 || c.toNat = 0x202F || c.toNat = 0x205F ||
    c.toNat = 0x3000

def strip (text : String) : String :=
  String.ofList ((text.toList.dropWhile isSpace).reverse.dropWhile isSpace).reverse

/-- `str.casefold` as far as it leads to ASCII letters; other letters stay what
they are. -/
def casefold (text : String) : String :=
  String.ofList (text.toList.flatMap fun c =>
    if c.isUpper then [c.toLower]
    else if c.toNat = 0xDF ∨ c.toNat = 0x1E9E then ['s', 's']
    else if c.toNat = 0x130 then ['i', Char.ofNat 0x307]
    else if c.toNat = 0x149 then [Char.ofNat 0x2BC, 'n']
    else if c.toNat = 0x17F then ['s']
    else if c.toNat = 0x1F0 then ['j', Char.ofNat 0x30C]
    else if c.toNat = 0x1E96 then ['h', Char.ofNat 0x331]
    else if c.toNat = 0x1E97 then ['t', Char.ofNat 0x308]
    else if c.toNat = 0x1E98 then ['w', Char.ofNat 0x30A]
    else if c.toNat = 0x1E99 then ['y', Char.ofNat 0x30A]
    else if c.toNat = 0x1E9A then ['a', Char.ofNat 0x2BE]
    else if c.toNat = 0x212A then ['k']
    else if c.toNat = 0xFB00 then ['f', 'f']
    else if c.toNat = 0xFB01 then ['f', 'i']
    else if c.toNat = 0xFB02 then ['f', 'l']
    else if c.toNat = 0xFB03 then ['f', 'f', 'i']
    else if c.toNat = 0xFB04 then ['f', 'f', 'l']
    else if c.toNat = 0xFB05 ∨ c.toNat = 0xFB06 then ['s', 't']
    else [c])

/-- `str.lower` as far as it leads to ASCII letters; other letters stay what they
are. -/
def lower (text : String) : String :=
  String.ofList (text.toList.flatMap fun c =>
    if c.isUpper then [c.toLower]
    else if c.toNat = 0x130 then ['i', Char.ofNat 0x307]
    else if c.toNat = 0x212A then ['k']
    else [c])

/-- `str.upper` as far as it leads to ASCII letters alone; other letters stay what they
are. -/
def upper (text : String) : String :=
  String.ofList (text.toList.flatMap fun c =>
    if c.isLower then [c.toUpper]
    else if c.toNat = 0xDF then ['S', 'S']
    else if c.toNat = 0x131 then ['I']
    else if c.toNat = 0x17F then ['S']
    else if c.toNat = 0xFB00 then ['F', 'F']
    else if c.toNat = 0xFB01 then ['F', 'I']
    else if c.toNat = 0xFB02 then ['F', 'L']
    else if c.toNat = 0xFB03 then ['F', 'F', 'I']
    else if c.toNat = 0xFB04 then ['F', 'F', 'L']
    else if c.toNat = 0xFB05 ∨ c.toNat = 0xFB06 then ['S', 'T']
    else [c])

def includes (text part : String) : Bool :=
  decide (part.toList <:+: text.toList)

def orElse (text default : String) : String :=
  if text = "" then default else text

/-- `text.replace(old, new)` for single characters. -/
def replaceCharacter (text : String) (old new : Char) : String :=
  String.ofList (text.toList.map fun c => if c = old then new else c)

def expandCharacter (text : String) (old : Char) (new : String) : String :=
  String.ofList (text.toList.flatMap fun c => if c = old then new.toList else [c])

/-- The characters at which `str.splitlines` breaks a text. -/
def isLineBreak (c : Char) : Bool :=
  (10 ≤ c.toNat && c.toNat ≤ 13) || (28 ≤ c.toNat && c.toNat ≤ 30) || c.toNat = 0x85 ||
    c.toNat = 0x2028 || c.toNat = 0x2029

/-- `text.splitlines()[0]`; nothing stands for an `IndexError`. -/
def firstLine (text : String) : Option String :=
  if text = "" then none
  else some (String.ofList (text.toList.takeWhile fun c => !isLineBreak c))

/-- `text.split(separator, 1)`; nothing stands for a single part. -/
def splitOnce (text : String) (separator : Char) : Option (String × String) :=
  match text.toList.dropWhile fun c => decide (c ≠ separator) with
  | [] => none
  | _ :: rest =>
      some (String.ofList (text.toList.takeWhile fun c => decide (c ≠ separator)),
        String.ofList rest)

theorem splitOnce_joined {text left right : String} {separator : Char}
    (parted : splitOnce text separator = some (left, right)) :
    left ++ String.singleton separator ++ right = text := by
  unfold splitOnce at parted
  have whole := List.takeWhile_append_dropWhile
    (p := fun c => decide (c ≠ separator)) (l := text.toList)
  split at parted
  · cases parted
  · rename_i head rest dropped
    obtain ⟨rfl, rfl⟩ := Prod.mk.inj (Option.some.inj parted)
    have first : head = separator := by
      have stops := List.head?_dropWhile_not (fun c => decide (c ≠ separator)) text.toList
      rw [dropped] at stops
      simpa using stops
    subst first
    rw [dropped] at whole
    apply String.toList_injective
    simpa using whole

def split (text : String) (separator : Char) : List String :=
  (text.toList.splitOn separator).map String.ofList

/-! ## Matching without regard to case -/

/-- The lower case letter that a pattern compares `c` with: `İ`, `ı`, `ſ` and
the Kelvin sign fold to ASCII letters too. -/
def fold (c : Char) : Char :=
  if c.isUpper then c.toLower
  else if c.toNat = 0x130 ∨ c.toNat = 0x131 then 'i'
  else if c.toNat = 0x17F then 's'
  else if c.toNat = 0x212A then 'k'
  else c

def literal : List Char → List Char → Option (List Char)
  | [], text => some text
  | _ :: _, [] => none
  | p :: pattern, c :: text => if fold c = p then literal pattern text else none

def many (accepted : Char → Bool) (text : List Char) : List Char :=
  text.dropWhile accepted

def many1 (accepted : Char → Bool) : List Char → Option (List Char)
  | [] => none
  | c :: text => if accepted c then some (many accepted text) else none

def optional (accepted : Char → Bool) : List Char → List Char
  | [] => []
  | c :: text => if accepted c then text else c :: text

/-- `pattern.sub`: the matches are replaced from left to right; `skip` counts
the characters of the last match that are still to be passed over. -/
def sub (pattern : List Char → Option (List Char)) (replacement : List Char) :
    Nat → List Char → List Char
  | _, [] => []
  | skip + 1, _ :: text => sub pattern replacement skip text
  | 0, c :: text =>
      match pattern (c :: text) with
      | some behind => replacement ++
          sub pattern replacement (text.length - behind.length) text
      | none => c :: sub pattern replacement 0 text

end Text
