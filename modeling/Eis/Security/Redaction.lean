import Eis.Foundation.Text
import Eis.Foundation.Value

/-!
# Redaction of credential-bearing text

`RedactingProtector` substitutes the two secret patterns one after the other.
The matchers below follow the patterns, which never need to backtrack: white
space, separators and values have no character in common where they meet.
A value is a finite tree; how deep the interpreter lets `redact` recurse is left out.
-/

set_option autoImplicit false

namespace Eis.Security

open Text

/-- `[A-Za-z0-9._~+/=-]` without regard to case. -/
def isTokenCharacter (c : Char) : Bool :=
  (fold c).isLower || c.isDigit || "._~+/=-".toList.contains c

/-- `bearer\s+[A-Za-z0-9._~+/=-]+` -/
def bearerPattern (text : List Char) : Option (List Char) := do
  let gap ← literal "bearer".toList text
  let value ← many1 isSpace gap
  many1 isTokenCharacter value

/-- `api[_-]?key` -/
def apiKeyPattern (text : List Char) : Option (List Char) := do
  let rest ← literal "api".toList text
  literal "key".toList (optional (fun c => c = '_' || c = '-') rest)

/-- `(password|passwd|secret|token|api[_-]?key|authorization)` -/
def credentialName (text : List Char) : Option (List Char) :=
  literal "password".toList text <|> literal "passwd".toList text <|>
    literal "secret".toList text <|> literal "token".toList text <|>
    apiKeyPattern text <|> literal "authorization".toList text

/-- `\s*[:=]\s*[^,\s]+` behind a credential name. -/
def assignmentPattern (text : List Char) : Option (List Char) := do
  let name ← credentialName text
  match many isSpace name with
  | c :: value =>
      if c = ':' || c = '=' then
        many1 (fun c => c ≠ ',' && !isSpace c) (many isSpace value)
      else none
  | [] => none

theorem redacted_verbatim : '\\' ∉ "[REDACTED]".toList := by decide

/-- The replacement is a template of `re`; one without a backslash stands for
itself. -/
structure RedactingProtector where
  replacement : String := "[REDACTED]"
  verbatim : '\\' ∉ replacement.toList := by exact redacted_verbatim

namespace RedactingProtector

def redact (protector : RedactingProtector) (value : String) : String :=
  String.ofList
    (sub assignmentPattern protector.replacement.toList 0
      (sub bearerPattern protector.replacement.toList 0 value.toList))

def redactText (protector : RedactingProtector) : Option String → Option String
  | some value => some (protector.redact value)
  | none => none

example : ({} : RedactingProtector).redact "Api-Key = k9, use BEARER  a.b-c" =
    "[REDACTED], use [REDACTED]" := by decide +kernel

end RedactingProtector

/-! ## Structured values -/

def sensitiveKeys : List String :=
  ["password", "passwd", "secret", "token", "api_key", "api-key", "authorization"]

def isSensitiveKey (key : String) : Bool :=
  (sensitiveKeys.map fun item => replaceCharacter item '-' '_').contains
    (replaceCharacter (casefold key) '-' '_')

namespace RedactingProtector

mutual
def redactValue (protector : RedactingProtector) : Value → Value
  | .str text => .str (protector.redact text)
  | .dict items => .dict (protector.redactItems items)
  | .list items => .list (protector.redactList items)
  | .tuple items => .tuple (protector.redactList items)
  | value => value

def redactItems (protector : RedactingProtector) : List (String × Value) → List (String × Value)
  | [] => []
  | (key, item) :: rest =>
      (key, if isSensitiveKey key then .str protector.replacement
        else protector.redactValue item) :: protector.redactItems rest

def redactList (protector : RedactingProtector) : List Value → List Value
  | [] => []
  | item :: rest => protector.redactValue item :: protector.redactList rest
end

def redactDict (protector : RedactingProtector) (dict : Dict) : Dict :=
  dict.mapValues fun key item =>
    if isSensitiveKey key then .str protector.replacement else protector.redactValue item

example : ({} : RedactingProtector).redactItems [("Api-Key", .int 7), ("note", .str "token: x")] =
    [("Api-Key", .str "[REDACTED]"), ("note", .str "[REDACTED]")] := by
  simp [redactItems, redactValue, isSensitiveKey]
  decide +kernel

end RedactingProtector

end Eis.Security
