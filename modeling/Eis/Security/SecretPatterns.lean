import Mathlib.Data.Option.Basic
import Eis.Foundation.Substitution
import Eis.Security.Redaction

/-!
# Where the secret patterns match

A match of a secret pattern that begins in front of a credential keyword ends there,
or runs on over the keyword and the value behind it.  Which of the two depends on the
text in front alone.
-/

set_option autoImplicit false

namespace Eis.Security

open Text

/-- `[^,\s]` -/
def isValueCharacter (c : Char) : Bool := c ≠ ',' && !isSpace c

/-- The texts that the alternatives of `credentialName` stand for. -/
def credentialKeywords : List String :=
  ["password", "passwd", "secret", "token", "api_key", "api-key", "apikey", "authorization"]

def credentialNames : List (List Char) := credentialKeywords.map String.toList

/-! ## Literals and repetitions -/

theorem literal_eq_some_iff {name text behind : List Char} :
    literal name text = some behind ↔ ∃ word, text = word ++ behind ∧ word.map fold = name := by
  induction name generalizing text with
  | nil =>
      constructor
      · intro found
        exact ⟨[], Option.some.inj found, rfl⟩
      · intro ⟨word, split, empty⟩
        obtain rfl := List.map_eq_nil_iff.mp empty
        rw [split]
        rfl
  | cons p name ih =>
      cases text with
      | nil =>
          constructor
          · intro found
            cases found
          · intro ⟨word, split, same⟩
            obtain ⟨rfl, _⟩ := List.append_eq_nil_iff.mp split.symm
            cases same
      | cons c text =>
          rw [literal]
          by_cases first : fold c = p
          · rw [if_pos first, ih]
            constructor
            · intro ⟨word, split, same⟩
              exact ⟨c :: word, by rw [split, List.cons_append], by rw [List.map_cons, same, first]⟩
            · intro ⟨word, split, same⟩
              cases word with
              | nil => cases same
              | cons d word =>
                  obtain ⟨rfl, tail⟩ := List.cons.inj split
                  exact ⟨word, tail, (List.cons.inj same).2⟩
          · rw [if_neg first]
            constructor
            · intro found
              cases found
            · intro ⟨word, split, same⟩
              cases word with
              | nil => cases same
              | cons d word =>
                  obtain ⟨rfl, _⟩ := List.cons.inj split
                  exact absurd (List.cons.inj same).1 first

/-! ## Characters -/

def spaceCodes : List ℕ :=
  [9, 10, 11, 12, 13, 28, 29, 30, 31, 32, 0x85, 0xA0, 0x1680, 0x2000, 0x2001, 0x2002, 0x2003,
    0x2004, 0x2005, 0x2006, 0x2007, 0x2008, 0x2009, 0x200A, 0x2028, 0x2029, 0x202F, 0x205F, 0x3000]

theorem space_code {c : Char} (space : isSpace c = true) : c.toNat ∈ spaceCodes := by
  have within : ∀ low high : ℕ, low ≤ c.toNat ∧ c.toNat ≤ high →
      (∀ n ∈ List.range' low (high + 1 - low), n ∈ spaceCodes) → c.toNat ∈ spaceCodes := by
    intro low high bounds listed
    exact listed c.toNat (List.mem_range'_1.mpr (by omega))
  simp only [isSpace, Bool.or_eq_true, Bool.and_eq_true, decide_eq_true_eq] at space
  rcases space with ((((((((((bounds | bounds) | code) | code) | code) | bounds) | code) | code) |
    code) | code) | code)
  all_goals first
    | exact within _ _ bounds (by decide)
    | exact code ▸ (by decide)

theorem not_token_of_space {c : Char} (space : isSpace c = true) :
    isTokenCharacter c = false := by
  have checked : ∀ n ∈ spaceCodes, isTokenCharacter (Char.ofNat n) = false := by decide
  have code := checked c.toNat (space_code space)
  rwa [Char.ofNat_toNat] at code

theorem value_of_token {c : Char} (token : isTokenCharacter c = true) :
    isValueCharacter c = true := by
  unfold isValueCharacter
  have visible : isSpace c = false := by
    apply Bool.of_not_eq_true
    intro space
    rw [not_token_of_space space] at token
    cases token
  have other : c ≠ ',' := by
    rintro rfl
    exact absurd token (by decide)
  simp [visible, other]

theorem upper_code {c : Char} (upper : c.isUpper = true) : 65 ≤ c.toNat ∧ c.toNat ≤ 90 := by
  have bounds : 'A'.val ≤ c.val ∧ c.val ≤ 'Z'.val := of_decide_eq_true upper
  exact ⟨UInt32.le_iff_toNat_le.mp bounds.1, UInt32.le_iff_toNat_le.mp bounds.2⟩

theorem eq_of_fold_mark {c mark : Char} (marks : mark = '_' ∨ mark = '-')
    (same : fold c = mark) : c = mark := by
  have lowered : ∀ n < 26, (Char.ofNat (65 + n)).toLower ≠ '_' ∧
      (Char.ofNat (65 + n)).toLower ≠ '-' := by decide
  unfold fold at same
  split at same
  · rename_i upper
    obtain ⟨least, most⟩ := upper_code upper
    have code : Char.ofNat (65 + (c.toNat - 65)) = c := by
      rw [Nat.add_sub_cancel' least]
      exact Char.ofNat_toNat c
    have apart := lowered (c.toNat - 65) (by omega)
    rw [code, same] at apart
    exact (marks.elim apart.1 apart.2).elim
  · split at same
    · subst same
      exact absurd marks (by decide)
    split at same
    · subst same
      exact absurd marks (by decide)
    split at same
    · subst same
      exact absurd marks (by decide)
    · exact same

theorem token_of_fold {c : Char} (spelled : (fold c).isLower = true ∨ fold c = '_' ∨ fold c = '-') :
    isTokenCharacter c = true := by
  rcases spelled with lower | mark | mark
  · simp [isTokenCharacter, lower]
  · rw [eq_of_fold_mark (Or.inl rfl) mark]
    decide
  · rw [eq_of_fold_mark (Or.inr rfl) mark]
    decide

def Opens (accepted : Char → Bool) (text : List Char) : Prop :=
  ∃ c rest, text = c :: rest ∧ accepted c = true ∧ isSpace c = false

theorem run_reach_of_present (accepted : Char → Bool) {front : List Char}
    (present : many isSpace front ≠ []) :
    ∃ found : Reach, ∀ after, many1 accepted (many isSpace (front ++ after)) =
      found.behind after (after.dropWhile accepted) := by
  have passed : ∀ after, many isSpace (front ++ after) = many isSpace front ++ after := by
    intro after
    simp only [many] at present ⊢
    rw [List.dropWhile_append, if_neg (by simpa using present)]
  cases left : many isSpace front with
  | nil => exact absurd left present
  | cons c value =>
      by_cases first : accepted c = true
      · cases remains : value.dropWhile accepted with
        | nil =>
            refine ⟨.beyond, ?_⟩
            intro after
            rw [passed, left, List.cons_append, many1, if_pos first, many, List.dropWhile_append,
              remains]
            rfl
        | cons d others =>
            refine ⟨.within (d :: others), ?_⟩
            intro after
            rw [passed, left, List.cons_append, many1, if_pos first, many, List.dropWhile_append,
              remains]
            rfl
      · refine ⟨.nowhere, ?_⟩
        intro after
        rw [passed, left, List.cons_append, many1, if_neg first]
        rfl

theorem run_reach (accepted : Char → Bool) (front : List Char) :
    ∃ found : Reach, ∀ after, Opens accepted after →
      many1 accepted (many isSpace (front ++ after)) =
        found.behind after (after.dropWhile accepted) := by
  by_cases present : many isSpace front = []
  · refine ⟨.beyond, ?_⟩
    rintro after ⟨c, rest, rfl, member, visible⟩
    have blank : front.dropWhile isSpace = [] := present
    rw [many, List.dropWhile_append, blank]
    simp [visible, many1, member, many, Reach.behind]
  · obtain ⟨found, reads⟩ := run_reach_of_present accepted present
    exact ⟨found, fun after _ => reads after⟩

/-! ## What stands behind the front -/

def Follows (after : List Char) : Prop :=
  ∃ name rest, after = name ++ rest ∧ name ∈ credentialNames ∧
    ∀ c ∈ rest.head?, c = ':' ∨ c = '='

theorem fold_name : ∀ name ∈ credentialNames, name.map fold = name := by decide

theorem name_characters : ∀ name ∈ credentialNames, ∀ c ∈ name,
    isTokenCharacter c = true ∧ isValueCharacter c = true ∧ isSpace c = false ∧ c ≠ ':' ∧
      c ≠ '=' ∧ fold c ≠ 'b' := by
  have checked : credentialNames.all (fun name => name.all fun c =>
      isTokenCharacter c = true ∧ isValueCharacter c = true ∧ isSpace c = false ∧ c ≠ ':' ∧
        c ≠ '=' ∧ fold c ≠ 'b') = true := by decide
  intro name member c inside
  have letters := List.all_eq_true.mp checked name member
  exact of_decide_eq_true (List.all_eq_true.mp letters c inside)

theorem name_nonempty : ∀ name ∈ credentialNames, name ≠ [] := by decide

/-- No name ends with another one. -/
theorem name_final : ∀ name ∈ credentialNames, ∀ other ∈ credentialNames,
    other <:+ name → other = name := by decide

/-- No name begins with another one. -/
theorem name_initial : ∀ name ∈ credentialNames, ∀ other ∈ credentialNames,
    other <+: name → other = name := by decide

/-- No name goes on with the rest of the word `bearer`. -/
theorem name_bearer : ∀ name ∈ credentialNames, ∀ part ∈ "bearer".toList.tails,
    part ≠ [] → part ≠ "bearer".toList → ¬ part <+: name ∧ ¬ name <+: part := by decide

theorem name_separator : ∀ name ∈ credentialNames, ':' ∉ name ∧ '=' ∉ name := by decide

theorem Follows.opens {after : List Char} (follows : Follows after) :
    Opens isTokenCharacter after ∧ Opens isValueCharacter after := by
  obtain ⟨name, rest, rfl, member, _⟩ := follows
  cases name with
  | nil => exact absurd rfl (name_nonempty [] member)
  | cons c name =>
      obtain ⟨token, value, visible, _⟩ := name_characters (c :: name) member c List.mem_cons_self
      exact ⟨⟨c, name ++ rest, rfl, token, visible⟩, ⟨c, name ++ rest, rfl, value, visible⟩⟩

/-- A word that begins in the front and ends behind it. -/
theorem straddle {front after word behind : List Char} (split : front ++ after = word ++ behind) :
    (∃ left, front = word ++ left ∧ behind = left ++ after) ∨
      ∃ part, part ≠ [] ∧ word = front ++ part ∧ after = part ++ behind := by
  rcases List.append_eq_append_iff.mp split with ⟨part, rfl, rfl⟩ | ⟨left, rfl, rfl⟩
  · cases part with
    | nil => exact Or.inl ⟨[], by simp, rfl⟩
    | cons c part => exact Or.inr ⟨c :: part, List.cons_ne_nil c part, rfl, rfl⟩
  · exact Or.inl ⟨left, rfl, rfl⟩

/-! ## The bearer pattern -/

theorem bearer_straddle {front after word behind : List Char} (present : front ≠ [])
    (follows : Follows after) (split : front ++ after = word ++ behind)
    (spelled : word.map fold = "bearer".toList) :
    ∃ left, front = word ++ left ∧ behind = left ++ after := by
  rcases straddle split with inside | ⟨part, nonempty, rfl, whole⟩
  · exact inside
  obtain ⟨name, rest, rfl, member, _⟩ := follows
  rw [List.map_append] at spelled
  have tail : part.map fold ∈ "bearer".toList.tails :=
    (List.mem_tails _ _).mpr ⟨front.map fold, spelled⟩
  have shorter : part.map fold ≠ "bearer".toList := by
    intro same
    rw [same] at spelled
    have lengths := congrArg List.length spelled
    simp [present] at lengths
  obtain ⟨apart, apart'⟩ := name_bearer name member _ tail (by simpa using nonempty) shorter
  rw [← fold_name name member] at apart apart'
  have first : part <+: name ++ rest := ⟨behind, whole.symm⟩
  rcases List.prefix_or_prefix_of_prefix first (List.prefix_append name rest) with less | more
  · exact absurd (less.map fold) apart
  · exact absurd (more.map fold) apart'

theorem bearerPattern_eq (text : List Char) :
    bearerPattern text = (literal "bearer".toList text).bind fun gap =>
      (many1 isSpace gap).bind fun value => many1 isTokenCharacter value := rfl

theorem bearer_reach {front : List Char} (present : front ≠ []) :
    ∃ found : Reach, ∀ after, Follows after →
      bearerPattern (front ++ after) =
        found.behind after (after.dropWhile isTokenCharacter) := by
  cases spelled : literal "bearer".toList front with
  | none =>
      refine ⟨.nowhere, ?_⟩
      intro after follows
      have unspelled : literal "bearer".toList (front ++ after) = none := by
        cases found : literal "bearer".toList (front ++ after) with
        | none => rfl
        | some behind =>
            obtain ⟨word, split, same⟩ := literal_eq_some_iff.mp found
            obtain ⟨left, inside, _⟩ := bearer_straddle present follows split same
            rw [literal_eq_some_iff.mpr ⟨word, inside, same⟩] at spelled
            cases spelled
      rw [bearerPattern_eq, unspelled]
      rfl
  | some gap =>
      obtain ⟨word, rfl, same⟩ := literal_eq_some_iff.mp spelled
      have read : ∀ after,
          literal "bearer".toList (word ++ gap ++ after) = some (gap ++ after) := by
        intro after
        exact literal_eq_some_iff.mpr ⟨word, List.append_assoc word gap after, same⟩
      cases gap with
      | nil =>
          refine ⟨.nowhere, ?_⟩
          intro after follows
          obtain ⟨c, rest, rfl, _, visible⟩ := follows.opens.1
          rw [bearerPattern_eq, read]
          simp [many1, visible, Reach.behind]
      | cons c gap =>
          by_cases blank : isSpace c = true
          · obtain ⟨found, reads⟩ := run_reach isTokenCharacter gap
            refine ⟨found, ?_⟩
            intro after follows
            rw [bearerPattern_eq, read, ← reads after follows.opens.1]
            simp [many1, blank]
          · refine ⟨.nowhere, ?_⟩
            intro after follows
            rw [bearerPattern_eq, read]
            simp [many1, blank, Reach.behind]

/-! ## The assignment pattern -/

theorem literal_append (name other text : List Char) :
    literal (name ++ other) text = (literal name text).bind (literal other) := by
  induction name generalizing text with
  | nil => rfl
  | cons p name ih =>
      cases text with
      | nil => rfl
      | cons c text =>
          rw [List.cons_append, literal, literal]
          by_cases first : fold c = p
          · rw [if_pos first, if_pos first]
            exact ih text
          · rw [if_neg first, if_neg first]
            rfl

theorem optional_key (rest behind : List Char) :
    literal "key".toList (optional (fun c => c = '_' || c = '-') rest) = some behind ↔
      literal "_key".toList rest = some behind ∨ literal "-key".toList rest = some behind ∨
        literal "key".toList rest = some behind := by
  cases rest with
  | nil => simp [Text.optional, literal]
  | cons c rest =>
      have marked : ∀ mark, literal (mark :: "key".toList) (c :: rest) =
          if fold c = mark then literal "key".toList rest else none := fun mark => rfl
      have underscore : literal "_key".toList (c :: rest) =
          if fold c = '_' then literal "key".toList rest else none := marked '_'
      have hyphen : literal "-key".toList (c :: rest) =
          if fold c = '-' then literal "key".toList rest else none := marked '-'
      have unmarked : (c = '_' ∨ c = '-') → literal "key".toList (c :: rest) = none := by
        rintro (rfl | rfl) <;> rfl
      rw [underscore, hyphen]
      by_cases under : c = '_'
      · subst under
        have other : ¬ fold '_' = '-' := by decide
        rw [unmarked (Or.inl rfl), if_neg other, if_pos (by decide)]
        simp [Text.optional]
      · by_cases dash : c = '-'
        · subst dash
          have other : ¬ fold '-' = '_' := by decide
          rw [unmarked (Or.inr rfl), if_neg other, if_pos (by decide)]
          simp [Text.optional]
        · rw [if_neg (mt (eq_of_fold_mark (Or.inl rfl)) under),
            if_neg (mt (eq_of_fold_mark (Or.inr rfl)) dash)]
          simp [Text.optional, under, dash]

theorem apiKeyPattern_eq_some_iff {text behind : List Char} :
    apiKeyPattern text = some behind ↔ ∃ name ∈ ["api_key", "api-key", "apikey"],
      literal name.toList text = some behind := by
  have spelled : ∀ name ∈ ["api_key", "api-key", "apikey"], literal name.toList text =
      (literal "api".toList text).bind (literal (name.toList.drop 3)) := by
    intro name member
    have begins : "api".toList ++ name.toList.drop 3 = name.toList := by
      revert name
      decide
    rw [← literal_append, begins]
  have alternatives : apiKeyPattern text = some behind ↔
      (literal "api".toList text).bind (literal "_key".toList) = some behind ∨
        (literal "api".toList text).bind (literal "-key".toList) = some behind ∨
          (literal "api".toList text).bind (literal "key".toList) = some behind := by
    unfold apiKeyPattern
    cases literal "api".toList text with
    | none =>
        refine iff_of_false (fun found => nomatch found) ?_
        rintro (found | found | found) <;> exact nomatch found
    | some rest => exact optional_key rest behind
  rw [alternatives]
  constructor
  · rintro (found | found | found)
    · exact ⟨"api_key", by decide, (spelled "api_key" (by decide)).trans found⟩
    · exact ⟨"api-key", by decide, (spelled "api-key" (by decide)).trans found⟩
    · exact ⟨"apikey", by decide, (spelled "apikey" (by decide)).trans found⟩
  · intro ⟨name, member, found⟩
    rw [spelled name member] at found
    simp only [List.mem_cons, List.not_mem_nil, or_false] at member
    rcases member with rfl | rfl | rfl
    · exact Or.inl found
    · exact Or.inr (Or.inl found)
    · exact Or.inr (Or.inr found)

theorem credentialName_sound {text behind : List Char}
    (found : credentialName text = some behind) :
    ∃ name ∈ credentialNames, literal name text = some behind := by
  simp only [credentialName, Option.orElse_eq_some] at found
  have listed : ∀ keyword ∈ credentialKeywords, literal keyword.toList text = some behind →
      ∃ name ∈ credentialNames, literal name text = some behind := by
    intro keyword member spelled
    exact ⟨keyword.toList, List.mem_map_of_mem member, spelled⟩
  rcases found with word | ⟨_, word | ⟨_, word | ⟨_, word | ⟨_, word | ⟨_, word⟩⟩⟩⟩⟩
  · exact listed "password" (by decide) word
  · exact listed "passwd" (by decide) word
  · exact listed "secret" (by decide) word
  · exact listed "token" (by decide) word
  · obtain ⟨keyword, member, spelled⟩ := apiKeyPattern_eq_some_iff.mp word
    have kept : ∀ keyword ∈ ["api_key", "api-key", "apikey"], keyword ∈ credentialKeywords := by
      decide
    exact listed keyword (kept keyword member) spelled
  · exact listed "authorization" (by decide) word

theorem credentialName_present {text behind : List Char} {name : List Char}
    (member : name ∈ credentialNames) (found : literal name text = some behind) :
    credentialName text ≠ none := by
  intro absent
  simp only [credentialName, Option.orElse_eq_none] at absent
  obtain ⟨password, passwd, secret, token, apiKey, authorization⟩ := absent
  have noApiKey : ∀ keyword ∈ ["api_key", "api-key", "apikey"],
      literal keyword.toList text = some behind → False := by
    intro keyword listed spelled
    rw [apiKeyPattern_eq_some_iff.mpr ⟨keyword, listed, spelled⟩] at apiKey
    cases apiKey
  simp only [credentialNames, credentialKeywords, List.map_cons, List.map_nil, List.mem_cons,
    List.not_mem_nil, or_false] at member
  rcases member with rfl | rfl | rfl | rfl | rfl | rfl | rfl | rfl
  · exact nomatch password.symm.trans found
  · exact nomatch passwd.symm.trans found
  · exact nomatch secret.symm.trans found
  · exact nomatch token.symm.trans found
  · exact noApiKey "api_key" (by decide) found
  · exact noApiKey "api-key" (by decide) found
  · exact noApiKey "apikey" (by decide) found
  · exact nomatch authorization.symm.trans found

theorem credentialName_eq_some_iff {text behind : List Char} :
    credentialName text = some behind ↔
      ∃ word, text = word ++ behind ∧ word.map fold ∈ credentialNames := by
  constructor
  · intro found
    obtain ⟨name, member, spelled⟩ := credentialName_sound found
    obtain ⟨word, split, same⟩ := literal_eq_some_iff.mp spelled
    exact ⟨word, split, same ▸ member⟩
  · intro ⟨word, split, member⟩
    have present := credentialName_present member (literal_eq_some_iff.mpr ⟨word, split, rfl⟩)
    obtain ⟨other, found⟩ := Option.ne_none_iff_exists'.mp present
    obtain ⟨name, listed, spelled⟩ := credentialName_sound found
    obtain ⟨word', split', same'⟩ := literal_eq_some_iff.mp spelled
    -- no name begins with another one, so the two words are the same
    have prefixes : word.map fold = name := by
      have first : word <+: text := ⟨behind, split.symm⟩
      have second : word' <+: text := ⟨other, split'.symm⟩
      rcases List.prefix_or_prefix_of_prefix first second with less | more
      · exact name_initial name listed _ member (same' ▸ less.map fold)
      · exact (name_initial _ member name listed (same' ▸ more.map fold)).symm
    have lengths : word.length = word'.length := by
      rw [← List.length_map fold, prefixes, ← same', List.length_map]
    have both : word ++ behind = word' ++ other := split.symm.trans split'
    obtain ⟨_, rfl⟩ := List.append_inj both lengths
    exact found

/-- `\s*[:=]\s*[^,\s]+` -/
def assignmentTail (name : List Char) : Option (List Char) :=
  match many isSpace name with
  | c :: value =>
      if c = ':' || c = '=' then many1 isValueCharacter (many isSpace value) else none
  | [] => none

theorem assignmentPattern_eq (text : List Char) :
    assignmentPattern text = (credentialName text).bind assignmentTail := rfl

theorem assignmentTail_append {name value : List Char} {c : Char}
    (visible : many isSpace name = c :: value) (after : List Char) :
    assignmentTail (name ++ after) =
      if c = ':' || c = '=' then many1 isValueCharacter (many isSpace (value ++ after))
      else none := by
  have passed : many isSpace (name ++ after) = c :: (value ++ after) := by
    simp only [many] at visible ⊢
    rw [List.dropWhile_append, visible]
    rfl
  unfold assignmentTail
  rw [passed]

theorem tail_reach (name : List Char) :
    ∃ found : Reach, ∀ after, Follows after →
      assignmentTail (name ++ after) = found.behind after (after.dropWhile isValueCharacter) := by
  cases visible : many isSpace name with
  | nil =>
      refine ⟨.nowhere, ?_⟩
      rintro after ⟨word, rest, rfl, member, _⟩
      cases word with
      | nil => exact absurd rfl (name_nonempty [] member)
      | cons c word =>
          obtain ⟨_, _, shown, colon, equals, _⟩ :=
            name_characters (c :: word) member c List.mem_cons_self
          have passed : many isSpace (name ++ (c :: word ++ rest)) = c :: (word ++ rest) := by
            simp only [many] at visible ⊢
            rw [List.dropWhile_append, visible]
            simp [shown]
          unfold assignmentTail
          rw [passed]
          simp [colon, equals, Reach.behind]
  | cons c value =>
      by_cases separates : (c = ':' || c = '=') = true
      · obtain ⟨found, reads⟩ := run_reach isValueCharacter value
        refine ⟨found, ?_⟩
        intro after follows
        rw [assignmentTail_append visible, if_pos separates]
        exact reads after follows.opens.2
      · refine ⟨.nowhere, ?_⟩
        intro after follows
        rw [assignmentTail_append visible, if_neg separates]
        rfl

theorem name_straddle {front after word behind : List Char} (present : front ≠ [])
    (follows : Follows after) (split : front ++ after = word ++ behind)
    (member : word.map fold ∈ credentialNames) :
    (∃ left, front = word ++ left ∧ behind = left ++ after) ∨ assignmentTail behind = none := by
  rcases straddle split with inside | ⟨part, nonempty, rfl, whole⟩
  · exact Or.inl inside
  obtain ⟨name, rest, rfl, listed, separated⟩ := follows
  rw [List.map_append] at member
  have first : part <+: name ++ rest := ⟨behind, whole.symm⟩
  rcases List.prefix_or_prefix_of_prefix first (List.prefix_append name rest) with less | more
  · obtain ⟨remains, rfl⟩ := less
    obtain rfl : remains ++ rest = behind := by
      rw [List.append_assoc] at whole
      exact List.append_cancel_left whole
    cases remains with
    | nil =>
        -- the whole keyword would end another one
        rw [List.append_nil] at listed
        have same := name_final _ member part listed
          ⟨front.map fold, by rw [fold_name part listed]⟩
        have lengths := congrArg List.length same
        simp only [List.length_append, List.length_map] at lengths
        have positive := List.length_pos_iff.mpr present
        omega
    | cons c remains =>
        obtain ⟨_, _, shown, colon, equals, _⟩ :=
          name_characters _ listed c (List.mem_append_right part List.mem_cons_self)
        refine Or.inr ?_
        simp [assignmentTail, many, shown, colon, equals]
  · -- the word would contain a separator
    obtain ⟨others, rfl⟩ := more
    cases others with
    | nil =>
        rw [List.append_nil] at member
        have same := name_final _ member name listed
          ⟨front.map fold, by rw [fold_name name listed]⟩
        have lengths := congrArg List.length same
        simp only [List.length_append, List.length_map] at lengths
        have positive := List.length_pos_iff.mpr present
        omega
    | cons c others =>
        rw [List.append_assoc] at whole
        have remains := List.append_cancel_left whole
        have separator := separated c (by rw [remains]; rfl)
        obtain ⟨noColon, noEquals⟩ := name_separator _ member
        have inside : fold c ∈ front.map fold ++ (name ++ c :: others).map fold := by simp
        rcases separator with rfl | rfl
        · exact absurd inside noColon
        · exact absurd inside noEquals

theorem assignment_reach {front : List Char} (present : front ≠ []) :
    ∃ found : Reach, ∀ after, Follows after →
      assignmentPattern (front ++ after) =
        found.behind after (after.dropWhile isValueCharacter) := by
  by_cases named : ∃ word name, front = word ++ name ∧ word.map fold ∈ credentialNames
  · obtain ⟨word, name, rfl, member⟩ := named
    obtain ⟨found, reads⟩ := tail_reach name
    refine ⟨found, ?_⟩
    intro after follows
    have read : credentialName (word ++ name ++ after) = some (name ++ after) :=
      credentialName_eq_some_iff.mpr ⟨word, List.append_assoc word name after, member⟩
    rw [assignmentPattern_eq, read]
    exact reads after follows
  · refine ⟨.nowhere, ?_⟩
    intro after follows
    rw [assignmentPattern_eq]
    cases read : credentialName (front ++ after) with
    | none => rfl
    | some behind =>
        obtain ⟨word, split, member⟩ := credentialName_eq_some_iff.mp read
        rcases name_straddle present follows split member with ⟨left, inside, _⟩ | unassigned
        · exact absurd ⟨word, left, inside, member⟩ named
        · exact unassigned

/-! ## Behind a character that no name, separator or gap ends with -/

def Shut (c : Char) : Prop :=
  isTokenCharacter c = false ∧ isSpace c = false ∧ c ≠ ':'

instance (c : Char) : Decidable (Shut c) := inferInstanceAs (Decidable (_ ∧ _))

theorem Shut.not_mem_name {c : Char} (shut : Shut c) {word : List Char}
    (member : word.map fold ∈ credentialNames) : c ∉ word := by
  intro inside
  have checked : credentialNames.all (fun name => name.all fun d =>
      d.isLower = true ∨ d = '_' ∨ d = '-') = true := by decide
  have letters := List.all_eq_true.mp (List.all_eq_true.mp checked _ member)
  have token := token_of_fold
    (of_decide_eq_true (letters (fold c) (List.mem_map_of_mem inside)))
  rw [shut.1] at token
  cases token

theorem tail_reach_of_shut (name : List Char) {c : Char} (shut : Shut c) :
    ∃ found : Reach, ∀ after, assignmentTail (name ++ [c] ++ after) =
      found.behind after (after.dropWhile isValueCharacter) := by
  have shown : ∀ front : List Char, ∃ d value, many isSpace (front ++ [c]) = d :: value ∧
      (d = c ∨ ∃ inner, value = inner ++ [c]) := by
    intro front
    simp only [many]
    rw [List.dropWhile_append]
    cases left : front.dropWhile isSpace with
    | nil => exact ⟨c, [], by simp [shut.2.1], Or.inl rfl⟩
    | cons d inner => exact ⟨d, inner ++ [c], by simp, Or.inr ⟨inner, rfl⟩⟩
  obtain ⟨d, value, visible, last⟩ := shown name
  by_cases separates : (d = ':' || d = '=') = true
  · have other : d ≠ c := by
      rintro rfl
      have equals : d ≠ '=' := by
        rintro rfl
        exact absurd shut.1 (by decide)
      simp [shut.2.2, equals] at separates
    obtain ⟨inner, rfl⟩ := last.resolve_left other
    have present : many isSpace (inner ++ [c]) ≠ [] := by
      obtain ⟨first, rest, begins, _⟩ := shown inner
      rw [begins]
      exact List.cons_ne_nil first rest
    obtain ⟨found, reads⟩ := run_reach_of_present isValueCharacter present
    refine ⟨found, ?_⟩
    intro after
    rw [assignmentTail_append visible, if_pos separates]
    exact reads after
  · refine ⟨.nowhere, ?_⟩
    intro after
    rw [assignmentTail_append visible, if_neg separates]
    rfl

theorem assignment_reach_of_shut (front : List Char) {c : Char} (shut : Shut c) :
    ∃ found : Reach, ∀ after, assignmentPattern (front ++ [c] ++ after) =
      found.behind after (after.dropWhile isValueCharacter) := by
  by_cases named : ∃ word name, front = word ++ name ∧ word.map fold ∈ credentialNames
  · obtain ⟨word, name, rfl, member⟩ := named
    obtain ⟨found, reads⟩ := tail_reach_of_shut name shut
    refine ⟨found, ?_⟩
    intro after
    have read : credentialName (word ++ name ++ [c] ++ after) = some (name ++ [c] ++ after) :=
      credentialName_eq_some_iff.mpr ⟨word, by simp, member⟩
    rw [assignmentPattern_eq, read]
    exact reads after
  · refine ⟨.nowhere, ?_⟩
    intro after
    rw [assignmentPattern_eq]
    cases read : credentialName (front ++ [c] ++ after) with
    | none => rfl
    | some behind =>
        obtain ⟨word, split, member⟩ := credentialName_eq_some_iff.mp read
        rw [List.append_assoc] at split
        rcases straddle split with ⟨left, inside, _⟩ | ⟨part, nonempty, rfl, whole⟩
        · exact absurd ⟨word, left, inside, member⟩ named
        · cases part with
          | nil => exact absurd rfl nonempty
          | cons d part =>
              obtain rfl : c = d := (List.cons.inj whole).1
              exact absurd (by simp) (shut.not_mem_name member)

end Eis.Security
