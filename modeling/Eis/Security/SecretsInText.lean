import Mathlib.Data.List.TakeWhile
import Eis.Security.SecretPatterns

/-!
# Secrets in a text

What `redact` leaves of a text depends on the value of an assignment in it where a
bearer credential gets in the way: one that begins in front of the keyword and
swallows it, so that the second pattern does not see the assignment, or one that begins
in the value itself and goes on behind it.
-/

set_option autoImplicit false

namespace Eis.Security

open Text

/-- What stands for a secret value: no comma and no white space. -/
structure SecretValue where
  text : String
  given : text ≠ ""
  plain : ∀ c ∈ text.toList, isValueCharacter c = true

/-- A text with an assignment to a credential, without its value: `rest` is empty or
begins with a comma or white space. -/
structure Slot where
  lead : String
  keyword : String
  separator : Char
  rest : String
  isKeyword : keyword ∈ credentialKeywords
  isSeparator : separator = ':' ∨ separator = '='
  ends : ∀ c ∈ rest.toList.head?, isValueCharacter c = false

namespace Slot

def assign (slot : Slot) (value : SecretValue) : String :=
  slot.lead ++ slot.keyword ++ slot.separator.toString ++ value.text ++ slot.rest

/-- No bearer credential begins in the value, which could then only go on behind it. -/
def Quiet (slot : Slot) (value : SecretValue) : Prop :=
  ∀ part, part <:+ value.text.toList → part ≠ [] →
    bearerPattern (part ++ slot.rest.toList) = none

def Independent (protector : RedactingProtector) (slot : Slot) : Prop :=
  ∀ value value' : SecretValue, slot.Quiet value → slot.Quiet value' →
    protector.redact (slot.assign value) = protector.redact (slot.assign value')

/-- A bearer credential that begins in the lead runs on over the keyword. -/
def Swallowed (slot : Slot) : Prop :=
  runsOn (reach bearerPattern slot.keyword.toList) 0 slot.lead.toList = true

def front (protector : RedactingProtector) (slot : Slot) : List Char :=
  rewritten (reach bearerPattern slot.keyword.toList) protector.replacement.toList 0
    slot.lead.toList

/-- An assignment that begins in the lead has a value that runs on up to the slot. -/
def Covered (protector : RedactingProtector) (slot : Slot) : Prop :=
  runsOn (reach assignmentPattern slot.keyword.toList) 0 (slot.front protector) = true

instance (slot : Slot) : Decidable slot.Swallowed := inferInstanceAs (Decidable (_ = true))

instance (protector : RedactingProtector) (slot : Slot) : Decidable (slot.Covered protector) :=
  inferInstanceAs (Decidable (_ = true))

variable {slot : Slot} {protector : RedactingProtector}

theorem keyword_mem (slot : Slot) : slot.keyword.toList ∈ credentialNames :=
  List.mem_map_of_mem slot.isKeyword

theorem toList_assign (slot : Slot) (value : SecretValue) :
    (slot.assign value).toList = slot.lead.toList ++
      (slot.keyword.toList ++ slot.separator :: (value.text.toList ++ slot.rest.toList)) := by
  simp [assign, String.toList_append]

theorem follows_keyword (slot : Slot) : Follows slot.keyword.toList :=
  ⟨slot.keyword.toList, [], (List.append_nil _).symm, slot.keyword_mem,
    fun _ empty => nomatch empty⟩

theorem follows (slot : Slot) (behind : List Char) :
    Follows (slot.keyword.toList ++ slot.separator :: behind) := by
  refine ⟨slot.keyword.toList, slot.separator :: behind, rfl, slot.keyword_mem, ?_⟩
  intro c first
  obtain rfl := Option.some.inj first
  exact slot.isSeparator

theorem keyword_characters (slot : Slot) : ∀ c ∈ slot.keyword.toList,
    isTokenCharacter c = true ∧ isValueCharacter c = true ∧ fold c ≠ 'b' := by
  intro c inside
  obtain ⟨token, value, _, _, _, first⟩ := name_characters _ slot.keyword_mem c inside
  exact ⟨token, value, first⟩

theorem separator_facts (slot : Slot) :
    isValueCharacter slot.separator = true ∧ fold slot.separator ≠ 'b' := by
  rcases slot.isSeparator with same | same <;> rw [same] <;> decide

theorem reads_keyword (slot : Slot) {pattern : List Char → Option (List Char)}
    {accepted : Char → Bool} {good : List Char → Prop} {part after : List Char}
    (accepts : ∀ c ∈ slot.keyword.toList, accepted c = true) (probe : good slot.keyword.toList)
    (reaches : ∃ found : Reach, ∀ after, good after →
      pattern (part ++ after) = found.behind after (after.dropWhile accepted))
    (goes : good after) :
    pattern (part ++ after) =
      (reach pattern slot.keyword.toList part).behind after (after.dropWhile accepted) := by
  obtain ⟨found, reads⟩ := reaches
  have probed := reads slot.keyword.toList probe
  rw [List.dropWhile_eq_nil_iff.mpr accepts] at probed
  rw [reads after goes, reach_eq (name_nonempty _ slot.keyword_mem) probed]

theorem dropWhile_rest {accepted : Char → Bool} {behind : List Char}
    (stops : ∀ c ∈ behind.head?, accepted c = false) (text : List Char) :
    (text ++ behind).dropWhile accepted = text.dropWhile accepted ++ behind := by
  rw [List.dropWhile_append]
  cases left : text.dropWhile accepted with
  | cons c others => rfl
  | nil =>
      cases behind with
      | nil => rfl
      | cons c others =>
          have stop : accepted c = false := stops c rfl
          simp [stop]

theorem dropWhile_whole {accepted : Char → Bool} {text behind : List Char}
    (inside : ∀ c ∈ text, accepted c = true) (stops : ∀ c ∈ behind.head?, accepted c = false) :
    (text ++ behind).dropWhile accepted = behind := by
  rw [dropWhile_rest stops, List.dropWhile_eq_nil_iff.mpr inside]
  rfl

theorem rest_not_token (slot : Slot) :
    ∀ c ∈ slot.rest.toList.head?, isTokenCharacter c = false := by
  intro c first
  apply Bool.of_not_eq_true
  intro token
  have value := value_of_token token
  rw [slot.ends c first] at value
  cases value

/-! ## The first pattern -/

theorem bearerPattern_cons {c : Char} (other : fold c ≠ 'b') (text : List Char) :
    bearerPattern (c :: text) = none := by
  have unspelled : literal "bearer".toList (c :: text) = none := if_neg other
  rw [bearerPattern_eq, unspelled]
  rfl

theorem Quiet.unmatched {value : SecretValue} (quiet : slot.Quiet value) {part : List Char}
    (inside : part <:+ slot.keyword.toList ++ slot.separator :: value.text.toList)
    (present : part ≠ []) : bearerPattern (part ++ slot.rest.toList) = none := by
  have begins : ∀ c ∈ slot.keyword.toList ++ [slot.separator], fold c ≠ 'b' := by
    intro c member
    rcases List.mem_append.mp member with letter | last
    · exact (slot.keyword_characters c letter).2.2
    · obtain rfl := List.mem_singleton.mp last
      exact slot.separator_facts.2
  obtain ⟨before, split⟩ := inside
  have regrouped : before ++ part =
      (slot.keyword.toList ++ [slot.separator]) ++ value.text.toList := by
    rw [split]
    simp
  rcases List.append_eq_append_iff.mp regrouped with ⟨more, front, rfl⟩ | ⟨less, _, inner⟩
  · cases more with
    | nil => exact quiet _ List.suffix_rfl present
    | cons c more => exact bearerPattern_cons (begins c (by rw [front]; simp)) _
  · exact quiet part ⟨less, inner.symm⟩ present

theorem head_redacted (slot : Slot) (replacement : List Char) :
    ∀ c ∈ (sub bearerPattern replacement 0 slot.rest.toList).head?,
      isValueCharacter c = false := by
  intro c first
  have ends := slot.ends
  cases begins : slot.rest.toList with
  | nil =>
      rw [begins] at first
      cases first
  | cons d others =>
      rw [begins] at ends first
      have stop : isValueCharacter d = false := ends d rfl
      have other : fold d ≠ 'b' := by
        intro same
        have token : isTokenCharacter d = true := token_of_fold (Or.inl (by rw [same]; decide))
        rw [value_of_token token] at stop
        cases stop
      rw [sub, bearerPattern_cons other] at first
      obtain rfl : d = c := Option.some.inj first
      exact stop

def tail (slot : Slot) (value : SecretValue) : List Char :=
  slot.keyword.toList ++ slot.separator :: value.text.toList

/-- What the first pattern leaves of it. -/
def remains (slot : Slot) (value : SecretValue) : List Char :=
  if slot.Swallowed then (slot.separator :: value.text.toList).dropWhile isTokenCharacter
  else slot.tail value

theorem remains_suffix (slot : Slot) (value : SecretValue) :
    slot.remains value <:+ slot.tail value := by
  unfold remains
  split
  · exact (List.dropWhile_suffix isTokenCharacter).trans (List.suffix_append _ _)
  · exact List.suffix_rfl

theorem first_pass {value : SecretValue} (protector : RedactingProtector)
    (quiet : slot.Quiet value) :
    sub bearerPattern protector.replacement.toList 0 (slot.assign value).toList =
      slot.front protector ++ (slot.remains value ++
        sub bearerPattern protector.replacement.toList 0 slot.rest.toList) := by
  have whole : (slot.assign value).toList =
      slot.lead.toList ++ (slot.tail value ++ slot.rest.toList) := by
    simp [toList_assign, tail]
  have goes : Follows (slot.tail value ++ slot.rest.toList) := by
    have follows := slot.follows (value.text.toList ++ slot.rest.toList)
    simpa [tail] using follows
  have reads : ∀ part, part <:+ slot.lead.toList → part ≠ [] →
      bearerPattern (part ++ (slot.tail value ++ slot.rest.toList)) =
        (reach bearerPattern slot.keyword.toList part).behind
          (slot.tail value ++ slot.rest.toList)
          ((slot.tail value ++ slot.rest.toList).dropWhile isTokenCharacter) := by
    intro part _ present
    exact slot.reads_keyword (fun c inside => (slot.keyword_characters c inside).1)
      slot.follows_keyword (bearer_reach present) goes
  have left : (if runsOn (reach bearerPattern slot.keyword.toList) 0 slot.lead.toList then
        (slot.tail value ++ slot.rest.toList).dropWhile isTokenCharacter
      else slot.tail value ++ slot.rest.toList) = slot.remains value ++ slot.rest.toList := by
    by_cases swallowed : slot.Swallowed
    · have runs : runsOn (reach bearerPattern slot.keyword.toList) 0 slot.lead.toList = true :=
        swallowed
      rw [if_pos runs, remains, if_pos swallowed, dropWhile_rest slot.rest_not_token, tail,
        List.dropWhile_append_of_pos fun c inside => (slot.keyword_characters c inside).1]
    · have ends : ¬ runsOn (reach bearerPattern slot.keyword.toList) 0 slot.lead.toList = true :=
        swallowed
      rw [if_neg ends, remains, if_neg swallowed]
  have unmatched : ∀ part, part <:+ slot.remains value → part ≠ [] →
      bearerPattern (part ++ slot.rest.toList) = none := by
    intro part inside present
    exact quiet.unmatched (inside.trans (slot.remains_suffix value)) present
  have rewrites := sub_append protector.replacement.toList
    (List.dropWhile_suffix isTokenCharacter) reads (Nat.zero_le slot.lead.toList.length)
  rw [whole, rewrites, left, sub_of_none unmatched]
  rfl

/-! ## The second pattern -/

theorem value_plain (slot : Slot) (value : SecretValue) :
    ∀ c ∈ slot.tail value, isValueCharacter c = true := by
  intro c inside
  rcases List.mem_append.mp inside with letter | behind
  · exact (slot.keyword_characters c letter).2.1
  rcases List.mem_cons.mp behind with rfl | secret
  · exact slot.separator_facts.1
  · exact value.plain c secret

theorem assignmentPattern_slot (slot : Slot) (value : SecretValue) {behind : List Char}
    (ends : ∀ c ∈ behind.head?, isValueCharacter c = false) :
    assignmentPattern (slot.tail value ++ behind) = some behind := by
  have read : credentialName (slot.tail value ++ behind) =
      some (slot.separator :: (value.text.toList ++ behind)) := by
    refine credentialName_eq_some_iff.mpr ⟨slot.keyword.toList, by simp [tail], ?_⟩
    rw [fold_name _ slot.keyword_mem]
    exact slot.keyword_mem
  have separated : (slot.separator = ':' || slot.separator = '=') = true := by
    simpa using slot.isSeparator
  have visible : many isSpace [slot.separator] = [slot.separator] := by
    rcases slot.isSeparator with same | same <;> rw [same] <;> decide
  rw [assignmentPattern_eq, read]
  refine (assignmentTail_append visible (value.text.toList ++ behind)).trans ?_
  rw [if_pos separated]
  cases spelled : value.text.toList with
  | nil => exact absurd (String.toList_eq_nil_iff.mp spelled) value.given
  | cons c others =>
      have plain : ∀ d ∈ c :: others, isValueCharacter d = true := spelled ▸ value.plain
      have shown : isSpace c = false := by
        have first := plain c List.mem_cons_self
        simp only [isValueCharacter, Bool.and_eq_true, Bool.not_eq_true'] at first
        exact first.2
      have passed : many isSpace (c :: others ++ behind) = c :: (others ++ behind) := by
        simp [many, shown]
      have stopped : (others ++ behind).dropWhile isValueCharacter = behind :=
        dropWhile_whole (fun d inside => plain d (List.mem_cons_of_mem c inside)) ends
      rw [List.nil_append, passed, many1, if_pos (plain c List.mem_cons_self), many, stopped]

theorem second_pass (slot : Slot) (protector : RedactingProtector) (value : SecretValue)
    {behind : List Char} (ends : ∀ c ∈ behind.head?, isValueCharacter c = false) :
    sub assignmentPattern protector.replacement.toList 0
        (slot.front protector ++ (slot.tail value ++ behind)) =
      rewritten (reach assignmentPattern slot.keyword.toList) protector.replacement.toList 0
          (slot.front protector) ++
        ((if slot.Covered protector then [] else protector.replacement.toList) ++
          sub assignmentPattern protector.replacement.toList 0 behind) := by
  have goes : Follows (slot.tail value ++ behind) := by
    have follows := slot.follows (value.text.toList ++ behind)
    simpa [tail] using follows
  have reads : ∀ part, part <:+ slot.front protector → part ≠ [] →
      assignmentPattern (part ++ (slot.tail value ++ behind)) =
        (reach assignmentPattern slot.keyword.toList part).behind (slot.tail value ++ behind)
          ((slot.tail value ++ behind).dropWhile isValueCharacter) := by
    intro part _ present
    exact slot.reads_keyword (fun c inside => (slot.keyword_characters c inside).2.1)
      slot.follows_keyword (assignment_reach present) goes
  have stopped : (slot.tail value ++ behind).dropWhile isValueCharacter = behind :=
    dropWhile_whole (slot.value_plain value) ends
  have matched := slot.assignmentPattern_slot value ends
  have rewrites := sub_append protector.replacement.toList
    (List.dropWhile_suffix isValueCharacter) reads (Nat.zero_le (slot.front protector).length)
  rw [rewrites, stopped]
  by_cases covered : slot.Covered protector
  · have runs : runsOn (reach assignmentPattern slot.keyword.toList) 0 (slot.front protector) =
      true := covered
    rw [if_pos runs, if_pos covered, List.nil_append]
  · have ends' : ¬ runsOn (reach assignmentPattern slot.keyword.toList) 0
      (slot.front protector) = true := covered
    rw [if_neg ends', if_neg covered]
    cases spelled : slot.tail value with
    | nil =>
        rw [tail] at spelled
        cases (List.append_eq_nil_iff.mp spelled).2
    | cons c others =>
        rw [spelled, List.cons_append] at matched
        rw [List.cons_append, sub_of_match matched (List.suffix_append others behind)]

/-! ## What becomes of the value -/

theorem toList_redact (protector : RedactingProtector) (text : String) :
    (protector.redact text).toList = sub assignmentPattern protector.replacement.toList 0
      (sub bearerPattern protector.replacement.toList 0 text.toList) := by
  simp [RedactingProtector.redact]

/-- As long as the first pattern leaves the keyword alone, the second one replaces the
assignment or a longer one around it. -/
theorem independent_of_kept (protector : RedactingProtector) (kept : ¬ slot.Swallowed) :
    slot.Independent protector := by
  have redacted : ∀ value, slot.Quiet value → (protector.redact (slot.assign value)).toList =
      rewritten (reach assignmentPattern slot.keyword.toList) protector.replacement.toList 0
          (slot.front protector) ++
        ((if slot.Covered protector then [] else protector.replacement.toList) ++
          sub assignmentPattern protector.replacement.toList 0
            (sub bearerPattern protector.replacement.toList 0 slot.rest.toList)) := by
    intro value quiet
    rw [toList_redact, first_pass protector quiet, remains, if_neg kept,
      slot.second_pass protector value (slot.head_redacted _)]
  intro value value' quiet quiet'
  apply String.toList_inj.mp
  rw [redacted value quiet, redacted value' quiet']

/-- The replacement ends with a character that no name, separator or gap ends with. -/
def Closed (protector : RedactingProtector) : Prop :=
  ∃ front last, protector.replacement.toList = front ++ [last] ∧ Shut last

example : Closed {} :=
  ⟨"[REDACTED".toList, ']', by decide, by decide⟩

theorem ends_with_last {front before replacement inner part : List Char} {last : Char}
    (split : before ++ replacement = front) (replaced : replacement = inner ++ [last])
    (inside : part <:+ front) (present : part ≠ []) : ∃ own, part = own ++ [last] := by
  obtain ⟨own, c, rfl⟩ := (List.eq_nil_or_concat part).resolve_left present
  obtain ⟨passed, whole⟩ := inside
  have same : (passed ++ own).concat c = (before ++ inner).concat last := by
    rw [← List.append_concat, whole, ← split, replaced]
    simp
  rw [(List.concat_inj.mp same).2]
  exact ⟨own, List.concat_eq_append⟩

theorem second_pass_swallowed (swallowed : slot.Swallowed) (closed : Closed protector)
    (after : List Char) :
    sub assignmentPattern protector.replacement.toList 0 (slot.front protector ++ after) =
      rewritten (reach assignmentPattern slot.keyword.toList) protector.replacement.toList 0
          (slot.front protector) ++
        sub assignmentPattern protector.replacement.toList 0
          (if runsOn (reach assignmentPattern slot.keyword.toList) 0 (slot.front protector) then
            after.dropWhile isValueCharacter else after) := by
  obtain ⟨inner, last, replaced, shut⟩ := closed
  obtain ⟨before, split⟩ : protector.replacement.toList <:+ slot.front protector :=
    replacement_suffix swallowed
  have reads : ∀ part, part <:+ slot.front protector → part ≠ [] →
      assignmentPattern (part ++ after) =
        (reach assignmentPattern slot.keyword.toList part).behind after
          (after.dropWhile isValueCharacter) := by
    intro part inside present
    obtain ⟨own, rfl⟩ := ends_with_last split replaced inside present
    have reaches : ∃ found : Reach, ∀ after, True →
        assignmentPattern (own ++ [last] ++ after) =
          found.behind after (after.dropWhile isValueCharacter) := by
      obtain ⟨found, reached⟩ := assignment_reach_of_shut own shut
      exact ⟨found, fun after _ => reached after⟩
    exact slot.reads_keyword (fun c inside => (slot.keyword_characters c inside).2.1) trivial
      reaches trivial
  exact sub_append protector.replacement.toList (List.dropWhile_suffix isValueCharacter) reads
    (Nat.zero_le (slot.front protector).length)

theorem independent_of_covered (swallowed : slot.Swallowed) (closed : Closed protector)
    (covered : slot.Covered protector) : slot.Independent protector := by
  have runs : runsOn (reach assignmentPattern slot.keyword.toList) 0 (slot.front protector) =
    true := covered
  have redacted : ∀ value, slot.Quiet value → (protector.redact (slot.assign value)).toList =
      rewritten (reach assignmentPattern slot.keyword.toList) protector.replacement.toList 0
          (slot.front protector) ++
        sub assignmentPattern protector.replacement.toList 0
          (sub bearerPattern protector.replacement.toList 0 slot.rest.toList) := by
    intro value quiet
    have plain : ∀ c ∈ slot.remains value, isValueCharacter c = true := by
      intro c inside
      exact slot.value_plain value c ((slot.remains_suffix value).subset inside)
    rw [toList_redact, first_pass protector quiet, second_pass_swallowed swallowed closed,
      if_pos runs, dropWhile_whole plain (slot.head_redacted _)]
  intro value value' quiet quiet'
  apply String.toList_inj.mp
  rw [redacted value quiet, redacted value' quiet']

/-! ### Values that show -/

def single (c : Char) (plain : isValueCharacter c = true) : SecretValue where
  text := c.toString
  given := by simp
  plain := by simpa using plain

theorem quiet_single (slot : Slot) {c : Char} (plain : isValueCharacter c = true)
    (other : fold c ≠ 'b') : slot.Quiet (single c plain) := by
  intro part inside present
  obtain ⟨d, others, rfl⟩ := List.exists_cons_of_ne_nil present
  have first : d ∈ [c] := by
    have spelled : (single c plain).text.toList = [c] := by simp [single]
    rw [← spelled]
    exact inside.subset List.mem_cons_self
  obtain rfl := List.mem_singleton.mp first
  exact bearerPattern_cons other _

theorem assignmentPattern_none {c : Char} (mark : c = ':' ∨ c = 'x') (text : List Char) :
    assignmentPattern (c :: text) = none := by
  have heads : ∀ name ∈ credentialNames,
      name.head? ≠ some (fold ':') ∧ name.head? ≠ some (fold 'x') := by decide
  rw [assignmentPattern_eq]
  cases read : credentialName (c :: text) with
  | none => rfl
  | some behind =>
      obtain ⟨word, split, member⟩ := credentialName_eq_some_iff.mp read
      cases word with
      | nil => exact absurd rfl (name_nonempty [] member)
      | cons d word =>
          obtain rfl := (List.cons.inj split).1
          obtain ⟨noColon, noLetter⟩ := heads _ member
          rcases mark with rfl | rfl
          · exact absurd rfl noColon
          · exact absurd rfl noLetter

theorem remains_single (swallowed : slot.Swallowed) :
    slot.remains (single 'x' (by decide)) ≠ slot.remains (single ':' (by decide)) ∧
      ∀ value ∈ [single 'x' (by decide), single ':' (by decide)],
        slot.remains value <:+ [':', 'x'] ∨ slot.remains value <:+ [':', ':'] := by
  have cut : ∀ value, slot.remains value =
      (slot.separator :: value.text.toList).dropWhile isTokenCharacter := fun _ => if_pos swallowed
  simp only [cut]
  rcases slot.isSeparator with same | same <;> rw [same] <;> decide

theorem not_independent (swallowed : slot.Swallowed) (closed : Closed protector)
    (uncovered : ¬ slot.Covered protector) : ¬ slot.Independent protector := by
  have ends : ¬ runsOn (reach assignmentPattern slot.keyword.toList) 0
    (slot.front protector) = true := uncovered
  obtain ⟨differ, marks⟩ := remains_single swallowed
  have redacted : ∀ value ∈ [single 'x' (by decide), single ':' (by decide)],
      slot.Quiet value → (protector.redact (slot.assign value)).toList =
        rewritten (reach assignmentPattern slot.keyword.toList) protector.replacement.toList 0
            (slot.front protector) ++
          (slot.remains value ++ sub assignmentPattern protector.replacement.toList 0
            (sub bearerPattern protector.replacement.toList 0 slot.rest.toList)) := by
    intro value listed quiet
    have unmatched : ∀ part, part <:+ slot.remains value → part ≠ [] →
        assignmentPattern (part ++
          sub bearerPattern protector.replacement.toList 0 slot.rest.toList) = none := by
      intro part inside present
      obtain ⟨c, others, rfl⟩ := List.exists_cons_of_ne_nil present
      have mark : c = ':' ∨ c = 'x' := by
        rcases marks value listed with letter | colon
        · simpa using (inside.trans letter).subset List.mem_cons_self
        · have twice := (inside.trans colon).subset List.mem_cons_self
          exact Or.inl (by simpa using twice)
      exact assignmentPattern_none mark _
    rw [toList_redact, first_pass protector quiet, second_pass_swallowed swallowed closed,
      if_neg ends, sub_of_none unmatched]
  have letter := slot.quiet_single (c := 'x') (by decide) (by decide)
  have colon := slot.quiet_single (c := ':') (by decide) (by decide)
  intro independent
  have same := congrArg String.toList (independent _ _ letter colon)
  rw [redacted _ (by simp) letter, redacted _ (by simp) colon] at same
  exact differ (List.append_cancel_right (List.append_cancel_left same))

/-- Over values in which no bearer credential begins: the redacted text does not depend
on the value if no bearer credential runs on from the lead over the keyword; under a
closed replacement it does not either if an assignment in the lead covers the slot, and
else it does. -/
theorem redact_independent_iff (protector : RedactingProtector) (slot : Slot) :
    (¬ slot.Swallowed → slot.Independent protector) ∧
      (Closed protector →
        (slot.Independent protector ↔ ¬ slot.Swallowed ∨ slot.Covered protector)) := by
  refine ⟨independent_of_kept protector, ?_⟩
  intro closed
  constructor
  · intro independent
    by_contra defect
    obtain ⟨swallowed, uncovered⟩ := not_or.mp defect
    exact not_independent (not_not.mp swallowed) closed uncovered independent
  · intro condition
    by_cases swallowed : slot.Swallowed
    · exact independent_of_covered swallowed closed (condition.resolve_left (not_not.mpr swallowed))
    · exact independent_of_kept protector swallowed

/-- A bearer credential begun in the lead takes the keyword for its token. -/
theorem secret_behind_bearer_shows :
    ¬ ∀ (slot : Slot) (value value' : SecretValue),
      ({} : RedactingProtector).redact (slot.assign value) =
        ({} : RedactingProtector).redact (slot.assign value') := by
  intro same
  let slot : Slot := ⟨"bearer ", "password", ':', "", by decide, Or.inl rfl, nofun⟩
  have shows : ({} : RedactingProtector).redact (slot.assign (single 'a' (by decide))) =
        "[REDACTED]:a" ∧
      ({} : RedactingProtector).redact (slot.assign (single 'b' (by decide))) =
        "[REDACTED]:b" := by decide +kernel
  have both := same slot (single 'a' (by decide)) (single 'b' (by decide))
  rw [shows.1, shows.2] at both
  exact absurd both (by decide)

-- a value in which a bearer credential begins takes what stands behind it along
example : ({} : RedactingProtector).redact "token=bearer abc" = "[REDACTED]" ∧
    ({} : RedactingProtector).redact "token=x abc" = "[REDACTED] abc" := by decide +kernel

end Slot

end Eis.Security
