import Mathlib.Data.List.Basic

/-!
# A text format for metrics

One sample a line: a name, its labels in braces, a blank and a number.  A label's value
stands in quotes, with an escape for the backslash, the quote and the end of a line.
Empty lines and comments are no samples, and a line that cannot be read spoils the text.

How a writer encodes the characters of a value is a parameter: what it writes is read
back exactly when no code breaks the line.
-/

set_option autoImplicit false

universe u

namespace MetricText

structure Sample (ν : Type u) where
  name : String
  labels : List (String × String)
  value : ν

/-! ## Reading -/

def isNameStart (c : Char) : Bool := c.isAlpha || c == '_' || c == ':'

def isNamePart (c : Char) : Bool := isNameStart c || c.isDigit

def isLabelStart (c : Char) : Bool := c.isAlpha || c == '_'

def isLabelPart (c : Char) : Bool := isLabelStart c || c.isDigit

def readName (start part : Char → Bool) : List Char → Option (List Char × List Char)
  | [] => none
  | c :: rest =>
      if start c then some (c :: rest.takeWhile part, rest.dropWhile part) else none

/-- The value in front of its closing quote, and what follows the quote. -/
def readValue : List Char → Option (List Char × List Char)
  | [] => none
  | '"' :: rest => some ([], rest)
  | '\\' :: escaped :: rest =>
      match escaped with
      | '\\' => (readValue rest).map fun read => ('\\' :: read.1, read.2)
      | '"' => (readValue rest).map fun read => ('"' :: read.1, read.2)
      | 'n' => (readValue rest).map fun read => ('\n' :: read.1, read.2)
      | _ => none
  | c :: rest => (readValue rest).map fun read => (c :: read.1, read.2)

/-- The labels in front of the closing brace, at most `bound` of them. -/
def readLabels : ℕ → List Char → Option (List (String × String) × List Char)
  | 0, _ => none
  | bound + 1, text =>
      match readName isLabelStart isLabelPart text with
      | some (label, '=' :: '"' :: rest) =>
          match readValue rest with
          | some (value, ',' :: rest) =>
              (readLabels bound rest).map fun read =>
                ((String.ofList label, String.ofList value) :: read.1, read.2)
          | some (value, '}' :: rest) => some ([(String.ofList label, String.ofList value)], rest)
          | _ => none
      | _ => none

section Parse
variable {ν : Type u} (number : String → Option ν)

def readSample (line : List Char) : Option (Sample ν) :=
  match readName isNameStart isNamePart line with
  | some (name, '{' :: rest) =>
      match readLabels rest.length rest with
      | some (labels, ' ' :: rest) =>
          (number (String.ofList rest)).map fun value =>
            { name := String.ofList name, labels := labels, value := value }
      | _ => none
  | some (name, ' ' :: rest) =>
      (number (String.ofList rest)).map fun value =>
        { name := String.ofList name, labels := [], value := value }
  | _ => none

def isSample : List Char → Bool
  | [] => false
  | c :: _ => c != '#'

def parse (text : String) : Option (List (Sample ν)) :=
  ((text.toList.splitOn '\n').filter isSample).mapM (readSample number)

end Parse

/-! ## Writing -/

def validName (start part : Char → Bool) (name : String) : Bool :=
  match name.toList with
  | [] => false
  | c :: rest => start c && rest.all part

structure Sample.Valid {ν : Type u} (sample : Sample ν) : Prop where
  name : validName isNameStart isNamePart sample.name = true
  labels : ∀ label ∈ sample.labels, validName isLabelStart isLabelPart label.1 = true

/-- A code for the characters of a value.  The reader reads it, and where it breaks the
line it writes the end of a line as it is. -/
structure Encoder where
  encode : Char → List Char
  reads : ∀ c rest, readValue (encode c ++ rest) =
    (readValue rest).map fun read => (c :: read.1, read.2)
  breaks : ∀ c, '\n' ∈ encode c → encode c = ['\n']

structure NumberFormat (ν : Type u) where
  write : ν → String
  read : String → Option ν
  read_write : ∀ value, read (write value) = some value
  oneLine : ∀ value, '\n' ∉ (write value).toList

namespace Encoder

variable (encoder : Encoder)

def value (value : String) : List Char := value.toList.flatMap encoder.encode

def label (label : String × String) : List Char :=
  label.1.toList ++ '=' :: '"' :: (encoder.value label.2 ++ ['"'])

def labels (labels : List (String × String)) : List Char :=
  [','].intercalate (labels.map encoder.label)

def sample {ν : Type u} (format : NumberFormat ν) (sample : Sample ν) : List Char :=
  sample.name.toList ++
    (if sample.labels = [] then [] else '{' :: (encoder.labels sample.labels ++ ['}'])) ++
      ' ' :: (format.write sample.value).toList

def text {ν : Type u} (format : NumberFormat ν) (samples : List (Sample ν)) : String :=
  String.ofList (samples.flatMap fun sample => encoder.sample format sample ++ ['\n'])

end Encoder

/-! ## Names -/

section Names
variable {start part : Char → Bool} {name : String}

theorem letters_of_validName (valid : validName start part name = true) :
    ∃ first others, name.toList = first :: others ∧ start first = true ∧
      ∀ c ∈ others, part c = true := by
  unfold validName at valid
  split at valid
  · cases valid
  · rename_i first others letters
    obtain ⟨starts, parts⟩ := Bool.and_eq_true_iff.mp valid
    exact ⟨first, others, letters, starts, List.all_eq_true.mp parts⟩

theorem readName_append (valid : validName start part name = true) {delimiter : Char}
    (stops : part delimiter = false) (rest : List Char) :
    readName start part (name.toList ++ delimiter :: rest) =
      some (name.toList, delimiter :: rest) := by
  obtain ⟨first, others, letters, starts, parts⟩ := letters_of_validName valid
  rw [letters]
  simp only [List.cons_append, readName, starts, if_true]
  rw [List.takeWhile_append_of_pos parts, List.dropWhile_append_of_pos parts]
  simp [stops]

theorem not_mem_of_validName (valid : validName start part name = true) {c : Char}
    (starts : start c = false) (parts : part c = false) : c ∉ name.toList := by
  obtain ⟨first, others, letters, started, all⟩ := letters_of_validName valid
  rw [letters]
  intro member
  rcases List.mem_cons.mp member with rfl | later
  · exact absurd started (by simp [starts])
  · exact absurd (all c later) (by simp [parts])

theorem validName_append (valid : validName start part name = true) {more : String}
    (parts : more.toList.all part = true) : validName start part (name ++ more) = true := by
  obtain ⟨first, others, letters, starts, all⟩ := letters_of_validName valid
  unfold validName
  rw [String.toList_append, letters]
  simp only [List.cons_append, starts, List.all_append, List.all_eq_true.mpr all, parts,
    Bool.and_self]

theorem label_oneLine (valid : validName isLabelStart isLabelPart name = true) :
    '\n' ∉ name.toList :=
  not_mem_of_validName valid (by decide) (by decide)

theorem Sample.Valid.name_oneLine {ν : Type u} {sample : Sample ν} (valid : sample.Valid) :
    '\n' ∉ sample.name.toList :=
  not_mem_of_validName valid.name (by decide) (by decide)

end Names

/-! ## Values and labels -/

def firstLine (text : List Char) : List Char := text.takeWhile fun c => c != '\n'

theorem firstLine_append {unbroken : List Char} (oneLine : '\n' ∉ unbroken) (rest : List Char) :
    firstLine (unbroken ++ rest) = unbroken ++ firstLine rest := by
  refine List.takeWhile_append_of_pos ?_
  intro c member
  rw [bne_iff_ne]
  rintro rfl
  exact oneLine member

theorem splitOn_firstLine {text : List Char} (broken : '\n' ∈ text) :
    ∃ later, text.splitOn '\n' = firstLine text :: later := by
  obtain ⟨line, later, rfl, whole⟩ := List.eq_append_cons_of_mem broken
  refine ⟨later.splitOn '\n', ?_⟩
  rw [List.splitOn_append_cons_self_of_not_mem whole, firstLine_append whole]
  simp [firstLine]

namespace Encoder

variable {encoder : Encoder}

theorem readValue_flatMap (letters rest : List Char) :
    readValue (letters.flatMap encoder.encode ++ rest) =
      (readValue rest).map fun read => (letters ++ read.1, read.2) := by
  induction letters with
  | nil => simp
  | cons c letters ih =>
      rw [List.flatMap_cons, List.append_assoc, encoder.reads, ih, Option.map_map]
      rfl

theorem readValue_value (value : String) (rest : List Char) :
    readValue (encoder.value value ++ '"' :: rest) = some (value.toList, rest) := by
  unfold Encoder.value
  rw [readValue_flatMap]
  simp [readValue]

theorem readValue_firstLine {letters : List Char}
    (broken : '\n' ∈ letters.flatMap encoder.encode) (rest : List Char) :
    readValue (firstLine (letters.flatMap encoder.encode ++ rest)) = none := by
  induction letters with
  | nil => cases broken
  | cons c letters ih =>
      rw [List.flatMap_cons, List.append_assoc]
      by_cases here : '\n' ∈ encoder.encode c
      · rw [encoder.breaks c here]
        rfl
      · have later : '\n' ∈ letters.flatMap encoder.encode := by
          rw [List.flatMap_cons] at broken
          exact (List.mem_append.mp broken).resolve_left here
        rw [firstLine_append here, encoder.reads, ih later]
        rfl

theorem labels_cons (label next : String × String) (rest : List (String × String)) :
    encoder.labels (label :: next :: rest) =
      encoder.label label ++ ',' :: encoder.labels (next :: rest) := by
  simp [Encoder.labels, List.intercalate_cons_cons]

theorem labels_singleton (label : String × String) :
    encoder.labels [label] = encoder.label label := by
  simp [Encoder.labels]

theorem readName_label {label : String × String}
    (valid : validName isLabelStart isLabelPart label.1 = true) (rest : List Char) :
    readName isLabelStart isLabelPart (encoder.label label ++ rest) =
      some (label.1.toList, '=' :: '"' :: (encoder.value label.2 ++ '"' :: rest)) := by
  unfold Encoder.label
  rw [List.append_assoc]
  simp only [List.cons_append, List.append_assoc, List.nil_append]
  exact readName_append valid (by decide) _

theorem readLabels_labels {labels : List (String × String)} (some' : labels ≠ [])
    (valid : ∀ label ∈ labels, validName isLabelStart isLabelPart label.1 = true) {bound : ℕ}
    (bounded : labels.length ≤ bound) (rest : List Char) :
    readLabels bound (encoder.labels labels ++ '}' :: rest) = some (labels, rest) := by
  induction labels generalizing bound with
  | nil => exact absurd rfl some'
  | cons label others ih =>
      obtain ⟨bound, rfl⟩ := Nat.exists_eq_add_of_le' (Nat.one_le_of_lt (Nat.lt_of_succ_le bounded))
      have own := valid label (by simp)
      cases others with
      | nil =>
          rw [labels_singleton]
          simp [readLabels, readName_label own, readValue_value]
      | cons next rest' =>
          have onwards := ih (List.cons_ne_nil next rest')
            (fun label member => valid label (List.mem_cons_of_mem _ member))
            (Nat.le_of_succ_le_succ bounded)
          rw [labels_cons, List.append_assoc]
          simp [readLabels, readName_label own, readValue_value, onwards]

theorem oneLine_label {label : String × String}
    (valid : validName isLabelStart isLabelPart label.1 = true)
    (whole : '\n' ∉ encoder.value label.2) : '\n' ∉ encoder.label label := by
  have name := label_oneLine valid
  simp [Encoder.label, name, whole]

theorem labels_head (encoder : Encoder) (label : String × String)
    (others : List (String × String)) (rest : List Char) :
    ∃ more, encoder.labels (label :: others) ++ rest =
      (label.1.toList ++ ['=', '"']) ++ (encoder.value label.2 ++ more) := by
  cases others with
  | nil => exact ⟨'"' :: rest, by simp [labels_singleton, Encoder.label]⟩
  | cons next others =>
      exact ⟨'"' :: ',' :: (encoder.labels (next :: others) ++ rest),
        by simp [labels_cons, Encoder.label]⟩

theorem readLabels_unclosed {label : String × String}
    (valid : validName isLabelStart isLabelPart label.1 = true)
    (broken : '\n' ∈ encoder.value label.2) (bound : ℕ) (more : List Char) :
    readLabels bound (firstLine
      ((label.1.toList ++ ['=', '"']) ++ (encoder.value label.2 ++ more))) = none := by
  cases bound with
  | zero => rfl
  | succ bound =>
      have name := label_oneLine valid
      have opening : '\n' ∉ label.1.toList ++ ['=', '"'] := by simp [name]
      have unread : readValue (firstLine (encoder.value label.2 ++ more)) = none :=
        readValue_firstLine broken more
      rw [firstLine_append opening, List.append_assoc]
      simp [readLabels, readName_append valid (by decide : isLabelPart '=' = false), unread]

theorem readLabels_firstLine {labels : List (String × String)}
    (valid : ∀ label ∈ labels, validName isLabelStart isLabelPart label.1 = true)
    (broken : ∃ label ∈ labels, '\n' ∈ encoder.value label.2) (bound : ℕ) (rest : List Char) :
    readLabels bound (firstLine (encoder.labels labels ++ rest)) = none := by
  induction labels generalizing bound with
  | nil =>
      obtain ⟨label, member, _⟩ := broken
      cases member
  | cons label others ih =>
      obtain ⟨own, valid⟩ := List.forall_mem_cons.mp valid
      by_cases here : '\n' ∈ encoder.value label.2
      · obtain ⟨more, head⟩ := labels_head encoder label others rest
        rw [head]
        exact readLabels_unclosed own here bound more
      · have later := (List.or_exists_of_exists_mem_cons broken).resolve_left here
        cases others with
        | nil =>
            obtain ⟨other, member, _⟩ := later
            cases member
        | cons next others =>
            cases bound with
            | zero => rfl
            | succ bound =>
                have unread := ih valid later bound
                have unbroken : '\n' ∉ encoder.label label ++ [','] := by
                  simp [oneLine_label own here]
                have split : encoder.labels (label :: next :: others) ++ rest =
                    (encoder.label label ++ [',']) ++
                      (encoder.labels (next :: others) ++ rest) := by
                  simp [labels_cons]
                rw [split, firstLine_append unbroken, List.append_assoc]
                simp [readLabels, readName_label own, readValue_value, unread]

theorem length_labels (encoder : Encoder) (labels : List (String × String)) :
    labels.length ≤ (encoder.labels labels).length := by
  induction labels with
  | nil => exact Nat.zero_le _
  | cons label others ih =>
      cases others with
      | nil =>
          rw [labels_singleton]
          simp only [Encoder.label, List.length_append, List.length_cons, List.length_nil]
          omega
      | cons next rest =>
          rw [labels_cons]
          simp only [List.length_append, List.length_cons] at ih ⊢
          omega

theorem labels_oneLine {labels : List (String × String)}
    (valid : ∀ label ∈ labels, validName isLabelStart isLabelPart label.1 = true)
    (whole : ∀ label ∈ labels, '\n' ∉ encoder.value label.2) :
    '\n' ∉ encoder.labels labels := by
  have each : ∀ label ∈ labels, '\n' ∉ encoder.label label :=
    fun label member => oneLine_label (valid label member) (whole label member)
  induction labels with
  | nil => simp [Encoder.labels]
  | cons label others ih =>
      cases others with
      | nil =>
          rw [labels_singleton]
          exact each label (by simp)
      | cons next rest =>
          have later := ih (fun label member => valid label (List.mem_cons_of_mem _ member))
            (fun label member => whole label (List.mem_cons_of_mem _ member))
            fun label member => each label (List.mem_cons_of_mem _ member)
          rw [labels_cons]
          simp [each label (by simp), later]

/-! ## Lines and texts -/

section Samples
variable {ν : Type u} {format : NumberFormat ν} {sample : Sample ν}

def Breaks (encoder : Encoder) (sample : Sample ν) : Prop :=
  ∃ label ∈ sample.labels, '\n' ∈ encoder.value label.2

theorem readSample_sample (valid : sample.Valid) :
    readSample format.read (encoder.sample format sample) = some sample := by
  obtain ⟨name, labels, value⟩ := sample
  have named : validName isNameStart isNamePart name = true := valid.name
  unfold Encoder.sample readSample
  by_cases bare : labels = []
  · subst bare
    simp [readName_append named (by decide : isNamePart ' ' = false), format.read_write]
  · have long := encoder.length_labels labels
    simp only [bare, if_false, List.append_assoc, List.cons_append, List.nil_append,
      readName_append named (by decide : isNamePart '{' = false)]
    rw [readLabels_labels bare valid.labels (by rw [List.length_append]; omega)]
    simp [format.read_write]

theorem readSample_firstLine (valid : sample.Valid) (breaks : encoder.Breaks sample)
    (rest : List Char) :
    readSample format.read (firstLine (encoder.sample format sample ++ rest)) = none := by
  have labeled : sample.labels ≠ [] := by
    obtain ⟨label, member, _⟩ := breaks
    exact List.ne_nil_of_mem member
  have named := valid.name_oneLine
  have opening : '\n' ∉ sample.name.toList ++ ['{'] := by simp [named]
  have split : encoder.sample format sample ++ rest = (sample.name.toList ++ ['{']) ++
      (encoder.labels sample.labels ++
        ('}' :: ' ' :: ((format.write sample.value).toList ++ rest))) := by
    simp [Encoder.sample, labeled]
  rw [split, firstLine_append opening, List.append_assoc]
  unfold readSample
  simp only [List.cons_append, List.nil_append,
    readName_append valid.name (by decide : isNamePart '{' = false),
    readLabels_firstLine valid.labels breaks]

theorem sample_oneLine (valid : sample.Valid) (whole : ¬ encoder.Breaks sample) :
    '\n' ∉ encoder.sample format sample := by
  have named := valid.name_oneLine
  have labeled : '\n' ∉ encoder.labels sample.labels :=
    labels_oneLine valid.labels fun label member broken => whole ⟨label, member, broken⟩
  unfold Encoder.sample
  split
  · simp [named, format.oneLine]
  · simp [named, labeled, format.oneLine]

theorem isSample_name (valid : sample.Valid) (rest : List Char) :
    isSample (sample.name.toList ++ rest) = true := by
  obtain ⟨first, others, letters, starts, _⟩ := letters_of_validName valid.name
  have other : first ≠ '#' := by
    rintro rfl
    exact absurd starts (by decide)
  rw [letters]
  simp [isSample, other]

theorem parse_cons (valid : sample.Valid) (whole : ¬ encoder.Breaks sample)
    (rest : List Char) :
    parse format.read (String.ofList (encoder.sample format sample ++ '\n' :: rest)) =
      (parse format.read (String.ofList rest)).map fun more => sample :: more := by
  have kept : isSample (encoder.sample format sample) = true := by
    unfold Encoder.sample
    rw [List.append_assoc]
    exact isSample_name valid _
  unfold parse
  simp only [String.toList_ofList]
  rw [List.splitOn_append_cons_self_of_not_mem (sample_oneLine valid whole),
    List.filter_cons_of_pos kept, List.mapM_cons, readSample_sample valid]
  cases ((rest.splitOn '\n').filter isSample).mapM (readSample format.read) <;> rfl

theorem parse_broken (valid : sample.Valid) (breaks : encoder.Breaks sample)
    (rest : List Char) :
    parse format.read (String.ofList (encoder.sample format sample ++ '\n' :: rest)) = none := by
  obtain ⟨later, split⟩ := splitOn_firstLine
    (List.mem_append_right (encoder.sample format sample) (List.mem_cons_self (l := rest)))
  have named := valid.name_oneLine
  have kept : isSample (firstLine (encoder.sample format sample ++ '\n' :: rest)) = true := by
    unfold Encoder.sample
    rw [List.append_assoc, List.append_assoc, firstLine_append named]
    exact isSample_name valid _
  unfold parse
  rw [String.toList_ofList, split, List.filter_cons_of_pos kept, List.mapM_cons,
    readSample_firstLine valid breaks]
  rfl

/-- What is written is read back, exactly when no label breaks its line. -/
theorem parse_text_iff {samples : List (Sample ν)} (valid : ∀ sample ∈ samples, sample.Valid) :
    parse format.read (encoder.text format samples) = some samples ↔
      ∀ sample ∈ samples, ¬ encoder.Breaks sample := by
  induction samples with
  | nil => exact iff_of_true rfl fun _ member => nomatch member
  | cons sample others ih =>
      have own := valid sample (by simp)
      have rest := ih fun sample member => valid sample (List.mem_cons_of_mem _ member)
      have split : encoder.text format (sample :: others) = String.ofList
          (encoder.sample format sample ++ '\n' ::
            others.flatMap fun sample => encoder.sample format sample ++ ['\n']) := by
        simp [Encoder.text]
      rw [split, List.forall_mem_cons]
      by_cases breaks : encoder.Breaks sample
      · rw [parse_broken own breaks]
        exact iff_of_false nofun fun whole => whole.1 breaks
      · rw [parse_cons own breaks, Option.map_eq_some_iff, ← rest]
        simp [breaks, Encoder.text]

end Samples

end Encoder

end MetricText
