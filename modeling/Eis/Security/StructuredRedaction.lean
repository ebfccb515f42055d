import Mathlib.Data.List.Forall2
import Eis.Security.Redaction

/-!
# Redaction of structured values

Two values that differ only under sensitive keys have one redacted value, however
deep the keys are, and redaction changes neither keys nor containers elsewhere.
-/

set_option autoImplicit false

namespace Eis.Security

open Text

/-! ## Spellings of a sensitive key -/

/-- The character in either case, and either dash for a dash. -/
def Respelled (own spelled : Char) : Prop :=
  spelled.toLower = own ∨ ((own = '-' ∨ own = '_') ∧ (spelled = '-' ∨ spelled = '_'))

/-- One of `_SENSITIVE_KEYS` in any letter case, with `-` or `_`. -/
def SpellsSensitive (key : String) : Prop :=
  ∃ name ∈ sensitiveKeys, List.Forall₂ Respelled name.toList key.toList

theorem toLower_eq_self {c : Char} (lower : ¬ c.isUpper = true) : c.toLower = c :=
  dif_neg fun bounds => lower (decide_eq_true bounds)

theorem casefold_ascii {letters : List Char} (ascii : ∀ c ∈ letters, c.toNat < 128) :
    (casefold (String.ofList letters)).toList = letters.map Char.toLower := by
  induction letters with
  | nil => rfl
  | cons c letters ih =>
      have others := ih fun d inside => ascii d (List.mem_cons_of_mem c inside)
      have small := ascii c List.mem_cons_self
      simp only [casefold, String.toList_ofList] at others ⊢
      rw [List.flatMap_cons, others, List.map_cons]
      by_cases upper : c.isUpper = true
      · rw [if_pos upper]
        rfl
      · rw [if_neg upper, toLower_eq_self upper]
        -- no other letter that folds is as small
        repeat rw [if_neg (by omega)]
        rfl

def underscored (c : Char) : Char := if c = '-' then '_' else c

theorem respelled_ascii {own spelled : Char} (same : Respelled own spelled)
    (plain : own.toNat < 128) : spelled.toNat < 128 := by
  rcases same with lowered | ⟨_, rfl | rfl⟩
  · by_cases upper : spelled.isUpper = true
    · have bounds : 'A'.val ≤ spelled.val ∧ spelled.val ≤ 'Z'.val := of_decide_eq_true upper
      have most : spelled.toNat ≤ 90 := UInt32.le_iff_toNat_le.mp bounds.2
      omega
    · rw [toLower_eq_self upper] at lowered
      rwa [lowered]
  · decide
  · decide

theorem underscored_respelled {own spelled : Char} (same : Respelled own spelled) :
    underscored spelled.toLower = underscored own := by
  rcases same with rfl | ⟨rfl | rfl, rfl | rfl⟩
  · rfl
  all_goals decide

theorem respelled_key {name key : List Char} (same : List.Forall₂ Respelled name key)
    (plain : ∀ c ∈ name, c.toNat < 128) :
    (∀ c ∈ key, c.toNat < 128) ∧
      (key.map Char.toLower).map underscored = name.map underscored := by
  induction same with
  | nil => exact ⟨plain, rfl⟩
  | cons first rest ih =>
      obtain ⟨own, others⟩ := List.forall_mem_cons.mp plain
      obtain ⟨ascii, equal⟩ := ih others
      refine ⟨List.forall_mem_cons.mpr ⟨respelled_ascii first own, ascii⟩, ?_⟩
      rw [List.map_cons, List.map_cons, List.map_cons, underscored_respelled first, equal]

theorem isSensitiveKey_of_spells {key : String} (spells : SpellsSensitive key) :
    isSensitiveKey key = true := by
  obtain ⟨name, listed, same⟩ := spells
  have checked : sensitiveKeys.all (fun name => name.toList.all fun c => c.toNat < 128) = true := by
    decide
  have plain : ∀ c ∈ name.toList, c.toNat < 128 := by
    intro c inside
    exact of_decide_eq_true (List.all_eq_true.mp (List.all_eq_true.mp checked name listed) c inside)
  obtain ⟨ascii, equal⟩ := respelled_key same plain
  have folded := casefold_ascii ascii
  rw [String.ofList_toList] at folded
  have normalized : replaceCharacter (casefold key) '-' '_' = replaceCharacter name '-' '_' := by
    unfold replaceCharacter
    rw [folded]
    exact congrArg String.ofList equal
  unfold isSensitiveKey
  rw [normalized]
  exact List.contains_iff_mem.mpr (List.mem_map_of_mem listed)

/-! ## Values that differ in their secrets -/

mutual
def SameButSecrets : Value → Value → Prop
  | .dict items, .dict items' => SameItems items items'
  | .list items, .list items' => SameList items items'
  | .tuple items, .tuple items' => SameList items items'
  | value, value' => value = value'

def SameItems : List (String × Value) → List (String × Value) → Prop
  | [], [] => True
  | (key, item) :: rest, (key', item') :: rest' =>
      key = key' ∧ (isSensitiveKey key = false → SameButSecrets item item') ∧
        SameItems rest rest'
  | _, _ => False

def SameList : List Value → List Value → Prop
  | [], [] => True
  | item :: rest, item' :: rest' => SameButSecrets item item' ∧ SameList rest rest'
  | _, _ => False
end

/-! ## What stays of a value -/

mutual
/-- The second value has the containers of the first, of the same kinds and lengths and
with the same keys, but for what stands under sensitive keys; it has a text for a text
and is the same elsewhere. -/
def KeepsShape : Value → Value → Prop
  | .dict items, .dict items' => KeepsKeys items items'
  | .list items, .list items' => KeepsLength items items'
  | .tuple items, .tuple items' => KeepsLength items items'
  | .str _, .str _ => True
  | value, value' => value = value'

def KeepsKeys : List (String × Value) → List (String × Value) → Prop
  | [], [] => True
  | (key, item) :: rest, (key', item') :: rest' =>
      key = key' ∧ (isSensitiveKey key = false → KeepsShape item item') ∧ KeepsKeys rest rest'
  | _, _ => False

def KeepsLength : List Value → List Value → Prop
  | [], [] => True
  | item :: rest, item' :: rest' => KeepsShape item item' ∧ KeepsLength rest rest'
  | _, _ => False
end

namespace RedactingProtector

variable (protector : RedactingProtector)

mutual
theorem redactValue_congr : ∀ {value value' : Value}, SameButSecrets value value' →
    protector.redactValue value = protector.redactValue value'
  | .dict items, value', same => by
      cases value' with
      | dict items' => exact congrArg Value.dict (redactItems_congr same)
      | _ => cases same
  | .list items, value', same => by
      cases value' with
      | list items' => exact congrArg Value.list (redactList_congr same)
      | _ => cases same
  | .tuple items, value', same => by
      cases value' with
      | tuple items' => exact congrArg Value.tuple (redactList_congr same)
      | _ => cases same
  | .none, _, same | .bool _, _, same | .int _, _, same | .float _, _, same | .str _, _, same
  | .bytes _, _, same | .object _, _, same => congrArg protector.redactValue same

theorem redactItems_congr : ∀ {items items' : List (String × Value)}, SameItems items items' →
    protector.redactItems items = protector.redactItems items'
  | [], [], _ => rfl
  | (key, item) :: rest, (key', item') :: rest', same => by
      obtain ⟨rfl, plain', others⟩ := same
      unfold redactItems
      rw [redactItems_congr others]
      cases sensitive : isSensitiveKey key with
      | true => rfl
      | false => rw [redactValue_congr (plain' sensitive)]
  | [], _ :: _, same => same.elim
  | _ :: _, [], same => same.elim

theorem redactList_congr : ∀ {items items' : List Value}, SameList items items' →
    protector.redactList items = protector.redactList items'
  | [], [], _ => rfl
  | item :: rest, item' :: rest', same => by
      unfold redactList
      rw [redactValue_congr same.1, redactList_congr same.2]
  | [], _ :: _, same => same.elim
  | _ :: _, [], same => same.elim
end

mutual
theorem redactValue_keepsShape : ∀ value : Value, KeepsShape value (protector.redactValue value)
  | .dict items => redactItems_keepsKeys items
  | .list items => redactList_keepsLength items
  | .tuple items => redactList_keepsLength items
  | .str _ => trivial
  | .none | .bool _ | .int _ | .float _ | .bytes _ | .object _ => rfl

theorem redactItems_keepsKeys : ∀ items : List (String × Value),
    KeepsKeys items (protector.redactItems items)
  | [] => trivial
  | (key, item) :: rest => by
      refine ⟨rfl, ?_, redactItems_keepsKeys rest⟩
      intro shown
      rw [shown]
      exact redactValue_keepsShape item

theorem redactList_keepsLength : ∀ items : List Value,
    KeepsLength items (protector.redactList items)
  | [] => trivial
  | item :: rest => ⟨redactValue_keepsShape item, redactList_keepsLength rest⟩
end

/-- Redaction hides what stands under sensitive keys, at every depth and in every
spelling of the keys, and keeps the structure of the rest. -/
structure HidesSecrets : Prop where
  spellings : ∀ key, SpellsSensitive key → isSensitiveKey key = true
  hidden : ∀ value value', SameButSecrets value value' →
    protector.redactValue value = protector.redactValue value'
  shape : ∀ value, KeepsShape value (protector.redactValue value)

theorem redact_hides_secrets : protector.HidesSecrets where
  spellings := fun _ spells => isSensitiveKey_of_spells spells
  hidden := fun _ _ same => protector.redactValue_congr same
  shape := protector.redactValue_keepsShape

end RedactingProtector

example : SameButSecrets (.list [.dict [("API-Key", .int 1), ("id", .int 2)]])
    (.list [.dict [("API-Key", .str "k"), ("id", .int 2)]]) := by
  simp [SameButSecrets, SameList, SameItems]
  decide

end Eis.Security
