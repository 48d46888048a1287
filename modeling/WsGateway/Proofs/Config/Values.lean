import WsGateway.Config.Overrides
import WsGateway.Proofs.Text.Digits
import WsGateway.Proofs.Text.Items

/-!
# What the texts of settings say

The kinds of values that settings have, each with what its texts say: a number is written in decimal
digits (`Text.WritesNumber`), a truth value is one of eight words in any case (`SaysFlag`), and a
list has its items between commas (`Text.Lists`). The readers of the table of overrides read just
what is said (`readNumber_eq_ok_iff`, `readFlag_eq_ok_iff`, `readList_eq_iff`).
-/

namespace WsGateway.Setting

variable {s : String}

/-- The words for a truth value. -/
def flagWords : Bool → List String
  | true => ["1", "true", "yes", "on"]
  | false => ["0", "false", "no", "off"]

/-- The text is one of the words for the truth value, in any case. -/
def SaysFlag (s : String) (b : Bool) : Prop :=
  ∃ word ∈ flagWords b, s.toList.map Char.toLower = word.toList

/-- A number is read just if its decimal digits stand there, behind one plus sign at most. -/
theorem readNumber_eq_ok_iff {n : UInt64} :
    readNumber s = .ok n ↔ Text.WritesNumber s.toList n.toNat := by
  rw [← Text.uint64?_eq_some_iff]
  unfold readNumber
  cases Text.uint64? s with
  | none => exact iff_of_false nofun nofun
  | some m => rw [Except.ok.injEq, Option.some.injEq]

/-- No word stands for both truth values. -/
theorem flagWords_disjoint : ∀ word ∈ flagWords true, word ∉ flagWords false := by decide

theorem saysFlag_iff {b : Bool} : SaysFlag s b ↔ s.toLower ∈ flagWords b := by
  have hword : ∀ word : String, s.toList.map Char.toLower = word.toList ↔ s.toLower = word := by
    intro word
    show _ ↔ s.map Char.toLower = word
    rw [← String.toList_inj, String.toList_map]
  simp only [SaysFlag, hword, exists_eq_right']

/-- The words are looked up in lower case, those for true first. -/
theorem readFlag_eq (s : String) : readFlag s =
    if s.toLower ∈ flagWords true then .ok true
    else if s.toLower ∈ flagWords false then .ok false
    else .error (mismatch "a boolean" s) := by
  simp only [readFlag, flagWords, List.mem_cons, List.not_mem_nil, or_false, Bool.or_eq_true,
    decide_eq_true_eq, or_assoc]

/-- A truth value is read just from the texts that say it. -/
theorem readFlag_eq_ok_iff {b : Bool} : readFlag s = .ok b ↔ SaysFlag s b := by
  rw [saysFlag_iff, readFlag_eq]
  -- No word stands for both, so the order in which the reader asks does not matter.
  by_cases hyes : s.toLower ∈ flagWords true
  · have hno := flagWords_disjoint _ hyes
    rw [if_pos hyes]
    cases b with
    | true => exact iff_of_true rfl hyes
    | false => exact iff_of_false nofun hno
  · rw [if_neg hyes]
    by_cases hno : s.toLower ∈ flagWords false
    · rw [if_pos hno]
      cases b with
      | true => exact iff_of_false nofun hyes
      | false => exact iff_of_true rfl hno
    · rw [if_neg hno]
      cases b with
      | true => exact iff_of_false nofun hyes
      | false => exact iff_of_false nofun hno

/-- A list is read as the texts between its commas that are not blank. -/
theorem readList_eq_iff {items : List String} : readList s = items ↔ Text.Lists s items :=
  Text.lists_iff.symm

end WsGateway.Setting
