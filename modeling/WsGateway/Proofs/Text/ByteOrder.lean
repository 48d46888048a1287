import Mathlib.Data.String.Basic
import Mathlib.Tactic.SplitIfs
import WsGateway.Proofs.Http.Values

/-!
# The order of texts

Texts are ordered by their characters, and the octets of texts by their values. Both orders are the
same (`octets_lt_iff`): of two characters the lesser one has the lesser octets, and they differ
before either of them ends.
-/

namespace WsGateway.Text

/-- The octets of a text are those of its characters, one after the other. -/
theorem octets_eq_flatMap (s : String) : octets s = s.toList.flatMap String.utf8EncodeChar := by
  have hbytes : s.toByteArray = s.toList.utf8Encode := by
    rw [← String.toByteArray_ofList, String.ofList_toList]
  rw [octets_eq_data, hbytes, List.utf8Encode, List.toList_data_toByteArray]

/-! ## Octets of one character

The octets of a character are those of `String.utf8EncodeChar`, as numbers: what is cut off there to
fit into an octet is nothing. -/

theorem first_of_one {v : Nat} (h : v ≤ 127) : v % 256 = v := by omega

theorem first_of_two {v : Nat} (h : v ≤ 2047) : (v / 64 % 32 + 192) % 256 = v / 64 + 192 := by
  omega

theorem first_of_three {v : Nat} (h : v ≤ 65535) :
    (v / 4096 % 16 + 224) % 256 = v / 4096 + 224 := by
  omega

theorem first_of_four {v : Nat} (h : v < 1114112) :
    (v / 262144 % 8 + 240) % 256 = v / 262144 + 240 := by
  omega

theorem continuation (v : Nat) : (v % 64 + 128) % 256 = v % 64 + 128 := by omega

/-- Of two numbers the lesser one is lesser at the first group of six bits where they differ. -/
theorem groups_lt {v w : Nat} (h : v < w) :
    v / 262144 < w / 262144 ∨ v / 262144 = w / 262144 ∧
      (v / 4096 % 64 < w / 4096 % 64 ∨ v / 4096 % 64 = w / 4096 % 64 ∧
        (v / 64 % 64 < w / 64 % 64 ∨ v / 64 % 64 = w / 64 % 64 ∧ v % 64 < w % 64)) := by
  omega

/-- The octets of a lesser character are lesser, whatever follows. -/
theorem utf8EncodeChar_lt {c d : Char} (h : c < d) (s t : Octets) :
    String.utf8EncodeChar c ++ s < String.utf8EncodeChar d ++ t := by
  have hlt : c.val.toNat < d.val.toNat := UInt32.lt_iff_toNat_lt.mp h
  have hmax : d.val.toNat < 1114112 := by
    rcases d.valid with hd | ⟨-, hd⟩
    · exact Nat.lt_trans hd (by decide)
    · exact hd
  have hgroups := groups_lt hlt
  simp only [String.utf8EncodeChar]
  generalize c.val.toNat = v at *
  generalize d.val.toNat = w at *
  -- by the numbers of octets; one that is longer begins with a greater octet
  split_ifs <;>
    simp (disch := omega) only [List.cons_append, List.nil_append, List.cons_lt_cons_iff,
      UInt8.lt_iff_toNat_lt, ← UInt8.toNat_inj, UInt8.toNat_ofNat', Nat.reducePow, first_of_one,
      first_of_two, first_of_three, first_of_four, continuation] <;>
    omega

/-! ## Octets of a text -/

/-- By induction on the first text: the order is settled where the texts first differ, and the
octets in front of that place are the same. -/
theorem flatMap_utf8EncodeChar_lt {cs ds : List Char} (h : cs < ds) :
    cs.flatMap String.utf8EncodeChar < ds.flatMap String.utf8EncodeChar := by
  induction cs generalizing ds with
  | nil =>
    cases ds with
    | nil => exact absurd h (List.lt_irrefl [])
    | cons d ds =>
      rw [List.flatMap_cons]
      cases hd : String.utf8EncodeChar d with
      | nil => exact absurd hd String.utf8EncodeChar_ne_nil
      | cons o os => exact List.nil_lt_cons o _
  | cons c cs ih =>
    cases ds with
    | nil => exact absurd h (List.not_lt_nil _)
    | cons d ds =>
      rw [List.flatMap_cons, List.flatMap_cons]
      -- The first character that differs decides, and its octets decide in the same way.
      rcases List.cons_lt_cons_iff.mp h with hlt | ⟨rfl, hrest⟩
      · exact utf8EncodeChar_lt hlt _ _
      · exact List.append_left_lt (ih hrest)

/-- **Texts are in the order of their octets.** -/
theorem octets_lt_iff {s t : String} : octets s < octets t ↔ s < t := by
  have hmono : ∀ {s t : String}, s < t → octets s < octets t := by
    intro s t h
    rw [octets_eq_flatMap, octets_eq_flatMap]
    exact flatMap_utf8EncodeChar_lt (String.lt_iff_toList_lt.mp h)
  refine ⟨fun h => ?_, hmono⟩
  rcases lt_trichotomy s t with hlt | rfl | hgt
  · exact hlt
  · exact absurd h (List.lt_irrefl _)
  · exact absurd h (List.lt_asymm (hmono hgt))

end WsGateway.Text
