import WsGateway.Json.Parse
import WsGateway.Proofs.Json.Members

/-!
# Values inside values

Lists and objects hold values, which makes three things of their own: induction over a value
(`Value.inductionOn`), how deep values are nested in one (`Value.height`), and which values stand
somewhere inside one (`Value.Contains`). What is asked of all values inside is inherited by each of
them, by `Value.Contains.item` and `Value.Contains.member`.
-/

namespace WsGateway.Json

/-! ## Induction -/

/-- A property holds of every value if it passes from the elements of a list and from the values of
an object's members to the whole. -/
theorem Value.inductionOn {p : Value → Prop} (v : Value) (null : p .null)
    (bool : ∀ b, p (.bool b)) (number : ∀ n, p (.number n)) (string : ∀ s, p (.string s))
    (array : ∀ items, (∀ u ∈ items, p u) → p (.array items))
    (object : ∀ members, (∀ m ∈ members, p m.2) → p (.object members)) : p v := by
  refine @Value.rec p (fun items => ∀ u ∈ items, p u) (fun members => ∀ m ∈ members, p m.2)
    (fun m => p m.2) null bool number string array object ?_ ?_ ?_ ?_ (fun _ _ hu => hu) v
  · simp
  · intro u items hu hitems w hw
    rcases List.mem_cons.mp hw with rfl | hw
    · exact hu
    · exact hitems w hw
  · simp
  · intro m members hm hmembers m' hm'
    rcases List.mem_cons.mp hm' with rfl | hm'
    · exact hm
    · exact hmembers m' hm'

/-! ## Depth -/

mutual

/-- How deep lists and objects are nested. -/
def Value.height : Value → Nat
  | .null | .bool _ | .number _ | .string _ => 0
  | .array items => itemsHeight items + 1
  | .object members => membersHeight members + 1
termination_by structural v => v

def itemsHeight : List Value → Nat
  | [] => 0
  | v :: rest => max v.height (itemsHeight rest)
termination_by structural vs => vs

def membersHeight : List (String × Value) → Nat
  | [] => 0
  | (_, v) :: rest => max v.height (membersHeight rest)
termination_by structural ms => ms

end

/-- An array is as high as each of its items. -/
theorem height_le_itemsHeight {items : List Value} {u : Value} (h : u ∈ items) :
    u.height ≤ itemsHeight items := by
  induction items with
  | nil => exact absurd h List.not_mem_nil
  | cons v rest ih =>
    rw [itemsHeight]
    rcases List.mem_cons.mp h with rfl | h
    · exact Nat.le_max_left _ _
    · exact Nat.le_trans (ih h) (Nat.le_max_right _ _)

/-- An object is as high as each of its members. -/
theorem height_le_membersHeight {members : List (String × Value)} {m : String × Value}
    (h : m ∈ members) : m.2.height ≤ membersHeight members := by
  induction members with
  | nil => exact absurd h List.not_mem_nil
  | cons m₀ rest ih =>
    obtain ⟨k, v⟩ := m₀
    rw [membersHeight]
    rcases List.mem_cons.mp h with rfl | h
    · exact Nat.le_max_left _ _
    · exact Nat.le_trans (ih h) (Nat.le_max_right _ _)

/-- The elements of a list are nested less deep than the list. -/
theorem height_item {items : List Value} {u : Value} (h : u ∈ items) {depth : Nat}
    (hdepth : (Value.array items).height ≤ depth + 1) : u.height ≤ depth := by
  rw [Value.height] at hdepth
  have hu := height_le_itemsHeight h
  omega

/-- The values of an object's members are nested less deep than the object. -/
theorem height_member {members : List (String × Value)} {m : String × Value} (h : m ∈ members)
    {depth : Nat} (hdepth : (Value.object members).height ≤ depth + 1) : m.2.height ≤ depth := by
  rw [Value.height] at hdepth
  have hm := height_le_membersHeight h
  omega

/-! ## What stands inside a value -/

namespace Value

/-- The second value is the first one, or stands somewhere inside it. -/
inductive Contains : Value → Value → Prop where
  | self (v : Value) : Contains v v
  | item {items : List Value} {v u : Value} (hv : v ∈ items) (hu : Contains v u) :
      Contains (.array items) u
  | member {members : List (String × Value)} {m : String × Value} {u : Value} (hm : m ∈ members)
      (hu : Contains m.2 u) : Contains (.object members) u

/-- All numbers inside are whole numbers of 64 bits. -/
def WholeNumbers (v : Value) : Prop := ∀ n, v.Contains (.number n) → n.int?.isSome

/-- The names of every object inside ascend. -/
def Ordered (v : Value) : Prop :=
  ∀ members, v.Contains (.object members) → Ascending members

/-- No object inside has the embedding name in front. -/
def Unreserved (v : Value) : Prop :=
  ∀ members, v.Contains (.object members) → ∀ m ∈ members.head?, m.1 ≠ embeddingName

/-- No object inside has the embedding name alone. -/
def Unwrapped (v : Value) : Prop := ∀ m, v.Contains (.object [m]) → m.1 ≠ embeddingName

theorem wholeNumbers_int (n : Int) (fits : -9223372036854775808 ≤ n ∧ n < 18446744073709551616) :
    (number (.int n fits)).WholeNumbers := by
  intro m hcontains
  cases hcontains
  rfl

theorem wholeNumbers_string (s : String) : (string s).WholeNumbers := by
  intro n hcontains
  cases hcontains

/-- A value that is neither a list nor an object has no object inside. -/
theorem not_contains_object {v : Value} (h : v.height = 0) (members : List (String × Value)) :
    ¬ v.Contains (.object members) := by
  intro hcontains
  cases v with
  | null => cases hcontains
  | bool b => cases hcontains
  | number n => cases hcontains
  | string s => cases hcontains
  | array items => exact absurd h (Nat.succ_ne_zero _)
  | object members => exact absurd h (Nat.succ_ne_zero _)

end Value

end WsGateway.Json
