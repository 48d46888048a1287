import WsGateway.Proofs.Json.Heads
import WsGateway.Proofs.Json.Locality.Nested
import WsGateway.Proofs.Json.Nesting

/-!
# Values that were read

The parts of a value are read by the same reader one level deeper, and embedded texts by the whole
parser once more. So a property that a value inherits from its parts (`Inherited`) holds of every
value that was read (`Inherited.parse`); this is an induction on the nesting that is left, with the
number of embeddings around it. Two properties are of this kind: the members of every object are in
order (`parse_ordered`), and no object has the embedding name alone (`parse_unwrapped`).
-/

namespace WsGateway.Json

section Parts

variable {α : Type} {p : α → Prop} {f : List Char → Except Fault (α × List Char)}

/-- What the reader of one element gives, every element has. -/
theorem readElements_forall (hf : ∀ {s a r}, f s = .ok (a, r) → p a) {n : Nat} {first : Bool}
    {s r : List Char} {as : List α} (h : readElements f n first s = .ok (as, r)) :
    ∀ a ∈ as, p a := by
  induction n generalizing first s as with
  | zero => cases h
  | succ n ih =>
    cases as with
    | nil => simp
    | cons a as =>
      obtain ⟨s₁, s₂, -, ha, has⟩ := readElements_cons_iff.mp h
      exact List.forall_mem_cons.mpr ⟨hf ha, ih has⟩

/-- What the reader of one value gives, every member's value has. -/
theorem readMembers_forall (hf : ∀ {s a r}, f s = .ok (a, r) → p a) {limit n : Nat} {first : Bool}
    {s r : List Char} {members : List (String × α)}
    (h : readMembers limit f n first s = .ok (members, r)) : ∀ m ∈ members, p m.2 := by
  induction n generalizing first s members with
  | zero => cases h
  | succ n ih =>
    cases members with
    | nil => simp
    | cons member members =>
      obtain ⟨key, a⟩ := member
      obtain ⟨s₁, s₂, s₃, s₄, -, -, -, ha, hmembers⟩ := readMembers_cons_iff.mp h
      exact List.forall_mem_cons.mpr ⟨hf ha, ih hmembers⟩

end Parts

/-- What is read as an object has another name in front than that of an embedded text. -/
theorem readMembers_head?_ne {α : Type} {f : List Char → Except Fault (α × List Char)}
    {limit n : Nat} {s r : List Char} {members : List (String × α)}
    (hname : afterEmbeddingName? limit s = none)
    (h : readMembers limit f n true s = .ok (members, r)) :
    ∀ m ∈ members.head?, m.1 ≠ embeddingName := by
  cases n with
  | zero => cases h
  | succ n =>
    cases members with
    | nil => simp
    | cons member members =>
      obtain ⟨key, a⟩ := member
      obtain ⟨s₁, s₂, -, -, hstep, hkey, -⟩ := readMembers_cons_iff.mp h
      intro m hm
      obtain rfl := Option.some.inj hm
      -- both readers look at the same name
      rw [afterEmbeddingName?, hstep] at hname
      dsimp only at hname
      rw [hkey] at hname
      dsimp only at hname
      intro hkeyName
      rw [if_pos hkeyName] at hname
      cases hname

/-! ## What a value inherits from its parts -/

/-- The property holds of scalars, and of lists and objects if it holds of their parts, where no
object has the embedding name in front before its members are put in. -/
structure Inherited (p : Value → Prop) : Prop where
  scalar : ∀ {v : Value}, v.height = 0 → p v
  array : ∀ {items : List Value}, (∀ v ∈ items, p v) → p (.array items)
  object : ∀ {members : List (String × Value)}, (∀ m ∈ members.head?, m.1 ≠ embeddingName) →
    (∀ m ∈ members, p m.2) → p (.ofMembers members)

section Inherited

variable {p : Value → Prop} (hp : Inherited p)

include hp

/-- What is read has the property if the embedded texts have. -/
theorem Inherited.readValueWith {parse : String → Except String Value}
    (hparse : ∀ {text v}, parse text = .ok v → p v) {limit depth : Nat} {s r : List Char}
    {v : Value} (h : readValueWith parse limit depth s = .ok (v, r)) : p v := by
  induction depth using Nat.strongRecOn generalizing s v r with
  | ind depth ih =>
    have hreads := readValueWith_eq_ok_iff.mp h
    generalize skipBlanks s = text at hreads
    cases hreads with
    | null => exact hp.scalar rfl
    | true => exact hp.scalar rfl
    | false => exact hp.scalar rfl
    | string => exact hp.scalar rfl
    | @array depth _ _ _ hitems =>
      exact hp.array (readElements_forall (fun ha => ih depth (Nat.lt_succ_self depth) ha) hitems)
    | embedded _ hembedded =>
      -- an embedded text stands for the value that it spells
      obtain ⟨s₁, text, s₂, -, -, hv, -⟩ := readEmbedded_eq_ok_iff.mp hembedded
      exact hparse hv
    | @object depth _ _ _ hname hmembers =>
      exact hp.object (readMembers_head?_ne hname hmembers)
        (readMembers_forall (fun ha => ih depth (Nat.lt_succ_self depth) ha) hmembers)
    | number => exact hp.scalar rfl

theorem Inherited.parseEmbedded (n : Nat) {text : String} {v : Value}
    (h : parseEmbedded n text = .ok v) : p v := by
  induction n generalizing text v with
  | zero => cases h
  | succ n ih =>
    rw [Json.parseEmbedded] at h
    split at h
    · next w hread =>
      cases h
      rw [readAll, bind_eq_ok] at hread
      obtain ⟨⟨u, r⟩, hu, hread⟩ := hread
      rw [bind_eq_ok] at hread
      obtain ⟨_, -, hread⟩ := hread
      cases hread
      exact hp.readValueWith (fun hw => ih hw) hu
    · cases h

/-- **A property that is inherited holds of every value that was read.** -/
theorem Inherited.parse {text : String} {v : Value} (h : Value.parse text = .ok v) : p v := by
  rw [Value.parse, readAll, bind_eq_ok] at h
  obtain ⟨⟨u, r⟩, hu, h⟩ := h
  rw [bind_eq_ok] at h
  obtain ⟨_, -, h⟩ := h
  cases h
  exact hp.readValueWith (fun hw => hp.parseEmbedded _ hw) hu

end Inherited

/-! ## Objects that were read -/

/-- That members stand in ascending order is inherited by every value that is read. -/
theorem inherited_ordered : Inherited Value.Ordered where
  scalar hheight members hcontains := absurd hcontains (Value.not_contains_object hheight members)
  array hitems members hcontains := by
    cases hcontains with
    | item hv hu => exact hitems _ hv members hu
  object {members} _ hmembers members' hcontains := by
    rw [ofMembers_eq] at hcontains
    cases hcontains with
    | self => exact ascending_insertAll members
    | member hm hu => exact hmembers _ (mem_insertAll hm) members' hu

/-- **The members of every object that was read are in order.** -/
theorem parse_ordered {text : String} {v : Value} (h : Value.parse text = .ok v) : v.Ordered :=
  inherited_ordered.parse h

/-- That no object has the reserved name is inherited by every value that is read. -/
theorem inherited_unwrapped : Inherited Value.Unwrapped where
  scalar hheight m hcontains := absurd hcontains (Value.not_contains_object hheight [m])
  array hitems m hcontains := by
    cases hcontains with
    | item hv hu => exact hitems _ hv m hu
  object {members} hname hmembers m hcontains := by
    rw [ofMembers_eq] at hcontains
    generalize hinserted : insertAll members = inserted at hcontains
    cases hcontains with
    | self =>
      -- one member is left, so all names that were put in are its name
      cases members with
      | nil => cases hinserted
      | cons m₀ rest =>
        obtain ⟨m', hm', hsame⟩ := exists_mem_insertAll (List.mem_cons_self (a := m₀) (l := rest))
        rw [hinserted] at hm'
        obtain rfl := List.mem_singleton.mp hm'
        rw [hsame]
        exact hname m₀ rfl
    | member hm hu => exact hmembers _ (mem_insertAll (hinserted ▸ hm)) m hu

/-- **No object that was read has the embedding name alone**, because it would have been read as an
embedded text. -/
theorem parse_unwrapped {text : String} {v : Value} (h : Value.parse text = .ok v) :
    v.Unwrapped :=
  inherited_unwrapped.parse h

end WsGateway.Json
