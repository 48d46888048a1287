import WsGateway.Proofs.Envelope.FirstPass.Values

/-!
# The first pass over an object

What is taken from an envelope that is an object, said of the texts of its members and not of a
reader (`Gathers`). An object that is read gathers what stands in its members
(`gathers_of_readMembers`), and an object whose members can be read is read
(`readMembers_of_gathers`). Both hold whatever stands in between: in which order the members come,
which other members there are, and how many blanks.
-/

namespace WsGateway

open Json

namespace LooseRequest

/-! ## The members of an object -/

/-- A member as it is written: its name with the blanks around it, and its value with those around
it. -/
abbrev Member := List Char × List Char

def Member.source (m : Member) : List Char := m.1 ++ ':' :: m.2

/-- The members between two braces. -/
def membersSource (first : Bool) (ms : List Member) : List Char :=
  between first (ms.map Member.source)

/-- The values of the members with a name. -/
def valuesOf (key : String) (ms : List Member) : List (List Char) :=
  (ms.filter fun m => unquote? m.1 = some key).map Prod.snd

theorem valuesOf_cons_self {key : String} {m : Member} (h : unquote? m.1 = some key)
    (ms : List Member) : valuesOf key (m :: ms) = m.2 :: valuesOf key ms := by
  rw [valuesOf, List.filter_cons_of_pos (by simpa using h)]
  rfl

theorem valuesOf_cons_ne {key key' : String} {m : Member} (h : unquote? m.1 = some key')
    (hne : key' ≠ key) (ms : List Member) : valuesOf key (m :: ms) = valuesOf key ms := by
  rw [valuesOf, List.filter_cons_of_neg (by simpa [h] using hne)]
  rfl

/-- What the members of an object add to what was seen. -/
structure Gathers (holds : List Char → Option Value → Prop)
    (keeps : List Char → Option String → Prop) (seen : LooseRequest) (ms : List Member)
    (loose : LooseRequest) : Prop where
  named : ∀ m ∈ ms, (unquote? m.1).isSome
  id : Filled holds seen.id (valuesOf "id" ms) loose.id
  op : Filled holds seen.op (valuesOf "op" ms) loose.op
  kind : Filled holds seen.kind (valuesOf "type" ms) loose.kind
  payload : Filled keeps seen.payload (valuesOf "payload" ms) loose.payload

/-- No member changes nothing. -/
theorem gathers_nil (holds : List Char → Option Value → Prop)
    (keeps : List Char → Option String → Prop) (seen : LooseRequest) :
    Gathers holds keeps seen [] seen :=
  ⟨fun _ h => absurd h List.not_mem_nil, .kept _, .kept _, .kept _, .kept _⟩

theorem Gathers.eq_of_nil {holds : List Char → Option Value → Prop}
    {keeps : List Char → Option String → Prop} {seen loose : LooseRequest}
    (h : Gathers holds keeps seen [] loose) : loose = seen := by
  obtain ⟨-, hid, hop, hkind, hpayload⟩ := h
  cases seen
  cases loose
  cases hid
  cases hop
  cases hkind
  cases hpayload
  rfl

def fieldNames : List String := ["id", "op", "type", "payload"]

/-- How a member with a name is taken up: it fills a field that was not seen, or it is skipped. -/
inductive Takes (holds : Option Value → Prop) (keeps : Option String → Prop) (skips : Prop)
    (seen : LooseRequest) : String → LooseRequest → Prop where
  | id {a : Option Value} (hfresh : seen.id = none) (h : holds a) :
      Takes holds keeps skips seen "id" { seen with id := some a }
  | op {a : Option Value} (hfresh : seen.op = none) (h : holds a) :
      Takes holds keeps skips seen "op" { seen with op := some a }
  | kind {a : Option Value} (hfresh : seen.kind = none) (h : holds a) :
      Takes holds keeps skips seen "type" { seen with kind := some a }
  | payload {a : Option String} (hfresh : seen.payload = none) (h : keeps a) :
      Takes holds keeps skips seen "payload" { seen with payload := some a }
  | other {key : String} (hkey : key ∉ fieldNames) (h : skips) :
      Takes holds keeps skips seen key seen

section Takes

variable {seen seen' loose : LooseRequest} {key : String}

/-- What is taken is taken as well if less is asked of the values. -/
theorem Takes.imp {holds holds' : Option Value → Prop} {keeps keeps' : Option String → Prop}
    {skips skips' : Prop} (h : Takes holds keeps skips seen key seen')
    (hholds : ∀ a, holds a → holds' a) (hkeeps : ∀ a, keeps a → keeps' a)
    (hskips : skips → skips') : Takes holds' keeps' skips' seen key seen' := by
  cases h with
  | id hfresh h => exact .id hfresh (hholds _ h)
  | op hfresh h => exact .op hfresh (hholds _ h)
  | kind hfresh h => exact .kind hfresh (hholds _ h)
  | payload hfresh h => exact .payload hfresh (hkeeps _ h)
  | other hkey h => exact .other hkey (hskips h)

/-- One more member: it is taken up, and the others add to what is seen then. -/
theorem gathers_cons_iff {holds : List Char → Option Value → Prop}
    {keeps : List Char → Option String → Prop} {m : Member} {ms : List Member}
    (hname : unquote? m.1 = some key) :
    Gathers holds keeps seen (m :: ms) loose ↔
      ∃ seen', Takes (holds m.2) (keeps m.2) True seen key seen' ∧
        Gathers holds keeps seen' ms loose := by
  have hself := valuesOf_cons_self hname ms
  have hne := fun key' (hkey : key ≠ key') => valuesOf_cons_ne hname hkey ms
  constructor
  · rintro ⟨hnamed, hid, hop, hkind, hpayload⟩
    have hnamed' := fun m' hm' => hnamed m' (List.mem_cons_of_mem m hm')
    -- the value belongs to the field with its name, and to no other one
    by_cases hkey : key ∈ fieldNames
    · simp only [fieldNames, List.mem_cons, List.not_mem_nil, or_false] at hkey
      rcases hkey with rfl | rfl | rfl | rfl
      · rw [hself, filled_cons_iff] at hid
        rw [hne "op" (by decide)] at hop
        rw [hne "type" (by decide)] at hkind
        rw [hne "payload" (by decide)] at hpayload
        obtain ⟨hfresh, a, ha, hid⟩ := hid
        exact ⟨_, .id hfresh ha, hnamed', hid, hop, hkind, hpayload⟩
      · rw [hself, filled_cons_iff] at hop
        rw [hne "id" (by decide)] at hid
        rw [hne "type" (by decide)] at hkind
        rw [hne "payload" (by decide)] at hpayload
        obtain ⟨hfresh, a, ha, hop⟩ := hop
        exact ⟨_, .op hfresh ha, hnamed', hid, hop, hkind, hpayload⟩
      · rw [hself, filled_cons_iff] at hkind
        rw [hne "id" (by decide)] at hid
        rw [hne "op" (by decide)] at hop
        rw [hne "payload" (by decide)] at hpayload
        obtain ⟨hfresh, a, ha, hkind⟩ := hkind
        exact ⟨_, .kind hfresh ha, hnamed', hid, hop, hkind, hpayload⟩
      · rw [hself, filled_cons_iff] at hpayload
        rw [hne "id" (by decide)] at hid
        rw [hne "op" (by decide)] at hop
        rw [hne "type" (by decide)] at hkind
        obtain ⟨hfresh, a, ha, hpayload⟩ := hpayload
        exact ⟨_, .payload hfresh ha, hnamed', hid, hop, hkind, hpayload⟩
    · have hfield : ∀ key' ∈ fieldNames, key ≠ key' := fun key' hmem heq => hkey (heq ▸ hmem)
      rw [hne "id" (hfield _ (by decide))] at hid
      rw [hne "op" (hfield _ (by decide))] at hop
      rw [hne "type" (hfield _ (by decide))] at hkind
      rw [hne "payload" (hfield _ (by decide))] at hpayload
      exact ⟨seen, .other hkey trivial, hnamed', hid, hop, hkind, hpayload⟩
  · rintro ⟨seen', htakes, hnamed, hid, hop, hkind, hpayload⟩
    have hnamed' : ∀ m' ∈ m :: ms, (unquote? m'.1).isSome :=
      List.forall_mem_cons.mpr ⟨by rw [hname]; rfl, hnamed⟩
    cases htakes with
    | id hfresh h =>
      refine ⟨hnamed', ?_, by rwa [hne "op" (by decide)], by rwa [hne "type" (by decide)],
        by rwa [hne "payload" (by decide)]⟩
      rw [hself, filled_cons_iff]
      exact ⟨hfresh, _, h, hid⟩
    | op hfresh h =>
      refine ⟨hnamed', by rwa [hne "id" (by decide)], ?_, by rwa [hne "type" (by decide)],
        by rwa [hne "payload" (by decide)]⟩
      rw [hself, filled_cons_iff]
      exact ⟨hfresh, _, h, hop⟩
    | kind hfresh h =>
      refine ⟨hnamed', by rwa [hne "id" (by decide)], by rwa [hne "op" (by decide)], ?_,
        by rwa [hne "payload" (by decide)]⟩
      rw [hself, filled_cons_iff]
      exact ⟨hfresh, _, h, hkind⟩
    | payload hfresh h =>
      refine ⟨hnamed', by rwa [hne "id" (by decide)], by rwa [hne "op" (by decide)],
        by rwa [hne "type" (by decide)], ?_⟩
      rw [hself, filled_cons_iff]
      exact ⟨hfresh, _, h, hpayload⟩
    | other hkey h =>
      have hfield : ∀ key' ∈ fieldNames, key ≠ key' := fun key' hmem heq => hkey (heq ▸ hmem)
      exact ⟨hnamed', by rwa [hne "id" (hfield _ (by decide))],
        by rwa [hne "op" (hfield _ (by decide))], by rwa [hne "type" (hfield _ (by decide))],
        by rwa [hne "payload" (hfield _ (by decide))]⟩

end Takes

/-! ## One member -/

/-- The name is one of a field that was seen. -/
def repeats (seen : LooseRequest) (key : String) : Bool :=
  (key == "id" && seen.id.isSome) || (key == "op" && seen.op.isSome)
    || (key == "type" && seen.kind.isSome) || (key == "payload" && seen.payload.isSome)

/-- The value of a member with a name. -/
def readMember (limit depth : Nat) (seen : LooseRequest) (key : String) (s : List Char) :
    Except Fault (LooseRequest × List Char) :=
  if key = "id" then do
    let (v, rest) ← member limit depth s
    pure ({ seen with id := some v }, rest)
  else if key = "op" then do
    let (v, rest) ← member limit depth s
    pure ({ seen with op := some v }, rest)
  else if key = "type" then do
    let (v, rest) ← member limit depth s
    pure ({ seen with kind := some v }, rest)
  else if key = "payload" then do
    let (v, rest) ← verbatim limit depth s
    pure ({ seen with payload := some v }, rest)
  else do
    let rest ← Json.skipValue limit s
    pure (seen, rest)

/-- How a member with a name is taken up from where its value begins. -/
abbrev TakesAt (limit depth : Nat) (s r : List Char) :
    LooseRequest → String → LooseRequest → Prop :=
  Takes (fun a => member limit depth s = .ok (a, r)) (fun a => verbatim limit depth s = .ok (a, r))
    (Json.skipValue limit s = .ok r)

section Members

variable {limit depth : Nat} {seen seen' loose : LooseRequest} {key : String}

/-- **Which member is taken**: one of a field that was not seen, or of no field, whose value can be
read or skipped. -/
theorem takesAt_iff {s r : List Char} : TakesAt limit depth s r seen key seen' ↔
    repeats seen key = false ∧ readMember limit depth seen key s = .ok (seen', r) := by
  constructor
  · intro h
    cases h with
    | id hfresh h =>
      refine ⟨by simp [repeats, hfresh], ?_⟩
      rw [readMember, if_pos rfl, h]
      rfl
    | op hfresh h =>
      refine ⟨by simp [repeats, hfresh], ?_⟩
      rw [readMember, if_neg (by decide), if_pos rfl, h]
      rfl
    | kind hfresh h =>
      refine ⟨by simp [repeats, hfresh], ?_⟩
      rw [readMember, if_neg (by decide), if_neg (by decide), if_pos rfl, h]
      rfl
    | payload hfresh h =>
      refine ⟨by simp [repeats, hfresh], ?_⟩
      rw [readMember, if_neg (by decide), if_neg (by decide), if_neg (by decide), if_pos rfl, h]
      rfl
    | other hkey h =>
      simp only [fieldNames, List.mem_cons, List.not_mem_nil, or_false, not_or] at hkey
      obtain ⟨hid, hop, hkind, hpayload⟩ := hkey
      refine ⟨by simp [repeats, hid, hop, hkind, hpayload], ?_⟩
      rw [readMember, if_neg hid, if_neg hop, if_neg hkind, if_neg hpayload, h]
      rfl
  · rintro ⟨hrepeats, h⟩
    -- The reader compares the key with the four names in turn; a key that is none of them is
    -- skipped.
    unfold readMember at h
    split at h
    · next hkey =>
      subst hkey
      obtain ⟨⟨a, rest⟩, ha, h⟩ := bind_eq_ok.mp h
      cases h
      exact .id (by simpa [repeats] using hrepeats) ha
    split at h
    · next hkey =>
      subst hkey
      obtain ⟨⟨a, rest⟩, ha, h⟩ := bind_eq_ok.mp h
      cases h
      exact .op (by simpa [repeats] using hrepeats) ha
    split at h
    · next hkey =>
      subst hkey
      obtain ⟨⟨a, rest⟩, ha, h⟩ := bind_eq_ok.mp h
      cases h
      exact .kind (by simpa [repeats] using hrepeats) ha
    split at h
    · next hkey =>
      subst hkey
      obtain ⟨⟨a, rest⟩, ha, h⟩ := bind_eq_ok.mp h
      cases h
      exact .payload (by simpa [repeats] using hrepeats) ha
    · next hid hop hkind hpayload =>
      obtain ⟨rest, ha, h⟩ := bind_eq_ok.mp h
      cases h
      exact .other (by simp [fieldNames, hid, hop, hkind, hpayload]) ha

/-- A member that is taken up is skipped to the same place. -/
theorem skips_of_takesAt {s r : List Char} (h : TakesAt limit depth s r seen key seen')
    (hlimit : s.length ≤ limit) : ∃ depth', limit ≤ depth' ∧ skipNested limit depth' s = .ok r := by
  cases h with
  | id _ h => exact skippable_member limit depth hlimit h
  | op _ h => exact skippable_member limit depth hlimit h
  | kind _ h => exact skippable_member limit depth hlimit h
  | payload _ h => exact skippable_verbatim limit depth hlimit h
  | other _ h => exact ⟨limit + 1, Nat.le_succ _, h⟩

theorem readMembers_done {n : Nat} {first : Bool} {s r : List Char}
    (h : nextMember first s = .ok (.done r)) :
    readMembers limit depth (n + 1) first seen s = .ok (seen, r) := by
  rw [readMembers, h]
  rfl

/-- A member is read by its name, the colon and its value. -/
theorem readMembers_item {n : Nat} {first : Bool} {s s₁ : List Char}
    (h : nextMember first s = .ok (.item s₁)) :
    readMembers limit depth (n + 1) first seen s = (do
      let (key, rest) ← readString limit s₁
      if repeats seen key then Json.fieldFault (.duplicateField key) '\x7d' rest
      else
        let rest ← readColon rest
        let (seen, rest) ← readMember limit depth seen key rest
        readMembers limit depth n false seen rest) := by
  rw [readMembers, h]
  simp only [bind, Except.bind]
  -- every fault of a part is the fault of the whole, so that only what is read is left to compare
  cases readString limit s₁ with
  | error fault => rfl
  | ok named =>
    obtain ⟨key, s₂⟩ := named
    refine if_congr Iff.rfl rfl ?_
    cases readColon s₂ with
    | error fault => rfl
    | ok s₃ =>
      simp only [readMember]
      by_cases hid : key = "id"
      · simp only [if_pos hid]
        cases member limit depth s₃ <;> rfl
      by_cases hop : key = "op"
      · simp only [if_neg hid, if_pos hop]
        cases member limit depth s₃ <;> rfl
      by_cases hkind : key = "type"
      · simp only [if_neg hid, if_neg hop, if_pos hkind]
        cases member limit depth s₃ <;> rfl
      by_cases hpayload : key = "payload"
      · simp only [if_neg hid, if_neg hop, if_neg hkind, if_pos hpayload]
        cases verbatim limit depth s₃ <;> rfl
      · simp only [if_neg hid, if_neg hop, if_neg hkind, if_neg hpayload]
        cases Json.skipValue limit s₃ <;> rfl

/-- **What reading one more member can do**: there is none, or there is one with a name, a colon and
a value that is taken up. -/
theorem readMembers_eq_ok_iff {n : Nat} {first : Bool} {s : List Char}
    {x : LooseRequest × List Char} :
    readMembers limit depth (n + 1) first seen s = .ok x ↔
      (∃ r, nextMember first s = .ok (.done r) ∧ x = (seen, r)) ∨
        ∃ s₁ key s₂ s₃ seen' s₄, nextMember first s = .ok (.item s₁) ∧
          readString limit s₁ = .ok (key, s₂) ∧ readColon s₂ = .ok s₃ ∧
          TakesAt limit depth s₃ s₄ seen key seen' ∧
          readMembers limit depth n false seen' s₄ = .ok x := by
  constructor
  · intro h
    cases hstep : nextMember first s with
    | error fault =>
      rw [readMembers, hstep] at h
      cases h
    | ok step =>
      cases step with
      | done r =>
        rw [readMembers_done hstep] at h
        cases h
        exact .inl ⟨r, rfl, rfl⟩
      | item s₁ =>
        rw [readMembers_item hstep, bind_eq_ok] at h
        obtain ⟨⟨key, s₂⟩, hkey, h⟩ := h
        dsimp only at h
        -- A repeated field stops the reader before its value is looked at.
        split at h
        · cases h
        next hrepeats =>
        obtain ⟨s₃, hcolon, h⟩ := bind_eq_ok.mp h
        obtain ⟨⟨seen', s₄⟩, hmember, h⟩ := bind_eq_ok.mp h
        have htakes := takesAt_iff.mpr ⟨eq_false_of_ne_true hrepeats, hmember⟩
        exact .inr ⟨s₁, key, s₂, s₃, seen', s₄, rfl, hkey, hcolon, htakes, h⟩
  · rintro (⟨r, hstep, rfl⟩ | ⟨s₁, key, s₂, s₃, seen', s₄, hstep, hkey, hcolon, htakes, h⟩)
    · exact readMembers_done hstep
    · obtain ⟨hrepeats, hmember⟩ := takesAt_iff.mp htakes
      simp only [readMembers_item hstep, hkey, bind, Except.bind, hrepeats, hcolon, hmember, h,
        Bool.false_eq_true, if_false]

end Members

/-! ## Names -/

/-- A name in front of its colon: a reader that gets past it comes where a skipper does, and finds
what the name says. -/
theorem exists_name {name : List Char} (h : NameText name) {limit : Nat}
    (hlimit : name.length ≤ limit) (t : List Char) :
    ∃ inner rest, skipBlanks (name ++ ':' :: t) = '"' :: inner ∧
      readColon rest = .ok t ∧
      ∀ key r, readString limit inner = .ok (key, r) ↔ unquote? name = some key ∧ r = rest := by
  -- the skipper is not stopped by what follows the name
  obtain ⟨inner, rest, hquote, hskip, hcolon⟩ := h.skipped
    (Nat.le_add_right name.length (':' :: t).length) t
  rw [← List.length_append] at hskip
  have hlength : inner.length ≤ (name ++ ':' :: t).length :=
    Nat.le_of_lt (length_of_skipBlanks hquote)
  refine ⟨inner, rest, hquote, hcolon, fun key r => ⟨fun hread => ?_, ?_⟩⟩
  · have hrest : r = rest := by
      rw [skipString_of_readString hlength hread] at hskip
      exact Except.ok.inj hskip
    subst hrest
    obtain ⟨before, hbefore, hname⟩ := exists_blanks (name ++ ':' :: t)
    obtain ⟨quoted, rfl, hquoted⟩ := unquote?_of_readString hread
    obtain ⟨after, hafter, rfl⟩ := readColon_ok hcolon
    have htext : name ++ ':' :: t = (before ++ '"' :: (quoted ++ after)) ++ ':' :: t := by
      rw [hname, hquote]
      simp only [List.append_assoc, List.cons_append]
    rw [List.append_left_inj] at htext
    exact ⟨by rw [htext]; exact hquoted before after hbefore hafter, rfl⟩
  · rintro ⟨hname, rfl⟩
    obtain ⟨before, quoted, after, hbefore, hafter, rfl, -, hquoted⟩ :=
      exists_string_of_unquote? hname
    simp only [List.append_assoc, List.cons_append] at hquote
    rw [skipBlanks_blanks hbefore, skipBlanks_cons rfl] at hquote
    obtain rfl := (List.cons.inj hquote).2
    have hread : readString limit (quoted ++ (after ++ ':' :: t)) =
        .ok (key, after ++ ':' :: t) := by
      refine hquoted limit _ ?_
      simp only [List.length_append, List.length_cons] at hlimit
      omega
    rw [skipString_of_readString hlength hread] at hskip
    rw [hread, Except.ok.inj hskip]

/-! ## All members -/

section Source

variable {limit depth n : Nat} {first : Bool} {seen loose : LooseRequest} {m : Member}
  {ms : List Member} {gap t : List Char}

/-- A closing brace ends an object. -/
theorem nextMember_nil (hgap : Blanks gap) :
    nextMember first (gap ++ (membersSource first [] ++ '\x7d' :: t)) = .ok (.done t) := by
  have hnone : membersSource first [] = [] := by cases first <;> rfl
  rw [hnone]
  exact nextMember_close first hgap t

/-- A reader of objects comes to the next name, behind its comma and its blanks. -/
theorem nextMember_cons (hgap : Blanks gap) {u inner : List Char}
    (h : skipBlanks (m.1 ++ ':' :: (m.2 ++ (membersSource false ms ++ u))) = '"' :: inner) :
    nextMember first (gap ++ (membersSource first (m :: ms) ++ u)) = .ok (.item inner) := by
  have hsource : m.source ++ ((ms.map Member.source).flatMap (fun y => ',' :: y) ++ u) =
      m.1 ++ ':' :: (m.2 ++ (membersSource false ms ++ u)) := by
    simp only [Member.source, List.append_assoc, List.cons_append, membersSource, between]
  rw [nextMember, skipBlanks_blanks hgap]
  cases first with
  | true =>
    rw [membersSource, List.map_cons, between, commaSeparated, List.append_assoc, hsource, h]
    rfl
  | false =>
    rw [membersSource, List.map_cons, between, List.flatMap_cons, List.cons_append,
      List.cons_append, List.append_assoc, hsource, skipBlanks_cons rfl]
    simp only [h]
    rfl

/-- One member of an object that is written out. -/
theorem readMembers_cons_iff (hgap : Blanks gap) (hname : NameText m.1)
    (hlimit : m.1.length ≤ limit) {x : LooseRequest × List Char} :
    readMembers limit depth (n + 1) first seen
        (gap ++ (membersSource first (m :: ms) ++ '\x7d' :: t)) = .ok x ↔
      ∃ key seen' r, unquote? m.1 = some key ∧
        TakesAt limit depth (m.2 ++ (membersSource false ms ++ '\x7d' :: t)) r seen key seen' ∧
        readMembers limit depth n false seen' r = .ok x := by
  obtain ⟨inner, rest, hquote, hcolon, hread⟩ := exists_name hname hlimit
    (m.2 ++ (membersSource false ms ++ '\x7d' :: t))
  have hstep : nextMember first (gap ++ (membersSource first (m :: ms) ++ '\x7d' :: t)) =
      .ok (.item inner) := nextMember_cons hgap hquote
  rw [readMembers_eq_ok_iff]
  constructor
  · rintro (⟨r, hdone, -⟩ | ⟨s₁, key, s₂, s₃, seen', s₄, hitem, hkey, hcolon', htakes, h⟩)
    · rw [hstep] at hdone
      cases hdone
    · rw [hstep] at hitem
      cases hitem
      obtain ⟨hmeans, rfl⟩ := (hread key s₂).mp hkey
      rw [hcolon] at hcolon'
      cases hcolon'
      exact ⟨key, seen', s₄, hmeans, htakes, h⟩
  · rintro ⟨key, seen', r, hmeans, htakes, h⟩
    exact .inr ⟨inner, key, rest, _, seen', r, hstep, (hread key rest).mpr ⟨hmeans, rfl⟩, hcolon,
      htakes, h⟩

/-- The members behind the first one are shorter than all of them. -/
theorem length_membersSource_cons (first : Bool) (m : Member) (ms : List Member) :
    m.1.length + m.2.length + (membersSource false ms).length <
      (membersSource first (m :: ms)).length := by
  cases first
  all_goals
    simp only [membersSource, between, List.map_cons, List.flatMap_cons, commaSeparated,
      Member.source, List.length_append, List.length_cons]
    omega

/-- **An object that is read gathers what stands in its members**, and is read to its end. By
induction on the members, with what was seen so far. -/
theorem gathers_of_readMembers (hnames : ∀ m ∈ ms, NameText m.1)
    (hvalues : ∀ m ∈ ms, WellFormed m.2) (hgap : Blanks gap)
    (hlimit : (gap ++ (membersSource first ms ++ '\x7d' :: t)).length ≤ limit)
    {r : List Char}
    (h : readMembers limit depth n first seen (gap ++ (membersSource first ms ++ '\x7d' :: t)) =
      .ok (loose, r)) :
    Gathers (Found (member limit depth)) (Found (verbatim limit depth)) seen ms loose ∧ r = t := by
  induction ms generalizing n first seen gap with
  | nil =>
    cases n with
    | zero => cases h
    | succ n =>
      rw [readMembers_done (nextMember_nil hgap)] at h
      cases h
      exact ⟨gathers_nil _ _ _, rfl⟩
  | cons m ms ih =>
    cases n with
    | zero => cases h
    | succ n =>
      have hlength := length_membersSource_cons first m ms
      simp only [List.length_append, List.length_cons] at hlimit
      rw [readMembers_cons_iff hgap (hnames m List.mem_cons_self) (by omega)] at h
      obtain ⟨key, seen', r', hmeans, htakes, h⟩ := h
      have ht : EndsNumber (membersSource false ms ++ '\x7d' :: t) :=
        endsNumber_separated (.inr rfl) (ms.map Member.source) t
      -- the value is read as far as it is skipped, which is up to the blanks behind it
      obtain ⟨depth', hdepth, hskip⟩ := skips_of_takesAt htakes (by
        simp only [List.length_append, List.length_cons]
        omega)
      have hshorter := length_of_skip (skipNested_ok limit depth') hskip
      obtain ⟨gap', hgap', rfl⟩ :=
        (hvalues m List.mem_cons_self).rest_of_skip ht (by omega) (by omega) hskip
      obtain ⟨hrest, hr⟩ := ih (fun m' h => hnames m' (List.mem_cons_of_mem m h))
        (fun m' h => hvalues m' (List.mem_cons_of_mem m h)) hgap' (by
          simp only [List.length_append, List.length_cons] at hshorter ⊢
          omega) h
      refine ⟨(gathers_cons_iff hmeans).mpr ⟨seen', ?_, hrest⟩, hr⟩
      exact htakes.imp (fun a ha => ⟨_, gap', ht, hgap', ha⟩) (fun a ha => ⟨_, gap', ht, hgap', ha⟩)
        fun _ => trivial

/-- A member whose value can be read is taken up. -/
theorem exists_takesAt {key : String} {seen' : LooseRequest} (hvalue : WellFormed m.2)
    (hlimit : m.2.length ≤ limit) {u : List Char} (hu : EndsNumber u)
    (h : Takes (ReadsAs (member limit depth) m.2) (ReadsAs (verbatim limit depth) m.2) True seen key
      seen') :
    ∃ gap, Blanks gap ∧ TakesAt limit depth (m.2 ++ u) (gap ++ u) seen key seen' := by
  cases h with
  | id hfresh h =>
    obtain ⟨gap, hgap, hread⟩ := h u hu
    exact ⟨gap, hgap, .id hfresh hread⟩
  | op hfresh h =>
    obtain ⟨gap, hgap, hread⟩ := h u hu
    exact ⟨gap, hgap, .op hfresh hread⟩
  | kind hfresh h =>
    obtain ⟨gap, hgap, hread⟩ := h u hu
    exact ⟨gap, hgap, .kind hfresh hread⟩
  | payload hfresh h =>
    obtain ⟨gap, hgap, hread⟩ := h u hu
    exact ⟨gap, hgap, .payload hfresh hread⟩
  | other hkey _ =>
    obtain ⟨gap, hgap, hskip⟩ := hvalue.passes hlimit (Nat.le_succ_of_le hlimit) u hu
    exact ⟨gap, hgap, .other hkey hskip⟩

/-- **An object whose members can be read is read**, in whatever order they come. -/
theorem readMembers_of_gathers (hvalues : ∀ m ∈ ms, WellFormed m.2) (hgap : Blanks gap)
    (hlimit : (membersSource first ms).length ≤ limit) (hn : ms.length < n)
    (h : Gathers (ReadsAs (member limit depth)) (ReadsAs (verbatim limit depth)) seen ms loose) :
    readMembers limit depth n first seen (gap ++ (membersSource first ms ++ '\x7d' :: t)) =
      .ok (loose, t) := by
  obtain ⟨n, rfl⟩ : ∃ k, n = k + 1 := ⟨n - 1, by omega⟩
  -- Induction on the members; one round reads a member and leaves the blanks behind it.
  induction ms generalizing n first seen gap with
  | nil => rw [readMembers_done (nextMember_nil hgap), h.eq_of_nil]
  | cons m ms ih =>
    rw [List.length_cons] at hn
    obtain ⟨n, rfl⟩ : ∃ k, n = k + 1 := ⟨n - 1, by omega⟩
    have hlength := length_membersSource_cons first m ms
    obtain ⟨key, hmeans⟩ := Option.isSome_iff_exists.mp (h.named m List.mem_cons_self)
    obtain ⟨seen', htakes, hrest⟩ := (gathers_cons_iff hmeans).mp h
    obtain ⟨gap', hgap', htakes'⟩ := exists_takesAt (hvalues m List.mem_cons_self) (by omega)
      (endsNumber_separated (.inr rfl) (ms.map Member.source) t) htakes
    rw [readMembers_cons_iff hgap (nameText_of_unquote? hmeans) (by omega)]
    refine ⟨key, seen', _, hmeans, htakes', ?_⟩
    exact ih (fun m' h => hvalues m' (List.mem_cons_of_mem m h)) hgap' (by omega) hrest n (by omega)

/-- What is read as the members of an object are members. By induction on the repetitions. -/
theorem exists_members_of_readMembers {s r : List Char} (hlimit : s.length ≤ limit)
    (h : readMembers limit depth n first seen s = .ok (loose, r)) :
    ∃ gap ms, Blanks gap ∧ (∀ m ∈ ms, NameText m.1) ∧ (∀ m ∈ ms, WellFormed m.2) ∧
      s = gap ++ (membersSource first ms ++ '\x7d' :: r) := by
  induction n generalizing first seen s with
  | zero => cases h
  | succ n ih =>
    rw [readMembers_eq_ok_iff] at h
    rcases h with ⟨r', hdone, heq⟩ | ⟨s₁, key, s₂, s₃, seen', s₄, hstep, hkey, hcolon, htakes, h⟩
    · cases heq
      obtain ⟨gap, hgap, rfl⟩ := skipToMember_done (skipToMember_of_nextMember hdone)
      refine ⟨gap, [], hgap, fun _ h => absurd h List.not_mem_nil,
        fun _ h => absurd h List.not_mem_nil, ?_⟩
      cases first <;> rfl
    · have hlength := length_of_nextMember hstep
      have hkey' : skipString limit s₁ = .ok s₂ := skipString_of_readString (by omega) hkey
      have hlength' := length_of_skipString hkey'
      have hlength'' := length_of_readColon hcolon
      obtain ⟨depth', -, hskip⟩ := skips_of_takesAt htakes (by omega)
      have hshorter := length_of_skip (skipNested_ok limit depth') hskip
      obtain ⟨gap', ms, hgap', hnames, hvalues, rfl⟩ := ih (by omega) h
      -- the blanks in front of the next comma belong to this value
      have hmember : ∀ before, Blanks before → ∃ m : Member, NameText m.1 ∧ WellFormed m.2 ∧
          before ++ '"' :: s₁ = m.source ++ (membersSource false ms ++ '\x7d' :: r) := by
        intro before hbefore
        obtain ⟨name, text, hname, htext, heq⟩ :=
          skipMember_ok (skipNested_ok limit depth') hkey' hcolon hskip hbefore
        refine ⟨(name, text ++ gap'), hname, htext.append_blanks hgap', ?_⟩
        rw [heq, Member.source]
        simp only [List.append_assoc, List.cons_append]
      have hskipped := skipToMember_of_nextMember hstep
      cases first with
      | true =>
        obtain ⟨before, hbefore, rfl⟩ := skipToMember_first hskipped
        obtain ⟨m, hname, hvalue, heq⟩ := hmember before hbefore
        refine ⟨[], m :: ms, blanks_nil, List.forall_mem_cons.mpr ⟨hname, hnames⟩,
          List.forall_mem_cons.mpr ⟨hvalue, hvalues⟩, ?_⟩
        rw [heq, membersSource, membersSource, List.map_cons, between, commaSeparated, between,
          List.nil_append, List.append_assoc]
      | false =>
        obtain ⟨gap, before, hgap, hbefore, rfl⟩ := skipToMember_next hskipped
        obtain ⟨m, hname, hvalue, heq⟩ := hmember before hbefore
        refine ⟨gap, m :: ms, hgap, List.forall_mem_cons.mpr ⟨hname, hnames⟩,
          List.forall_mem_cons.mpr ⟨hvalue, hvalues⟩, ?_⟩
        rw [heq, membersSource, membersSource, List.map_cons, between, between, List.flatMap_cons,
          List.append_assoc, List.cons_append]

end Source

end LooseRequest

end WsGateway
