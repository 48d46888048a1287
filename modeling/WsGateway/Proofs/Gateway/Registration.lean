import Mathlib.Data.List.Induction
import WsGateway.Proofs.Gateway.UpgradePath
import WsGateway.Proofs.Text.ByteOrder

/-!
# Registrations

Handlers of operations and handlers of paths are registered under names, by calls that may fail.
What both kinds of tables have in common is a `Router`. It keeps the first handler of each name
(`Router.KeepsFirst`): a call succeeds just if its text makes a name that no call before has
registered, every other call changes nothing, and what is found under a name is the handler of the
one call that registered it. This needs no more of a router than what one call does
(`Router.Regular`).

For operations the text is the name. For paths the name stands between slashes in the text, so that
several texts make the same name (`Http.Routes.MakesSegment`); a lookup takes a name only as it is.
-/

namespace WsGateway

/-- A table of handlers by name: how handlers are registered, how one is looked up, and which names
are listed. -/
structure Router (η : Type) where
  register : FinMap String η → String → η → Except Error (FinMap String η)
  lookup : FinMap String η → String → Option η
  names : FinMap String η → List String

namespace Router

variable {η : Type}

/-- What a call gives and the table after it; a call that fails leaves the table. -/
def call (R : Router η) (t : FinMap String η) (c : String × η) :
    Except Error Unit × FinMap String η :=
  match R.register t c.1 c.2 with
  | .ok t' => (.ok (), t')
  | .error e => (.error e, t)

def after (R : Router η) (cs : List (String × η)) : FinMap String η :=
  cs.foldl (fun t c => (R.call t c).2) .empty

/-- What a call gives behind others. -/
def outcome (R : Router η) (cs : List (String × η)) (c : String × η) : Except Error Unit :=
  (R.call (R.after cs) c).1

/-- One of the calls registered the handler under the name. -/
def Registered (R : Router η) (Makes : String → String → Prop) (cs : List (String × η))
    (name : String) (h : η) : Prop :=
  ∃ before text rest, cs = before ++ (text, h) :: rest ∧ Makes text name ∧
    R.outcome before (text, h) = .ok ()

/-- **Registrations are never overwritten**, where texts make names and these are the errors of a
text that makes none and of a name that is taken. -/
structure KeepsFirst (R : Router η) (Makes : String → String → Prop)
    (malformed taken : String → Error) : Prop where
  /-- A call succeeds just if its text makes a name that is not registered yet. -/
  succeeds_iff : ∀ cs text h, R.outcome cs (text, h) = .ok () ↔
    ∃ name, Makes text name ∧ ∀ h', ¬ R.Registered Makes cs name h'
  of_malformed : ∀ cs text h, (∀ name, ¬ Makes text name) →
    R.outcome cs (text, h) = .error (malformed text)
  of_taken : ∀ cs text name h h', Makes text name → R.Registered Makes cs name h' →
    R.outcome cs (text, h) = .error (taken name)
  /-- A call that fails changes nothing. -/
  of_failed : ∀ cs c e, R.outcome cs c = .error e → R.after (cs ++ [c]) = R.after cs
  /-- No name is registered twice. -/
  once : ∀ before between text text' name h h', Makes text name → Makes text' name →
    R.outcome before (text, h) = .ok () →
      R.outcome (before ++ (text, h) :: between) (text', h') ≠ .ok ()
  /-- What is found is what was registered, under just this name. -/
  lookup_iff : ∀ cs name h, R.lookup (R.after cs) name = some h ↔ R.Registered Makes cs name h
  /-- Later calls do not change what is found. -/
  kept : ∀ cs more name h, R.lookup (R.after cs) name = some h →
    R.lookup (R.after (cs ++ more)) name = some h
  mem_names_iff : ∀ cs name, name ∈ R.names (R.after cs) ↔ ∃ h, R.Registered Makes cs name h
  /-- The names are listed in the order of their octets. -/
  ascending : ∀ cs, (R.names (R.after cs)).Pairwise fun a b => Text.octets a < Text.octets b

/-- What one call does to any table. -/
structure Regular (R : Router η) (Makes : String → String → Prop)
    (malformed taken : String → Error) : Prop where
  unique : ∀ text name name', Makes text name → Makes text name' → name = name'
  register_of_malformed : ∀ t text h, (∀ name, ¬ Makes text name) →
    R.register t text h = .error (malformed text)
  register_of_makes : ∀ t text name h, Makes text name → R.register t text h =
    if (FinMap.get? t name).isSome then .error (taken name) else .ok (t.insert name h)
  lookup_eq : ∀ t name, R.lookup t name = FinMap.get? t name
  names_eq : ∀ t, R.names t = (FinMap.keys t).mergeSort fun a b => decide (a ≤ b)

/-- Different names in sorted order are in strictly ascending order. -/
theorem pairwise_sorted (t : FinMap String η) :
    (t.keys.mergeSort fun a b => decide (a ≤ b)).Pairwise (· < ·) := by
  have htotal : ∀ a b : String, (decide (a ≤ b) || decide (b ≤ a)) = true := by
    intro a b
    rw [Bool.or_eq_true, decide_eq_true_eq, decide_eq_true_eq]
    exact String.le_total a b
  have htrans : ∀ a b c : String, decide (a ≤ b) = true → decide (b ≤ c) = true →
      decide (a ≤ c) = true := by
    intro a b c hab hbc
    rw [decide_eq_true_eq] at hab hbc ⊢
    exact String.le_trans hab hbc
  have hsorted := List.pairwise_mergeSort htrans htotal t.keys
  have hnodup : (t.keys.mergeSort fun a b => decide (a ≤ b)).Nodup :=
    (List.mergeSort_perm t.keys _).nodup_iff.mpr t.nodup
  exact (hsorted.and hnodup).imp fun hab => lt_of_le_of_ne (of_decide_eq_true hab.1) hab.2

/-- One call more is made on the table that the calls before it left. -/
theorem after_concat (R : Router η) (cs : List (String × η)) (c : String × η) :
    R.after (cs ++ [c]) = (R.call (R.after cs) c).2 := by
  rw [after, List.foldl_append]
  rfl

/-- A table changes only by a call that succeeds. -/
theorem after_concat_of_error {R : Router η} {cs : List (String × η)} {c : String × η} {e : Error}
    (h : R.outcome cs c = .error e) : R.after (cs ++ [c]) = R.after cs := by
  rw [after_concat]
  unfold outcome at h
  unfold call at h ⊢
  split at h
  · cases h
  · rfl

section

variable {R : Router η} {Makes : String → String → Prop} {cs : List (String × η)}
  {name : String} {h : η}

/-- What is registered under a name stays registered, whatever is called later. -/
theorem Registered.append (hr : R.Registered Makes cs name h) (more : List (String × η)) :
    R.Registered Makes (cs ++ more) name h := by
  obtain ⟨before, text, rest, rfl, hmakes, hok⟩ := hr
  exact ⟨before, text, rest ++ more, by simp, hmakes, hok⟩

/-- With one more call, that call or one of those before registered the handler. -/
theorem registered_concat {c : String × η} : R.Registered Makes (cs ++ [c]) name h ↔
    R.Registered Makes cs name h ∨ c.2 = h ∧ Makes c.1 name ∧ R.outcome cs c = .ok () := by
  constructor
  · rintro ⟨before, text, rest, hsplit, hmakes, hok⟩
    rcases List.eq_nil_or_concat rest with rfl | ⟨front, last, rfl⟩
    · obtain ⟨rfl, hc⟩ := List.append_inj' hsplit rfl
      cases hc
      exact .inr ⟨rfl, hmakes, hok⟩
    · rw [List.concat_eq_append, ← List.cons_append, ← List.append_assoc] at hsplit
      obtain ⟨rfl, -⟩ := List.append_inj' hsplit rfl
      exact .inl ⟨before, text, front, rfl, hmakes, hok⟩
  · rintro (hold | ⟨rfl, hmakes, hok⟩)
    · exact hold.append [c]
    · exact ⟨cs, c.1, [], rfl, hmakes, hok⟩

end

namespace Regular

variable {R : Router η} {Makes : String → String → Prop} {malformed taken : String → Error}

/-- A text that makes no name is refused and the table is as it was. -/
theorem call_of_malformed (hR : R.Regular Makes malformed taken) (t : FinMap String η)
    {text : String} (h : η) (hnone : ∀ name, ¬ Makes text name) :
    R.call t (text, h) = (.error (malformed text), t) := by
  rw [call, hR.register_of_malformed t text h hnone]

/-- A name that is taken is refused and keeps the handler it has. -/
theorem call_of_taken (hR : R.Regular Makes malformed taken) {t : FinMap String η}
    {text name : String} (h : η) (hmakes : Makes text name) {h' : η}
    (hget : t.get? name = some h') : R.call t (text, h) = (.error (taken name), t) := by
  rw [call, hR.register_of_makes t text name h hmakes, hget]
  rfl

/-- A name that is free gets the handler. -/
theorem call_of_free (hR : R.Regular Makes malformed taken) {t : FinMap String η}
    {text name : String} (h : η) (hmakes : Makes text name) (hget : t.get? name = none) :
    R.call t (text, h) = (.ok (), t.insert name h) := by
  rw [call, hR.register_of_makes t text name h hmakes, hget]
  rfl

/-- **One call** puts its handler under the name that its text makes if there is none there yet, and
changes nothing else. -/
theorem get?_call (hR : R.Regular Makes malformed taken) (t : FinMap String η) (c : String × η)
    (name : String) (h : η) : (R.call t c).2.get? name = some h ↔
      t.get? name = some h ∨ c.2 = h ∧ Makes c.1 name ∧ (R.call t c).1 = .ok () := by
  -- A text makes one name, so a call touches at most one key.
  by_cases hmakes : ∃ made, Makes c.1 made
  · obtain ⟨made, hmade⟩ := hmakes
    cases hget : t.get? made with
    | some h' =>
      rw [hR.call_of_taken c.2 hmade hget]
      simp
    | none =>
      rw [hR.call_of_free c.2 hmade hget, FinMap.get?_insert]
      by_cases hname : name = made
      · subst hname
        simp [hget, hmade]
      · have hother : ¬ Makes c.1 name := fun hm => hname (hR.unique _ _ _ hm hmade)
        simp [hname, hother]
  · have hnone : ∀ made, ¬ Makes c.1 made := fun made hm => hmakes ⟨made, hm⟩
    rw [hR.call_of_malformed t c.2 hnone]
    simp

/-- **After any calls** a name has the handler that one of them registered. By induction on the
calls, the last one apart. -/
theorem get?_after (hR : R.Regular Makes malformed taken) (cs : List (String × η)) (name : String)
    (h : η) : (R.after cs).get? name = some h ↔ R.Registered Makes cs name h := by
  induction cs using List.reverseRecOn with
  | nil =>
    refine iff_of_false nofun ?_
    rintro ⟨before, text, rest, hnil, -⟩
    exact absurd hnil.symm (List.append_ne_nil_of_right_ne_nil before (List.cons_ne_nil _ rest))
  | append_singleton cs c ih =>
    rw [after_concat, hR.get?_call, ih, registered_concat]
    rfl

/-- A name is free just if no call has registered it. -/
theorem get?_after_eq_none (hR : R.Regular Makes malformed taken) (cs : List (String × η))
    (name : String) : (R.after cs).get? name = none ↔ ∀ h, ¬ R.Registered Makes cs name h := by
  rw [Option.eq_none_iff_forall_ne_some]
  exact forall_congr' fun h => not_congr (hR.get?_after cs name h)

/-- A call succeeds just if its text makes a name that no earlier call has registered. -/
theorem outcome_eq_ok_iff (hR : R.Regular Makes malformed taken) (cs : List (String × η))
    (text : String) (h : η) : R.outcome cs (text, h) = .ok () ↔
      ∃ name, Makes text name ∧ ∀ h', ¬ R.Registered Makes cs name h' := by
  by_cases hmakes : ∃ made, Makes text made
  · obtain ⟨made, hmade⟩ := hmakes
    have honly : (∃ name, Makes text name ∧ ∀ h', ¬ R.Registered Makes cs name h') ↔
        (R.after cs).get? made = none := by
      rw [hR.get?_after_eq_none]
      constructor
      · rintro ⟨name, hname, hfree⟩
        rwa [hR.unique _ _ _ hmade hname]
      · exact fun hfree => ⟨made, hmade, hfree⟩
    rw [honly, outcome]
    cases hget : (R.after cs).get? made with
    | some h' =>
      rw [hR.call_of_taken h hmade hget]
      exact iff_of_false nofun nofun
    | none =>
      rw [hR.call_of_free h hmade hget]
      exact iff_of_true rfl rfl
  · have hnone : ∀ made, ¬ Makes text made := fun made hm => hmakes ⟨made, hm⟩
    rw [outcome, hR.call_of_malformed _ h hnone]
    exact iff_of_false nofun fun ⟨name, hname, _⟩ => hnone name hname

/-- A router that does with each call what it should keeps the first handler of each name. -/
theorem keepsFirst (hR : R.Regular Makes malformed taken) : R.KeepsFirst Makes malformed taken where
  succeeds_iff := hR.outcome_eq_ok_iff
  of_malformed cs text h hnone := by rw [outcome, hR.call_of_malformed _ h hnone]
  of_taken cs text name h h' hmakes hreg := by
    rw [outcome, hR.call_of_taken h hmakes ((hR.get?_after cs name h').mpr hreg)]
  of_failed _ _ _ herror := after_concat_of_error herror
  once before between text text' name h h' hmakes hmakes' hok hok' := by
    -- If both calls succeeded, the name was free after the first one.
    obtain ⟨name', hname', hfree⟩ := (hR.outcome_eq_ok_iff _ _ _).mp hok'
    obtain rfl := hR.unique _ _ _ hmakes' hname'
    exact hfree h ⟨before, text, between, rfl, hmakes, hok⟩
  lookup_iff cs name h := by rw [hR.lookup_eq, hR.get?_after]
  kept cs more name h hfound := by
    rw [hR.lookup_eq, hR.get?_after] at hfound ⊢
    exact hfound.append more
  mem_names_iff cs name := by
    rw [hR.names_eq, (List.mergeSort_perm _ _).mem_iff, FinMap.mem_keys_iff,
      Option.isSome_iff_exists]
    exact exists_congr fun h => hR.get?_after cs name h
  ascending cs := by
    rw [hR.names_eq]
    refine (pairwise_sorted (R.after cs)).imp fun {a b} hab => ?_
    exact Text.octets_lt_iff.mpr hab

end Regular

end Router

/-! ## Operations -/

namespace Operations

def router : Router OpHandler := ⟨register, lookup, names⟩

/-- An operation is registered under the text itself, unless that is empty. -/
def MakesName (text name : String) : Prop := text = name ∧ name ≠ ""

theorem regular_router : router.Regular MakesName
    (fun _ => .config "operation name must not be empty")
    (fun name => .duplicate ("operation already registered: " ++ name)) where
  unique _ _ _ h h' := h.1.symm.trans h'.1
  register_of_malformed t text h hnone := by
    have hempty : text = "" := by
      by_contra hne
      exact hnone text ⟨rfl, hne⟩
    subst hempty
    rfl
  register_of_makes t text name h hmakes := by
    obtain ⟨rfl, hne⟩ := hmakes
    show (if text.isEmpty then _ else _) = _
    rw [if_neg (by rwa [String.isEmpty_iff])]
    rfl
  lookup_eq _ _ := rfl
  names_eq _ := rfl

end Operations

/-! ## Paths -/

namespace Http

/-- The text is the name between slashes. -/
def Wraps (text name : List Char) : Prop :=
  ∃ m n, text = List.replicate m '/' ++ name ++ List.replicate n '/'

theorem slashes_takeWhile (cs : List Char) :
    ∃ n, cs.takeWhile (· = '/') = List.replicate n '/' := by
  have hslash : ∀ c ∈ cs.takeWhile (· = '/'), c = '/' := by
    intro c hc
    simpa using List.mem_takeWhile_imp hc
  exact ⟨_, List.eq_replicate_of_mem hslash⟩

/-- What stripping takes away are slashes. -/
theorem wraps_stripSlashes (text : List Char) : Wraps text (stripSlashes text) := by
  obtain ⟨m, hm⟩ := slashes_takeWhile text
  obtain ⟨n, hn⟩ := slashes_takeWhile (text.dropWhile (· = '/')).reverse
  have hend : stripSlashes text ++ List.replicate n '/' = text.dropWhile (· = '/') := by
    show (List.dropWhile _ _).reverse ++ _ = _
    rw [← List.reverse_replicate, ← hn, ← List.reverse_append, List.takeWhile_append_dropWhile,
      List.reverse_reverse]
  refine ⟨m, n, ?_⟩
  rw [List.append_assoc, hend, ← hm, List.takeWhile_append_dropWhile]

theorem dropWhile_slashes (m : Nat) {cs : List Char} (rest : List Char) (hne : cs ≠ [])
    (h : '/' ∉ cs) :
    (List.replicate m '/' ++ (cs ++ rest)).dropWhile (· = '/') = cs ++ rest := by
  rw [List.dropWhile_append_of_pos fun c hc => decide_eq_true (List.eq_of_mem_replicate hc)]
  cases cs with
  | nil => exact absurd rfl hne
  | cons c cs =>
    have hc : c ≠ '/' := fun hc => h (hc ▸ List.mem_cons_self)
    exact List.dropWhile_cons_of_neg (by simpa using hc)

/-- A name without slashes comes back from between them. -/
theorem stripSlashes_of_wraps {text name : List Char} (hwraps : Wraps text name) (hne : name ≠ [])
    (h : '/' ∉ name) : stripSlashes text = name := by
  obtain ⟨m, n, rfl⟩ := hwraps
  have hrev : (name ++ List.replicate n '/').reverse =
      List.replicate n '/' ++ (name.reverse ++ []) := by
    rw [List.reverse_append, List.reverse_replicate, List.append_nil]
  unfold stripSlashes
  rw [List.append_assoc, dropWhile_slashes m _ hne h, hrev,
    dropWhile_slashes n [] (by simpa using hne) (by simpa using h), List.append_nil,
    List.reverse_reverse]

namespace Routes

variable {η : Type}

def router (η : Type) : Router η := ⟨register, lookup, names⟩

/-- A path is registered under what stands between the slashes at the ends of the text, if this is
one segment. -/
def MakesSegment (text name : String) : Prop := Wraps text.toList name.toList ∧ IsSegment name

/-- The routes refuse a prefix that is not a single segment and one that is taken, and register
every other under its segment. -/
theorem regular_router (η : Type) : (router η).Regular MakesSegment
    (fun text => .config ("path prefix must be a single segment: " ++
      Text.quoted (String.ofList (stripSlashes text.toList))))
    (fun name => .duplicate ("path prefix already registered: " ++ name)) where
  unique text name name' h h' := by
    have hname := stripSlashes_of_wraps h.1 h.2.1 h.2.2
    have hname' := stripSlashes_of_wraps h'.1 h'.2.1 h'.2.2
    exact String.toList_inj.mp (hname.symm.trans hname')
  register_of_malformed t text h hnone := by
    show register t text h = _
    unfold register
    dsimp only
    rw [if_pos]
    -- If neither condition of the refusal held, the stripped text would be a segment.
    by_contra hcond
    rw [Bool.or_eq_true, not_or, List.isEmpty_iff, List.contains_iff_mem] at hcond
    refine hnone (String.ofList (stripSlashes text.toList)) ⟨?_, ?_⟩
    · rw [String.toList_ofList]
      exact wraps_stripSlashes text.toList
    · rwa [IsSegment, String.toList_ofList]
  register_of_makes t text name h hmakes := by
    obtain ⟨hwraps, hne, hslash⟩ := hmakes
    show register t text h = _
    unfold register
    dsimp only
    rw [stripSlashes_of_wraps hwraps hne hslash, String.ofList_toList, if_neg]
    · rfl
    · rw [Bool.or_eq_true, not_or, List.isEmpty_iff, List.contains_iff_mem]
      exact ⟨hne, hslash⟩
  lookup_eq _ _ := rfl
  names_eq _ := rfl

end Routes

end Http

/-! ## Both tables -/

/-- **Registrations are never overwritten**, neither of operations nor of paths, whatever texts and
handlers they are called with. A text that is empty makes no name of an operation; one that is no
single segment between its slashes makes no name of a path. -/
theorem Router.keeps_first :
    (Operations.router.KeepsFirst Operations.MakesName
        (fun _ => .config "operation name must not be empty")
        (fun name => .duplicate ("operation already registered: " ++ name))) ∧
      ∀ η : Type, (Http.Routes.router η).KeepsFirst Http.Routes.MakesSegment
        (fun text => .config ("path prefix must be a single segment: " ++
          Text.quoted (String.ofList (Http.stripSlashes text.toList))))
        (fun name => .duplicate ("path prefix already registered: " ++ name)) :=
  ⟨Operations.regular_router.keepsFirst, fun η => (Http.Routes.regular_router η).keepsFirst⟩

end WsGateway
