import WsGateway.Demux
import WsGateway.Proofs.Gateway.Construction
import WsGateway.Proofs.Operation.Builtin
import WsGateway.Proofs.Operation.RangePayload
import WsGateway.Session

/-!
# What a gateway answers

With the built-in operations, the answers to a text are a function of the text and of whether its
connection has the subscription that it names (`answersToText`): the contents of its operation one
by one, or one error. Handling the text sends exactly these, so that its connection's queue grows by
as many of the first ones as it still accepts, and no other queue changes (`onFrame_answers`).
-/

namespace WsGateway

open Json (Value)

/-! ## The built-in operations together -/

/-- The contents of a request for a built-in operation. -/
def builtinContents? (r : Request) : Option (Except Error (List Value)) :=
  if r.op = Ping.op then some (Ping.contents r)
  else if r.op = Echo.op then some (Echo.contents r)
  else if r.op = Range.op then some (Range.contents r)
  else if r.op = Heartbeat.op then some (Heartbeat.contents r)
  else none

namespace Gateway

/-- The operations of the gateway are the built-in ones. -/
def HasBuiltins (g : Gateway) : Prop :=
  ∀ name, g.operations.lookup name = findEntry name builtinOperations

/-- A gateway that is built with what is built in has the built-in operations. -/
theorem hasBuiltins_of_builtin {config : Config} {g : Gateway} (h : builtin config = .ok g) :
    g.HasBuiltins := by
  obtain ⟨routes, rfl⟩ := builtin_eq h
  exact fun name => rfl

end Gateway

/-- The handler of a built-in operation answers by the contents of that operation, and there is
none for any other. -/
theorem builtin_lookup (r : Request) :
    match builtinContents? r with
    | none => findEntry r.op builtinOperations = none
    | some contents => ∃ handler, findEntry r.op builtinOperations = some handler ∧
        ∀ k l, handler ⟨r, k⟩ l =
          match contents with
          | .ok vs => (.ok (), l.respond k (vs.map (answerTo r)))
          | .error e => (.error (.error e), l) := by
  unfold builtinContents? builtinOperations
  by_cases hping : r.op = Ping.op
  · simp only [findEntry, if_pos hping]
    exact ⟨_, rfl, Ping.answers r⟩
  · by_cases hecho : r.op = Echo.op
    · simp only [findEntry, if_neg hping, if_pos hecho]
      exact ⟨_, rfl, Echo.answers r⟩
    · by_cases hrange : r.op = Range.op
      · simp only [findEntry, if_neg hping, if_neg hecho, if_pos hrange]
        exact ⟨_, rfl, Range.answers r⟩
      · by_cases hheartbeat : r.op = Heartbeat.op
        · simp only [findEntry, if_neg hping, if_neg hecho, if_neg hrange, if_pos hheartbeat]
          exact ⟨_, rfl, Heartbeat.answers r⟩
        · simp only [findEntry, if_neg hping, if_neg hecho, if_neg hrange, if_neg hheartbeat]

/-! ## The answers to one request -/

/-- What is answered to a request: an error if it is refused, and else the contents of its
operation or their error. -/
def answersTo (t : Subscriptions) (k : Link) (r : Request) : DispatchOutcome × List Response :=
  match builtinContents? r with
  | none => (.unknownOp, [Switchboard.errorFor r ("no such operation: " ++ r.op)])
  | some contents =>
    if r.kind = .subscribe ∧ t.contains k.id r.id = true then
      (.rejected (Subscriptions.duplicateError r.id).message,
        [Switchboard.errorFor r (Subscriptions.duplicateError r.id).message])
    else
      match contents with
      | .ok vs => (.handled, vs.map (answerTo r))
      | .error e => (.failed e.message, [Switchboard.errorFor r e.message])

/-- What is answered to a text: an error with what was readable of it if it is no request. -/
def answersToText (t : Subscriptions) (k : Link) (text : String) : List Response :=
  match Request.parse text with
  | .error bad => [.failure 0 bad.rerid bad.op bad.error.message]
  | .ok r => (answersTo t k r).2

/-- Every answer has the id and the operation of its request. -/
theorem answersTo_correlated (t : Subscriptions) (k : Link) (r : Request) :
    ∀ x ∈ (answersTo t k r).2, x.rerid = r.id ∧ x.op = r.op := by
  have herror : ∀ message, ∀ x ∈ [Switchboard.errorFor r message],
      x.rerid = r.id ∧ x.op = r.op := by
    intro message x hx
    rw [List.mem_singleton.mp hx]
    exact ⟨rfl, rfl⟩
  unfold answersTo
  split
  · exact herror _
  · split
    · exact herror _
    · split
      · intro x hx
        obtain ⟨v, -, rfl⟩ := List.mem_map.mp hx
        exact ⟨rfl, rfl⟩
      · exact herror _

/-- **A dispatch to a built-in operation** has the outcome and sends the answers. -/
theorem Switchboard.dispatch_builtin {ops : Operations}
    (hops : ∀ name, ops.lookup name = findEntry name builtinOperations) (k : Link) (r : Request)
    (s : Switchboard) :
    (s.dispatch ops k r).1 = (answersTo s.subscriptions k r).1 ∧
      (s.dispatch ops k r).2.links =
        s.links.respond k (answersTo s.subscriptions k r).2 := by
  have hlookup := builtin_lookup r
  rw [← hops] at hlookup
  unfold answersTo
  cases hcontents : builtinContents? r with
  | none =>
    rw [hcontents] at hlookup
    rw [dispatch_unknown hlookup]
    exact ⟨rfl, rfl⟩
  | some contents =>
    rw [hcontents] at hlookup
    obtain ⟨handler, hhandler, hanswers⟩ := hlookup
    -- A SUBSCRIBE whose id is in use never gets to the handler, so the contents are not asked for.
    by_cases htaken : r.kind = .subscribe ∧ s.subscriptions.contains k.id r.id = true
    · simp only [if_pos htaken]
      rw [dispatch_taken hhandler htaken.1 htaken.2]
      exact ⟨rfl, rfl⟩
    · simp only [if_neg htaken]
      have hr : ¬ Refuses ops k r s.subscriptions := by
        rintro (hnone | hboth)
        · rw [hhandler] at hnone
          cases hnone
        · exact htaken hboth
      cases contents with
      | ok vs => exact links_dispatch_accepted hhandler hr (hanswers k s.links)
      | error e => exact links_dispatch_accepted hhandler hr (hanswers k s.links)

/-! ## The answers to one text -/

/-- What is readable of a text that is no request: its id and its operation if it has the members
of an envelope and they hold them, and else zero and none. -/
theorem Request.parse_error_cases {text : String} {bad : RequestFailure}
    (h : parse text = .error bad) :
    ((∃ fault, Json.decode LooseRequest.read text = .error fault) ∧ bad.rerid = 0 ∧
      bad.op = none) ∨
    ∃ loose, Json.decode LooseRequest.read text = .ok loose ∧
      bad.rerid = (readId loose.id.join).toOption.getD 0 ∧ bad.op = readOp loose.op.join := by
  unfold parse at h
  cases hdecode : Json.decode LooseRequest.read text with
  | error fault =>
    rw [hdecode] at h
    cases h
    exact Or.inl ⟨⟨fault, rfl⟩, rfl, rfl⟩
  | ok loose =>
    rw [hdecode] at h
    refine Or.inr ⟨loose, rfl, ?_⟩
    -- The id and the operation of the failure are what could be read of them when the check failed.
    unfold ofLoose at h
    dsimp only at h
    cases hid : readId loose.id.join with
    | error e =>
      rw [hid] at h
      cases h
      exact ⟨rfl, rfl⟩
    | ok id =>
      rw [hid] at h
      cases hop : readOp loose.op.join with
      | none =>
        rw [hop] at h
        cases h
        exact ⟨rfl, rfl⟩
      | some op =>
        rw [hop] at h
        cases hkind : readKind loose.kind.join with
        | error e =>
          simp only [hkind] at h
          cases h
          exact ⟨rfl, rfl⟩
        | ok kind =>
          simp only [hkind] at h
          cases h

/-- A payload decodes just if its own text does, to the same value. -/
theorem Request.decodePayload_eq_ok_iff {α : Type} {r : Request} {decoder : Json.Decoder α}
    {a : α} : r.decodePayload decoder = .ok a ↔ Json.decode decoder r.payloadText = .ok a := by
  unfold decodePayload
  cases Json.decode decoder r.payloadText <;> simp

namespace Gateway

theorem countOutcome_links (o : DispatchOutcome) (b : Board) :
    (countOutcome o b).links = b.links := by
  cases o <;> rfl

/-- **Handling a text sends its answers.** -/
theorem links_onFrame_text {g : Gateway} (hg : g.HasBuiltins) (elapsed : Nat) (k : Link)
    (text : String) (b : Board) :
    (g.onFrame elapsed k (.text text) b).2.links =
      b.links.respond k (answersToText b.subscriptions k text) := by
  unfold onFrame answersToText
  cases hr : Request.parse text with
  | error bad =>
    simp only [hr]
    exact Links.sendFailure_eq _ _ _ _ _
  | ok r =>
    simp only [hr]
    unfold onRequest
    show (countOutcome _ _).links = _
    rw [countOutcome_links]
    exact (Switchboard.dispatch_builtin hg k r b.switchboard).2

end Gateway

end WsGateway
