import WsGateway.Proofs.Gateway.Construction
import WsGateway.Proofs.Gateway.ClientSessions
import WsGateway.Proofs.Gateway.Ledger

/-!
# Bookkeeping

What each part of a gateway enters in the ledger. A request is entered under its route and then
what its handler does to the ledger, a text as a request or as malformed, a frame of another kind
as refused, and an upgrade when it is promised and when it comes to its end. All of them keep the
books (`Gateway.sound_onHttp`, `Session.sound_onFrame`, `Gateway.sound_completeUpgrade`,
`Board.sound_giveUpUpgrade`).

A handler of a path has the whole board in its hands. It must leave the ledger alone, or do to it
what an upgrade does (`Gateway.Discreet`); whether it answers, fails or breaks off does not matter.
The handlers that are built in are like that (`Gateway.discreet_of_builtin`).
-/

namespace WsGateway

variable {g : Gateway} {p u : Nat} {b : Board}

/-! ## Upgrade requests -/

/-- A handshake that switches is handshaking from then on. -/
theorem Handshake.negotiate_switching {h h' : Handshake} {r : Http.Request}
    {response : Http.Response} (hn : h.negotiate r = (.switching response, h')) :
    h' = ⟨.handshaking⟩ := by
  unfold negotiate at hn
  -- every check that fails rejects the request, and only the last branch switches
  split at hn
  · cases hn
  · split at hn
    · cases hn
    · split at hn
      · cases hn
      · split at hn
        · cases hn
        · cases hn
          rfl

namespace Endpoint

/-- What an upgrade request enters. -/
def upgradeEntry (ex : Exchange) (b : Board) : Entry :=
  if b.isDraining then .declined .draining
  else
    match (Handshake.start.negotiate ex.request).1 with
    | .rejected _ => .declined .rejected
    | .switching _ => .promised ex.peer

/-- The answer to an upgrade request, and the board after it. -/
theorem upgrade_eq (ex : Exchange) (b : Board) :
    upgrade ex b =
      if b.isDraining then
        (.ok (Http.failure .serviceUnavailable "Server is draining" true),
          b.countHandshake "draining")
      else
        match Handshake.start.negotiate ex.request with
        | (.rejected response, _) => (.ok response, b.countHandshake "rejected")
        | (.switching response, h) =>
          (.ok response, (b.countHandshake "switching").await ex.peer h) := by
  show (if b.isDraining then _ else _ : HttpAction Http.Response) b = _
  split
  · rfl
  · cases hn : Handshake.start.negotiate ex.request with
    | mk answer h => cases answer <;> rfl

/-- The upgrade handler posts one entry: the promise of an upgrade, or the refusal it answered. -/
theorem ledger_upgrade (ex : Exchange) (b : Board) :
    (upgrade ex b).2.ledger = b.ledger.post (upgradeEntry ex b) := by
  rw [upgrade_eq]
  unfold upgradeEntry
  split
  · rfl
  · cases hn : Handshake.start.negotiate ex.request with
    | mk answer h =>
      cases answer with
      | rejected response => rfl
      | switching response =>
        -- the entry has no room for a handshake, as there is just one that can be awaited
        rw [Handshake.negotiate_switching hn]
        rfl

/-- The upgrade handler keeps the ledger's equations. -/
theorem sound_upgrade (h : Ledger.Sound g p u b.ledger) (ex : Exchange) :
    Ledger.Sound g p u (upgrade ex b).2.ledger := by
  rw [ledger_upgrade]
  unfold upgradeEntry
  split
  · exact h.post (e := .declined .draining) trivial
  · split
    · exact h.post (e := .declined .rejected) trivial
    · exact h.post (e := .promised ex.peer) trivial

/-- Whatever the handler does, the ledger is as before, or as an upgrade leaves it. -/
def Discreet (handler : HttpHandler) : Prop :=
  ∀ ex b, (handler ex b).2.ledger = b.ledger ∨
    (handler ex b).2.ledger = (upgrade ex b).2.ledger

/-- The operational endpoints read the counters and leave the ledger alone. -/
theorem discreet_operational : ∀ e ∈ operational, Discreet e.2 := by
  intro e he ex b
  obtain ⟨_, _, _, hanswer⟩ := operational_eq he b
  rw [hanswer]
  exact .inl rfl

end Endpoint

namespace Gateway

/-! ## HTTP requests -/

/-- No handler of a path meddles with what is counted. -/
def Discreet (g : Gateway) : Prop :=
  ∀ key handler, g.routes.lookup key = some handler → Endpoint.Discreet handler

/-- A handler that a request is routed to is one of the routing table. -/
theorem lookup_of_destination {r : Http.Request} {key : String} {handler : HttpHandler}
    (h : g.destination r = .handler key handler) : g.routes.lookup key = some handler := by
  unfold destination at h
  dsimp only at h
  split at h
  · cases h
  · split at h
    · cases h
    · split at h
      · cases h
      · split at h
        · cases h
        · next hlookup =>
          cases h
          exact hlookup

/-- A failure of the handler is entered behind what it did. -/
theorem sound_runHandler {handler : HttpHandler} (hd : Endpoint.Discreet handler)
    (h : Ledger.Sound g p u b.ledger) (ex : Exchange) :
    Ledger.Sound g p u (runHandler handler ex b).2.ledger := by
  have hran : Ledger.Sound g p u (handler ex b).2.ledger := by
    rcases hd ex b with hsame | hupgrade
    · rw [hsame]
      exact h
    · rw [hupgrade]
      exact Endpoint.sound_upgrade h ex
  unfold runHandler
  cases hresult : handler ex b with
  | mk result b' =>
    rw [hresult] at hran
    cases result with
    | ok response => exact hran
    | error f => exact hran.post (e := .failure .http) trivial

/-- One HTTP request keeps the ledger's equations; a preflight is counted as an exchange of no
route. -/
theorem sound_onHttp (hg : g.Discreet) (h : Ledger.Sound g p u b.ledger) (r : Http.Request)
    (peer : Net.Address) :
    Ledger.Sound g (p + if (g.cors.preflight r).isSome then 1 else 0) u
      (g.onHttp r peer b).2.ledger := by
  unfold onHttp
  cases hc : g.cors.preflight r with
  | some response => exact h.post (e := .preflight) trivial
  | none =>
    show Ledger.Sound g p u (g.route r peer { b with counters := b.counters.httpRequest }).2.ledger
    unfold route
    cases hd : g.destination r with
    | refused status message => exact h.post (e := .request "-") (Or.inl rfl)
    | handler key handler =>
      -- it is counted before its handler runs
      have hlookup := lookup_of_destination hd
      have hcounted := h.post (e := .request key) (Or.inr (by rw [hlookup]; rfl))
      exact sound_runHandler (b := countRoute key { b with counters := b.counters.httpRequest })
        (hg key handler hlookup) hcounted _

/-! ## The handlers that are built in -/

/-- A gateway that is built with what is built in has handlers that are discreet. -/
theorem discreet_of_builtin {config : Config} (h : builtin config = .ok g) : g.Discreet :=
  everyHandler_of_builtin (fun _ _ => Or.inr rfl) Endpoint.discreet_operational h

/-! ## Frames -/

/-- The text is a request for an operation that is not registered. -/
def lacks (g : Gateway) (text : String) : Bool :=
  match Request.parse text with
  | .ok r => (g.operations.lookup r.op).isNone
  | .error _ => false

/-- The frame is such a text. -/
def lacksFrame (g : Gateway) : Frame → Bool
  | .text text => g.lacks text
  | _ => false

/-- The outcome of a dispatch keeps the ledger's equations, and an unknown operation is one more of
the unknown ones. -/
theorem sound_countOutcome (h : Ledger.Sound g p u b.ledger) (o : DispatchOutcome) :
    Ledger.Sound g p (u + if o = .unknownOp then 1 else 0) (countOutcome o b).ledger := by
  cases o with
  | unknownOp => exact h.post (e := .unknownOp) trivial
  | failed message => exact h.post (e := .failure .ws) trivial
  | handled => exact h
  | rejected message => exact h

/-- A request is entered when it is dispatched, and its outcome behind it. -/
theorem ledger_onRequest (g : Gateway) (elapsed : Nat) (k : Link) (r : Request) (b : Board) :
    ∃ b' : Board, b'.ledger = b.ledger.post (.dispatch r.op elapsed) ∧
      (g.onRequest elapsed k r b).2 =
        countOutcome (b.switchboard.dispatch g.operations k r).1 b' :=
  ⟨_, rfl, rfl⟩

/-- A text frame keeps the ledger's equations, whether it is malformed, refused or dispatched. -/
theorem sound_onText (h : Ledger.Sound g p u b.ledger) (elapsed : Nat) (k : Link) (text : String) :
    Ledger.Sound g p (u + if g.lacks text then 1 else 0)
      (g.onFrame elapsed k (.text text) b).2.ledger := by
  unfold onFrame lacks
  cases hr : Request.parse text with
  | error bad =>
    simp only [hr]
    exact h.post (e := .malformed) trivial
  | ok r =>
    simp only [hr]
    obtain ⟨b', hledger, hb'⟩ := ledger_onRequest g elapsed k r b
    have hcounted : Ledger.Sound g p u b'.ledger :=
      hledger ▸ h.post (e := .dispatch r.op elapsed) trivial
    have houtcome := sound_countOutcome hcounted (b.switchboard.dispatch g.operations k r).1
    simp only [Switchboard.dispatch_unknownOp_iff] at houtcome
    rw [hb']
    simpa only [Option.isNone_iff_eq_none] using houtcome

end Gateway

namespace Session

/-- A frame is entered if it is a text or of a kind that is refused. -/
theorem sound_onFrame {s : Session} (hs : s.handshake.state = .upgraded)
    (h : Ledger.Sound g p u b.ledger) (elapsed : Nat) (f : Frame) :
    Ledger.Sound g p (u + if g.lacksFrame f then 1 else 0) (s.onFrame g elapsed f b).2.ledger := by
  have haction : s.handshake.onFrame f = _ := if_neg (not_not_intro hs)
  unfold onFrame
  rw [haction]
  cases f with
  | text text => exact Gateway.sound_onText h elapsed s.link text
  | binary payload => exact h.post (e := .refused (.binary payload)) trivial
  | raw payload => exact h.post (e := .refused (.raw payload)) trivial
  | ping payload => exact h
  | pong payload => exact h
  | close reason => exact h

/-- The start of a session posts nothing. -/
theorem ledger_start (config : Config) (peer : Net.Address) (hs : Handshake) (b : Board) :
    (Session.start config peer hs b).2.ledger = b.ledger := by
  unfold start
  dsimp only
  split <;> rfl

end Session

/-! ## Awaited upgrades -/

/-- The ledger is as before if nobody awaits the upgrade that is taken out. -/
theorem Board.ledger_takeUpgrade_of_none {number : Nat}
    (h : b.awaited.find? (·.number == number) = none) :
    (b.takeUpgrade number).2.ledger = b.ledger := by
  have hall : b.awaited.filter (·.number != number) = b.awaited := by
    rw [List.filter_eq_self]
    intro up hup
    have hne := List.find?_eq_none.mp h up hup
    simpa using hne
  show Ledger.mk b.counters b.metrics.tallies (b.awaited.filter _) b.nextUpgrade = b.ledger
  rw [hall]
  rfl

theorem mem_numbers_of_find {ups : List Upgrade} {number : Nat} {up : Upgrade}
    (h : ups.find? (·.number == number) = some up) : number ∈ ups.map Upgrade.number := by
  have hnumber : up.number = number := by simpa using List.find?_some h
  exact hnumber ▸ List.mem_map_of_mem (List.mem_of_find?_eq_some h)

/-- An upgrade that is given up is concluded once, with the outcome it is counted under. -/
theorem Board.sound_giveUpUpgrade (h : Ledger.Sound g p u b.ledger) (number : Nat) (e : Ending) :
    Ledger.Sound g p u (b.giveUpUpgrade number e.label).ledger := by
  have hmatch : b.giveUpUpgrade number e.label =
      match b.awaited.find? (·.number == number) with
      | none => (b.takeUpgrade number).2
      | some _ => (b.takeUpgrade number).2.countHandshake e.label := by
    unfold giveUpUpgrade takeUpgrade
    cases b.awaited.find? (·.number == number) <;> rfl
  rw [hmatch]
  cases hfind : b.awaited.find? (·.number == number) with
  | none => exact (Board.ledger_takeUpgrade_of_none hfind).symm ▸ h
  | some up => exact h.post (e := .concluded number e) (mem_numbers_of_find hfind)

/-- A completed upgrade is taken from those awaited and its session started; a number that none of
them has changes no more than the table. -/
theorem Gateway.completeUpgrade_eq (g : Gateway) (number : Nat) (b : Board) :
    g.completeUpgrade number b =
      match b.awaited.find? (·.number == number) with
      | none => (none, (b.takeUpgrade number).2)
      | some up => Session.start g.config up.peer up.handshake.onUpgraded
          ((b.takeUpgrade number).2.countHandshake "upgraded") := by
  unfold completeUpgrade Board.takeUpgrade
  cases b.awaited.find? (·.number == number) <;> rfl

/-- The completion of an upgrade keeps the ledger's equations. -/
theorem Gateway.sound_completeUpgrade (h : Ledger.Sound g p u b.ledger) (number : Nat) :
    Ledger.Sound g p u (g.completeUpgrade number b).2.ledger := by
  rw [completeUpgrade_eq]
  cases hfind : b.awaited.find? (·.number == number) with
  | none => exact (Board.ledger_takeUpgrade_of_none hfind).symm ▸ h
  | some up =>
    dsimp only
    rw [Session.ledger_start]
    exact h.post (e := .concluded number .upgraded) (mem_numbers_of_find hfind)

/-- The handshake of a session that opens was waiting for its stream. -/
theorem Gateway.upgraded_completeUpgrade (h : b.ledger.Orderly) {number : Nat} {s : Session}
    (hs : (g.completeUpgrade number b).1 = some s) : s.handshake.state = .upgraded := by
  rw [completeUpgrade_eq] at hs
  cases hfind : b.awaited.find? (·.number == number) with
  | none =>
    rw [hfind] at hs
    cases hs
  | some up =>
    have hwaiting := h.waiting up (List.mem_of_find?_eq_some hfind)
    rw [hfind] at hs
    dsimp only at hs
    rw [hwaiting] at hs
    rcases Session.start_cases g.config up.peer (Handshake.onUpgraded ⟨.handshaking⟩)
      ((b.takeUpgrade number).2.countHandshake "upgraded") with ⟨-, hnot, -⟩ | ⟨-, hopen, -⟩
    · rw [hnot] at hs
      cases hs
    · rw [hopen] at hs
      cases hs
      rfl

end WsGateway
