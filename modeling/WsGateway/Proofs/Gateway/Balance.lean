import WsGateway.Proofs.Gateway.Bookkeeping

/-!
# The counters balance

A gateway that serves requests and clients: HTTP requests come in, the streams of promised upgrades
arrive or fail to, and the clients act and events are published (`Occurrence`,
`ClientSessions.serve`). Whatever happens, the books are kept (`ClientSessions.Accounted.occur`), so
that the totals agree with the families of counters in every state that can be reached
(`ClientSessions.serve_balanced`).
-/

namespace WsGateway

variable {g : Gateway} {p u : Nat} {b : Board}

/-! ## What a client does -/

namespace ClientAction

/-- It is a request for an operation that is not registered, on an open session. -/
def isUnknown (g : Gateway) : ClientAction → Option Session → Bool
  | .frame f _, some _ => g.lacksFrame f
  | _, _ => false

/-- What one client does keeps the ledger's equations; only a request for an operation that is not
registered adds to the unknown ones. -/
theorem sound_act (d : ClientAction) {s? : Option Session}
    (hs : ∀ s, s? = some s → s.handshake.state = .upgraded) (h : Ledger.Sound g p u b.ledger) :
    Ledger.Sound g p (u + if d.isUnknown g s? then 1 else 0) (d.act g s? b).2.ledger := by
  cases s? with
  | none =>
    cases d with
    | arrive peer handshake =>
      show Ledger.Sound g p u (Session.start g.config peer handshake b).2.ledger
      rw [Session.ledger_start]
      exact h
    | _ => exact h
  | some s =>
    cases d with
    | frame f elapsed =>
      have hframe := Session.sound_onFrame (hs s rfl) h elapsed f
      rw [act_frame]
      -- if the session ends with the frame, that is not entered
      cases (s.onFrame g elapsed f b).1 with
      | true => exact hframe
      | false => exact hframe
    | _ => exact h

/-- A session that a client's action leaves is still an upgraded one. -/
theorem upgraded_act (d : ClientAction) {s? : Option Session}
    (hs : ∀ s, s? = some s → s.handshake.state = .upgraded) {C : Type} {c : C}
    (inside : (Event.client c d).arrives = false) :
    ∀ s, (d.act g s? b).1 = some s → s.handshake.state = .upgraded := by
  intro s hact
  cases s? with
  | none =>
    cases d with
    | arrive peer handshake => cases inside
    | _ => cases hact
  | some s₀ =>
    apply hs
    cases d with
    | frame f elapsed =>
      rw [act_frame] at hact
      split at hact
      · exact hact
      · cases hact
    | leave => cases hact
    | _ => exact hact

end ClientAction

/-! ## A gateway that serves -/

/-- What happens to a gateway that serves requests and clients `C`. -/
inductive Occurrence (C : Type) where
  /-- An HTTP request comes in. -/
  | request (r : Http.Request) (peer : Net.Address)
  /-- The stream of an awaited upgrade arrives for a client, who has no session yet. -/
  | connect (c : C) (number : Nat)
  /-- The stream of an awaited upgrade fails. -/
  | fail (number : Nat)
  /-- The stream of an awaited upgrade does not arrive in time. -/
  | expire (number : Nat)
  /-- A client acts, or an event is published. There is no way in but by an upgrade. -/
  | clients (e : Event C) (inside : e.arrives = false)
  /-- The gateway takes no more sessions, and closes the connections of all that there are. -/
  | drain

namespace ClientSessions

variable {C : Type} [DecidableEq C]

def occur (g : Gateway) (o : Occurrence C) (cs : ClientSessions C) : ClientSessions C :=
  match o with
  | .request r peer => { cs with board := (g.onHttp r peer cs.board).2 }
  | .connect c number =>
    match cs.sessions c with
    | some _ => cs
    | none =>
      let (s, b) := g.completeUpgrade number cs.board
      ⟨b, Function.update cs.sessions c s⟩
  | .fail number => { cs with board := cs.board.failUpgrade number }
  | .expire number => { cs with board := cs.board.expireUpgrade number }
  | .clients e _ => step g e cs
  | .drain => { cs with board := cs.board.beginDrain }

def serve (g : Gateway) (os : List (Occurrence C)) (cs : ClientSessions C) : ClientSessions C :=
  os.foldl (fun cs o => occur g o cs) cs

end ClientSessions

namespace Occurrence

variable {C : Type}

/-- It is a request that is answered as a preflight. -/
def isPreflight (g : Gateway) : Occurrence C → Bool
  | .request r _ => (g.cors.preflight r).isSome
  | _ => false

/-- It is a request on an open session, for an operation that is not registered. -/
def isUnknown (g : Gateway) (cs : ClientSessions C) : Occurrence C → Bool
  | .clients (.client c d) _ => d.isUnknown g (cs.sessions c)
  | _ => false

end Occurrence

namespace ClientSessions

variable {C : Type} [DecidableEq C]

/-- How many requests for operations that are not registered come in on open sessions. -/
def unknowns (g : Gateway) : List (Occurrence C) → ClientSessions C → Nat
  | [], _ => 0
  | o :: rest, cs => (if o.isUnknown g cs then 1 else 0) + unknowns g rest (occur g o cs)

/-- The books are in order, and all sessions are upgraded. -/
structure Accounted (g : Gateway) (p u : Nat) (cs : ClientSessions C) : Prop where
  sound : Ledger.Sound g p u cs.board.ledger
  upgraded : ∀ {c s}, cs.sessions c = some s → s.handshake.state = .upgraded

omit [DecidableEq C] in
/-- At the start nothing was done and every counter is 0. -/
theorem accounted_start (g : Gateway) : Accounted g 0 0 (start : ClientSessions C) where
  sound := Ledger.sound_start g
  upgraded h := by cases h

variable {cs : ClientSessions C}

omit [DecidableEq C] in
/-- Nothing but the board changes. -/
theorem Accounted.rewire (h : Accounted g p u cs) {p' u' : Nat}
    (hb : Ledger.Sound g p' u' b.ledger) :
    Accounted g p' u' (⟨b, cs.sessions⟩ : ClientSessions C) :=
  ⟨hb, h.upgraded⟩

/-- The session of one client changes with the board. -/
theorem Accounted.replace (h : Accounted g p u cs) {p' u' : Nat}
    (hb : Ledger.Sound g p' u' b.ledger) (c : C) {s? : Option Session}
    (hs : ∀ s, s? = some s → s.handshake.state = .upgraded) :
    Accounted g p' u' (⟨b, Function.update cs.sessions c s?⟩ : ClientSessions C) := by
  refine ⟨hb, ?_⟩
  intro c' s' hs'
  by_cases hc : c' = c
  · subst hc
    exact hs s' (by simpa using hs')
  · exact h.upgraded ((sessions_update_of_ne hc _ _).symm.trans hs')

/-- **One thing that happens** keeps the books, with one more preflight or request for an unknown
operation if that is what it is. -/
theorem Accounted.occur (hg : g.Discreet) (h : Accounted g p u cs) (o : Occurrence C) :
    Accounted g (p + if o.isPreflight g then 1 else 0) (u + if o.isUnknown g cs then 1 else 0)
      (occur g o cs) := by
  cases o with
  | request r peer => exact h.rewire (Gateway.sound_onHttp hg h.sound r peer)
  | fail number => exact h.rewire (Board.sound_giveUpUpgrade h.sound number .failed)
  | expire number => exact h.rewire (Board.sound_giveUpUpgrade h.sound number .timeout)
  | drain => exact h.rewire h.sound
  | clients e inside =>
    cases e with
    | publish op content => exact h.rewire h.sound
    | client c d =>
      have hopen : ∀ s, cs.sessions c = some s → s.handshake.state = .upgraded :=
        fun s hs => h.upgraded hs
      exact h.replace (d.sound_act hopen h.sound) c (d.upgraded_act hopen inside)
  | connect c number =>
    unfold ClientSessions.occur
    dsimp only
    -- a stream that arrives for a client with a session changes nothing
    cases hc : cs.sessions c with
    | some s => exact h
    | none =>
      exact h.replace (Gateway.sound_completeUpgrade h.sound number) c
        fun s hs => Gateway.upgraded_completeUpgrade h.sound.toOrderly hs

/-- By induction on what happens: the books are kept in every run. -/
theorem Accounted.serve (hg : g.Discreet) (os : List (Occurrence C)) {p u : Nat}
    {cs : ClientSessions C} (h : Accounted g p u cs) :
    Accounted g (p + os.countP (·.isPreflight g)) (u + unknowns g os cs) (serve g os cs) := by
  induction os generalizing p u cs with
  | nil => exact h
  | cons o rest ih =>
    have hrest := ih (h.occur hg o)
    rw [List.countP_cons, unknowns, Nat.add_comm (rest.countP _), ← Nat.add_assoc,
      ← Nat.add_assoc]
    exact hrest

/-- **The counters balance** in every state that can be reached. -/
theorem serve_balanced (hg : g.Discreet) (os : List (Occurrence C)) :
    (serve g os start).board.ledger.Balanced g (os.countP (·.isPreflight g))
      (unknowns g os start) := by
  have h := (accounted_start g).serve hg os
  rw [Nat.zero_add, Nat.zero_add] at h
  exact h.sound.toBalanced

/-- A gateway with what is built in and one handler that breaks off: a preflight, a request for
that handler, an upgrade that becomes a session on which there is no such operation and a frame is
refused, and an upgrade that is still awaited. -/
theorem serve_balanced_unknown :
    let peer := Net.Address.v4 [127, 0, 0, 1] 80
    let origin := ("origin", Http.headerValue "http://localhost")
    let preflight : Http.Request := ⟨"OPTIONS", "/boom",
      [("access-control-request-method", Http.headerValue "GET"), origin], [], false⟩
    let upgrade : Http.Request := ⟨"GET", "/ws",
      [("connection", Http.headerValue "upgrade"), ("upgrade", Http.headerValue "websocket"),
        ("sec-websocket-version", Http.headerValue Handshake.version),
        ("sec-websocket-key", Http.headerValue "AAAAAAAAAAAAAAAAAAAAAA==")], [], true⟩
    let text := "\x7b\"id\":1,\"op\":\"none\",\"type\":\"req\"\x7d"
    let os : List (Occurrence Bool) :=
      [.request preflight peer, .request ⟨"GET", "/boom", [origin], [], false⟩ peer,
        .request upgrade peer, .connect true 0,
        .clients (.client true (.frame (.text text) 0)) rfl,
        .clients (.client true (.frame (.binary [0]) 0)) rfl, .request upgrade peer]
    ∃ built g : Gateway, Gateway.builtin { http.cors.allowOrigins := ["*"] } = .ok built ∧
      built.withHttp "boom" (fun _ => HttpAction.abort "boom") = .ok g ∧ g.Discreet ∧
      (serve g os start).board.ledger.Balanced g 1 1 := by
  intro peer origin preflight upgrade text os
  let boom : HttpHandler := fun _ => HttpAction.abort "boom"
  -- both constructions are run here, and the gateways that they give are kept as values
  let first : { built // Gateway.builtin { http.cors.allowOrigins := ["*"] } = .ok built } :=
    ⟨_, rfl⟩
  let second : { g // first.val.withHttp "boom" boom = .ok g } := ⟨_, rfl⟩
  let g := second.val
  have hg : g.Discreet :=
    Gateway.EveryHandler.withHttp (Gateway.discreet_of_builtin first.property)
      (fun _ _ => Or.inl rfl) second.property
  have hpreflights : os.countP (·.isPreflight g) = 1 := by decide +kernel
  have hunknowns : unknowns g os start = 1 := by decide +kernel
  have hbalanced := serve_balanced hg os
  rw [hpreflights, hunknowns] at hbalanced
  exact ⟨first.val, g, first.property, second.property, hg, hbalanced⟩

end ClientSessions

end WsGateway
