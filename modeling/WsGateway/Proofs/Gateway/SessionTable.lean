import WsGateway.Proofs.Gateway.Bookkeeping
import WsGateway.Writer

/-!
# All sessions of a gateway

A gateway with all the sessions that it ever opened, in the order in which they opened, and with the
writers of their connections (`SessionTable`). Anything can happen to it in any order
(`GatewayEvent`): upgrade requests come in and their streams arrive, sessions handle frames and end,
writers send and fail, events are published, and the gateway begins to drain.

Just two things concern the sessions as such: that one opens and that one ends. Everything else is
steady (`Board.Steady`): it leaves the registry and the gauge of sessions alone, makes no connection
writable again, and changes no subscriptions but those of the session that it belongs to. This is
shown here for each part of a gateway; what it means for the sessions is said elsewhere.
-/

namespace WsGateway

/-- A session that was opened; it is live until it ends. -/
structure SessionEntry where
  session : Session
  live : Bool
  deriving DecidableEq, Repr

namespace SessionEntry

def link (t : SessionEntry) : Link := t.session.link

end SessionEntry

/-- A gateway, the sessions that it opened, and the writers of their connections by the order of
the sessions. -/
structure SessionTable where
  board : Board
  entries : List SessionEntry
  writers : Nat → Writer

/-- What happens to a gateway. A session is named by its place in the order of all sessions. -/
inductive GatewayEvent where
  /-- An HTTP request comes in. -/
  | request (r : Http.Request) (peer : Net.Address)
  /-- The stream of an awaited upgrade arrives. -/
  | complete (number : Nat)
  /-- The stream of an awaited upgrade fails. -/
  | fail (number : Nat)
  /-- The stream of an awaited upgrade does not arrive in time. -/
  | expire (number : Nat)
  /-- A frame of the client comes in on a live session, and is handled in some nanoseconds. -/
  | frame (i : Nat) (f : Frame) (elapsed : Nat)
  /-- A live session ends: its stream ends or fails, or its connection was closed. -/
  | leave (i : Nat)
  /-- The writer of a session takes a step, and the client accepts what it is sent or does not. -/
  | work (i : Nat) (accepts : Bool)
  | publish (op : String) (content : Content)
  /-- The gateway takes no more upgrades, and closes the connections that are registered. -/
  | drain

/-- Some client asks for an upgrade. -/
def GatewayEvent.upgradeRequest : GatewayEvent :=
  .request ⟨"GET", "/ws",
    [("connection", Http.headerValue "upgrade"), ("upgrade", Http.headerValue "websocket"),
      ("sec-websocket-version", Http.headerValue Handshake.version),
      ("sec-websocket-key", Http.headerValue "AAAAAAAAAAAAAAAAAAAAAA==")], [], true⟩
    (.v4 [127, 0, 0, 1] 80)

namespace SessionTable

def start : SessionTable := ⟨.start, [], fun _ => .start⟩

/-- The sessions with the next one, if it opened. -/
def withOpened (ts : List SessionEntry) (s? : Option Session) : List SessionEntry :=
  ts ++ (s?.map fun s => SessionEntry.mk s true).toList

def complete (g : Gateway) (number : Nat) (h : SessionTable) : SessionTable :=
  let (s?, b) := g.completeUpgrade number h.board
  { h with board := b, entries := withOpened h.entries s? }

/-- A live session acts, and goes on or ends. -/
def act (g : Gateway) (i : Nat) (d : ClientAction) (h : SessionTable) : SessionTable :=
  match h.entries[i]? with
  | some ⟨s, true⟩ =>
    let (s?, b) := d.act g (some s) h.board
    { h with board := b, entries := h.entries.set i ⟨s, s?.isSome⟩ }
  | _ => h

/-- A writer takes a step, whether its session is live or not. -/
def work (i : Nat) (accepts : Bool) (h : SessionTable) : SessionTable :=
  match h.entries[i]? with
  | none => h
  | some t =>
    match h.board.links.get? t.link with
    | none => h
    | some c =>
      let (writer, c) := Writer.step accepts (h.writers i) c
      { h with
        board := h.board.setLinks (h.board.links.modify t.link fun _ => c)
        writers := Function.update h.writers i writer }

def step (g : Gateway) (m : GatewayEvent) (h : SessionTable) : SessionTable :=
  match m with
  | .request r peer => { h with board := (g.onHttp r peer h.board).2 }
  | .complete number => h.complete g number
  | .fail number => { h with board := h.board.failUpgrade number }
  | .expire number => { h with board := h.board.expireUpgrade number }
  | .frame i f elapsed => h.act g i (.frame f elapsed)
  | .leave i => h.act g i .leave
  | .work i accepts => h.work i accepts
  | .publish op content => { h with board := (h.board.publish op content).2 }
  | .drain => { h with board := h.board.beginDrain }

def run (g : Gateway) (ms : List GatewayEvent) (h : SessionTable) : SessionTable :=
  ms.foldl (fun h m => step g m h) h

/-- A run in two parts is the second one from where the first one ended. -/
theorem run_append (g : Gateway) (ms ms' : List GatewayEvent) (h : SessionTable) :
    run g (ms ++ ms') h = run g ms' (run g ms h) := List.foldl_append

end SessionTable

/-! ## Connections that are not opened again -/

namespace Connection

variable {c : Connection}

theorem isWritable_write (c : Connection) (f : Frame) :
    (c.write f).2.isWritable = c.isWritable := by
  unfold write
  split <;> rfl

theorem isWritable_writeAll (c : Connection) (fs : List Frame) :
    (c.writeAll fs).isWritable = c.isWritable := by
  induction fs generalizing c with
  | nil => rfl
  | cons f rest ih => rw [writeAll, ih, isWritable_write]

theorem isWritable_close (c : Connection) : c.close.isWritable = false := rfl

end Connection

/-- A step of the writer can close a connection and never opens one. -/
theorem Writer.isWritable_step {accepts : Bool} {w : Writer} {c : Connection}
    (h : (Writer.step accepts w c).2.isWritable = true) : c.isWritable = true := by
  unfold step Connection.take at h
  split at h
  · exact h
  · cases hqueue : c.queue with
    | nil =>
      rw [hqueue] at h
      dsimp only at h
      -- without a next frame the connection stays as it is, or nothing takes frames any more
      split at h
      · simp [Connection.isWritable, Connection.stopReceiving] at h
      · exact h
    | cons o rest =>
      rw [hqueue] at h
      cases accepts with
      | true => exact h
      | false => simp [Connection.isWritable, abandon, Connection.stopReceiving] at h

namespace Links

/-- There are the same connections as before, and none can be written to that could not before. -/
structure NoneReopened (l l' : Links) : Prop where
  length : l'.conns.length = l.conns.length
  writable : ∀ {k : Link}, l'.isWritable k = true → l.isWritable k = true

variable {l l' l'' : Links}

theorem NoneReopened.refl (l : Links) : NoneReopened l l := ⟨rfl, id⟩

/-- Connections that are not reopened stay closed in sequence. -/
theorem NoneReopened.trans (h : NoneReopened l l') (h' : NoneReopened l' l'') :
    NoneReopened l l'' :=
  ⟨h'.length.trans h.length, fun hw => h.writable (h'.writable hw)⟩

/-- Every connection was changed in place, by something that does not make it writable. -/
theorem noneReopened_of_get? (h : ∀ k : Link, ∃ f : Connection → Connection,
    (∀ c, l.get? k = some c → (f c).isWritable = true → c.isWritable = true) ∧
      l'.get? k = (l.get? k).map f) :
    NoneReopened l l' where
  length := by
    -- The lists are equally long because the same places are empty.
    have hle : ∀ n, l'.conns.length ≤ n ↔ l.conns.length ≤ n := by
      intro n
      obtain ⟨f, -, hget⟩ := h ⟨n, 0⟩
      have hsame : l'.conns[n]? = l.conns[n]?.map f := hget
      rw [← List.getElem?_eq_none_iff, hsame, Option.map_eq_none_iff, List.getElem?_eq_none_iff]
    have hself := hle l.conns.length
    have hother := hle l'.conns.length
    omega
  writable := by
    intro k hw
    obtain ⟨f, hf, hget⟩ := h k
    unfold isWritable at hw ⊢
    rw [hget] at hw
    cases hc : l.get? k with
    | none =>
      rw [hc] at hw
      cases hw
    | some c =>
      rw [hc] at hw
      exact hf c hc hw

/-- One connection was changed, by something that does not make it writable. -/
theorem noneReopened_of_get?_eq {k : Link} {f : Connection → Connection}
    (hf : ∀ c, l.get? k = some c → (f c).isWritable = true → c.isWritable = true)
    (h : ∀ k' : Link, l'.get? k' = if k'.slot = k.slot then (l.get? k').map f else l.get? k') :
    NoneReopened l l' := by
  apply noneReopened_of_get?
  intro k'
  rw [h]
  split
  · next hslot => exact ⟨f, fun c hc => hf c ((get?_congr hslot l).symm.trans hc), rfl⟩
  · exact ⟨id, fun _ _ => id, by rw [Option.map_id, id]⟩

/-- The connection of a handle was replaced by one that is not writable if it was not. -/
theorem noneReopened_modify {k : Link} {c c' : Connection} (hc : l.get? k = some c)
    (h : c'.isWritable = true → c.isWritable = true) : NoneReopened l (l.modify k fun _ => c') := by
  refine noneReopened_of_get?_eq (k := k) (f := fun _ => c') ?_ fun k' => get?_modify l k k' _
  intro c₀ hc₀ hw
  cases hc.symm.trans hc₀
  exact h hw

/-- Responses reopen no connection. -/
theorem noneReopened_respond (l : Links) (k : Link) (rs : List Response) :
    NoneReopened l (l.respond k rs) :=
  noneReopened_of_get?_eq (fun c _ hw => (c.isWritable_writeAll _).symm.trans hw)
    fun k' => get?_respond l k k' rs

theorem noneReopened_write (l : Links) (k : Link) (f : Frame) : NoneReopened l (l.write k f).2 :=
  noneReopened_of_get?_eq (fun c _ hw => (c.isWritable_write f).symm.trans hw)
    fun k' => get?_write l k k' f

theorem noneReopened_close (l : Links) (k : Link) : NoneReopened l (l.close k) :=
  noneReopened_of_get?_eq
    (fun c _ hw => absurd (c.isWritable_close.symm.trans hw) Bool.false_ne_true)
    fun k' => get?_modify l k k' Connection.close

/-- A publication reopens no connection. -/
theorem noneReopened_notifyAll (op : String) (v : Json.Value) (subs : List Subscription)
    (l : Links) :
    NoneReopened l (Subscriptions.notifyAll op v subs l).2 :=
  noneReopened_of_get? fun k => ⟨_, fun c _ hw => (c.isWritable_writeAll _).symm.trans hw,
    Subscriptions.get?_notifyAll op v subs l k⟩

/-- A connection that is closed cannot be written to. -/
theorem isWritable_close (l : Links) (k k' : Link) :
    (l.close k).isWritable k' = if k'.slot = k.slot then false else l.isWritable k' := by
  unfold isWritable close
  rw [get?_modify]
  split
  · cases l.get? k' <;> rfl
  · rfl

/-- Closing connections reopens none. -/
theorem noneReopened_foldl_close (ks : List Link) (l : Links) :
    NoneReopened l (ks.foldl close l) := by
  induction ks generalizing l with
  | nil => exact .refl l
  | cons k rest ih => exact (noneReopened_close l k).trans (ih (l.close k))

/-- None of the connections that are closed can be written to. -/
theorem isWritable_foldl_close {ks : List Link} {k : Link} (hk : k ∈ ks) (l : Links) :
    (ks.foldl close l).isWritable k = false := by
  induction ks generalizing l with
  | nil => cases hk
  | cons k' rest ih =>
    rcases List.mem_cons.mp hk with rfl | hmem
    · have hclosed : (l.close k).isWritable k = false := by rw [isWritable_close, if_pos rfl]
      exact Bool.eq_false_iff.mpr fun hw =>
        Bool.eq_false_iff.mp hclosed ((noneReopened_foldl_close rest (l.close k)).writable hw)
    · exact ih hmem (l.close k')

end Links

/-! ## Steady boards -/

/-- What a board says about its sessions: which connections are registered, how many are counted,
whether new ones are refused, and which are to come. -/
structure SessionView where
  registry : Registry
  active : GaugeFamily
  draining : Bool
  awaited : List Upgrade

/-- What the board of a gateway says about its sessions. -/
def Board.view (b : Board) : SessionView :=
  ⟨b.registry, b.metrics.wsSessionsActive, b.isDraining, b.awaited⟩

/-- No session opened or ended, and if the gateway drains no session is to come that was not to come
before. -/
structure SessionView.Kept (r r' : SessionView) : Prop where
  registry : r'.registry = r.registry
  active : r'.active = r.active
  draining : r'.draining = r.draining
  awaited : r.draining = true → r'.awaited.Sublist r.awaited

theorem SessionView.Kept.refl (r : SessionView) : SessionView.Kept r r :=
  ⟨rfl, rfl, rfl, fun _ => .refl _⟩

theorem SessionView.Kept.trans {r r' r'' : SessionView} (h : SessionView.Kept r r')
    (h' : SessionView.Kept r' r'') : SessionView.Kept r r'' where
  registry := h'.registry.trans h.registry
  active := h'.active.trans h.active
  draining := h'.draining.trans h.draining
  awaited hd := (h'.awaited (h.draining.trans hd)).trans (h.awaited hd)

namespace Board

variable {own : Link → Prop} {b b' b'' : Board}

/-- No session opened or ended, no connection became writable, and new subscriptions belong to the
given connections. -/
structure Steady (own : Link → Prop) (b b' : Board) : Prop where
  view : b.view.Kept b'.view
  links : b.links.NoneReopened b'.links
  consistent : b.subscriptions.Consistent → b'.subscriptions.Consistent
  owned : ∀ {key sub}, b'.subscriptions.subs.get? key = some sub →
    b.subscriptions.subs.get? key = some sub ∨ own sub.link

/-- Nothing done is steady for every connection. -/
theorem Steady.refl (own : Link → Prop) (b : Board) : Steady own b b :=
  ⟨.refl _, .refl _, id, Or.inl⟩

/-- A change that spares connections and subscriptions is steady. -/
theorem steady_of_switchboard (hview : b.view.Kept b'.view)
    (hboard : b'.switchboard = b.switchboard) : Steady own b b' := by
  have hlinks : b'.links = b.links := congrArg Switchboard.links hboard
  have hsubs : b'.subscriptions = b.subscriptions := congrArg Switchboard.subscriptions hboard
  exact ⟨hview, hlinks ▸ .refl _, fun hc => hsubs ▸ hc, fun hsub => Or.inl (hsubs ▸ hsub)⟩

/-- A change of connections that does not make them writable is steady. -/
theorem steady_setLinks {l : Links} (h : b.links.NoneReopened l) : Steady own b (b.setLinks l) :=
  ⟨.refl _, h, id, Or.inl⟩

/-- Steady changes in sequence are steady. -/
theorem Steady.trans (h : Steady own b b') (h' : Steady own b' b'') : Steady own b b'' where
  view := h.view.trans h'.view
  links := h.links.trans h'.links
  consistent hc := h'.consistent (h.consistent hc)
  owned hsub := by
    rcases h'.owned hsub with hsub | hown
    · exact h.owned hsub
    · exact Or.inr hown

/-- What is steady for some connections of its own is so for more. -/
theorem Steady.mono {own' : Link → Prop} (h : Steady own b b') (hown : ∀ k, own k → own' k) :
    Steady own' b b' :=
  { h with owned := fun hsub => (h.owned hsub).imp_right (hown _) }

end Board

/-! ## HTTP requests -/

namespace Endpoint

/-- The handler neither opens nor ends sessions, and touches no connection or subscription. -/
def KeepsSessions (handler : HttpHandler) : Prop :=
  ∀ ex b, b.view.Kept (handler ex b).2.view ∧ (handler ex b).2.switchboard = b.switchboard

/-- The upgrade handler makes no session: it only promises one. -/
theorem keepsSessions_upgrade : KeepsSessions upgrade := by
  intro ex b
  rw [upgrade_eq]
  split
  · exact ⟨.refl _, rfl⟩
  · next hopen =>
    split
    · exact ⟨.refl _, rfl⟩
    · -- an upgrade is promised, but not by a gateway that drains
      exact ⟨⟨rfl, rfl, rfl, fun hd => absurd hd hopen⟩, rfl⟩

/-- The operational endpoints leave the sessions alone. -/
theorem keepsSessions_operational : ∀ e ∈ operational, KeepsSessions e.2 := by
  intro e he ex b
  obtain ⟨_, _, _, hanswer⟩ := operational_eq he b
  rw [hanswer]
  exact ⟨.refl _, rfl⟩

end Endpoint

namespace Gateway

variable {g : Gateway} {own : Link → Prop}

/-- The handlers of paths that are built in leave the sessions alone. -/
theorem keepsSessions_of_builtin {config : Config} (h : builtin config = .ok g) :
    g.EveryHandler Endpoint.KeepsSessions :=
  everyHandler_of_builtin Endpoint.keepsSessions_upgrade Endpoint.keepsSessions_operational h

/-- An HTTP request is steady. -/
theorem steady_onHttp (hg : g.EveryHandler Endpoint.KeepsSessions) (r : Http.Request)
    (peer : Net.Address) (b : Board) : b.Steady own (g.onHttp r peer b).2 := by
  unfold onHttp
  cases g.cors.preflight r with
  | some response => exact Board.steady_of_switchboard (.refl _) rfl
  | none =>
    show b.Steady own (g.route r peer { b with counters := b.counters.httpRequest }).2
    unfold route
    cases hd : g.destination r with
    | refused status message => exact Board.steady_of_switchboard (.refl _) rfl
    | handler key handler =>
      have hkeeps := hg key handler (lookup_of_destination hd)
      obtain ⟨hview, hboard⟩ := hkeeps
        ⟨r, peer, key, if r.isChunked then some g.config.http.maxChunkBytes else none⟩
        (countRoute key { b with counters := b.counters.httpRequest })
      have hran : Board.Steady own _ _ := Board.steady_of_switchboard hview hboard
      have hcounted : b.Steady own (countRoute key { b with counters := b.counters.httpRequest }) :=
        Board.steady_of_switchboard (.refl _) rfl
      apply hcounted.trans
      -- what is counted of a failure does not concern the sessions
      simp only [runHandler]
      split
      · next heq =>
        rw [heq] at hran
        exact hran
      · next heq =>
        rw [heq] at hran
        exact hran.trans (Board.steady_of_switchboard (.refl _) rfl)

end Gateway

namespace Board

variable {own : Link → Prop}

theorem kept_takeUpgrade (b : Board) (number : Nat) :
    b.view.Kept (b.takeUpgrade number).2.view :=
  ⟨rfl, rfl, rfl, fun _ => List.filter_sublist⟩

/-- Giving up an awaited upgrade is steady. -/
theorem steady_giveUpUpgrade (b : Board) (number : Nat) (outcome : String) :
    b.Steady own (b.giveUpUpgrade number outcome) := by
  have htaken := b.kept_takeUpgrade number
  unfold giveUpUpgrade takeUpgrade
  cases b.awaited.find? (·.number == number) with
  | none => exact steady_of_switchboard htaken rfl
  | some up => exact steady_of_switchboard htaken rfl

/-- Publishing an event is steady. -/
theorem steady_publish (b : Board) (op : String) (content : Content) :
    b.Steady own (b.publish op content).2 := by
  refine ⟨.refl _, ?_, id, Or.inl⟩
  cases hc : content.toValue with
  | error message =>
    rw [Gateway.links_publish_of_error hc]
    exact .refl _
  | ok v =>
    rw [Gateway.links_publish_of_ok hc]
    exact Links.noneReopened_notifyAll op v _ b.links

/-- Closing the connections that are registered is steady. -/
theorem steady_closeAll (b : Board) : b.Steady own (b.setLinks (b.registry.closeAll b.links)) :=
  steady_setLinks (Links.noneReopened_foldl_close _ b.links)

end Board

/-! ## Frames -/

namespace Gateway

variable {g : Gateway}

theorem view_countOutcome (o : DispatchOutcome) (b : Board) : (countOutcome o b).view = b.view := by
  cases o <;> rfl

/-- A text does nothing to sessions as such. -/
theorem view_onFrame_text (g : Gateway) (elapsed : Nat) (k : Link) (text : String) (b : Board) :
    (g.onFrame elapsed k (.text text) b).2.view = b.view := by
  unfold onFrame
  cases hr : Request.parse text with
  | error bad =>
    simp only [hr]
    rfl
  | ok r =>
    simp only [hr]
    exact view_countOutcome _ _

end Gateway

namespace Session

variable {g : Gateway}

/-- **Handling a frame is steady**, and what is subscribed belongs to the session. -/
theorem steady_onFrame (hg : g.HasBuiltins) (s : Session) (elapsed : Nat) (f : Frame) (b : Board) :
    b.Steady (· = s.link) (s.onFrame g elapsed f b).2 := by
  have hconfined := confined_onFrame hg s elapsed f b
  -- A frame writes to its own connection at most; it opens none and starts no session.
  have hquiet : b.view.Kept (s.onFrame g elapsed f b).2.view ∧
      b.links.NoneReopened (s.onFrame g elapsed f b).2.links := by
    unfold onFrame
    cases s.handshake.onFrame f with
    | error e =>
      exact ⟨.refl _, Links.noneReopened_respond b.links s.link [.failure 0 0 none e.message]⟩
    | ok action =>
      cases action with
      | forward =>
        cases f with
        | text text =>
          have hview := g.view_onFrame_text elapsed s.link text b
          have hlinks := Gateway.links_onFrame_text hg elapsed s.link text b
          exact ⟨hview ▸ .refl _, hlinks ▸ Links.noneReopened_respond b.links s.link _⟩
        | _ => exact ⟨.refl _, .refl _⟩
      | pong payload => exact ⟨.refl _, Links.noneReopened_write b.links s.link _⟩
      | ignore => exact ⟨.refl _, .refl _⟩
      | close => exact ⟨.refl _, .refl _⟩
  exact ⟨hquiet.1, hquiet.2, hconfined.consistent, hconfined.owned _ _⟩

end Session

/-! ## Sessions that open and end -/

/-- What opening a session changes of what is said about sessions: its connection is registered and
counted, or just an id is used up. -/
theorem Session.view_start (config : Config) (peer : Net.Address) (hs : Handshake) (b : Board) :
    (Session.start config peer hs b).2.view =
      match (Session.start config peer hs b).1 with
      | none => { b.view with registry := b.registry.nextId.2 }
      | some s => { b.view with
          registry := b.registry.nextId.2.insert s.link
          active := b.view.active.inc [] } := by
  unfold start
  dsimp only
  split <;> rfl

/-- An upgrade that is taken out is awaited no more. -/
theorem Board.length_takeUpgrade {b : Board} {number : Nat} {up : Upgrade}
    (h : b.awaited.find? (·.number == number) = some up) :
    (b.takeUpgrade number).2.awaited.length < b.awaited.length := by
  have hnumber : up.number = number := by simpa using List.find?_some h
  apply List.length_filter_lt_length_iff_exists.mpr
  exact ⟨up, List.mem_of_find?_eq_some h, by simpa using hnumber⟩

namespace SessionTable

/-- A live session has the connection. -/
def Live (h : SessionTable) (k : Link) : Prop := ∃ (i : Nat) (s : Session),
  h.entries[i]? = some ⟨s, true⟩ ∧ s.link = k

/-- All that can become of the sessions as something happens. -/
inductive Change (g : Gateway) (h : SessionTable) (m : GatewayEvent) : SessionTable → Prop where
  /-- Nothing concerns the sessions as such. -/
  | steady {b : Board} {writers : Nat → Writer} (hm : m ≠ .drain) (hb : h.board.Steady h.Live b) :
    Change g h m ⟨b, h.entries, writers⟩
  /-- A session opens for an upgrade that was awaited, if its queue can be made. -/
  | opening {b : Board} {up : Upgrade} (hm : m ≠ .drain) (hb : h.board.Steady h.Live b)
    (hup : b.awaited.length < h.board.awaited.length) :
    Change g h m
      ⟨(Session.start g.config up.peer up.handshake.onUpgraded b).2,
        withOpened h.entries (Session.start g.config up.peer up.handshake.onUpgraded b).1,
        h.writers⟩
  /-- A session ends, perhaps with its last frame. -/
  | ending {b : Board} {i : Nat} {s : Session} (hm : m ≠ .drain) (hb : h.board.Steady h.Live b)
    (hs : h.entries[i]? = some ⟨s, true⟩) :
    Change g h m ⟨s.finish b, h.entries.set i ⟨s, false⟩, h.writers⟩
  | draining (hm : m = .drain) : Change g h m { h with board := h.board.beginDrain }

variable {g : Gateway} {h : SessionTable} {m : GatewayEvent}

/-- The completion of an upgrade is a change of the session table: at most one session starts. -/
theorem change_complete (hm : m ≠ .drain) (number : Nat) : Change g h m (h.complete g number) := by
  have htaken : h.board.Steady h.Live (h.board.takeUpgrade number).2 :=
    Board.steady_of_switchboard (h.board.kept_takeUpgrade number) rfl
  unfold complete
  rw [Gateway.completeUpgrade_eq]
  cases hfind : h.board.awaited.find? (·.number == number) with
  | none =>
    have hsame : withOpened h.entries none = h.entries := List.append_nil _
    show Change g h m ⟨_, withOpened h.entries none, h.writers⟩
    rw [hsame]
    exact .steady hm htaken
  | some up =>
    have hcounted : h.board.Steady h.Live
        ((h.board.takeUpgrade number).2.countHandshake "upgraded") :=
      htaken.trans (Board.steady_of_switchboard (.refl _) rfl)
    exact .opening hm hcounted (Board.length_takeUpgrade hfind)

theorem change_leave (hm : m ≠ .drain) (i : Nat) : Change g h m (h.act g i .leave) := by
  unfold act
  split
  · next s hs => exact .ending hm (.refl _ _) hs
  · exact .steady hm (.refl _ _)

/-- A frame on a session is a change of the session table: at most that session ends. -/
theorem change_frame (hg : g.HasBuiltins) (hm : m ≠ .drain) (i : Nat) (f : Frame)
    (elapsed : Nat) : Change g h m (h.act g i (.frame f elapsed)) := by
  unfold act
  split
  · next s hs =>
    have hframe := s.steady_onFrame hg elapsed f h.board
    have hsteady : h.board.Steady h.Live (s.onFrame g elapsed f h.board).2 :=
      hframe.mono fun k hk => ⟨i, s, hs, hk.symm⟩
    dsimp only
    rw [ClientAction.act_frame]
    split
    · -- the session goes on, and its entry stays the same
      have hsame : h.entries.set i ⟨s, true⟩ = h.entries := by
        obtain ⟨hi, heq⟩ := List.getElem?_eq_some_iff.mp hs
        rw [← heq, List.set_getElem_self]
      show Change g h m ⟨_, h.entries.set i ⟨s, true⟩, h.writers⟩
      rw [hsame]
      exact .steady hm hsteady
    · exact .ending hm hsteady hs
  · exact .steady hm (.refl _ _)

/-- A step of a writer is a change of the session table: no session starts or ends. -/
theorem change_work (hm : m ≠ .drain) (i : Nat) (accepts : Bool) :
    Change g h m (h.work i accepts) := by
  unfold work
  split
  · exact .steady hm (.refl _ _)
  · next t _ =>
    split
    · exact .steady hm (.refl _ _)
    · next c hc =>
      exact .steady hm (Board.steady_setLinks (Links.noneReopened_modify hc Writer.isWritable_step))

/-- **What can happen to a gateway.** It is steady, a session opens or ends, or it begins to drain.
-/
theorem change_step (hg : g.HasBuiltins) (hp : g.EveryHandler Endpoint.KeepsSessions)
    (m : GatewayEvent) (h : SessionTable) : Change g h m (step g m h) := by
  cases m with
  | request r peer =>
    exact .steady GatewayEvent.noConfusion (Gateway.steady_onHttp hp r peer h.board)
  | complete number => exact change_complete GatewayEvent.noConfusion number
  | fail number => exact .steady GatewayEvent.noConfusion (h.board.steady_giveUpUpgrade number _)
  | expire number => exact .steady GatewayEvent.noConfusion (h.board.steady_giveUpUpgrade number _)
  | frame i f elapsed => exact change_frame hg GatewayEvent.noConfusion i f elapsed
  | leave i => exact change_leave GatewayEvent.noConfusion i
  | work i accepts => exact change_work GatewayEvent.noConfusion i accepts
  | publish op content => exact .steady GatewayEvent.noConfusion (h.board.steady_publish op content)
  | drain => exact .draining rfl

end SessionTable

end WsGateway
