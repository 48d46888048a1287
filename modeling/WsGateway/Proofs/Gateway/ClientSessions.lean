import Mathlib.Algebra.Group.Nat.Defs
import Mathlib.Logic.Function.Basic
import WsGateway.Proofs.Gateway.Answers
import WsGateway.Proofs.Gateway.EventDelivery

/-!
# Clients and their sessions

A gateway and its clients: every client has a session or none, and what happens is that a client
does something or that an event is published (`ClientSessions.step`). Clients arrive, send frames of
any kind, have frames taken off their queues, and leave.

What one session does is confined to its own connection and its own subscriptions
(`Session.Confined`). From this follows that the sessions stay sound (`ClientSessions.Sound`):
different clients have different connections and ids, and every subscription belongs to a client
that is there. The ids are given out one after another, so that this holds as long as they do not
run out (`ClientSessions.EnoughIds`).
-/

namespace WsGateway

/-- What a client does, or has done to its connection. -/
inductive ClientAction where
  /-- The stream of an upgrade arrives, with the handshake that it belongs to. -/
  | arrive (peer : Net.Address) (h : Handshake)
  /-- A frame comes in, and is handled in some nanoseconds. -/
  | frame (f : Frame) (elapsed : Nat)
  /-- Frames are taken off the queue; they may have reached the client. -/
  | flush (count : Nat) (reached : Bool)
  /-- The stream ends. -/
  | leave

/-- What happens to a gateway and its clients. -/
inductive Event (C : Type) where
  | client (c : C) (d : ClientAction)
  | publish (op : String) (content : Content)

def Event.arrives {C : Type} : Event C → Bool
  | .client _ (.arrive _ _) => true
  | _ => false

/-- The board of a gateway, and the sessions of its clients. -/
structure ClientSessions (C : Type) where
  board : Board
  sessions : C → Option Session

/-- A client acts, with its session before and after. Without a session it can only arrive, and
with one it cannot arrive again. -/
def ClientAction.act (g : Gateway) : ClientAction → Option Session → Board → Option Session × Board
  | .arrive peer h, none, b => Session.start g.config peer h b
  | .frame f elapsed, some s, b =>
    match s.onFrame g elapsed f b with
    | (true, b) => (some s, b)
    | (false, b) => (none, s.finish b)
  | .flush count reached, some s, b =>
    (some s, b.setLinks (b.links.modify s.link fun c => (c.takeMany reached count).2))
  | .leave, some s, b => (none, s.finish b)
  | _, s, b => (s, b)

namespace ClientSessions

variable {C : Type} [DecidableEq C]

def start : ClientSessions C := ⟨.start, fun _ => none⟩

def step (g : Gateway) (e : Event C) (cs : ClientSessions C) : ClientSessions C :=
  match e with
  | .client c d =>
    let (s, b) := d.act g (cs.sessions c) cs.board
    ⟨b, Function.update cs.sessions c s⟩
  | .publish op content => { cs with board := (cs.board.publish op content).2 }

def run (g : Gateway) (es : List (Event C)) (cs : ClientSessions C) : ClientSessions C :=
  es.foldl (fun cs e => step g e cs) cs

end ClientSessions

/-! ## What one session can change -/

namespace Session

/-- A session has changed nothing but its own connection and its own subscriptions. -/
structure Confined (k : Link) (b b' : Board) : Prop where
  get? : ∀ k' : Link, k'.slot ≠ k.slot → b'.links.get? k' = b.links.get? k'
  isSome : ∀ k' : Link, (b'.links.get? k').isSome = (b.links.get? k').isSome
  lookup : ∀ key : SubscriptionKey, key.1 ≠ k.id →
    b'.subscriptions.subs.get? key = b.subscriptions.subs.get? key
  owned : ∀ (key : SubscriptionKey) sub, b'.subscriptions.subs.get? key = some sub →
    b.subscriptions.subs.get? key = some sub ∨ sub.link = k
  consistent : b.subscriptions.Consistent → b'.subscriptions.Consistent
  lastId : b'.registry.lastId = b.registry.lastId

variable {g : Gateway} {k : Link} {b b' : Board}

/-- Nothing done is confined to every connection. -/
theorem Confined.refl (k : Link) (b : Board) : Confined k b b where
  get? _ _ := rfl
  isSome _ := rfl
  lookup _ _ := rfl
  owned _ _ h := Or.inl h
  consistent h := h
  lastId := rfl

/-- What is confined to a connection stays so in sequence. -/
theorem Confined.trans {b'' : Board} (h : Confined k b b') (h' : Confined k b' b'') :
    Confined k b b'' where
  get? k' hslot := (h'.get? k' hslot).trans (h.get? k' hslot)
  isSome k' := (h'.isSome k').trans (h.isSome k')
  lookup key hkey := (h'.lookup key hkey).trans (h.lookup key hkey)
  owned key sub hsub := by
    rcases h'.owned key sub hsub with hsub | hlink
    · exact h.owned key sub hsub
    · exact Or.inr hlink
  consistent hc := h'.consistent (h.consistent hc)
  lastId := h'.lastId.trans h.lastId

/-- Changing the own connection in place is confined. -/
theorem confined_of_get? {l : Links} {f : Connection → Connection}
    (hget : ∀ k' : Link, l.get? k' =
      if k'.slot = k.slot then (b.links.get? k').map f else b.links.get? k') :
    Confined k b (b.setLinks l) where
  get? k' hslot := (hget k').trans (if_neg hslot)
  isSome k' := by
    show (l.get? k').isSome = (b.links.get? k').isSome
    rw [hget]
    split
    · exact Option.isSome_map
    · rfl
  lookup _ _ := rfl
  owned _ _ h := Or.inl h
  consistent h := h
  lastId := rfl

theorem confined_modify (k : Link) (b : Board) (f : Connection → Connection) :
    Confined k b (b.setLinks (b.links.modify k f)) :=
  confined_of_get? fun k' => Links.get?_modify b.links k k' f

/-- Responses to a connection change no other connection. -/
theorem confined_respond (k : Link) (b : Board) (rs : List Response) :
    Confined k b (b.setLinks (b.links.respond k rs)) :=
  confined_of_get? fun k' => Links.get?_respond b.links k k' rs

theorem confined_write (k : Link) (b : Board) (f : Frame) :
    Confined k b (b.setLinks (b.links.write k f).2) :=
  confined_of_get? fun k' => Links.get?_write b.links k k' f

/-- A change that leaves connections, subscriptions and registry alone is confined. -/
theorem Confined.of_eq (h : Confined k b b') {b'' : Board} (hlinks : b''.links = b'.links)
    (hsubs : b''.subscriptions = b'.subscriptions) (hregistry : b''.registry = b'.registry) :
    Confined k b b'' where
  get? k' hslot := hlinks ▸ h.get? k' hslot
  isSome k' := hlinks ▸ h.isSome k'
  lookup key hkey := hsubs ▸ h.lookup key hkey
  owned key sub hsub := h.owned key sub (hsubs ▸ hsub)
  consistent hc := hsubs ▸ h.consistent hc
  lastId := hregistry ▸ h.lastId

end Session

namespace Gateway

variable {g : Gateway} {text : String}

theorem countOutcome_registry (o : DispatchOutcome) (b : Board) :
    (countOutcome o b).registry = b.registry := by
  cases o <;> rfl

/-- A text that is no request changes nothing but the queue of its connection. -/
theorem onFrame_malformed {bad : RequestFailure} (hbad : Request.parse text = .error bad)
    (elapsed : Nat) (k : Link) (b : Board) :
    (g.onFrame elapsed k (.text text) b).2.subscriptions = b.subscriptions ∧
      (g.onFrame elapsed k (.text text) b).2.registry = b.registry := by
  unfold onFrame
  simp only [hbad]
  exact ⟨rfl, rfl⟩

/-- A request changes the subscriptions as its dispatch does. -/
theorem onFrame_request {r : Request} (hr : Request.parse text = .ok r) (elapsed : Nat) (k : Link)
    (b : Board) :
    (g.onFrame elapsed k (.text text) b).2.subscriptions =
        (b.switchboard.dispatch g.operations k r).2.subscriptions ∧
      (g.onFrame elapsed k (.text text) b).2.registry = b.registry := by
  unfold onFrame
  simp only [hr]
  unfold onRequest
  exact ⟨countOutcome_subscriptions _ _, countOutcome_registry _ _⟩

end Gateway

namespace Session

variable {g : Gateway}

/-- A text frame reaches no connection but the one it came on: built-in operations answer their own
client. -/
theorem confined_onText (hg : g.HasBuiltins) (elapsed : Nat) (k : Link) (text : String)
    (b : Board) : Confined k b (g.onFrame elapsed k (.text text) b).2 := by
  have hlinks := Gateway.links_onFrame_text hg elapsed k text b
  cases hr : Request.parse text with
  | error bad =>
    obtain ⟨hsubs, hregistry⟩ := Gateway.onFrame_malformed (g := g) hr elapsed k b
    exact (confined_respond k b _).of_eq hlinks hsubs hregistry
  | ok r =>
    obtain ⟨hsubs, hregistry⟩ := Gateway.onFrame_request (g := g) hr elapsed k b
    have hget := Switchboard.get?_dispatch g.operations k r b.switchboard
    have hsent := confined_respond k b (answersToText b.subscriptions k text)
    -- the dispatch touches just the key of its own connection
    refine ⟨hlinks ▸ hsent.get?, hlinks ▸ hsent.isSome, ?_, ?_, ?_, by rw [hregistry]⟩
    · intro key hkey
      have hne : key ≠ (k.id, r.id) := fun heq => hkey (by rw [heq])
      rw [hsubs]
      ext sub
      rw [hget]
      simp [hne]
      rfl
    · intro key sub hsub
      rw [hsubs, hget] at hsub
      rcases hsub with ⟨-, -, -, rfl⟩ | ⟨hold, -⟩
      · exact Or.inr rfl
      · exact Or.inl hold
    · intro hc
      rw [hsubs]
      exact Switchboard.dispatch_consistent hc g.operations k r

/-- **Handling a frame is confined** to the session that it came in for. -/
theorem confined_onFrame (hg : g.HasBuiltins) (s : Session) (elapsed : Nat) (f : Frame)
    (b : Board) : Confined s.link b (s.onFrame g elapsed f b).2 := by
  unfold onFrame
  cases s.handshake.onFrame f with
  | error e =>
    show Confined s.link b (s.reject f e b)
    exact (confined_respond s.link b [.failure 0 0 none e.message]).of_eq rfl rfl rfl
  | ok action =>
    cases action with
    | forward =>
      cases f with
      | text text => exact confined_onText hg elapsed s.link text b
      | _ => exact .refl s.link b
    | pong payload => exact confined_write s.link b _
    | ignore => exact .refl s.link b
    | close => exact .refl s.link b

/-- **The end of a session is confined** to it, and takes all its subscriptions along. -/
theorem confined_finish (s : Session) {b : Board} (hc : b.subscriptions.Consistent) :
    Confined s.link b (s.finish b) := by
  have hget : ∀ key : SubscriptionKey, (s.finish b).subscriptions.subs.get? key =
      if key.1 = s.link.id then none else b.subscriptions.subs.get? key := fun key =>
    hc.get?_purge s.link.id key
  have hclosed := confined_modify s.link b Connection.close
  refine ⟨hclosed.get?, hclosed.isSome, ?_, ?_, fun hc => hc.purge _, rfl⟩
  · intro key hkey
    rw [hget, if_neg hkey]
  · intro key sub hsub
    rw [hget] at hsub
    split at hsub
    · cases hsub
    · exact Or.inl hsub

/-- Nothing is left of the subscriptions of a session that ended. -/
theorem get?_finish (s : Session) {b : Board} (hc : b.subscriptions.Consistent)
    {key : SubscriptionKey} (hkey : key.1 = s.link.id) :
    (s.finish b).subscriptions.subs.get? key = none :=
  (hc.get?_purge s.link.id key).trans (if_pos hkey)

/-! ## How a session opens -/

theorem start_subscriptions (config : Config) (peer : Net.Address) (h : Handshake) (b : Board) :
    (start config peer h b).2.subscriptions = b.subscriptions := by
  unfold start
  dsimp only
  split <;> rfl

/-- The start of a session takes exactly one id. -/
theorem start_lastId (config : Config) (peer : Net.Address) (h : Handshake) (b : Board) :
    (start config peer h b).2.registry.lastId = b.registry.lastId + 1 := by
  unfold start
  dsimp only
  split <;> rfl

/-- A session opens with a new connection behind all others and the next id, or it does not open
because its queue cannot be made. -/
theorem start_cases (config : Config) (peer : Net.Address) (h : Handshake) (b : Board) :
    (Connection.maxCapacity < config.gateway.outboundQueue.toNat ∧
      (start config peer h b).1 = none ∧ (start config peer h b).2.links = b.links) ∨
    (¬ Connection.maxCapacity < config.gateway.outboundQueue.toNat ∧
      (start config peer h b).1 =
        some ⟨⟨b.links.conns.length, b.registry.lastId + 1⟩, h⟩ ∧
      (start config peer h b).2.links =
        (b.links.open (b.registry.lastId + 1) peer config.gateway.outboundQueue.toNat).2) := by
  unfold start
  dsimp only [Registry.nextId]
  split
  · next hmax => exact Or.inl ⟨hmax, rfl, rfl⟩
  · next hmax => exact Or.inr ⟨hmax, rfl, rfl⟩

end Session

namespace Links

/-- An opened connection stands behind those that are there, and they are found as before. -/
theorem get?_open (l : Links) (id : UInt64) (peer : Net.Address) (queue : Nat) (k : Link) :
    (l.open id peer queue).2.get? k =
      if k.slot = l.conns.length then some (.start id peer queue) else l.get? k := by
  show (l.conns ++ [Connection.start id peer queue])[k.slot]? = _
  split
  · next heq => rw [heq, List.getElem?_concat_length]
  · next hne =>
    rcases Nat.lt_or_ge k.slot l.conns.length with hlt | hge
    · exact List.getElem?_append_left hlt
    · have hgt : l.conns.length + 1 ≤ k.slot := by omega
      rw [get?, List.getElem?_eq_none (by simpa using hgt), List.getElem?_eq_none hge]

theorem slot_lt_of_isSome {l : Links} {k : Link} (h : (l.get? k).isSome) :
    k.slot < l.conns.length := by
  obtain ⟨c, hc⟩ := Option.isSome_iff_exists.mp h
  obtain ⟨hlt, -⟩ := List.getElem?_eq_some_iff.mp hc
  exact hlt

end Links

namespace ClientSessions

variable {C : Type} {g : Gateway} {cs : ClientSessions C} {c : C} {s : Session} {b : Board}

/-! ## Soundness -/

/-- Every session has a connection, different clients have different connections and ids, and
every subscription is that of a client who is there. -/
structure Sound (cs : ClientSessions C) : Prop where
  consistent : cs.board.subscriptions.Consistent
  connected : ∀ {c s}, cs.sessions c = some s → (cs.board.links.get? s.link).isSome
  counted : ∀ {c s}, cs.sessions c = some s →
    s.link.id.toNat ≤ cs.board.registry.lastId.toNat
  apart : ∀ {c c' s s'}, cs.sessions c = some s → cs.sessions c' = some s' → c ≠ c' →
    s.link.slot ≠ s'.link.slot ∧ s.link.id ≠ s'.link.id
  owned : ∀ {key sub}, cs.board.subscriptions.subs.get? key = some sub →
    ∃ c s, cs.sessions c = some s ∧ s.link = sub.link

/-- The gateway as it starts has no session and no connection. -/
theorem sound_start : Sound (start : ClientSessions C) where
  consistent := Subscriptions.consistent_empty
  connected h := by cases h
  counted h := by cases h
  apart h := by cases h
  owned h := by cases h

/-- The sessions stay sound when no subscription changes and no connection is lost. -/
theorem Sound.rewire (h : Sound cs) (hsubs : b.subscriptions = cs.board.subscriptions)
    (hlast : cs.board.registry.lastId.toNat ≤ b.registry.lastId.toNat)
    (hkept : ∀ k : Link, (cs.board.links.get? k).isSome → (b.links.get? k).isSome) :
    Sound ⟨b, cs.sessions⟩ where
  consistent := hsubs ▸ h.consistent
  connected hs := hkept _ (h.connected hs)
  counted hs := Nat.le_trans (h.counted hs) hlast
  apart := h.apart
  owned hsub := h.owned (hsubs ▸ hsub)

/-- The sessions stay sound when one that goes on changes what is its own. -/
theorem Sound.keep (h : Sound cs) (hs : cs.sessions c = some s)
    (hb : Session.Confined s.link cs.board b) : Sound ⟨b, cs.sessions⟩ where
  consistent := hb.consistent h.consistent
  connected hs' := (hb.isSome _).trans (h.connected hs')
  counted hs' := by
    show _ ≤ b.registry.lastId.toNat
    rw [hb.lastId]
    exact h.counted hs'
  apart := h.apart
  owned := by
    intro key sub hsub
    rcases hb.owned key sub hsub with hold | hlink
    · exact h.owned hold
    · exact ⟨c, s, hs, hlink.symm⟩

variable [DecidableEq C]

theorem sessions_update_of_ne {c' : C} (hne : c' ≠ c) (sessions : C → Option Session)
    (new : Option Session) : Function.update sessions c new c' = sessions c' :=
  Function.update_of_ne hne _ _

/-- The sessions stay sound when one ends and leaves no subscription behind. -/
theorem Sound.end (h : Sound cs) (hs : cs.sessions c = some s)
    (hb : Session.Confined s.link cs.board b)
    (hgone : ∀ key : SubscriptionKey, key.1 = s.link.id →
      b.subscriptions.subs.get? key = none) :
    Sound ⟨b, Function.update cs.sessions c none⟩ := by
  have hkeep := h.keep hs hb
  have hbefore : ∀ {c' s'}, Function.update cs.sessions c none c' = some s' →
      cs.sessions c' = some s' := by
    intro c' s' hs'
    by_cases hc : c' = c
    · subst hc
      rw [Function.update_self] at hs'
      cases hs'
    · rwa [sessions_update_of_ne hc] at hs'
  refine ⟨hkeep.consistent, fun hs' => hkeep.connected (hbefore hs'),
    fun hs' => hkeep.counted (hbefore hs'),
    fun h₁ h₂ hne => h.apart (hbefore h₁) (hbefore h₂) hne, ?_⟩
  intro key sub hsub
  obtain ⟨c', s', hs', hlink⟩ := hkeep.owned hsub
  -- nothing is left under the id of the session, so the owner is another client
  have hne : c' ≠ c := by
    rintro rfl
    have hsame : s' = s := Option.some.inj (hs'.symm.trans hs)
    have hid : key.1 = s.link.id := by
      rw [← hsame, hlink]
      exact (hkeep.consistent.stored hsub).2.symm
    rw [show b.subscriptions.subs.get? key = none from hgone key hid] at hsub
    cases hsub
  exact ⟨c', s', (sessions_update_of_ne hne _ _).trans hs', hlink⟩

/-- The sessions stay sound when a client takes a place and an id that nobody has. -/
theorem Sound.enter (h : Sound cs) (hnone : cs.sessions c = none)
    (hconnected : (cs.board.links.get? s.link).isSome)
    (hcounted : s.link.id.toNat ≤ cs.board.registry.lastId.toNat)
    (hfresh : ∀ {c' s'}, cs.sessions c' = some s' →
      s'.link.slot ≠ s.link.slot ∧ s'.link.id ≠ s.link.id) :
    Sound ⟨cs.board, Function.update cs.sessions c (some s)⟩ := by
  -- A session of the new table is the one that entered or one that was there.
  have hcases : ∀ {c' s'}, Function.update cs.sessions c (some s) c' = some s' →
      (c' = c ∧ s' = s) ∨ cs.sessions c' = some s' := by
    intro c' s' hs'
    by_cases hc : c' = c
    · subst hc
      rw [Function.update_self] at hs'
      exact Or.inl ⟨rfl, (Option.some.inj hs').symm⟩
    · rw [sessions_update_of_ne hc] at hs'
      exact Or.inr hs'
  refine ⟨h.consistent, ?_, ?_, ?_, ?_⟩
  · intro c' s' hs'
    rcases hcases hs' with ⟨-, rfl⟩ | hold
    · exact hconnected
    · exact h.connected hold
  · intro c' s' hs'
    rcases hcases hs' with ⟨-, rfl⟩ | hold
    · exact hcounted
    · exact h.counted hold
  · intro c₁ c₂ s₁ s₂ h₁ h₂ hne
    rcases hcases h₁ with ⟨rfl, rfl⟩ | hold₁
    · rcases hcases h₂ with ⟨rfl, rfl⟩ | hold₂
      · exact absurd rfl hne
      · exact ⟨(hfresh hold₂).1.symm, (hfresh hold₂).2.symm⟩
    · rcases hcases h₂ with ⟨rfl, rfl⟩ | hold₂
      · exact hfresh hold₁
      · exact h.apart hold₁ hold₂ hne
  · intro key sub hsub
    -- A subscription is owned by a client that had a session, and the new client had none.
    obtain ⟨c', s', hs', hlink⟩ := h.owned hsub
    have hne : c' ≠ c := by
      rintro rfl
      rw [hnone] at hs'
      cases hs'
    exact ⟨c', s', (sessions_update_of_ne hne _ _).trans hs', hlink⟩

omit [DecidableEq C] in
/-- The next id is that of no client, if there is one. -/
theorem Sound.ne_nextId (h : Sound cs) (hids : cs.board.registry.lastId.toNat + 1 < 2 ^ 64)
    (hs : cs.sessions c = some s) : s.link.id ≠ cs.board.registry.lastId + 1 := by
  intro heq
  have hle := h.counted hs
  have hone : (1 : UInt64).toNat = 1 := rfl
  rw [heq, UInt64.toNat_add] at hle
  omega

/-- The sessions stay sound when a client arrives, whether its session opens or not. -/
theorem Sound.arrive (h : Sound cs) (hnone : cs.sessions c = none)
    (hids : cs.board.registry.lastId.toNat + 1 < 2 ^ 64) (peer : Net.Address) (hs : Handshake) :
    Sound ⟨(Session.start g.config peer hs cs.board).2,
      Function.update cs.sessions c (Session.start g.config peer hs cs.board).1⟩ := by
  have hone : (1 : UInt64).toNat = 1 := rfl
  have hlast : cs.board.registry.lastId.toNat ≤
      (Session.start g.config peer hs cs.board).2.registry.lastId.toNat := by
    rw [Session.start_lastId, UInt64.toNat_add]
    omega
  have hrewire := h.rewire (Session.start_subscriptions g.config peer hs cs.board) hlast
  rcases Session.start_cases g.config peer hs cs.board with
    ⟨-, hnot, hlinks⟩ | ⟨-, hopen, hlinks⟩
  · have hsame : Function.update cs.sessions c (Session.start g.config peer hs cs.board).1 =
        cs.sessions := by
      rw [hnot, ← hnone, Function.update_eq_self]
    rw [hsame]
    exact hrewire fun k hk => hlinks ▸ hk
  · have hget : ∀ k : Link, (Session.start g.config peer hs cs.board).2.links.get? k =
        if k.slot = cs.board.links.conns.length then
          some (.start (cs.board.registry.lastId + 1) peer g.config.gateway.outboundQueue.toNat)
        else cs.board.links.get? k := by
      intro k
      rw [hlinks, Links.get?_open]
    have hkept : ∀ k : Link, (cs.board.links.get? k).isSome →
        ((Session.start g.config peer hs cs.board).2.links.get? k).isSome := by
      intro k hk
      rw [hget]
      split
      · rfl
      · exact hk
    rw [hopen]
    apply (hrewire hkept).enter hnone
    · have hnew := (hget ⟨cs.board.links.conns.length, cs.board.registry.lastId + 1⟩).trans
        (if_pos rfl)
      exact Option.isSome_of_eq_some hnew
    · have hlast := Session.start_lastId g.config peer hs cs.board
      exact Nat.le_of_eq (congrArg UInt64.toNat hlast.symm)
    · -- an old session has an older place and an older id than the new one
      intro c' s' hs'
      exact ⟨Nat.ne_of_lt (Links.slot_lt_of_isSome (h.connected hs')), h.ne_nextId hids hs'⟩

end ClientSessions

/-! ## What clients do -/

/-- A frame keeps the session or ends it, as the session says, and an ended one is finished. -/
theorem ClientAction.act_frame (g : Gateway) (f : Frame) (elapsed : Nat) (s : Session) (b : Board) :
    (ClientAction.frame f elapsed).act g (some s) b =
      if (s.onFrame g elapsed f b).1 = true then (some s, (s.onFrame g elapsed f b).2)
      else (none, s.finish (s.onFrame g elapsed f b).2) := by
  show (match s.onFrame g elapsed f b with
    | (true, b) => (some s, b)
    | (false, b) => (none, s.finish b)) = _
  cases s.onFrame g elapsed f b with
  | mk goes b' => cases goes <;> rfl

/-- **What a client can do.** Nothing happens, or a session opens, or the client has a session and
what happens is confined to it; if the session ends, none of its subscriptions is left. -/
theorem ClientAction.act_cases {g : Gateway} (hg : g.HasBuiltins) (d : ClientAction)
    (s? : Option Session) {b : Board} (hc : b.subscriptions.Consistent) :
    d.act g s? b = (s?, b) ∨
    (s? = none ∧ ∃ peer h, d = .arrive peer h ∧
      d.act g s? b = Session.start g.config peer h b) ∨
    ∃ s, s? = some s ∧ Session.Confined s.link b (d.act g s? b).2 ∧
      ((d.act g s? b).1 = some s ∨
        ((d.act g s? b).1 = none ∧ ∀ key : SubscriptionKey, key.1 = s.link.id →
          (d.act g s? b).2.subscriptions.subs.get? key = none)) := by
  cases s? with
  | none =>
    cases d with
    | arrive peer h => exact Or.inr (Or.inl ⟨rfl, peer, h, rfl, rfl⟩)
    | _ => exact Or.inl rfl
  | some s =>
    have hfinish := Session.confined_finish s hc
    cases d with
    | arrive peer h => exact Or.inl rfl
    | flush count reached =>
      exact Or.inr (Or.inr ⟨s, rfl, Session.confined_modify s.link b _, Or.inl rfl⟩)
    | leave => exact Or.inr (Or.inr ⟨s, rfl, hfinish, Or.inr ⟨rfl, fun _ => s.get?_finish hc⟩⟩)
    | frame f elapsed =>
      refine Or.inr (Or.inr ⟨s, rfl, ?_⟩)
      have hframe := Session.confined_onFrame hg s elapsed f b
      rw [act_frame]
      cases (s.onFrame g elapsed f b).1 with
      | true => exact ⟨hframe, Or.inl rfl⟩
      | false =>
        -- A session that ends is purged from the tables that its last frame left.
        have hc' := hframe.consistent hc
        exact ⟨hframe.trans (Session.confined_finish s hc'),
          Or.inr ⟨rfl, fun _ => s.get?_finish hc'⟩⟩

/-- A publication opens no connection and loses none. -/
theorem Board.isSome_publish (b : Board) (op : String) (content : Content) (k : Link) :
    ((b.publish op content).2.links.get? k).isSome = (b.links.get? k).isSome := by
  cases hc : content.toValue with
  | error message => rw [Gateway.links_publish_of_error hc]
  | ok v => rw [Gateway.links_publish_of_ok hc, Subscriptions.get?_notifyAll, Option.isSome_map]

namespace ClientSessions

variable {C : Type} [DecidableEq C] {g : Gateway} {cs : ClientSessions C}

/-- The sessions stay sound whatever happens, while there are ids. -/
theorem Sound.step (h : Sound cs) (hg : g.HasBuiltins) (e : Event C)
    (hids : e.arrives = true → cs.board.registry.lastId.toNat + 1 < 2 ^ 64) :
    Sound (step g e cs) := by
  cases e with
  | publish op content =>
    have hsubs : (cs.board.publish op content).2.subscriptions = cs.board.subscriptions := rfl
    exact h.rewire hsubs (Nat.le_refl _)
      fun k hk => (cs.board.isSome_publish op content k).trans hk
  | client c d =>
    show Sound ⟨(d.act g (cs.sessions c) cs.board).2,
      Function.update cs.sessions c (d.act g (cs.sessions c) cs.board).1⟩
    -- The client is idle, arrives, goes on or ends; one lemma for each.
    rcases d.act_cases hg (cs.sessions c) h.consistent with
      hidle | ⟨hnone, peer, hs, rfl, hstart⟩ | ⟨s, hs, hconfined, hgoes | ⟨hends, hgone⟩⟩
    · rw [hidle, Function.update_eq_self]
      exact h
    · rw [hstart]
      exact h.arrive hnone (hids rfl) peer hs
    · rw [hgoes, ← hs, Function.update_eq_self]
      exact h.keep hs hconfined
    · rw [hends]
      exact h.end hs hconfined hgone

/-- At most one id is given out at a time. -/
theorem lastId_step (hg : g.HasBuiltins) (h : Sound cs) (e : Event C) :
    (ClientSessions.step g e cs).board.registry.lastId.toNat ≤
      cs.board.registry.lastId.toNat + if e.arrives then 1 else 0 := by
  cases e with
  | publish op content => exact Nat.le_refl _
  | client c d =>
    show (d.act g (cs.sessions c) cs.board).2.registry.lastId.toNat ≤ _
    rcases d.act_cases hg (cs.sessions c) h.consistent with
      hidle | ⟨-, peer, hs, rfl, hstart⟩ | ⟨s, -, hconfined, -⟩
    · rw [hidle]
      exact Nat.le_add_right _ _
    · have hone : (1 : UInt64).toNat = 1 := rfl
      rw [hstart, Session.start_lastId, UInt64.toNat_add, hone]
      exact Nat.mod_le _ _
    · rw [hconfined.lastId]
      exact Nat.le_add_right _ _

/-- There are enough ids for what happens. -/
def EnoughIds (cs : ClientSessions C) (es : List (Event C)) : Prop :=
  cs.board.registry.lastId.toNat + es.countP Event.arrives < 2 ^ 64

omit [DecidableEq C] in
/-- If the ids suffice for a run and its first event is an arrival, there is one left for it. -/
theorem EnoughIds.head {e : Event C} {es : List (Event C)} (h : cs.EnoughIds (e :: es)) :
    e.arrives = true → cs.board.registry.lastId.toNat + 1 < 2 ^ 64 := by
  intro he
  unfold EnoughIds at h
  rw [List.countP_cons, if_pos he] at h
  omega

/-- If the ids suffice for a run, they suffice for what is left of it after its first event. -/
theorem EnoughIds.tail (hg : g.HasBuiltins) (h : Sound cs) {e : Event C} {es : List (Event C)}
    (hids : cs.EnoughIds (e :: es)) : (step g e cs).EnoughIds es := by
  have hlast := lastId_step hg h e
  unfold EnoughIds at hids ⊢
  rw [List.countP_cons] at hids
  omega

end ClientSessions

end WsGateway
