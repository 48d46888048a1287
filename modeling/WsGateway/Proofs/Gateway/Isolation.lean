import Mathlib.Data.List.Infix
import WsGateway.Proofs.Gateway.Lookalike

/-!
# Clients do not see each other

What a client receives does not depend on the others. Two gateways look alike to a client if both or
neither have a session for it, and it cannot tell the sessions apart (`ClientSessions.Alike`). What
another client does keeps this, and queues nothing for the client (`ClientSessions.Alike.other`).
What the client does, or a publish, keeps it too, and queues the same on both gateways, but for the
instance ids, and for the order in which a publish visits the subscriptions
(`ClientSessions.Alike.own`). So a run and the same run without the others are told apart by nothing
that is queued for the client (`isolation`).
-/

namespace WsGateway

/-! ## Runs that one client watches -/

namespace ClientSessions

variable {C : Type} [DecidableEq C] {g : Gateway} {cs cs' : ClientSessions C} {c : C} {s : Session}

/-- The frames that were queued for a client while something happened. -/
def gained (c : C) (before after : ClientSessions C) : List Frame :=
  match before.sessions c with
  | some s => s.newFrames before.board after.board
  | none => (after.sessions c).elim [] fun s => after.board.links.frames s.link

/-- What happens, each with the frames that were queued for a client meanwhile. -/
def trace (g : Gateway) (c : C) : List (Event C) → ClientSessions C → List (Event C × List Frame)
  | [], _ => []
  | e :: rest, cs => (e, gained c cs (step g e cs)) :: trace g c rest (step g e cs)

/-- The client has room in its queue, if it has a session. -/
def roomy (c : C) (cs : ClientSessions C) : Bool :=
  (cs.sessions c).all fun s => cs.board.links.hasRoomBehind s.link 0

/-- The queue of a client never fills. -/
def NeverFills (g : Gateway) (c : C) (es : List (Event C)) (cs : ClientSessions C) : Prop :=
  ∀ before ∈ es.inits, roomy c (run g before cs) = true

end ClientSessions

/-- It is done by the client, or concerns everybody. -/
def Event.concerns {C : Type} [DecidableEq C] (c : C) : Event C → Bool
  | .client c' _ => c' = c
  | .publish _ _ => true

/-- The same frames were queued, but for their instance ids, and for the order of the events of one
publish. -/
def Event.Agrees {C : Type} (e : Event C) (fs fs' : List Frame) : Prop :=
  match e with
  | .client _ _ => List.Forall₂ Frame.SameButId fs fs'
  | .publish _ _ =>
    (∀ f ∈ fs, ∃ rerid, f.IsEvent rerid) ∧ ∃ gs, List.Forall₂ Frame.SameButId fs gs ∧ gs.Perm fs'

namespace ClientSessions

variable {C : Type} [DecidableEq C] {g : Gateway} {cs cs' : ClientSessions C} {c : C} {s : Session}

/-- To a client two gateways look alike: it has a session on both or on neither, and cannot tell the
sessions apart. -/
def Alike (c : C) (cs cs' : ClientSessions C) : Prop :=
  Option.Rel (Session.Alike cs.board cs'.board) (cs.sessions c) (cs'.sessions c)

/-! ## What the others do -/

/-- What does not concern a client leaves its session, its connection and its subscriptions as they
are. -/
theorem step_other (h : Sound cs) (hg : g.HasBuiltins) {e : Event C}
    (he : e.concerns c = false) :
    (step g e cs).sessions c = cs.sessions c ∧ ∀ s, cs.sessions c = some s →
      (step g e cs).board.links.get? s.link = cs.board.links.get? s.link ∧
      ∀ rerid, (step g e cs).board.subscriptions.subs.get? (s.link.id, rerid) =
        cs.board.subscriptions.subs.get? (s.link.id, rerid) := by
  cases e with
  | publish op content => cases he
  | client c' d =>
    have hne : c ≠ c' := by
      rintro rfl
      simp [Event.concerns] at he
    refine ⟨Function.update_of_ne hne _ _, ?_⟩
    intro s hs
    show (d.act g (cs.sessions c') cs.board).2.links.get? s.link = _ ∧
      ∀ rerid, (d.act g (cs.sessions c') cs.board).2.subscriptions.subs.get? _ = _
    -- Another client is idle, arrives, or acts on its own connection only; two clients never share
    -- a connection.
    rcases d.act_cases hg (cs.sessions c') h.consistent with
      hidle | ⟨-, peer, hs', rfl, hstart⟩ | ⟨s', hs', hconfined, -⟩
    · rw [hidle]
      exact ⟨rfl, fun _ => rfl⟩
    · rw [hstart, Session.start_subscriptions]
      refine ⟨?_, fun _ => rfl⟩
      rcases Session.start_cases g.config peer hs' cs.board with
        ⟨-, -, hlinks⟩ | ⟨-, -, hlinks⟩
      · rw [hlinks]
      -- The new connection is put behind the existing ones.
      · have hlt := Links.slot_lt_of_isSome (h.connected hs)
        rw [hlinks, Links.get?_open, if_neg (Nat.ne_of_lt hlt)]
    · obtain ⟨hslot, hid⟩ := h.apart hs hs' hne
      exact ⟨hconfined.get? _ hslot, fun _ => hconfined.lookup _ hid⟩

/-- An event that does not concern a client brings it no frame. -/
theorem gained_other (h : Sound cs) (hg : g.HasBuiltins) {e : Event C}
    (he : e.concerns c = false) : gained c cs (step g e cs) = [] := by
  obtain ⟨hsessions, hunchanged⟩ := step_other h hg he
  unfold gained
  rw [hsessions]
  cases hs : cs.sessions c with
  | none => rfl
  | some s => exact Session.newFrames_of_links (hunchanged s hs).1

/-- **What another client does** cannot be seen. -/
theorem Alike.other (ha : Alike c cs cs') (h : Sound cs) (hg : g.HasBuiltins) {e : Event C}
    (he : e.concerns c = false) : Alike c (step g e cs) cs' := by
  obtain ⟨hsessions, hunchanged⟩ := step_other h hg he
  unfold Alike at ha ⊢
  -- Only the first run has the event, and it leaves everything that the client can see.
  rw [hsessions]
  cases hs : cs.sessions c with
  | none =>
    rw [hs] at ha
    generalize cs'.sessions c = x at ha ⊢
    cases ha
    exact .none
  | some s =>
    obtain ⟨hget, hlookup⟩ := hunchanged s hs
    rw [hs] at ha
    generalize cs'.sessions c = x at ha ⊢
    cases ha with
    | some hsame =>
      refine .some ⟨hsame.handshake, hget ▸ hsame.connection, ?_⟩
      intro rerid op
      unfold Subscriptions.Has
      rw [hlookup]
      exact hsame.subscribed rerid op

/-! ## What the client does -/

omit [DecidableEq C] in
/-- Nobody has a subscription under the next id. -/
theorem Sound.not_has_nextId (h : Sound cs)
    (hids : cs.board.registry.lastId.toNat + 1 < 2 ^ 64) (rerid : Int64) (op : String) :
    ¬ cs.board.subscriptions.Has (cs.board.registry.lastId + 1) rerid op := by
  rintro ⟨sub, hsub, -⟩
  obtain ⟨c, s, hs, hlink⟩ := h.owned hsub
  have hid : s.link.id = cs.board.registry.lastId + 1 := by
    rw [hlink]
    exact (h.consistent.stored hsub).2
  exact h.ne_nextId hids hs hid

omit [DecidableEq C] in
/-- A client that arrives at two gateways has a session on both or on neither, and finds nothing in
its queue. -/
theorem alike_arrive (h : Sound cs) (h' : Sound cs')
    (hids : cs.board.registry.lastId.toNat + 1 < 2 ^ 64)
    (hids' : cs'.board.registry.lastId.toNat + 1 < 2 ^ 64) (peer : Net.Address)
    (hs : Handshake) :
    Option.Rel (fun s s' =>
        Session.Alike (Session.start g.config peer hs cs.board).2
          (Session.start g.config peer hs cs'.board).2 s s' ∧
        (Session.start g.config peer hs cs.board).2.links.frames s.link = [] ∧
        (Session.start g.config peer hs cs'.board).2.links.frames s'.link = [])
      (Session.start g.config peer hs cs.board).1
      (Session.start g.config peer hs cs'.board).1 := by
  -- Whether a session opens depends on the configured queue alone, so the mixed cases contradict
  -- each other.
  rcases Session.start_cases g.config peer hs cs.board with
    ⟨hmax, hnot, -⟩ | ⟨hmax, hopen, hlinks⟩
  · rcases Session.start_cases g.config peer hs cs'.board with
      ⟨-, hnot', -⟩ | ⟨hmax', -, -⟩
    · rw [hnot, hnot']
      exact .none
    · exact absurd hmax hmax'
  · rcases Session.start_cases g.config peer hs cs'.board with
      ⟨hmax', -, -⟩ | ⟨-, hopen', hlinks'⟩
    · exact absurd hmax' hmax
    · have hget := Links.get?_open cs.board.links (cs.board.registry.lastId + 1) peer
        g.config.gateway.outboundQueue.toNat
      have hget' := Links.get?_open cs'.board.links (cs'.board.registry.lastId + 1) peer
        g.config.gateway.outboundQueue.toNat
      rw [hopen, hopen']
      refine .some ⟨⟨rfl, ?_, ?_⟩, ?_, ?_⟩
      · rw [hlinks, hlinks', hget, hget', if_pos rfl, if_pos rfl]
        exact .some ⟨rfl, rfl, rfl, rfl⟩
      · intro rerid op
        rw [Session.start_subscriptions, Session.start_subscriptions]
        -- The new id was never handed out, so neither table has a subscription of it.
        exact iff_of_false (h.not_has_nextId hids rerid op) (h'.not_has_nextId hids' rerid op)
      · unfold Links.frames
        rw [hlinks, hget, if_pos rfl]
        rfl
      · unfold Links.frames
        rw [hlinks', hget', if_pos rfl]
        rfl

/-- **What the client does** is the same on two gateways that look alike. -/
theorem Alike.own (ha : Alike c cs cs') (h : Sound cs) (h' : Sound cs') (hg : g.HasBuiltins)
    (d : ClientAction)
    (hids : (Event.client c d).arrives = true → cs.board.registry.lastId.toNat + 1 < 2 ^ 64)
    (hids' : (Event.client c d).arrives = true →
      cs'.board.registry.lastId.toNat + 1 < 2 ^ 64) :
    List.Forall₂ Frame.SameButId (gained c cs (step g (.client c d) cs))
        (gained c cs' (step g (.client c d) cs')) ∧
      Alike c (step g (.client c d) cs) (step g (.client c d) cs') := by
  have hboard : ∀ cs : ClientSessions C,
      (step g (.client c d) cs).board = (d.act g (cs.sessions c) cs.board).2 := fun _ => rfl
  have hsession : ∀ cs : ClientSessions C,
      (step g (.client c d) cs).sessions c = (d.act g (cs.sessions c) cs.board).1 := fun _ =>
    Function.update_self _ _ _
  unfold Alike gained
  unfold Alike at ha
  rw [hsession, hsession, hboard, hboard]
  -- The client has a session in both runs or in neither; only without one can it arrive.
  cases hs : cs.sessions c with
  | some s =>
    cases hs' : cs'.sessions c with
    | none =>
      rw [hs, hs'] at ha
      cases ha
    | some s' =>
      rw [hs, hs'] at ha
      cases ha with
      | some hsame =>
        obtain ⟨hrel, hframes⟩ := hsame.act hg d
        exact ⟨hframes, hrel⟩
  | none =>
    cases hs' : cs'.sessions c with
    | some s' =>
      rw [hs, hs'] at ha
      cases ha
    | none =>
      cases d with
      | arrive peer hand =>
        have hrel := alike_arrive (g := g) h h' (hids rfl) (hids' rfl) peer hand
        show List.Forall₂ _
            ((Session.start g.config peer hand cs.board).1.elim [] fun s =>
              (Session.start g.config peer hand cs.board).2.links.frames s.link)
            ((Session.start g.config peer hand cs'.board).1.elim [] fun s =>
              (Session.start g.config peer hand cs'.board).2.links.frames s.link) ∧
          Option.Rel _ (Session.start g.config peer hand cs.board).1
            (Session.start g.config peer hand cs'.board).1
        generalize (Session.start g.config peer hand cs.board).1 = x at hrel ⊢
        generalize (Session.start g.config peer hand cs'.board).1 = x' at hrel ⊢
        cases hrel with
        | none => exact ⟨.nil, .none⟩
        | some hsame =>
          obtain ⟨hsame, hempty, hempty'⟩ := hsame
          refine ⟨?_, .some hsame⟩
          show List.Forall₂ _ (Links.frames _ _) (Links.frames _ _)
          rw [hempty, hempty']
          exact .nil
      | _ => exact ⟨.nil, .none⟩

/-! ## What a publish does -/

omit [DecidableEq C] in
/-- The subscribers on the connection of a client are its subscriptions. -/
theorem Sound.mem_subscribersAt (h : Sound cs) (hs : cs.sessions c = some s) {op : String}
    {sub : Subscription} :
    sub ∈ Gateway.subscribersAt cs.board.subscriptions op s.link ↔
      cs.board.subscriptions.subs.get? (s.link.id, sub.rerid) = some sub ∧ sub.op = op := by
  unfold Gateway.subscribersAt
  rw [List.mem_filter, h.consistent.mem_subscribers, decide_eq_true_eq]
  constructor
  · rintro ⟨⟨key, hget, hop⟩, hslot⟩
    have hkey : key = (sub.link.id, sub.rerid) := h.consistent.key_eq hget
    -- the owner of the subscription has the same place, so it is the client
    obtain ⟨c', s', hs', hlink⟩ := h.owned hget
    have hcc : c' = c := by
      by_contra hne
      exact (h.apart hs' hs hne).1 (by rw [hlink, hslot])
    subst hcc
    have hss : s' = s := Option.some.inj (hs'.symm.trans hs)
    rw [← hss, hlink, ← hkey]
    exact ⟨hget, hop⟩
  · rintro ⟨hget, hop⟩
    -- the owner has the same id, so it is the client
    obtain ⟨c', s', hs', hlink⟩ := h.owned hget
    have hid : sub.link.id = s.link.id := (h.consistent.stored hget).2
    have hcc : c' = c := by
      by_contra hne
      exact (h.apart hs' hs hne).2 (by rw [hlink, hid])
    subst hcc
    have hss : s' = s := Option.some.inj (hs'.symm.trans hs)
    exact ⟨⟨_, hget, hop⟩, by rw [← hss, hlink]⟩

/-- The ids of the subscriptions of a client for an operation. -/
def rerids (cs : ClientSessions C) (s : Session) (op : String) : List Int64 :=
  (Gateway.subscribersAt cs.board.subscriptions op s.link).map Subscription.rerid

omit [DecidableEq C] in
/-- The subscriptions that a client has are those of its connection in the table. -/
theorem Sound.mem_rerids (h : Sound cs) (hs : cs.sessions c = some s) {op : String}
    {rerid : Int64} :
    rerid ∈ cs.rerids s op ↔ cs.board.subscriptions.Has s.link.id rerid op := by
  unfold rerids Subscriptions.Has
  rw [List.mem_map]
  constructor
  · rintro ⟨sub, hsub, rfl⟩
    exact ⟨sub, (h.mem_subscribersAt hs).mp hsub⟩
  · rintro ⟨sub, hget, hop⟩
    have hrerid : sub.rerid = rerid := (h.consistent.stored hget).1
    exact ⟨sub, (h.mem_subscribersAt hs).mpr ⟨hrerid ▸ hget, hop⟩, hrerid⟩

omit [DecidableEq C] in
/-- A client has each of its subscriptions once. -/
theorem Sound.nodup_rerids (h : Sound cs) (hs : cs.sessions c = some s) (op : String) :
    (cs.rerids s op).Nodup := by
  apply List.Nodup.map_on
  · intro sub hsub sub' hsub' heq
    have hget := ((h.mem_subscribersAt hs).mp hsub).1
    have hget' := ((h.mem_subscribersAt hs).mp hsub').1
    rw [heq] at hget
    exact Option.some.inj (hget.symm.trans hget')
  · exact (h.consistent.nodup_subscribers op).filter _

omit [DecidableEq C] in
/-- Two gateways that look alike have the same ids of a client's subscriptions, if perhaps in
another order. -/
theorem perm_rerids (h : Sound cs) (h' : Sound cs') {s' : Session}
    (hs : cs.sessions c = some s) (hs' : cs'.sessions c = some s')
    (hsame : Session.Alike cs.board cs'.board s s') (op : String) :
    (cs.rerids s op).Perm (cs'.rerids s' op) := by
  rw [List.perm_ext_iff_of_nodup (h.nodup_rerids hs op) (h'.nodup_rerids hs' op)]
  intro rerid
  rw [h.mem_rerids hs, h'.mem_rerids hs', hsame.subscribed]

/-- **A publish** queues the same for a client on two gateways that look alike, but for the order.
-/
theorem Alike.publish (ha : Alike c cs cs') (h : Sound cs) (h' : Sound cs') (op : String)
    (content : Content) (hroom : roomy c (step g (.publish op content) cs) = true) :
    (Event.publish (C := C) op content).Agrees (gained c cs (step g (.publish op content) cs))
        (gained c cs' (step g (.publish op content) cs')) ∧
      Alike c (step g (.publish op content) cs) (step g (.publish op content) cs') := by
  unfold Alike at ha
  show (_ ∧ _) ∧ Option.Rel (Session.Alike (cs.board.publish op content).2
    (cs'.board.publish op content).2) (cs.sessions c) (cs'.sessions c)
  -- The client gains the frames of its own session and nothing without one.
  have hgained : ∀ cs : ClientSessions C, gained c cs (step g (.publish op content) cs) =
      (cs.sessions c).elim [] fun s => s.newFrames cs.board (cs.board.publish op content).2 := by
    intro cs
    unfold gained
    cases hs : cs.sessions c with
    | none =>
      show (cs.sessions c).elim [] _ = []
      rw [hs]
      rfl
    | some s => rfl
  rw [hgained, hgained]
  cases hs : cs.sessions c with
  | none =>
    rw [hs] at ha
    generalize cs'.sessions c = x at ha ⊢
    cases ha
    exact ⟨⟨by simp, [], .nil, .nil⟩, .none⟩
  | some s =>
    rw [hs] at ha
    cases hs' : cs'.sessions c with
    | none =>
      rw [hs'] at ha
      cases ha
    | some s' =>
      rw [hs'] at ha
      cases ha with
      | some hsame =>
        -- Room behind the events is what keeps the first run from dropping one that the second has.
        have hroom' : (cs.board.publish op content).2.links.hasRoomBehind s.link 0 = true := by
          unfold roomy at hroom
          rw [show (step g (.publish op content) cs).sessions c = some s from hs] at hroom
          exact hroom
        obtain ⟨halike, hagree⟩ :=
          hsame.publish (perm_rerids h h' hs hs' hsame op) content hroom'
        exact ⟨hagree, .some halike⟩

/-! ## Whole runs -/

omit [DecidableEq C] in
/-- If the ids suffice for a run, they suffice for every part of it. -/
theorem EnoughIds.sublist {es es' : List (Event C)} (h : cs.EnoughIds es')
    (hsub : List.Sublist es es') : cs.EnoughIds es := by
  have hle : es.countP Event.arrives ≤ es'.countP Event.arrives := hsub.countP_le
  unfold EnoughIds at h ⊢
  omega

/-- A queue that never fills has room after the first event. -/
theorem NeverFills.head {e : Event C} {es : List (Event C)} (h : NeverFills g c (e :: es) cs) :
    roomy c (step g e cs) = true :=
  h [e] (List.mem_inits _ _ |>.mpr ⟨es, rfl⟩)

/-- A queue that never fills during a run does not fill during the rest of it. -/
theorem NeverFills.tail {e : Event C} {es : List (Event C)} (h : NeverFills g c (e :: es) cs) :
    NeverFills g c es (step g e cs) := by
  intro before hbefore
  rw [List.mem_inits] at hbefore
  exact h (e :: before) ((List.mem_inits _ _).mpr ((List.prefix_cons_inj e).mpr hbefore))

/-- **One thing that concerns the client** queues the same on two gateways that look alike, and they
look alike afterwards. -/
theorem Alike.concerned (ha : Alike c cs cs') (h : Sound cs) (h' : Sound cs')
    (hg : g.HasBuiltins) {e : Event C} (he : e.concerns c = true)
    (hids : e.arrives = true → cs.board.registry.lastId.toNat + 1 < 2 ^ 64)
    (hids' : e.arrives = true → cs'.board.registry.lastId.toNat + 1 < 2 ^ 64)
    (hroom : roomy c (step g e cs) = true) :
    e.Agrees (gained c cs (step g e cs)) (gained c cs' (step g e cs')) ∧
      Alike c (step g e cs) (step g e cs') := by
  cases e with
  | publish op content => exact ha.publish h h' op content hroom
  | client c' d =>
    have hc : c' = c := by simpa [Event.concerns] using he
    subst hc
    exact ha.own h h' hg d hids hids'

/-- By induction on what happens: the others cannot be seen, and what concerns the client does the
same on both gateways. -/
theorem trace_agrees (hg : g.HasBuiltins) (c : C) (es : List (Event C)) {cs cs' : ClientSessions C}
    (ha : Alike c cs cs') (h : Sound cs) (h' : Sound cs') (hids : cs.EnoughIds es)
    (hids' : cs'.EnoughIds (es.filter (Event.concerns c))) (hroom : NeverFills g c es cs) :
    (∀ x ∈ trace g c es cs, x.1.concerns c = false → x.2 = []) ∧
      List.Forall₂ (fun x y => x.1 = y.1 ∧ x.1.Agrees x.2 y.2)
        ((trace g c es cs).filter fun x => x.1.concerns c)
        (trace g c (es.filter (Event.concerns c)) cs') := by
  -- Induction on the events of the full run: one that does not concern the client leaves the
  -- projection where it is, and the others are made in both runs.
  induction es generalizing cs cs' with
  | nil => exact ⟨by simp [trace], .nil⟩
  | cons e rest ih =>
    have hstep := h.step hg e hids.head
    have hids₁ := hids.tail hg h
    rw [trace]
    cases he : e.concerns c with
    | false =>
      rw [List.filter_cons_of_neg (by simp [he])] at hids' ⊢
      obtain ⟨hnothing, hagree⟩ := ih (ha.other h hg he) hstep h' hids₁ hids' hroom.tail
      rw [List.filter_cons_of_neg (by simp [he])]
      refine ⟨?_, hagree⟩
      intro x hx hother
      rcases List.mem_cons.mp hx with rfl | hx
      · exact gained_other h hg he
      · exact hnothing x hx hother
    | true =>
      rw [List.filter_cons_of_pos (by simp [he])] at hids' ⊢
      obtain ⟨hsame, halike⟩ := ha.concerned h h' hg he hids.head hids'.head hroom.head
      obtain ⟨hnothing, hagree⟩ :=
        ih halike hstep (h'.step hg e hids'.head) hids₁ (hids'.tail hg h') hroom.tail
      rw [List.filter_cons_of_pos (by simp [he])]
      refine ⟨?_, .cons ⟨rfl, hsame⟩ hagree⟩
      intro x hx hother
      rcases List.mem_cons.mp hx with rfl | hx
      · rw [show Event.concerns c e = false from hother] at he
        cases he
      · exact hnothing x hx hother

/-- **Clients do not see each other.** Take any run from the start of a gateway with the built-in
operations, in which clients arrive, send frames, have their queues flushed and leave, and events
are published; and the same run without what the other clients did. If a client's queue never
fills, then nothing is queued for it while others act, and whenever it acts itself or an event is
published, the same frames are queued for it in both runs, but for their instance ids and for the
order of the events of one publish. The ids of connections are given out one after another and
must not begin again within the run. -/
theorem isolation {g : Gateway} (hg : g.HasBuiltins) (c : C) (es : List (Event C))
    (hids : es.countP Event.arrives < 2 ^ 64) (hroom : NeverFills g c es start) :
    (∀ x ∈ trace g c es start, x.1.concerns c = false → x.2 = []) ∧
      List.Forall₂ (fun x y => x.1 = y.1 ∧ x.1.Agrees x.2 y.2)
        ((trace g c es start).filter fun x => x.1.concerns c)
        (trace g c (es.filter (Event.concerns c)) start) := by
  have henough : (start : ClientSessions C).EnoughIds es := by
    unfold EnoughIds
    show 0 + _ < _
    omega
  exact trace_agrees hg c es .none sound_start sound_start henough
    (henough.sublist List.filter_sublist) hroom

/-- Another client arrives first, subscribes with the same id and leaves again. -/
theorem isolation_same_id :
    let text := "\x7b\"id\":7,\"op\":\"heartbeat\",\"type\":\"sub\"\x7d"
    let peer := Net.Address.v4 [127, 0, 0, 1] 80
    let es : List (Event Bool) :=
      [.client false (.arrive peer ⟨.upgraded⟩), .client true (.arrive peer ⟨.upgraded⟩),
        .client false (.frame (.text text) 0), .client true (.frame (.text text) 0),
        .publish "heartbeat" (Heartbeat.beat 1 0), .client false .leave,
        .publish "heartbeat" (Heartbeat.beat 2 0)]
    ∃ g : Gateway, g.HasBuiltins ∧ NeverFills g true es start ∧
      List.Forall₂ (fun x y => x.1 = y.1 ∧ x.1.Agrees x.2 y.2)
        ((trace g true es start).filter fun x => x.1.concerns true)
        (trace g true (es.filter (Event.concerns true)) start) := by
  intro text peer es
  refine ⟨{ Gateway.ofConfig {} with operations := ⟨builtinOperations, by decide⟩ },
    fun _ => rfl, ?_, ?_⟩
  · unfold NeverFills
    decide +kernel
  · exact (isolation (fun _ => rfl) true es (by decide +kernel) (by
      unfold NeverFills
      decide +kernel)).2

end ClientSessions

end WsGateway
