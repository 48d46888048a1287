import Mathlib.Data.List.Perm.Basic
import WsGateway.Proofs.Gateway.ClientSessions

/-!
# Sessions that look alike

Two sessions, each on its own board, look alike to their client if their connections have equally
many frames waiting and the same subscriptions are theirs (`Session.Alike`); their places, their ids
and everything that belongs to other clients may differ. Whatever the client does has the same
effect on both (`Session.Alike.act`), and so has a publish, except for the order in which it visits
the subscriptions (`Session.Alike.publish`). The frames that are queued meanwhile are the same but
for their instance ids (`Frame.SameButId`).
-/

namespace WsGateway

/-! ## Frames that differ in their instance ids -/

/-- The frames are the same but for the instance id of a response. -/
def Frame.SameButId (f f' : Frame) : Prop :=
  f = f' ∨ ∃ (r : Response) (i i' : UInt64), f = r.toFrame i ∧ f' = r.toFrame i'

/-- The same responses numbered from two starts differ in their ids alone. -/
theorem Response.forall₂_numbered (rs : List Response) (i i' : UInt64) :
    List.Forall₂ Frame.SameButId (numbered i rs) (numbered i' rs) := by
  induction rs generalizing i i' with
  | nil => exact .nil
  | cons r rest ih => exact .cons (Or.inr ⟨r, i, i', rfl, rfl⟩) (ih (i + 1) (i' + 1))

/-! ## Connections that look alike -/

namespace Connection

/-- The connections accept the same, and have equally many frames waiting. -/
structure Alike (c c' : Connection) : Prop where
  closed : c.closed = c'.closed
  receiving : c.receiving = c'.receiving
  capacity : c.capacity = c'.capacity
  queued : c.queue.length = c'.queue.length

variable {c c' : Connection}

theorem Alike.isWritable (h : Alike c c') : c.isWritable = c'.isWritable := by
  unfold Connection.isWritable
  rw [h.closed, h.receiving]

theorem Alike.free (h : Alike c c') : c.free = c'.free := by
  unfold Connection.free
  rw [h.isWritable, h.capacity, h.queued]

/-- Connections that look alike still do after a frame each, whatever the two frames say. -/
theorem Alike.write (h : Alike c c') (f f' : Frame) : Alike (c.write f).2 (c'.write f').2 := by
  have hroom : (c.isWritable && c.hasRoom) = (c'.isWritable && c'.hasRoom) := by
    unfold hasRoom
    rw [h.isWritable, h.capacity, h.queued]
  unfold Connection.write
  rw [hroom]
  split
  · refine ⟨h.closed, h.receiving, h.capacity, ?_⟩
    show (c.queue ++ [_]).length = (c'.queue ++ [_]).length
    rw [List.length_append, List.length_append, h.queued]
    rfl
  · exact h

/-- Connections that look alike still do after as many frames each. -/
theorem Alike.writeAll (h : Alike c c') {fs fs' : List Frame} (hlength : fs.length = fs'.length) :
    Alike (c.writeAll fs) (c'.writeAll fs') := by
  induction fs generalizing c c' fs' with
  | nil =>
    rw [List.length_eq_zero_iff.mp hlength.symm]
    exact h
  | cons f rest ih =>
    cases fs' with
    | nil => cases hlength
    | cons f' rest' => exact ih (h.write f f') (Nat.succ.inj hlength)

/-- Taking frames off a queue leaves the later ones. -/
theorem takeMany_queue (c : Connection) (reached : Bool) (count : Nat) :
    (c.takeMany reached count).2.queue = c.queue.drop count := by
  induction count generalizing c with
  | zero => rfl
  | succ n ih =>
    unfold takeMany take
    cases hq : c.queue with
    | nil => exact hq
    | cons o rest => exact ih _

/-- The writer changes the queue and nothing else of a connection. -/
theorem takeMany_keeps (c : Connection) (reached : Bool) (count : Nat) :
    (c.takeMany reached count).2.closed = c.closed ∧
      (c.takeMany reached count).2.receiving = c.receiving ∧
      (c.takeMany reached count).2.capacity = c.capacity := by
  induction count generalizing c with
  | zero => exact ⟨rfl, rfl, rfl⟩
  | succ n ih =>
    unfold takeMany take
    cases c.queue with
    | nil => exact ⟨rfl, rfl, rfl⟩
    | cons o rest => exact ih _

/-- Connections that look alike still do after the writer took as many frames from each. -/
theorem Alike.takeMany (h : Alike c c') (reached : Bool) (count : Nat) :
    Alike (c.takeMany reached count).2 (c'.takeMany reached count).2 := by
  obtain ⟨hclosed, hreceiving, hcapacity⟩ := c.takeMany_keeps reached count
  obtain ⟨hclosed', hreceiving', hcapacity'⟩ := c'.takeMany_keeps reached count
  refine ⟨?_, ?_, ?_, ?_⟩
  · rw [hclosed, hclosed', h.closed]
  · rw [hreceiving, hreceiving', h.receiving]
  · rw [hcapacity, hcapacity', h.capacity]
  · rw [takeMany_queue, takeMany_queue, List.length_drop, List.length_drop, h.queued]

/-- Writing leaves the capacity of a queue as it is. -/
theorem capacity_writeAll (c : Connection) (fs : List Frame) :
    (c.writeAll fs).capacity = c.capacity := by
  induction fs generalizing c with
  | nil => rfl
  | cons f rest ih =>
    rw [writeAll, ih]
    unfold write
    split <;> rfl

/-- Where room is left after several frames were written, all of them were accepted, unless none
ever was. -/
theorem take_free_of_room {c : Connection} {fs : List Frame}
    (h : (c.writeAll fs).queue.length < c.capacity) : fs.take c.free = fs ∨ c.free = 0 := by
  have hlength : (c.writeAll fs).queue.length = c.queue.length + min c.free fs.length := by
    have hframes := congrArg List.length (frames_writeAll c fs)
    rw [List.length_append, List.length_take, frames, frames, List.length_map,
      List.length_map] at hframes
    exact hframes
  by_cases hw : c.isWritable
  · have hfree : c.free = c.capacity - c.queue.length := by
      unfold free
      rw [if_pos hw]
    exact Or.inl (List.take_of_length_le (by omega))
  · refine Or.inr ?_
    unfold free
    rw [if_neg hw]

end Connection

/-! ## Sessions that look alike -/

/-- There is a subscription for an operation with the id on the connection. -/
def Subscriptions.Has (t : Subscriptions) (conn : UInt64) (rerid : Int64) (op : String) : Prop :=
  ∃ sub, t.subs.get? (conn, rerid) = some sub ∧ sub.op = op

/-- The check whether an id is in use asks for a subscription of the connection with that id, to
whatever operation. -/
theorem Subscriptions.contains_iff {t : Subscriptions} {conn : UInt64} {rerid : Int64} :
    t.contains conn rerid = true ↔ ∃ op, t.Has conn rerid op := by
  unfold contains FinMap.contains Has
  rw [Option.isSome_iff_exists]
  constructor
  · rintro ⟨sub, hsub⟩
    exact ⟨sub.op, sub, hsub, rfl⟩
  · rintro ⟨op, sub, hsub, -⟩
    exact ⟨sub, hsub⟩

/-- Related options stay related under maps that keep the relation. -/
theorem rel_map {α β γ δ : Type} {p : α → β → Prop} {q : γ → δ → Prop} {f : α → γ}
    {f' : β → δ} (hf : ∀ {a b}, p a b → q (f a) (f' b)) {a : Option α} {b : Option β}
    (h : Option.Rel p a b) : Option.Rel q (a.map f) (b.map f') := by
  cases h with
  | none => exact .none
  | some h => exact .some (hf h)

/-- Two sessions, each on its own board, cannot be told apart by their client. -/
structure Session.Alike (b b' : Board) (s s' : Session) : Prop where
  handshake : s.handshake = s'.handshake
  connection : Option.Rel Connection.Alike (b.links.get? s.link) (b'.links.get? s'.link)
  subscribed : ∀ rerid op, b.subscriptions.Has s.link.id rerid op ↔
    b'.subscriptions.Has s'.link.id rerid op

namespace Session

variable {g : Gateway} {b b' : Board} {s s' : Session}

/-- On boards that look alike to a client the same ids are in use for it. -/
theorem Alike.contains (h : Alike b b' s s') (rerid : Int64) :
    b.subscriptions.contains s.link.id rerid = b'.subscriptions.contains s'.link.id rerid := by
  rw [Bool.eq_iff_iff, Subscriptions.contains_iff, Subscriptions.contains_iff]
  exact exists_congr (h.subscribed rerid)

theorem Alike.free (h : Alike b b' s s') : b.links.free s.link = b'.links.free s'.link := by
  have hconnection := h.connection
  unfold Links.free
  generalize b.links.get? s.link = c at hconnection ⊢
  generalize b'.links.get? s'.link = c' at hconnection ⊢
  cases hconnection with
  | none => rfl
  | some hc => exact hc.free

/-- A session stays alike when as many frames are written to both connections, and the
subscriptions stay alike. -/
theorem Alike.written (h : Alike b b' s s') {a a' : Board} {fs fs' : List Frame}
    (hlength : fs.length = fs'.length)
    (hget : a.links.get? s.link = (b.links.get? s.link).map fun c => c.writeAll fs)
    (hget' : a'.links.get? s'.link = (b'.links.get? s'.link).map fun c => c.writeAll fs')
    (hsubs : ∀ rerid op, a.subscriptions.Has s.link.id rerid op ↔
      a'.subscriptions.Has s'.link.id rerid op) : Alike a a' s s' where
  handshake := h.handshake
  connection := by
    rw [hget, hget']
    exact rel_map (fun hc => hc.writeAll hlength) h.connection
  subscribed := hsubs

/-- The answers to a request depend on the subscriptions of its own session only. -/
theorem Alike.answersTo (h : Alike b b' s s') (r : Request) :
    answersTo b.subscriptions s.link r = answersTo b'.subscriptions s'.link r := by
  unfold WsGateway.answersTo
  rw [h.contains]

/-- On boards that look alike to a client a text frame has the same answers. -/
theorem Alike.answersToText (h : Alike b b' s s') (text : String) :
    answersToText b.subscriptions s.link text = answersToText b'.subscriptions s'.link text := by
  unfold WsGateway.answersToText
  simp only [h.answersTo]

/-- What a dispatch does to the subscriptions of its own connection. -/
theorem has_dispatch (hg : g.HasBuiltins) (k : Link) (r : Request) (b : Board) (rerid : Int64)
    (op : String) :
    (b.switchboard.dispatch g.operations k r).2.subscriptions.Has k.id rerid op ↔
      ((WsGateway.answersTo b.subscriptions k r).1 = .handled ∧ r.kind = .subscribe ∧
          rerid = r.id ∧ op = r.op) ∨
        (b.subscriptions.Has k.id rerid op ∧
          ¬ (r.kind = .unsubscribe ∧ (g.operations.lookup r.op).isSome ∧ rerid = r.id)) := by
  have hout : (b.switchboard.dispatch g.operations k r).1 =
      (WsGateway.answersTo b.subscriptions k r).1 :=
    (Switchboard.dispatch_builtin hg k r b.switchboard).1
  have hkey : ((k.id, rerid) = (k.id, r.id)) ↔ rerid = r.id := by simp
  unfold Subscriptions.Has
  simp only [Switchboard.get?_dispatch, hout, hkey]
  constructor
  · rintro ⟨sub, ⟨hhandled, hkind, hrerid, rfl⟩ | ⟨hold, hnot⟩, hop⟩
    · exact Or.inl ⟨hhandled, hkind, hrerid, hop.symm⟩
    · exact Or.inr ⟨⟨sub, hold, hop⟩, hnot⟩
  · rintro (⟨hhandled, hkind, hrerid, rfl⟩ | ⟨⟨sub, hold, hop⟩, hnot⟩)
    · exact ⟨_, Or.inl ⟨hhandled, hkind, hrerid, rfl⟩, rfl⟩
    · exact ⟨sub, Or.inr ⟨hold, hnot⟩, hop⟩

/-- A connection that is answered gets the answers numbered from the next instance id. -/
theorem get?_respond_self (l : Links) (k : Link) (rs : List Response) :
    (l.respond k rs).get? k =
      (l.get? k).map fun c => c.writeAll (Response.numbered l.nextInstance rs) := by
  rw [Links.get?_respond, if_pos rfl]

/-- From `b` to `a` and from `b'` to `a'` the same frames were written to the two sessions, but for
their instance ids, and the sessions look alike afterwards. -/
def Abreast (b b' a a' : Board) (s s' : Session) : Prop :=
  Alike a a' s s' ∧ ∃ fs fs', List.Forall₂ Frame.SameButId fs fs' ∧
    a.links.get? s.link = (b.links.get? s.link).map (fun c => c.writeAll fs) ∧
    a'.links.get? s'.link = (b'.links.get? s'.link).map (fun c => c.writeAll fs')

theorem Alike.abreast_self (h : Alike b b' s s') : Abreast b b' b b' s s' := by
  have hnothing : ∀ x : Option Connection, x = x.map fun c => c.writeAll [] := by
    intro x
    exact (congrFun Option.map_id x).symm
  exact ⟨h, [], [], .nil, hnothing _, hnothing _⟩

/-- The same responses are sent to two sessions that look alike. -/
theorem Alike.abreast_respond (h : Alike b b' s s') (rs : List Response) {a a' : Board}
    (hlinks : a.links = b.links.respond s.link rs)
    (hlinks' : a'.links = b'.links.respond s'.link rs)
    (hsubs : ∀ rerid op, a.subscriptions.Has s.link.id rerid op ↔
      a'.subscriptions.Has s'.link.id rerid op) : Abreast b b' a a' s s' := by
  have hget : a.links.get? s.link = _ := hlinks ▸ get?_respond_self b.links s.link rs
  have hget' : a'.links.get? s'.link = _ := hlinks' ▸ get?_respond_self b'.links s'.link rs
  have hsame := Response.forall₂_numbered rs b.links.nextInstance b'.links.nextInstance
  exact ⟨h.written hsame.length_eq hget hget' hsubs, _, _, hsame, hget, hget'⟩

/-- A text does the same to two sessions that look alike. -/
theorem Alike.abreast_text (h : Alike b b' s s') (hg : g.HasBuiltins) (elapsed : Nat)
    (text : String) :
    Abreast b b' (g.onFrame elapsed s.link (.text text) b).2
      (g.onFrame elapsed s'.link (.text text) b').2 s s' := by
  apply h.abreast_respond (WsGateway.answersToText b.subscriptions s.link text)
  · exact Gateway.links_onFrame_text hg elapsed s.link text b
  · rw [h.answersToText]
    exact Gateway.links_onFrame_text hg elapsed s'.link text b'
  · intro rerid op
    cases hr : Request.parse text with
    | error bad =>
      rw [(Gateway.onFrame_malformed hr elapsed s.link b).1,
        (Gateway.onFrame_malformed hr elapsed s'.link b').1]
      exact h.subscribed rerid op
    | ok r =>
      rw [(Gateway.onFrame_request hr elapsed s.link b).1,
        (Gateway.onFrame_request hr elapsed s'.link b').1,
        has_dispatch hg, has_dispatch hg, h.answersTo, h.subscribed]

/-- **A frame of the client does the same** to two sessions that look alike: it ends both or
neither, and the same frames are written but for their instance ids. -/
theorem Alike.abreast_frame (h : Alike b b' s s') (hg : g.HasBuiltins) (elapsed : Nat)
    (f : Frame) :
    (s.onFrame g elapsed f b).1 = (s'.onFrame g elapsed f b').1 ∧
      Abreast b b' (s.onFrame g elapsed f b).2 (s'.onFrame g elapsed f b').2 s s' := by
  unfold Session.onFrame
  rw [← h.handshake]
  -- Both sessions have the same handshake, so one case split on its answer serves both.
  cases s.handshake.onFrame f with
  | error e =>
    have hreject : Abreast b b' (s.reject f e b) (s'.reject f e b') s s' :=
      h.abreast_respond [.failure 0 0 none e.message] rfl rfl h.subscribed
    exact ⟨rfl, hreject⟩
  | ok action =>
    cases action with
    | forward =>
      cases f with
      | text text => exact ⟨rfl, h.abreast_text hg elapsed text⟩
      | _ => exact ⟨rfl, h.abreast_self⟩
    | pong payload =>
      -- A pong echoes the client's own payload, so it is the same frame on both sides.
      have hget : ∀ (l : Links) (k : Link), (l.write k (.pong payload)).2.get? k =
          (l.get? k).map fun c => c.writeAll [.pong payload] := by
        intro l k
        rw [Links.get?_write, if_pos rfl]
        rfl
      exact ⟨rfl, h.written rfl (hget _ _) (hget _ _) h.subscribed, _, _,
        .cons (Or.inl rfl) .nil, hget _ _, hget _ _⟩
    | ignore => exact ⟨rfl, h.abreast_self⟩
    | close => exact ⟨rfl, h.abreast_self⟩

/-! ## What is queued for a session -/

/-- The frames that were queued for a session from one board to another. -/
def newFrames (s : Session) (b a : Board) : List Frame :=
  (a.links.frames s.link).drop (b.links.frames s.link).length

/-- A connection that is as it was has no new frames. -/
theorem newFrames_of_links {a : Board} (h : a.links.get? s.link = b.links.get? s.link) :
    s.newFrames b a = [] := by
  unfold newFrames Links.frames
  rw [h, List.drop_length]

/-- Frames that are written to a session are queued as far as there is room. -/
theorem newFrames_of_writeAll {a : Board} {fs : List Frame}
    (hget : a.links.get? s.link = (b.links.get? s.link).map fun c => c.writeAll fs) :
    s.newFrames b a = fs.take (b.links.free s.link) := by
  have hframes := Links.frames_of_writeAll hget
  unfold newFrames
  rw [hframes, List.drop_left]

/-- The end of a session closes its connection and takes no frame from it. -/
theorem get?_finish_links (s : Session) (b : Board) :
    (s.finish b).links.get? s.link = (b.links.get? s.link).map Connection.close := by
  show (b.links.modify s.link Connection.close).get? s.link = _
  rw [Links.get?_modify, if_pos rfl]

/-- The end of a session queues nothing. -/
theorem newFrames_finish (s : Session) (b a : Board) :
    s.newFrames b (s.finish a) = s.newFrames b a := by
  have hframes : (s.finish a).links.frames s.link = a.links.frames s.link := by
    unfold Links.frames
    rw [get?_finish_links]
    cases a.links.get? s.link <;> rfl
  unfold newFrames
  rw [hframes]

/-- Frames that the writer takes leave no new ones behind. -/
theorem newFrames_flush (s : Session) (b : Board) (reached : Bool) (count : Nat) :
    s.newFrames b (b.setLinks (b.links.modify s.link fun c => (c.takeMany reached count).2)) =
      [] := by
  have hlength : ((b.links.modify s.link fun c => (c.takeMany reached count).2).frames
      s.link).length ≤ (b.links.frames s.link).length := by
    unfold Links.frames
    rw [Links.get?_modify, if_pos rfl]
    cases b.links.get? s.link with
    | none => exact Nat.le_refl _
    | some c =>
      show ((c.takeMany reached count).2.queue.map _).length ≤ (c.queue.map _).length
      rw [Connection.takeMany_queue, List.length_map, List.length_map, List.length_drop]
      omega
  exact List.drop_eq_nil_of_le hlength

/-- Boards that go abreast give the client the same new frames up to the ids. -/
theorem Abreast.newFrames {a a' : Board} (h : Alike b b' s s') (ha : Abreast b b' a a' s s') :
    List.Forall₂ Frame.SameButId (s.newFrames b a) (s'.newFrames b' a') := by
  obtain ⟨-, fs, fs', hsame, hget, hget'⟩ := ha
  rw [newFrames_of_writeAll hget, newFrames_of_writeAll hget', h.free]
  exact List.forall₂_take _ hsame

/-- **What a client does is the same** to two sessions that look alike. -/
theorem Alike.act (h : Alike b b' s s') (hg : g.HasBuiltins) (d : ClientAction) :
    Option.Rel (Alike (d.act g (some s) b).2 (d.act g (some s') b').2)
        (d.act g (some s) b).1 (d.act g (some s') b').1 ∧
      List.Forall₂ Frame.SameButId (s.newFrames b (d.act g (some s) b).2)
        (s'.newFrames b' (d.act g (some s') b').2) := by
  cases d with
  | arrive peer hs =>
    refine ⟨.some h, ?_⟩
    show List.Forall₂ _ (s.newFrames b b) (s'.newFrames b' b')
    rw [newFrames_of_links rfl, newFrames_of_links rfl]
    exact .nil
  | flush count reached =>
    refine ⟨.some ⟨h.handshake, ?_, h.subscribed⟩, ?_⟩
    · show Option.Rel _ ((b.links.modify s.link _).get? _) ((b'.links.modify s'.link _).get? _)
      rw [Links.get?_modify, Links.get?_modify, if_pos rfl, if_pos rfl]
      exact rel_map (fun hc => hc.takeMany reached count) h.connection
    · show List.Forall₂ _ (s.newFrames b (b.setLinks _)) (s'.newFrames b' (b'.setLinks _))
      rw [newFrames_flush, newFrames_flush]
      exact .nil
  | leave =>
    refine ⟨.none, ?_⟩
    show List.Forall₂ _ (s.newFrames b (s.finish b)) (s'.newFrames b' (s'.finish b'))
    rw [newFrames_finish, newFrames_finish, newFrames_of_links rfl, newFrames_of_links rfl]
    exact .nil
  | frame f elapsed =>
    -- Both sessions go on or both end, and the end adds no frame.
    obtain ⟨hgoes, habreast⟩ := h.abreast_frame hg elapsed f
    have hsame := Abreast.newFrames h habreast
    rw [ClientAction.act_frame, ClientAction.act_frame, ← hgoes]
    cases (s.onFrame g elapsed f b).1 with
    | true => exact ⟨.some habreast.1, hsame⟩
    | false =>
      refine ⟨.none, ?_⟩
      show List.Forall₂ _ (s.newFrames b (s.finish _)) (s'.newFrames b' (s'.finish _))
      rw [newFrames_finish, newFrames_finish]
      exact hsame

end Session

/-! ## Events for sessions that look alike -/

def eventFor (op : String) (v : Json.Value) (rerid : Int64) : Response :=
  ⟨0, rerid, .event, some op, .content v⟩

/-- The events for a connection are those for the ids of its subscribers, in their order. -/
theorem Subscriptions.forall₂_eventFor (op : String) (v : Json.Value) (k : Link) (i : UInt64)
    (subs : List Subscription) :
    List.Forall₂ (fun rerid f => ∃ i, f = (eventFor op v rerid).toFrame i)
      ((subs.filter fun s => s.link.slot = k.slot).map Subscription.rerid)
      (eventsFor k (events op v i subs)) := by
  induction subs generalizing i with
  | nil => exact .nil
  | cons s rest ih =>
    unfold events eventsFor
    by_cases hslot : s.link.slot = k.slot
    · rw [List.filter_cons_of_pos (by simpa using hslot),
        List.filter_cons_of_pos (by simpa using hslot)]
      exact .cons ⟨i, rfl⟩ (ih (i + 1))
    · rw [List.filter_cons_of_neg (by simpa using hslot),
        List.filter_cons_of_neg (by simpa using hslot)]
      exact ih (i + 1)

/-- Events for the same ids, in whatever order, are the same but for their instance ids and their
order. -/
theorem exists_perm_events {op : String} {v : Json.Value} {rerids rerids' : List Int64}
    {fs fs' : List Frame} (hperm : rerids.Perm rerids')
    (h : List.Forall₂ (fun rerid f => ∃ i, f = (eventFor op v rerid).toFrame i) rerids fs)
    (h' : List.Forall₂ (fun rerid f => ∃ i, f = (eventFor op v rerid).toFrame i) rerids' fs') :
    ∃ gs, List.Forall₂ Frame.SameButId fs gs ∧ gs.Perm fs' := by
  -- The second run's events are put into the first run's order; then they differ in the ids alone.
  obtain ⟨gs, hgs, hpermgs⟩ := List.perm_comp_forall₂ hperm h'
  refine ⟨gs, ?_, hpermgs⟩
  clear hperm h' hpermgs
  induction h generalizing gs with
  | nil =>
    cases hgs
    exact .nil
  | cons hf _ ih =>
    cases hgs with
    | cons hg hrest =>
      obtain ⟨i, rfl⟩ := hf
      obtain ⟨i', rfl⟩ := hg
      exact .cons (Or.inr ⟨_, i, i', rfl, rfl⟩) (ih _ hrest)

namespace Session

variable {b b' : Board} {s s' : Session}

/-- A publish writes the events for a session's subscribers to its connection. -/
theorem get?_publish {content : Content} {v : Json.Value} (hc : content.toValue = .ok v)
    (b : Board) (op : String) (k : Link) :
    (b.publish op content).2.links.get? k = (b.links.get? k).map fun c =>
      c.writeAll (Subscriptions.eventsFor k
        (Subscriptions.events op v b.links.nextInstance (b.subscriptions.subscribers op))) := by
  rw [Gateway.links_publish_of_ok hc, Subscriptions.get?_notifyAll]

/-- Where the queue has room after several frames were written, all of them were queued, unless none
can be. -/
theorem take_free_of_room {a : Board} {fs : List Frame}
    (hget : a.links.get? s.link = (b.links.get? s.link).map fun c => c.writeAll fs)
    (hroom : a.links.hasRoomBehind s.link 0 = true) :
    fs.take (b.links.free s.link) = fs ∨ b.links.free s.link = 0 := by
  unfold Links.hasRoomBehind at hroom
  rw [hget] at hroom
  unfold Links.free
  cases hc : b.links.get? s.link with
  | none => exact Or.inr rfl
  | some c =>
    rw [hc] at hroom
    have hlength : (c.writeAll fs).queue.length < c.capacity := by
      simpa [Connection.capacity_writeAll] using hroom
    exact Connection.take_free_of_room hlength

/-- A publish does the same to two sessions that look alike, if its subscribers are the same in
some order and the queue does not fill. -/
theorem Alike.publish (h : Alike b b' s s') {op : String}
    (hperm : ((Gateway.subscribersAt b.subscriptions op s.link).map Subscription.rerid).Perm
      ((Gateway.subscribersAt b'.subscriptions op s'.link).map Subscription.rerid))
    (content : Content)
    (hroom : (b.publish op content).2.links.hasRoomBehind s.link 0 = true) :
    Alike (b.publish op content).2 (b'.publish op content).2 s s' ∧
      (∀ f ∈ s.newFrames b (b.publish op content).2, ∃ rerid, f.IsEvent rerid) ∧
      ∃ gs, List.Forall₂ Frame.SameButId (s.newFrames b (b.publish op content).2) gs ∧
        gs.Perm (s'.newFrames b' (b'.publish op content).2) := by
  cases hc : content.toValue with
  | error message =>
    have hlinks := Gateway.links_publish_of_error hc b op
    have hlinks' := Gateway.links_publish_of_error hc b' op
    refine ⟨⟨h.handshake, by rw [hlinks, hlinks']; exact h.connection, h.subscribed⟩, ?_⟩
    rw [newFrames_of_links (by rw [hlinks]), newFrames_of_links (by rw [hlinks'])]
    exact ⟨by simp, [], .nil, .nil⟩
  | ok v =>
    have hget := get?_publish hc b op s.link
    have hget' := get?_publish hc b' op s'.link
    have hevents := Subscriptions.forall₂_eventFor op v s.link b.links.nextInstance
      (b.subscriptions.subscribers op)
    have hevents' := Subscriptions.forall₂_eventFor op v s'.link b'.links.nextInstance
      (b'.subscriptions.subscribers op)
    set fs := Subscriptions.eventsFor s.link (Subscriptions.events op v b.links.nextInstance
      (b.subscriptions.subscribers op))
    set fs' := Subscriptions.eventsFor s'.link (Subscriptions.events op v b'.links.nextInstance
      (b'.subscriptions.subscribers op))
    obtain ⟨gs, hsame, hgs⟩ := exists_perm_events hperm hevents hevents'
    have hlength : fs.length = fs'.length := hsame.length_eq.trans hgs.length_eq
    refine ⟨h.written hlength hget hget' h.subscribed, ?_⟩
    rw [newFrames_of_writeAll hget, newFrames_of_writeAll hget', ← h.free]
    rcases take_free_of_room hget hroom with hall | hnone
    · -- there was room for all of them on the one side, and so there is on the other
      have hle : fs.length ≤ b.links.free s.link := by
        have htake := congrArg List.length hall
        rw [List.length_take] at htake
        omega
      rw [hall, List.take_of_length_le (hlength ▸ hle)]
      refine ⟨?_, gs, hsame, hgs⟩
      intro f hf
      obtain ⟨n, hn, rfl⟩ := List.mem_iff_getElem.mp hf
      have hn' := hevents.length_eq ▸ hn
      obtain ⟨i, hi⟩ := hevents.get hn' hn
      exact ⟨_, i, some op, .content v, hi⟩
    · rw [hnone]
      exact ⟨by simp, [], .nil, .nil⟩

end Session

end WsGateway
