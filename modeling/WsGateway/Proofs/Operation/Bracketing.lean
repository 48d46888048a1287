import Mathlib.Data.List.Induction
import WsGateway.Proofs.Gateway.EventDelivery
import WsGateway.Proofs.Operation.Builtin

/-!
# Acknowledgements and events

A client that asks for beats is sent an acknowledgement, and so is one that wants no more. Both
requests are dispatched in three steps, and beats are published between them (`DispatchStep`). The
subscription is recorded before the first acknowledgement is sent and removed after the second one,
so that two windows are open: a beat that is published in between gets ahead of the first
acknowledgement or follows the second (`DispatchState.events_outside`).

Apart from these windows the acknowledgements bracket the events (`DispatchState.bracketed`):
whatever event is queued has the acknowledgement of its subscription before it and no
acknowledgement of the end in between, unless the queue was full when the acknowledgement was sent.
-/

namespace WsGateway

open Gateway (linkOf)

/-! ## Kinds of frames -/

namespace Response

/-- Responses that agree behind their ids have one kind. -/
theorem kind_eq_of_behindIds {r r' : Response} (h : r.behindIds = r'.behindIds) :
    r.kind = r'.kind := by
  -- the codes of the kinds differ in their first letters
  have hcode : ∀ kind : ResponseKind,
      (Json.printString kind.code).toList = '"' :: (kind.code.toList ++ ['"']) := by
    intro kind
    cases kind <;> decide +kernel
  have hletter : ∀ r : Response, r.behindIds[5]? = r.kind.code.toList.head? := by
    intro r
    unfold behindIds
    simp only [String.toList_append, hcode, List.append_assoc]
    cases r.kind <;> rfl
  have hinj : ∀ a b : ResponseKind, a.code.toList.head? = b.code.toList.head? → a = b := by
    intro a b
    cases a <;> cases b <;> decide
  apply hinj
  rw [← hletter, ← hletter, h]

end Response

/-- The frame acknowledges the start or the end of a subscription to the beats. -/
def Frame.IsAck (text : String) (rerid : Int64) (f : Frame) : Prop :=
  ∃ instanceId, f = .text (Response.print
    ⟨instanceId, rerid, .response, some Heartbeat.op, .content (.string text)⟩)

namespace Frame

variable {f : Frame} {rerid rerid' : Int64} {text text' : String}

/-- An ack is of one subscription. -/
theorem IsAck.rerid_eq (h : f.IsAck text rerid) (h' : f.IsAck text' rerid') : rerid = rerid' := by
  obtain ⟨i, rfl⟩ := h
  obtain ⟨i', heq⟩ := h'
  exact (Response.rerid_eq_of_print (Frame.text.inj heq)).1

/-- An event acknowledges nothing. -/
theorem IsEvent.not_ack (h : f.IsEvent rerid) : ¬ f.IsAck text rerid' := by
  rintro ⟨i', heq⟩
  obtain ⟨i, op, body, rfl⟩ := h
  cases Response.kind_eq_of_behindIds (Response.rerid_eq_of_print (Frame.text.inj heq)).2

end Frame

/-- An error is no ack. -/
theorem Response.failure_not_ack (i i' : UInt64) (r r' : Int64) (op : Option String)
    (message text : String) : ¬ ((Response.failure i r op message).toFrame i').IsAck text r' := by
  rintro ⟨i, heq⟩
  cases kind_eq_of_behindIds (rerid_eq_of_print (Frame.text.inj heq)).2

/-- An error is no event. -/
theorem Response.failure_not_event (i i' : UInt64) (r r' : Int64) (op : Option String)
    (message : String) : ¬ ((Response.failure i r op message).toFrame i').IsEvent r' := by
  rintro ⟨i, op', body, heq⟩
  cases kind_eq_of_behindIds (rerid_eq_of_print (Frame.text.inj heq)).2

/-! ## Steps -/

/-- A request for beats, or for no more of them. -/
structure HeartbeatRequest where
  request : Request
  op_eq : request.op = Heartbeat.op
  kind_mem : request.kind = .subscribe ∨ request.kind = .unsubscribe

def HeartbeatRequest.subscribe (id : Int64) : HeartbeatRequest :=
  ⟨⟨id, Heartbeat.op, .subscribe, none⟩, rfl, Or.inl rfl⟩

def HeartbeatRequest.unsubscribe (id : Int64) : HeartbeatRequest :=
  ⟨⟨id, Heartbeat.op, .unsubscribe, none⟩, rfl, Or.inr rfl⟩

/-- How far the dispatch of a request has come on a connection, which has one at a time. -/
inductive DispatchStage where
  | idle
  /-- A subscription was recorded if it was asked for, and the handler is about to run. -/
  | prepared (w : HeartbeatRequest) (handler : OpHandler)
  /-- The handler has run, and a subscription that was cancelled is about to be removed. -/
  | invoked (w : HeartbeatRequest) (result : Except Failure Unit)

/-- The correlation id whose events may be out of place at a stage: that of a subscription that is
recorded and not acknowledged yet, or of one that is acknowledged to have ended and not removed
yet. -/
def DispatchStage.window : DispatchStage → Option Int64
  | .idle => none
  | .prepared w _ => if w.request.kind = .subscribe then some w.request.id else none
  | .invoked w _ => if w.request.kind = .unsubscribe then some w.request.id else none

/-- A switchboard, and how far each connection has come with its request. -/
structure DispatchState where
  board : Switchboard
  stages : UInt64 → DispatchStage

/-- What the task of a connection, a publisher or a writer does in one step. -/
inductive DispatchStep where
  | prepare (conn : UInt64) (w : HeartbeatRequest)
  | invoke (conn : UInt64)
  | settle (conn : UInt64)
  /-- A publisher sends an event to all that subscribed to the operation. -/
  | publish (op : String) (content : Content)
  /-- The writer of a connection takes frames off its queue. -/
  | flush (conn : UInt64) (count : Nat) (reached : Bool)

namespace DispatchState

section Steps

variable (ops : Operations) (place : UInt64 ↪ Nat)

def start (l : Links) : DispatchState := ⟨⟨l, .empty⟩, fun _ => .idle⟩

def setLinks (d : DispatchState) (l : Links) : DispatchState :=
  { d with board := { d.board with links := l } }

/-- One step; nothing happens if the connection is at another stage. -/
def step (t : DispatchStep) (d : DispatchState) : DispatchState :=
  match t with
  | .prepare conn w =>
    match d.stages conn with
    | .idle =>
      match d.board.prepare ops (linkOf place conn) w.request with
      | (.error _, board) => { d with board := board }
      | (.ok handler, board) => ⟨board, Function.update d.stages conn (.prepared w handler)⟩
    | _ => d
  | .invoke conn =>
    match d.stages conn with
    | .prepared w handler =>
      let (result, board) := d.board.invoke handler (linkOf place conn) w.request
      ⟨board, Function.update d.stages conn (.invoked w result)⟩
    | _ => d
  | .settle conn =>
    match d.stages conn with
    | .invoked w result =>
      ⟨(d.board.settle (linkOf place conn) w.request result).2,
        Function.update d.stages conn .idle⟩
    | _ => d
  | .publish op content =>
    d.setLinks (d.board.subscriptions.publish op content d.board.links).2
  | .flush conn count reached =>
    d.setLinks (d.board.links.modify (linkOf place conn) fun c => (c.takeMany reached count).2)

def run (ts : List DispatchStep) (d : DispatchState) : DispatchState :=
  ts.foldl (fun d t => step ops place t d) d

def queue (conn : UInt64) (d : DispatchState) : List Frame :=
  d.board.links.frames (linkOf place conn)

/-- The frames that a step puts in the queue of a connection, behind those that wait. -/
def gain (conn : UInt64) (t : DispatchStep) (d : DispatchState) : List Frame :=
  match t with
  | .flush _ _ _ => []
  | t => (queue place conn (step ops place t d)).drop (queue place conn d).length

/-- The frames that steps put in the queue of a connection, oldest first. -/
def queued (conn : UInt64) : List DispatchStep → DispatchState → List Frame
  | [], _ => []
  | t :: rest, d => gain ops place conn t d ++ queued conn rest (step ops place t d)

end Steps

variable {ops : Operations} {place : UInt64 ↪ Nat}

/-- A run in two parts is the second one from where the first one ended. -/
theorem run_append (ts ts' : List DispatchStep) (d : DispatchState) :
    run ops place (ts ++ ts') d = run ops place ts' (run ops place ts d) := List.foldl_append

/-- What a connection is sent in a run in two parts is what it is sent in the first and then in the
second. -/
theorem queued_append (conn : UInt64) (ts ts' : List DispatchStep) (d : DispatchState) :
    queued ops place conn (ts ++ ts') d =
      queued ops place conn ts d ++ queued ops place conn ts' (run ops place ts d) := by
  induction ts generalizing d with
  | nil => rfl
  | cons t rest ih =>
    rw [List.cons_append, queued, ih, queued, List.append_assoc]
    rfl

/-! ## What a step queues -/

/-- Connections at different places have different queues. -/
theorem slot_linkOf {conn conn' : UInt64} :
    (linkOf place conn).slot = (linkOf place conn').slot ↔ conn = conn' :=
  place.injective.eq_iff

/-- What responses to one connection queue on another, or on the same. -/
theorem drop_frames_respond (l : Links) (conn conn' : UInt64) (rs : List Response) :
    ((l.respond (linkOf place conn) rs).frames (linkOf place conn')).drop
        (l.frames (linkOf place conn')).length =
      if conn' = conn then
        (Response.numbered l.nextInstance rs).take (l.free (linkOf place conn'))
      else [] := by
  rw [Links.frames_respond]
  by_cases hconn : conn' = conn
  · rw [if_pos (slot_linkOf.mpr hconn), if_pos hconn, List.drop_left]
  · rw [if_neg fun h => hconn (slot_linkOf.mp h), if_neg hconn, List.drop_length]

variable {d : DispatchState} {t : DispatchStep} {conn conn' : UInt64} {w : HeartbeatRequest}
  {f : Frame} {rerid : Int64}

/-- A step that changes nothing sends nothing. -/
theorem gain_of_step_eq (h : step ops place t d = d) (conn : UInt64) :
    gain ops place conn t d = [] := by
  unfold gain
  split
  · rfl
  · rw [h, List.drop_length]

/-- What a step queues stands behind what waited before. -/
theorem mem_drop_of_gain (hf : f ∈ gain ops place conn t d) :
    f ∈ ((step ops place t d).board.links.frames (linkOf place conn)).drop
      (d.board.links.frames (linkOf place conn)).length := by
  unfold gain at hf
  split at hf
  · cases hf
  · exact hf

/-- What acknowledges a request. -/
def ackText (w : HeartbeatRequest) : String :=
  if w.request.kind = .subscribe then "subscribed" else "unsubscribed"

/-- The handler of the beats acknowledges a request, and does nothing else. -/
theorem handler_request (w : HeartbeatRequest) (k : Link) (l : Links) :
    Heartbeat.handler ⟨w.request, k⟩ l =
      (.ok (), l.respond k [answerTo w.request (.string (ackText w))]) := by
  rw [Heartbeat.answers, Heartbeat.contents, ackText]
  rcases w.kind_mem with hkind | hkind
  · rw [hkind, if_pos rfl]
    rfl
  · rw [hkind, if_neg (by decide)]
    rfl

/-- The heartbeat's handler answers with its ack and records nothing. -/
theorem step_invoke (h : d.stages conn = .prepared w Heartbeat.handler) :
    step ops place (.invoke conn) d =
      ⟨⟨d.board.links.respond (linkOf place conn) [answerTo w.request (.string (ackText w))],
        d.board.subscriptions⟩, Function.update d.stages conn (.invoked w (.ok ()))⟩ := by
  have hhandler := handler_request w (linkOf place conn) d.board.links
  simp only [step, h, Switchboard.invoke, hhandler]

/-- **A handler that runs** queues the acknowledgement on its connection, if that has room. -/
theorem gain_invoke (h : d.stages conn = .prepared w Heartbeat.handler) (conn' : UInt64) :
    gain ops place conn' (.invoke conn) d =
      if conn' = conn then
        [(answerTo w.request (.string (ackText w))).toFrame d.board.links.nextInstance].take
          (d.board.links.free (linkOf place conn'))
      else [] := by
  unfold gain
  dsimp only
  rw [step_invoke h]
  exact drop_frames_respond d.board.links conn conn' _

/-- The heartbeat's answer is the ack of the request it answers. -/
theorem isAck_answerTo (w : HeartbeatRequest) (i : UInt64) :
    ((answerTo w.request (.string (ackText w))).toFrame i).IsAck (ackText w) w.request.id := by
  refine ⟨i, ?_⟩
  rw [Response.toFrame, answerTo, w.op_eq]

/-- A dispatch that succeeded sends nothing more, and an UNSUBSCRIBE removes its subscription only
now. -/
theorem step_settle (h : d.stages conn = .invoked w (.ok ())) :
    step ops place (.settle conn) d =
      ⟨⟨d.board.links, if w.request.kind = .unsubscribe then
          (d.board.subscriptions.unsubscribe conn w.request.id).2 else d.board.subscriptions⟩,
        Function.update d.stages conn .idle⟩ := by
  simp only [step, h, Switchboard.settle, linkOf]
  by_cases hkind : w.request.kind = .unsubscribe
  · simp [hkind]
  · simp [hkind]

/-- The last step of a dispatch sends nothing. -/
theorem gain_settle (h : d.stages conn = .invoked w (.ok ())) (conn' : UInt64) :
    gain ops place conn' (.settle conn) d = [] := by
  unfold gain
  dsimp only
  rw [step_settle h]
  exact List.drop_length

/-- **How a request is prepared**: not at all if the connection is at another stage; it is refused;
or it is about to be handled, and its subscription is the only new one. -/
theorem step_prepare (hops : ops.lookup Heartbeat.op = some Heartbeat.handler) (conn : UInt64)
    (w : HeartbeatRequest) (d : DispatchState) :
    step ops place (.prepare conn w) d = d ∨
    (∃ message, step ops place (.prepare conn w) d =
      ⟨d.board.refuse (linkOf place conn) w.request message, d.stages⟩) ∨
    (d.stages conn = .idle ∧ ∃ s : Subscriptions,
      step ops place (.prepare conn w) d =
        ⟨⟨d.board.links, s⟩, Function.update d.stages conn (.prepared w Heartbeat.handler)⟩ ∧
      (d.board.subscriptions.Consistent → s.Consistent) ∧
      ∀ {key sub}, s.subs.get? key = some sub →
        d.board.subscriptions.subs.get? key = some sub ∨
          (w.request.kind = .subscribe ∧ key = (conn, w.request.id) ∧
            sub.link = linkOf place conn)) := by
  -- A connection that is in the middle of a dispatch waits.
  cases hstage : d.stages conn with
  | prepared w' handler => exact Or.inl (by simp only [step, hstage])
  | invoked w' result => exact Or.inl (by simp only [step, hstage])
  | idle =>
    have hlookup : ops.lookup w.request.op = some Heartbeat.handler := by rw [w.op_eq, hops]
    by_cases hkind : w.request.kind = .subscribe
    · cases hget : d.board.subscriptions.subs.get? (conn, w.request.id) with
      | some sub =>
        have htaken : d.board.subscriptions.subscribe (linkOf place conn) w.request.id
            w.request.op = _ :=
          Subscriptions.subscribe_of_taken w.request.op (Option.isSome_of_eq_some hget)
        refine Or.inr (Or.inl ⟨(Subscriptions.duplicateError w.request.id).message, ?_⟩)
        simp only [step, hstage, Switchboard.prepare, hlookup, hkind, htaken, if_true]
      | none =>
        obtain ⟨s, hs, hsubs, -⟩ := Subscriptions.subscribe_of_free (k := linkOf place conn)
          w.request.op hget
        refine Or.inr (Or.inr ⟨rfl, s, ?_, fun hc => hc.subscribe hs, ?_⟩)
        -- The subscription is recorded here, before the handler has answered.
        · simp only [step, hstage, Switchboard.prepare, hlookup, hkind, hs, if_true]
        · intro key sub hsub
          rw [hsubs, FinMap.get?_insert] at hsub
          split at hsub
          · next hkey =>
            cases hsub
            exact Or.inr ⟨hkind, hkey, rfl⟩
          · exact Or.inl hsub
    · refine Or.inr (Or.inr ⟨rfl, d.board.subscriptions, ?_, id, Or.inl⟩)
      simp only [step, hstage, Switchboard.prepare, hlookup, hkind, if_false]

/-- All that is queued before the handler runs is an error. -/
theorem gain_prepare (hops : ops.lookup Heartbeat.op = some Heartbeat.handler)
    (hf : f ∈ gain ops place conn' (.prepare conn w) d) :
    ∃ message i, f = (Switchboard.errorFor w.request message).toFrame i := by
  have hmem := mem_drop_of_gain hf
  -- Only a refusal sends something; a SUBSCRIBE that is recorded is answered by its handler.
  rcases step_prepare hops conn w d with
    hsame | ⟨message, hstep⟩ | ⟨-, s, hstep, -⟩
  · rw [hsame, List.drop_length] at hmem
    cases hmem
  · rw [hstep] at hmem
    have hnew : f ∈ ((d.board.links.respond (linkOf place conn)
        [Switchboard.errorFor w.request message]).frames (linkOf place conn')).drop
          (d.board.links.frames (linkOf place conn')).length := hmem
    rw [drop_frames_respond] at hnew
    split at hnew
    · exact ⟨message, _, List.mem_singleton.mp (List.mem_of_mem_take hnew)⟩
    · cases hnew
  · rw [hstep] at hmem
    dsimp only at hmem
    rw [List.drop_length] at hmem
    cases hmem

/-- What publishing queues are events of subscriptions on the connection. -/
theorem gain_publish (hc : d.board.subscriptions.Consistent)
    (hlinked : ∀ {conn rerid s}, d.board.subscriptions.subs.get? (conn, rerid) = some s →
      s.link = linkOf place conn)
    {op : String} {content : Content} (hf : f ∈ gain ops place conn (.publish op content) d) :
    ∃ rerid, (d.board.subscriptions.subs.get? (conn, rerid)).isSome ∧ f.IsEvent rerid := by
  have hmem := mem_drop_of_gain hf
  unfold step setLinks Subscriptions.publish at hmem
  dsimp only at hmem
  cases hv : content.toValue with
  | error message =>
    rw [hv] at hmem
    dsimp only at hmem
    rw [List.drop_length] at hmem
    cases hmem
  | ok v =>
    rw [hv] at hmem
    dsimp only at hmem
    rw [Subscriptions.frames_notifyAll, List.drop_left] at hmem
    obtain ⟨rerid, hrerid, hevent⟩ := exists_of_mem_events
      (Subscriptions.forall₂_eventsFor op v (linkOf place conn) _ _) (List.mem_of_mem_take hmem)
    obtain ⟨s, hs, rfl⟩ := List.mem_map.mp hrerid
    obtain ⟨hsub, hslot⟩ := List.mem_filter.mp hs
    obtain ⟨⟨conn', rerid⟩, hget, -⟩ := hc.mem_subscribers.mp hsub
    -- the subscription stands on the connection of its own key
    rw [decide_eq_true_eq, hlinked hget] at hslot
    obtain rfl := slot_linkOf.mp hslot
    refine ⟨s.rerid, ?_, hevent⟩
    rw [(hc.stored hget).1, hget]
    rfl

/-! ## What is kept -/

/-- A subscription was handled in a step: it was acknowledged unless the queue was full, and its end
was not acknowledged since. -/
def Opened (ops : Operations) (place : UInt64 ↪ Nat) (l : Links) (ts : List DispatchStep)
    (conn : UInt64) (rerid : Int64) : Prop :=
  ∃ before after w d, ts = before ++ .invoke conn :: after ∧ d = run ops place before (start l) ∧
    d.stages conn = .prepared w Heartbeat.handler ∧ w.request.kind = .subscribe ∧
    w.request.id = rerid ∧
    (d.board.links.free (linkOf place conn) = 0 ∨
      ∃ ack ∈ gain ops place conn (.invoke conn) d, ack.IsAck "subscribed" rerid) ∧
    ∀ f ∈ queued ops place conn after (step ops place (.invoke conn) d),
      ¬ f.IsAck "unsubscribed" rerid

/-- What holds after steps that began without subscriptions and requests. -/
structure Sound (ops : Operations) (place : UInt64 ↪ Nat) (l : Links) (ts : List DispatchStep)
    (d : DispatchState) : Prop where
  consistent : d.board.subscriptions.Consistent
  linked : ∀ {conn rerid s}, d.board.subscriptions.subs.get? (conn, rerid) = some s →
    s.link = linkOf place conn
  handlers : ∀ {conn w handler}, d.stages conn = .prepared w handler → handler = Heartbeat.handler
  results : ∀ {conn w result}, d.stages conn = .invoked w result → result = .ok ()
  bracketed : ∀ {conn rerid}, (d.board.subscriptions.subs.get? (conn, rerid)).isSome →
    (d.stages conn).window = some rerid ∨ Opened ops place l ts conn rerid

/-- Before any step nothing is subscribed and nothing was sent. -/
theorem sound_start (ops : Operations) (place : UInt64 ↪ Nat) (l : Links) :
    Sound ops place l [] (start l) where
  consistent := Subscriptions.consistent_empty
  linked h := by cases h
  handlers h := by cases h
  results h := by cases h
  bracketed h := by cases h

variable {l : Links} {ts : List DispatchStep}

/-- A subscription stays open as long as no end is acknowledged. -/
theorem Opened.append (hd : d = run ops place ts (start l)) (h : Opened ops place l ts conn rerid)
    (hnone : ∀ f ∈ gain ops place conn t d, ¬ f.IsAck "unsubscribed" rerid) :
    Opened ops place l (ts ++ [t]) conn rerid := by
  obtain ⟨before, after, w, d', rfl, hd', hstage, hkind, hid, hack, hafter⟩ := h
  have hrun : d = run ops place after (step ops place (.invoke conn) d') := by
    rw [hd, run_append, ← hd']
    rfl
  refine ⟨before, after ++ [t], w, d', by simp, hd', hstage, hkind, hid, hack, ?_⟩
  intro f hf
  rw [queued_append, ← hrun, queued, queued, List.append_nil] at hf
  rcases List.mem_append.mp hf with hold | hnew
  · exact hafter f hold
  · exact hnone f hnew

/-- What a step may do to one subscription: its window opens or stays open, it is acknowledged, or
it was there before and nothing acknowledges its end. -/
def KeepsBracket (ops : Operations) (place : UInt64 ↪ Nat) (t : DispatchStep) (d : DispatchState)
    (conn : UInt64) (rerid : Int64) : Prop :=
  ((step ops place t d).stages conn).window = some rerid ∨
  (t = .invoke conn ∧ ∃ w, d.stages conn = .prepared w Heartbeat.handler ∧
    w.request.kind = .subscribe ∧ w.request.id = rerid) ∨
  ((d.board.subscriptions.subs.get? (conn, rerid)).isSome ∧ (d.stages conn).window ≠ some rerid ∧
    ∀ f ∈ gain ops place conn t d, ¬ f.IsAck "unsubscribed" rerid)

/-- After a step that keeps the bracket, a subscription with an event is still open or is about to
be. -/
theorem bracketed_of_keepsBracket (hd : d = run ops place ts (start l)) (h : Sound ops place l ts d)
    (ht : KeepsBracket ops place t d conn rerid) :
    ((step ops place t d).stages conn).window = some rerid ∨
      Opened ops place l (ts ++ [t]) conn rerid := by
  rcases ht with hwindow | ⟨rfl, w, hstage, hkind, hid⟩ | ⟨hold, hclosed, hnone⟩
  · exact Or.inl hwindow
  · refine Or.inr ⟨ts, [], w, d, rfl, hd, hstage, hkind, hid, ?_, by simp [queued]⟩
    rcases Nat.eq_zero_or_pos (d.board.links.free (linkOf place conn)) with hfull | hroom
    · exact Or.inl hfull
    · right
      rw [gain_invoke hstage, if_pos rfl, List.take_of_length_le hroom, ← hid,
        ← show ackText w = "subscribed" from if_pos hkind]
      exact ⟨_, List.mem_singleton_self _, isAck_answerTo w _⟩
  · rcases h.bracketed hold with hopen | hopened
    · exact absurd hopen hclosed
    · exact Or.inr (hopened.append hd hnone)

/-- What a step does to a subscription outside its window. -/
theorem keepsBracket_of_closed (hold : (d.board.subscriptions.subs.get? (conn, rerid)).isSome)
    (hwindow : (d.stages conn).window ≠ some rerid)
    (hnone : ∀ f ∈ gain ops place conn t d, ¬ f.IsAck "unsubscribed" rerid) :
    KeepsBracket ops place t d conn rerid := Or.inr (Or.inr ⟨hold, hwindow, hnone⟩)

/-- A connection that is not concerned keeps its subscriptions as they are. -/
theorem keepsBracket_of_eq (hstage : (step ops place t d).stages conn = d.stages conn)
    (hold : (d.board.subscriptions.subs.get? (conn, rerid)).isSome)
    (hnone : ∀ f ∈ gain ops place conn t d, ¬ f.IsAck "unsubscribed" rerid) :
    KeepsBracket ops place t d conn rerid := by
  by_cases hwindow : (d.stages conn).window = some rerid
  · exact Or.inl (hstage ▸ hwindow)
  · exact keepsBracket_of_closed hold hwindow hnone

/-- A step that changes nothing but what waits keeps the state sound, if it acknowledges no end. -/
theorem Sound.relink (hd : d = run ops place ts (start l)) (h : Sound ops place l ts d)
    (t : DispatchStep) (hstages : (step ops place t d).stages = d.stages)
    (hsubs : (step ops place t d).board.subscriptions = d.board.subscriptions)
    (hnone : ∀ conn rerid, ∀ f ∈ gain ops place conn t d, ¬ f.IsAck "unsubscribed" rerid) :
    Sound ops place l (ts ++ [t]) (step ops place t d) where
  consistent := hsubs ▸ h.consistent
  linked := hsubs ▸ h.linked
  handlers := hstages ▸ h.handlers
  results := hstages ▸ h.results
  bracketed hentry := bracketed_of_keepsBracket hd h
    (keepsBracket_of_eq (congrFun hstages _) (hsubs ▸ hentry) (hnone _ _))

/-- A step without effect keeps the state sound. -/
theorem Sound.idle (hd : d = run ops place ts (start l)) (h : Sound ops place l ts d)
    (heq : step ops place t d = d) : Sound ops place l (ts ++ [t]) (step ops place t d) := by
  refine h.relink hd t (by rw [heq]) (by rw [heq]) ?_
  intro conn rerid f hf
  rw [gain_of_step_eq heq] at hf
  cases hf

/-- A publication keeps the invariant: it sends to the recorded subscriptions only. -/
theorem Sound.publish (hd : d = run ops place ts (start l)) (h : Sound ops place l ts d)
    (op : String) (content : Content) :
    Sound ops place l (ts ++ [.publish op content]) (step ops place (.publish op content) d) := by
  refine h.relink hd _ rfl rfl ?_
  intro conn rerid f hf
  obtain ⟨rerid', -, hevent⟩ := gain_publish h.consistent h.linked hf
  exact hevent.not_ack

theorem stages_update {stages : UInt64 → DispatchStage} {stage stage' : DispatchStage}
    (h : Function.update stages conn stage conn' = stage') :
    stage = stage' ∨ stages conn' = stage' := by
  by_cases hconn : conn' = conn
  · subst hconn
    rw [Function.update_self] at h
    exact Or.inl h
  · rw [Function.update_of_ne hconn] at h
    exact Or.inr h

/-- A step that brings one connection to another stage keeps the state sound, if its own
subscriptions keep their brackets and the others are left alone. -/
theorem Sound.next (hd : d = run ops place ts (start l)) (h : Sound ops place l ts d)
    {links : Links} {s : Subscriptions} {stage : DispatchStage}
    (hstep : step ops place t d = ⟨⟨links, s⟩, Function.update d.stages conn stage⟩)
    (hc : s.Consistent)
    (hlink : ∀ {conn' rerid sub}, s.subs.get? (conn', rerid) = some sub →
      sub.link = linkOf place conn')
    (hhandler : ∀ {w handler}, stage = .prepared w handler → handler = Heartbeat.handler)
    (hresult : ∀ {w result}, stage = .invoked w result → result = .ok ())
    (hown : ∀ {rerid}, (s.subs.get? (conn, rerid)).isSome → KeepsBracket ops place t d conn rerid)
    (hothers : ∀ {conn'}, conn' ≠ conn →
      (∀ rerid, ∀ f ∈ gain ops place conn' t d, ¬ f.IsAck "unsubscribed" rerid) ∧
      ∀ {rerid}, (s.subs.get? (conn', rerid)).isSome →
        (d.board.subscriptions.subs.get? (conn', rerid)).isSome) :
    Sound ops place l (ts ++ [t]) (step ops place t d) := by
  -- The step is of one connection; the subscriptions of the others were there, and no ack ended
  -- them.
  have hkeeps : ∀ {conn' rerid}, (s.subs.get? (conn', rerid)).isSome →
      KeepsBracket ops place t d conn' rerid := by
    intro conn' rerid hentry
    by_cases hconn : conn' = conn
    · subst hconn
      exact hown hentry
    · obtain ⟨hnone, hold⟩ := hothers hconn
      have hstage : (step ops place t d).stages conn' = d.stages conn' := by
        rw [hstep]
        exact Function.update_of_ne hconn _ _
      exact keepsBracket_of_eq hstage (hold hentry) (hnone _)
  have hsubs : (step ops place t d).board.subscriptions = s := by rw [hstep]
  have hstages : (step ops place t d).stages = Function.update d.stages conn stage := by rw [hstep]
  refine ⟨hsubs ▸ hc, hsubs ▸ hlink, ?_, ?_,
    fun hentry => bracketed_of_keepsBracket hd h (hkeeps (hsubs ▸ hentry))⟩
  · intro conn' w handler hstage
    rw [hstages] at hstage
    rcases stages_update hstage with hnew | hold
    · exact hhandler hnew
    · exact h.handlers hold
  · intro conn' w result hstage
    rw [hstages] at hstage
    rcases stages_update hstage with hnew | hold
    · exact hresult hnew
    · exact h.results hold

/-- The first step of a dispatch keeps the invariant. -/
theorem Sound.prepare (hd : d = run ops place ts (start l)) (h : Sound ops place l ts d)
    (hops : ops.lookup Heartbeat.op = some Heartbeat.handler) (conn : UInt64)
    (w : HeartbeatRequest) :
    Sound ops place l (ts ++ [.prepare conn w]) (step ops place (.prepare conn w) d) := by
  have hnone : ∀ {conn' rerid}, ∀ f ∈ gain ops place conn' (.prepare conn w) d,
      ¬ f.IsAck "unsubscribed" rerid := by
    intro conn' rerid f hf
    obtain ⟨message, i, rfl⟩ := gain_prepare hops hf
    exact Response.failure_not_ack _ _ _ _ _ _ _
  rcases step_prepare hops conn w d with
    hsame | ⟨message, hstep⟩ | ⟨hidle, s, hstep, hc, hget⟩
  · exact h.idle hd hsame
  · exact h.relink hd _ (by rw [hstep]) (by rw [hstep]; rfl) fun _ _ => hnone
  · refine h.next hd hstep (hc h.consistent) ?_ ?_ (fun heq => by cases heq) ?_ ?_
    · intro conn' rerid sub hsub
      rcases hget hsub with hold | ⟨-, hkey, hlink⟩
      · exact h.linked hold
      · cases hkey
        exact hlink
    · intro w' handler heq
      cases heq
      rfl
    · intro rerid hentry
      obtain ⟨sub, hsub⟩ := Option.isSome_iff_exists.mp hentry
      rcases hget hsub with hold | ⟨hkind, hkey, -⟩
      · refine keepsBracket_of_closed (Option.isSome_of_eq_some hold) ?_ hnone
        rw [hidle]
        exact (Option.some_ne_none _).symm
      · -- the window of the new subscription opens
        cases hkey
        left
        rw [hstep]
        show (Function.update d.stages conn _ conn).window = _
        rw [Function.update_self, DispatchStage.window, if_pos hkind]
    · intro conn' hconn
      refine ⟨fun rerid => hnone, ?_⟩
      intro rerid hentry
      obtain ⟨sub, hsub⟩ := Option.isSome_iff_exists.mp hentry
      rcases hget hsub with hold | ⟨-, hkey, -⟩
      · exact Option.isSome_of_eq_some hold
      · cases hkey
        exact absurd rfl hconn

/-- An acknowledgement concerns the request that it answers: it acknowledges a subscription, or
opens the window of the one that ends. -/
theorem Sound.invoke (hd : d = run ops place ts (start l)) (h : Sound ops place l ts d)
    (conn : UInt64) :
    Sound ops place l (ts ++ [.invoke conn]) (step ops place (.invoke conn) d) := by
  cases hstage : d.stages conn with
  | idle => exact h.idle hd (by simp only [step, hstage])
  | invoked w' result => exact h.idle hd (by simp only [step, hstage])
  | prepared w handler =>
    obtain rfl := h.handlers hstage
    have hgain : ∀ conn', gain ops place conn' (.invoke conn) d = _ := gain_invoke hstage
    have hack := isAck_answerTo w d.board.links.nextInstance
    refine h.next hd (step_invoke hstage) h.consistent h.linked (fun heq => by cases heq) ?_ ?_ ?_
    · intro w' result heq
      cases heq
      rfl
    · intro rerid hentry
      have hmem : ∀ f ∈ gain ops place conn (.invoke conn) d, f.IsAck (ackText w) w.request.id := by
        intro f hf
        rw [hgain, if_pos rfl] at hf
        rw [List.mem_singleton.mp (List.mem_of_mem_take hf)]
        exact hack
      -- The ack that the handler sends is of the request's own id, so it closes no other bracket.
      by_cases hid : w.request.id = rerid
      · rcases w.kind_mem with hkind | hkind
        · exact Or.inr (Or.inl ⟨rfl, w, hstage, hkind, hid⟩)
        · left
          rw [step_invoke hstage]
          show (Function.update d.stages conn _ conn).window = _
          rw [Function.update_self, DispatchStage.window, if_pos hkind, hid]
      · refine keepsBracket_of_closed hentry ?_ fun f hf hend => hid ((hmem f hf).rerid_eq hend)
        rw [hstage, DispatchStage.window]
        split
        · exact fun heq => hid (Option.some.inj heq)
        · exact (Option.some_ne_none _).symm
    · intro conn' hconn
      exact ⟨by simp [hgain, hconn], fun hentry => hentry⟩

/-- The last step of a dispatch keeps the invariant. -/
theorem Sound.settle (hd : d = run ops place ts (start l)) (h : Sound ops place l ts d)
    (conn : UInt64) :
    Sound ops place l (ts ++ [.settle conn]) (step ops place (.settle conn) d) := by
  cases hstage : d.stages conn with
  | idle => exact h.idle hd (by simp only [step, hstage])
  | prepared w' handler => exact h.idle hd (by simp only [step, hstage])
  | invoked w result =>
    obtain rfl := h.results hstage
    have hgain : ∀ conn', gain ops place conn' (.settle conn) d = [] := gain_settle hstage
    -- what is left was there before, and is not the subscription that was cancelled
    have hget : ∀ {key sub}, (if w.request.kind = .unsubscribe then
        (d.board.subscriptions.unsubscribe conn w.request.id).2
          else d.board.subscriptions).subs.get? key = some sub →
        d.board.subscriptions.subs.get? key = some sub ∧
          (w.request.kind = .unsubscribe → key ≠ (conn, w.request.id)) := by
      intro key sub hsub
      split at hsub
      · rw [Subscriptions.get?_unsubscribe] at hsub
        split at hsub
        · cases hsub
        · next hkey => exact ⟨hsub, fun _ => hkey⟩
      · next hkind => exact ⟨hsub, fun hends => absurd hends hkind⟩
    refine h.next hd (step_settle hstage) ?_ (fun hsub => h.linked (hget hsub).1)
      (fun heq => by cases heq) (fun heq => by cases heq) ?_ ?_
    · split
      · exact h.consistent.unsubscribe _ _
      · exact h.consistent
    · intro rerid hentry
      obtain ⟨sub, hsub⟩ := Option.isSome_iff_exists.mp hentry
      obtain ⟨hold, hkey⟩ := hget hsub
      refine keepsBracket_of_closed (Option.isSome_of_eq_some hold) ?_ (by simp [hgain])
      rw [hstage, DispatchStage.window]
      split
      · next hkind =>
        intro heq
        exact hkey hkind (by rw [Option.some.inj heq])
      · exact (Option.some_ne_none _).symm
    · intro conn' hconn
      refine ⟨by simp [hgain], ?_⟩
      intro rerid hentry
      obtain ⟨sub, hsub⟩ := Option.isSome_iff_exists.mp hentry
      exact Option.isSome_of_eq_some (hget hsub).1

/-- By induction on the steps, the last one first. -/
theorem sound_run (hops : ops.lookup Heartbeat.op = some Heartbeat.handler) (l : Links)
    (ts : List DispatchStep) : Sound ops place l ts (run ops place ts (start l)) := by
  induction ts using List.reverseRecOn with
  | nil => exact sound_start ops place l
  | append_singleton ts t ih =>
    rw [run_append]
    show Sound ops place l _ (step ops place t (run ops place ts (start l)))
    cases t with
    | prepare conn w => exact ih.prepare rfl hops conn w
    | invoke conn => exact ih.invoke rfl conn
    | settle conn => exact ih.settle rfl conn
    | publish op content => exact ih.publish rfl op content
    | flush conn count reached =>
      refine ih.relink rfl _ rfl rfl ?_
      intro conn' rerid f hf
      cases hf

/-! ## Where events stand -/

/-- Only publishing queues events. -/
theorem publish_of_event (hops : ops.lookup Heartbeat.op = some Heartbeat.handler)
    (h : Sound ops place l ts d) (hf : f ∈ gain ops place conn t d) (he : f.IsEvent rerid) :
    ∃ op content, t = .publish op content := by
  -- Acks and errors are no events, and the other steps send nothing.
  cases t with
  | publish op content => exact ⟨op, content, rfl⟩
  | flush conn' count reached => cases hf
  | prepare conn' w =>
    obtain ⟨message, i, rfl⟩ := gain_prepare hops hf
    exact absurd he (Response.failure_not_event _ _ _ _ _ _)
  | invoke conn' =>
    cases hstage : d.stages conn' with
    | prepared w handler =>
      obtain rfl := h.handlers hstage
      rw [gain_invoke hstage] at hf
      split at hf
      · rw [List.mem_singleton.mp (List.mem_of_mem_take hf)] at he
        exact absurd (isAck_answerTo w _) he.not_ack
      · cases hf
    | _ =>
      rw [gain_of_step_eq (by simp only [step, hstage])] at hf
      cases hf
  | settle conn' =>
    cases hstage : d.stages conn' with
    | invoked w result =>
      obtain rfl := h.results hstage
      rw [gain_settle hstage] at hf
      cases hf
    | _ =>
      rw [gain_of_step_eq (by simp only [step, hstage])] at hf
      cases hf

/-- The operations of a gateway that has no others than its own. -/
def builtins : Operations := ⟨builtinOperations, by decide⟩

/-- **Acknowledgements bracket the events outside two windows.** However the dispatches of requests
for beats, publishers and writers are interleaved, an event is queued only by publishing, and only
while its subscription is recorded. Unless that is in one of the two windows, the subscription was
handled in a step before: then it was acknowledged on the connection, if the queue had room, and
since then its end was not acknowledged. -/
theorem bracketed (hops : ops.lookup Heartbeat.op = some Heartbeat.handler) (l : Links)
    (ts : List DispatchStep) (t : DispatchStep) (conn : UInt64) (rerid : Int64) (f : Frame)
    (hf : f ∈ gain ops place conn t (run ops place ts (start l))) (he : f.IsEvent rerid) :
    let d := run ops place ts (start l)
    (∃ op content, t = .publish op content) ∧
      (d.board.subscriptions.subs.get? (conn, rerid)).isSome ∧
      ((d.stages conn).window = some rerid ∨ Opened ops place l ts conn rerid) := by
  intro d
  have h : Sound ops place l ts d := sound_run hops l ts
  obtain ⟨op, content, rfl⟩ := publish_of_event hops h hf he
  obtain ⟨rerid', hentry, hevent⟩ := gain_publish h.consistent h.linked hf
  obtain rfl := hevent.rerid_eq he
  exact ⟨⟨op, content, rfl⟩, hentry, h.bracketed hentry⟩

/-- A subscription that is dispatched without delay gets its beat behind its acknowledgement. -/
theorem bracketed_beat :
    let ts : List DispatchStep := [.prepare 0 (.subscribe 5), .invoke 0, .settle 0]
    let t : DispatchStep := .publish Heartbeat.op (Heartbeat.beat 0 0)
    let d := run builtins Gateway.byId ts (start Gateway.oneConnected.links)
    ∃ f, gain builtins Gateway.byId 0 t d = [f] ∧ f.IsEvent 5 ∧
      ((d.stages 0).window = some 5 ∨
        Opened builtins Gateway.byId Gateway.oneConnected.links ts 0 5) := by
  intro ts t d
  have hgain : gain builtins Gateway.byId 0 t d =
      [.text (Response.print ⟨2, 5, .event, some Heartbeat.op,
        .content (.object [("seq", .ofUInt64 0), ("ts", .ofUInt64 0)])⟩)] := by
    decide +kernel
  have hevent : (Frame.text (Response.print ⟨2, 5, .event, some Heartbeat.op,
      .content (.object [("seq", .ofUInt64 0), ("ts", .ofUInt64 0)])⟩)).IsEvent 5 :=
    ⟨2, _, _, rfl⟩
  exact ⟨_, hgain, hevent, (bracketed rfl Gateway.oneConnected.links ts t 0 5 _
    (by rw [hgain]; exact List.mem_singleton_self _) hevent).2.2⟩

/-- **Events can be out of place.** A beat is published while a subscription is recorded and not
acknowledged, and another one while its end is acknowledged and it is still recorded: the first is
queued in front of the acknowledgement of the start, the second behind that of the end. -/
theorem events_outside :
    let steps : List DispatchStep :=
      [.prepare 0 (.subscribe 5), .publish Heartbeat.op (Heartbeat.beat 0 0), .invoke 0, .settle 0,
        .prepare 0 (.unsubscribe 5), .invoke 0,
        .publish Heartbeat.op (Heartbeat.beat 1 0), .settle 0]
    ∃ early ack ackEnd late,
      queue Gateway.byId 0 (run builtins Gateway.byId steps (start Gateway.oneConnected.links)) =
        [early, ack, ackEnd, late] ∧
      early.IsEvent 5 ∧ ack.IsAck "subscribed" 5 ∧ ackEnd.IsAck "unsubscribed" 5 ∧
      late.IsEvent 5 := by
  intro steps
  -- The first event comes before the ack and the last one behind the ack of the UNSUBSCRIBE.
  have hqueue : queue Gateway.byId 0 (run builtins Gateway.byId steps
      (start Gateway.oneConnected.links)) =
      [.text (Response.print ⟨1, 5, .event, some Heartbeat.op,
          .content (.object [("seq", .ofUInt64 0), ("ts", .ofUInt64 0)])⟩),
        .text (Response.print ⟨2, 5, .response, some Heartbeat.op,
          .content (.string "subscribed")⟩),
        .text (Response.print ⟨3, 5, .response, some Heartbeat.op,
          .content (.string "unsubscribed")⟩),
        .text (Response.print ⟨4, 5, .event, some Heartbeat.op,
          .content (.object [("seq", .ofUInt64 1), ("ts", .ofUInt64 0)])⟩)] := by
    decide +kernel
  exact ⟨_, _, _, _, hqueue, ⟨1, _, _, rfl⟩, ⟨2, rfl⟩, ⟨3, rfl⟩, ⟨4, _, _, rfl⟩⟩

end DispatchState

end WsGateway
