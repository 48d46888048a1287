import WsGateway.Proofs.Gateway.SessionTable
import WsGateway.Proofs.Gateway.Lookalike

/-!
# What a session answers

A session answers each frame by itself (`Session.reply`), in the state that the earlier ones left:
texts by the answers of their operations, pings by pongs, and what is neither supported nor part of
the protocol by one error. What is queued for its client in a whole session are these answers in the
order of the frames, up to the first close frame, and nothing but a close frame or the end of the
stream ends the session (`SessionRun.conversation`). Meanwhile frames may be taken off the queue at
any time.
-/

namespace WsGateway

def Frame.isClose : Frame → Bool
  | .close _ => true
  | _ => false

/-- A frame that sessions refuse. -/
def Frame.isRefused : Frame → Bool
  | .binary _ | .raw _ => true
  | _ => false

def Frame.isRequest : Frame → Bool
  | .text s => (Request.parse s).isOk
  | _ => false

namespace ClientAction

def arrives : ClientAction → Bool
  | .arrive _ _ => true
  | _ => false

/-- The session ends by it. -/
def ends : ClientAction → Bool
  | .frame f _ => f.isClose
  | .leave => true
  | _ => false

def isRequest : ClientAction → Bool
  | .frame f _ => f.isRequest
  | _ => false

/-- The frames that it takes off the queue of a session. -/
def taken : ClientAction → Option Session → Board → List Frame
  | .flush count reached, some s, b =>
    ((b.links.get? s.link).map fun c => (c.takeMany reached count).1).getD []
  | _, _, _ => []

end ClientAction

namespace Session

/-- What a frame that is refused is answered. -/
def refusal (f : Frame) : Response :=
  .failure 0 0 none (Error.unsupported (f.kind ++ " frames are not supported")).message

/-- The frames that a session answers to a frame. -/
def reply (s : Session) (f : Frame) (b : Board) : List Frame :=
  match f with
  | .text text => Response.numbered b.links.nextInstance (answersToText b.subscriptions s.link text)
  | .ping payload => [.pong payload]
  | .binary _ | .raw _ => [(refusal f).toFrame b.links.nextInstance]
  | .pong _ | .close _ => []

/-- The frames that a session answers to what happens to it. -/
def replyTo (s : Session) (d : ClientAction) (b : Board) : List Frame :=
  match d with
  | .frame f _ => s.reply f b
  | _ => []

/-- The answers to everything that happens to a session, each in the state that was left by what
happened before. -/
def replies (g : Gateway) (s : Session) : List ClientAction → Board → List Frame
  | [], _ => []
  | d :: rest, b => s.replyTo d b ++ replies g s rest (d.act g (some s) b).2

/-! ## One frame -/

variable {g : Gateway} {s : Session}

/-- A frame of a kind that is not supported is refused, and the session goes on. -/
theorem onFrame_refused (hs : s.handshake.state = .upgraded) {f : Frame} (hf : f.isRefused = true)
    (g : Gateway) (elapsed : Nat) (b : Board) :
    s.onFrame g elapsed f b =
      (true, s.reject f (.unsupported (f.kind ++ " frames are not supported")) b) := by
  unfold onFrame Handshake.onFrame
  rw [if_neg (not_not_intro hs)]
  cases f with
  | binary payload => rfl
  | raw payload => rfl
  | _ => cases hf

/-- A text frame goes to the gateway, and the session goes on. -/
theorem onFrame_text (hs : s.handshake.state = .upgraded) (g : Gateway) (elapsed : Nat)
    (text : String) (b : Board) :
    s.onFrame g elapsed (.text text) b =
      (true, (g.onFrame elapsed s.link (.text text) b).2) := by
  unfold onFrame Handshake.onFrame
  rw [if_neg (not_not_intro hs)]

/-- A session goes on after every frame but a close frame. -/
theorem fst_onFrame (hs : s.handshake.state = .upgraded) (g : Gateway) (elapsed : Nat) (f : Frame)
    (b : Board) : (s.onFrame g elapsed f b).1 = !f.isClose := by
  unfold onFrame Handshake.onFrame
  rw [if_neg (not_not_intro hs)]
  cases f <;> rfl

/-- **One frame**: its answers are written to the connection of the session. -/
theorem get?_onFrame (hg : g.HasBuiltins) (hs : s.handshake.state = .upgraded) (elapsed : Nat)
    (f : Frame) (b : Board) :
    (s.onFrame g elapsed f b).2.links.get? s.link =
      (b.links.get? s.link).map fun c => c.writeAll (s.reply f b) := by
  have hsame : b.links.get? s.link = (b.links.get? s.link).map fun c => c.writeAll [] :=
    (congrFun Option.map_id _).symm
  -- The two kinds that are not supported are refused alike.
  have hrefused : f.isRefused = true → (s.onFrame g elapsed f b).2.links.get? s.link =
      (b.links.get? s.link).map fun c =>
        c.writeAll [(refusal f).toFrame b.links.nextInstance] := by
    intro hf
    rw [onFrame_refused hs hf]
    exact get?_respond_self b.links s.link [refusal f]
  cases f with
  | text text =>
    rw [onFrame_text hs]
    show (g.onFrame elapsed s.link (.text text) b).2.links.get? s.link = _
    rw [Gateway.links_onFrame_text hg]
    exact get?_respond_self b.links s.link _
  | binary payload => exact hrefused rfl
  | raw payload => exact hrefused rfl
  | ping payload =>
    unfold onFrame Handshake.onFrame
    rw [if_neg (not_not_intro hs)]
    show (b.links.write s.link (.pong payload)).2.get? s.link = _
    rw [Links.get?_write, if_pos rfl]
    rfl
  | pong payload =>
    unfold onFrame Handshake.onFrame
    rw [if_neg (not_not_intro hs)]
    exact hsame
  | close reason =>
    unfold onFrame Handshake.onFrame
    rw [if_neg (not_not_intro hs)]
    exact hsame

end Session

theorem Gateway.counters_countOutcome (o : DispatchOutcome) (b : Board) :
    (countOutcome o b).counters.wsRequests = b.counters.wsRequests := by
  cases o <;> rfl

/-- A text counts as a request if it is one. -/
theorem Gateway.wsRequests_onFrame_text (g : Gateway) (elapsed : Nat) (k : Link) (text : String)
    (b : Board) :
    (g.onFrame elapsed k (.text text) b).2.counters.wsRequests =
      b.counters.wsRequests + if (Frame.text text).isRequest then 1 else 0 := by
  unfold onFrame Frame.isRequest
  cases hr : Request.parse text with
  | error bad =>
    simp only [hr]
    exact (UInt64.add_zero _).symm
  | ok r =>
    simp only [hr]
    exact counters_countOutcome _ _

namespace Session

variable {g : Gateway} {s : Session}

/-- Just the texts that are requests are counted as such. -/
theorem wsRequests_onFrame (hs : s.handshake.state = .upgraded) (g : Gateway) (elapsed : Nat)
    (f : Frame) (b : Board) :
    (s.onFrame g elapsed f b).2.counters.wsRequests =
      b.counters.wsRequests + if f.isRequest then 1 else 0 := by
  cases f with
  | text text =>
    rw [onFrame_text hs]
    exact g.wsRequests_onFrame_text elapsed s.link text b
  | _ =>
    unfold onFrame Handshake.onFrame
    rw [if_neg (not_not_intro hs)]
    exact (UInt64.add_zero _).symm

end Session

/-! ## Runs of one session -/

/-- A session, or what is left of it after its end, with everything that was taken off its queue. -/
structure SessionRun where
  session : Option Session
  board : Board
  taken : List Frame

namespace SessionRun

def start (s : Session) (b : Board) : SessionRun := ⟨some s, b, []⟩

/-- One thing happens to the session. -/
def step (g : Gateway) (c : SessionRun) (d : ClientAction) : SessionRun :=
  ⟨(d.act g c.session c.board).1, (d.act g c.session c.board).2,
    c.taken ++ d.taken c.session c.board⟩

def run (g : Gateway) (ds : List ClientAction) (c : SessionRun) : SessionRun := ds.foldl (step g) c

/-- Everything that was queued on a connection, oldest first. -/
def queued (c : SessionRun) (k : Link) : List Frame := c.taken ++ c.board.links.frames k

/-- The queue of a connection always has room for one more frame. -/
def NeverFull (g : Gateway) (k : Link) (ds : List ClientAction) (c : SessionRun) : Prop :=
  ∀ before ∈ ds.inits, (run g before c).board.links.hasRoomBehind k 0 = true

variable {g : Gateway} {k : Link} {s : Session} {b : Board} {d : ClientAction}
  {ds : List ClientAction} {c : SessionRun} {fs : List Frame}

/-- A queue that is never full has room at the start. -/
theorem NeverFull.start (h : NeverFull g k ds c) : c.board.links.hasRoomBehind k 0 = true :=
  h [] ((List.mem_inits _ _).mpr ds.nil_prefix)

/-- A queue that is never full during a run is never full during the rest of it. -/
theorem NeverFull.tail (h : NeverFull g k (d :: ds) c) : NeverFull g k ds (step g c d) := by
  intro before hbefore
  rw [List.mem_inits] at hbefore
  exact h (d :: before) ((List.mem_inits _ _).mpr ((List.prefix_cons_inj d).mpr hbefore))

/-! ### After the end -/

/-- Nothing happens after the end of a session. -/
theorem run_ended (hstay : ∀ d ∈ ds, d.arrives = false) (b : Board) (fs : List Frame) :
    run g ds ⟨none, b, fs⟩ = ⟨none, b, fs⟩ := by
  induction ds with
  | nil => rfl
  | cons d rest ih =>
    have hstep : step g ⟨none, b, fs⟩ d = ⟨none, b, fs⟩ := by
      have hd := hstay d List.mem_cons_self
      cases d with
      | arrive peer h => cases hd
      | _ => exact congrArg (SessionRun.mk none b) (List.append_nil fs)
    show run g rest (step g ⟨none, b, fs⟩ d) = _
    rw [hstep]
    exact ih fun d hd => hstay d (List.mem_cons_of_mem _ hd)

/-! ### One step -/

/-- What ends a session does nothing else but to finish it. -/
theorem step_of_ends (hs : s.handshake.state = .upgraded) (hd : d.ends = true) (b : Board)
    (fs : List Frame) : step g ⟨some s, b, fs⟩ d = ⟨none, s.finish b, fs⟩ := by
  cases d with
  | frame f elapsed =>
    cases f with
    | close reason =>
      have hclose : s.onFrame g elapsed (.close reason) b = (false, b) := by
        unfold Session.onFrame Handshake.onFrame
        rw [if_neg (not_not_intro hs)]
      unfold step
      rw [ClientAction.act_frame, hclose]
      exact congrArg (SessionRun.mk none (s.finish b)) (List.append_nil fs)
    | _ => cases hd
  | leave => exact congrArg (SessionRun.mk none (s.finish b)) (List.append_nil fs)
  | _ => cases hd

/-- The end of a session takes none of the frames that were queued. -/
theorem queued_finish (s : Session) (b : Board) (fs : List Frame) :
    queued ⟨none, s.finish b, fs⟩ s.link = fs ++ b.links.frames s.link := by
  unfold queued Links.frames
  rw [Session.get?_finish_links]
  cases b.links.get? s.link <;> rfl

/-- A frame that does not close is one step of the conversation and takes nothing from the queue. -/
theorem step_frame (hs : s.handshake.state = .upgraded) {f : Frame} (hf : f.isClose = false)
    (elapsed : Nat) (b : Board) (fs : List Frame) :
    step g ⟨some s, b, fs⟩ (.frame f elapsed) =
      ⟨some s, (s.onFrame g elapsed f b).2, fs⟩ := by
  unfold step
  rw [ClientAction.act_frame, Session.fst_onFrame hs, hf]
  exact congrArg (SessionRun.mk (some s) _) (List.append_nil fs)

end SessionRun

namespace Connection

/-- The frames that are taken are the first ones of the queue. -/
theorem takeMany_fst (c : Connection) (reached : Bool) (count : Nat) :
    (c.takeMany reached count).1 = c.frames.take count := by
  induction count generalizing c with
  | zero => rfl
  | succ n ih =>
    unfold takeMany take frames
    cases hq : c.queue with
    | nil => rfl
    | cons o rest =>
      show o.frame :: _ = o.frame :: _
      exact congrArg (o.frame :: ·) (ih _)

/-- Frames that are taken off a queue are just moved. -/
theorem takeMany_append (c : Connection) (reached : Bool) (count : Nat) :
    (c.takeMany reached count).1 ++ (c.takeMany reached count).2.frames = c.frames := by
  unfold frames
  rw [takeMany_fst, takeMany_queue, frames, ← List.map_take, ← List.map_append,
    List.take_append_drop]

end Connection

namespace SessionRun

variable {g : Gateway} {k : Link} {s : Session} {b : Board} {d : ClientAction}
  {ds : List ClientAction} {c : SessionRun} {fs : List Frame}

/-- A frame whose answers leave room in the queue adds all of them to it. -/
theorem frames_onFrame (hg : g.HasBuiltins) (hs : s.handshake.state = .upgraded)
    (hw : b.links.isWritable s.link = true) (hroom : b.links.hasRoomBehind s.link 0 = true)
    {f : Frame} {elapsed : Nat}
    (hroom' : (s.onFrame g elapsed f b).2.links.hasRoomBehind s.link 0 = true) :
    (s.onFrame g elapsed f b).2.links.frames s.link = b.links.frames s.link ++ s.reply f b := by
  have hget := Session.get?_onFrame hg hs elapsed f b
  have hfree : 0 < b.links.free s.link := Links.lt_free_iff.mpr ⟨hw, hroom⟩
  -- the queue would be full behind answers that were cut off
  have hall : (s.reply f b).take (b.links.free s.link) = s.reply f b :=
    (Session.take_free_of_room hget hroom').resolve_right (by omega)
  rw [← hall]
  exact Links.frames_of_writeAll hget

/-- A frame leaves the connection as writable as it was. -/
theorem isWritable_onFrame (hg : g.HasBuiltins) (hs : s.handshake.state = .upgraded)
    (elapsed : Nat) (f : Frame) (b : Board) :
    (s.onFrame g elapsed f b).2.links.isWritable s.link = b.links.isWritable s.link := by
  unfold Links.isWritable
  rw [Session.get?_onFrame hg hs]
  cases b.links.get? s.link with
  | none => rfl
  | some c => exact c.isWritable_writeAll _

/-- **What one thing adds to the queue** of a session that goes on: its answers, whether or not
others are taken off meanwhile. -/
theorem step_live (hg : g.HasBuiltins) (hs : s.handshake.state = .upgraded)
    (hw : b.links.isWritable s.link = true) (hroom : b.links.hasRoomBehind s.link 0 = true)
    (hd : d.ends = false)
    (hroom' : (step g ⟨some s, b, fs⟩ d).board.links.hasRoomBehind s.link 0 = true) :
    (step g ⟨some s, b, fs⟩ d).session = some s ∧
      (step g ⟨some s, b, fs⟩ d).board.links.isWritable s.link = true ∧
      (step g ⟨some s, b, fs⟩ d).queued s.link =
        queued ⟨some s, b, fs⟩ s.link ++ s.replyTo d b := by
  cases d with
  | leave => cases hd
  | arrive peer h =>
    refine ⟨rfl, hw, ?_⟩
    simp [step, queued, ClientAction.act, ClientAction.taken, Session.replyTo]
  | frame f elapsed =>
    rw [step_frame hs hd] at hroom' ⊢
    refine ⟨rfl, (isWritable_onFrame hg hs elapsed f b).trans hw, ?_⟩
    show fs ++ _ = fs ++ _ ++ s.reply f b
    rw [frames_onFrame hg hs hw hroom hroom', List.append_assoc]
  | flush count reached =>
    -- what leaves the queue of the connection is noted as taken, in the same order
    have hget : (b.links.modify s.link fun c => (c.takeMany reached count).2).get? s.link =
        (b.links.get? s.link).map fun c => (c.takeMany reached count).2 := by
      rw [Links.get?_modify, if_pos rfl]
    refine ⟨rfl, ?_, ?_⟩
    · show (Links.modify _ _ _).isWritable s.link = true
      unfold Links.isWritable at hw ⊢
      rw [hget]
      cases hc : b.links.get? s.link with
      | none =>
        rw [hc] at hw
        cases hw
      | some c =>
        rw [hc] at hw
        obtain ⟨hclosed, hreceiving, -⟩ := c.takeMany_keeps reached count
        unfold Connection.isWritable at hw ⊢
        simpa [hclosed, hreceiving] using hw
    · show fs ++ ((b.links.get? s.link).map fun c => (c.takeMany reached count).1).getD [] ++
          Links.frames (b.links.modify s.link fun c => (c.takeMany reached count).2) s.link =
        fs ++ b.links.frames s.link ++ []
      unfold Links.frames
      rw [hget, List.append_nil, List.append_assoc]
      cases b.links.get? s.link with
      | none => rfl
      | some c => exact congrArg (fs ++ ·) (c.takeMany_append reached count)

/-! ### Whole runs -/

theorem eta_session {c : SessionRun} (h : c.session = some s) : c = ⟨some s, c.board, c.taken⟩ := by
  rw [← h]

/-- A session is there at the end of a run just if nothing in the run ends it, and it is then the
one that began. -/
theorem session_run (hs : s.handshake.state = .upgraded) (hstay : ∀ d ∈ ds, d.arrives = false)
    (b : Board) (fs : List Frame) :
    (run g ds ⟨some s, b, fs⟩).session = if ds.any ClientAction.ends then none else some s := by
  -- Induction on the actions; after the first one that ends the session nothing is left to do.
  induction ds generalizing b fs with
  | nil => rfl
  | cons d rest ih =>
    have hrest : ∀ d ∈ rest, d.arrives = false := fun d hd => hstay d (List.mem_cons_of_mem _ hd)
    show (run g rest (step g ⟨some s, b, fs⟩ d)).session = _
    rw [List.any_cons]
    cases hd : d.ends with
    | true =>
      rw [step_of_ends hs hd, run_ended hrest]
      rfl
    | false =>
      have hsession : (step g ⟨some s, b, fs⟩ d).session = some s := by
        cases d with
        | frame f elapsed => rw [step_frame hs hd]
        | leave => cases hd
        | _ => rfl
      rw [eta_session hsession, ih hrest]
      rfl

/-- **What is queued in a whole run** are the answers to everything up to the end of the session,
in its order. -/
theorem queued_run (hg : g.HasBuiltins) (hs : s.handshake.state = .upgraded)
    (hstay : ∀ d ∈ ds, d.arrives = false) {b : Board} {fs : List Frame}
    (hw : b.links.isWritable s.link = true) (hroom : NeverFull g s.link ds ⟨some s, b, fs⟩) :
    (run g ds ⟨some s, b, fs⟩).queued s.link =
      queued ⟨some s, b, fs⟩ s.link ++ s.replies g (ds.takeWhile fun d => !d.ends) b := by
  induction ds generalizing b fs with
  | nil => exact (List.append_nil _).symm
  | cons d rest ih =>
    have hrest : ∀ d ∈ rest, d.arrives = false := fun d hd => hstay d (List.mem_cons_of_mem _ hd)
    show (run g rest (step g ⟨some s, b, fs⟩ d)).queued s.link = _
    cases hd : d.ends with
    | true =>
      rw [step_of_ends hs hd, run_ended hrest, queued_finish,
        List.takeWhile_cons_of_neg (by simp [hd])]
      exact (List.append_nil _).symm
    | false =>
      -- one thing adds its answers, and the session is live for the rest as it was for this
      obtain ⟨hsession, hw', hqueued⟩ := step_live hg hs hw hroom.start hd hroom.tail.start
      have hroom' := hroom.tail
      rw [List.takeWhile_cons_of_pos (by simp [hd]), Session.replies, ← List.append_assoc,
        ← hqueued]
      rw [eta_session hsession] at hroom' ⊢
      exact ih hrest hw' hroom'

/-- The requests that are counted in a whole run are the texts before its end that are some. -/
theorem wsRequests_run (hs : s.handshake.state = .upgraded) (hstay : ∀ d ∈ ds, d.arrives = false)
    (b : Board) (fs : List Frame) :
    (run g ds ⟨some s, b, fs⟩).board.counters.wsRequests = b.counters.wsRequests +
      .ofNat ((ds.takeWhile fun d => !d.ends).countP ClientAction.isRequest) := by
  -- Induction on the actions: the first one that ends the session ends the counting too, and every
  -- other one counts if it is a request.
  induction ds generalizing b fs with
  | nil => exact (UInt64.add_zero _).symm
  | cons d rest ih =>
    have hrest : ∀ d ∈ rest, d.arrives = false := fun d hd => hstay d (List.mem_cons_of_mem _ hd)
    show (run g rest (step g ⟨some s, b, fs⟩ d)).board.counters.wsRequests = _
    cases hd : d.ends with
    | true =>
      rw [step_of_ends hs hd, run_ended hrest, List.takeWhile_cons_of_neg (by simp [hd])]
      exact (UInt64.add_zero _).symm
    | false =>
      rw [List.takeWhile_cons_of_pos (by simp [hd]), List.countP_cons, UInt64.ofNat_add]
      cases d with
      | leave => cases hd
      | frame f elapsed =>
        rw [step_frame hs hd, ih hrest, Session.wsRequests_onFrame hs, UInt64.add_assoc,
          UInt64.add_comm (UInt64.ofNat _)]
        show _ + ((if f.isRequest then 1 else 0) + _) =
          _ + (UInt64.ofNat (if f.isRequest then 1 else 0) + _)
        cases f.isRequest <;> rfl
      | _ =>
        show (run g rest ⟨some s, _, _⟩).board.counters.wsRequests = _
        rw [ih hrest]
        exact congrArg (b.counters.wsRequests + ·) (UInt64.add_zero _).symm

/-- Frames alone are handled one after another until one ends the session. -/
theorem run_frames (g : Gateway) (s : Session) (elapsed : Nat) (frames : List Frame) (b : Board)
    (fs : List Frame) :
    run g (frames.map fun f => .frame f elapsed) ⟨some s, b, fs⟩ =
      if (s.onFrames g elapsed frames b).1 then ⟨some s, (s.onFrames g elapsed frames b).2, fs⟩
      else ⟨none, s.finish (s.onFrames g elapsed frames b).2, fs⟩ := by
  induction frames generalizing b with
  | nil => rfl
  | cons f rest ih =>
    have hstep : step g ⟨some s, b, fs⟩ (.frame f elapsed) =
        if (s.onFrame g elapsed f b).1 then ⟨some s, (s.onFrame g elapsed f b).2, fs⟩
        else ⟨none, s.finish (s.onFrame g elapsed f b).2, fs⟩ := by
      unfold step
      rw [ClientAction.act_frame]
      show (⟨_, _, fs ++ []⟩ : SessionRun) = _
      rw [List.append_nil]
      split <;> rfl
    show run g _ (step g ⟨some s, b, fs⟩ (.frame f elapsed)) = _
    rw [hstep, Session.onFrames]
    cases hf : s.onFrame g elapsed f b with
    | mk goes b' =>
      cases goes with
      | true => exact ih b'
      | false =>
        -- what comes behind the end is frames only, which reach nobody
        apply run_ended
        intro d hd
        obtain ⟨f', -, rfl⟩ := List.mem_map.mp hd
        rfl

/-- **A session answers its frames in their order.** Take an upgraded session of a gateway with the
built-in operations whose connection can be written to, and anything that happens to it: frames of
any kind come in, frames are taken off its queue, its stream ends. If the queue is never full, then
everything that was queued for the client are the answers, in the order of the frames and each in
the state that the earlier ones left, up to the first close frame or the end of the stream. Just
these two end the session, and the texts before them that are requests are what is counted.

The answers to a text are what the demultiplexer sends. A frame that is refused has one answer, an
error with the id zero and the operation `ok`; it is handled without any operation, whatever the
gateway, and neither subscribes nor counts as a request. -/
theorem conversation (hg : g.HasBuiltins) (hs : s.handshake.state = .upgraded)
    (hw : b.links.isWritable s.link = true) (hstay : ∀ d ∈ ds, d.arrives = false)
    (hroom : NeverFull g s.link ds (start s b)) :
    let c := run g ds (start s b)
    let live := ds.takeWhile fun d => !d.ends
    c.queued s.link = b.links.frames s.link ++ s.replies g live b ∧
    c.session = (if ds.any ClientAction.ends then none else some s) ∧
    c.board.counters.wsRequests =
      b.counters.wsRequests + .ofNat (live.countP ClientAction.isRequest) ∧
    (∀ text elapsed b, s.onFrame g elapsed (.text text) b =
        (true, (g.onFrame elapsed s.link (.text text) b).2) ∧
      (g.onFrame elapsed s.link (.text text) b).2.links =
        b.links.respond s.link (answersToText b.subscriptions s.link text) ∧
      s.reply (.text text) b = Response.numbered b.links.nextInstance
        (answersToText b.subscriptions s.link text)) ∧
    (∀ f, f.isRefused = true → ∀ b,
      (∃ r : Response, s.reply f b = [r.toFrame b.links.nextInstance] ∧
        r.kind = .error ∧ r.rerid = 0 ∧ r.op = "ok") ∧
      ∃ after : Board, (∀ g' elapsed, s.onFrame g' elapsed f b = (true, after)) ∧
        after.subscriptions = b.subscriptions ∧
        after.counters.wsRequests = b.counters.wsRequests ∧
        after.metrics.wsRequests = b.metrics.wsRequests) ∧
    ∀ elapsed frames, run g (frames.map fun f => .frame f elapsed) (start s b) =
      if (s.onFrames g elapsed frames b).1 then ⟨some s, (s.onFrames g elapsed frames b).2, []⟩
      else ⟨none, s.finish (s.onFrames g elapsed frames b).2, []⟩ := by
  intro c live
  refine ⟨queued_run hg hs hstay hw hroom, session_run hs hstay b [], wsRequests_run hs hstay b [],
    ?_, ?_, fun elapsed frames => run_frames g s elapsed frames b []⟩
  · intro text elapsed b'
    exact ⟨Session.onFrame_text hs g elapsed text b',
      Gateway.links_onFrame_text hg elapsed s.link text b', rfl⟩
  · intro f hf b'
    -- A refusal does not read the gateway, so its board is the same one for all of them.
    refine ⟨⟨Session.refusal f, ?_, rfl, rfl, rfl⟩,
      s.reject f (.unsupported (f.kind ++ " frames are not supported")) b',
      fun g' elapsed => Session.onFrame_refused hs hf g' elapsed b', rfl, rfl, rfl⟩
    cases f with
    | binary payload => rfl
    | raw payload => rfl
    | _ => cases hf

/-- An echo is taken off the queue, a binary frame and a malformed text are refused, a ping is
answered, and after the close frame nothing is. -/
theorem conversation_until_close :
    let g : Gateway := { Gateway.ofConfig {} with operations := ⟨builtinOperations, by decide⟩ }
    let s : Session := ⟨⟨0, 1⟩, ⟨.upgraded⟩⟩
    let b := Board.start.setLinks (Links.empty.open 1 (.v4 [127, 0, 0, 1] 80) 4).2
    let echo := "\x7b\"id\":7,\"op\":\"echo\",\"type\":\"req\",\"payload\":true\x7d"
    let ds : List ClientAction :=
      [.frame (.text echo) 0, .flush 1 true, .frame (.binary [1]) 0, .frame (.text "?") 0,
        .frame (.ping [9]) 0, .frame (.close none) 0, .frame (.ping [8]) 0]
    NeverFull g s.link ds (start s b) ∧ (run g ds (start s b)).session = none ∧
      (run g ds (start s b)).queued s.link =
        [.text "\x7b\"id\":1,\"rerid\":7,\"t\":\"resp\",\"op\":\"echo\",\"msg\":true\x7d",
          .text ("\x7b\"id\":2,\"rerid\":0,\"t\":\"err\",\"op\":\"ok\"," ++
            "\"msg\":\"unsupported: binary frames are not supported\"\x7d"),
          .text ("\x7b\"id\":3,\"rerid\":0,\"t\":\"err\",\"op\":\"ok\",\"msg\":\"bad request: " ++
            "invalid envelope json: expected value at line 1 column 1\"\x7d"),
          .pong [9]] := by
  intro g s b echo ds
  have hroom : NeverFull g s.link ds (start s b) := by
    unfold NeverFull
    decide +kernel
  obtain ⟨hqueued, hsession, -⟩ :=
    conversation (fun _ => rfl) rfl (by decide +kernel) (by decide +kernel) hroom
  refine ⟨hroom, hsession, hqueued.trans ?_⟩
  decide +kernel

end SessionRun

end WsGateway
