import Mathlib.Data.List.Induction
import WsGateway.Writer

/-!
# Delivery of outbound frames

A connection is written to, closed and emptied by tasks that know nothing of each other. A
`WrittenConnection` is the connection with its writer, and a `ConnectionStep` is one atomic step of
one of these tasks; a run is any list of steps.

The tickets of the accepted frames count them. So the frames split at one point: those before it
were sent, and those behind it wait in the queue with the tickets that follow
(`WrittenConnection.Sound`). A writer that fails loses what waits, and this is the only way to lose
a frame. The main statement, `WrittenConnection.delivers_in_order`, reads off what is accepted, what
is sent and what is promised for each frame.
-/

namespace WsGateway

/-- A connection with the writer that empties its queue. -/
structure WrittenConnection where
  conn : Connection
  writer : Writer

/-- What some task does to a connection, in one step. -/
inductive ConnectionStep where
  | write (f : Frame)
  | close
  /-- The writer takes a step, and the client accepts what it is sent or does not. -/
  | work (accepts : Bool)

namespace WrittenConnection

def start (id : UInt64) (peer : Net.Address) (queue : Nat) : WrittenConnection :=
  ⟨.start id peer queue, .start⟩

def step (o : WrittenConnection) : ConnectionStep → WrittenConnection
  | .write f => { o with conn := (o.conn.write f).2 }
  | .close => { o with conn := o.conn.close }
  | .work accepts =>
    let (writer, conn) := Writer.step accepts o.writer o.conn
    ⟨conn, writer⟩

def run (ss : List ConnectionStep) (o : WrittenConnection) : WrittenConnection := ss.foldl step o

/-- The frame that is accepted in a step, if one is. -/
def gain (o : WrittenConnection) : ConnectionStep → List Frame
  | .write f => if (o.conn.write f).1.isSome then [f] else []
  | .close | .work _ => []

/-- The frames that are accepted in a run, oldest first. -/
def accepted : List ConnectionStep → WrittenConnection → List Frame
  | [], _ => []
  | s :: rest, o => o.gain s ++ accepted rest (o.step s)

theorem run_append (ss ss' : List ConnectionStep) (o : WrittenConnection) :
    run (ss ++ ss') o = run ss' (run ss o) := List.foldl_append

/-- What is accepted in two runs is accepted in the two one after the other. -/
theorem accepted_append (ss ss' : List ConnectionStep) (o : WrittenConnection) :
    accepted (ss ++ ss') o = accepted ss o ++ accepted ss' (run ss o) := by
  induction ss generalizing o with
  | nil => rfl
  | cons s rest ih =>
    rw [List.cons_append, accepted, ih, accepted, List.append_assoc]
    rfl

/-! ## Tickets -/

/-- Frames with consecutive tickets, as they wait in a queue. -/
def ticketed : Nat → List Frame → List Outbound
  | _, [] => []
  | n, f :: rest => ⟨f, n⟩ :: ticketed (n + 1) rest

@[simp] theorem map_frame_ticketed (n : Nat) (fs : List Frame) :
    (ticketed n fs).map Outbound.frame = fs := by
  induction fs generalizing n with
  | nil => rfl
  | cons f rest ih => rw [ticketed, List.map_cons, ih]

theorem ticketed_append (n : Nat) (fs gs : List Frame) :
    ticketed n (fs ++ gs) = ticketed n fs ++ ticketed (n + fs.length) gs := by
  induction fs generalizing n with
  | nil => rfl
  | cons f rest ih =>
    rw [List.cons_append, ticketed, ih, ticketed, List.length_cons, List.cons_append,
      Nat.add_assoc, Nat.add_comm 1]

/-- The tickets are those from the first one on, as many as there are frames. -/
theorem any_ticketed (n : Nat) (fs : List Frame) (i : Nat) :
    (ticketed n fs).any (·.ticket == i) = decide (n ≤ i ∧ i < n + fs.length) := by
  induction fs generalizing n with
  | nil =>
    have hnone : ¬ (n ≤ i ∧ i < n + 0) := by omega
    exact (decide_eq_false hnone).symm
  | cons f rest ih =>
    rw [ticketed, List.any_cons, ih, List.length_cons, Bool.eq_iff_iff]
    simp only [Bool.or_eq_true, beq_iff_eq, decide_eq_true_eq]
    omega

/-! ## The invariant -/

/-- After these steps, in which these frames were accepted, the frames are sent or wait in their
order, each under its ticket. -/
structure Sound (queue : Nat) (ss : List ConnectionStep) (taken : List Frame)
    (o : WrittenConnection) : Prop where
  capacity : o.conn.capacity = max queue 1
  accepted : o.conn.accepted = taken.length
  sent : o.writer.sent <+: taken
  flushed : ∀ i, i ∈ o.conn.flushed ↔ i < o.writer.sent.length
  receiving : o.conn.receiving = true ↔ o.writer.status = .running
  waiting : o.writer.status = .running →
    o.conn.queue = ticketed o.writer.sent.length (taken.drop o.writer.sent.length)
  stopped : o.writer.status ≠ .running → o.conn.queue = []
  finished : o.writer.status = .finished → .close ∈ ss ∧ o.writer.sent = taken
  closed : o.conn.closed = true ↔ .close ∈ ss ∨ o.writer.status = .failed

/-- A new connection has accepted and sent nothing. -/
theorem sound_start (id : UInt64) (peer : Net.Address) (queue : Nat) :
    Sound queue [] [] (start id peer queue) where
  capacity := rfl
  accepted := rfl
  sent := List.prefix_rfl
  flushed i := by simp [start, Connection.start, Writer.start]
  receiving := by simp [start, Connection.start, Writer.start]
  waiting _ := rfl
  stopped h := absurd rfl h
  finished h := by cases h
  closed := by simp [start, Connection.start, Writer.start]

variable {queue : Nat} {ss : List ConnectionStep} {taken : List Frame} {o : WrittenConnection}

/-- A frame is accepted if the connection was not closed, its writer has not stopped and its queue
has room; its ticket counts the frames before it. -/
theorem Sound.write_fst (h : Sound queue ss taken o) (f : Frame) :
    (o.conn.write f).1 =
      if o.conn.closed = false ∧ o.writer.status = .running ∧ o.conn.queue.length < max queue 1 then
        some taken.length else none := by
  have hcond : (o.conn.isWritable && o.conn.hasRoom) = true ↔
      o.conn.closed = false ∧ o.writer.status = .running ∧
        o.conn.queue.length < max queue 1 := by
    rw [Bool.and_eq_true, Connection.isWritable, Connection.hasRoom, Bool.and_eq_true,
      h.receiving, h.capacity, decide_eq_true_eq, Bool.not_eq_true', and_assoc]
  rw [Connection.write]
  split
  · next hroom => rw [if_pos (hcond.mp hroom), h.accepted]
  · next hroom => rw [if_neg fun hand => hroom (hcond.mpr hand)]

/-- A step without effect, which is not a close. -/
theorem Sound.idle (h : Sound queue ss taken o) {s : ConnectionStep} (hs : s ≠ .close) :
    Sound queue (ss ++ [s]) taken o := by
  have hclose : .close ∈ ss ++ [s] ↔ .close ∈ ss := by
    rw [List.mem_append, List.mem_singleton, or_iff_left (Ne.symm hs)]
  refine { h with finished := ?_, closed := ?_ }
  · exact fun hfin => ⟨hclose.mpr (h.finished hfin).1, (h.finished hfin).2⟩
  · rw [hclose]
    exact h.closed

/-- A write adds its frame to the accepted ones if there is room, with the next ticket. -/
theorem Sound.write (h : Sound queue ss taken o) (f : Frame) :
    Sound queue (ss ++ [.write f]) (taken ++ o.gain (.write f)) (o.step (.write f)) := by
  have hclosed : o.conn.closed = true ↔ .close ∈ ss ++ [.write f] ∨ o.writer.status = .failed := by
    rw [h.closed]
    simp
  have hfst := h.write_fst f
  unfold gain step
  dsimp only
  rw [hfst]
  split
  · next hroom =>
    have hsnd : (o.conn.write f).2 = { o.conn with
        queue := o.conn.queue ++ [⟨f, o.conn.accepted⟩], accepted := o.conn.accepted + 1 } := by
      rw [if_pos hroom, Connection.write] at hfst
      rw [Connection.write]
      split at hfst
      · next hw => rw [if_pos hw]
      · cases hfst
    have hle : o.writer.sent.length ≤ taken.length := h.sent.length_le
    rw [hsnd, if_pos (by rfl)]
    refine ⟨h.capacity, ?_, ?_, h.flushed, h.receiving, ?_, ?_, ?_, hclosed⟩
    · show o.conn.accepted + 1 = (taken ++ [f]).length
      rw [h.accepted, List.length_append, List.length_singleton]
    · exact h.sent.trans (List.prefix_append _ _)
    · intro hrun
      show o.conn.queue ++ [⟨f, o.conn.accepted⟩] = _
      -- the new frame waits behind the others, and its ticket is the number of all before it
      rw [List.drop_append_of_le_length hle, ticketed_append, h.waiting hrun, h.accepted,
        List.length_drop, Nat.add_sub_cancel' hle]
      rfl
    · exact fun hstop => absurd hroom.2.1 hstop
    · intro hfin
      rw [hroom.2.1] at hfin
      cases hfin
  · next hroom =>
    have hsnd : (o.conn.write f).2 = o.conn := by
      rw [if_neg hroom, Connection.write] at hfst
      rw [Connection.write]
      split at hfst
      · cases hfst
      · next hw => rw [if_neg hw]
    rw [hsnd, if_neg (by simp), List.append_nil]
    exact h.idle ConnectionStep.noConfusion

/-- A close is noted, and moves no frame. -/
theorem Sound.close (h : Sound queue ss taken o) :
    Sound queue (ss ++ [.close]) (taken ++ o.gain .close) (o.step .close) := by
  rw [gain, List.append_nil]
  refine { h with finished := ?_, closed := ?_ }
  · exact fun hfin => ⟨by simp, (h.finished hfin).2⟩
  · simp [step, Connection.close]

/-- The writer sends the frame that waits longest; if the client does not accept it then the writer
stops, and what waits is lost. On a closed connection where nothing waits it sends the close
frame. -/
theorem Sound.work (h : Sound queue ss taken o) (accepts : Bool) :
    Sound queue (ss ++ [.work accepts]) (taken ++ o.gain (.work accepts))
      (o.step (.work accepts)) := by
  have hclose : .close ∈ ss ++ [.work accepts] ↔ .close ∈ ss := by simp
  rw [gain, List.append_nil]
  show Sound queue _ taken ⟨(Writer.step accepts o.writer o.conn).2,
    (Writer.step accepts o.writer o.conn).1⟩
  by_cases hrun : o.writer.status = .running
  · have hwaiting := h.waiting hrun
    have hpending : o.conn.closed = true ↔ .close ∈ ss := by
      rw [h.closed, hrun]
      simp
    unfold Writer.step Connection.take
    rw [if_neg (not_not_intro hrun)]
    cases hrest : taken.drop o.writer.sent.length with
    | nil =>
      have hall : o.writer.sent = taken :=
        h.sent.eq_of_length_le (List.drop_eq_nil_iff.mp hrest)
      have hnil : o.conn.queue = [] := by rw [hwaiting, hrest, ticketed]
      rw [hnil]
      dsimp only
      split
      · next hclosed =>
        -- nothing waits and the connection is closed: only the close frame is left to be sent
        cases accepts with
        | true =>
          refine ⟨h.capacity, h.accepted, h.sent, h.flushed, ?_, ?_, fun _ => rfl,
            fun _ => ⟨hclose.mpr (hpending.mp hclosed), hall⟩, ?_⟩
          · simp [Connection.stopReceiving]
          · intro hstill
            cases hstill
          · rw [hclose]
            show o.conn.closed = true ↔ _
            simp [hpending]
        | false =>
          refine ⟨h.capacity, h.accepted, h.sent, h.flushed, ?_, ?_, fun _ => rfl, ?_, ?_⟩
          · simp [Connection.stopReceiving]
          · intro hstill
            cases hstill
          · intro hfin
            cases hfin
          · simpa [Connection.stopReceiving] using hclosed
      · exact h.idle ConnectionStep.noConfusion
    | cons f rest =>
      have hcons : o.conn.queue = ⟨f, o.writer.sent.length⟩ ::
          ticketed (o.writer.sent.length + 1) rest := by rw [hwaiting, hrest, ticketed]
      have htaken : taken = o.writer.sent ++ f :: rest := by
        rw [← hrest]
        exact (List.prefix_iff_eq_append.mp h.sent).symm
      rw [hcons]
      cases accepts with
      | true =>
        refine ⟨h.capacity, h.accepted, ?_, ?_, h.receiving, ?_, fun hstop => absurd hrun hstop,
          ?_, ?_⟩
        · rw [htaken]
          show o.writer.sent ++ [f] <+: o.writer.sent ++ f :: rest
          exact (List.prefix_append_right_inj _).mpr ⟨rest, rfl⟩
        · intro i
          show i ∈ o.writer.sent.length :: o.conn.flushed ↔ i < (o.writer.sent ++ [f]).length
          rw [List.mem_cons, h.flushed, List.length_append, List.length_singleton]
          omega
        · intro _
          show ticketed (o.writer.sent.length + 1) rest =
            ticketed (o.writer.sent ++ [f]).length (taken.drop (o.writer.sent ++ [f]).length)
          have hsplit : taken = (o.writer.sent ++ [f]) ++ rest := by
            rw [htaken, List.append_assoc, List.singleton_append]
          have hdrop : taken.drop (o.writer.sent ++ [f]).length = rest := by
            rw [hsplit, List.drop_left]
          rw [hdrop, List.length_append, List.length_singleton]
        · intro hfin
          rw [show o.writer.status = .finished from hfin] at hrun
          cases hrun
        · rw [hclose]
          exact h.closed
      | false =>
        refine ⟨h.capacity, h.accepted, h.sent, h.flushed, ?_, ?_, fun _ => rfl, ?_, ?_⟩
        · simp [Writer.abandon, Connection.stopReceiving]
        · intro hstill
          cases hstill
        · intro hfin
          cases hfin
        · simp [Writer.abandon, Connection.stopReceiving, Connection.close]
  · -- a writer that has stopped does nothing
    have hidle : Writer.step accepts o.writer o.conn = (o.writer, o.conn) := by
      rw [Writer.step, if_pos hrun]
    rw [hidle]
    exact h.idle ConnectionStep.noConfusion

/-- Every step keeps the frames in order. -/
theorem Sound.step (h : Sound queue ss taken o) (s : ConnectionStep) :
    Sound queue (ss ++ [s]) (taken ++ o.gain s) (o.step s) := by
  cases s with
  | write f => exact h.write f
  | close => exact h.close
  | work accepts => exact h.work accepts

/-- By induction on the steps, the last one first: a run keeps the frames in order. -/
theorem sound_run (id : UInt64) (peer : Net.Address) (queue : Nat) (ss : List ConnectionStep) :
    Sound queue ss (accepted ss (start id peer queue)) (run ss (start id peer queue)) := by
  induction ss using List.reverseRecOn with
  | nil => exact sound_start id peer queue
  | append_singleton ss s ih =>
    have hstep := ih.step s
    rw [accepted_append, run_append, accepted, accepted, List.append_nil]
    exact hstep

/-! ## What follows from it -/

/-- What has become of the frame with a ticket. -/
theorem Sound.delivered? (h : Sound queue ss taken o) {i : Nat} (hi : i < taken.length) :
    o.conn.delivered? i =
      if i < o.writer.sent.length then some true
      else if o.writer.status = .failed then some false else none := by
  have hcontains : o.conn.flushed.contains i = decide (i < o.writer.sent.length) := by
    rw [Bool.eq_iff_iff, List.contains_iff_mem, h.flushed, decide_eq_true_eq]
  have hle : o.writer.sent.length ≤ taken.length := h.sent.length_le
  unfold Connection.delivered?
  by_cases hrun : o.writer.status = .running
  · rw [h.waiting hrun, any_ticketed, List.length_drop, hcontains, hrun]
    by_cases hsent : i < o.writer.sent.length
    · have hnot : ¬ (o.writer.sent.length ≤ i ∧
          i < o.writer.sent.length + (taken.length - o.writer.sent.length)) := by omega
      rw [if_pos hsent, decide_eq_false hnot, decide_eq_true hsent]
      rfl
    · have hwaits : o.writer.sent.length ≤ i ∧
          i < o.writer.sent.length + (taken.length - o.writer.sent.length) := by omega
      rw [if_neg hsent, decide_eq_true hwaits]
      rfl
  · rw [h.stopped hrun, hcontains]
    by_cases hsent : i < o.writer.sent.length
    · rw [if_pos hsent, decide_eq_true hsent]
      rfl
    · rw [if_neg hsent, decide_eq_false hsent]
      cases hstatus : o.writer.status with
      | running => exact absurd hstatus hrun
      | finished =>
        -- everything was sent, the frame too
        rw [(h.finished hstatus).2] at hsent
        exact absurd hi hsent
      | failed => rfl

/-- A connection that was closed stays closed, and accepts nothing. -/
theorem closed_step (hclosed : o.conn.closed = true) (s : ConnectionStep) :
    (o.step s).conn.closed = true ∧ o.gain s = [] := by
  cases s with
  | close => exact ⟨rfl, rfl⟩
  | write f =>
    have hwrite : o.conn.write f = (none, o.conn) := by
      simp [Connection.write, Connection.isWritable, hclosed]
    simp only [step, gain, hwrite]
    exact ⟨hclosed, rfl⟩
  | work accepts =>
    refine ⟨?_, rfl⟩
    show (Writer.step accepts o.writer o.conn).2.closed = true
    unfold Writer.step Connection.take
    split
    · exact hclosed
    -- The writer goes on with what is queued; it never opens the connection again.
    · cases o.conn.queue with
      | nil => simp [hclosed, Connection.stopReceiving]
      | cons w rest =>
        cases accepts with
        | true => exact hclosed
        | false => rfl

/-- Nothing is accepted any more once the connection is closed. -/
theorem accepted_of_closed (hclosed : o.conn.closed = true) (ss : List ConnectionStep) :
    accepted ss o = [] := by
  induction ss generalizing o with
  | nil => rfl
  | cons s rest ih =>
    obtain ⟨hstill, hgain⟩ := closed_step hclosed s
    rw [accepted, hgain, ih hstill, List.append_nil]

/-- The writer of a closed connection comes to its end if the client accepts what waits and the
close frame. By induction on what waits. -/
theorem finishes {n : Nat} (hn : o.conn.queue.length = n) (hclosed : o.conn.closed = true)
    (hrun : o.writer.status = .running) :
    (run (List.replicate (n + 1) (.work true)) o).writer.status = .finished := by
  -- One step for each frame that waits and one for the close frame.
  induction n generalizing o with
  | zero =>
    have hnil : o.conn.queue = [] := List.eq_nil_of_length_eq_zero hn
    show (Writer.step true o.writer o.conn).1.status = .finished
    simp [Writer.step, Connection.take, hrun, hnil, hclosed]
  | succ n ih =>
    obtain ⟨w, rest, hcons⟩ := List.exists_cons_of_length_eq_add_one hn
    have hstep : o.step (.work true) =
        ⟨{ o.conn with queue := rest, flushed := w.ticket :: o.conn.flushed },
          { o.writer with sent := o.writer.sent ++ [w.frame] }⟩ := by
      simp [step, Writer.step, Connection.take, hrun, hcons]
    rw [List.replicate_succ, run, List.foldl_cons, hstep]
    have hlength : rest.length = n := by
      rw [hcons, List.length_cons] at hn
      omega
    exact ih hlength hclosed hrun

/-- **Frames are delivered in order, and none is lost but by a writer that fails.** For every run
of steps on a new connection:

* a frame is accepted exactly if the connection has not been closed, the writer has not stopped and
  the queue has room; nothing is accepted behind a close, and nothing but a close or a writer that
  fails closes the connection;
* what was sent and what waits are together the accepted frames in their order, and of a writer
  that failed what was sent is a front part of them;
* a writer that finished was told to close, and has sent all of them and then one close frame; it
  does finish on a closed connection whose client goes on accepting;
* the promise for an accepted frame is kept exactly if the frame was sent, broken if the writer
  failed before, and open as long as the frame waits. -/
theorem delivers_in_order (id : UInt64) (peer : Net.Address) (queue : Nat)
    (ss : List ConnectionStep) :
    let o := run ss (start id peer queue)
    let taken := accepted ss (start id peer queue)
    (∀ f, (o.conn.write f).1 =
      if o.conn.closed = false ∧ o.writer.status = .running ∧ o.conn.queue.length < max queue 1 then
        some taken.length else none) ∧
    (o.conn.closed = true ↔ .close ∈ ss ∨ o.writer.status = .failed) ∧
    (∀ before after, ss = before ++ .close :: after →
      taken = accepted before (start id peer queue)) ∧
    (o.writer.status ≠ .failed → o.writer.sent ++ o.conn.frames = taken) ∧
    o.writer.sent <+: taken ∧
    (o.writer.status = .finished → .close ∈ ss ∧ o.writer.wire = taken ++ [.close none]) ∧
    (o.conn.closed = true → o.writer.status = .running →
      (run (List.replicate (o.conn.queue.length + 1) (.work true)) o).writer.status =
        .finished) ∧
    ∀ i < taken.length, o.conn.delivered? i =
      if i < o.writer.sent.length then some true
      else if o.writer.status = .failed then some false else none := by
  intro o taken
  have h : Sound queue ss taken o := sound_run id peer queue ss
  refine ⟨h.write_fst, h.closed, ?_, ?_, h.sent, ?_, fun hclosed hrun => finishes rfl hclosed hrun,
    fun i hi => h.delivered? hi⟩
  · intro before after hss
    -- A closed connection accepts nothing, so what was accepted is what the steps before the close
    -- gave.
    have hafter : accepted (.close :: after) (run before (start id peer queue)) = [] :=
      accepted_of_closed rfl after
    show accepted ss (start id peer queue) = _
    rw [hss, accepted_append, hafter, List.append_nil]
  · intro hnot
    -- While it runs the writer has the rest queued; once it has finished nothing is left.
    cases hstatus : o.writer.status with
    | running =>
      rw [Connection.frames, h.waiting hstatus, map_frame_ticketed]
      exact List.prefix_iff_eq_append.mp h.sent
    | finished =>
      have hnil : o.conn.queue = [] := h.stopped (by rw [hstatus]; simp)
      rw [Connection.frames, hnil, (h.finished hstatus).2]
      exact List.append_nil _
    | failed => exact absurd hstatus hnot
  · intro hfin
    obtain ⟨hclose, hall⟩ := h.finished hfin
    refine ⟨hclose, ?_⟩
    rw [Writer.wire, if_pos hfin, hall]

end WrittenConnection

end WsGateway
