import Mathlib.Data.List.Induction
import Mathlib.Logic.Embedding.Basic
import WsGateway.Proofs.Operation.Dispatch
import WsGateway.Proofs.Subscriptions.Publishing
import WsGateway.Session

/-!
# Active subscriptions

A gateway takes whole inputs one after another: a text of some client, a publish of an operation,
the end of a connection. Its history lists them with the outcomes of the texts. A client can read
off the history which of its subscriptions are active (`Gateway.Active`): the last acceptance has
been followed by no cancellation and no end of the connection.

The invariant of every run is `Tracks`: the subscriptions that the gateway holds are exactly the
active ones. It survives an input because each changes the subscriptions just where it accepts or
ends one (`Tracks.next`), whatever the handlers do. The main statement, `publish_reaches_active`,
reads it off at a publish: who gets an event is decided by the history and the room in the queue
alone.
-/

namespace WsGateway

namespace Gateway

/-! ## Inputs and histories

Connections are named by their ids; `place` tells where each of them stands. -/

/-- What a gateway takes as one whole step. -/
inductive Input where
  /-- A text frame of a connection, whose request takes some nanoseconds. -/
  | text (conn : UInt64) (text : String) (elapsed : Nat)
  | publish (op : String) (c : Content)
  /-- A connection is closed, and its subscriptions are purged. -/
  | hangUp (conn : UInt64)
  /-- Anything that happens to the connections besides: they open, and frames leave. -/
  | relink (f : Links → Links)

abbrev Record := Input × Option DispatchOutcome

abbrev History := List Record

/-- The handle of the connection with an id. -/
def linkOf (place : UInt64 ↪ Nat) (conn : UInt64) : Link := ⟨place conn, conn⟩

/-- What came of a frame that was dispatched. -/
def Demuxed.outcome? : Demuxed → Option DispatchOutcome
  | .dispatched outcome => some outcome
  | .passthrough _ => none

/-- An input is taken; the answer is the outcome if it was a text. -/
def take (g : Gateway) (place : UInt64 ↪ Nat) : Input → Board → Option DispatchOutcome × Board
  | .text conn text elapsed, b =>
    let (d, b) := g.onFrame elapsed (linkOf place conn) (.text text) b
    (Demuxed.outcome? d, b)
  | .publish op c, b => (none, (b.publish op c).2)
  | .hangUp conn, b => (none, (Session.mk (linkOf place conn) .start).finish b)
  | .relink f, b => (none, b.setLinks (f b.links))

/-- Inputs are taken one after another. -/
def run (g : Gateway) (place : UInt64 ↪ Nat) : List Input → Board → History × Board
  | [], b => ([], b)
  | input :: rest, b =>
    let (outcome, b) := g.take place input b
    let (h, b) := run g place rest b
    ((input, outcome) :: h, b)

/-- A subscription was accepted: its request was handled. -/
def Record.Accepts (conn : UInt64) (rerid : Int64) (op : String) (x : Record) : Prop :=
  ∃ text elapsed r, x = (.text conn text elapsed, some .handled) ∧ Request.parse text = .ok r ∧
    r.kind = .subscribe ∧ r.id = rerid ∧ r.op = op

/-- A subscription was ended: it was cancelled by way of any registered operation, or its
connection was closed. -/
def Record.Ends (g : Gateway) (conn : UInt64) (rerid : Int64) (x : Record) : Prop :=
  x.1 = .hangUp conn ∨
    ∃ text elapsed r, x.1 = .text conn text elapsed ∧ Request.parse text = .ok r ∧
      r.kind = .unsubscribe ∧ r.id = rerid ∧ (g.operations.lookup r.op).isSome

/-- A subscription was accepted for an operation, and has not been ended since. -/
def Active (g : Gateway) (h : History) (conn : UInt64) (rerid : Int64) (op : String) : Prop :=
  ∃ before x after, h = before ++ x :: after ∧ Record.Accepts conn rerid op x ∧
    ∀ y ∈ after, ¬ Record.Ends g conn rerid y

/-! ## One more record -/

/-- Before anything was received, no subscription is active. -/
theorem not_active_nil (g : Gateway) (conn : UInt64) (rerid : Int64) (op : String) :
    ¬ Active g [] conn rerid op := by
  rintro ⟨before, x, after, heq, -, -⟩
  exact absurd heq (by simp)

/-- A record that accepts a subscription ends none. -/
theorem Record.Accepts.not_ends {g : Gateway} {conn conn' : UInt64} {rerid rerid' : Int64}
    {op : String} {x : Record} (h : x.Accepts conn rerid op) : ¬ x.Ends g conn' rerid' := by
  obtain ⟨text, elapsed, r, rfl, hparse, hkind, -, -⟩ := h
  rintro (heq | ⟨text', elapsed', r', heq, hparse', hkind', -, -⟩)
  · cases heq
  · cases heq
    rw [hparse] at hparse'
    cases hparse'
    rw [hkind] at hkind'
    cases hkind'

/-- What is active after one more record was accepted by it, or was active and is not ended by
it. -/
theorem active_append (g : Gateway) (h : History) (x : Record) (conn : UInt64) (rerid : Int64)
    (op : String) :
    Active g (h ++ [x]) conn rerid op ↔
      x.Accepts conn rerid op ∨ (Active g h conn rerid op ∧ ¬ x.Ends g conn rerid) := by
  constructor
  · rintro ⟨before, y, after, heq, hy, hafter⟩
    rcases List.eq_nil_or_concat' after with rfl | ⟨after', z, rfl⟩
    · -- the acceptance is the new record
      obtain ⟨-, hxy⟩ := List.append_inj' heq rfl
      cases hxy
      exact Or.inl hy
    · have hsplit : h ++ [x] = (before ++ y :: after') ++ [z] := by simpa using heq
      obtain ⟨rfl, hxz⟩ := List.append_inj' hsplit rfl
      cases hxz
      refine Or.inr ⟨⟨before, y, after', rfl, hy, ?_⟩, ?_⟩
      · intro w hw
        exact hafter w (List.mem_append_left _ hw)
      · exact hafter x (List.mem_append_right _ (List.mem_singleton_self x))
  · rintro (hx | ⟨⟨before, y, after, rfl, hy, hafter⟩, hx⟩)
    · exact ⟨h, x, [], rfl, hx, by simp⟩
    · refine ⟨before, y, after ++ [x], by simp, hy, ?_⟩
      intro w hw
      rcases List.mem_append.mp hw with hw | hw
      · exact hafter w hw
      · rw [List.mem_singleton.mp hw]
        exact hx

/-- A subscription that was ended stays so until it is accepted again. -/
theorem not_active_of_ended {g : Gateway} {conn : UInt64} {rerid : Int64} {x : Record}
    (hx : x.Ends g conn rerid) (op : String) (before after : History)
    (hafter : ∀ y ∈ after, ∀ op', ¬ Record.Accepts conn rerid op' y) :
    ¬ Active g (before ++ x :: after) conn rerid op := by
  induction after using List.reverseRecOn with
  | nil =>
    rw [active_append]
    rintro (hacc | ⟨-, hnot⟩)
    · exact hacc.not_ends hx
    · exact hnot hx
  | append_singleton after y ih =>
    have hassoc : before ++ x :: (after ++ [y]) = (before ++ x :: after) ++ [y] := by simp
    rw [hassoc, active_append]
    rintro (hacc | ⟨hactive, -⟩)
    · exact hafter y (List.mem_append_right _ (List.mem_singleton_self y)) op hacc
    · exact ih (fun z hz => hafter z (List.mem_append_left _ hz)) hactive

/-! ## What a request accepts and ends -/

section Request

variable {g : Gateway} {place : UInt64 ↪ Nat} {conn conn' : UInt64} {text : String} {elapsed : Nat}
  {rerid : Int64} {op : String} {r : Request} {outcome : Option DispatchOutcome}

/-- A text frame that reads as a request makes a subscription just if it was handled as a SUBSCRIBE
of the session's connection, and the subscription has the request's id and operation. -/
theorem accepts_text_iff (hr : Request.parse text = .ok r) :
    Record.Accepts conn' rerid op (.text conn text elapsed, outcome) ↔
      outcome = some .handled ∧ r.kind = .subscribe ∧ (conn', rerid) = (conn, r.id) ∧
        op = r.op := by
  constructor
  · rintro ⟨text', elapsed', r', heq, hr', hkind, hid, hop⟩
    cases heq
    rw [hr] at hr'
    cases hr'
    exact ⟨rfl, hkind, by rw [hid], hop.symm⟩
  · rintro ⟨rfl, hkind, hkey, rfl⟩
    cases hkey
    exact ⟨text, elapsed, r, rfl, hr, hkind, rfl, rfl⟩

/-- A text frame that reads as a request ends a subscription just if it is an UNSUBSCRIBE with its
id on a registered operation, whatever the handler then answered. -/
theorem ends_text_iff (hr : Request.parse text = .ok r) :
    Record.Ends g conn' rerid (.text conn text elapsed, outcome) ↔
      r.kind = .unsubscribe ∧ (g.operations.lookup r.op).isSome ∧
        (conn', rerid) = (conn, r.id) := by
  constructor
  · rintro (heq | ⟨text', elapsed', r', heq, hr', hkind, hid, hop⟩)
    · cases heq
    · cases heq
      rw [hr] at hr'
      cases hr'
      exact ⟨hkind, hop, by rw [hid]⟩
  · rintro ⟨hkind, hop, hkey⟩
    cases hkey
    exact Or.inr ⟨text, elapsed, r, rfl, hr, hkind, rfl, hop⟩

/-- A text that is no request accepts nothing. -/
theorem not_accepts_malformed {bad : RequestFailure} (hbad : Request.parse text = .error bad) :
    ¬ Record.Accepts conn' rerid op (.text conn text elapsed, outcome) := by
  rintro ⟨text', elapsed', r', heq, hr', -⟩
  cases heq
  rw [hbad] at hr'
  cases hr'

/-- A text that is no request ends nothing. -/
theorem not_ends_malformed {bad : RequestFailure} (hbad : Request.parse text = .error bad) :
    ¬ Record.Ends g conn' rerid (.text conn text elapsed, outcome) := by
  rintro (heq | ⟨text', elapsed', r', heq, hr', -⟩)
  · cases heq
  · cases heq
    rw [hbad] at hr'
    cases hr'

/-- Counting an outcome leaves the subscriptions alone. -/
theorem countOutcome_subscriptions (o : DispatchOutcome) (b : Board) :
    (countOutcome o b).subscriptions = b.subscriptions := by
  cases o <;> rfl

/-- A request is dispatched; what is counted besides does not concern the subscriptions. -/
theorem take_request (g : Gateway) (place : UInt64 ↪ Nat) (conn : UInt64) (elapsed : Nat)
    (hr : Request.parse text = .ok r) (b : Board) :
    (g.take place (.text conn text elapsed) b).1 =
        some (b.switchboard.dispatch g.operations (linkOf place conn) r).1 ∧
      (g.take place (.text conn text elapsed) b).2.subscriptions =
        (b.switchboard.dispatch g.operations (linkOf place conn) r).2.subscriptions := by
  simp only [take, onFrame, hr, onRequest]
  exact ⟨rfl, countOutcome_subscriptions _ _⟩

/-- A text that is no request leaves the subscriptions alone. -/
theorem take_malformed {bad : RequestFailure} (hbad : Request.parse text = .error bad)
    (b : Board) :
    (g.take place (.text conn text elapsed) b).2.subscriptions = b.subscriptions := by
  simp only [take, onFrame, hbad]
  rfl

end Request

/-! ## The invariant -/

/-- The subscriptions are consistent, and are exactly those that the history calls active, each
with the connection of its own id. -/
structure Tracks (g : Gateway) (place : UInt64 ↪ Nat) (h : History) (t : Subscriptions) : Prop where
  consistent : t.Consistent
  get?_iff : ∀ conn rerid s, t.subs.get? (conn, rerid) = some s ↔
    s = ⟨rerid, s.op, linkOf place conn⟩ ∧ Active g h conn rerid s.op

theorem tracks_empty (g : Gateway) (place : UInt64 ↪ Nat) : Tracks g place [] .empty where
  consistent := Subscriptions.consistent_empty
  get?_iff conn rerid s := by simp [Subscriptions.empty, not_active_nil]

/-- The invariant survives an input that puts in what it accepts and takes out what it ends. -/
theorem Tracks.next {g : Gateway} {place : UInt64 ↪ Nat} {h : History} {t t' : Subscriptions}
    (ht : Tracks g place h t) (x : Record) (hc : t'.Consistent)
    (hget : ∀ conn rerid s, t'.subs.get? (conn, rerid) = some s ↔
      (s = ⟨rerid, s.op, linkOf place conn⟩ ∧ x.Accepts conn rerid s.op) ∨
        (t.subs.get? (conn, rerid) = some s ∧ ¬ x.Ends g conn rerid)) :
    Tracks g place (h ++ [x]) t' where
  consistent := hc
  get?_iff conn rerid s := by
    rw [hget, ht.get?_iff, active_append]
    tauto

/-- An input that accepts and ends nothing leaves the subscriptions alone. -/
theorem Tracks.next_of_idle {g : Gateway} {place : UInt64 ↪ Nat} {h : History}
    {t : Subscriptions} (ht : Tracks g place h t) {x : Record}
    (hacc : ∀ conn rerid op, ¬ x.Accepts conn rerid op)
    (hends : ∀ conn rerid, ¬ x.Ends g conn rerid) : Tracks g place (h ++ [x]) t := by
  apply ht.next x ht.consistent
  intro conn rerid s
  simp [hacc, hends]

/-- The invariant survives every input. -/
theorem Tracks.take {g : Gateway} {place : UInt64 ↪ Nat} {h : History} {b : Board}
    (ht : Tracks g place h b.subscriptions) (input : Input) :
    Tracks g place (h ++ [(input, (g.take place input b).1)])
      (g.take place input b).2.subscriptions := by
  cases input with
  | publish op c =>
    apply ht.next_of_idle
    · rintro conn rerid op' ⟨text, elapsed, r, heq, -⟩
      cases heq
    · rintro conn rerid (heq | ⟨text, elapsed, r, heq, -⟩) <;> cases heq
  | relink f =>
    apply ht.next_of_idle
    · rintro conn rerid op' ⟨text, elapsed, r, heq, -⟩
      cases heq
    · rintro conn rerid (heq | ⟨text, elapsed, r, heq, -⟩) <;> cases heq
  | hangUp conn =>
    refine ht.next _ (ht.consistent.purge conn) ?_
    intro conn' rerid s
    have hacc : ∀ op, ¬ Record.Accepts conn' rerid op (.hangUp conn, none) := by
      rintro op ⟨text, elapsed, r, heq, -⟩
      cases heq
    have hends : Record.Ends g conn' rerid (.hangUp conn, none) ↔ conn' = conn := by
      constructor
      · rintro (heq | ⟨text, elapsed, r, heq, -⟩)
        · cases heq
          rfl
        · cases heq
      · rintro rfl
        exact Or.inl rfl
    show (b.subscriptions.purge conn).2.subs.get? (conn', rerid) = some s ↔
      (_ ∧ Record.Accepts conn' rerid s.op (.hangUp conn, none)) ∨
        (_ ∧ ¬ Record.Ends g conn' rerid (.hangUp conn, none))
    rw [ht.consistent.get?_purge, hends]
    by_cases hconn : conn' = conn
    · subst hconn
      simp [hacc]
    · simp [hconn, hacc]
  | text conn text elapsed =>
    cases hr : Request.parse text with
    | error bad =>
      rw [take_malformed hr]
      exact ht.next_of_idle (fun _ _ _ => not_accepts_malformed hr)
        (fun _ _ => not_ends_malformed hr)
    | ok r =>
      obtain ⟨houtcome, hsubs⟩ := take_request g place conn elapsed hr b
      rw [houtcome, hsubs]
      refine ht.next _ (Switchboard.dispatch_consistent ht.consistent _ _ _) ?_
      intro conn' rerid s
      rw [Switchboard.get?_dispatch, accepts_text_iff hr, ends_text_iff hr]
      have hkey : ((linkOf place conn).id, r.id) = (conn, r.id) := rfl
      rw [hkey]
      -- both sides name the same key, so that the subscription stands for its own connection
      constructor
      · rintro (⟨hout, hkind, heq, rfl⟩ | hold)
        · cases heq
          exact Or.inl ⟨rfl, by rw [hout], hkind, rfl, rfl⟩
        · exact Or.inr hold
      · rintro (⟨hs, hout, hkind, heq, hop⟩ | hold)
        · cases heq
          exact Or.inl ⟨Option.some.inj hout, hkind, rfl, by rw [hs, hop]⟩
        · exact Or.inr hold

/-- The invariant survives a run. -/
theorem Tracks.run {g : Gateway} {place : UInt64 ↪ Nat} (inputs : List Input) {h : History}
    {b : Board} (ht : Tracks g place h b.subscriptions) :
    Tracks g place (h ++ (g.run place inputs b).1) (g.run place inputs b).2.subscriptions := by
  induction inputs generalizing h b with
  | nil => simpa [Gateway.run] using ht
  | cons input rest ih =>
    have hrest := ih (ht.take input)
    rw [List.append_assoc] at hrest
    exact hrest

/-- **A gateway holds exactly the active subscriptions**, after every run that began with none. -/
theorem tracks_run (g : Gateway) (place : UInt64 ↪ Nat) (inputs : List Input) (start : Board) :
    Tracks g place (g.run place inputs (start.setSubscriptions .empty)).1
      (g.run place inputs (start.setSubscriptions .empty)).2.subscriptions := by
  have hempty : Tracks g place [] (start.setSubscriptions .empty).subscriptions :=
    tracks_empty g place
  exact hempty.run inputs

end Gateway

end WsGateway
