import Mathlib.Data.List.Induction
import WsGateway.Proofs.Handshake.Negotiation

/-!
# A handshake over its whole life

A handshake is called upon in any order: requests come in, the switching response is flushed or
fails, frames arrive. A `Handshake.Call` is one of these, and `Handshake.after` is what a list of
them makes of a new handshake.

Requests and failures spoil a handshake that is under way (`Call.Spoils`), and nothing else does.
So the state tells what has happened (`Handshake.Sound`): nothing that counts, or a request that was
accepted and nothing spoilt since, with the stream behind it or not. What cannot be told any more
is a handshake that was rejected, which stays so. The main statement, `Handshake.passes_once`, says
what a run of calls can come to.
-/

namespace WsGateway

namespace Handshake

/-- What can happen to a handshake. -/
inductive Call where
  /-- An upgrade request is negotiated. -/
  | negotiate (r : Http.Request)
  /-- The upgraded stream has arrived. -/
  | upgraded
  /-- The switching response could not be delivered. -/
  | failed
  /-- A frame is asked about. -/
  | frame (f : Frame)

/-- The handshake after one call. -/
def step (h : Handshake) : Call → Handshake
  | .negotiate r => (h.negotiate r).2
  | .upgraded => h.onUpgraded
  | .failed => h.onFailed
  | .frame _ => h

def after (calls : List Call) : Handshake := calls.foldl step start

/-- The call ends a handshake that is under way. -/
inductive Call.Spoils : Call → Prop where
  | negotiate (r : Http.Request) : Spoils (.negotiate r)
  | failed : Spoils .failed

/-- The request is accepted behind these calls. -/
def Switches (calls : List Call) (r : Http.Request) : Prop :=
  ∃ response, ((after calls).negotiate r).1 = .switching response

/-- What a frame is for. -/
inductive Means : Frame → FrameAction → Prop where
  | text (s : String) : Means (.text s) .forward
  | ping (payload : Text.Octets) : Means (.ping payload) (.pong payload)
  | pong (payload : Text.Octets) : Means (.pong payload) .ignore
  | close (reason : Option (Nat × String)) : Means (.close reason) .close

/-- Further calls go on from the state that the earlier ones left. -/
theorem after_append (calls more : List Call) :
    after (calls ++ more) = more.foldl step (after calls) := List.foldl_append

/-! ## One call -/

/-- Only a new handshake can accept a request; any other one is over with it. -/
theorem negotiate_cases (h : Handshake) (r : Http.Request) :
    (h.state = .init ∧ ∃ response, h.negotiate r = (.switching response, ⟨.handshaking⟩)) ∨
    ∃ response, h.negotiate r = (.rejected response, ⟨.rejected⟩) := by
  by_cases hinit : h.state = .init
  · obtain rfl : h = start := congrArg Handshake.mk hinit
    rcases negotiate_start_cases r with
      ⟨key, nonce, -, -, -, -, hanswer⟩ | ⟨nonce, -, -, hanswer⟩ | ⟨message, -, hanswer⟩
    · exact .inl ⟨rfl, _, hanswer⟩
    · exact .inr ⟨_, hanswer⟩
    · exact .inr ⟨_, hanswer⟩
  · exact .inr ⟨_, if_pos hinit⟩

/-- A call that spoils nothing changes nothing, or completes the handshake. -/
theorem step_of_not_spoils {c : Call} (hc : ¬ c.Spoils) (h : Handshake) :
    h.step c = h ∨ c = .upgraded ∧ h.state = .handshaking ∧ h.step c = ⟨.upgraded⟩ := by
  cases c with
  | negotiate r => exact absurd (.negotiate r) hc
  | failed => exact absurd .failed hc
  | frame f => exact .inl rfl
  | upgraded =>
    by_cases hstate : h.state = .handshaking
    · exact .inr ⟨rfl, hstate, if_pos hstate⟩
    · exact .inl (if_neg hstate)

/-- Nothing mends a handshake that was rejected. -/
theorem step_rejected (c : Call) : (⟨.rejected⟩ : Handshake).step c = ⟨.rejected⟩ := by
  cases c <;> rfl

/-- A rejected handshake stays so, whatever is called. -/
theorem foldl_rejected (calls : List Call) : calls.foldl step ⟨.rejected⟩ = ⟨.rejected⟩ := by
  induction calls with
  | nil => rfl
  | cons c rest ih => rw [List.foldl_cons, step_rejected, ih]

/-- A handshake that is completed stays so if nothing spoils it. -/
theorem foldl_upgraded {calls : List Call} (h : ∀ c ∈ calls, ¬ c.Spoils) :
    calls.foldl step ⟨.upgraded⟩ = ⟨.upgraded⟩ := by
  induction calls with
  | nil => rfl
  | cons c rest ih =>
    have hstep : (⟨.upgraded⟩ : Handshake).step c = ⟨.upgraded⟩ := by
      rcases step_of_not_spoils (h c List.mem_cons_self) ⟨.upgraded⟩ with hsame | ⟨-, hstate, -⟩
      · exact hsame
      · cases hstate
    rw [List.foldl_cons, hstep, ih fun c' hc' => h c' (List.mem_cons_of_mem _ hc')]

/-- A handshake that waits for its stream goes on to wait or is completed, if nothing spoils it. -/
theorem foldl_handshaking {calls : List Call} (h : ∀ c ∈ calls, ¬ c.Spoils) :
    calls.foldl step ⟨.handshaking⟩ = ⟨.handshaking⟩ ∨
      calls.foldl step ⟨.handshaking⟩ = ⟨.upgraded⟩ := by
  induction calls with
  | nil => exact .inl rfl
  | cons c rest ih =>
    have hrest : ∀ c' ∈ rest, ¬ c'.Spoils := fun c' hc' => h c' (List.mem_cons_of_mem _ hc')
    rw [List.foldl_cons]
    rcases step_of_not_spoils (h c List.mem_cons_self) ⟨.handshaking⟩ with hsame | ⟨-, -, hup⟩
    · rw [hsame]
      exact ih hrest
    · rw [hup]
      exact .inr (foldl_upgraded hrest)

/-! ## What the state tells -/

/-- What has happened, as far as the state tells. -/
structure Sound (calls : List Call) (h : Handshake) : Prop where
  init : h.state = .init → ∀ c ∈ calls, ¬ c.Spoils
  handshaking : h.state = .handshaking → ∃ before r rest,
    calls = before ++ .negotiate r :: rest ∧ Switches before r ∧ ∀ c ∈ rest, ¬ c.Spoils
  upgraded : h.state = .upgraded → ∃ before r between rest,
    calls = before ++ .negotiate r :: (between ++ .upgraded :: rest) ∧ Switches before r ∧
      ∀ c ∈ between ++ rest, ¬ c.Spoils

variable {calls : List Call} {h : Handshake}

/-- A call that spoils nothing is one more of those that did not. -/
theorem Sound.idle (hs : Sound calls h) {c : Call} (hc : ¬ c.Spoils) : Sound (calls ++ [c]) h where
  init hinit c' hc' := by
    rcases List.mem_append.mp hc' with hold | hnew
    · exact hs.init hinit c' hold
    · rwa [List.mem_singleton.mp hnew]
  handshaking hstate := by
    obtain ⟨before, r, rest, rfl, hswitches, hrest⟩ := hs.handshaking hstate
    refine ⟨before, r, rest ++ [c], by simp, hswitches, ?_⟩
    intro c' hc'
    rcases List.mem_append.mp hc' with hold | hnew
    · exact hrest c' hold
    · rwa [List.mem_singleton.mp hnew]
  upgraded hstate := by
    obtain ⟨before, r, between, rest, rfl, hswitches, hrest⟩ := hs.upgraded hstate
    refine ⟨before, r, between, rest ++ [c], by simp, hswitches, ?_⟩
    intro c' hc'
    rw [← List.append_assoc] at hc'
    rcases List.mem_append.mp hc' with hold | hnew
    · exact hrest c' hold
    · rwa [List.mem_singleton.mp hnew]

/-- The invariant has nothing to ask of a rejected handshake. -/
theorem sound_rejected (calls : List Call) : Sound calls ⟨.rejected⟩ where
  init := nofun
  handshaking := nofun
  upgraded := nofun

/-- **What one call makes of it.** -/
theorem Sound.step (hs : Sound calls (after calls)) (c : Call) :
    Sound (calls ++ [c]) ((after calls).step c) := by
  by_cases hc : c.Spoils
  · cases hc with
    | failed => exact sound_rejected _
    | negotiate r =>
      show Sound _ ((after calls).negotiate r).2
      rcases negotiate_cases (after calls) r with ⟨-, response, hanswer⟩ | ⟨response, hanswer⟩
      · -- the request that is accepted is the last call
        have hswitches : Switches calls r := ⟨response, by rw [hanswer]⟩
        rw [hanswer]
        exact ⟨nofun, fun _ => ⟨calls, r, [], rfl, hswitches, nofun⟩, nofun⟩
      · rw [hanswer]
        exact sound_rejected _
  · rcases step_of_not_spoils hc (after calls) with hsame | ⟨rfl, hstate, hup⟩
    · rw [hsame]
      exact hs.idle hc
    · obtain ⟨before, r, rest, hcalls, hswitches, hrest⟩ := hs.handshaking hstate
      rw [hup]
      refine ⟨nofun, nofun, fun _ => ⟨before, r, rest, [], ?_, hswitches, ?_⟩⟩
      · rw [hcalls, List.append_assoc, List.cons_append]
      · rwa [List.append_nil]

/-- **What any calls make of it.** -/
theorem sound_after (calls : List Call) : Sound calls (after calls) := by
  induction calls using List.reverseRecOn with
  | nil => exact ⟨fun _ => nofun, nofun, nofun⟩
  | append_singleton calls c ih =>
    rw [after_append]
    exact ih.step c

/-- No request was negotiated before one that is accepted. -/
theorem Switches.first {r : Http.Request} (h : Switches calls r) (r' : Http.Request) :
    .negotiate r' ∉ calls := by
  obtain ⟨response, hresponse⟩ := h
  rcases negotiate_cases (after calls) r with ⟨hinit, -⟩ | ⟨response', hanswer⟩
  · exact fun hmem => (sound_after calls).init hinit _ hmem (.negotiate r')
  · rw [hanswer] at hresponse
    cases hresponse

/-- A negotiation that switches leaves the handshake on its way. -/
theorem Switches.after_eq {r : Http.Request} (h : Switches calls r) :
    after (calls ++ [.negotiate r]) = ⟨.handshaking⟩ := by
  obtain ⟨response, hresponse⟩ := h
  rw [after_append]
  show ((after calls).negotiate r).2 = _
  rcases negotiate_cases (after calls) r with ⟨-, response', hanswer⟩ | ⟨response', hanswer⟩
  · rw [hanswer]
  · rw [hanswer] at hresponse
    cases hresponse

/-! ## Frames -/

/-- A frame has an action just if the handshake is upgraded and its kind is supported, and the
action is what the kind means. -/
theorem onFrame_eq_ok_iff {f : Frame} {action : FrameAction} :
    h.onFrame f = .ok action ↔ h.state = .upgraded ∧ Means f action := by
  unfold onFrame
  constructor
  · intro hok
    split at hok
    · cases hok
    · next hstate =>
      have hstate : h.state = .upgraded := not_not.mp hstate
      -- Each supported kind has one action; the other two are refused in every state.
      cases f with
      | text s =>
        cases hok
        exact ⟨hstate, .text s⟩
      | ping payload =>
        cases hok
        exact ⟨hstate, .ping payload⟩
      | pong payload =>
        cases hok
        exact ⟨hstate, .pong payload⟩
      | close reason =>
        cases hok
        exact ⟨hstate, .close reason⟩
      | binary payload => cases hok
      | raw payload => cases hok
  · rintro ⟨hstate, hmeans⟩
    rw [if_neg (not_not_intro hstate)]
    cases hmeans <;> rfl

/-- Every refusal of a frame is one of something unsupported. -/
theorem onFrame_refused {f : Frame} (hnot : ∀ action, h.onFrame f ≠ .ok action) :
    ∃ message, h.onFrame f = .error (.unsupported message) := by
  unfold onFrame at hnot ⊢
  split
  · exact ⟨_, rfl⟩
  · next hstate =>
    rw [if_neg hstate] at hnot
    cases f with
    | text s => exact absurd rfl (hnot .forward)
    | ping payload => exact absurd rfl (hnot (.pong payload))
    | pong payload => exact absurd rfl (hnot .ignore)
    | close reason => exact absurd rfl (hnot .close)
    | binary payload => exact ⟨_, rfl⟩
    | raw payload => exact ⟨_, rfl⟩

/-! ## Whole runs -/

/-- **A handshake passes at most once.** Whatever calls are made, in whatever order: a request that
is accepted is the first one that was negotiated, so that there is at most one. The handshake is
completed just if this has happened, the stream arrived after it, and since then there was neither
another request nor a failure. Once rejected it stays so. Frames have a meaning just while it is
completed; at any other time each of them is refused as unsupported, and no frame changes it. -/
theorem passes_once (calls : List Call) :
    (∀ before r rest, calls = before ++ .negotiate r :: rest → Switches before r →
      (∀ r', .negotiate r' ∉ before) ∧
      ∀ before' r' rest', calls = before' ++ .negotiate r' :: rest' → Switches before' r' →
        before' = before) ∧
    ((after calls).state = .upgraded ↔ ∃ before r between rest,
      calls = before ++ .negotiate r :: (between ++ .upgraded :: rest) ∧ Switches before r ∧
        ∀ c ∈ between ++ rest, (∀ r', c ≠ .negotiate r') ∧ c ≠ .failed) ∧
    ((after calls).state = .rejected → ∀ more, (after (calls ++ more)).state = .rejected) ∧
    ∀ f, (∀ action, (after calls).onFrame f = .ok action ↔
        (after calls).state = .upgraded ∧ Means f action) ∧
      ((∀ action, (after calls).onFrame f ≠ .ok action) →
        ∃ message, (after calls).onFrame f = .error (.unsupported message)) ∧
      after (calls ++ [.frame f]) = after calls := by
  have hspoils : ∀ c : Call, ¬ c.Spoils ↔ (∀ r', c ≠ .negotiate r') ∧ c ≠ .failed := by
    intro c
    constructor
    · exact fun hc => ⟨fun r' h => hc (h ▸ .negotiate r'), fun h => hc (h ▸ .failed)⟩
    · rintro ⟨hnegotiate, hfailed⟩ hc
      cases hc with
      | negotiate r => exact hnegotiate r rfl
      | failed => exact hfailed rfl
  refine ⟨?_, ?_, ?_, fun f => ⟨fun _ => onFrame_eq_ok_iff, onFrame_refused, ?_⟩⟩
  · intro before r rest hcalls hswitches
    refine ⟨hswitches.first, ?_⟩
    intro before' r' rest' hcalls' hswitches'
    -- of two that were accepted, neither comes before the other
    rcases List.append_eq_append_iff.mp (hcalls'.symm.trans hcalls) with
      ⟨gap, rfl, hgap⟩ | ⟨gap, rfl, hgap⟩
    · cases gap with
      | nil => exact (List.append_nil _).symm
      | cons c gap =>
        obtain ⟨rfl, -⟩ := List.cons.inj hgap
        exact absurd (by simp) (hswitches.first r')
    · cases gap with
      | nil => exact List.append_nil _
      | cons c gap =>
        obtain ⟨rfl, -⟩ := List.cons.inj hgap
        exact absurd (by simp) (hswitches'.first r)
  · simp only [← hspoils]
    constructor
    · exact (sound_after calls).upgraded
    · rintro ⟨before, r, between, rest, rfl, hswitches, hrest⟩
      have hbetween : ∀ c ∈ between, ¬ c.Spoils := fun c hc => hrest c (List.mem_append_left _ hc)
      have hstream : (between ++ [Call.upgraded]).foldl step ⟨.handshaking⟩ = ⟨.upgraded⟩ := by
        rw [List.foldl_append]
        rcases foldl_handshaking hbetween with hstate | hstate
        · rw [hstate]
          rfl
        · rw [hstate]
          rfl
      rw [List.append_cons, List.append_cons between, after_append, hswitches.after_eq,
        List.foldl_append, hstream, foldl_upgraded fun c hc => hrest c (List.mem_append_right _ hc)]
  · intro hstate more
    have hover : after calls = ⟨.rejected⟩ := congrArg Handshake.mk hstate
    rw [after_append, hover, foldl_rejected]
  · exact after_append calls [.frame f]

/-- A request that is accepted, behind a frame that came too early. -/
example :
    let r : Http.Request := ⟨"GET", "/ws",
      [("connection", Http.headerValue "keep-alive, Upgrade"),
        ("upgrade", Http.headerValue "websocket"),
        ("sec-websocket-version", Http.headerValue "13"),
        ("sec-websocket-key", Http.headerValue "dGhlIHNhbXBsZSBub25jZQ==")], [], true⟩
    (after [.frame (.text "early"), .negotiate r, .upgraded]).state = .upgraded := by
  decide +kernel

end Handshake

end WsGateway
