import WsGateway.Proofs.Handshake.Calls

/-!
# A handshake that was completed

Nothing shields a handshake that was completed: a further request and a failure that is reported
late reject it as they reject one that still waits for its stream. Neither looks at how far the
handshake has come, other than to see whether a request was negotiated before.

So it is enough that a handshake has left its first state. It does not come back there
(`Handshake.step_ne_init`), each further request is refused in the same words
(`Handshake.negotiate_again`), and the first call that spoils it is the end of it
(`Handshake.foldl_of_spoils`). The main statement, `Handshake.completed_until_spoilt`, says how long
a completed handshake lasts and what it answers until then and afterwards.
-/

namespace WsGateway

namespace Handshake

variable {h : Handshake}

/-! ## Behind the first request -/

/-- Only one request is ever looked at. -/
theorem negotiate_again (hs : h.state ≠ .init) (r : Http.Request) :
    h.negotiate r = (refusal "Handshake already attempted", ⟨.rejected⟩) := if_pos hs

/-- Once the handshake has left its start, a call that spoils it rejects it. -/
theorem step_of_spoils (hs : h.state ≠ .init) {c : Call} (hc : c.Spoils) :
    h.step c = ⟨.rejected⟩ := by
  cases hc with
  | negotiate r => exact congrArg Prod.snd (negotiate_again hs r)
  | failed => rfl

/-- No call leads back to a handshake that has seen no request. -/
theorem step_ne_init (hs : h.state ≠ .init) (c : Call) : (h.step c).state ≠ .init := by
  by_cases hc : c.Spoils
  · rw [step_of_spoils hs hc]
    nofun
  · rcases step_of_not_spoils hc h with hsame | ⟨-, -, hup⟩
    · rwa [hsame]
    · rw [hup]
      nofun

/-- No call leads back to the start. -/
theorem foldl_ne_init (hs : h.state ≠ .init) (calls : List Call) :
    (calls.foldl step h).state ≠ .init := by
  induction calls generalizing h with
  | nil => exact hs
  | cons c rest ih => exact ih (step_ne_init hs c)

/-- One call that spoils is enough, wherever it stands. -/
theorem foldl_of_spoils (hs : h.state ≠ .init) {calls : List Call} {c : Call} (hc : c.Spoils)
    (hmem : c ∈ calls) : calls.foldl step h = ⟨.rejected⟩ := by
  induction calls generalizing h with
  | nil => cases hmem
  | cons c' rest ih =>
    rw [List.foldl_cons]
    rcases List.mem_cons.mp hmem with rfl | hrest
    · rw [step_of_spoils hs hc, foldl_rejected]
    · exact ih (step_ne_init hs c') hrest

/-! ## Behind the stream -/

/-- A text frame is forwarded in the upgraded state and in no other. -/
theorem onFrame_text_iff {s : String} :
    h.onFrame (.text s) = .ok .forward ↔ h.state = .upgraded :=
  onFrame_eq_ok_iff.trans (and_iff_left (.text s))

/-- Before the upgrade every frame is refused, whatever its kind. -/
theorem onFrame_of_ne (hs : h.state ≠ .upgraded) (f : Frame) :
    h.onFrame f = .error (.unsupported "frame before upgrade completed") := if_pos hs

/-- **A completed handshake lasts until it is spoilt.** Whatever calls follow, it stays completed
just if no request and no failure is among them. Else it is rejected, and every frame is refused as
one that came too early. Texts go to the demultiplexer just as long as the handshake lasts. A
further request is refused at any time, as one that is not the first. -/
theorem completed_until_spoilt (hup : h.state = .upgraded) (more : List Call) :
    ((more.foldl step h).state = .upgraded ↔ ∀ c ∈ more, ¬ c.Spoils) ∧
    ((∃ c ∈ more, c.Spoils) → (more.foldl step h).state = .rejected ∧
      ∀ f, (more.foldl step h).onFrame f =
        .error (.unsupported "frame before upgrade completed")) ∧
    (∀ s, (more.foldl step h).onFrame (.text s) = .ok .forward ↔ ∀ c ∈ more, ¬ c.Spoils) ∧
    ∀ r, ((more.foldl step h).negotiate r).1 = refusal "Handshake already attempted" := by
  have hs : h.state ≠ .init := by
    rw [hup]
    nofun
  have hlasts : (more.foldl step h).state = .upgraded ↔ ∀ c ∈ more, ¬ c.Spoils := by
    constructor
    · intro hstate c hmem hc
      rw [foldl_of_spoils hs hc hmem] at hstate
      cases hstate
    · intro hidle
      obtain rfl : h = ⟨.upgraded⟩ := congrArg Handshake.mk hup
      rw [foldl_upgraded hidle]
  refine ⟨hlasts, ?_, fun s => onFrame_text_iff.trans hlasts, fun r => ?_⟩
  · rintro ⟨c, hmem, hc⟩
    rw [foldl_of_spoils hs hc hmem]
    exact ⟨rfl, onFrame_of_ne nofun⟩
  · rw [negotiate_again (foldl_ne_init hs more)]

/-! ## One client's handshake -/

/-- An upgrade request with the key of the protocol's own example. -/
def plainUpgrade : Http.Request :=
  ⟨"GET", "/ws",
    [("connection", Http.headerValue "keep-alive, Upgrade"),
      ("upgrade", Http.headerValue "websocket"),
      ("sec-websocket-version", Http.headerValue "13"),
      ("sec-websocket-key", Http.headerValue "dGhlIHNhbXBsZSBub25jZQ==")], [], true⟩

theorem after_plainUpgrade : after [.negotiate plainUpgrade, .upgraded] = ⟨.upgraded⟩ := by
  decide +kernel

/-- Frames and a stream that arrives twice leave it as it is; a second request in front of them does
not. -/
theorem completed_until_spoilt_plain :
    let h := after [.negotiate plainUpgrade, .upgraded]
    let idle : List Call := [.frame (.text "early"), .upgraded, .frame (.binary [0])]
    h.state = .upgraded ∧ (idle.foldl step h).onFrame (.text "late") = .ok .forward ∧
      ((.negotiate plainUpgrade :: idle).foldl step h).state = .rejected := by
  intro h idle
  have hup : h.state = .upgraded := congrArg state after_plainUpgrade
  have hidle : ∀ c ∈ idle, ¬ c.Spoils := by
    intro c hmem
    simp only [idle, List.mem_cons, List.not_mem_nil, or_false] at hmem
    rcases hmem with rfl | rfl | rfl <;> nofun
  obtain ⟨-, -, hforward, -⟩ := completed_until_spoilt hup idle
  obtain ⟨-, hspoilt, -⟩ := completed_until_spoilt hup (.negotiate plainUpgrade :: idle)
  have hover := hspoilt ⟨.negotiate plainUpgrade, List.mem_cons_self, .negotiate plainUpgrade⟩
  exact ⟨hup, (hforward "late").mpr hidle, hover.1⟩

/-- **A completed handshake does not last for good.** A second request and a failure each reject it,
and the text that was handed on before is then refused. -/
theorem completed_not_for_good :
    let h := after [.negotiate plainUpgrade, .upgraded]
    let refused : Except Error FrameAction :=
      .error (.unsupported "frame before upgrade completed")
    h.state = .upgraded ∧ h.onFrame (.text "x") = .ok .forward ∧
      (h.step (.negotiate plainUpgrade)).state = .rejected ∧
      (h.step (.negotiate plainUpgrade)).onFrame (.text "x") = refused ∧
      (h.step .failed).state = .rejected ∧ (h.step .failed).onFrame (.text "x") = refused := by
  intro h refused
  have hup : h = ⟨.upgraded⟩ := after_plainUpgrade
  rw [hup]
  exact ⟨rfl, rfl, rfl, rfl, rfl, rfl⟩

end Handshake

end WsGateway
