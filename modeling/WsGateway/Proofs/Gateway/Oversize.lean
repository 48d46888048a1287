import WsGateway.Proofs.Gateway.Exits
import WsGateway.Proofs.Http.Origins
import WsGateway.Proofs.Text.Digits

/-!
# Bodies that are declared too long

A request may announce the length of its body in decimal digits, and there is no greatest number
that digits can spell (`Http.Request.Announces`). The length is read as a number of 64 bits. So a
length beyond the limit keeps the request from all handlers as long as it fits, and one that does
not fit is as good as none (`Gateway.onHttp_oversized`): the request is admitted, and its handler
runs.
-/

namespace WsGateway

/-- The first value for the length of the body spells the number in decimal digits. -/
def Http.Request.Announces (r : Http.Request) (n : Nat) : Prop :=
  ∃ digits : String, r.headers.first? "content-length" = some (Http.headerValue digits) ∧
    Text.SpellsNumber digits.toList n

/-- The length that is announced is declared, unless it takes more than 64 bits. -/
theorem Http.Request.Announces.declares_iff {r : Http.Request} {n : Nat} (h : r.Announces n)
    {m : UInt64} : r.Declares m ↔ m.toNat = n := by
  obtain ⟨digits, hfirst, hspells⟩ := h
  have hvisible : ∀ c ∈ digits.toList, 32 ≤ c.toNat ∧ c.toNat < 127 := by
    intro c hc
    have hdigit := Text.toNat_of_isDigit (hspells.digits c hc)
    omega
  have hshows := Http.headerText?_eq_some_iff.mpr (Http.shows_headerValue hvisible)
  rw [← hspells.writesNumber_iff, ← Text.uint64?_eq_some_iff]
  constructor
  · rintro ⟨value, text, hfirst', htext, hm⟩
    obtain rfl : _ = value := Option.some.inj (hfirst.symm.trans hfirst')
    obtain rfl : _ = text := Option.some.inj (hshows.symm.trans htext)
    rwa [hspells.trim_eq] at hm
  · intro hm
    exact ⟨_, _, hfirst, hshows, by rwa [hspells.trim_eq]⟩

namespace Gateway

variable {g : Gateway} {r : Http.Request} {n : Nat}

def oversizePage (g : Gateway) : Http.Response :=
  Http.failure .payloadTooLarge
    ("Request body exceeds " ++ toString g.config.http.maxChunkBytes.toNat ++ " bytes") true

/-- **A body that is announced too long**, in a request that no policy answers and that is not
refused for its transfer codings. If the length fits in 64 bits, the answer is the page that says
so, which ends the connection, and no handler runs, whatever the handlers note when they are run; a
policy that a configuration makes leaves the status and the end of the connection as they are. If it
does not fit, no length is declared at all, and the request is admitted. -/
theorem onHttp_oversized (hpre : g.cors.preflight r = none) (hcoding : ¬ g.RefusesCoding r)
    (hn : r.Announces n) (hlong : g.config.http.maxChunkBytes.toNat < n) (peer : Net.Address)
    (b : Board) :
    (n < UInt64.size →
      (∀ note, (g.observed note).onHttp r peer b =
        (g.decorated r g.oversizePage, countRoute "-" b.countHttp)) ∧
      g.oversizePage.status = .payloadTooLarge ∧
      g.oversizePage.headers.all "connection" = [Http.headerValue "close"] ∧
      ∀ s, g.cors = Http.corsPolicy s →
        (g.decorated r g.oversizePage).status = .payloadTooLarge ∧
        (g.decorated r g.oversizePage).headers.all "connection" = [Http.headerValue "close"]) ∧
    (UInt64.size ≤ n → (∀ m, ¬ r.Declares m) ∧ g.Admits r) := by
  constructor
  · intro hfits
    -- Within 64 bits the announced number is the declared one, and the check sees it.
    have hvalue : (UInt64.ofNat n).toNat = n := UInt64.toNat_ofNat_of_lt hfits
    have hlt : g.config.http.maxChunkBytes < UInt64.ofNat n := by
      rw [UInt64.lt_iff_toNat_lt, hvalue]
      exact hlong
    have hrefuses : g.Refuses r .payloadTooLarge _ :=
      .length hcoding (hn.declares_iff.mpr hvalue) hlt
    refine ⟨fun note => ?_, rfl, rfl, fun s hs => ?_⟩
    · exact onHttp_refused (g := g.observed note) hpre (refuses_observed note hrefuses) peer b
    · unfold decorated
      rw [hs]
      obtain ⟨hstatus, hall⟩ := Http.corsPolicy_keeps s (r.headers.first? "origin") g.oversizePage
      exact ⟨hstatus, hall "connection" (by decide) (by decide)⟩
  · intro hlarge
    -- Beyond them no number is declared at all, so there is nothing for the check to compare.
    have hnone : ∀ m, ¬ r.Declares m := by
      intro m hm
      rw [← hn.declares_iff.mp hm] at hlarge
      exact absurd m.toNat_lt_size (Nat.not_lt.mpr hlarge)
    exact ⟨hnone, hcoding, fun m hm => absurd hm (hnone m)⟩

/-- One octet more than the limit, with zeros in front. -/
theorem onHttp_oversized_four :
    let g : Gateway := Gateway.ofConfig { http := { maxChunkBytes := 3 } }
    let r : Http.Request :=
      ⟨"POST", "/body", [("content-length", Http.headerValue "0004")], [], false⟩
    let peer := Net.Address.v4 [127, 0, 0, 1] 80
    r.Announces 4 ∧ (∀ note, (g.observed note).onHttp r peer .start =
        (g.decorated r g.oversizePage, countRoute "-" Board.start.countHttp)) ∧
      (g.decorated r g.oversizePage).status = .payloadTooLarge ∧
      (g.decorated r g.oversizePage).headers.all "connection" = [Http.headerValue "close"] := by
  intro g r peer
  have hdigits : "0004".toList.all Char.isDigit = true := by decide
  have hn : r.Announces 4 := ⟨"0004", rfl, by decide, List.all_eq_true.mp hdigits, by decide⟩
  have hcoding : ¬ g.RefusesCoding r := fun h => Bool.noConfusion h.2
  obtain ⟨hanswer, -, -, hpolicy⟩ :=
    (onHttp_oversized rfl hcoding hn (by decide) peer .start).1 (by decide)
  exact ⟨hn, hanswer, hpolicy g.config.http.cors rfl⟩

/-- A length that takes 65 bits is far beyond the limit, and the handler runs. -/
theorem onHttp_oversized_unread :
    let page := Http.textResponse .ok Http.plainText "ok"
    let g : Gateway :=
      { Gateway.ofConfig { http := { maxChunkBytes := 3 } } with
        routes := ⟨[("body", fun _ => pure page)], by decide⟩ }
    let r : Http.Request :=
      ⟨"POST", "/body", [("content-length", Http.headerValue "18446744073709551616")], [97], false⟩
    g.cors.preflight r = none ∧ ¬ g.RefusesCoding r ∧ r.Announces 18446744073709551616 ∧
      g.config.http.maxChunkBytes.toNat < 18446744073709551616 ∧
      (g.onHttp r (.v4 [127, 0, 0, 1] 80) .start).1 = page := by
  intro page g r
  have hdigits : "18446744073709551616".toList.all Char.isDigit = true := by decide
  refine ⟨rfl, fun h => Bool.noConfusion h.2, ?_, by decide, by decide +kernel⟩
  exact ⟨"18446744073709551616", rfl, by decide, List.all_eq_true.mp hdigits, by decide⟩

end Gateway

end WsGateway
