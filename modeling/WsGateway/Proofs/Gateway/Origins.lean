import WsGateway.Proofs.Gateway.Bookkeeping
import WsGateway.Proofs.Gateway.Exits
import WsGateway.Proofs.Handshake.Negotiation
import WsGateway.Proofs.Http.Origins

/-!
# Origins at a gateway

A gateway that is built with what is built in asks its list of origins about each request, on every
way out (`Gateway.follows_onHttp`), and a preflight comes to no handler. Nothing else looks at the
origin of a request. So requests that have all but their origins in common, and no origin that is
allowed, are answered alike and leave the same board (`Gateway.onHttp_congr`); without a list this
holds of any two that have all but their origins in common.

This is said of the handlers that are built in, and of any others that neither look at the origin
nor name one (`Endpoint.Unaware`); they may fail or break off. The main statement is
`Gateway.discloses_just_allowed`.
-/

namespace WsGateway

/-! ## Handlers and origins -/

/-- The handshake does not read the origin. -/
theorem Handshake.negotiate_congr {r r' : Http.Request} (h : r.SameButOrigin r') (hs : Handshake) :
    hs.negotiate r = hs.negotiate r' := by
  have hkey : clientKey r = clientKey r' := by
    unfold clientKey
    rw [h.method, h.hasToken (by decide), h.text? (by decide), h.text? (by decide)]
  have hversion : hasVersion r = hasVersion r' := by
    unfold hasVersion
    rw [h.text? (by decide)]
  unfold negotiate
  rw [hkey, hversion, h.upgradable]

namespace Endpoint

/-- The handler does not look at the origin of a request, and names none in its responses. -/
structure Unaware (handler : HttpHandler) : Prop where
  reads : ∀ {r r' : Http.Request}, r.SameButOrigin r' → ∀ peer route limit,
    handler ⟨r, peer, route, limit⟩ = handler ⟨r', peer, route, limit⟩
  writes : ∀ {ex : Exchange} {b : Board} {response : Http.Response} {after : Board},
    handler ex b = (.ok response, after) →
      response.headers.all "access-control-allow-origin" = []

/-- No operational endpoint reads the origin. -/
theorem unaware_operational : ∀ e ∈ operational, Unaware e.2 := by
  intro e he
  constructor
  · intro r r' _ peer route limit
    funext b
    obtain ⟨_, _, _, hanswer⟩ := operational_eq he b
    rw [hanswer, hanswer]
  · intro ex b response after h
    obtain ⟨_, _, _, hanswer⟩ := operational_eq he b
    rw [hanswer] at h
    cases h
    rfl

/-- The upgrade handler does not read the origin. -/
theorem unaware_upgrade : Unaware upgrade where
  reads := by
    intro r r' h peer route limit
    funext b
    rw [upgrade_eq, upgrade_eq, Handshake.negotiate_congr h]
  writes := by
    intro ex b response after h
    rw [upgrade_eq] at h
    split at h
    · cases h
      rfl
    · rcases Handshake.negotiate_start_cases ex.request with
        ⟨key, nonce, -, -, -, -, hanswer⟩ | ⟨nonce, -, -, hanswer⟩ | ⟨message, -, hanswer⟩
      -- None of the answers has the header, whatever the outcome of the handshake.
      · rw [hanswer] at h
        cases h
        rfl
      · rw [hanswer] at h
        cases h
        rfl
      · rw [hanswer] at h
        cases h
        rfl

end Endpoint

namespace Gateway

variable {g g' : Gateway} {r r' : Http.Request} {config : Config}

/-! ## Every way out -/

/-- **Each response says of origins what the list decides**, whichever way the request leaves. -/
theorem follows_onHttp {l : Http.OriginList} (hcors : g.cors = l.policy)
    (hg : g.EveryHandler Endpoint.Unaware) (r : Http.Request) (peer : Net.Address) (b : Board) :
    (g.onHttp r peer b).1.Follows l.origins r := by
  have hdecorated : ∀ response : Http.Response,
      response.headers.all "access-control-allow-origin" = [] →
        (g.decorated r response).Follows l.origins r := by
    intro response hnone
    unfold decorated
    rw [hcors]
    exact l.follows_decorate r hnone
  obtain ⟨response, after, hexit⟩ := g.exists_exit (fun _ _ b => b) r peer b
  have hout := onHttp_of_exit hexit
  rw [observed_nothing] at hout
  rw [hout]
  cases hexit with
  | preflight h =>
    rw [hcors] at h
    exact (Http.OriginList.answers_of_preflight h).follows
  | refused h hr => exact hdecorated _ rfl
  | answered h hr hs hhandler hlimit hrun => exact hdecorated _ ((hg _ _ hhandler).writes hrun)
  | failed h hr hs hhandler hlimit hrun => exact hdecorated _ rfl

/-! ## Two requests -/

/-- Where a request is routed does not depend on its origin. -/
theorem destination_congr (h : r.SameButOrigin r') : g.destination r = g.destination r' := by
  have hlength : declaredLength? r = declaredLength? r' := by
    unfold declaredLength?
    rw [h.text? (by decide)]
  unfold destination
  rw [h.isChunked, hlength, h.path]

/-- The answer before the header is added, and all that the request changes, do not depend on its
origin. -/
theorem route_congr (hg : g.EveryHandler Endpoint.Unaware) (h : r.SameButOrigin r')
    (peer : Net.Address) (b : Board) : g.route r peer b = g.route r' peer b := by
  unfold route
  rw [destination_congr h, h.isChunked]
  cases hdestination : g.destination r' with
  | refused status message => rfl
  | handler key handler =>
    have hhandler := hg key handler (lookup_of_destination hdestination)
    simp only [runHandler, hhandler.reads h]

/-- Nothing but the policy looks at the origin. -/
theorem onHttp_congr (hg : g.EveryHandler Endpoint.Unaware) (h : r.SameButOrigin r')
    (hpre : g.cors.preflight r = none) (hpre' : g.cors.preflight r' = none)
    (hdecorated : g.decorated r = g.decorated r') (peer : Net.Address) (b : Board) :
    g.onHttp r peer b = g.onHttp r' peer b := by
  have hdecorate : g.cors.decorate (r.headers.first? "origin") =
    g.cors.decorate (r'.headers.first? "origin") := hdecorated
  unfold onHttp
  simp only [hpre, hpre', route_congr hg h, hdecorate]

/-- **Just the origins that are allowed show.** Of a gateway with all that is built in, and with
more handlers that are not aware of origins: If it has a list of origins, then each response names
just the first origin of its request, if that is allowed, and then says that it depends on it. A
preflight comes to no handler, whatever the handlers note when they are run, and its answer says
whether its origin is allowed. Two requests that are no preflights, have all but their origins in
common and come from no origin that is allowed, have the same response and leave the same board.
Without a list, all requests that have all but their origins in common do. -/
theorem discloses_just_allowed {more : List (String × HttpHandler)} (hg : builtin config = .ok g)
    (hmore : g.withAllHttp more = .ok g') (hunaware : ∀ e ∈ more, Endpoint.Unaware e.2)
    (r : Http.Request) (peer : Net.Address) (b : Board) :
    (config.http.cors.allowOrigins ≠ [] →
      (g'.onHttp r peer b).1.Follows config.http.cors.allowOrigins r ∧
      (r.IsPreflight → ∃ response, (∀ note, (g'.observed note).onHttp r peer b =
          (response, b.countHttp)) ∧
        (response.status = .noContent ∧ r.FromAllowed config.http.cors.allowOrigins ∨
          response.status = .forbidden ∧ ¬ r.FromAllowed config.http.cors.allowOrigins)) ∧
      ∀ r', r.SameButOrigin r' → ¬ r.IsPreflight → ¬ r'.IsPreflight →
        ¬ r.FromAllowed config.http.cors.allowOrigins →
        ¬ r'.FromAllowed config.http.cors.allowOrigins →
        g'.onHttp r peer b = g'.onHttp r' peer b) ∧
    (config.http.cors.allowOrigins = [] →
      ∀ r', r.SameButOrigin r' → g'.onHttp r peer b = g'.onHttp r' peer b) := by
  have hevery : g'.EveryHandler Endpoint.Unaware :=
    (everyHandler_of_builtin Endpoint.unaware_upgrade Endpoint.unaware_operational hg).withAllHttp
      hunaware hmore
  have hpolicy : g'.cors = Http.corsPolicy config.http.cors := by
    obtain ⟨routes, rfl⟩ := builtin_eq hg
    obtain ⟨routes', rfl⟩ := withAllHttp_eq hmore
    rfl
  unfold Http.corsPolicy at hpolicy
  constructor
  · intro hlist
    have hcors : g'.cors = (Http.OriginList.mk config.http.cors.allowOrigins).policy := by
      rw [hpolicy, if_neg (by simpa using hlist)]
    refine ⟨follows_onHttp hcors hevery r peer b, fun his => ?_, ?_⟩
    · cases hanswer : (Http.OriginList.mk config.http.cors.allowOrigins).preflight r with
      | none => exact absurd his (Http.OriginList.preflight_eq_none_iff.mp hanswer)
      | some response =>
        have hstatus := (Http.OriginList.answers_of_preflight hanswer).status
        refine ⟨response, fun note => ?_, hstatus⟩
        have hobserved : (g'.observed note).cors.preflight r = some response := by
          rw [show (g'.observed note).cors = g'.cors from rfl, hcors]
          exact hanswer
        exact onHttp_preflight hobserved peer b
    · intro r' hsame hnot hnot' hfrom hfrom'
      refine onHttp_congr hevery hsame ?_ ?_ ?_ peer b
      · rw [hcors]
        exact Http.OriginList.preflight_eq_none_iff.mpr hnot
      · rw [hcors]
        exact Http.OriginList.preflight_eq_none_iff.mpr hnot'
      · -- neither response is touched
        funext response
        unfold decorated
        rw [hcors]
        exact (Http.OriginList.decorate_of_not_allowed hfrom response).trans
          (Http.OriginList.decorate_of_not_allowed hfrom' response).symm
  · intro hlist r' hsame
    have hcors : g'.cors = .none := by
      rw [hpolicy, if_pos (by rw [hlist]; rfl)]
    refine onHttp_congr hevery hsame ?_ ?_ ?_ peer b
    · rw [hcors]
      rfl
    · rw [hcors]
      rfl
    · unfold decorated
      rw [hcors]
      rfl

/-- With a handler that breaks off, its failure shows the origin that is allowed, and is the same
for one that is not as for none; a preflight for it is refused in its place. -/
theorem discloses_just_allowed_failing :
    let origins := ["https://dash.example"]
    let config : Config := { http := { cors := { allowOrigins := origins } } }
    let boom : String × HttpHandler := ("boom", fun _ => HttpAction.abort "boom")
    let dash := ("origin", Http.headerValue "https://dash.example")
    let evil := ("origin", Http.headerValue "https://evil.example")
    let asked := ("access-control-request-method", Http.headerValue "GET")
    let get (headers : Http.Headers) : Http.Request := ⟨"GET", "/boom", headers, [], false⟩
    let preflight : Http.Request := ⟨"OPTIONS", "/boom", [asked, evil], [], false⟩
    let peer := Net.Address.v4 [127, 0, 0, 1] 80
    ∃ g g', builtin config = .ok g ∧ g.withAllHttp [boom] = .ok g' ∧ Endpoint.Unaware boom.2 ∧
      (get [dash]).FromAllowed origins ∧
      (g'.onHttp (get [dash]) peer .start).1.Follows origins (get [dash]) ∧
      ¬ (get [evil]).FromAllowed origins ∧
      g'.onHttp (get [evil]) peer .start = g'.onHttp (get []) peer .start ∧
      preflight.IsPreflight ∧ ∃ response, (∀ note, (g'.observed note).onHttp preflight peer .start =
        (response, Board.start.countHttp)) ∧ response.status = .forbidden := by
  intro origins config boom dash evil asked get preflight peer
  obtain ⟨g', hbuilt⟩ : ∃ g', (builtin config >>= (·.withAllHttp [boom])) = .ok g' := by
    have hok : (builtin config >>= (·.withAllHttp [boom])).isOk = true := by decide +kernel
    cases hbuilt : builtin config >>= (·.withAllHttp [boom]) with
    | ok g' => exact ⟨g', rfl⟩
    | error e =>
      rw [hbuilt] at hok
      cases hok
  obtain ⟨g, hg, hmore⟩ := Json.bind_eq_ok.mp hbuilt
  have hboom : Endpoint.Unaware boom.2 := ⟨fun _ _ _ _ => rfl, nofun⟩
  have hunaware : ∀ e ∈ [boom], Endpoint.Unaware e.2 := by
    intro e he
    rw [List.mem_singleton.mp he]
    exact hboom
  have hlist : config.http.cors.allowOrigins ≠ [] := by decide
  -- The specification asks for a text that the value shows; the check of the list decides it.
  have hallows : ∀ value, Http.Allowed origins value ↔
      (Http.OriginList.mk origins).allowsValue value = true := fun value =>
    Http.OriginList.allowsValue_iff.symm
  have hdash : (get [dash]).FromAllowed origins := by
    rw [Http.Request.fromAllowed_iff rfl, hallows]
    decide +kernel
  have hevil : ¬ (get [evil]).FromAllowed origins := by
    rw [Http.Request.fromAllowed_iff rfl, hallows]
    decide +kernel
  have hpre : preflight.IsPreflight :=
    ⟨rfl, ⟨_, List.mem_cons_self⟩, _, List.mem_cons_of_mem _ List.mem_cons_self⟩
  have hget : ∀ headers, ¬ (get headers).IsPreflight := fun headers h =>
    absurd (show "GET" = "OPTIONS" from h.method) (by decide)
  -- A request without `Origin` differs from the refused one in that header alone.
  have hsame : (get [evil]).SameButOrigin (get []) :=
    ⟨rfl, rfl, fun name hne => Http.Headers.all_singleton_of_ne hne.symm, rfl, rfl⟩
  have hnobody : ¬ (get []).FromAllowed origins := nofun
  have hpreflight := (discloses_just_allowed hg hmore hunaware preflight peer .start).1 hlist
  refine ⟨g, g', hg, hmore, hboom, hdash, ?_, hevil, ?_, hpre, ?_⟩
  · exact ((discloses_just_allowed hg hmore hunaware (get [dash]) peer .start).1 hlist).1
  · exact ((discloses_just_allowed hg hmore hunaware (get [evil]) peer .start).1 hlist).2.2 _ hsame
      (hget _) (hget _) hevil hnobody
  · obtain ⟨response, hnotes, ⟨-, hfrom⟩ | ⟨hstatus, -⟩⟩ := hpreflight.2.1 hpre
    · refine absurd hfrom ?_
      rw [Http.Request.fromAllowed_iff rfl, hallows]
      decide +kernel
    · exact ⟨response, hnotes, hstatus⟩

end Gateway

end WsGateway
