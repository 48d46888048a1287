import WsGateway.Handshake
import WsGateway.Proofs.Http.Reading
import WsGateway.Proofs.Http.Values
import WsGateway.Proofs.Text.Base64

/-!
# Which upgrades are accepted

An upgrade request is said to be complete of the request itself (`Http.Request.Upgrades`): its
method, a word among its connection headers, the protocol it names, and a key that is the one
spelling of sixteen octets. The version, and whether the connection can be handed over, are looked
at behind that. So a complete request of another version is refused with the version that is
supported, and a request is turned away as malformed for the first thing that is wrong with it
(`Http.Request.FirstFault`).

The main statement, `Handshake.negotiate_exact`, says this of the first negotiation of a handshake:
which requests are accepted, with which answer, and how all others are refused.
-/

namespace WsGateway

open Text (Octets)

namespace Http

/-- The text of a header is that of its first value, if that one is readable. -/
theorem Headers.text?_eq_some_iff {h : Headers} {name text : String} :
    h.text? name = some text ↔ ∃ value, h.first? name = some value ∧ Shows value text := by
  unfold text?
  simp only [Option.bind_eq_some_iff, headerText?_eq_some_iff]

/-! ## Complete requests -/

namespace Request

/-- The first value of a name is the text. -/
def Says (r : Request) (name text : String) : Prop :=
  ∃ value, r.headers.first? name = some value ∧ Shows value text

/-- Among the words for the connection, which stand between commas in all values that are texts, is
the one for an upgrade, in any case and between any blanks. -/
def AsksUpgrade (r : Request) : Prop :=
  ∃ value text word, ("connection", value) ∈ r.headers ∧ Shows value text ∧
    Text.IsPiece ',' text.toList word ∧ Text.Spells "upgrade".toList word

/-- The first protocol to upgrade to is that of web sockets, in any case and between any blanks. -/
def NamesProtocol (r : Request) : Prop :=
  ∃ text, r.Says "upgrade" text ∧ Text.Spells "websocket".toList text.toList

/-- The first key is the spelling of sixteen octets, between any blanks. -/
def OffersNonce (r : Request) (nonce : Octets) : Prop :=
  nonce.length = 16 ∧ ∃ text, r.Says "sec-websocket-key" text ∧
    Text.BetweenBlanks (Text.toBase64 nonce) text.toList

/-- The first version is the supported one, between any blanks. -/
def NamesVersion (r : Request) : Prop :=
  ∃ text, r.Says "sec-websocket-version" text ∧ Text.BetweenBlanks "13".toList text.toList

/-- The request is one for an upgrade, in some version. -/
structure Upgrades (r : Request) (nonce : Octets) : Prop where
  method : r.method = "GET"
  connection : r.AsksUpgrade
  protocol : r.NamesProtocol
  key : r.OffersNonce nonce

/-- What is wrong with a request, for the first reason that applies; an unsupported version comes
before the last one. -/
inductive FirstFault (r : Request) : String → Prop where
  | method (h : r.method ≠ "GET") : FirstFault r "WebSocket upgrade requires GET"
  | connection (hmethod : r.method = "GET") (h : ¬ r.AsksUpgrade) :
    FirstFault r "Missing Connection: upgrade"
  | protocol (hmethod : r.method = "GET") (hconnection : r.AsksUpgrade) (h : ¬ r.NamesProtocol) :
    FirstFault r "Missing Upgrade: websocket"
  | noKey (hmethod : r.method = "GET") (hconnection : r.AsksUpgrade) (hprotocol : r.NamesProtocol)
    (h : ∀ text, ¬ r.Says "sec-websocket-key" text) : FirstFault r "Missing Sec-WebSocket-Key"
  | badKey {text : String} (hmethod : r.method = "GET") (hconnection : r.AsksUpgrade)
    (hprotocol : r.NamesProtocol) (htext : r.Says "sec-websocket-key" text)
    (h : ∀ nonce, ¬ r.OffersNonce nonce) : FirstFault r "Invalid Sec-WebSocket-Key"
  | stuck {nonce : Octets} (hupgrades : r.Upgrades nonce) (hversion : r.NamesVersion)
    (h : r.upgradable = false) : FirstFault r "Connection cannot be upgraded"

variable {r : Request}

/-- A request says one thing under a name. -/
theorem Says.eq {name text text' : String} (h : r.Says name text) (h' : r.Says name text') :
    text = text' := by
  obtain ⟨value, hfirst, hshows⟩ := h
  obtain ⟨value', hfirst', hshows'⟩ := h'
  obtain rfl : value = value' := Option.some.inj (hfirst.symm.trans hfirst')
  exact hshows.eq hshows'

theorem text?_eq_some_iff {name text : String} :
    r.headers.text? name = some text ↔ r.Says name text := Headers.text?_eq_some_iff

/-- A request with a fault is incomplete, or is stuck on its connection. -/
theorem FirstFault.cases {message : String} (h : r.FirstFault message) :
    (∀ nonce, ¬ r.Upgrades nonce) ∨ r.NamesVersion ∧ r.upgradable = false := by
  cases h with
  | method h => exact .inl fun nonce hu => h hu.method
  | connection _ h => exact .inl fun nonce hu => h hu.connection
  | protocol _ _ h => exact .inl fun nonce hu => h hu.protocol
  | noKey _ _ _ h => exact .inl fun nonce hu => hu.key.2.elim fun text htext => h text htext.1
  | badKey _ _ _ _ h => exact .inl fun nonce hu => h nonce hu.key
  | stuck _ hversion h => exact .inr ⟨hversion, h⟩

/-- The check of `Connection` is the stated condition on its tokens. -/
theorem asksUpgrade_iff : r.headers.hasToken "connection" "upgrade" = true ↔ r.AsksUpgrade := by
  have hblank : "upgrade".toList.all (fun c => !Text.isBlank c) = true := by decide
  rw [Headers.hasToken_iff (by decide) (by decide) (by simpa using List.all_eq_true.mp hblank)]
  simp only [headerText?_eq_some_iff, AsksUpgrade]

/-- The check of `Upgrade` is the stated condition on its text. -/
theorem namesProtocol_iff :
    ((r.headers.text? "upgrade").any fun v => Text.sameLetters (Text.trim v) "websocket") = true ↔
      r.NamesProtocol := by
  have hblank : "websocket".toList.all (fun c => !Text.isBlank c) = true := by decide
  have hspells : ∀ text, Text.sameLetters (Text.trim text) "websocket" = true ↔
      Text.Spells "websocket".toList text.toList := fun text =>
    Text.sameLetters_trim (by decide) (by decide) (by simpa using List.all_eq_true.mp hblank)
  simp only [Option.any_eq_true, text?_eq_some_iff, hspells, NamesProtocol]

/-- The check of `Sec-WebSocket-Version` is the stated condition on its text. -/
theorem namesVersion_iff : Handshake.hasVersion r = true ↔ r.NamesVersion := by
  have hblank : "13".toList.all (fun c => !Text.isBlank c) = true := by decide
  have htrim : ∀ text, Text.trim text = Handshake.version ↔
      Text.BetweenBlanks "13".toList text.toList := by
    intro text
    rw [← Text.trimChars_eq_iff (by decide) (by simpa using List.all_eq_true.mp hblank)]
    exact String.ofList_inj
  unfold Handshake.hasVersion NamesVersion
  simp only [beq_iff_eq, Option.map_eq_some_iff, text?_eq_some_iff, htrim]

end Request

end Http

namespace Handshake

variable {r : Http.Request}

/-! ## Keys -/

/-- A key is accepted just if it is the base64 text of 16 octets. -/
theorem isKey_iff {key : String} :
    isKey key = true ↔ ∃ nonce : Octets, nonce.length = 16 ∧ key.toList = Text.toBase64 nonce := by
  unfold isKey
  simp only [Option.any_eq_true, Text.ofBase64?_eq_some_iff, beq_iff_eq]
  exact exists_congr fun nonce => and_comm

theorem toBase64_ne_nil {nonce : Octets} (h : nonce.length = 16) : Text.toBase64 nonce ≠ [] := by
  intro hnil
  have hread := Text.ofBase64?_toBase64 nonce
  rw [hnil] at hread
  cases hread
  cases h

/-- A key is looked at without the blanks around it. -/
theorem offersNonce_iff {text : String} (htext : r.Says "sec-websocket-key" text)
    {nonce : Octets} : r.OffersNonce nonce ↔
      nonce.length = 16 ∧ (Text.trim text).toList = Text.toBase64 nonce := by
  unfold Http.Request.OffersNonce
  refine and_congr_right fun hlength => ?_
  rw [Text.trim, String.toList_ofList, Text.trimChars_eq_iff (toBase64_ne_nil hlength)
    fun c hc => Text.isBlank_of_mem_toBase64 hc]
  constructor
  · rintro ⟨text', htext', hbetween⟩
    rw [htext.eq htext']
    exact hbetween
  · exact fun hbetween => ⟨text, htext, hbetween⟩

/-- A test that fails says the opposite. -/
theorem not_eq_true_iff {b : Bool} {p : Prop} (h : b = true ↔ p) : (!b) = true ↔ ¬ p := by
  rw [Bool.not_eq_true', ← Bool.not_eq_true, h]

open Http.Request in
/-- **What a request offers**: a key if it is complete, else its first fault is known. -/
theorem clientKey_cases (r : Http.Request) :
    (∃ key nonce, clientKey r = .ok key ∧ key.toList = Text.toBase64 nonce ∧ r.Upgrades nonce) ∨
    ∃ message, clientKey r = .error message ∧ r.FirstFault message := by
  -- The checks are made in order, and each fault carries what the earlier checks have shown.
  unfold clientKey
  split
  · next hmethod => exact .inr ⟨_, rfl, .method hmethod⟩
  · next hmethod =>
    have hmethod : r.method = "GET" := not_not.mp hmethod
    split
    · next hno =>
      exact .inr ⟨_, rfl, .connection hmethod ((not_eq_true_iff asksUpgrade_iff).mp hno)⟩
    · next hyes =>
      have hconnection : r.AsksUpgrade := not_not.mp (mt (not_eq_true_iff asksUpgrade_iff).mpr hyes)
      split
      · next hno =>
        have hprotocol := (not_eq_true_iff namesProtocol_iff).mp hno
        exact .inr ⟨_, rfl, .protocol hmethod hconnection hprotocol⟩
      · next hyes =>
        have hprotocol : r.NamesProtocol :=
          not_not.mp (mt (not_eq_true_iff namesProtocol_iff).mpr hyes)
        cases hkey : r.headers.text? "sec-websocket-key" with
        | none =>
          have hnone : ∀ text, ¬ r.Says "sec-websocket-key" text := by
            intro text htext
            rw [text?_eq_some_iff.mpr htext] at hkey
            cases hkey
          exact .inr ⟨_, rfl, .noKey hmethod hconnection hprotocol hnone⟩
        | some text =>
          have htext := text?_eq_some_iff.mp hkey
          simp only [Option.map_some]
          split
          · next hgood =>
            obtain ⟨nonce, hlength, hnonce⟩ := isKey_iff.mp hgood
            have hoffers := (offersNonce_iff htext).mpr ⟨hlength, hnonce⟩
            exact .inl ⟨_, nonce, rfl, hnonce, hmethod, hconnection, hprotocol, hoffers⟩
          · next hbad =>
            have hnonce : ∀ nonce, ¬ r.OffersNonce nonce := fun nonce hoffers =>
              hbad (isKey_iff.mpr ⟨nonce, (offersNonce_iff htext).mp hoffers⟩)
            exact .inr ⟨_, rfl, .badKey hmethod hconnection hprotocol htext hnonce⟩

/-! ## The first negotiation -/

/-- Without a key the handshake is refused, with the message of what is missing. -/
theorem negotiate_start_of_fault {message : String} (h : clientKey r = .error message) :
    start.negotiate r = (refusal message, ⟨.rejected⟩) := by
  have hinit : ¬ start.state ≠ .init := not_not_intro rfl
  unfold negotiate
  rw [if_neg hinit, h]

/-- With a key it is the version that decides, and then whether the connection can be upgraded. -/
theorem negotiate_start_of_key {key : String} (h : clientKey r = .ok key) :
    start.negotiate r =
      if !hasVersion r then (versionRefusal, ⟨.rejected⟩)
      else if !r.upgradable then (refusal "Connection cannot be upgraded", ⟨.rejected⟩)
      else (.switching (switchingResponse key), ⟨.handshaking⟩) := by
  have hinit : ¬ start.state ≠ .init := not_not_intro rfl
  unfold negotiate
  rw [if_neg hinit, h]

/-- What comes of the first negotiation. -/
theorem negotiate_start_cases (r : Http.Request) :
    (∃ key nonce, key.toList = Text.toBase64 nonce ∧ r.Upgrades nonce ∧ r.NamesVersion ∧
      r.upgradable = true ∧
      start.negotiate r = (.switching (switchingResponse key), ⟨.handshaking⟩)) ∨
    (∃ nonce, r.Upgrades nonce ∧ ¬ r.NamesVersion ∧
      start.negotiate r = (versionRefusal, ⟨.rejected⟩)) ∨
    ∃ message, r.FirstFault message ∧ start.negotiate r = (refusal message, ⟨.rejected⟩) := by
  rcases clientKey_cases r with ⟨key, nonce, hkey, hnonce, hupgrades⟩ | ⟨message, hkey, hfault⟩
  · have hanswer := negotiate_start_of_key hkey
    have hno := not_eq_true_iff (Http.Request.namesVersion_iff (r := r))
    split at hanswer
    · next hother => exact .inr (.inl ⟨nonce, hupgrades, hno.mp hother, hanswer⟩)
    · next hversion =>
      have hversion : r.NamesVersion := not_not.mp (mt hno.mpr hversion)
      -- The version is asked for first, so a connection that cannot be upgraded has the right one.
      cases hupgradable : r.upgradable with
      | true =>
        rw [hupgradable] at hanswer
        exact .inl ⟨key, nonce, hnonce, hupgrades, hversion, rfl, hanswer⟩
      | false =>
        rw [hupgradable] at hanswer
        exact .inr (.inr ⟨_, .stuck hupgrades hversion hupgradable, hanswer⟩)
  · exact .inr (.inr ⟨message, hfault, negotiate_start_of_fault hkey⟩)

/-- **Just the valid upgrades are accepted.** A first negotiation switches protocols if the request
is complete, in the supported version and on a connection that can be handed over. The answer then
proves that its key was read, and the handshake waits for the stream. Every other request is
refused, the connection is closed behind the answer, and the handshake is over. The answer names
the supported version just if nothing was wrong in front of that; else the request was malformed,
and the answer says how. -/
theorem negotiate_exact (r : Http.Request) : ∃ answer h, start.negotiate r = (answer, h) ∧
    ((∃ response, answer = .switching response) ↔
      (∃ nonce, r.Upgrades nonce) ∧ r.NamesVersion ∧ r.upgradable = true) ∧
    (∀ response, answer = .switching response → h.state = .handshaking ∧
      ∃ key nonce, key.toList = Text.toBase64 nonce ∧ r.Upgrades nonce ∧
        response = ⟨.switchingProtocols,
          [("connection", Http.headerValue "upgrade"), ("upgrade", Http.headerValue "websocket"),
            ("sec-websocket-accept", Http.headerValue (String.ofList (Text.toBase64
              (Crypto.sha1 (Text.octets key ++ Text.octets guid)))))], []⟩) ∧
    ∀ response, answer = .rejected response → h.state = .rejected ∧
      response.headers.all "connection" = [Http.headerValue "close"] ∧
      ((∃ nonce, r.Upgrades nonce) ∧ ¬ r.NamesVersion ∧ response.status = .upgradeRequired ∧
          response.headers.all "sec-websocket-version" = [Http.headerValue "13"] ∨
        ¬ ((∃ nonce, r.Upgrades nonce) ∧ ¬ r.NamesVersion) ∧ response.status = .badRequest ∧
          ∃ message, r.FirstFault message ∧ response = Http.failure .badRequest message true) := by
  rcases negotiate_start_cases r with
    ⟨key, nonce, hkey, hupgrades, hversion, hupgradable, hanswer⟩ |
    ⟨nonce, hupgrades, hversion, hanswer⟩ | ⟨message, hfault, hanswer⟩
  · refine ⟨_, _, hanswer, iff_of_true ⟨_, rfl⟩ ⟨⟨nonce, hupgrades⟩, hversion, hupgradable⟩, ?_, ?_⟩
    · intro response hswitching
      cases hswitching
      exact ⟨rfl, key, nonce, hkey, hupgrades, rfl⟩
    · intro response hrejected
      cases hrejected
  · have hnot : ¬ ∃ response, versionRefusal = .switching response := fun ⟨_, h⟩ => by cases h
    refine ⟨_, _, hanswer, iff_of_false hnot fun h => hversion h.2.1, ?_, ?_⟩
    · exact fun response hswitching => absurd ⟨response, hswitching⟩ hnot
    · intro response hrejected
      cases hrejected
      exact ⟨rfl, rfl, .inl ⟨⟨nonce, hupgrades⟩, hversion, rfl, rfl⟩⟩
  · have hnot : ¬ ∃ response, refusal message = .switching response := fun ⟨_, h⟩ => by cases h
    -- A fault in the key and a connection that cannot be upgraded are both 400, but only the first
    -- excludes a nonce.
    have hincomplete : ¬ ((∃ nonce, r.Upgrades nonce) ∧ r.NamesVersion ∧ r.upgradable = true) := by
      rintro ⟨⟨nonce, hupgrades⟩, -, hupgradable⟩
      rcases hfault.cases with hnone | ⟨-, hstuck⟩
      · exact hnone nonce hupgrades
      · rw [hstuck] at hupgradable
        cases hupgradable
    -- It is not the case of 426: there the version is all that is wrong.
    have hother : ¬ ((∃ nonce, r.Upgrades nonce) ∧ ¬ r.NamesVersion) := by
      rintro ⟨⟨nonce, hupgrades⟩, hversion⟩
      rcases hfault.cases with hnone | ⟨hversion', -⟩
      · exact hnone nonce hupgrades
      · exact hversion hversion'
    refine ⟨_, _, hanswer, iff_of_false hnot hincomplete, ?_, ?_⟩
    · exact fun response hswitching => absurd ⟨response, hswitching⟩ hnot
    · intro response hrejected
      cases hrejected
      exact ⟨rfl, rfl, .inr ⟨hother, rfl, message, hfault, rfl⟩⟩

/-- The answer to the key of the protocol's own example. -/
example : acceptKey (Text.octets "dGhlIHNhbXBsZSBub25jZQ==") = "s3pPLMBiTxaQ9kYGzzhZRbK+xOo=" := by
  decide +kernel

end Handshake

end WsGateway
