import WsGateway.Proofs.Gateway.SessionTable

/-!
# The life of sessions

The sessions of a gateway are numbered as they open: the place of a session among all of them is the
place of its connection, and its id is the next number (`SessionTable.linkAt`). As long as the ids
do not run out, the registry holds exactly the connections of the live sessions, the gauge counts
them, and all subscriptions are theirs (`SessionTable.Sound`). What is steady keeps this, and so do
the opening and the end of a session (`SessionTable.Sound.steady`, `SessionTable.Sound.open`,
`SessionTable.Sound.finish`), so that it holds after every run (`SessionTable.sound_run`). The main
statement, `SessionTable.run_orderly`, puts it in terms of what can be seen.
-/

namespace WsGateway

/-- What is added to a gauge is added to its level. -/
theorem GaugeFamily.level_add (f : GaugeFamily) (labels : Labels) (n : Int64) :
    (f.add labels n).level labels = f.level labels + n := by
  rw [add, level, FinMap.get?_insert, if_pos rfl, Option.getD_some]

namespace SessionTable

/-! ## Numbers of sessions -/

/-- The connection of the session with a place in the order of all sessions. -/
def linkAt (i : Nat) : Link := ⟨i, UInt64.ofNat (i + 1)⟩

/-- No id is given out twice while there are ids. -/
theorem linkAt_id_inj {i j n : Nat} (hn : n < 2 ^ 64) (hi : i < n) (hj : j < n)
    (h : (linkAt i).id = (linkAt j).id) : i = j := by
  have hnat := congrArg UInt64.toNat h
  simp only [linkAt, UInt64.toNat_ofNat'] at hnat
  omega

/-- The session with the place of the connection is live and has the connection. -/
def LiveAt (ts : List SessionEntry) (k : Link) : Prop :=
  ∃ s : Session, ts[k.slot]? = some ⟨s, true⟩ ∧ s.link = k

variable {g : Gateway} {b b' : Board} {ts : List SessionEntry} {s : Session} {i : Nat} {k : Link}

/-- A session that starts is the only one that becomes live. -/
theorem liveAt_append (hslot : s.link.slot = ts.length) :
    LiveAt (ts ++ [⟨s, true⟩]) k ↔ LiveAt ts k ∨ k = s.link := by
  unfold LiveAt
  constructor
  · rintro ⟨s', hs', rfl⟩
    rcases Nat.lt_or_ge s'.link.slot ts.length with hlt | hge
    · rw [List.getElem?_append_left hlt] at hs'
      exact Or.inl ⟨s', hs', rfl⟩
    · rw [List.getElem?_append_right hge] at hs'
      have hlast := List.mem_singleton.mp (List.mem_of_getElem? hs')
      cases hlast
      exact Or.inr rfl
  · rintro (⟨s', hs', rfl⟩ | rfl)
    · obtain ⟨hlt, -⟩ := List.getElem?_eq_some_iff.mp hs'
      exact ⟨s', (List.getElem?_append_left hlt).trans hs', rfl⟩
    · refine ⟨s, ?_, rfl⟩
      rw [hslot, List.getElem?_concat_length]

/-- A session that ends is the only one that is no longer live. -/
theorem liveAt_set : LiveAt (ts.set i ⟨s, false⟩) k ↔ LiveAt ts k ∧ k.slot ≠ i := by
  unfold LiveAt
  rw [List.getElem?_set]
  constructor
  · rintro ⟨s', hs', hlink⟩
    split at hs'
    · split at hs' <;> cases hs'
    · next hne => exact ⟨⟨s', hs', hlink⟩, Ne.symm hne⟩
  · rintro ⟨⟨s', hs', hlink⟩, hne⟩
    rw [if_neg (Ne.symm hne)]
    exact ⟨s', hs', hlink⟩

/-! ## Soundness -/

/-- The sessions are numbered as they opened; the live ones, and nothing else, are registered and
counted and have subscriptions. -/
structure Sound (g : Gateway) (b : Board) (ts : List SessionEntry) : Prop where
  consistent : b.subscriptions.Consistent
  length : b.links.conns.length = ts.length
  placed : ∀ {i t}, ts[i]? = some t → t.link = linkAt i
  /-- No session opens if the queues of connections cannot be made. -/
  unmade : Connection.maxCapacity < g.config.gateway.outboundQueue.toNat → ts = []
  lastId : ¬ Connection.maxCapacity < g.config.gateway.outboundQueue.toNat →
    b.registry.lastId = UInt64.ofNat ts.length
  registered : ∀ {id k}, b.registry.get? id = some k ↔ LiveAt ts k ∧ k.id = id
  size : b.registry.size = ts.countP SessionEntry.live
  level : b.view.active.level [] = Int64.ofNat (ts.countP SessionEntry.live)
  gone : ∀ t ∈ ts, t.live = false → b.links.isWritable t.link = false
  owned : ∀ {key sub}, b.subscriptions.subs.get? key = some sub → LiveAt ts sub.link

/-- The gateway as it starts has no session, and its gauge is 0. -/
theorem sound_start (g : Gateway) : Sound g .start [] where
  consistent := Subscriptions.consistent_empty
  length := rfl
  placed h := by cases h
  unmade _ := rfl
  lastId _ := rfl
  registered := by
    intro id k
    constructor
    · intro h
      cases h
    · rintro ⟨⟨s, hs, -⟩, -⟩
      cases hs
  size := rfl
  level := rfl
  gone t ht := by cases ht
  owned h := by cases h

/-- A live session stands in the table at the place of its connection. -/
theorem Sound.liveAt (h : Sound g b ts) (hk : LiveAt ts k) :
    k.slot < ts.length ∧ k = linkAt k.slot := by
  obtain ⟨s, hs, hlink⟩ := hk
  obtain ⟨hlt, -⟩ := List.getElem?_eq_some_iff.mp hs
  exact ⟨hlt, hlink.symm.trans (h.placed hs)⟩

/-- A live session is told by its id. -/
theorem Sound.slot_eq (h : Sound g b ts) (hids : ts.length < 2 ^ 64) {t : SessionEntry}
    (ht : ts[i]? = some t) (hk : LiveAt ts k) (hid : k.id = t.link.id) : k.slot = i := by
  obtain ⟨hi, -⟩ := List.getElem?_eq_some_iff.mp ht
  obtain ⟨hlt, hplace⟩ := h.liveAt hk
  rw [hplace, h.placed ht] at hid
  exact linkAt_id_inj hids hlt hi hid

/-- What is steady keeps the sessions sound. -/
theorem Sound.steady (h : Sound g b ts) (hb : b.Steady (LiveAt ts) b') : Sound g b' ts := by
  have hregistry : b'.registry = b.registry := hb.view.registry
  refine ⟨hb.consistent h.consistent, hb.links.length.trans h.length, h.placed, h.unmade, ?_, ?_,
    ?_, ?_, ?_, ?_⟩
  · rw [hregistry]
    exact h.lastId
  · rw [hregistry]
    exact h.registered
  · rw [hregistry]
    exact h.size
  · rw [hb.view.active]
    exact h.level
  · intro t ht hlive
    -- A connection that is writable now was writable before, and those that are gone were not.
    exact Bool.eq_false_iff.mpr fun hw =>
      Bool.eq_false_iff.mp (h.gone t ht hlive) (hb.links.writable hw)
  · intro key sub hsub
    rcases hb.owned hsub with hold | hat
    · exact h.owned hold
    · exact hat

/-- The sessions stay sound when an id is used up for nothing. -/
theorem Sound.skip (h : Sound g b ts)
    (hmax : Connection.maxCapacity < g.config.gateway.outboundQueue.toNat)
    (hview : b'.view = { b.view with registry := b.registry.nextId.2 })
    (hlinks : b'.links = b.links) (hsubs : b'.subscriptions = b.subscriptions) : Sound g b' ts where
  consistent := hsubs ▸ h.consistent
  length := hlinks ▸ h.length
  placed := h.placed
  unmade := h.unmade
  -- The id was taken although no session opened; the ids are counted only where sessions can open.
  lastId hnot := absurd hmax hnot
  registered := by
    rw [show b'.registry = b.registry.nextId.2 from congrArg SessionView.registry hview]
    exact h.registered
  size := by
    rw [show b'.registry = b.registry.nextId.2 from congrArg SessionView.registry hview]
    exact h.size
  level := by
    rw [hview]
    exact h.level
  gone := hlinks ▸ h.gone
  owned hsub := h.owned (hsubs ▸ hsub)

/-- The sessions stay sound when one takes the next place and the next id. -/
theorem Sound.opened (h : Sound g b ts) (hids : ts.length + 1 < 2 ^ 64)
    (hmax : ¬ Connection.maxCapacity < g.config.gateway.outboundQueue.toNat)
    (hlink : s.link = ⟨b.links.conns.length, b.registry.lastId + 1⟩)
    (hview : b'.view = { b.view with
      registry := b.registry.nextId.2.insert s.link
      active := b.view.active.inc [] })
    {peer : Net.Address} {queue : Nat} (hlinks : b'.links = (b.links.open s.link.id peer queue).2)
    (hsubs : b'.subscriptions = b.subscriptions) : Sound g b' (ts ++ [⟨s, true⟩]) := by
  have hregistry : b'.registry = b.registry.nextId.2.insert s.link :=
    congrArg SessionView.registry hview
  have hactive : b'.view.active = b.view.active.inc [] := congrArg SessionView.active hview
  have hplace : s.link = linkAt ts.length := by
    rw [hlink, h.length, h.lastId hmax, linkAt, UInt64.ofNat_add]
    rfl
  have hslot : s.link.slot = ts.length := by rw [hplace, linkAt]
  have hcount : (ts ++ [SessionEntry.mk s true]).countP SessionEntry.live =
      ts.countP SessionEntry.live + 1 := by
    rw [List.countP_append]
    rfl
  -- the new id is that of no live session
  have hfresh : ∀ {k}, LiveAt ts k → k.id ≠ s.link.id := by
    intro k hk hid
    obtain ⟨hlt, hk⟩ := h.liveAt hk
    rw [hk, hplace] at hid
    have heq := linkAt_id_inj hids (by omega) (Nat.lt_succ_self _) hid
    omega
  have hnew : b.registry.get? s.link.id = none := by
    by_contra hne
    obtain ⟨k, hk⟩ := Option.ne_none_iff_exists'.mp hne
    obtain ⟨hat, hid⟩ := h.registered.mp hk
    exact hfresh hat hid
  refine ⟨hsubs ▸ h.consistent, ?_, ?_, fun hgt => absurd hgt hmax, ?_, ?_, ?_, ?_, ?_, ?_⟩
  · rw [hlinks, List.length_append, List.length_singleton, ← h.length]
    exact List.length_append
  · intro i t ht
    rcases Nat.lt_or_ge i ts.length with hlt | hge
    · rw [List.getElem?_append_left hlt] at ht
      exact h.placed ht
    · have hi : i < (ts ++ [SessionEntry.mk s true]).length := (List.getElem?_eq_some_iff.mp ht).1
      rw [List.length_append, List.length_singleton] at hi
      have heq : i = ts.length := by omega
      rw [heq, List.getElem?_concat_length] at ht
      cases ht
      rw [heq]
      exact hplace
  · intro _
    rw [hregistry, List.length_append, List.length_singleton, UInt64.ofNat_add, ← h.lastId hmax]
    rfl
  · intro id k
    rw [hregistry, liveAt_append hslot]
    show (b.registry.conns.insert s.link.id s.link).get? id = some k ↔ _
    rw [FinMap.get?_insert]
    constructor
    · intro hget
      split at hget
      · next hid =>
        cases hget
        exact ⟨Or.inr rfl, hid.symm⟩
      · obtain ⟨hat, hid⟩ := h.registered.mp hget
        exact ⟨Or.inl hat, hid⟩
    · rintro ⟨hat | rfl, hid⟩
      · rw [if_neg fun heq => hfresh hat (hid.trans heq)]
        exact h.registered.mpr ⟨hat, hid⟩
      · rw [if_pos hid.symm]
  · rw [hregistry, hcount, ← h.size]
    exact FinMap.size_insert_of_new hnew s.link
  · rw [hactive, hcount, GaugeFamily.inc, GaugeFamily.level_add, h.level, Int64.ofNat_add]
    rfl
  · intro t ht hlive
    rcases List.mem_append.mp ht with hold | hlast
    · obtain ⟨i, hi⟩ := List.getElem?_of_mem hold
      obtain ⟨hlt, -⟩ := List.getElem?_eq_some_iff.mp hi
      have hne : t.link.slot ≠ b.links.conns.length := by
        rw [h.placed hi, h.length]
        exact Nat.ne_of_lt hlt
      have hgone := h.gone t hold hlive
      unfold Links.isWritable at hgone ⊢
      rw [hlinks, Links.get?_open, if_neg hne]
      exact hgone
    · cases List.mem_singleton.mp hlast
      cases hlive
  · intro key sub hsub
    exact (liveAt_append hslot).mpr (Or.inl (h.owned (hsubs ▸ hsub)))

/-- The sessions stay sound when one opens, or fails to because its queue cannot be made. -/
theorem Sound.open (h : Sound g b ts) (peer : Net.Address) (hs : Handshake)
    (hids : (withOpened ts (Session.start g.config peer hs b).1).length < 2 ^ 64) :
    Sound g (Session.start g.config peer hs b).2
      (withOpened ts (Session.start g.config peer hs b).1) := by
  have hsubs := Session.start_subscriptions g.config peer hs b
  have hview := Session.view_start g.config peer hs b
  rcases Session.start_cases g.config peer hs b with ⟨hmax, hnot, hlinks⟩ | ⟨hmax, hopen, hlinks⟩
  · rw [hnot] at hview
    have hsame : withOpened ts (none : Option Session) = ts := List.append_nil ts
    rw [hnot, hsame]
    exact h.skip hmax hview hlinks hsubs
  · rw [hopen] at hview hids
    have hlength : ts.length + 1 < 2 ^ 64 := by
      simpa [withOpened] using hids
    rw [hopen]
    exact h.opened hlength hmax rfl hview hlinks hsubs

/-- The sessions stay sound when one ends. -/
theorem Sound.finish (h : Sound g b ts) (hids : ts.length < 2 ^ 64)
    (hs : ts[i]? = some ⟨s, true⟩) : Sound g (s.finish b) (ts.set i ⟨s, false⟩) := by
  have hi : i < ts.length := (List.getElem?_eq_some_iff.mp hs).1
  have hplace : s.link = linkAt i := h.placed hs
  have hslot : s.link.slot = i := by rw [hplace, linkAt]
  have hat : LiveAt ts s.link := ⟨s, hslot ▸ hs, rfl⟩
  have hcount : (ts.set i ⟨s, false⟩).countP SessionEntry.live + 1 =
      ts.countP SessionEntry.live := by
    have hlive : ts[i].live = true := by
      rw [(List.getElem?_eq_some_iff.mp hs).2]
    have hpos : 0 < ts.countP SessionEntry.live :=
      List.countP_pos_iff.mpr ⟨ts[i], List.getElem_mem hi, hlive⟩
    rw [List.countP_set hi, if_pos hlive, if_neg Bool.false_ne_true]
    omega
  have hnone : b.links.NoneReopened (s.finish b).links := Links.noneReopened_close b.links s.link
  -- another live session has another id, and the other way round
  have hother : ∀ {k}, LiveAt ts k → (k.id ≠ s.link.id ↔ k.slot ≠ i) := by
    intro k hk
    refine ⟨fun hid heq => hid ?_, fun hne hid => hne (h.slot_eq hids hs hk hid)⟩
    rw [(h.liveAt hk).2, heq, hplace]
  refine ⟨h.consistent.purge _, hnone.length.trans ?_, ?_, ?_, ?_, ?_, ?_, ?_, ?_, ?_⟩
  · rw [List.length_set, h.length]
  · intro j t ht
    rw [List.getElem?_set] at ht
    split at ht
    · next heq =>
      cases ht
      rw [← heq]
      exact hplace
    · exact h.placed ht
  · intro hmax
    rw [h.unmade hmax, List.set_nil]
  · intro hmax
    rw [List.length_set]
    exact h.lastId hmax
  · intro id k
    rw [liveAt_set]
    show (b.registry.conns.erase s.link.id).get? id = some k ↔ _
    rw [FinMap.get?_erase]
    constructor
    · intro hget
      split at hget
      · cases hget
      · next hne =>
        obtain ⟨hk, hid⟩ := h.registered.mp hget
        exact ⟨⟨hk, (hother hk).mp (hid ▸ hne)⟩, hid⟩
    · rintro ⟨⟨hk, hne⟩, hid⟩
      rw [if_neg (hid ▸ (hother hk).mpr hne)]
      exact h.registered.mpr ⟨hk, hid⟩
  · have herase : (s.finish b).registry.size + 1 = b.registry.size :=
      FinMap.size_erase_of_get? (h.registered.mpr ⟨hat, rfl⟩)
    have hsize := h.size
    omega
  · show (b.view.active.dec []).level [] = _
    rw [GaugeFamily.dec, GaugeFamily.level_add, h.level, ← hcount, Int64.ofNat_add]
    show Int64.ofNat _ + 1 + -1 = _
    grind
  · intro t ht hlive
    rcases List.mem_or_eq_of_mem_set ht with hold | rfl
    · exact Bool.eq_false_iff.mpr fun hw =>
        Bool.eq_false_iff.mp (h.gone t hold hlive) (hnone.writable hw)
    · exact (Links.isWritable_close b.links s.link s.link).trans (if_pos rfl)
  · intro key sub hsub
    have hget := h.consistent.get?_purge s.link.id key
    have hpurged : (s.finish b).subscriptions = (b.subscriptions.purge s.link.id).2 := rfl
    rw [hpurged, hget] at hsub
    split at hsub
    · cases hsub
    · next hne =>
      have hk := h.owned hsub
      have hid : sub.link.id = key.1 := (h.consistent.stored hsub).2
      exact liveAt_set.mpr ⟨hk, (hother hk).mp (hid ▸ hne)⟩

/-! ## Runs -/

variable {h : SessionTable} {m : GatewayEvent}

/-- No entry of the session table is ever dropped. -/
theorem length_le_change {h' : SessionTable} (hc : Change g h m h') :
    h.entries.length ≤ h'.entries.length := by
  cases hc with
  | steady hm hb => exact Nat.le_refl _
  | opening hm hb hup =>
    show _ ≤ (h.entries ++ _).length
    rw [List.length_append]
    exact Nat.le_add_right _ _
  | ending hm hb hs => exact Nat.le_of_eq List.length_set.symm
  | draining hm => exact Nat.le_refl _

/-- **Whatever happens, the sessions stay sound** while there are ids. -/
theorem Sound.change {h' : SessionTable} (hs : Sound g h.board h.entries) (hc : Change g h m h')
    (hids : h'.entries.length < 2 ^ 64) : Sound g h'.board h'.entries := by
  have hlive : ∀ k, h.Live k → LiveAt h.entries k := by
    rintro k ⟨i, s, hi, rfl⟩
    have hslot : s.link.slot = i := by rw [show s.link = linkAt i from hs.placed hi, linkAt]
    exact ⟨s, hslot ▸ hi, rfl⟩
  cases hc with
  | steady hm hb => exact hs.steady (hb.mono hlive)
  | opening hm hb hup => exact (hs.steady (hb.mono hlive)).open _ _ hids
  | ending hm hb hi =>
    rw [List.length_set] at hids
    exact (hs.steady (hb.mono hlive)).finish hids hi
  | draining hm =>
    -- that new upgrades are refused does not concern the sessions that there are
    have hclosed := hs.steady h.board.steady_closeAll
    exact { hclosed with }

/-- By induction on what happened, the last thing first: the sessions are sound after every run in
which the ids do not run out. -/
theorem sound_run (hg : g.HasBuiltins) (hp : g.EveryHandler Endpoint.KeepsSessions)
    (ms : List GatewayEvent)
    (hids : (run g ms start).entries.length < 2 ^ 64) :
    Sound g (run g ms start).board (run g ms start).entries := by
  induction ms using List.reverseRecOn with
  | nil => exact sound_start g
  | append_singleton ms m ih =>
    have hstep : run g (ms ++ [m]) start = SessionTable.step g m (run g ms start) :=
      run_append g ms [m] start
    rw [hstep] at hids ⊢
    have hc := change_step hg hp m (run g ms start)
    exact (ih (Nat.lt_of_le_of_lt (length_le_change hc) hids)).change hc hids

/-! ## What can be seen -/

/-- What holds of the sessions between openings and ends. -/
structure Orderly (h : SessionTable) : Prop where
  /-- No two sessions have the same id. -/
  ids : (h.entries.map fun t => t.link.id).Nodup
  /-- As many connections are registered as there are live sessions. -/
  size : h.board.registry.size = h.entries.countP SessionEntry.live
  /-- The gauge says how many there are. -/
  level : h.board.metrics.wsSessionsActive.level [] = Int64.ofNat h.board.registry.size
  /-- That is their number as long as the gauge can hold it. -/
  reading : h.board.registry.size < 2 ^ 63 →
    (h.board.metrics.wsSessionsActive.level []).toInt = h.board.registry.size
  /-- Every live session is registered. -/
  registered : ∀ t ∈ h.entries, t.live = true → h.board.registry.get? t.link.id = some t.link
  /-- Every subscription belongs to a registered connection. -/
  owned : ∀ key sub, h.board.subscriptions.subs.get? key = some sub →
    sub.link.id = key.1 ∧ h.board.registry.get? key.1 = some sub.link
  /-- A session that ended has left nothing behind. -/
  ended : ∀ t ∈ h.entries, t.live = false →
    h.board.links.isWritable t.link = false ∧ h.board.registry.get? t.link.id = none ∧
      ∀ rerid, h.board.subscriptions.subs.get? (t.link.id, rerid) = none

/-- The invariant of a run says what is claimed of its end, as long as the ids suffice. -/
theorem Sound.orderly (hs : Sound g h.board h.entries) (hids : h.entries.length < 2 ^ 64) :
    Orderly h := by
  -- no live session has the id of one that ended
  have hgone : ∀ t ∈ h.entries, t.live = false → ∀ {k}, LiveAt h.entries k →
      k.id ≠ t.link.id := by
    intro t ht hlive k hk hid
    obtain ⟨i, hi⟩ := List.getElem?_of_mem ht
    have hslot := hs.slot_eq hids hi hk hid
    obtain ⟨s, hs', -⟩ := hk
    rw [hslot, hi] at hs'
    cases hs'
    cases hlive
  have hlevel : h.board.metrics.wsSessionsActive.level [] = Int64.ofNat h.board.registry.size := by
    rw [hs.size]
    exact hs.level
  refine ⟨?_, hs.size, hlevel, ?_, ?_, ?_, ?_⟩
  · have hnumbers : h.entries.map (fun t => t.link.id) =
        (List.range h.entries.length).map fun i => (linkAt i).id := by
      apply List.ext_getElem (by simp)
      intro i hi _
      rw [List.length_map] at hi
      rw [List.getElem_map, List.getElem_map, List.getElem_range,
        hs.placed (List.getElem?_eq_getElem hi)]
    rw [hnumbers]
    refine List.Nodup.map_on ?_ List.nodup_range
    intro i hi j hj heq
    exact linkAt_id_inj hids (List.mem_range.mp hi) (List.mem_range.mp hj) heq
  · intro hsize
    rw [hlevel, Int64.toInt_ofNat_of_lt hsize]
  · intro t ht hlive
    obtain ⟨i, hi⟩ := List.getElem?_of_mem ht
    obtain ⟨s, live⟩ := t
    cases hlive
    have hslot : s.link.slot = i := by rw [show s.link = linkAt i from hs.placed hi, linkAt]
    exact hs.registered.mpr ⟨⟨s, hslot ▸ hi, rfl⟩, rfl⟩
  · intro key sub hsub
    have hid : sub.link.id = key.1 := (hs.consistent.stored hsub).2
    exact ⟨hid, hs.registered.mpr ⟨hs.owned hsub, hid⟩⟩
  · intro t ht hlive
    refine ⟨hs.gone t ht hlive, ?_, ?_⟩
    · by_contra hne
      obtain ⟨k, hk⟩ := Option.ne_none_iff_exists'.mp hne
      obtain ⟨hat, hid⟩ := hs.registered.mp hk
      exact hgone t ht hlive hat hid
    · intro rerid
      by_contra hne
      obtain ⟨sub, hsub⟩ := Option.ne_none_iff_exists'.mp hne
      exact hgone t ht hlive (hs.owned hsub) (hs.consistent.stored hsub).2

/-! ## Sessions that have ended -/

/-- A session that has ended does not come back. -/
theorem ended_change {h' : SessionTable} (hc : Change g h m h')
    (hi : h.entries[i]? = some ⟨s, false⟩) : h'.entries[i]? = some ⟨s, false⟩ := by
  cases hc with
  | steady hm hb => exact hi
  | opening hm hb hup =>
    have hlt : i < h.entries.length := (List.getElem?_eq_some_iff.mp hi).1
    exact (List.getElem?_append_left hlt).trans hi
  | @ending b j s' hm hb hj =>
    -- the session that ends was live, hence another one
    have hne : j ≠ i := by
      rintro rfl
      rw [hi] at hj
      cases hj
    exact (List.getElem?_set_ne hne).trans hi
  | draining hm => exact hi

/-- A session that has ended stays so, whatever happens. -/
theorem ended_run (hg : g.HasBuiltins) (hp : g.EveryHandler Endpoint.KeepsSessions)
    (ms : List GatewayEvent) (hi : h.entries[i]? = some ⟨s, false⟩) :
    (run g ms h).entries[i]? = some ⟨s, false⟩ := by
  induction ms generalizing h with
  | nil => exact hi
  | cons m rest ih => exact ih (ended_change (change_step hg hp m h) hi)

/-- **Sessions are orderly** after every run of a gateway with what is built in, in which sessions
open and end in any order and by any cause: their ids are different, the registry and the gauge
count the live ones, all subscriptions belong to registered connections, and nothing is left of a
session that ended, now and later. -/
theorem run_orderly {config : Config} (hg : Gateway.builtin config = .ok g) (ms : List GatewayEvent)
    (hids : (run g ms start).entries.length < 2 ^ 64) :
    Orderly (run g ms start) ∧
      ∀ before after, ms = before ++ after →
        ∀ (i : Nat) (s : Session), (run g before start).entries[i]? = some ⟨s, false⟩ →
          (run g ms start).entries[i]? = some ⟨s, false⟩ := by
  have hops := Gateway.hasBuiltins_of_builtin hg
  have hpaths := Gateway.keepsSessions_of_builtin hg
  refine ⟨(sound_run hops hpaths ms hids).orderly hids, ?_⟩
  rintro before after rfl i s hended
  rw [run_append]
  exact ended_run hops hpaths after hended

/-- Three sessions open and two of them subscribe. One ends as its writer fails and one with a close
frame; the third is left when the gateway drains. -/
theorem run_orderly_three :
    let text := "\x7b\"id\":1,\"op\":\"heartbeat\",\"type\":\"sub\"\x7d"
    let ms := [.upgradeRequest, .upgradeRequest, .complete 0, .frame 0 (.text text) 0,
      .upgradeRequest, .complete 2, .complete 1, .frame 1 (.text text) 0,
      .publish "heartbeat" (.value .null), .work 0 false, .leave 0, .drain,
      .frame 2 (.close none) 0]
    ∃ g, Gateway.builtin {} = .ok g ∧ Orderly (run g ms start) ∧
      (run g ms start).entries.map SessionEntry.live = [false, true, false] ∧
      (run g ms start).board.registry.size = 1 ∧
      (run g ms start).board.subscriptions.size = 1 := by
  intro text ms
  have hrun : (match Gateway.builtin {} with
      | .error _ => none
      | .ok g => some ((run g ms start).entries.map SessionEntry.live,
          (run g ms start).board.registry.size, (run g ms start).board.subscriptions.size)) =
      some ([false, true, false], 1, 1) := by
    decide +kernel
  cases hg : Gateway.builtin {} with
  | error e =>
    rw [hg] at hrun
    cases hrun
  | ok g =>
    rw [hg] at hrun
    simp only [Option.some.injEq, Prod.mk.injEq] at hrun
    obtain ⟨hlive, hsize, hsubs⟩ := hrun
    have hids : (run g ms start).entries.length < 2 ^ 64 := by
      have hlength := congrArg List.length hlive
      rw [List.length_map] at hlength
      rw [hlength]
      decide
    exact ⟨g, rfl, (run_orderly hg ms hids).1, hlive, hsize, hsubs⟩

end SessionTable

end WsGateway
