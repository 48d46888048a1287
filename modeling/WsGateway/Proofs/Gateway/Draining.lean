import WsGateway.Proofs.Gateway.SessionTable

/-!
# Draining

A gateway that drains promises no more upgrades and closes the connections that are registered. An
upgrade that was promised before is another matter: its stream may still arrive, and then its
session opens with a connection that nobody closes (`SessionTable.late_session`). So what a gateway
can have open once it drains is bounded by the upgrades that it awaited when it began to
(`SessionTable.drained`), and no connection is open if there were none.

What becomes of a gateway while it drains is limited (`Board.WhileDraining`): fewer upgrades are
awaited, and a connection that is writable and registered was so before, or is a new one for which
an awaited upgrade is gone.
-/

namespace WsGateway

variable {g : Gateway}

/-- The start of a session does not begin or end a drain. -/
theorem Session.isDraining_start (config : Config) (peer : Net.Address) (hs : Handshake)
    (b : Board) : (Session.start config peer hs b).2.isDraining = b.isDraining := by
  unfold start
  dsimp only
  split <;> rfl

/-- Only a connection that was opened is writable. -/
theorem Links.slot_lt_of_isWritable {l : Links} {k : Link} (h : l.isWritable k = true) :
    k.slot < l.conns.length := by
  unfold isWritable at h
  cases hc : l.get? k with
  | none =>
    rw [hc] at h
    cases h
  | some c => exact slot_lt_of_isSome (Option.isSome_of_eq_some hc)

/-! ## Gateways that drain -/

/-- What became of a gateway that drains. -/
structure Board.WhileDraining (b b' : Board) : Prop where
  draining : b'.isDraining = true
  awaited : b'.awaited.Sublist b.awaited
  length : b.links.conns.length ≤ b'.links.conns.length
  /-- Each new connection has used up an upgrade that was awaited. -/
  promised : b'.links.conns.length + b'.awaited.length ≤ b.links.conns.length + b.awaited.length
  registered : ∀ {id k}, b'.registry.get? id = some k →
    b.registry.get? id = some k ∨ b.links.conns.length ≤ k.slot
  writable : ∀ {k}, b'.links.isWritable k = true →
    b.links.isWritable k = true ∨ b.links.conns.length ≤ k.slot

namespace Board

variable {b b' b'' : Board}

theorem WhileDraining.refl (hb : b.isDraining = true) : b.WhileDraining b :=
  ⟨hb, .refl _, Nat.le_refl _, Nat.le_refl _, Or.inl, Or.inl⟩

/-- What is kept while draining is kept in sequence. -/
theorem WhileDraining.trans (h : b.WhileDraining b') (h' : b'.WhileDraining b'') :
    b.WhileDraining b'' where
  draining := h'.draining
  awaited := h'.awaited.trans h.awaited
  length := Nat.le_trans h.length h'.length
  promised := Nat.le_trans h'.promised h.promised
  registered hk := by
    rcases h'.registered hk with hold | hnew
    · exact h.registered hold
    · exact Or.inr (Nat.le_trans h.length hnew)
  writable hk := by
    rcases h'.writable hk with hold | hnew
    · exact h.writable hold
    · exact Or.inr (Nat.le_trans h.length hnew)

/-- What is steady can happen while a gateway drains. -/
theorem Steady.whileDraining {own : Link → Prop} (h : b.Steady own b') (hb : b.isDraining = true) :
    b.WhileDraining b' := by
  have hregistry : b'.registry = b.registry := h.view.registry
  have hawaited : b'.awaited.Sublist b.awaited := h.view.awaited hb
  refine ⟨h.view.draining.trans hb, hawaited, Nat.le_of_eq h.links.length.symm, ?_, ?_, ?_⟩
  · rw [h.links.length]
    exact Nat.add_le_add_left hawaited.length_le _
  · intro id k hk
    exact Or.inl (hregistry ▸ hk)
  · exact fun hw => Or.inl (h.links.writable hw)

/-- A session can end while a gateway drains. -/
theorem whileDraining_finish (s : Session) (hb : b.isDraining = true) :
    b.WhileDraining (s.finish b) := by
  have hnone : b.links.NoneReopened (s.finish b).links := Links.noneReopened_close b.links s.link
  refine ⟨hb, .refl _, Nat.le_of_eq hnone.length.symm, ?_, ?_, fun hw => Or.inl (hnone.writable hw)⟩
  · exact Nat.le_of_eq (congrArg (· + b.awaited.length) hnone.length)
  · intro id k hk
    have hget : (b.registry.conns.erase s.link.id).get? id = some k := hk
    rw [FinMap.get?_erase] at hget
    split at hget
    · cases hget
    · exact Or.inl hget

/-- A gateway that drains can be told to once more. -/
theorem whileDraining_beginDrain (b : Board) : b.WhileDraining b.beginDrain := by
  have hnone : b.links.NoneReopened b.beginDrain.links := Links.noneReopened_foldl_close _ b.links
  refine ⟨rfl, .refl _, Nat.le_of_eq hnone.length.symm, ?_, Or.inl,
    fun hw => Or.inl (hnone.writable hw)⟩
  exact Nat.le_of_eq (congrArg (· + b.awaited.length) hnone.length)

/-- A session can open while a gateway drains, if an upgrade is gone for it. -/
theorem WhileDraining.start (h : b.WhileDraining b')
    (hup : b'.links.conns.length + b'.awaited.length < b.links.conns.length + b.awaited.length)
    (config : Config) (peer : Net.Address) (hs : Handshake) :
    b.WhileDraining (Session.start config peer hs b').2 := by
  have hview := Session.view_start config peer hs b'
  rcases Session.start_cases config peer hs b' with ⟨-, hnot, hlinks⟩ | ⟨-, hopen, hlinks⟩
  · rw [hnot] at hview
    have hregistry : (Session.start config peer hs b').2.registry = b'.registry.nextId.2 :=
      congrArg SessionView.registry hview
    have hawaited : (Session.start config peer hs b').2.awaited = b'.awaited :=
      congrArg SessionView.awaited hview
    refine ⟨(congrArg SessionView.draining hview).trans h.draining, hawaited ▸ h.awaited,
      hlinks ▸ h.length, ?_, ?_, hlinks ▸ h.writable⟩
    · rw [hlinks, hawaited]
      exact h.promised
    · rw [hregistry]
      exact h.registered
  · rw [hopen] at hview
    have hregistry : (Session.start config peer hs b').2.registry =
        b'.registry.nextId.2.insert ⟨b'.links.conns.length, b'.registry.lastId + 1⟩ :=
      congrArg SessionView.registry hview
    have hawaited : (Session.start config peer hs b').2.awaited = b'.awaited :=
      congrArg SessionView.awaited hview
    have hlength : (Session.start config peer hs b').2.links.conns.length =
        b'.links.conns.length + 1 := by
      rw [hlinks]
      exact List.length_append
    refine ⟨(congrArg SessionView.draining hview).trans h.draining, hawaited ▸ h.awaited, ?_, ?_,
      ?_, ?_⟩
    · rw [hlength]
      exact Nat.le_succ_of_le h.length
    · rw [hlength, hawaited]
      omega
    · -- the new connection has a place behind all others
      intro id k hk
      rw [hregistry] at hk
      have hget :=
        (FinMap.get?_insert b'.registry.conns (b'.registry.lastId + 1) id _).symm.trans hk
      split at hget
      · cases hget
        exact Or.inr h.length
      · exact h.registered hget
    · intro k hw
      unfold Links.isWritable at hw
      rw [hlinks, Links.get?_open] at hw
      split at hw
      · next hslot => exact Or.inr (hslot ▸ h.length)
      · exact h.writable hw

end Board

namespace SessionTable

variable {h h' : SessionTable} {m : GatewayEvent}

/-- Only a drain begins to drain. -/
theorem isDraining_change (hc : Change g h m h') :
    h'.board.isDraining = true ↔ h.board.isDraining = true ∨ m = .drain := by
  cases hc with
  | @steady b writers hm hb =>
    have hsame : b.isDraining = h.board.isDraining := hb.view.draining
    rw [or_iff_left hm, ← hsame]
  | @opening b up hm hb hup =>
    have hsame : b.isDraining = h.board.isDraining := hb.view.draining
    rw [or_iff_left hm, ← hsame, Session.isDraining_start]
  | @ending b i s hm hb hs =>
    have hsame : b.isDraining = h.board.isDraining := hb.view.draining
    rw [or_iff_left hm, ← hsame]
    rfl
  | draining hm => exact ⟨fun _ => Or.inr hm, fun _ => rfl⟩

/-- Whatever happens to a gateway that drains stays within these limits. -/
theorem whileDraining_change (hc : Change g h m h') (hd : h.board.isDraining = true) :
    h.board.WhileDraining h'.board := by
  cases hc with
  | steady hm hb => exact hb.whileDraining hd
  | opening hm hb hup =>
    have hlength := hb.links.length
    exact (hb.whileDraining hd).start (by omega) _ _ _
  | ending hm hb hs =>
    have hdrained := hb.whileDraining hd
    exact hdrained.trans (Board.whileDraining_finish _ hdrained.draining)
  | draining hm => exact Board.whileDraining_beginDrain h.board

/-- Whatever happens during a drain, the drain goes on and no connection that was there becomes
writable again. -/
theorem whileDraining_run (hg : g.HasBuiltins) (hp : g.EveryHandler Endpoint.KeepsSessions)
    (ms : List GatewayEvent) (hd : h.board.isDraining = true) :
    h.board.WhileDraining (run g ms h).board := by
  induction ms generalizing h with
  | nil => exact .refl hd
  | cons m rest ih =>
    have hstep := whileDraining_change (change_step hg hp m h) hd
    exact hstep.trans (ih hstep.draining)

/-- A gateway drains at the end of a run just if it drained before or was told to in the run;
nothing ends a drain. -/
theorem isDraining_run (hg : g.HasBuiltins) (hp : g.EveryHandler Endpoint.KeepsSessions)
    (ms : List GatewayEvent) (h : SessionTable) :
    (run g ms h).board.isDraining = true ↔ h.board.isDraining = true ∨ .drain ∈ ms := by
  induction ms generalizing h with
  | nil => simp [run]
  | cons m rest ih =>
    show (run g rest (step g m h)).board.isDraining = true ↔ _
    rw [ih, isDraining_change (change_step hg hp m h), List.mem_cons, or_assoc,
      eq_comm (a := m)]

/-- **What a gateway that drains has open.** A gateway drains exactly if it was told to. After that,
a registered connection can be written to only if it was opened later, for an upgrade that had been
promised before: each new connection has used up one of the upgrades that were awaited, and none is
added to them. If none was awaited, no registered connection can be written to. -/
theorem drained {config : Config} (hg : Gateway.builtin config = .ok g) (ms : List GatewayEvent) :
    ((run g ms start).board.isDraining = true ↔ .drain ∈ ms) ∧
      ∀ before after, ms = before ++ .drain :: after →
        let b := (run g before start).board
        let b' := (run g ms start).board
        (∀ id k, b'.registry.get? id = some k → b'.links.isWritable k = true →
          b.links.conns.length ≤ k.slot) ∧
        b'.awaited.Sublist b.awaited ∧
        b'.links.conns.length + b'.awaited.length ≤ b.links.conns.length + b.awaited.length ∧
        (b.awaited = [] →
          ∀ id k, b'.registry.get? id = some k → b'.links.isWritable k = false) := by
  have hops := Gateway.hasBuiltins_of_builtin hg
  have hpaths := Gateway.keepsSessions_of_builtin hg
  refine ⟨?_, ?_⟩
  · rw [isDraining_run hops hpaths]
    exact or_iff_right Bool.false_ne_true
  rintro before after rfl b b'
  have hrun : b' = (run g after (step g .drain (run g before start))).board := by
    show (run g (before ++ .drain :: after) start).board = _
    rw [run_append]
    rfl
  have hdrained : b.beginDrain.WhileDraining b' := by
    have hdraining : (step g .drain (run g before start)).board.isDraining = true := rfl
    rw [hrun]
    exact whileDraining_run hops hpaths after hdraining
  have hlength : b.beginDrain.links.conns.length = b.links.conns.length :=
    (Links.noneReopened_foldl_close _ b.links).length
  have hpromised : b'.links.conns.length + b'.awaited.length ≤
      b.links.conns.length + b.awaited.length := hlength ▸ hdrained.promised
  have hlate : ∀ id k, b'.registry.get? id = some k → b'.links.isWritable k = true →
      b.links.conns.length ≤ k.slot := by
    intro id k hk hw
    rcases hdrained.registered hk with hold | hnew
    · rcases hdrained.writable hw with hopen | hnew
      · -- what was registered at the drain was closed by it
        have hmem : k ∈ b.registry.conns.values :=
          List.mem_map_of_mem (FinMap.get?_eq_some_iff.mp hold)
        have hclosed : b.beginDrain.links.isWritable k = false :=
          Links.isWritable_foldl_close hmem b.links
        rw [hclosed] at hopen
        cases hopen
      · exact hlength ▸ hnew
    · exact hlength ▸ hnew
  refine ⟨hlate, hdrained.awaited, hpromised, ?_⟩
  intro hnone id k hk
  refine Bool.eq_false_iff.mpr fun hw => ?_
  have hslot := hlate id k hk hw
  have hlt : k.slot < b'.links.conns.length := Links.slot_lt_of_isWritable hw
  rw [hnone, List.length_nil] at hpromised
  omega

/-- Of two sessions the one that is open is closed by the drain, and the one that is only promised
is not. -/
theorem drained_two :
    let before := [.upgradeRequest, .complete 0, .upgradeRequest]
    let ms := before ++ .drain :: [.complete 1]
    ∃ g, Gateway.builtin {} = .ok g ∧ (run g ms start).board.isDraining = true ∧
      (∀ id k, (run g ms start).board.registry.get? id = some k →
        (run g ms start).board.links.isWritable k = true →
          (run g before start).board.links.conns.length ≤ k.slot) ∧
      (run g before start).board.links.conns.length = 1 ∧
      (run g ms start).board.registry.conns.values = [⟨0, 1⟩, ⟨1, 2⟩] := by
  intro before ms
  have hrun : (match Gateway.builtin {} with
      | .error _ => none
      | .ok g => some ((run g before start).board.links.conns.length,
          (run g ms start).board.registry.conns.values)) = some (1, [⟨0, 1⟩, ⟨1, 2⟩]) := by
    decide +kernel
  cases hg : Gateway.builtin {} with
  | error e =>
    rw [hg] at hrun
    cases hrun
  | ok g =>
    rw [hg] at hrun
    simp only [Option.some.injEq, Prod.mk.injEq] at hrun
    obtain ⟨hflag, hafter⟩ := drained hg ms
    exact ⟨g, rfl, hflag.mpr (by simp [ms]), (hafter before _ rfl).1, hrun⟩

/-- **A session can slip through.** If its stream arrives after the drain, its connection is
registered and can be written to although the gateway drains. -/
theorem late_session : ∃ g, Gateway.builtin {} = .ok g ∧
    (run g [.upgradeRequest, .drain, .complete 0] start).board.isDraining = true ∧
    (run g [.upgradeRequest, .drain, .complete 0] start).board.registry.get? 1 = some ⟨0, 1⟩ ∧
    (run g [.upgradeRequest, .drain, .complete 0] start).board.links.isWritable ⟨0, 1⟩ = true := by
  have hrun : (match Gateway.builtin {} with
      | .error _ => none
      | .ok g =>
        let b := (run g [.upgradeRequest, .drain, .complete 0] start).board
        some (b.isDraining, b.registry.get? 1, b.links.isWritable ⟨0, 1⟩)) =
      some (true, some ⟨0, 1⟩, true) := by
    decide +kernel
  cases hg : Gateway.builtin {} with
  | error e =>
    rw [hg] at hrun
    cases hrun
  | ok g =>
    rw [hg] at hrun
    simp only [Option.some.injEq, Prod.mk.injEq] at hrun
    exact ⟨g, rfl, hrun⟩

end SessionTable

end WsGateway
