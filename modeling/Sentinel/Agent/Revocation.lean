import Sentinel.Agent.Desk

/-!
# A refused device stays silent

A 4403 close, or a 403 to a heartbeat, is "terminal until an operator acts": the tick does not pump
any more and closes the gate.
-/

open List

namespace Sentinel

open Capture Deed
open Faults (Upholds)
open History (Each)

/-! ## What a refused device must not do -/

def Deed.isActive : Deed → Bool
  | .dialled _ | .sentMedia | .spooled => true
  | _ => false

def Deed.Heeds (past : List Deed) (m : Deed) : Prop := m.isActive = true → .refused ∉ past

namespace Deed

variable {past deeds : List Deed}

theorem heeds_of_unrefused (h : .refused ∉ deeds) : Each Heeds deeds := by
  rintro a m b rfl - hmem
  exact h (mem_append_left _ hmem)

theorem heeds_append (hpast : Each Heeds past) (hnew : Each Heeds deeds)
    (hmay : .refused ∉ past ∨ ∀ m ∈ deeds, m.isActive = false) : Each Heeds (past ++ deeds) := by
  refine hpast.append fun a m b hsplit hactive hmem => ?_
  rcases hmay with hpast' | hquiet
  · rcases mem_append.mp hmem with hp | ha
    · exact hpast' hp
    · exact hnew a m b hsplit hactive ha
  have hm : m.isActive = false := hquiet m (hsplit ▸ by simp)
  cases hm.symm.trans hactive

theorem heeds_append_quiet (hpast : Each Heeds past) (h : ∀ m ∈ deeds, m.isActive = false) :
    Each Heeds (past ++ deeds) := by
  refine heeds_append hpast (fun a m b hsplit hactive => ?_) (.inr h)
  have hm : m.isActive = false := h m (hsplit ▸ by simp)
  cases hm.symm.trans hactive

end Deed

variable {α : Type} {dsp : Dsp α}

/-! ## The deeds of each stage -/

section Deeds

variable {bearer : Option String} {u : Uplink} {now : Nat} {env : Uplink.PumpEnv}
  {incoming : List ServerMessage}

theorem refused_mem_passDeeds (h : .refused ∈ passDeeds bearer u now env incoming) :
    (u.pump now env incoming).outcome.deviceRevoked = true := by
  by_contra hnot
  simp only [passDeeds, hnot, if_false, append_nil, mem_append] at h
  rcases h with h | h <;> split at h <;> simp at h

theorem passDeeds_heeds : Each Heeds (passDeeds bearer u now env incoming) := by
  have hfront : .refused ∉ (if u.dials now env then [dialled bearer] else []) ++
      (if (u.pump now env incoming).out.any ClientFrame.isMedia then [sentMedia] else []) := by
    rw [mem_append]
    rintro (h | h) <;> split at h <;> simp at h
  unfold passDeeds
  rw [← append_assoc]
  refine heeds_append_quiet (heeds_of_unrefused hfront) fun m hm => ?_
  split at hm
  · rw [mem_singleton.mp hm]
    rfl
  · exact absurd hm not_mem_nil

theorem refused_notMem_flushDeeds {f : FlushEnv} (h : ∀ pass ∈ f.passes, .close 4403 ∉ pass.2)
    (clock : Nat) : .refused ∉ flushDeeds bearer f.sliceMs clock f.passes u := by
  intro hmem
  refine flushDeeds_all (Q := fun m => m ≠ .refused) f.sliceMs (fun pass hpass v clock m hm => ?_)
    clock u _ hmem rfl
  rintro rfl
  exact h pass hpass (Uplink.pump_revoked (refused_mem_passDeeds hm))

theorem refused_notMem_spoolDeeds (before after : Recorder α) :
    .refused ∉ spoolDeeds before after := by
  intro h
  obtain ⟨e, -, he⟩ := mem_filterMap.mp h
  cases e <;> simp at he

end Deeds

/-! ## The stages keep a refused device silent -/

namespace Desk

structure Silent (d : Desk dsp) : Prop where
  known : .refused ∈ d.history → d.agent.revoked = true
  gated : d.agent.revoked = true → d.agent.gate.deviceRevoked = true
  heeds : Each Deed.Heeds d.history

variable {d : Desk dsp} {env : Agent.TickEnv α} {f : FlushEnv}

theorem Silent.unrefused (h : d.Silent) (hr : d.agent.revoked = false) : .refused ∉ d.history := by
  intro hmem
  rw [h.known hmem] at hr
  cases hr

theorem Silent.captured [Inhabited α] (h : d.Silent) {a : Agent dsp}
    (ha : Captured d.agent env a) : (d.captured a).Silent := by
  have hspool := refused_notMem_spoolDeeds d.agent.book a.book
  refine ⟨fun hmem => ?_, fun hr => ?_, ?_⟩
  · rcases mem_append.mp hmem with hm | hm
    · exact ha.revoked.trans (h.known hm)
    · exact absurd hm hspool
  · have hrevoked : d.agent.revoked = true := ha.revoked.symm.trans hr
    show a.gate.deviceRevoked = true
    rw [ha.gate]
    exact h.gated hrevoked
  show Each Heeds (d.history ++ spoolDeeds d.agent.book a.book)
  cases hrevoked : d.agent.revoked with
  | false =>
    exact heeds_append h.heeds (heeds_of_unrefused hspool) (.inl (h.unrefused hrevoked))
  | true =>
    -- The gate is closed, so nothing was recorded.
    have hstatus : (d.agent.gate.status env.now).mayCapture = false := by
      unfold IdentityGate.status
      rw [if_pos (h.gated hrevoked)]
      rfl
    rw [ha.book (.inl hstatus)]
    simpa [spoolDeeds] using h.heeds

theorem Silent.pumped (h : d.Silent) (env : Agent.TickEnv α) : (d.pumped env).Silent := by
  rcases d.pumped_cases env with ⟨hrevoked, hd⟩ | ⟨hrevoked, hd⟩
  · rw [hd]
    exact ⟨h.known, fun _ => rfl, h.heeds⟩
  have hunrefused := h.unrefused hrevoked
  refine ⟨fun hmem => ?_, fun hr => hd.gated (hd.revoked ▸ hr), ?_⟩
  · rw [hd.revoked]
    rw [hd.history] at hmem
    rcases mem_append.mp hmem with hm | hverified
    · rcases mem_append.mp hm with hm | hpass
      · exact absurd hm hunrefused
      · exact refused_mem_passDeeds hpass
    · split at hverified <;> simp at hverified
  rw [hd.history]
  refine heeds_append_quiet (heeds_append h.heeds passDeeds_heeds (.inl hunrefused)) fun m hm => ?_
  split at hm
  · rw [mem_singleton.mp hm]
    rfl
  · exact absurd hm not_mem_nil

theorem Silent.heartbeat (h : d.Silent) (env : Agent.TickEnv α) : (d.heartbeat env).Silent := by
  rcases d.heartbeat_cases env with ⟨uid, -, hh, hg, hr⟩ | ⟨-, hh, hg, hr⟩ | ⟨hh, hg, hr⟩
  · refine ⟨fun hmem => ?_, fun hrevoked => ?_, ?_⟩
    · rw [hr]
      exact h.known (by simpa [hh] using hmem)
    · rw [hg]
      exact h.gated (hr ▸ hrevoked)
    rw [hh]
    exact h.heeds.concat fun hactive => by cases hactive
  · refine ⟨fun _ => hr, fun _ => ?_, ?_⟩
    · rw [hg]
      rfl
    rw [hh]
    exact h.heeds.concat fun hactive => by cases hactive
  · exact ⟨by rw [hh, hr]; exact h.known, by rw [hg, hr]; exact h.gated, by rw [hh]; exact h.heeds⟩

theorem Silent.flushed {d' : Desk dsp} {tail : List Deed} (h : d.Silent) (hf : d.Flushed f tail d')
    (hgate : d'.agent.gate.deviceRevoked = d.agent.gate.deviceRevoked)
    (htail : tail = [] ∨ ∃ user, tail = [.signedOut user])
    (hflush : flushDeeds d.token f.sliceMs d.agent.clockMs f.passes d.agent.book.uplink = [] ∨
      d.agent.revoked = false ∧ ∀ pass ∈ f.passes, .close 4403 ∉ pass.2) : d'.Silent := by
  have hquiet : ∀ m ∈ tail, m.isActive = false ∧ m ≠ .refused := by
    rintro m hm
    rcases htail with rfl | ⟨user, rfl⟩
    · exact absurd hm not_mem_nil
    rw [mem_singleton.mp hm]
    exact ⟨rfl, by simp⟩
  have hdeeds : .refused ∉ flushDeeds d.token f.sliceMs d.agent.clockMs f.passes
      d.agent.book.uplink := by
    rcases hflush with hnil | ⟨-, hpasses⟩
    · rw [hnil]
      exact not_mem_nil
    · exact refused_notMem_flushDeeds hpasses _
  have hheeds : Each Heeds (d.history ++
      flushDeeds d.token f.sliceMs d.agent.clockMs f.passes d.agent.book.uplink) := by
    refine heeds_append h.heeds (heeds_of_unrefused hdeeds) ?_
    rcases hflush with hnil | ⟨hrevoked, -⟩
    · rw [hnil]
      exact .inr (forall_mem_nil _)
    · exact .inl (h.unrefused hrevoked)
  refine ⟨fun hmem => ?_, fun hrevoked => ?_, ?_⟩
  · rw [hf.revoked]
    rw [hf.history] at hmem
    rcases mem_append.mp hmem with hm | hm
    · exact h.known hm
    rcases mem_append.mp hm with hm | hm
    · exact absurd hm hdeeds
    · exact absurd rfl (hquiet _ hm).2
  · rw [hgate]
    exact h.gated (hf.revoked ▸ hrevoked)
  rw [hf.history, ← append_assoc]
  exact heeds_append_quiet hheeds fun m hm => (hquiet m hm).1

theorem Silent.signOut (h : d.Silent)
    (hflush : flushDeeds d.token f.sliceMs d.agent.clockMs f.passes d.agent.book.uplink = [] ∨
      d.agent.revoked = false ∧ ∀ pass ∈ f.passes, .close 4403 ∉ pass.2) :
    Upholds Silent Silent (d.signOut f) := by
  refine (d.signOut_spec f).imp (fun d' hd => ?_) fun d' hd => ?_
  · exact h.flushed hd.1 (by rw [hd.2.2]) (.inl rfl) hflush
  · exact h.flushed hd.1 (by rw [hd.2.2]; rfl) (.inr ⟨_, rfl⟩) hflush

/-! ## When sign-outs do no harm -/

def NoFlushRefused (d : Desk dsp) : Event α → Prop
  | .iterate env flushes =>
    (∀ f ∈ flushes, f.passes = []) ∨
    (d.agent.book.uplink.drained = true ∧ env.source.isNone = true) ∨
    (d.agent.revoked = false ∧ .close 4403 ∉ env.incoming ∧ env.heartbeat ≠ .forbidden ∧
      ∀ f ∈ flushes, ∀ pass ∈ f.passes, .close 4403 ∉ pass.2)
  | .signOut f =>
    f.passes = [] ∨ d.agent.book.uplink.drained = true ∨
      (d.agent.revoked = false ∧ ∀ pass ∈ f.passes, .close 4403 ∉ pass.2)
  | _ => True

instance (d : Desk dsp) : ∀ e : Event α, Decidable (d.NoFlushRefused e)
  | .iterate _ _ => inferInstanceAs (Decidable ((∀ _ ∈ _, _) ∨ (_ ∧ _) ∨ (_ ∧ _)))
  | .signOut _ => inferInstanceAs (Decidable (_ ∨ _ ∨ (_ ∧ _)))
  | .signIn _ | .openCapture _ | .sessionState _ | .recordEvent _ => .isTrue trivial

theorem pumped_revoked (hr : d.agent.revoked = false) (hin : .close 4403 ∉ env.incoming) :
    (d.pumped env).agent.revoked = false := by
  rcases d.pumped_cases env with ⟨hrevoked, -⟩ | ⟨-, hd⟩
  · cases hrevoked.symm.trans hr
  rw [hd.revoked]
  exact Bool.eq_false_iff.mpr fun hrevoked => hin (Uplink.pump_revoked hrevoked)

theorem heartbeat_revoked (hr : d.agent.revoked = false) (hreply : env.heartbeat ≠ .forbidden) :
    (d.heartbeat env).agent.revoked = false := by
  rcases d.heartbeat_cases env with ⟨_, -, -, -, h⟩ | ⟨h, -⟩ | ⟨-, -, h⟩
  · rw [h, hr]
  · exact absurd h hreply
  · rw [h, hr]

variable [Inhabited α]

theorem Silent.tick (h : d.Silent) {flushes : List FlushEnv}
    (hflush : d.NoFlushRefused (.iterate env flushes)) : (d.tick env flushes).Silent := by
  rcases hflush with hnone | ⟨hdrained, hsource⟩ | ⟨hrevoked, hin, hreply, hpasses⟩
  · -- No flush pumps.
    refine tick_keeps (fun a ha => h.captured ha) (fun d hd => hd.pumped env)
      (fun d hd => hd.heartbeat env) fun d hd f hf => hd.signOut (.inl ?_)
    rw [hnone f hf]
    rfl
  · -- Nothing is spooled, and nothing will be.
    refine (tick_keeps (I := fun d => d.Silent ∧ d.agent.book.uplink.drained = true)
      (fun a ha => ⟨h.captured ha, ?_⟩) (fun d hd => ⟨hd.1.pumped env, pumped_drained hd.2 env⟩)
      (fun d hd => ⟨hd.1.heartbeat env, ?_⟩) fun d hd f hf => ?_).1
    · show a.book.uplink.drained = true
      rwa [ha.book (.inr (Option.isNone_iff_eq_none.mp hsource))]
    · rw [(d.heartbeat_keeps env).1]
      exact hd.2
    have hsilent := hd.1.signOut (f := f) (.inl (flushDeeds_drained hd.2 _ _ _))
    have hkeeps : ∀ {d' tail}, d.Flushed f tail d' → d'.agent.book.uplink.drained = true := by
      intro d' tail hf
      rw [hf.uplink, Uplink.flush_drained hd.2]
      exact hd.2
    exact hsilent.and ((d.signOut_spec f).imp (fun d' h => hkeeps h.1) fun d' h => hkeeps h.1)
  -- Nothing refuses the device.
  refine (tick_keeps (I := fun d => d.Silent ∧ d.agent.revoked = false)
    (fun a ha => ⟨h.captured ha, ha.revoked.trans hrevoked⟩)
    (fun d hd => ⟨hd.1.pumped env, pumped_revoked hd.2 hin⟩)
    (fun d hd => ⟨hd.1.heartbeat env, heartbeat_revoked hd.2 hreply⟩) fun d hd f hf => ?_).1
  have hsilent := hd.1.signOut (f := f) (.inr ⟨hd.2, hpasses f hf⟩)
  exact hsilent.and ((d.signOut_spec f).imp (fun d' h => h.1.revoked.trans hd.2)
    fun d' h => h.1.revoked.trans hd.2)

theorem Silent.step (h : d.Silent) {e : Event α} (hflush : d.NoFlushRefused e) :
    (d.step e).Silent := by
  cases e with
  | iterate env flushes =>
    have hfresh : d.refreshToken.Silent := ⟨h.known, h.gated, h.heeds⟩
    exact hfresh.tick hflush
  | signIn uid =>
    refine ⟨fun hmem => h.known (by simpa [Desk.step, Desk.signIn] using hmem), h.gated, ?_⟩
    exact h.heeds.concat fun hactive => by cases hactive
  | signOut f =>
    have hsilent : Upholds Silent Silent (d.signOut f) := by
      refine h.signOut ?_
      rcases hflush with hnone | hdrained | hmay
      · rw [hnone]
        exact .inl rfl
      · exact .inl (flushDeeds_drained hdrained _ _ _)
      · exact .inr hmay
    unfold Desk.step
    dsimp only
    split
    all_goals
      rename_i d' hd
      rwa [hd] at hsilent
  | openCapture env =>
    unfold Desk.step Agent.openCapture
    dsimp only
    split <;> exact ⟨h.known, h.gated, h.heeds⟩
  | sessionState | recordEvent => exact ⟨h.known, h.gated, h.heeds⟩

/-- **A refused device stays silent.** -/
theorem silent_of_noFlush (spool : Spool) (policy : Policy) (deviceId : String)
    (es : List (Event α))
    (h : Runs.Along step NoFlushRefused (start spool policy deviceId : Desk dsp) es) :
    Each Deed.Heeds (Runs.run step (start spool policy deviceId : Desk dsp) es).history := by
  have hstart : (start spool policy deviceId : Desk dsp).Silent :=
    ⟨fun hmem => absurd hmem not_mem_nil, fun hr => absurd hr Bool.false_ne_true,
      History.each_nil⟩
  exact (h.invariant hstart fun d e hd he => hd.step he).heeds

def closedRun : List (Event Int) :=
  [.signIn "alice", .iterate { now := 0, incoming := [.close 4403] } [], .iterate { now := 100 } [],
    .signOut {}]

theorem closedRun_is_silent :
    (Runs.run step morning closedRun).history =
        [.signedIn "alice", .dialled (some "alice"), .sentMedia, .refused,
          .signedOut (some "alice")] ∧
      Each Deed.Heeds (Runs.run step morning closedRun).history :=
  ⟨by decide +kernel, silent_of_noFlush leftBehind briskPolicy "pc" closedRun (by decide +kernel)⟩

def refusedRun : List (Event Int) :=
  [.signIn "alice",
    .iterate { now := 0, pump := { connects := false }, heartbeat := .forbidden } [],
    .signOut { passes := [({}, [])] }]

/-- The sign-out opens a connection and sends the segment that is left. -/
theorem refusedRun_sends : ¬ Each Deed.Heeds (Runs.run step morning refusedRun).history := by
  have hhistory : (Runs.run step morning refusedRun).history =
      [.signedIn "alice", .refused, .dialled (some "alice")] ++
        .sentMedia :: [.signedOut (some "alice")] := by decide +kernel
  intro h
  exact h _ _ _ hhistory rfl (by simp)

end Desk

end Sentinel
