import Sentinel.Agent.Desk

/-!
# What the agent reports

Client events are produced by the pipeline, by the uplink and by `record_event`; each tick moves
them into the agent's queue and from there into the heartbeat.
-/

open List Option

namespace Sentinel

open Capture Agent
open Runs (Along run)

variable {α : Type} {dsp : Dsp α}

/-! ## The queues -/

def added (before after : List ClientEvent) : List ClientEvent := after.drop before.length

namespace Agent

def pipelineEvents (a : Agent dsp) : List ClientEvent := (a.pipeline.map (·.events)).getD []

def queued (a : Agent dsp) : List ClientEvent :=
  a.pendingEvents ++ (a.pipelineEvents ++ a.book.uplink.events)

def news (a a' : Agent dsp) : List ClientEvent :=
  added a.pipelineEvents a'.pipelineEvents ++ added a.book.uplink.events a'.book.uplink.events

def heartbeatDue (a : Agent dsp) (now : Nat) : Bool :=
  a.lastHeartbeatMs.all fun last => Tick.heartbeatIntervalMs ≤ now - last

def beats (a : Agent dsp) (now : Nat) : Bool := a.heartbeatDue now && a.auth.isSome

end Agent

/-! ## The ledger -/

structure Ledger (dsp : Dsp α) where
  desk : Desk dsp
  produced : List ClientEvent := []
  carried : List ClientEvent := []
  pumps : List Nat := []
  attempts : List Nat := []

namespace Ledger

def start (u : Uplink) (auth : Option String) (policy : Policy) (deviceId : String) :
    Ledger dsp where
  desk := { agent := .new u auth policy deviceId }
  produced := u.events

def follow (l : Ledger dsp) (d : Desk dsp) : Ledger dsp :=
  { l with desk := d, produced := l.produced ++ l.desk.agent.news d.agent }

def signOut (l : Ledger dsp) (f : FlushEnv) : Except (Ledger dsp) (Ledger dsp) :=
  match l.desk.signOut f with
  | .ok d => .ok (l.follow d)
  | .error d => .error (l.follow d)

def signOuts : List FlushEnv → Ledger dsp → Ledger dsp
  | [], l => l
  | f :: rest, l =>
    match l.signOut f with
    | .error l => l
    | .ok l => signOuts rest l

def pumped (l : Ledger dsp) (env : Agent.TickEnv α) : Ledger dsp :=
  let u := l.desk.agent.book.uplink
  { l with
    desk := l.desk.pumped env
    produced := l.produced ++ if l.desk.agent.revoked then []
      else added u.events (u.pump env.now env.pump env.incoming).up.events
    pumps := l.pumps ++ if l.desk.agent.revoked then [] else [env.now] }

def heartbeat (l : Ledger dsp) (env : Agent.TickEnv α) : Ledger dsp :=
  let beats := l.desk.agent.beats env.now
  { l with
    desk := l.desk.heartbeat env
    carried := l.carried ++ if beats = true ∧ env.heartbeat = .accepted
      then l.desk.agent.pendingEvents else []
    attempts := l.attempts ++ if beats then [env.now] else [] }

variable [Inhabited α]

def tick (l : Ledger dsp) (env : Agent.TickEnv α) (flushes : List FlushEnv) : Ledger dsp :=
  match Desk.capture l.desk.agent env with
  | .error t => l.follow (l.desk.captured t.agent)
  | .ok t =>
    let l := { l with
      desk := l.desk.captured t.collect.agent
      produced := l.produced ++ l.desk.agent.news t.agent }
    let l := (l.pumped env).heartbeat env
    if env.widgetFails then l else l.signOuts flushes

def iterate (l : Ledger dsp) (env : Agent.TickEnv α) (flushes : List FlushEnv) : Ledger dsp :=
  { l with desk := l.desk.refreshToken }.tick env flushes

inductive Event (α : Type) where
  | desk (e : Desk.Event α)
  | auth (user : Option String)

def step (l : Ledger dsp) : Event α → Ledger dsp
  | .desk (.iterate env flushes) => l.iterate env flushes
  | .desk (.signOut f) =>
    match l.signOut f with
    | .ok l | .error l => l
  | .desk (.openCapture env) =>
    let opened := (Pipeline.new l.desk.agent.policy env.tier l.desk.agent.deviceId env.userUid :
      Pipeline dsp).openPinned ⟨l.desk.agent.policy, env.devices, env.budget⟩
    { l with
      desk := l.desk.step (.openCapture env)
      produced := l.produced ++ opened.1.events }
  | .desk (.recordEvent ev) =>
    { l with desk := l.desk.step (.recordEvent ev), produced := l.produced ++ [ev] }
  | .desk e => l.follow (l.desk.step e)
  | .auth user => { l with desk := { l.desk with agent := { l.desk.agent with auth := user } } }

/-! ## The ledger follows the desk -/

omit [Inhabited α] in
theorem signOuts_desk (flushes : List FlushEnv) (l : Ledger dsp) :
    (l.signOuts flushes).desk = l.desk.signOuts flushes := by
  induction flushes generalizing l with
  | nil => rfl
  | cons f rest ih =>
    unfold signOuts Desk.signOuts signOut
    cases l.desk.signOut f with
    | error d => rfl
    | ok d => exact ih _

theorem step_desk (l : Ledger dsp) (e : Desk.Event α) :
    (l.step (.desk e)).desk = l.desk.step e := by
  cases e with
  | iterate env flushes =>
    change (Ledger.tick _ env flushes).desk = l.desk.refreshToken.tick env flushes
    unfold tick Desk.tick
    cases Desk.capture l.desk.refreshToken.agent env with
    | error t => rfl
    | ok t =>
      dsimp only
      split
      · rfl
      · exact signOuts_desk flushes _
  | signOut f =>
    simp only [step, Desk.step, signOut]
    cases l.desk.signOut f <;> rfl
  | _ => rfl

/-! ## The balance -/

def Balanced (l : Ledger dsp) : Prop := l.produced.Perm (l.carried ++ l.desk.agent.queued)

instance (l : Ledger dsp) : Decidable l.Balanced := inferInstanceAs (Decidable (List.Perm _ _))

omit [Inhabited α] in
theorem balanced_iff {l : Ledger dsp} : l.Balanced ↔ ∀ ev, l.produced.count ev =
    l.carried.count ev + (l.desk.agent.pendingEvents.count ev +
      (l.desk.agent.pipelineEvents.count ev + l.desk.agent.book.uplink.events.count ev)) := by
  rw [Balanced, perm_iff_count]
  simp only [queued, count_append]

structure Settled (l : Ledger dsp) : Prop where
  balanced : l.Balanced
  present : l.desk.agent.gate.pinnedDevicePresent = false
  empty : l.desk.agent.pipelineEvents = []

def Unrefused (l : Ledger dsp) : Event α → Prop
  | .desk (.iterate env _) =>
    ¬ (l.desk.agent.beats env.now = true ∧ env.heartbeat = .forbidden)
  | _ => True

instance (l : Ledger dsp) (e : Event α) : Decidable (l.Unrefused e) :=
  match e with
  | .desk (.iterate _ _) => inferInstanceAs (Decidable (¬ _))
  | .desk (.signIn _) | .desk (.signOut _) | .desk (.openCapture _) | .desk (.sessionState _)
  | .desk (.recordEvent _) | .auth _ => .isTrue trivial

end Ledger

/-! ## What each part does to the queues -/

theorem count_added {before after : List ClientEvent} (h : before <+: after) (ev : ClientEvent) :
    after.count ev = before.count ev + (added before after).count ev := by
  obtain ⟨new, rfl⟩ := h
  rw [added, drop_left, count_append]

theorem Uplink.flush_events (sliceMs clock : Nat) (passes : List FlushPass) (u : Uplink) :
    u.events <+: (u.flush sliceMs clock passes).events := by
  induction passes generalizing clock u with
  | nil => exact prefix_refl _
  | cons pass rest ih =>
    unfold flush
    split
    · exact prefix_refl _
    · exact (u.pump_events clock pass.1 pass.2).trans (ih _ _)

namespace Agent

theorem pipelineEvents_map {a a' : Agent dsp} {f : Pipeline dsp → Pipeline dsp}
    (h : a'.pipeline = a.pipeline.map f) (hf : ∀ p, (f p).events = p.events) :
    a'.pipelineEvents = a.pipelineEvents := by
  unfold pipelineEvents
  rw [h, Option.map_map]
  cases a.pipeline with
  | none => rfl
  | some p => exact hf p

theorem openPinned_events (policy policy' : Policy) (tier : CaptureTier) (deviceId uid : String)
    (devices : List AudioDevice) (budget : Faults.Budget)
    (h : ((Pipeline.new policy tier deviceId uid : Pipeline dsp).openPinned
      ⟨policy', devices, budget⟩).2 = true) :
    ((Pipeline.new policy tier deviceId uid : Pipeline dsp).openPinned
      ⟨policy', devices, budget⟩).1.events = [] := by
  unfold Pipeline.openPinned at h ⊢
  split at h
  · cases h
  split at h
  · rename_i hpresent
    rw [if_pos hpresent]
    split at h
    · cases h
    unfold Pipeline.openPipes at h ⊢
    split at h
    · cases h
    split at h
    · cases h
    · rfl
  · cases h

end Agent

namespace Desk

variable [Inhabited α]

theorem capture_idle {a : Agent dsp} (h : a.gate.pinnedDevicePresent = false) (env : TickEnv α) :
    capture a env = .ok { agent := { a with
      clockMs := env.now
      pipeline := a.pipeline.map (gatePipeline (a.gate.status env.now)) } } := by
  have hmay : (a.gate.status env.now).mayCapture = false := by
    rw [← Bool.not_eq_true, IdentityGate.mayCapture_status_iff, h]
    simp
  unfold capture Tick.capture
  dsimp only
  split
  · rename_i hmay' _ _
    cases hmay.symm.trans hmay'
  · rfl

end Desk

namespace Ledger

variable {l : Ledger dsp} {env : Agent.TickEnv α}

theorem Settled.of_desk (h : l.Settled) {l' : Ledger dsp} (hbalanced : l'.Balanced)
    (hpresent : l'.desk.agent.gate.pinnedDevicePresent = l.desk.agent.gate.pinnedDevicePresent)
    (hempty : l'.desk.agent.pipelineEvents = l.desk.agent.pipelineEvents) : l'.Settled :=
  ⟨hbalanced, hpresent.trans h.present, hempty.trans h.empty⟩

theorem Settled.follow (h : l.Settled) {d : Desk dsp}
    (hpending : d.agent.pendingEvents = l.desk.agent.pendingEvents)
    (hpresent : d.agent.gate.pinnedDevicePresent = l.desk.agent.gate.pinnedDevicePresent)
    (hempty : d.agent.pipelineEvents = l.desk.agent.pipelineEvents)
    (huplink : l.desk.agent.book.uplink.events <+: d.agent.book.uplink.events) :
    (l.follow d).Settled := by
  refine h.of_desk (balanced_iff.mpr fun ev => ?_) hpresent hempty
  have hbefore := balanced_iff.mp h.balanced ev
  have hcount := count_added huplink ev
  have hnone : added l.desk.agent.pipelineEvents d.agent.pipelineEvents = [] := by
    rw [hempty, added, drop_length]
  simp only [Ledger.follow, news, hnone, nil_append, count_append]
  rw [hpending, hempty]
  omega

theorem Settled.signOut (h : l.Settled) (f : FlushEnv) :
    Faults.Upholds Settled Settled (l.signOut f) := by
  have hflush := Uplink.flush_events f.sliceMs l.desk.agent.clockMs f.passes
    l.desk.agent.book.uplink
  unfold Ledger.signOut Desk.signOut Agent.signOut
  cases f.clears with
  | false => exact h.follow rfl rfl rfl hflush
  | true => exact h.follow rfl rfl (pipelineEvents_map rfl fun p => rfl) hflush

theorem Settled.signOuts (h : l.Settled) (flushes : List FlushEnv) :
    (l.signOuts flushes).Settled := by
  induction flushes generalizing l with
  | nil => exact h
  | cons f rest ih =>
    have hf := h.signOut f
    unfold Ledger.signOuts
    split <;> rename_i hl <;> rw [hl] at hf
    · exact hf
    · exact ih hf

theorem Settled.pumped (h : l.Settled) (env : TickEnv α) : (l.pumped env).Settled := by
  have hbefore := balanced_iff.mp h.balanced
  have hpump := l.desk.agent.book.uplink.pump_events env.now env.pump env.incoming
  have hpresent := (Tick.pump_keeps { agent := l.desk.agent } env).present
  refine h.of_desk (balanced_iff.mpr fun ev => ?_) hpresent ?_
  · unfold Ledger.pumped Desk.pumped Tick.pump
    have hstart := hbefore ev
    split
    · rwa [append_nil]
    have hcount := count_added hpump ev
    simp only [pipelineEvents, count_append, count_nil] at hstart ⊢
    omega
  unfold Ledger.pumped Desk.pumped Tick.pump
  split <;> rfl

theorem heartbeat_agent (l : Ledger dsp) (env : TickEnv α) :
    (l.heartbeat env).desk.agent.pendingEvents =
        (if l.desk.agent.beats env.now = true ∧ env.heartbeat ≠ .failed then []
        else l.desk.agent.pendingEvents) ∧
      (l.heartbeat env).desk.agent.pipeline = l.desk.agent.pipeline ∧
      (l.heartbeat env).desk.agent.book = l.desk.agent.book := by
  unfold Ledger.heartbeat Desk.heartbeat Tick.heartbeat Tick.sendHeartbeat beats heartbeatDue
  cases l.desk.agent.lastHeartbeatMs.all fun last =>
    Tick.heartbeatIntervalMs ≤ env.now - last with
  | false => exact ⟨by simp, rfl, rfl⟩
  | true =>
    cases l.desk.agent.auth with
    | none => exact ⟨by simp, rfl, rfl⟩
    | some uid => cases env.heartbeat <;> exact ⟨by simp, rfl, rfl⟩

theorem Settled.heartbeat (h : l.Settled)
    (hok : ¬ (l.desk.agent.beats env.now = true ∧ env.heartbeat = .forbidden)) :
    (l.heartbeat env).Settled := by
  obtain ⟨hpending, hpipeline, hbook⟩ := l.heartbeat_agent env
  have hpresent := (Tick.heartbeat_keeps { agent := l.desk.agent } env).present
  have hempty : (l.heartbeat env).desk.agent.pipelineEvents = l.desk.agent.pipelineEvents := by
    rw [pipelineEvents, hpipeline, ← pipelineEvents]
  refine h.of_desk (balanced_iff.mpr fun ev => ?_) hpresent hempty
  have hbefore := balanced_iff.mp h.balanced ev
  rw [hpending, hempty, hbook]
  simp only [Ledger.heartbeat, count_append]
  cases hbeats : l.desk.agent.beats env.now with
  | false => simpa using hbefore
  | true =>
    cases hreply : env.heartbeat with
    | accepted =>
      simp only [ne_eq, reduceCtorEq, not_false_eq_true, and_self, if_true, count_nil]
      omega
    | forbidden => exact absurd ⟨hbeats, hreply⟩ hok
    | failed => simpa using hbefore

theorem heartbeat_forbidden_loses (h : l.Balanced) (hbeats : l.desk.agent.beats env.now = true)
    (hreply : env.heartbeat = .forbidden) (hpending : l.desk.agent.pendingEvents ≠ []) :
    ¬ (l.heartbeat env).Balanced := by
  intro hafter
  obtain ⟨ev, hev⟩ := exists_mem_of_ne_nil _ hpending
  obtain ⟨hgone, hpipeline, hbook⟩ := l.heartbeat_agent env
  have hbefore := balanced_iff.mp h ev
  have hcount := balanced_iff.mp hafter ev
  rw [hgone, pipelineEvents, hpipeline, ← pipelineEvents, hbook] at hcount
  simp [Ledger.heartbeat, hbeats, hreply] at hcount
  have hpos := count_pos_iff.mpr hev
  omega

theorem pumped_beats (l : Ledger dsp) (env : TickEnv α) :
    (l.pumped env).desk.agent.beats env.now = l.desk.agent.beats env.now := by
  unfold Ledger.pumped Desk.pumped Tick.pump beats heartbeatDue
  split <;> rfl

variable [Inhabited α]

theorem tick_idle (h : l.desk.agent.gate.pinnedDevicePresent = false) (env : TickEnv α)
    (flushes : List FlushEnv) :
    ∃ a : Agent dsp, a.pendingEvents = l.desk.agent.pendingEvents ++ l.desk.agent.pipelineEvents ∧
      a.pipelineEvents = [] ∧ a.book = l.desk.agent.book ∧ a.gate = l.desk.agent.gate ∧
      a.revoked = l.desk.agent.revoked ∧
      ({ l with desk := l.desk.captured a }.pumped env).desk.agent.beats env.now =
        l.desk.agent.beats env.now ∧
      l.tick env flushes = let l' := ({ l with desk := l.desk.captured a }.pumped env).heartbeat env
        if env.widgetFails then l' else l'.signOuts flushes := by
  set t : Tick dsp := { agent := { l.desk.agent with
    clockMs := env.now
    pipeline := l.desk.agent.pipeline.map
      (gatePipeline (l.desk.agent.gate.status env.now)) } } with ht
  have hcapture : Desk.capture l.desk.agent env = .ok t := Desk.capture_idle h env
  have hevents : t.agent.pipelineEvents = l.desk.agent.pipelineEvents :=
    pipelineEvents_map rfl fun p => by unfold gatePipeline; split <;> split <;> rfl
  have hnews : l.desk.agent.news t.agent = [] := by
    rw [news, hevents, ht]
    simp [added]
  refine ⟨t.collect.agent, ?_, ?_, rfl, rfl, rfl, pumped_beats _ env, ?_⟩
  · change l.desk.agent.pendingEvents ++ t.agent.pipelineEvents = _
    rw [hevents]
  · unfold pipelineEvents Tick.collect
    cases t.agent.pipeline <;> rfl
  unfold tick
  rw [hcapture]
  dsimp only
  rw [hnews, append_nil]

theorem Settled.tick (h : l.Settled) {flushes : List FlushEnv}
    (hok : ¬ (l.desk.agent.beats env.now = true ∧ env.heartbeat = .forbidden)) :
    (l.tick env flushes).Settled := by
  obtain ⟨a, hpending, hempty, hbook, hgate, -, hbeats, htick⟩ := tick_idle h.present env flushes
  have hcaptured : Settled { l with desk := l.desk.captured a } := by
    refine ⟨balanced_iff.mpr fun ev => ?_, ?_, hempty⟩
    · have hbefore := balanced_iff.mp h.balanced ev
      rw [h.empty] at hbefore
      change l.produced.count ev = l.carried.count ev + (a.pendingEvents.count ev +
        (a.pipelineEvents.count ev + a.book.uplink.events.count ev))
      rwa [hpending, hempty, hbook, h.empty, append_nil]
    change a.gate.pinnedDevicePresent = false
    rw [hgate]
    exact h.present
  have hbeaten := (hcaptured.pumped env).heartbeat (by rwa [hbeats])
  rw [htick]
  split
  · exact hbeaten
  · exact hbeaten.signOuts flushes

theorem Settled.step (h : l.Settled) {e : Event α} (he : l.Unrefused e) : (l.step e).Settled := by
  cases e with
  | auth user => exact ⟨h.balanced, h.present, h.empty⟩
  | desk e =>
    cases e with
    | iterate env flushes =>
      have hrefreshed : Settled { l with desk := l.desk.refreshToken } :=
        ⟨h.balanced, h.present, h.empty⟩
      exact hrefreshed.tick he
    | signIn | sessionState =>
      exact h.follow rfl rfl (pipelineEvents_map rfl fun p => rfl) (prefix_refl _)
    | signOut f =>
      have hf := h.signOut f
      simp only [Ledger.step]
      split <;> rename_i hl <;> rw [hl] at hf <;> exact hf
    | openCapture env =>
      have hbefore := balanced_iff.mp h.balanced
      simp only [h.empty, count_nil] at hbefore
      simp only [Ledger.step, Desk.step, openCapture]
      split
      · rename_i hopened
        have hnone := openPinned_events _ _ _ _ _ _ _ hopened
        refine ⟨balanced_iff.mpr fun ev => ?_, h.present, hnone⟩
        have hev := hbefore ev
        simp only [pipelineEvents, map_some, getD_some, hnone, append_nil, count_nil]
        omega
      refine ⟨balanced_iff.mpr fun ev => ?_, h.present, rfl⟩
      have hev := hbefore ev
      simp only [pipelineEvents, map_none, getD_none, count_append, count_nil]
      omega
    | recordEvent ev =>
      refine h.of_desk (balanced_iff.mpr fun ev' => ?_) rfl rfl
      have hbefore := balanced_iff.mp h.balanced ev'
      change (l.produced ++ [ev]).count ev' = l.carried.count ev' +
        ((l.desk.agent.pendingEvents ++ [ev]).count ev' + (l.desk.agent.pipelineEvents.count ev' +
          l.desk.agent.book.uplink.events.count ev'))
      rw [count_append, count_append]
      omega

omit [Inhabited α] in
theorem settled_start (u : Uplink) (auth : Option String) (policy : Policy) (deviceId : String) :
    (start u auth policy deviceId : Ledger dsp).Settled where
  balanced := Perm.refl _
  present := rfl
  empty := rfl

/-- **No event is lost but to a 403.** -/
theorem balanced_of_unrefused (u : Uplink) (auth : Option String) (policy : Policy)
    (deviceId : String) (es : List (Event α))
    (h : Along step Unrefused (start u auth policy deviceId : Ledger dsp) es) :
    (run step (start u auth policy deviceId : Ledger dsp) es).Balanced :=
  (h.invariant (settled_start u auth policy deviceId) fun _ _ hl he => hl.step he).balanced

/-! ### A missing spool key -/

def keyMissing : ClientEvent := { kind := .captureError, atMs := 0, detail := some "spool_key" }

def keyRun (reply : Agent.HeartbeatReply) : List (Event Int) :=
  [.desk (.recordEvent keyMissing), .desk (.signIn "alice"),
    .desk (.iterate { now := 0, heartbeat := reply } [])]

def keyless : Ledger (thresholdDsp fun a : Int => a ≠ 0) :=
  start (.new {}) none briskPolicy "device-1"

/-- A heartbeat that fails keeps the event. -/
theorem keyRun_failed_balanced : (run step keyless (keyRun .failed)).Balanced ∧
    keyMissing ∈ (run step keyless (keyRun .failed)).desk.agent.pendingEvents :=
  ⟨balanced_of_unrefused _ _ _ _ (keyRun .failed) (by decide +kernel), by decide +kernel⟩

/-- A 403 loses it. -/
theorem keyRun_forbidden_not_balanced : ¬ (run step keyless (keyRun .forbidden)).Balanced := by
  decide +kernel

/-! ## Ticks that are heard -/

def Heard (l : Ledger dsp) (env : Agent.TickEnv α) (flushes : List FlushEnv) : Prop :=
  (l.iterate env flushes).pumps =
      l.pumps ++ (if l.desk.agent.revoked then [] else [env.now]) ∧
    (l.iterate env flushes).attempts =
      l.attempts ++ (if l.desk.agent.heartbeatDue env.now && l.desk.agent.auth.isSome then [env.now]
        else [])

theorem tick_of_capture_error {t : Tick dsp} {flushes : List FlushEnv}
    (h : Desk.capture l.desk.agent env = .error t) :
    (l.tick env flushes).pumps = l.pumps ∧ (l.tick env flushes).attempts = l.attempts := by
  unfold tick
  rw [h]
  exact ⟨rfl, rfl⟩

omit [Inhabited α] in
theorem signOuts_notes (flushes : List FlushEnv) (l : Ledger dsp) :
    (l.signOuts flushes).pumps = l.pumps ∧ (l.signOuts flushes).attempts = l.attempts := by
  induction flushes generalizing l with
  | nil => exact ⟨rfl, rfl⟩
  | cons f rest ih =>
    unfold signOuts signOut
    cases l.desk.signOut f with
    | error d => exact ⟨rfl, rfl⟩
    | ok d => exact ih (l.follow d)

theorem tick_notes (h : l.desk.agent.gate.pinnedDevicePresent = false) (env : TickEnv α)
    (flushes : List FlushEnv) :
    (l.tick env flushes).pumps = l.pumps ++ (if l.desk.agent.revoked then [] else [env.now]) ∧
      (l.tick env flushes).attempts =
        l.attempts ++ (if l.desk.agent.beats env.now then [env.now] else []) := by
  obtain ⟨a, -, -, -, -, hrevoked, hbeats, htick⟩ := tick_idle h env flushes
  have hstages : (({ l with desk := l.desk.captured a }.pumped env).heartbeat env).pumps =
        l.pumps ++ (if l.desk.agent.revoked then [] else [env.now]) ∧
      (({ l with desk := l.desk.captured a }.pumped env).heartbeat env).attempts =
        l.attempts ++ (if l.desk.agent.beats env.now then [env.now] else []) := by
    rw [← hbeats, ← hrevoked]
    exact ⟨rfl, rfl⟩
  rw [htick]
  split
  · exact hstages
  · rwa [(signOuts_notes _ _).1, (signOuts_notes _ _).2]

theorem step_present (l : Ledger dsp) (e : Event α) :
    (l.step e).desk.agent.gate.pinnedDevicePresent =
      l.desk.agent.gate.pinnedDevicePresent := by
  cases e with
  | auth user => rfl
  | desk e =>
    rw [step_desk]
    cases e with
    | iterate env flushes =>
      obtain ⟨envs, hagent⟩ := l.desk.iterate_agent env flushes
      change (l.desk.iterate env flushes).agent.gate.pinnedDevicePresent = _
      rw [hagent]
      exact (l.desk.agent.ticked_spec { env with signOuts := envs }).2
    | signOut f =>
      simp only [Desk.step]
      rcases l.desk.signOut_cases f with ⟨a, ha, hd⟩ | ⟨a, ha, hd⟩
      · rw [hd]
        exact signOut_present _ _ (.inl ha)
      rw [hd]
      exact signOut_present _ _ (.inr ha)
    | openCapture env => exact Agent.step_present l.desk.agent (.openCapture env)
    | _ => rfl

/-- **Capture does not silence the agent.** -/
theorem tick_is_heard (u : Uplink) (auth : Option String) (policy : Policy) (deviceId : String)
    (es : List (Event α)) (env : Agent.TickEnv α) (flushes : List FlushEnv) :
    (run step (start u auth policy deviceId : Ledger dsp) es).Heard env flushes := by
  set l := run step (start u auth policy deviceId : Ledger dsp) es with hl
  have hpresent : l.desk.agent.gate.pinnedDevicePresent = false :=
    Runs.run_invariant (I := fun l : Ledger dsp => l.desk.agent.gate.pinnedDevicePresent = false)
      rfl (fun l e h => (l.step_present e).trans h) es
  exact tick_notes (l := { l with desk := l.desk.refreshToken }) hpresent env flushes

end Ledger

end Sentinel
