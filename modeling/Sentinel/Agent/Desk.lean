import Sentinel.Agent.Agent
import Sentinel.Capture.Waiting
import Sentinel.Client.Turns
import Sentinel.Client.Pump

/-!
# The agent at a desk

Each iteration of the process (`main.rs`) copies the ID token of the signed-in user into a cell,
which is read whenever a connection is opened, and ticks the agent. A sign-out first drains the
spool.
-/

open List

namespace Sentinel

open Capture Agent

/-! ## Draining the spool -/

namespace Uplink

abbrev FlushPass := PumpEnv × List ServerMessage

def drained (u : Uplink) : Bool := u.spool.segments.rows.isEmpty

def flush (sliceMs : Nat) : Nat → List FlushPass → Uplink → Uplink
  | _, [], u => u
  | clock, pass :: rest, u =>
    if u.drained then u
    else flush sliceMs (saturatingAdd clock sliceMs) rest (u.pump clock pass.1 pass.2).up

end Uplink

/-! ## What is remembered -/

inductive Deed where
  | signedIn (uid : String)
  | signedOut (uid : Option String)
  | dialled (bearer : Option String)
  | sentMedia
  | spooled
  | refused
  | verifiedByIngest
  | verifiedByHeartbeat (uid : String)
  deriving DecidableEq, Repr

def ClientFrame.isMedia : ClientFrame → Bool
  | .media _ => true
  | _ => false

def passDeeds (bearer : Option String) (u : Uplink) (now : Nat) (env : Uplink.PumpEnv)
    (incoming : List ServerMessage) : List Deed :=
  let r := u.pump now env incoming
  (if u.dials now env then [.dialled bearer] else []) ++
    ((if r.out.any ClientFrame.isMedia then [.sentMedia] else []) ++
      if r.outcome.deviceRevoked then [.refused] else [])

def flushDeeds (bearer : Option String) (sliceMs : Nat) :
    Nat → List Uplink.FlushPass → Uplink → List Deed
  | _, [], _ => []
  | clock, pass :: rest, u =>
    if u.drained then []
    else passDeeds bearer u clock pass.1 pass.2 ++
      flushDeeds bearer sliceMs (saturatingAdd clock sliceMs) rest (u.pump clock pass.1 pass.2).up

variable {α : Type} {dsp : Dsp α}

def spoolDeeds (before after : Recorder α) : List Deed :=
  (after.log.drop before.log.length).filterMap fun
    | .spooled _ _ => some .spooled
    | _ => none

def pumpDeeds (bearer : Option String) (a : Agent dsp) (env : Agent.TickEnv α) : List Deed :=
  if a.revoked then []
  else
    passDeeds bearer a.book.uplink env.now env.pump env.incoming ++
      if (a.book.uplink.pump env.now env.pump env.incoming).outcome.verified then
        [.verifiedByIngest] else []

def heartbeatDeeds (a : Agent dsp) (env : Agent.TickEnv α) : List Deed :=
  let due : Bool := a.lastHeartbeatMs.all fun last =>
    Agent.Tick.heartbeatIntervalMs ≤ env.now - last
  match due, a.auth, env.heartbeat with
  | true, some uid, .accepted => [.verifiedByHeartbeat uid]
  | true, some _, .forbidden => [.refused]
  | _, _, _ => []

/-! ## The desk -/

structure FlushEnv where
  passes : List Uplink.FlushPass := []
  sliceMs : Nat := 50
  clears : Bool := true

structure Desk (dsp : Dsp α) where
  agent : Agent dsp
  token : Option String := none
  history : List Deed := []

namespace Desk

def start (spool : Spool) (policy : Policy) (deviceId : String) : Desk dsp :=
  { agent := .new (.new spool) none policy deviceId }

def signIn (d : Desk dsp) (uid : String) : Desk dsp where
  agent := { d.agent with auth := some uid }.onSignedIn uid
  token := some uid
  history := d.history ++ [.signedIn uid]

def signOut (d : Desk dsp) (env : FlushEnv) : Except (Desk dsp) (Desk dsp) :=
  let u := d.agent.book.uplink
  let flushed := u.flush env.sliceMs d.agent.clockMs env.passes
  let deeds := flushDeeds d.token env.sliceMs d.agent.clockMs env.passes u
  match d.agent.signOut ⟨flushed, env.clears⟩ with
  | .ok a => .ok { d with agent := a, history := d.history ++ deeds ++ [.signedOut d.agent.auth] }
  | .error a => .error { d with agent := a, history := d.history ++ deeds }

def signOuts : List FlushEnv → Desk dsp → Desk dsp
  | [], d => d
  | env :: rest, d =>
    match d.signOut env with
    | .error d => d
    | .ok d => signOuts rest d

variable [Inhabited α]

def capture (a : Agent dsp) (env : Agent.TickEnv α) : Except (Agent.Tick dsp) (Agent.Tick dsp) :=
  let a := { a with clockMs := env.now }
  let status := a.gate.status env.now
  Agent.Tick.capture { agent := { a with pipeline := a.pipeline.map (Agent.gatePipeline status) } }
    env status

def captured (d : Desk dsp) (a : Agent dsp) : Desk dsp :=
  { d with agent := a, history := d.history ++ spoolDeeds d.agent.book a.book }

def pumped (d : Desk dsp) (env : Agent.TickEnv α) : Desk dsp :=
  { d with
    agent := (Agent.Tick.pump { agent := d.agent } env).agent
    history := d.history ++ pumpDeeds d.token d.agent env }

def heartbeat (d : Desk dsp) (env : Agent.TickEnv α) : Desk dsp :=
  { d with
    agent := (Agent.Tick.heartbeat { agent := d.agent } env).agent
    history := d.history ++ heartbeatDeeds d.agent env }

def tick (d : Desk dsp) (env : Agent.TickEnv α) (flushes : List FlushEnv) : Desk dsp :=
  match capture d.agent env with
  | .error t => d.captured t.agent
  | .ok t =>
    let d := ((d.captured t.collect.agent).pumped env).heartbeat env
    if env.widgetFails then d else d.signOuts flushes

def refreshToken (d : Desk dsp) : Desk dsp := { d with token := d.agent.auth.or d.token }

def iterate (d : Desk dsp) (env : Agent.TickEnv α) (flushes : List FlushEnv) : Desk dsp :=
  d.refreshToken.tick env flushes

inductive Event (α : Type) where
  | iterate (env : Agent.TickEnv α) (flushes : List FlushEnv)
  | signIn (uid : String)
  | signOut (env : FlushEnv)
  | openCapture (env : Agent.OpenEnv)
  | sessionState (active : Bool)
  | recordEvent (ev : ClientEvent)

def step (d : Desk dsp) : Event α → Desk dsp
  | .iterate env flushes => d.iterate env flushes
  | .signIn uid => d.signIn uid
  | .signOut env =>
    match d.signOut env with
    | .ok d | .error d => d
  | .openCapture env => { d with agent := d.agent.openCapture env }
  | .sessionState active => { d with agent := d.agent.onSessionState active }
  | .recordEvent ev =>
    { d with agent := { d.agent with pendingEvents := d.agent.pendingEvents ++ [ev] } }

/-! ## An iteration is a tick -/

omit [Inhabited α] in
theorem signOut_cases (d : Desk dsp) (env : FlushEnv) :
    (∃ a, d.agent.signOut ⟨d.agent.book.uplink.flush env.sliceMs d.agent.clockMs env.passes,
        env.clears⟩ = .ok a ∧
      d.signOut env = .ok { d with
        agent := a
        history := d.history ++ flushDeeds d.token env.sliceMs d.agent.clockMs env.passes
          d.agent.book.uplink ++ [.signedOut d.agent.auth] }) ∨
    ∃ a, d.agent.signOut ⟨d.agent.book.uplink.flush env.sliceMs d.agent.clockMs env.passes,
        env.clears⟩ = .error a ∧
      d.signOut env = .error { d with
        agent := a
        history := d.history ++ flushDeeds d.token env.sliceMs d.agent.clockMs env.passes
          d.agent.book.uplink } := by
  unfold signOut
  dsimp only
  cases d.agent.signOut ⟨d.agent.book.uplink.flush env.sliceMs d.agent.clockMs env.passes,
    env.clears⟩ with
  | ok a => exact .inl ⟨a, rfl, rfl⟩
  | error a => exact .inr ⟨a, rfl, rfl⟩

omit [Inhabited α] in
theorem signOuts_agent (flushes : List FlushEnv) (d : Desk dsp) (t : Tick dsp)
    (ht : t.agent = d.agent) :
    ∃ envs, (d.signOuts flushes).agent = (Tick.either (t.signOuts envs)).agent := by
  induction flushes generalizing d t with
  | nil => exact ⟨[], ht.symm⟩
  | cons env rest ih =>
    rcases d.signOut_cases env with ⟨a, ha, hd⟩ | ⟨a, ha, hd⟩
    · obtain ⟨envs, he⟩ := ih { d with
          agent := a
          history := d.history ++ flushDeeds d.token env.sliceMs d.agent.clockMs env.passes
            d.agent.book.uplink ++ [.signedOut d.agent.auth] }
        { t with agent := a, result := { t.result with signedOut := true } } rfl
      refine ⟨⟨d.agent.book.uplink.flush env.sliceMs d.agent.clockMs env.passes, env.clears⟩ ::
        envs, ?_⟩
      rwa [signOuts, hd, Tick.signOuts, ht, ha]
    refine ⟨[⟨d.agent.book.uplink.flush env.sliceMs d.agent.clockMs env.passes, env.clears⟩], ?_⟩
    rw [signOuts, hd, Tick.signOuts, ht, ha]
    rfl

omit [Inhabited α] in
theorem pump_agent (t : Tick dsp) (env : TickEnv α) :
    (t.pump env).agent = (Tick.pump { agent := t.agent } env).agent := by
  unfold Tick.pump
  split <;> rfl

omit [Inhabited α] in
theorem heartbeat_agent (t : Tick dsp) (env : TickEnv α) :
    (t.heartbeat env).agent = (Tick.heartbeat { agent := t.agent } env).agent := by
  unfold Tick.heartbeat Tick.sendHeartbeat
  dsimp only
  split
  · split
    · rfl
    · split <;> rfl
  · rfl

theorem iterate_agent (d : Desk dsp) (env : TickEnv α) (flushes : List FlushEnv) :
    ∃ envs, (d.iterate env flushes).agent =
      (d.agent.ticked { env with signOuts := envs }).agent := by
  have hcapture : ∀ envs, d.agent.tick { env with signOuts := envs } =
      (capture d.agent env).bind fun t =>
        ((t.collect.pump env).heartbeat env).widget { env with signOuts := envs } :=
    fun envs => rfl
  unfold iterate tick ticked
  rw [show d.refreshToken.agent = d.agent from rfl]
  cases hc : capture d.agent env with
  | error t =>
    refine ⟨[], ?_⟩
    rw [hcapture, hc]
    rfl
  | ok t =>
    have hagent : (((d.refreshToken.captured t.collect.agent).pumped env).heartbeat env).agent =
        ((t.collect.pump env).heartbeat env).agent := by
      rw [heartbeat_agent, pump_agent]
      rfl
    dsimp only
    by_cases hfails : env.widgetFails = true
    · refine ⟨[], ?_⟩
      rw [if_pos hfails, hcapture, hc]
      simp only [Except.bind, Tick.widget, hfails]
      exact hagent
    rw [if_neg hfails]
    obtain ⟨envs, he⟩ := signOuts_agent flushes
      (((d.refreshToken.captured t.collect.agent).pumped env).heartbeat env)
      ((t.collect.pump env).heartbeat env) hagent.symm
    refine ⟨envs, ?_⟩
    rw [hcapture, hc]
    simp only [Except.bind, Tick.widget, hfails]
    exact he

end Desk

/-! ## What capture leaves alone -/

namespace Capture.Work

open Faults (Upholds)

def plugLaw (b : Bool) : Law dsp where
  enc _ _ := True
  seg _ _ := True
  row _ _ := True
  plug c := c = b
  spooled _ _ _ := trivial

variable [Inhabited α]

theorem step_connected (w : Work dsp) (env : StepEnv α) :
    Upholds (fun w' => w'.book.uplink.connected = w.book.uplink.connected)
      (fun w' => w'.book.uplink.connected = w.book.uplink.connected) (w.step env) := by
  have hpipes : ∀ p : Pipeline dsp, (plugLaw w.book.uplink.connected).Pipes p :=
    fun _ _ _ _ => ⟨trivial, fun _ _ => trivial⟩
  have hread : ∀ {w' : Work dsp} (ch : Channel) (read : Option (List α)),
      (plugLaw w.book.uplink.connected).Rules w' →
      Upholds (plugLaw w.book.uplink.connected).Rules
        (fun r => (plugLaw w.book.uplink.connected).Rules r.2) (w'.readChannel ch read) :=
    fun ch read h => readChannel_rules (P := fun _ => True)
      (fun _ _ _ => ⟨trivial, fun _ _ _ _ => trivial⟩) h ch fun _ _ _ _ => trivial
  refine Upholds.mono (P := (plugLaw w.book.uplink.connected).Rules) ?_ fun _ h => h.log.1
  refine (hread .far env.far ⟨hpipes _, rfl, fun _ _ _ => trivial⟩).bind fun far hfar => ?_
  refine (hread .near env.near hfar).bind fun near hnear => ?_
  split
  · exact hnear
  refine act_rules ?_ env ⟨fun _ _ => trivial, fun _ _ _ _ _ _ => ?_⟩
  · exact ⟨hpipes _, hnear.log⟩
  · exact ⟨trivial, fun _ _ _ _ => trivial⟩

end Capture.Work

namespace Desk

open Faults (Upholds)

variable [Inhabited α]

structure Captured (a : Agent dsp) (env : Agent.TickEnv α) (a' : Agent dsp) : Prop where
  auth : a'.auth = a.auth
  gate : a'.gate = a.gate
  revoked : a'.revoked = a.revoked
  connected : a'.book.uplink.connected = a.book.uplink.connected
  book : (a.gate.status env.now).mayCapture = false ∨ env.source = none → a'.book = a.book

theorem capture_spec (a : Agent dsp) (env : TickEnv α) :
    Upholds (fun t => Captured a env t.agent) (fun t => Captured a env t.agent)
      (capture a env) := by
  unfold capture Tick.capture
  dsimp only
  split
  · rename_i p source hmay hp hsource
    have hplugged := Capture.Work.step_connected ⟨p, a.book, source.budget, {}⟩ source
    have hran : ¬ ((a.gate.status env.now).mayCapture = false ∨ env.source = none) := by
      rintro (h | h)
      · cases hmay.symm.trans h
      · cases hsource.symm.trans h
    split
    · rename_i w hw
      rw [hw] at hplugged
      exact ⟨rfl, rfl, rfl, hplugged, fun h => absurd h hran⟩
    rename_i w hw
    rw [hw] at hplugged
    exact ⟨rfl, rfl, rfl, hplugged, fun h => absurd h hran⟩
  · exact ⟨rfl, rfl, rfl, rfl, fun _ => rfl⟩

omit [Inhabited α] in
theorem pumped_keeps (d : Desk dsp) (env : TickEnv α) : (d.pumped env).agent.auth = d.agent.auth ∧
      (d.pumped env).agent.gate.signedIn = d.agent.gate.signedIn := by
  unfold pumped Tick.pump
  split
  · exact ⟨rfl, rfl⟩
  refine ⟨rfl, ?_⟩
  dsimp only
  split <;> split <;> rfl

structure Pumped (d : Desk dsp) (env : Agent.TickEnv α) (r : Uplink.Pumped) (d' : Desk dsp) :
    Prop where
  uplink : d'.agent.book.uplink = { r.up with events := [] }
  revoked : d'.agent.revoked = r.outcome.deviceRevoked
  gated : r.outcome.deviceRevoked = true → d'.agent.gate.deviceRevoked = true
  lastVerifiedMs : d'.agent.gate.lastVerifiedMs =
    if r.outcome.verified then some env.now else d.agent.gate.lastVerifiedMs
  history : d'.history = d.history ++
    passDeeds d.token d.agent.book.uplink env.now env.pump env.incoming ++
      if r.outcome.verified then [.verifiedByIngest] else []

omit [Inhabited α] in
theorem pumped_cases (d : Desk dsp) (env : TickEnv α) :
    (d.agent.revoked = true ∧ d.pumped env = { d with
      agent := { d.agent with gate := d.agent.gate.setDeviceRevoked true } }) ∨
    (d.agent.revoked = false ∧
      d.Pumped env (d.agent.book.uplink.pump env.now env.pump env.incoming) (d.pumped env)) := by
  unfold pumped Tick.pump pumpDeeds
  cases d.agent.revoked with
  | true => exact .inl ⟨rfl, by rw [if_pos rfl, if_pos rfl, append_nil]⟩
  | false =>
    refine .inr ⟨rfl, rfl, rfl, fun hr => ?_, ?_, ?_⟩
    · rw [if_neg Bool.false_ne_true]
      dsimp only
      rw [if_pos hr]
      rfl
    · rw [if_neg Bool.false_ne_true]
      dsimp only
      split <;> split <;> rfl
    rw [if_neg Bool.false_ne_true]
    exact (append_assoc _ _ _).symm

omit [Inhabited α] in

omit [Inhabited α] in
theorem heartbeat_keeps (d : Desk dsp) (env : TickEnv α) :
    (d.heartbeat env).agent.book = d.agent.book ∧ (d.heartbeat env).agent.auth = d.agent.auth := by
  unfold heartbeat Tick.heartbeat Tick.sendHeartbeat
  dsimp only
  split
  · split
    · exact ⟨rfl, rfl⟩
    · split <;> exact ⟨rfl, rfl⟩
  · exact ⟨rfl, rfl⟩

omit [Inhabited α] in
theorem heartbeat_cases (d : Desk dsp) (env : TickEnv α) : (∃ uid, d.agent.auth = some uid ∧
      (d.heartbeat env).history = d.history ++ [.verifiedByHeartbeat uid] ∧
      (d.heartbeat env).agent.gate = d.agent.gate.observeVerified env.now ∧
      (d.heartbeat env).agent.revoked = d.agent.revoked) ∨
    (env.heartbeat = .forbidden ∧ (d.heartbeat env).history = d.history ++ [.refused] ∧
      (d.heartbeat env).agent.gate = d.agent.gate.setDeviceRevoked true ∧
      (d.heartbeat env).agent.revoked = true) ∨
    ((d.heartbeat env).history = d.history ∧ (d.heartbeat env).agent.gate = d.agent.gate ∧
      (d.heartbeat env).agent.revoked = d.agent.revoked) := by
  unfold heartbeat heartbeatDeeds Tick.heartbeat Tick.sendHeartbeat
  cases d.agent.lastHeartbeatMs.all fun last => Tick.heartbeatIntervalMs ≤ env.now - last with
  | false => exact .inr (.inr ⟨append_nil _, rfl, rfl⟩)
  | true =>
    cases hauth : d.agent.auth with
    | none => exact .inr (.inr ⟨append_nil _, rfl, rfl⟩)
    | some uid =>
      cases hreply : env.heartbeat with
      | accepted => exact .inl ⟨uid, rfl, rfl, rfl, rfl⟩
      | forbidden => exact .inr (.inl ⟨rfl, rfl, rfl, rfl⟩)
      | failed => exact .inr (.inr ⟨append_nil _, rfl, rfl⟩)

structure Flushed (d : Desk dsp) (f : FlushEnv) (tail : List Deed) (d' : Desk dsp) : Prop where
  revoked : d'.agent.revoked = d.agent.revoked
  uplink : d'.agent.book.uplink =
    d.agent.book.uplink.flush f.sliceMs d.agent.clockMs f.passes
  token : d'.token = d.token
  history : d'.history = d.history ++
    (flushDeeds d.token f.sliceMs d.agent.clockMs f.passes d.agent.book.uplink ++ tail)

omit [Inhabited α] in
theorem signOut_spec (d : Desk dsp) (f : FlushEnv) : Upholds
      (fun d' => d.Flushed f [] d' ∧ d'.agent.auth = d.agent.auth ∧ d'.agent.gate = d.agent.gate)
      (fun d' => d.Flushed f [.signedOut d.agent.auth] d' ∧ d'.agent.auth = none ∧
        d'.agent.gate = d.agent.gate.setSignedIn false) (d.signOut f) := by
  unfold signOut Agent.signOut
  cases f.clears with
  | true => exact ⟨⟨rfl, rfl, rfl, by rw [← append_assoc]⟩, rfl, rfl⟩
  | false => exact ⟨⟨rfl, rfl, rfl, by rw [append_nil]⟩, rfl, rfl⟩

/-! ## Rules for an iteration -/

variable {I : Desk dsp → Prop} {flushes : List FlushEnv} {d : Desk dsp}

omit [Inhabited α] in
theorem signOuts_keeps (hout : ∀ d, I d → ∀ f ∈ flushes, Upholds I I (d.signOut f)) (h : I d) :
    I (d.signOuts flushes) := by
  induction flushes generalizing d with
  | nil => exact h
  | cons f rest ih =>
    have hf := hout d h f mem_cons_self
    unfold signOuts
    split
    · rename_i d' hd
      rwa [hd] at hf
    rename_i d' hd
    rw [hd] at hf
    exact ih (fun d hd g hg => hout d hd g (mem_cons_of_mem _ hg)) hf

theorem tick_rule {J K L : Desk dsp → Prop} {env : TickEnv α}
    (hcap : ∀ a, Captured d.agent env a → I (d.captured a)) (hstop : ∀ d, I d → L d)
    (hpump : ∀ d, I d → J (d.pumped env)) (hbeat : ∀ d, J d → K (d.heartbeat env))
    (hfail : ∀ d, K d → L d) (hout : ∀ d, K d → L (d.signOuts flushes)) :
    L (d.tick env flushes) := by
  have hspec := capture_spec d.agent env
  unfold tick
  split
  · rename_i t ht
    rw [ht] at hspec
    exact hstop _ (hcap _ hspec)
  rename_i t ht
  rw [ht] at hspec
  have hcollect : Captured d.agent env t.collect.agent :=
    ⟨hspec.auth, hspec.gate, hspec.revoked, hspec.connected, hspec.book⟩
  have hbeaten := hbeat _ (hpump _ (hcap _ hcollect))
  split
  · exact hfail _ hbeaten
  · exact hout _ hbeaten

theorem tick_keeps {env : TickEnv α} (hcap : ∀ a, Captured d.agent env a → I (d.captured a))
    (hpump : ∀ d, I d → I (d.pumped env)) (hbeat : ∀ d, I d → I (d.heartbeat env))
    (hout : ∀ d, I d → ∀ f ∈ flushes, Upholds I I (d.signOut f)) : I (d.tick env flushes) :=
  tick_rule hcap (fun _ h => h) hpump hbeat (fun _ h => h) fun _ h => signOuts_keeps hout h

end Desk

/-! ## What a pump reports -/

namespace Uplink

variable {u : Uplink} {now : Nat}

theorem pump_drained (h : u.drained = true) (env : PumpEnv) (incoming : List ServerMessage) :
    (u.pump now env incoming).up.drained = true := by
  have hempty : u.spool.segments.rows = [] := by simpa [drained] using h
  have hsub := (pump_rows u now env incoming).subset
  rw [hempty, subset_nil] at hsub
  simp [drained, hsub]

theorem handleControl_revoked (u : Uplink) (m : ServerMessage) (o : PumpOutcome) :
    (u.handleControl m now o).2.deviceRevoked = o.deviceRevoked := by
  cases m with
  | callError | heartbeatAck =>
    unfold handleControl
    dsimp only
    split <;> rfl
  | _ => rfl

variable {incoming : List ServerMessage} {env : PumpEnv}

theorem readIncoming_revoked {o : PumpOutcome}
    (h : (readIncoming now incoming u o).2.1.deviceRevoked = true) :
    o.deviceRevoked = true ∨ .close 4403 ∈ incoming := by
  induction incoming generalizing u o with
  | nil => exact .inl h
  | cons m rest ih =>
    have hmore : (readIncoming now rest (u.handleControl m now o).1
        (u.handleControl m now o).2).2.1.deviceRevoked = true →
          o.deviceRevoked = true ∨ .close 4403 ∈ m :: rest := by
      intro hrest
      rcases ih hrest with hd | hd
      · rw [handleControl_revoked] at hd
        exact .inl hd
      · exact .inr (mem_cons_of_mem _ hd)
    cases m with
    | close code =>
      have hor : (o.deviceRevoked || decide (code = 4403)) = true := h
      rcases Bool.or_eq_true_iff.mp hor with hd | hcode
      · exact .inl hd
      rw [of_decide_eq_true hcode]
      exact .inr mem_cons_self
    | _ => exact hmore h

theorem pump_revoked
    (h : (u.pump now env incoming).outcome.deviceRevoked = true) : .close 4403 ∈ incoming := by
  unfold pump at h
  split at h
  · cases h
  split at h
  · cases h
  dsimp only at h
  split at h
  · cases h
  rename_i p hp
  have hread : (readIncoming now incoming p.up
      { connected := true, sent := p.sent }).2.1.deviceRevoked = true := by
    split at h <;> exact h
  rcases readIncoming_revoked hread with hd | hd
  · cases hd
  · exact hd

theorem pump_unplugged (hc : u.connected = false) (hd : u.dials now env = false)
    (incoming : List ServerMessage) :
    (u.pump now env incoming).up.connected = false ∧
      (u.pump now env incoming).outcome.verified = false := by
  rcases pump_cases u now env incoming with ⟨hon | hdial, -⟩ | ⟨-, -, t, hr⟩
  · cases hc.symm.trans hon
  · cases hd.symm.trans hdial
  rw [hr]
  exact ⟨hc, rfl⟩

theorem flush_drained (h : u.drained = true) (sliceMs clock : Nat) (passes : List FlushPass) :
    u.flush sliceMs clock passes = u := by
  cases passes with
  | nil => rfl
  | cons pass rest => simp only [flush, h, if_true]

end Uplink

section Flush

variable {bearer : Option String} {u : Uplink}

theorem flushDeeds_drained (h : u.drained = true) (sliceMs clock : Nat)
    (passes : List Uplink.FlushPass) : flushDeeds bearer sliceMs clock passes u = [] := by
  cases passes with
  | nil => rfl
  | cons pass rest => simp only [flushDeeds, h, if_true]

theorem flushDeeds_all {Q : Deed → Prop} {passes : List Uplink.FlushPass} (sliceMs : Nat)
    (h : ∀ pass ∈ passes, ∀ (v : Uplink) (clock : Nat),
      ∀ m ∈ passDeeds bearer v clock pass.1 pass.2, Q m) (clock : Nat) (u : Uplink) :
    ∀ m ∈ flushDeeds bearer sliceMs clock passes u, Q m := by
  induction passes generalizing clock u with
  | nil => exact forall_mem_nil _
  | cons pass rest ih =>
    intro m hm
    unfold flushDeeds at hm
    split at hm
    · exact absurd hm not_mem_nil
    rcases mem_append.mp hm with hfirst | hrest
    · exact h pass mem_cons_self u clock m hfirst
    · exact ih (fun p hp => h p (mem_cons_of_mem _ hp)) _ _ m hrest

end Flush

namespace Desk

theorem pumped_drained {d : Desk dsp} (h : d.agent.book.uplink.drained = true)
    (env : TickEnv α) : (d.pumped env).agent.book.uplink.drained = true := by
  rcases d.pumped_cases env with ⟨-, hd⟩ | ⟨-, hd⟩
  · rwa [hd]
  rw [hd.uplink]
  exact Uplink.pump_drained h _ _

/-! ## A concrete desk -/

def leftBehind : Spool :=
  (Spool.beginCall {} "call-1"
    { callId := "call-1", startedAt := "t", userUid := "alice", deviceId := "pc" } 0).insert
      (⟨"call-1", .far, 0⟩, ⟨0, {}, [], 0⟩)

def morning : Desk (thresholdDsp fun a : Int => a ≠ 0) := start leftBehind briskPolicy "pc"

end Desk

end Sentinel
