import Mathlib.Algebra.Group.Nat.Defs
import Sentinel.Gateway.LiveFloor

/-!
# The connection of the floor view

`connection.ts` keeps one stream of a team's calls open: it mints a ticket, opens a stream with it,
and when either fails it waits and begins again.
-/

open List Nat

namespace Sentinel.Live

open Runs

inductive LiveStatus where
  | idle
  | connecting
  | live
  | reconnecting
  | stopped
  | refused
  deriving DecidableEq, Repr

inductive Started where
  | mint (id : Nat)
  | stream (id mint : Nat)
  | retry (delayMs : Nat)
  deriving DecidableEq, Repr

structure LiveConnection where
  source : Option Nat := none
  mint : Option Nat := none
  retryTimer : Option Nat := none
  sweeping : Bool := false
  stopped : Bool := false
  calls : Table String (LiveCallEvent × Int) := ∅
  status : LiveStatus := .idle
  attempt : Nat := 0
  refusal : Option String := none
  lastEventAt : Option Int := none
  aborted : List Nat := []
  pending : List Nat := []
  streams : List Nat := []
  timers : List Nat := []
  next : Nat := 0
  log : List Started := []

structure LiveConnectionOptions where
  staleAfterMs : Int := 10000
  retryBaseMs : Nat := 1000
  retryMaxMs : Nat := 30000

inductive MintResult where
  | ticket (opens : Bool)
  | error (terminal : Bool)

inductive StreamEvent where
  | opened
  | call (now : Int) (event : Option LiveCallEvent)
  | error

inductive ConnectionEvent where
  | start
  | stop
  | mintSettles (id : Nat) (result : MintResult)
  | stream (id : Nat) (e : StreamEvent)
  | retryFires (id : Nat)
  | sweep (now : Int)

namespace LiveConnection

variable (o : LiveConnectionOptions) (c : LiveConnection)

def connect : LiveConnection :=
  { c with
    mint := some c.next
    pending := c.next :: c.pending
    next := c.next + 1
    log := c.log ++ [.mint c.next] }

def start : LiveConnection :=
  if c.stopped ∨ c.status = .refused then c
  else if c.source.isSome ∨ c.mint.isSome ∨ c.retryTimer.isSome then c
  else connect { c with sweeping := true, status := .connecting }

def teardown : LiveConnection :=
  { c with
    aborted := c.mint.toList ++ c.aborted
    mint := none
    streams := c.streams.filter (some · ≠ c.source)
    source := none
    timers := c.timers.filter (some · ≠ c.retryTimer)
    retryTimer := none }

def stop : LiveConnection :=
  { teardown { c with stopped := true } with sweeping := false, status := .stopped }

def scheduleRetry : LiveConnection :=
  if c.stopped ∨ c.retryTimer.isSome then c
  else
    let attempt := c.attempt + 1
    let delay := min (o.retryBaseMs * 2 ^ (attempt - 1)) o.retryMaxMs
    { c with
      status := .reconnecting
      attempt
      retryTimer := some c.next
      timers := c.next :: c.timers
      next := c.next + 1
      log := c.log ++ [.retry delay] }

def refuse : LiveConnection :=
  { c with
    sweeping := false
    status := .refused
    refusal := some "Your role may not watch this team’s floor." }

def openStream (mint : Nat) : LiveConnection :=
  { c with
    source := some c.next
    streams := c.next :: c.streams
    next := c.next + 1
    log := c.log ++ [.stream c.next mint] }

def mintSettles (id : Nat) (result : MintResult) : LiveConnection :=
  if id ∉ c.pending then c
  else
    let c := { c with pending := c.pending.erase id, mint := none }
    if c.stopped ∨ id ∈ c.aborted then c
    else match result with
      | .error true => c.refuse
      | .error false => c.scheduleRetry o
      | .ticket true => c.openStream id
      | .ticket false => c

def ingest (now : Int) : Option LiveCallEvent → LiveConnection
  | none => c
  | some event =>
    if event.callId = "" then c
    else { c with calls := c.calls.put event.callId (event, now), lastEventAt := some now }

def onStream (id : Nat) (e : StreamEvent) : LiveConnection :=
  if c.source ≠ some id then c
  else match e with
    | .opened => { c with status := .live, attempt := 0 }
    | .call now event => c.ingest now event
    | .error => scheduleRetry o { c with streams := c.streams.erase id, source := none }

def retryFires (id : Nat) : LiveConnection :=
  if id ∉ c.timers then c
  else
    let c := { c with timers := c.timers.erase id, retryTimer := none }
    if c.stopped then c else c.connect

def sweep (now : Int) : LiveConnection :=
  if c.sweeping then
    { c with calls := c.calls.filter fun row => ¬ row.2.2 < now - o.staleAfterMs }
  else c

def step : ConnectionEvent → LiveConnection
  | .start => c.start
  | .stop => c.stop
  | .mintSettles id result => c.mintSettles o id result
  | .stream id e => c.onStream o id e
  | .retryFires id => c.retryFires id
  | .sweep now => c.sweep o now

/-! ## Phases -/

def held : (Option Nat × Option Nat × Option Nat) × List Nat × List Nat × List Nat :=
  ((c.mint, c.source, c.retryTimer), c.pending, c.streams, c.timers)

def Going : Prop := c.stopped = false ∧ c.status ≠ .refused

inductive Phase : Prop where
  | quiet (h : c.held = ((none, none, none), [], [], []))
  | minting (m : Nat) (h : c.held = ((some m, none, none), [m], [], [])) (hgoing : c.Going)
  | streaming (i : Nat) (h : c.held = ((none, some i, none), [], [i], [])) (hgoing : c.Going)
  | waiting (t : Nat) (h : c.held = ((none, none, some t), [], [], [t])) (hgoing : c.Going)
  | givenUp (m : Nat) (h : c.held = ((none, none, none), [m], [], [])) (hstopped : c.stopped)

variable {o c}

theorem held_iff {fields : Option Nat × Option Nat × Option Nat}
    {pending streams timers : List Nat} : c.held = (fields, pending, streams, timers) ↔
      (c.mint = fields.1 ∧ c.source = fields.2.1 ∧ c.retryTimer = fields.2.2) ∧
        c.pending = pending ∧ c.streams = streams ∧ c.timers = timers := by
  simp [held, Prod.ext_iff]

theorem phase_connect (h : c.held = ((none, none, none), [], [], [])) (hgoing : c.Going) :
    c.connect.Phase := by
  obtain ⟨⟨-, hsource, hretry⟩, hpending, hstreams, htimers⟩ := held_iff.mp h
  refine .minting c.next (held_iff.mpr ⟨⟨rfl, hsource, hretry⟩, ?_, hstreams, htimers⟩) hgoing
  rw [connect, hpending]

theorem phase_scheduleRetry (h : c.held = ((none, none, none), [], [], []))
    (hstopped : c.stopped = false) : (c.scheduleRetry o).Phase := by
  obtain ⟨⟨hmint, hsource, hretry⟩, hpending, hstreams, htimers⟩ := held_iff.mp h
  rw [scheduleRetry, if_neg (by simp [hstopped, hretry])]
  refine .waiting c.next (held_iff.mpr ⟨⟨hmint, hsource, rfl⟩, hpending, hstreams, ?_⟩)
    ⟨hstopped, nofun⟩
  simp [htimers]

theorem phase_openStream (h : c.held = ((none, none, none), [], [], [])) (hgoing : c.Going)
    (mint : Nat) : (c.openStream mint).Phase := by
  obtain ⟨⟨hmint, -, hretry⟩, hpending, hstreams, htimers⟩ := held_iff.mp h
  refine .streaming c.next (held_iff.mpr ⟨⟨hmint, rfl, hretry⟩, hpending, ?_, htimers⟩) hgoing
  rw [openStream, hstreams]

variable {d : LiveConnection}

theorem Phase.congr (h : c.Phase) (hheld : d.held = c.held)
    (hstopped : d.stopped = c.stopped) (hstatus : d.status = .refused → c.status = .refused) :
    d.Phase := by
  have hgoing : c.Going → d.Going := fun h => ⟨hstopped.trans h.1, fun hd => h.2 (hstatus hd)⟩
  cases h with
  | quiet h => exact .quiet (hheld.trans h)
  | minting m h hc => exact .minting m (hheld.trans h) (hgoing hc)
  | streaming i h hc => exact .streaming i (hheld.trans h) (hgoing hc)
  | waiting t h hc => exact .waiting t (hheld.trans h) (hgoing hc)
  | givenUp m h hc => exact .givenUp m (hheld.trans h) (hstopped.trans hc)

theorem phase_start (h : c.Phase) : c.start.Phase := by
  unfold start
  split
  · exact h
  case isFalse hgoing =>
    split
    · exact h
    case isFalse hfree =>
      cases h with
      | quiet h => exact phase_connect h ⟨by simpa using (not_or.mp hgoing).1, nofun⟩
      | minting m h => simp [(held_iff.mp h).1.1] at hfree
      | streaming i h => simp [(held_iff.mp h).1.2.1] at hfree
      | waiting t h => simp [(held_iff.mp h).1.2.2] at hfree
      | givenUp m h hstopped => exact absurd (.inl hstopped) hgoing

theorem phase_stop (h : c.Phase) : c.stop.Phase := by
  cases h with
  | quiet h =>
    obtain ⟨⟨-, hsource, hretry⟩, hpending, hstreams, htimers⟩ := held_iff.mp h
    exact .quiet (by simp [held, stop, teardown, hpending, hstreams, htimers])
  | minting m h | givenUp m h =>
    obtain ⟨⟨-, hsource, hretry⟩, hpending, hstreams, htimers⟩ := held_iff.mp h
    exact .givenUp m (by simp [held, stop, teardown, hpending, hstreams, htimers]) rfl
  | streaming i h =>
    obtain ⟨⟨-, hsource, hretry⟩, hpending, hstreams, htimers⟩ := held_iff.mp h
    exact .quiet (by simp [held, stop, teardown, hsource, hpending, hstreams, htimers])
  | waiting t h =>
    obtain ⟨⟨-, hsource, hretry⟩, hpending, hstreams, htimers⟩ := held_iff.mp h
    exact .quiet (by simp [held, stop, teardown, hretry, hpending, hstreams, htimers])

theorem Phase.settled (h : c.Phase) {id : Nat} (hid : id ∈ c.pending) :
    held { c with pending := c.pending.erase id, mint := none } =
      ((none, none, none), [], [], []) ∧ (c.Going ∨ c.stopped) := by
  have hsettled : ∀ {m mint}, c.held = ((mint, none, none), [m], [], []) →
      held { c with pending := c.pending.erase id, mint := none } =
        ((none, none, none), [], [], []) := by
    intro m mint h
    obtain ⟨⟨-, hsource, hretry⟩, hpending, hstreams, htimers⟩ := held_iff.mp h
    obtain rfl : id = m := by simpa [hpending] using hid
    simp [held, hsource, hretry, hpending, hstreams, htimers]
  cases h with
  | minting m h hgoing => exact ⟨hsettled h, .inl hgoing⟩
  | givenUp m h hstopped => exact ⟨hsettled h, .inr hstopped⟩
  | quiet h | streaming _ h | waiting _ h => simp [(held_iff.mp h).2.1] at hid

theorem phase_mintSettles (h : c.Phase) (id : Nat) (result : MintResult) :
    (c.mintSettles o id result).Phase := by
  unfold mintSettles
  split
  · exact h
  case isFalse hid =>
    obtain ⟨hheld, hgoing⟩ := h.settled (not_not.mp hid)
    dsimp only
    split
    · exact .quiet hheld
    case isFalse hrun =>
      have hgoing := hgoing.resolve_right (not_or.mp hrun).1
      cases result with
      | ticket opens =>
        cases opens with
        | true => exact phase_openStream hheld hgoing id
        | false => exact .quiet hheld
      | error terminal =>
        cases terminal with
        | true => exact .quiet hheld
        | false => exact phase_scheduleRetry hheld hgoing.1

theorem phase_onStream (h : c.Phase) (id : Nat) (e : StreamEvent) : (c.onStream o id e).Phase := by
  unfold onStream
  split
  · exact h
  case isFalse hid =>
    cases h with
    | streaming i hheld hgoing =>
      obtain ⟨⟨hmint, hsource, hretry⟩, hpending, hstreams, htimers⟩ := held_iff.mp hheld
      obtain rfl : i = id := Option.some.inj (hsource.symm.trans (not_not.mp hid))
      cases e with
      | opened => exact .streaming i hheld ⟨hgoing.1, nofun⟩
      | call now event =>
        refine (Phase.streaming i hheld hgoing).congr ?_ ?_ ?_ <;>
          · dsimp only [ingest]
            cases event with
            | none => simp
            | some event => dsimp only; split <;> simp [held]
      | error =>
        refine phase_scheduleRetry (held_iff.mpr ⟨⟨hmint, rfl, hretry⟩, hpending, ?_, htimers⟩)
          hgoing.1
        simp [hstreams]
    | quiet h | minting _ h | waiting _ h | givenUp _ h => simp [(held_iff.mp h).1.2.1] at hid

theorem phase_retryFires (h : c.Phase) (id : Nat) : (c.retryFires id).Phase := by
  unfold retryFires
  split
  · exact h
  case isFalse hid =>
    cases h with
    | waiting t h hgoing =>
      obtain ⟨⟨hmint, hsource, hretry⟩, hpending, hstreams, htimers⟩ := held_iff.mp h
      obtain rfl : id = t := by simpa [htimers] using hid
      rw [if_neg (by simp [hgoing.1])]
      refine phase_connect (held_iff.mpr ⟨⟨hmint, hsource, rfl⟩, hpending, hstreams, ?_⟩) hgoing
      simp [htimers]
    | quiet h | minting _ h | streaming _ h | givenUp _ h => simp [(held_iff.mp h).2.2.2] at hid

theorem phase_step (h : c.Phase) (e : ConnectionEvent) : (c.step o e).Phase := by
  cases e with
  | start => exact phase_start h
  | stop => exact phase_stop h
  | mintSettles id result => exact phase_mintSettles h id result
  | stream id e => exact phase_onStream h id e
  | retryFires id => exact phase_retryFires h id
  | sweep now =>
    refine h.congr ?_ ?_ ?_ <;> simp only [step, sweep] <;> split <;> simp [held]

/-! ## Tickets -/

def openedBy (log : List Started) : List Nat :=
  log.filterMap fun
    | .stream _ mint => some mint
    | _ => none

structure Fresh (c : LiveConnection) : Prop where
  pending : ∀ m ∈ c.pending, m < c.next ∧ m ∉ openedBy c.log
  opened : ∀ m ∈ openedBy c.log, m < c.next
  nodup : (openedBy c.log).Nodup

theorem Fresh.mono (h : c.Fresh) (hpending : ∀ m ∈ d.pending, m ∈ c.pending)
    (hnext : c.next ≤ d.next) (hlog : openedBy d.log = openedBy c.log) : d.Fresh := by
  refine ⟨fun m hm => ?_, fun m hm => ?_, ?_⟩
  · rw [hlog]
    exact ⟨((h.pending m (hpending m hm)).1).trans_le hnext, (h.pending m (hpending m hm)).2⟩
  · rw [hlog] at hm
    exact (h.opened m hm).trans_le hnext
  rw [hlog]
  exact h.nodup

theorem Fresh.same (h : c.Fresh) (hpending : d.pending = c.pending)
    (hnext : d.next = c.next) (hlog : d.log = c.log) : d.Fresh :=
  h.mono (fun _ hm => hpending ▸ hm) hnext.ge (by rw [hlog])

theorem Fresh.connect (h : c.Fresh) : c.connect.Fresh := by
  have hlog : openedBy c.connect.log = openedBy c.log := by simp [LiveConnection.connect, openedBy]
  refine ⟨fun m hm => ?_, fun m hm => ?_, ?_⟩
  · rw [hlog]
    rcases mem_cons.mp hm with rfl | hm
    · exact ⟨lt_succ_self _, fun hmem => absurd (h.opened _ hmem) (lt_irrefl _)⟩
    · exact ⟨(h.pending m hm).1.trans (lt_succ_self _), (h.pending m hm).2⟩
  · rw [hlog] at hm
    exact (h.opened m hm).trans (lt_succ_self _)
  rw [hlog]
  exact h.nodup

theorem Fresh.scheduleRetry (h : c.Fresh) : (c.scheduleRetry o).Fresh := by
  unfold LiveConnection.scheduleRetry
  split
  · exact h
  · exact h.mono (fun _ hm => hm) (le_succ _) (by simp [openedBy])

theorem Fresh.openStream (h : c.Fresh) {mint : Nat} (hnext : mint < c.next)
    (hnew : mint ∉ openedBy c.log) (hpending : c.pending = []) : (c.openStream mint).Fresh := by
  have hlog : openedBy (c.openStream mint).log = openedBy c.log ++ [mint] := by
    simp [LiveConnection.openStream, openedBy]
  refine ⟨fun m hm => ?_, fun m hm => ?_, ?_⟩
  · rw [LiveConnection.openStream, hpending] at hm
    cases hm
  · rw [hlog] at hm
    rcases mem_append.mp hm with hm | hm
    · exact (h.opened m hm).trans (lt_succ_self _)
    · exact (mem_singleton.mp hm ▸ hnext).trans (lt_succ_self _)
  rw [hlog]
  exact nodup_append.mpr ⟨h.nodup, nodup_singleton _, fun a ha b hb hab =>
    hnew (mem_singleton.mp hb ▸ hab ▸ ha)⟩

theorem Fresh.mintSettles (h : c.Fresh) (hphase : c.Phase) (id : Nat) (result : MintResult) :
    (c.mintSettles o id result).Fresh := by
  unfold LiveConnection.mintSettles
  split
  · exact h
  case isFalse hid =>
    have hmem := not_not.mp hid
    have hsettled : Fresh { c with pending := c.pending.erase id, mint := none } :=
      h.mono (fun m hm => mem_of_mem_erase hm) le_rfl rfl
    dsimp only
    split
    · exact hsettled
    cases result with
    | ticket opens =>
      cases opens with
      | true =>
        exact hsettled.openStream (h.pending id hmem).1 (h.pending id hmem).2
          (held_iff.mp (hphase.settled hmem).1).2.1
      | false => exact hsettled
    | error terminal =>
      cases terminal with
      | true => exact hsettled.same rfl rfl rfl
      | false => exact hsettled.scheduleRetry

theorem Fresh.onStream (h : c.Fresh) (id : Nat) (e : StreamEvent) : (c.onStream o id e).Fresh := by
  unfold LiveConnection.onStream
  split
  · exact h
  cases e with
  | opened => exact h.same rfl rfl rfl
  | call now event =>
    dsimp only [ingest]
    cases event with
    | none => exact h
    | some event =>
      dsimp only
      split
      · exact h
      · exact h.same rfl rfl rfl
  | error =>
    have hclosed : Fresh { c with streams := c.streams.erase id, source := none } :=
      h.same rfl rfl rfl
    exact hclosed.scheduleRetry

theorem Fresh.step (h : c.Fresh) (hphase : c.Phase) (e : ConnectionEvent) : (c.step o e).Fresh := by
  cases e with
  | start =>
    rw [LiveConnection.step, start]
    split
    · exact h
    have hstarted : Fresh { c with sweeping := true, status := .connecting } :=
      h.same rfl rfl rfl
    split
    · exact h
    · exact hstarted.connect
  | stop => exact h.same rfl rfl rfl
  | mintSettles id result => exact h.mintSettles hphase id result
  | stream id e => exact h.onStream id e
  | retryFires id =>
    rw [LiveConnection.step, retryFires]
    split
    · exact h
    have hfired : Fresh { c with timers := c.timers.erase id, retryTimer := none } :=
      h.same rfl rfl rfl
    dsimp only
    split
    · exact hfired
    · exact hfired.connect
  | sweep now =>
    rw [LiveConnection.step, sweep]
    split
    · exact h.same rfl rfl rfl
    · exact h

/-! ## The end -/

def Finished (c : LiveConnection) : Prop := c.stopped ∨ c.status = .refused

theorem Finished.held (h : c.Finished) (hphase : c.Phase) :
    c.source = none ∧ c.timers = [] ∧ (c.pending ≠ [] → c.stopped) := by
  have hnot : ¬ c.Going := fun hgoing => by
    rcases h with hstopped | hrefused
    · exact absurd hstopped (by simp [hgoing.1])
    · exact hgoing.2 hrefused
  cases hphase with
  | quiet h =>
    obtain ⟨⟨-, hsource, -⟩, hpending, -, htimers⟩ := held_iff.mp h
    exact ⟨hsource, htimers, fun hne => absurd hpending hne⟩
  | minting _ _ hgoing | streaming _ _ hgoing | waiting _ _ hgoing => exact absurd hgoing hnot
  | givenUp m h hstopped =>
    obtain ⟨⟨-, hsource, -⟩, -, -, htimers⟩ := held_iff.mp h
    exact ⟨hsource, htimers, fun _ => hstopped⟩

theorem Finished.step (h : c.Finished) (hphase : c.Phase) (e : ConnectionEvent) :
    (c.step o e).Finished ∧ (c.step o e).log = c.log := by
  obtain ⟨hsource, htimers, hpending⟩ := h.held hphase
  cases e with
  | start =>
    have hsame : c.step o .start = c := if_pos h
    rw [hsame]
    exact ⟨h, rfl⟩
  | stop => exact ⟨.inl rfl, rfl⟩
  | mintSettles id result =>
    rw [LiveConnection.step, mintSettles]
    split
    · exact ⟨h, rfl⟩
    case isFalse hid =>
      have hstopped := hpending (ne_nil_of_mem (not_not.mp hid))
      rw [if_pos (.inl hstopped)]
      exact ⟨h, rfl⟩
  | stream id e =>
    have hsame : c.step o (.stream id e) = c := if_pos (by simp [hsource])
    rw [hsame]
    exact ⟨h, rfl⟩
  | retryFires id =>
    rw [LiveConnection.step, retryFires, if_pos (by simp [htimers])]
    exact ⟨h, rfl⟩
  | sweep now =>
    rw [LiveConnection.step, sweep]
    split <;> exact ⟨h, rfl⟩

/-- **The connection keeps to itself.** -/
theorem connection_safe (o : LiveConnectionOptions) (es : List ConnectionEvent) :
    let c := run (LiveConnection.step o) {} es
    c.pending.length + c.streams.length + c.timers.length ≤ 1 ∧
      (openedBy c.log).Nodup ∧
      (∀ id e, id ∉ c.streams → c.step o (.stream id e) = c) ∧
      (c.Finished → ∀ later, (run (LiveConnection.step o) c later).log = c.log) := by
  intro c
  obtain ⟨hphase, hfresh⟩ : c.Phase ∧ c.Fresh := by
    refine run_invariant (I := fun c : LiveConnection => c.Phase ∧ c.Fresh) ⟨.quiet rfl, ?_⟩
      (fun c e h => ?_) es
    · exact ⟨by simp, by simp [openedBy], by simp [openedBy]⟩
    · exact ⟨phase_step h.1 e, h.2.step h.1 e⟩
  refine ⟨?_, hfresh.nodup, fun id e hid => ?_, fun hfinished later => ?_⟩
  · cases hphase <;> simp [held_iff.mp ‹_›]
  · refine if_pos fun hsource => ?_
    cases hphase <;> simp [held_iff.mp ‹_›] at hsource hid
    exact hid hsource.symm
  · refine (run_invariant (I := fun d : LiveConnection =>
      d.Phase ∧ d.Finished ∧ d.log = c.log) ⟨hphase, hfinished, rfl⟩ (fun d e h => ?_) later).2.2
    obtain ⟨hphase, hfinished, hlog⟩ := h
    obtain ⟨hnext, hsame⟩ := hfinished.step hphase e
    exact ⟨phase_step hphase e, hnext, hsame.trans hlog⟩

end LiveConnection

end Sentinel.Live
