import Sentinel.Lib.Runs

/-!
# One finalize message, from the broker to the end

The broker delivers a message that is not acknowledged again, until it has been delivered
`max_deliver` times; the consumer (`consumer.py`) puts it on the dead-letter subject while it
processes the last delivery.
-/

open List Option

namespace Sentinel.Workers.Consumer

open Runs

def maxDeliver : Nat := 4

inductive Phase where
  | decoding
  | handling
  | publishing
  | acking
  | naking
  deriving DecidableEq, Repr

inductive Handling where
  | ok
  | unprocessable
  | failed
  deriving DecidableEq, Repr

inductive Sent where
  | accepted
  | lost
  | refused
  deriving DecidableEq, Repr

def Sent.taken : Sent → Bool
  | .refused => false
  | _ => true

inductive Await where
  | decode
  | handle (h : Handling)
  | publish (s : Sent)
  | ack (s : Sent)
  | nak (s : Sent)
  | crash
  deriving DecidableEq, Repr

structure Message where
  decodes : Bool := true
  delivered : Nat := 0
  outstanding : Bool := false
  delay : Nat := 0
  acked : Bool := false
  handled : Bool := false
  deadLettered : Bool := false
  deriving DecidableEq, Repr

structure Processing where
  number : Nat
  phase : Phase := .decoding
  deriving DecidableEq, Repr

structure State where
  message : Message := {}
  live : List Processing := []
  deriving DecidableEq, Repr

def react (max number : Nat) (m : Message) : Phase → Await → Option (Message × Option Phase)
  | .decoding, .decode => some (m, some (if m.decodes then .handling else .publishing))
  | .handling, .handle .ok => some ({ m with handled := true }, some .acking)
  | .handling, .handle .unprocessable => some (m, some .publishing)
  | .handling, .handle .failed => some (m, some (if max ≤ number then .publishing else .naking))
  | .publishing, .publish s =>
    -- A publish that raises is not followed by the acknowledgement.
    some (if s.taken then { m with deadLettered := true } else m,
      if s = .accepted then some .acking else none)
  | .acking, .ack s => some (if s.taken then { m with acked := true } else m, none)
  | .naking, .nak s =>
    some (if s.taken then { m with outstanding := false, delay := min 60 (5 * number) } else m,
      none)
  | _, .crash => some (m, none)
  | _, _ => none

inductive Event where
  | deliver
  | expire
  | awaited (i : Nat) (a : Await)
  deriving DecidableEq, Repr

def next (live : List Processing) (i number : Nat) : Option Phase → List Processing
  | some phase => live.set i ⟨number, phase⟩
  | none => live.eraseIdx i

def step (max : Nat) (s : State) : Event → State
  | .deliver =>
    if ¬ s.message.acked ∧ ¬ s.message.outstanding ∧ s.message.delivered < max then
      { message := { s.message with delivered := s.message.delivered + 1, outstanding := true }
        live := s.live ++ [{ number := s.message.delivered + 1 }] }
    else s
  | .expire => { s with message := { s.message with outstanding := false } }
  | .awaited i a =>
    match s.live[i]? with
    | none => s
    | some p =>
      match react max p.number s.message p.phase a with
      | none => s
      | some (m, phase) => { message := m, live := next s.live i p.number phase }

def Accounted (max : Nat) (m : Message) : Prop :=
  (m.handled ∧ m.acked) ∨ m.deadLettered ∨ (¬ m.acked ∧ m.delivered < max)

instance (max : Nat) (m : Message) : Decidable (Accounted max m) :=
  inferInstanceAs (Decidable (_ ∨ _ ∨ _))

def LastSpared (max : Nat) (s : State) : Event → Prop
  | .awaited i a => ∀ p, s.live[i]? = some p → max ≤ p.number →
      a = .crash ∨ a = .publish .refused ∨ a = .ack .refused →
      s.message.acked ∨ s.message.deadLettered
  | _ => True

/-! ## What one await can do -/

section React

variable {max number : Nat} {m m' : Message} {phase : Phase} {a : Await} {after : Option Phase}

structure Reacts (max number : Nat) (m : Message) (phase : Phase) (a : Await) (m' : Message)
    (after : Option Phase) : Prop where
  delivered : m'.delivered = m.delivered
  handled : m.handled → m'.handled
  deadLettered : m.deadLettered → m'.deadLettered
  acked : m'.acked → m.acked ∨ phase = .acking
  stillAcked : m.acked → m'.acked
  acking : after = some .acking → m'.handled ∨ m'.deadLettered
  naking : after = some .naking → number < max
  ended : after = none → m'.acked ∨ m'.deadLettered ∨ phase = .naking ∨
    a = .crash ∨ a = .publish .refused ∨ a = .ack .refused

theorem reacts (h : react max number m phase a = some (m', after)) :
    Reacts max number m phase a m' after := by
  cases phase <;> cases a <;> simp only [react, reduceCtorEq, some.injEq, Prod.mk.injEq] at h
  case decoding.decode =>
    obtain ⟨rfl, rfl⟩ := h
    constructor <;> cases m.decodes <;> simp +contextual
  case handling.handle result =>
    cases result <;> simp only [some.injEq, Prod.mk.injEq] at h <;> obtain ⟨rfl, rfl⟩ := h
    · constructor <;> simp +contextual
    · constructor <;> simp +contextual
    by_cases hmax : max ≤ number <;> constructor <;> simp +contextual [hmax]
    exact Nat.lt_of_not_le hmax
  case publishing.publish sent =>
    obtain ⟨rfl, rfl⟩ := h
    cases sent <;> constructor <;> simp +contextual [Sent.taken]
  case acking.ack sent =>
    obtain ⟨rfl, rfl⟩ := h
    cases sent <;> constructor <;> simp +contextual [Sent.taken]
  case naking.nak sent =>
    obtain ⟨rfl, rfl⟩ := h
    cases sent <;> constructor <;> simp +contextual [Sent.taken]
  all_goals
    obtain ⟨rfl, rfl⟩ := h
    constructor <;> simp +contextual

end React

/-! ## The invariant -/

structure Tracked (max : Nat) (s : State) : Prop where
  acked : s.message.acked → s.message.handled ∨ s.message.deadLettered
  acking : ∀ p ∈ s.live, p.phase = .acking → s.message.handled ∨ s.message.deadLettered
  naking : ∀ p ∈ s.live, p.phase = .naking → p.number < max
  last : max ≤ s.message.delivered →
    s.message.acked ∨ s.message.deadLettered ∨ ∃ p ∈ s.live, max ≤ p.number

variable {max : Nat} {s : State}

variable {i : Nat} {p : Processing}

theorem mem_next {live : List Processing} {number : Nat} {after : Option Phase}
    (h : p ∈ next live i number after) : p ∈ live ∨ ∃ phase, after = some phase ∧
      p = ⟨number, phase⟩ := by
  cases after with
  | none => exact .inl (mem_of_mem_eraseIdx h)
  | some phase => exact (mem_or_eq_of_mem_set h).imp_right fun heq => ⟨phase, rfl, heq⟩

theorem mem_next_of_ne {live : List Processing} {j number : Nat} {after : Option Phase}
    (hj : live[j]? = some p) (hne : j ≠ i) : p ∈ next live i number after := by
  cases after with
  | none => exact mem_eraseIdx_iff_getElem?.mpr ⟨j, hne, hj⟩
  | some phase =>
    refine mem_of_getElem? (i := j) ?_
    rw [next, getElem?_set_ne hne.symm, hj]

theorem Tracked.awaited (h : Tracked max s) {a : Await} (hp : s.live[i]? = some p) {m : Message}
    {after : Option Phase} (hr : Reacts max p.number s.message p.phase a m after)
    (hspared : LastSpared max s (.awaited i a)) :
    Tracked max { message := m, live := next s.live i p.number after } := by
  have hmem : p ∈ s.live := mem_of_getElem? hp
  have hkeep : s.message.handled ∨ s.message.deadLettered → m.handled ∨ m.deadLettered :=
    Or.imp hr.handled hr.deadLettered
  refine ⟨fun hacked => ?_, fun q hq hphase => ?_, fun q hq hphase => ?_, fun hlast => ?_⟩
  · rcases hr.acked hacked with hacked | hacking
    · exact hkeep (h.acked hacked)
    · exact hkeep (h.acking p hmem hacking)
  · rcases mem_next hq with hq | ⟨phase, rfl, rfl⟩
    · exact hkeep (h.acking q hq hphase)
    obtain rfl : phase = .acking := hphase
    exact hr.acking rfl
  · rcases mem_next hq with hq | ⟨phase, rfl, rfl⟩
    · exact h.naking q hq hphase
    obtain rfl : phase = .naking := hphase
    exact hr.naking rfl
  rw [show ({ message := m, live := _ } : State).message.delivered = s.message.delivered
    from hr.delivered] at hlast
  rcases h.last hlast with hacked | hdead | ⟨q, hq, hnumber⟩
  · exact .inl (hr.stillAcked hacked)
  · exact .inr (.inl (hr.deadLettered hdead))
  obtain ⟨j, hj⟩ := getElem?_of_mem hq
  by_cases hji : j = i
  · -- It is the last delivery that moved.
    obtain rfl : q = p := some.inj (hj.symm.trans (hji ▸ hp))
    cases after with
    | some phase =>
      refine .inr (.inr ⟨⟨q.number, phase⟩, ?_, hnumber⟩)
      exact mem_of_getElem? (i := i) (by
        rw [next, List.getElem?_set_self (List.getElem?_eq_some_iff.mp hp).1])
    | none =>
      rcases hr.ended rfl with hacked | hdead | hnaking | hfailed
      · exact .inl hacked
      · exact .inr (.inl hdead)
      · exact absurd (h.naking q hmem hnaking) (Nat.not_lt.mpr hnumber)
      exact (hspared q hp hnumber hfailed).imp hr.stillAcked fun hdead =>
        .inl (hr.deadLettered hdead)
  · exact .inr (.inr ⟨q, mem_next_of_ne hj hji, hnumber⟩)

theorem Tracked.step (h : Tracked max s) {e : Event} (hspared : LastSpared max s e) :
    Tracked max (step max s e) := by
  cases e with
  | deliver =>
    unfold Consumer.step
    dsimp only
    split
    · refine ⟨h.acked, fun p hp hphase => ?_, fun p hp hphase => ?_, fun hlast => ?_⟩
      · rcases mem_append.mp hp with hp | hp
        · exact h.acking p hp hphase
        rw [mem_singleton.mp hp] at hphase
        cases hphase
      · rcases mem_append.mp hp with hp | hp
        · exact h.naking p hp hphase
        rw [mem_singleton.mp hp] at hphase
        cases hphase
      · exact .inr (.inr ⟨_, mem_append_right _ mem_cons_self, hlast⟩)
    · exact h
  | expire => exact ⟨h.acked, h.acking, h.naking, h.last⟩
  | awaited i a =>
    unfold Consumer.step
    dsimp only
    split
    · exact h
    next p hp =>
      split
      · exact h
      next m after hreact => exact h.awaited hp (reacts hreact) hspared

/-- **No finalize message is lost by the consumer** -/
theorem message_accounted {max : Nat} (hmax : 0 < max) (decodes : Bool) {es : List Event}
    (hspared : Along (step max) (LastSpared max) { message := { decodes := decodes } } es) :
    (Accounted max (run (step max) { message := { decodes := decodes } } es).message ∨
      ∃ p ∈ (run (step max) { message := { decodes := decodes } } es).live, max ≤ p.number) ∧
    ((run (step max) { message := { decodes := decodes } } es).live = [] →
      Accounted max (run (step max) { message := { decodes := decodes } } es).message) := by
  have hstart : Tracked max { message := { decodes := decodes } } := by
    refine ⟨nofun, forall_mem_nil _, forall_mem_nil _,
      fun hlast => absurd hlast (Nat.not_le.mpr hmax)⟩
  have h : Tracked max (run (step max) { message := { decodes := decodes } } es) :=
    hspared.invariant hstart fun _ _ hs hspared => hs.step hspared
  generalize run (step max) { message := { decodes := decodes } } es = s at h
  have hor : Accounted max s.message ∨ ∃ p ∈ s.live, max ≤ p.number := by
    by_cases hacked : s.message.acked = true
    · exact .inl ((h.acked hacked).imp (fun hh => ⟨hh, hacked⟩) .inl)
    · by_cases hlast : max ≤ s.message.delivered
      · rcases h.last hlast with hacked' | hdead | hlive
        · exact absurd hacked' hacked
        · exact .inl (.inr (.inl hdead))
        · exact .inr hlive
      · exact .inl (.inr (.inr ⟨hacked, Nat.not_le.mp hlast⟩))
  refine ⟨hor, fun hnone => hor.resolve_right fun ⟨p, hp, _⟩ => ?_⟩
  rw [hnone] at hp
  exact absurd hp not_mem_nil

/-! ## Four deliveries -/

def failsOnce : List Event :=
  [.deliver, .awaited 0 .decode, .awaited 0 (.handle .failed), .awaited 0 (.nak .accepted)]

def deadLetters : List Event :=
  failsOnce ++ failsOnce ++ [.deliver, .awaited 0 .decode, .awaited 0 .crash, .expire, .deliver,
    .awaited 0 .decode, .awaited 0 (.handle .failed), .awaited 0 (.publish .accepted),
    .awaited 0 (.ack .accepted)]

instance (max : Nat) (s : State) (e : Event) : Decidable (LastSpared max s e) :=
  match e with
  | .awaited i a =>
    match h : s.live[i]? with
    | none => .isTrue fun p hp => by rw [h] at hp; cases hp
    | some q =>
      decidable_of_iff (max ≤ q.number →
        a = .crash ∨ a = .publish .refused ∨ a = .ack .refused →
        s.message.acked ∨ s.message.deadLettered)
        ⟨fun hq p hp => Option.some.inj (h.symm.trans hp) ▸ hq, fun hall => hall q h⟩
  | .deliver | .expire => .isTrue trivial

theorem deadLetters_accounted :
    (run (step maxDeliver) {} deadLetters).live = [] ∧
      Accounted maxDeliver (run (step maxDeliver) {} deadLetters).message := by
  have hspared : Along (step maxDeliver) (LastSpared maxDeliver) {} deadLetters := by
    decide +kernel
  have hnone : (run (step maxDeliver) {} deadLetters).live = [] := by decide +kernel
  exact ⟨hnone, (message_accounted (by decide) true hspared).2 hnone⟩

/-- **A message that is nowhere.** -/
theorem last_delivery_lost :
    (run (step maxDeliver) {} (failsOnce ++ failsOnce ++ failsOnce ++
        [.deliver, .awaited 0 .decode, .awaited 0 .crash, .expire])).live = [] ∧
      ¬ Accounted maxDeliver (run (step maxDeliver) {} (failsOnce ++ failsOnce ++ failsOnce ++
        [.deliver, .awaited 0 .decode, .awaited 0 .crash, .expire])).message ∧
      (run (step maxDeliver) {} (failsOnce ++ failsOnce ++ failsOnce ++
        [.deliver, .awaited 0 .decode, .awaited 0 .crash, .expire])).message.handled = false := by
  decide +kernel

end Sentinel.Workers.Consumer
