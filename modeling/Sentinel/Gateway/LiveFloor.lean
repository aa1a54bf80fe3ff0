import Mathlib.Data.Finset.Card
import Sentinel.Lib.Runs
import Sentinel.Lib.Table

/-!
# The live view of a floor

A browser opens the stream of a team's calls with a ticket that it was given a moment before
(`live.go`).
-/

open List Table

namespace Sentinel.Live

open Runs

/-! ## Tickets -/

section Tickets

variable {Identity : Type}

structure LiveTicket (Identity : Type) where
  identity : Identity
  teamId : String
  expiresAt : Int

structure LiveTickets (Identity : Type) where
  byId : Table String (LiveTicket Identity) := ∅
  ttl : Int

inductive TicketCall (Identity : Type) where
  | mint (token : String) (id : Identity) (teamId : String) (now : Int)
  | consume (token : String) (now : Int)

variable (hashTicket : String → String)

namespace LiveTickets

def mint (l : LiveTickets Identity) (token : String) (id : Identity) (teamId : String)
    (now : Int) : LiveTickets Identity :=
  { l with
    byId := (l.byId.filter fun row => ¬ now > row.2.expiresAt).put (hashTicket token)
      ⟨id, teamId, now + l.ttl⟩ }

def consume (l : LiveTickets Identity) (token : String) (now : Int) :
    Option (LiveTicket Identity) × LiveTickets Identity :=
  ((l.byId.get? (hashTicket token)).filter fun t => ¬ now > t.expiresAt,
    { l with byId := l.byId.erase (hashTicket token) })

def call (l : LiveTickets Identity) : TicketCall Identity → LiveTickets Identity
  | .mint token id teamId now => l.mint hashTicket token id teamId now
  | .consume token now => (l.consume hashTicket token now).2

end LiveTickets

namespace TicketCall

def now : TicketCall Identity → Int
  | .mint _ _ _ now => now
  | .consume _ now => now

def minted (calls : List (TicketCall Identity)) : List String :=
  calls.filterMap fun
    | .mint token _ _ _ => some token
    | .consume _ _ => none

end TicketCall

def keep (ttl : Int) (key : String) (t : Option (LiveTicket Identity)) :
    TicketCall Identity → Option (LiveTicket Identity)
  | .mint token id teamId now => if hashTicket token = key then some ⟨id, teamId, now + ttl⟩ else t
  | .consume token _ => if hashTicket token = key then none else t

variable {hashTicket} {l : LiveTickets Identity} {calls : List (TicketCall Identity)} {now : Int}
  {kept : String → Option (LiveTicket Identity)}

structure Tracks (now : Int) (l : LiveTickets Identity)
    (kept : String → Option (LiveTicket Identity)) : Prop where
  sound : ∀ key t, l.byId.get? key = some t → kept key = some t
  complete : ∀ key t, kept key = some t → now ≤ t.expiresAt → l.byId.get? key = some t

theorem Tracks.later (h : Tracks now l kept) {later : Int} (hlater : now ≤ later) :
    Tracks later l kept :=
  ⟨h.sound, fun key t hkept hexp => h.complete key t hkept (hlater.trans hexp)⟩

theorem get?_call (l : LiveTickets Identity) (c : TicketCall Identity) (key : String) :
    (∀ t, keep hashTicket l.ttl key t c = (l.call hashTicket c).byId.get? key) ∨
      (∀ t, keep hashTicket l.ttl key t c = t) ∧
        ∀ t, ((l.call hashTicket c).byId.get? key = some t → l.byId.get? key = some t) ∧
          (l.byId.get? key = some t → c.now ≤ t.expiresAt →
            (l.call hashTicket c).byId.get? key = some t) := by
  cases c with
  | mint token id teamId now =>
    by_cases hkey : hashTicket token = key
    · refine .inl fun t => ?_
      rw [keep, if_pos hkey, LiveTickets.call, LiveTickets.mint, hkey, get?_put_self]
    refine .inr ⟨fun t => if_neg hkey, fun t => ?_⟩
    rw [LiveTickets.call, LiveTickets.mint, get?_put_ne _ (Ne.symm hkey),
      get?_filter, Option.filter_eq_some_iff]
    exact ⟨fun h => h.1, fun h hexp => ⟨h, decide_eq_true (not_lt.mpr hexp)⟩⟩
  | consume token now =>
    by_cases hkey : hashTicket token = key
    · refine .inl fun t => ?_
      rw [keep, if_pos hkey, LiveTickets.call, LiveTickets.consume, hkey, get?_erase_self]
    refine .inr ⟨fun t => if_neg hkey, fun t => ?_⟩
    rw [LiveTickets.call, LiveTickets.consume, get?_erase_ne _ (Ne.symm hkey)]
    exact ⟨id, fun h _ => h⟩

theorem Tracks.call (h : Tracks now l kept) {c : TicketCall Identity} (hc : now ≤ c.now) :
    Tracks c.now (l.call hashTicket c) fun key => keep hashTicket l.ttl key (kept key) c := by
  refine ⟨fun key t ht => ?_, fun key t ht hexp => ?_⟩
  · rcases get?_call l c key with heq | ⟨hkeep, hget⟩
    · rw [heq, ht]
    rw [hkeep]
    exact h.sound key t ((hget t).1 ht)
  rcases get?_call l c key with heq | ⟨hkeep, hget⟩
  · rw [← heq, ht]
  rw [hkeep] at ht
  exact (hget t).2 (h.complete key t ht (hc.trans hexp)) hexp

theorem ttl_call (c : TicketCall Identity) : (l.call hashTicket c).ttl = l.ttl := by
  cases c <;> rfl

theorem Tracks.run (h : Tracks now l kept) (hclock : calls.Pairwise (·.now ≤ ·.now))
    (hstart : ∀ c ∈ calls, now ≤ c.now) {later : Int} (hlater : now ≤ later)
    (hcalls : ∀ c ∈ calls, c.now ≤ later) :
    Tracks later (run (LiveTickets.call hashTicket) l calls)
      fun key => run (keep hashTicket l.ttl key) (kept key) calls := by
  induction calls generalizing l now kept with
  | nil => exact h.later hlater
  | cons c calls ih =>
    obtain ⟨hc, hclock⟩ := pairwise_cons.mp hclock
    obtain ⟨hnow, -⟩ := forall_mem_cons.mp hstart
    obtain ⟨hle, hcalls⟩ := forall_mem_cons.mp hcalls
    have hstep := @Tracks.call _ hashTicket _ _ _ h c hnow
    have htail := ih hstep hclock hc hle hcalls
    rwa [ttl_call] at htail

variable {ttl : Int}

def redeem (hashTicket : String → String) (ttl : Int) (calls : List (TicketCall Identity))
    (token : String) (now : Int) : Option (LiveTicket Identity) :=
  ((run (LiveTickets.call hashTicket) ⟨∅, ttl⟩ calls).consume hashTicket token now).1

theorem redeem_eq (hclock : calls.Pairwise (·.now ≤ ·.now)) (hcalls : ∀ c ∈ calls, c.now ≤ now)
    (token : String) : redeem hashTicket ttl calls token now =
      (run (keep hashTicket ttl (hashTicket token)) none calls).filter
        fun t => ¬ now > t.expiresAt := by
  have hnew : ∀ now, Tracks now (⟨∅, ttl⟩ : LiveTickets Identity) fun _ => none :=
    fun now => ⟨fun _ _ h => absurd h (by simp), fun _ _ h => absurd h (by simp)⟩
  have htracks : Tracks now (run (LiveTickets.call hashTicket) ⟨∅, ttl⟩ calls)
      fun key => run (keep hashTicket ttl key) none calls := by
    cases calls with
    | nil => exact hnew now
    | cons c calls =>
      have hstart : ∀ d ∈ c :: calls, c.now ≤ d.now :=
        forall_mem_cons.mpr ⟨le_rfl, (pairwise_cons.mp hclock).1⟩
      exact (hnew c.now).run hclock hstart (hcalls c mem_cons_self) hcalls
  ext t
  rw [redeem, LiveTickets.consume, Option.filter_eq_some_iff, Option.filter_eq_some_iff]
  constructor
  · exact fun h => ⟨htracks.sound _ t h.1, h.2⟩
  · exact fun h => ⟨htracks.complete _ t h.1 (not_lt.mp (of_decide_eq_true h.2)), h.2⟩

theorem minted_of_keep {key : String} {t : LiveTicket Identity}
    (h : run (keep hashTicket ttl key) none calls = some t) : ∃ token id teamId issued,
      .mint token id teamId issued ∈ calls ∧ hashTicket token = key ∧
        t = ⟨id, teamId, issued + ttl⟩ := by
  refine run_invariant_of_mem (I := fun kept => ∀ t, kept = some t → ∃ token id teamId issued,
    .mint token id teamId issued ∈ calls ∧ hashTicket token = key ∧ t = ⟨id, teamId, issued + ttl⟩)
    (fun t h => by cases h) (fun kept c hc ih t h => ?_) t h
  cases c with
  | mint token id teamId issued =>
    rw [keep] at h
    split at h
    case isTrue hkey => exact ⟨token, id, teamId, issued, hc, hkey, (Option.some.inj h).symm⟩
    case isFalse => exact ih t h
  | consume token time =>
    rw [keep] at h
    split at h
    · cases h
    · exact ih t h

theorem mem_minted {token : String} : token ∈ TicketCall.minted calls ↔
    ∃ id teamId issued, TicketCall.mint token id teamId issued ∈ calls := by
  rw [TicketCall.minted, mem_filterMap]
  constructor
  · rintro ⟨c, hc, htoken⟩
    cases c with
    | mint token' id teamId issued =>
      obtain rfl := Option.some.inj htoken
      exact ⟨id, teamId, issued, hc⟩
    | consume => cases htoken
  rintro ⟨id, teamId, issued, hc⟩
  exact ⟨_, hc, rfl⟩

/-- **Tickets are redeemed once.** -/
theorem tickets_single_use (hclock : calls.Pairwise (·.now ≤ ·.now))
    (hdistinct : (TicketCall.minted calls).Nodup)
    (hhash : ∀ a ∈ TicketCall.minted calls, ∀ b ∈ TicketCall.minted calls,
      hashTicket a = hashTicket b → a = b) (hcalls : ∀ c ∈ calls, c.now ≤ now) :
    (∀ before token id teamId issued after,
      calls = before ++ .mint token id teamId issued :: after →
      (∀ other time, .consume other time ∈ after → hashTicket other ≠ hashTicket token) →
      redeem hashTicket ttl calls token now =
        if now ≤ issued + ttl then some ⟨id, teamId, issued + ttl⟩ else none) ∧
    (∀ token t, redeem hashTicket ttl calls token now = some t → ∃ minted id teamId issued,
      .mint minted id teamId issued ∈ calls ∧ hashTicket minted = hashTicket token ∧
        t = ⟨id, teamId, issued + ttl⟩ ∧ now ≤ issued + ttl) ∧
    ∀ before token time after t, calls = before ++ .consume token time :: after →
      redeem hashTicket ttl before token time = some t →
        ∀ other, hashTicket other = hashTicket token →
          redeem hashTicket ttl calls other now = none := by
  -- Two tokens minted in different parts of the run have different hashes.
  have hsep : ∀ a b, calls = a ++ b → ∀ x ∈ TicketCall.minted a, ∀ y ∈ TicketCall.minted b,
      hashTicket y ≠ hashTicket x := by
    rintro a b rfl x hx y hy heq
    rw [TicketCall.minted, filterMap_append] at hdistinct hhash
    have hxy := hhash y (mem_append_right _ hy) x (mem_append_left _ hx) heq
    exact (nodup_append.mp hdistinct).2.2 x hx y hy hxy.symm
  refine ⟨?_, fun token t h => ?_, ?_⟩
  · rintro before token id teamId issued after rfl hafter
    have hkept : run (keep hashTicket ttl (hashTicket token)) none
        (before ++ .mint token id teamId issued :: after) = some ⟨id, teamId, issued + ttl⟩ := by
      rw [run_append, run_cons, keep, if_pos rfl]
      refine run_invariant_of_mem (I := fun kept =>
        kept = some (⟨id, teamId, issued + ttl⟩ : LiveTicket Identity)) rfl fun kept c hc ht => ?_
      cases c with
      | mint other id' teamId' issued' =>
        refine (if_neg ?_).trans ht
        exact hsep (before ++ [.mint token id teamId issued]) after (by simp) token
          (mem_minted.mpr ⟨id, teamId, issued, by simp⟩) other
          (mem_minted.mpr ⟨id', teamId', issued', hc⟩)
      | consume other time => exact (if_neg (hafter other time hc)).trans ht
    rw [redeem_eq hclock hcalls, hkept, Option.filter_some]
    simp only [gt_iff_lt, not_lt, decide_eq_true_eq]
  · rw [redeem_eq hclock hcalls, Option.filter_eq_some_iff] at h
    obtain ⟨minted, id, teamId, issued, hmem, hhash', rfl⟩ := minted_of_keep h.1
    exact ⟨minted, id, teamId, issued, hmem, hhash', rfl, not_lt.mp (of_decide_eq_true h.2)⟩
  · rintro before token time after t rfl hredeem other hother
    obtain ⟨hbefore, -, hcross⟩ := pairwise_append.mp hclock
    have htime : ∀ c ∈ before, c.now ≤ time := fun c hc => hcross c hc _ mem_cons_self
    rw [redeem_eq hbefore htime, Option.filter_eq_some_iff] at hredeem
    obtain ⟨minted, id, teamId, issued, hmem, hkey, -⟩ := minted_of_keep hredeem.1
    have hkept : run (keep hashTicket ttl (hashTicket other)) none
        (before ++ .consume token time :: after) = none := by
      rw [run_append, run_cons, keep, if_pos hother.symm]
      refine run_invariant_of_mem (I := (· = none)) rfl fun kept c hc ht => ?_
      cases c with
      | mint other' id' teamId' issued' =>
        refine (if_neg ?_).trans ht
        rw [hother, ← hkey]
        exact hsep (before ++ [.consume token time]) after (by simp) minted
          (mem_minted.mpr ⟨id, teamId, issued, by simp [hmem]⟩) other'
          (mem_minted.mpr ⟨id', teamId', issued', hc⟩)
      | consume => rw [keep, ht, ite_self]
    rw [redeem_eq hclock hcalls, hkept]
    rfl

/-- A ticket redeemed at the instant of its expiry, with another one minted in between. -/
theorem redeemed_at_expiry :
    redeem id 60 [.mint "a" "uid-1" "team-1" 0, .mint "b" "uid-2" "team-2" 30] "a" 60 =
      some ⟨"uid-1", "team-1", 60⟩ := by
  refine (tickets_single_use ?_ ?_ (fun _ _ _ _ h => h) ?_).1 [] "a" "uid-1" "team-1" 0
    [.mint "b" "uid-2" "team-2" 30] rfl ?_
  all_goals simp [TicketCall.now, TicketCall.minted]

end Tickets

/-! ## The stream -/

structure LiveCallEvent where
  callId : String
  userUid : String
  displayName : String
  state : String
  elapsedMs : Int
  deriving DecidableEq

inductive SseEvent where
  | call (e : LiveCallEvent)
  | callEnded (callId : String)
  | snapshot (count : Nat)

structure Poll where
  events : Option (List LiveCallEvent)
  order : List String → List String
  perm : ∀ keys, (order keys).Perm keys

structure FloorStream where
  previous : List String := []
  sent : List SseEvent := []

def FloorStream.send (s : FloorStream) (p : Poll) : FloorStream :=
  match p.events with
  | none => s
  | some events =>
    let current := (events.map (·.callId)).dedup
    let ended := (p.order s.previous).filter (· ∉ current)
    ⟨current, s.sent ++ events.map .call ++ ended.map .callEnded ++ [.snapshot current.length]⟩

def SseEvent.apply (shown : Finset String) : SseEvent → Finset String
  | .call e => insert e.callId shown
  | .callEnded callId => shown.erase callId
  | .snapshot _ => shown

def client (sent : List SseEvent) : Finset String := run SseEvent.apply ∅ sent

variable {sent : List SseEvent} {id : String}

theorem mem_client_calls (events : List LiveCallEvent) :
    id ∈ client (sent ++ events.map .call) ↔ id ∈ client sent ∨ id ∈ events.map (·.callId) := by
  rw [client, run_append, ← client]
  generalize client sent = shown
  induction events generalizing shown with
  | nil => simp
  | cons e events ih =>
    rw [map_cons, run_cons, ih, SseEvent.apply, Finset.mem_insert, map_cons, mem_cons, or_left_comm,
      or_assoc]

theorem mem_client_ended (ended : List String) :
    id ∈ client (sent ++ ended.map .callEnded) ↔ id ∈ client sent ∧ id ∉ ended := by
  rw [client, run_append, ← client]
  generalize client sent = shown
  induction ended generalizing shown with
  | nil => simp
  | cons callId ended ih =>
    rw [map_cons, run_cons, ih, SseEvent.apply, Finset.mem_erase, mem_cons, not_or, and_assoc,
      and_left_comm]

def FloorStream.InStep (s : FloorStream) : Prop := client s.sent = s.previous.toFinset

theorem FloorStream.InStep.written {s : FloorStream} (h : s.InStep) (p : Poll)
    (events : List LiveCallEvent) :
    client (s.sent ++ events.map .call ++
      ((p.order s.previous).filter (· ∉ (events.map (·.callId)).dedup)).map .callEnded) =
      (events.map (·.callId)).toFinset := by
  ext id
  rw [mem_client_ended, mem_client_calls, h, mem_toFinset, mem_toFinset, mem_filter,
    (p.perm s.previous).mem_iff, decide_eq_true_iff, mem_dedup]
  tauto

theorem FloorStream.InStep.send {s : FloorStream} (h : s.InStep) (p : Poll) :
    (s.send p).InStep := by
  unfold FloorStream.send
  cases p.events with
  | none => exact h
  | some events =>
    have hcurrent : (events.map (·.callId)).dedup.toFinset = (events.map (·.callId)).toFinset := by
      ext id
      simp
    unfold InStep
    rw [hcurrent, client, run_concat]
    exact h.written p events

/-- **A client sees the floor.** -/
theorem floor_reconstructed (polls : List Poll) :
    Along FloorStream.send (fun s p => (p.events = none → (s.send p).sent = s.sent) ∧
      ∀ events, p.events = some events → ∃ written count,
        (s.send p).sent = s.sent ++ written ++ [.snapshot count] ∧
        (∀ n, .snapshot n ∉ written) ∧
        client (s.sent ++ written) = (events.map (·.callId)).toFinset ∧
        count = (client (s.sent ++ written)).card) {} polls := by
  refine along_of_run_invariant (I := FloorStream.InStep) rfl (fun s p h => h.send p)
    fun s p h => ⟨fun hnone => ?_, fun events hevents => ?_⟩
  · rw [FloorStream.send, hnone]
  · have hwritten := h.written p events
    rw [append_assoc] at hwritten
    refine ⟨_, _, ?_, ?_, hwritten, rfl⟩
    · rw [hwritten, card_toFinset, FloorStream.send, hevents, ← append_assoc s.sent]
    · simp

end Sentinel.Live
