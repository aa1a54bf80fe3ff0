import Sentinel.Lib.Runs

/-!
# The portal's token cache

`IdTokenCache` (`tokens.ts`) holds one identity token, shares the fetch that is under way among its
callers, and starts a fetch of its own only for a forced refresh that finds an unforced one.  That
one is left to run: when it completes it still writes its token, also over a newer one and also
after the cache is lost.

The provider completes fetches in any order, and what follows from a completion (the promises that
settle) happens before the next event.  A token carries the number of the fetch that obtained it.
-/

open List Bool

namespace Sentinel.TokenCache

open Runs

structure Token where
  text : String
  fetch : Nat
  deriving DecidableEq, Repr

inductive Caller where
  | get
  | refresh
  deriving DecidableEq, Repr

/-- A promise that settles, and what it settles with. -/
structure Resolved where
  caller : Caller
  value : Option Token
  deriving DecidableEq, Repr

/-- The fields of the class, the fetches started and those not yet completed, and the callers that
wait, each for a fetch. -/
structure IdTokenCache where
  token : Option Token := none
  expiresAtMs : Int := 0
  timer : Option Int := none
  inFlight : Option Nat := none
  inFlightForced : Bool := false
  lost : Bool := false
  disposed : Bool := false
  started : Nat := 0
  pending : List Nat := []
  waiting : List (Caller × Nat) := []

structure IdTokenCacheOptions where
  expiryOf : String → Int → Int
  skewMs : Int := 5 * 60 * 1000

def minRefreshDelayMs : Int := 30 * 1000

/-- How the provider completes a fetch. -/
inductive Fetched where
  | token (text : String)
  | failed
  deriving DecidableEq, Repr

inductive Event where
  | get (now : Int)
  | refresh
  | timer
  | completed (fetch : Nat) (now : Int) (outcome : Fetched)
  | dispose
  deriving DecidableEq, Repr

namespace IdTokenCache

variable (o : IdTokenCacheOptions) (s : IdTokenCache)

def startFetch (force : Bool) : IdTokenCache :=
  { s with
    inFlight := some s.started
    inFlightForced := force
    started := s.started + 1
    pending := s.pending ++ [s.started] }

/-- `#refresh`: the fetch whose promise it returns. -/
def refresh (force : Bool) : Nat × IdTokenCache :=
  match s.inFlight with
  | some k => if !force || s.inFlightForced then (k, s) else (s.started, s.startFetch force)
  | none => (s.started, s.startFetch force)

def await (caller : Caller) (force : Bool) : IdTokenCache :=
  let (k, s) := s.refresh force
  { s with waiting := s.waiting ++ [(caller, k)] }

def markLost : IdTokenCache :=
  if s.lost then s else { s with lost := true, token := none, expiresAtMs := 0, timer := none }

def scheduleRefresh (now : Int) : IdTokenCache :=
  { s with
    timer := if s.disposed || s.lost then none
      else some (max (s.expiresAtMs - o.skewMs - now) minRefreshDelayMs) }

/-- `#fetchToken` once the provider has answered. -/
def fetchToken (fetch : Nat) (now : Int) : Fetched → Option Token × IdTokenCache
  | .failed => (none, s.markLost)
  | .token text =>
    if s.disposed then (none, s)
    else if text = "" then (none, s.markLost)
    else
      (some ⟨text, fetch⟩, scheduleRefresh o
        { s with token := some ⟨text, fetch⟩, expiresAtMs := o.expiryOf text now } now)

/-- The end of a fetch: the `finally` clause, and the promises that wait for it. -/
def complete (fetch : Nat) : IdTokenCache :=
  { s with
    inFlight := if s.inFlight = some fetch then none else s.inFlight
    inFlightForced := if s.inFlight = some fetch then false else s.inFlightForced
    pending := s.pending.filter (· ≠ fetch)
    waiting := s.waiting.filter (·.2 ≠ fetch) }

def settled (fetch : Nat) (value : Option Token) : List Resolved :=
  (s.waiting.filter (·.2 = fetch)).map fun w => ⟨w.1, value⟩

def step : Event → IdTokenCache × List Resolved
  | .get now =>
    if s.lost || s.disposed then (s, [⟨.get, none⟩])
    else if s.token.isSome && now < s.expiresAtMs - o.skewMs then (s, [⟨.get, s.token⟩])
    else (s.await .get false, [])
  | .refresh =>
    if s.lost || s.disposed then (s, [⟨.refresh, none⟩]) else (s.await .refresh true, [])
  | .timer =>
    if s.timer.isSome then (({ s with timer := none } : IdTokenCache).refresh true |>.2, [])
    else (s, [])
  | .completed fetch now outcome =>
    if fetch ∈ s.pending then
      let (value, s') := s.fetchToken o fetch now outcome
      (s'.complete fetch, s.settled fetch value)
    else (s, [])
  | .dispose => ({ s with disposed := true, token := none, expiresAtMs := 0, timer := none }, [])

def next (s : IdTokenCache) (e : Event) : IdTokenCache := (s.step o e).1

end IdTokenCache

open IdTokenCache

variable {o : IdTokenCacheOptions} {s : IdTokenCache} {k : Nat}

/-- Nothing in the cache or under way is older than fetch `k`; a cache that has ended has no
timer. -/
structure Since (k : Nat) (s : IdTokenCache) : Prop where
  token : ∀ t ∈ s.token, k ≤ t.fetch
  pending : ∀ j ∈ s.pending, k ≤ j ∧ j < s.started
  started : k ≤ s.started
  timer : s.lost = true ∨ s.disposed = true → s.timer = none

theorem since_init : Since 0 {} := by
  constructor <;> simp

theorem Since.refresh (h : Since k s) (force : Bool) : Since k (s.refresh force).2 := by
  have hstart : Since k (s.startFetch force) := by
    refine ⟨h.token, fun j hj => ?_, Nat.le_succ_of_le h.started, h.timer⟩
    rcases mem_append.mp hj with hj | hj
    · exact ⟨(h.pending j hj).1, Nat.lt_succ_of_lt (h.pending j hj).2⟩
    rw [mem_singleton.mp hj]
    exact ⟨h.started, Nat.lt_succ_self _⟩
  rw [IdTokenCache.refresh]
  split
  case h_1 =>
    split
    case isTrue => exact h
    case isFalse => exact hstart
  case h_2 => exact hstart

theorem Since.await (h : Since k s) (caller : Caller) (force : Bool) :
    Since k (s.await caller force) :=
  { h.refresh force with }

theorem Since.markLost (h : Since k s) : Since k s.markLost := by
  rw [IdTokenCache.markLost]
  split
  case isTrue => exact h
  case isFalse => exact { h with token := by simp, timer := fun _ => rfl }

variable {fetch : Nat} {t : Token} {e : Event} {r : Resolved}

theorem Since.fetchToken (h : Since k s) (hfetch : k ≤ fetch) (now : Int)
    (outcome : Fetched) : Since k (s.fetchToken o fetch now outcome).2 := by
  cases outcome with
  | failed => exact h.markLost
  | token text =>
    rw [IdTokenCache.fetchToken]
    split
    case isTrue => exact h
    case isFalse =>
      split
      case isTrue => exact h.markLost
      case isFalse =>
        refine ⟨?_, h.pending, h.started, fun hend => if_pos ((or_eq_true _ _).mpr hend.symm)⟩
        rintro t ⟨⟩
        exact hfetch

theorem Since.next (h : Since k s) (e : Event) : Since k (s.next o e) := by
  rw [IdTokenCache.next]
  cases e with
  | get now =>
    rw [step]
    split
    case isTrue => exact h
    case isFalse =>
      split
      case isTrue => exact h
      case isFalse => exact h.await .get false
  | refresh =>
    rw [step]
    split
    case isTrue => exact h
    case isFalse => exact h.await .refresh true
  | timer =>
    rw [step]
    split
    case isTrue =>
      have hs : Since k { s with timer := none } := { h with timer := fun _ => rfl }
      exact hs.refresh true
    case isFalse => exact h
  | completed fetch now outcome =>
    rw [step]
    split
    case isTrue hmem =>
      have hs := h.fetchToken (o := o) (h.pending fetch hmem).1 now outcome
      exact { hs with pending := fun j hj => hs.pending j (mem_of_mem_filter hj) }
    case isFalse => exact h
  | dispose => exact { h with token := by simp [step], timer := fun _ => rfl }

/-- A completion leaves the other fetches alone, and a disposed cache as it is. -/
theorem fetchToken_frame (s : IdTokenCache) (fetch : Nat) (now : Int) (outcome : Fetched) :
    (s.fetchToken o fetch now outcome).2.pending = s.pending ∧
      (s.fetchToken o fetch now outcome).2.started = s.started ∧
      (s.fetchToken o fetch now outcome).2.disposed = s.disposed := by
  have hlost : s.markLost.pending = s.pending ∧ s.markLost.started = s.started ∧
      s.markLost.disposed = s.disposed := by
    rw [markLost]
    split <;> exact ⟨rfl, rfl, rfl⟩
  cases outcome with
  | failed => exact hlost
  | token text =>
    rw [fetchToken]
    split
    case isTrue => exact ⟨rfl, rfl, rfl⟩
    case isFalse =>
      split
      case isTrue => exact hlost
      case isFalse => exact ⟨rfl, rfl, rfl⟩

theorem fetchToken_eq_some {now : Int} {outcome : Fetched}
    (h : (s.fetchToken o fetch now outcome).1 = some t) :
    t.fetch = fetch ∧ s.disposed = false ∧ (s.fetchToken o fetch now outcome).2.token = some t := by
  cases outcome with
  | failed => cases h
  | token text =>
    rw [fetchToken] at h ⊢
    split at h
    case isTrue => cases h
    case isFalse hdisposed =>
      split at h
      case isTrue => cases h
      case isFalse hempty =>
        cases h
        rw [if_neg hdisposed, if_neg hempty]
        exact ⟨rfl, eq_false_iff.mpr hdisposed, rfl⟩

/-- Where a token comes from: the cache, for `get`, or the fetch that completes. -/
theorem source_of_resolved (hr : r ∈ (s.step o e).2) (ht : r.value = some t) :
    (r.caller = .get ∧ s.token = some t ∧ (s.lost || s.disposed) = false) ∨
      ∃ fetch now outcome, e = .completed fetch now outcome ∧ fetch ∈ s.pending ∧
        (s.fetchToken o fetch now outcome).1 = some t := by
  cases e with
  | get now =>
    rw [step] at hr
    split at hr
    case isTrue =>
      rw [mem_singleton.mp hr] at ht
      cases ht
    case isFalse hend =>
      split at hr
      case isTrue =>
        rw [mem_singleton.mp hr] at ht ⊢
        exact .inl ⟨rfl, ht, eq_false_iff.mpr hend⟩
      case isFalse => cases hr
  | refresh =>
    rw [step] at hr
    split at hr
    case isTrue =>
      rw [mem_singleton.mp hr] at ht
      cases ht
    case isFalse => cases hr
  | timer =>
    rw [step] at hr
    split at hr <;> cases hr
  | completed fetch now outcome =>
    rw [step] at hr
    split at hr
    case isTrue hmem =>
      obtain ⟨w, -, rfl⟩ := mem_map.mp hr
      exact .inr ⟨fetch, now, outcome, rfl, hmem, ht⟩
    case isFalse => cases hr
  | dispose => cases hr

theorem Since.of_resolved (h : Since k s) (hr : r ∈ (s.step o e).2)
    (ht : r.value = some t) : k ≤ t.fetch := by
  rcases source_of_resolved hr ht with ⟨-, htoken, -⟩ | ⟨fetch, now, outcome, -, hmem, hvalue⟩
  · exact h.token t htoken
  rw [(fetchToken_eq_some hvalue).1]
  exact (h.pending fetch hmem).1

/-- A forced refresh resolves when its fetch completes, and its token is then the one in the
cache. -/
theorem since_of_refreshed (h : Since 0 s)
    (hr : ⟨.refresh, some t⟩ ∈ (s.step o e).2) (hfirst : ∀ j ∈ s.pending, t.fetch ≤ j) :
    Since t.fetch (s.next o e) := by
  rcases source_of_resolved hr rfl with ⟨hget, -⟩ | ⟨fetch, now, outcome, rfl, hmem, hvalue⟩
  · cases hget
  have hnext := h.next (o := o) (.completed fetch now outcome)
  obtain ⟨hpending, hstarted, -⟩ := fetchToken_frame (o := o) s fetch now outcome
  obtain ⟨rfl, -, htoken⟩ := fetchToken_eq_some hvalue
  rw [IdTokenCache.next, step, if_pos hmem] at hnext ⊢
  refine { hnext with
    token := fun u hu => ?_
    pending := fun j hj => ⟨hfirst j ?_, (hnext.pending j hj).2⟩
    started := ?_ }
  · exact Nat.le_of_eq (congrArg Token.fetch (Option.some.inj (htoken.symm.trans hu)))
  · rw [← hpending]
    exact mem_of_mem_filter hj
  · exact Nat.le_of_lt (Nat.lt_of_lt_of_eq (h.pending _ hmem).2 hstarted.symm)

/-- The cache has come to its end: it is disposed of, or lost with no fetch under way. -/
def Over (s : IdTokenCache) : Prop := s.disposed = true ∨ s.lost = true ∧ s.pending = []

theorem Over.ended (h : Over s) : (s.lost || s.disposed) = true := by
  rcases h with h | ⟨h, -⟩ <;> simp [h]

theorem Over.disposed (h : Over s) (hmem : k ∈ s.pending) : s.disposed = true :=
  h.resolve_right fun hlost => not_mem_nil (hlost.2 ▸ hmem)

theorem Over.next (h : Over s) (hs : Since k s) (e : Event) : Over (s.next o e) := by
  rw [IdTokenCache.next]
  cases e with
  | get | refresh => rwa [step, if_pos h.ended]
  | timer =>
    have htimer : s.timer = none := hs.timer ((or_eq_true _ _).mp h.ended)
    rwa [step, htimer]
  | completed fetch now outcome =>
    rw [step]
    split
    case isTrue hmem =>
      exact .inl ((fetchToken_frame s fetch now outcome).2.2.trans (h.disposed hmem))
    case isFalse => exact h
  | dispose => exact .inl rfl

theorem Over.of_resolved (h : Over s) (hr : r ∈ (s.step o e).2) : r.value = none := by
  by_contra hvalue
  obtain ⟨t, ht⟩ := Option.ne_none_iff_exists'.mp hvalue
  rcases source_of_resolved hr ht with ⟨-, -, hend⟩ | ⟨fetch, now, outcome, -, hmem, hvalue⟩
  · exact false_ne_true (hend.symm.trans h.ended)
  · exact false_ne_true ((fetchToken_eq_some hvalue).2.1.symm.trans (h.disposed hmem))

/-- **A forced refresh wins, and an end is an end, when no other fetch is under way.**  After a
refresh has resolved with the token of a fetch, `get` gives no token of an earlier one if none was
still to complete; and after the cache is disposed of, or lost with no fetch under way, nothing
resolves with a token. -/
theorem forced_refresh_wins (before after : List Event) :
    (∀ e t, ⟨.refresh, some t⟩ ∈ ((run (next o) {} before).step o e).2 →
      (∀ j ∈ (run (next o) {} before).pending, t.fetch ≤ j) →
        Along (next o) (fun s e => ∀ u, ⟨.get, some u⟩ ∈ (s.step o e).2 → t.fetch ≤ u.fetch)
          (run (next o) {} (before ++ [e])) after) ∧
      (Over (run (next o) {} before) →
        Along (next o) (fun s e => ∀ r ∈ (s.step o e).2, r.value = none)
          (run (next o) {} before) after) := by
  have hs : Since 0 (run (next o) {} before) :=
    run_invariant since_init (fun _ e h => h.next e) before
  refine ⟨fun e t hr hfirst => ?_, fun hover => ?_⟩
  · rw [run_concat]
    exact along_of_run_invariant (since_of_refreshed hs hr hfirst) (fun _ e h => h.next e)
      fun _ _ h u hu => h.of_resolved hu rfl
  · exact along_of_run_invariant (I := fun s => Over s ∧ Since 0 s) ⟨hover, hs⟩
      (fun _ e h => ⟨h.1.next h.2 e, h.2.next e⟩) fun _ _ h r hr => h.1.of_resolved hr

/-- Tokens whose expiry cannot be read. -/
def unreadable : IdTokenCacheOptions := { expiryOf := fun _ now => now + 10 * 60 * 1000 }

theorem refresh_after_get_wins :
    Along (next unreadable) (fun s e => ∀ u, ⟨.get, some u⟩ ∈ (s.step unreadable e).2 → 1 ≤ u.fetch)
      (run (next unreadable) {} [.get 0, .completed 0 0 (.token "old"), .refresh,
        .completed 1 0 (.token "new")]) [.get 1] ∧
      Along (next unreadable) (fun s e => ∀ r ∈ (s.step unreadable e).2, r.value = none)
        (run (next unreadable) {} [.refresh, .dispose]) [.completed 0 0 (.token "old"), .get 1] :=
  ⟨(forced_refresh_wins [.get 0, .completed 0 0 (.token "old"), .refresh] [.get 1]).1
      (.completed 1 0 (.token "new")) ⟨"new", 1⟩ (by decide) (by decide),
    (forced_refresh_wins [.refresh, .dispose] _).2 (.inl rfl)⟩

/-- The promises that settle in a run. -/
def resolutions (o : IdTokenCacheOptions) : IdTokenCache → List Event → List Resolved
  | _, [] => []
  | s, e :: es => (s.step o e).2 ++ resolutions o (s.next o e) es

/-- A fetch that a forced refresh overtook writes its older token over the newer one; and one that
is under way when the cache is lost still resolves with its token. -/
theorem overtaken_fetch_wins :
    resolutions unreadable {} [.get 0, .refresh, .completed 1 0 (.token "new"),
      .completed 0 0 (.token "old"), .get 1] =
        [⟨.refresh, some ⟨"new", 1⟩⟩, ⟨.get, some ⟨"old", 0⟩⟩, ⟨.get, some ⟨"old", 0⟩⟩] ∧
      (run (next unreadable) {} [.get 0, .refresh, .completed 1 0 .failed]).lost = true ∧
      resolutions unreadable (run (next unreadable) {} [.get 0, .refresh, .completed 1 0 .failed])
        [.completed 0 0 (.token "old")] = [⟨.get, some ⟨"old", 0⟩⟩] := by
  decide

end Sentinel.TokenCache
