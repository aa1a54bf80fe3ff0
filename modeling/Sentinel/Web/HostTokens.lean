import Sentinel.Lib.Runs

/-!
# The widget's host tokens

The widget reads its token from the native host for every request (`bridge.ts`), and after a 401 the
API client asks for a fresh one (`client.ts`), once for all requests that wait.  What the refresh
takes for the rejected token is the one issued last, to whichever request: when the host rotates the
token and another request has already read the new one, the refresh waits for a third.

Requests take turns at every `await`; the host answers each read as it likes.
-/

open List

namespace Sentinel.HostTokens

open Runs

/-- A value that the host passes. -/
inductive Marshalled where
  | null
  | text (s : String)
  | other
  deriving DecidableEq, Repr

def normaliseToken : Marshalled → Option String
  | .text s => if s = "" then none else some s
  | _ => none

/-- What one read finds: the answer of `getToken`, if the host has it (an error and a timeout are
`null`), and the token on the window. -/
structure Offer where
  fromHost : Option Marshalled
  onWindow : Marshalled
  deriving DecidableEq, Repr

def Offer.read (o : Offer) : Option String :=
  match o.fromHost with
  | none | some .null => normaliseToken o.onWindow
  | some answer => normaliseToken answer

def refreshWindowMs : Int := 3000

/-- A refresh under way: the variables `rejected` and `deadline` of `refreshToken`. -/
structure Refreshing where
  rejected : Option String
  deadline : Int
  deriving DecidableEq, Repr

/-- Where a request is: reading its token, sent with it, waiting for the refresh after a 401, or
with the answer of that refresh. -/
inductive Request where
  | unsent
  | reading
  | sent (token : String)
  | waiting (token : String)
  | refreshed (token : String) (fresh : Option String)
  | ended
  deriving DecidableEq, Repr

structure World where
  lastIssued : Option String := none
  refreshInFlight : Option Refreshing := none
  request : Nat → Request := fun _ => .unsent

inductive Event where
  | begin (i : Nat)
  | read (i : Nat) (offer : Offer)
  | answered (i : Nat)
  | rejected (i : Nat) (now : Int)
  | polled (offer : Offer) (now : Int)
  deriving DecidableEq, Repr

namespace World

variable (w : World)

def put (i : Nat) (r : Request) : World :=
  { w with request := fun j => if j = i then r else w.request j }

/-- `#forceRefresh`, which joins the refresh under way or starts one. -/
def forceRefresh (now : Int) : World :=
  { w with
    refreshInFlight := some (w.refreshInFlight.getD ⟨w.lastIssued, now + refreshWindowMs⟩) }

/-- The refresh returns, to every request that waits. -/
def resolve (fresh : Option String) : World where
  lastIssued := fresh
  refreshInFlight := none
  request i := match w.request i with
    | .waiting token => .refreshed token fresh
    | r => r

def step : Event → World
  | .begin i => if w.request i = .unsent then w.put i .reading else w
  | .read i offer =>
    if w.request i = .reading then
      { w.put i ((offer.read.map Request.sent).getD .ended) with lastIssued := offer.read }
    else w
  | .answered i =>
    match w.request i with
    | .sent _ => w.put i .ended
    | _ => w
  | .rejected i now =>
    match w.request i with
    | .sent token => (w.put i (.waiting token)).forceRefresh now
    | _ => w
  | .polled offer now =>
    match w.refreshInFlight with
    | none => w
    | some r =>
      if offer.read ≠ none ∧ offer.read ≠ r.rejected then w.resolve offer.read
      else if r.deadline ≤ now then w.resolve none
      else w

/-- The token that a request rejected now has its refresh compare with. -/
def comparedWith : Option String := (w.refreshInFlight.map (·.rejected)).getD w.lastIssued

end World

/-- What `#request` does with the answer of its refresh. -/
inductive Retry where
  | noCredentials
  | unauthorized
  | sent (token : String)
  deriving DecidableEq, Repr

def retry (token : String) : Option String → Retry
  | none => .noCredentials
  | some fresh => if fresh = token then .unauthorized else .sent fresh

def Request.Rejected : Request → Prop
  | .waiting _ | .refreshed _ _ => True
  | _ => False

def Event.IsPoll : Event → Prop
  | .polled _ _ => True
  | _ => False

variable {i : Nat} {t u : String} {w : World}

/-- Request `i` waits, with token `t`, for a refresh that takes `old` for the rejected token. -/
def Awaits (i : Nat) (t : String) (old : Option String) (w : World) : Prop :=
  w.request i = .waiting t ∧ ∃ deadline, w.refreshInFlight = some ⟨old, deadline⟩

theorem awaits_of_rejected (h : w.request i = .sent t) (now : Int) :
    Awaits i t w.comparedWith (w.step (.rejected i now)) := by
  rw [World.step, h]
  refine ⟨if_pos rfl, (w.refreshInFlight.map (·.deadline)).getD (now + refreshWindowMs), ?_⟩
  cases hr : w.refreshInFlight <;> simp [World.forceRefresh, World.put, World.comparedWith, hr]

/-- A request that has been rejected is moved only by the refresh, and what the others do leaves a
refresh alone. -/
theorem step_of_not_poll {e : Event} (he : ¬ e.IsPoll) :
    ((w.request i).Rejected → (w.step e).request i = w.request i) ∧
      ∀ r, w.refreshInFlight = some r → (w.step e).refreshInFlight = some r := by
  have hput : ∀ {j : Nat}, ¬ (w.request j).Rejected → ∀ new, (w.request i).Rejected →
      (w.put j new).request i = w.request i := fun {j} hj _ hi =>
    if_neg fun heq : i = j => hj (heq ▸ hi)
  cases e with
  | begin | read =>
    rw [World.step]
    split
    case isTrue hj => exact ⟨hput (by simp [hj, Request.Rejected]) _, fun _ => id⟩
    case isFalse => exact ⟨fun _ => rfl, fun _ => id⟩
  | answered j =>
    rw [World.step]
    split
    case h_1 hj => exact ⟨hput (by simp [hj, Request.Rejected]) _, fun _ => id⟩
    case h_2 => exact ⟨fun _ => rfl, fun _ => id⟩
  | rejected j now =>
    rw [World.step]
    split
    case h_1 hj =>
      refine ⟨hput (by simp [hj, Request.Rejected]) _, fun r hr => ?_⟩
      simp [World.forceRefresh, World.put, hr]
    case h_2 => exact ⟨fun _ => rfl, fun _ => id⟩
  | polled offer now => exact (he trivial).elim

theorem Awaits.step {old : Option String} (h : Awaits i t old w) {e : Event} (he : ¬ e.IsPoll) :
    Awaits i t old (w.step e) := by
  obtain ⟨hi, deadline, hrefresh⟩ := h
  obtain ⟨hkeeps, hrun⟩ := step_of_not_poll (w := w) (i := i) he
  exact ⟨(hkeeps (by simp [hi, Request.Rejected])).trans hi, deadline, hrun _ hrefresh⟩

theorem Awaits.polled {old : Option String} (h : Awaits i t old w) {offer : Offer}
    (hread : offer.read = some u) (hne : some u ≠ old) (now : Int) :
    (w.step (.polled offer now)).request i = .refreshed t (some u) := by
  obtain ⟨hi, deadline, hrefresh⟩ := h
  rw [World.step, hrefresh]
  dsimp only
  rw [hread, if_pos ⟨by simp, hne⟩, World.resolve]
  dsimp only
  rw [hi]

theorem refreshed_step {fresh : Option String} (h : w.request i = .refreshed t fresh) (e : Event) :
    (w.step e).request i = .refreshed t fresh := by
  by_cases he : e.IsPoll
  · cases e with
    | polled offer now =>
      have hresolve (fresh' : Option String) :
          (w.resolve fresh').request i = .refreshed t fresh := by
        rw [World.resolve]
        dsimp only
        rw [h]
      rw [World.step]
      split
      case h_1 => exact h
      case h_2 =>
        split
        case isTrue => exact hresolve _
        case isFalse =>
          split
          case isTrue => exact hresolve none
          case isFalse => exact h
    | _ => exact he.elim
  · exact ((step_of_not_poll he).1 (by simp [h, Request.Rejected])).trans h

/-- **A refresh recognises a rotated token that nobody has read yet.**  If what it compares with is
the rejected token, or none, then as soon as the host answers it with another token, whatever the
other requests did in between, it returns that one and the request is sent again with it. -/
theorem refresh_recognises (h : w.request i = .sent t)
    (hold : w.comparedWith = some t ∨ w.comparedWith = none) (hu : u ≠ t) {offer : Offer}
    (hread : offer.read = some u) {between : List Event} (hbetween : ∀ e ∈ between, ¬ e.IsPoll)
    (now later : Int) (after : List Event) :
    (run World.step w (.rejected i now :: between ++ .polled offer later :: after)).request i =
      .refreshed t (some u) ∧ retry t (some u) = .sent u := by
  have hne : some u ≠ w.comparedWith := by
    rcases hold with hold | hold <;> simp [hold, hu]
  have hawaits : Awaits i t w.comparedWith (run World.step w (.rejected i now :: between)) := by
    rw [run_cons]
    exact run_invariant_of_mem (awaits_of_rejected h now) fun _ e he hs => hs.step (hbetween e he)
  refine ⟨?_, if_neg hu⟩
  rw [run_append, run_cons]
  exact run_invariant (I := fun w : World => w.request i = .refreshed t (some u))
    (hawaits.polled hread hne later) (fun _ e hs => refreshed_step hs e) after

def offered (token : String) : Offer := ⟨some (.text token), .null⟩

/-- One request is sent with a token, and the host then goes over to the next. -/
theorem refresh_recognises_next :
    (run World.step (run World.step {} [.begin 0, .read 0 (offered "t")])
      [.rejected 0 0, .begin 1, .read 1 (offered "u"), .polled (offered "u") 10]).request 0 =
        .refreshed "t" (some "u") :=
  (@refresh_recognises 0 "t" "u" _ (by decide) (by decide) (by decide) (offered "u") (by decide)
    [.begin 1, .read 1 (offered "u")] (by simp [Event.IsPoll]) 0 10 []).1

/-- A second request reads the new token before the first is rejected: the refresh for the first
waits until its window closes, though the host offers the new token all the while. -/
theorem rotated_token_missed :
    (run World.step {} [.begin 0, .read 0 (offered "t"), .begin 1, .read 1 (offered "u"),
      .rejected 0 0, .polled (offered "u") 300, .polled (offered "u") 3000]).request 0 =
        .refreshed "t" none := by
  decide

end Sentinel.HostTokens
