import Sentinel.Lib.Runs
import Sentinel.Gateway.Moves

/-!
# The gateway as a whole

Many connections, one database.
-/

open List

namespace Sentinel

structure Conn where
  session : Session
  live : Bool := true

structure Server where
  conns : List Conn := []
  sink : Sink := {}

inductive ServerEvent where
  | accept (peer : Peer) (cfg : Config) (policyVersion : Int) (now : Time)
  | input (k : Nat) (i : Input) (now : Time) (faults : List Fault)
  | hangup (k : Nat)

theorem getElem?_modify_cases {α : Type*} {l : List α} {k j : Nat} {f : α → α} {a : α}
    (h : (l.modify k f)[j]? = some a) :
    ∃ b, l[j]? = some b ∧ ((j = k ∧ a = f b) ∨ (j ≠ k ∧ a = b)) := by
  rw [getElem?_modify, Option.map_eq_map, Option.map_eq_some_iff] at h
  obtain ⟨b, hb, he⟩ := h
  by_cases hkj : k = j
  · exact ⟨b, hb, Or.inl ⟨hkj.symm, by simpa [hkj] using he.symm⟩⟩
  · exact ⟨b, hb, Or.inr ⟨fun h => hkj h.symm, by simpa [hkj] using he.symm⟩⟩

theorem mem_modify_cases {α : Type*} {l : List α} {k : Nat} {f : α → α} {a : α}
    (h : a ∈ l.modify k f) : a ∈ l ∨ ∃ b, l[k]? = some b ∧ a = f b := by
  obtain ⟨j, hj⟩ := mem_iff_getElem?.mp h
  obtain ⟨b, hb, ⟨rfl, he⟩ | ⟨-, rfl⟩⟩ := getElem?_modify_cases hj
  · exact Or.inr ⟨b, hb, he⟩
  · exact Or.inl (mem_of_getElem? hb)

theorem forall_mem_modify {α : Type*} {l : List α} {k : Nat} {f : α → α} {P : α → Prop}
    (h : ∀ a ∈ l, P a) (hf : ∀ a, P a → P (f a)) : ∀ a ∈ l.modify k f, P a := by
  intro a ha
  rcases mem_modify_cases ha with ha | ⟨b, hb, rfl⟩
  · exact h a ha
  · exact hf b (h b (mem_of_getElem? hb))

theorem getElem?_set_cases {α : Type*} {l : List α} {k j : Nat} {a b : α}
    (h : (l.set k b)[j]? = some a) : (j = k ∧ a = b) ∨ (j ≠ k ∧ l[j]? = some a) := by
  by_cases hkj : k = j
  · subst hkj
    rw [getElem?_set_self'] at h
    obtain ⟨c, -, rfl⟩ := Option.map_eq_some_iff.mp h
    exact Or.inl ⟨rfl, rfl⟩
  rw [getElem?_set_ne hkj] at h
  exact Or.inr ⟨fun h => hkj h.symm, h⟩

namespace Server

def reply (env : SinkEnv) (srv : Server) (k : Nat) (i : Input) (now : Time)
    (faults : List Fault) : Option Ctx :=
  match srv.conns[k]? with
  | some conn =>
    if conn.live then some (respond env conn.session { srv.sink with faults } i now) else none
  | none => none

def step (env : SinkEnv) (srv : Server) : ServerEvent → Server
  | .accept peer cfg policyVersion now =>
    { srv with conns := srv.conns ++ [{ session := newSession peer cfg policyVersion now }] }
  | .input k i now faults =>
    match srv.reply env k i now faults with
    | some x =>
      { conns := srv.conns.set k { session := x.session, live := x.out.close.isNone }
        sink := x.sink }
    | none => srv
  | .hangup k => { srv with conns := srv.conns.modify k fun c => { c with live := false } }

variable {env : SinkEnv} {srv : Server} {k : Nat} {i : Input} {now : Time} {faults : List Fault}
  {x : Ctx}

theorem reply_eq_some (h : srv.reply env k i now faults = some x) :
    ∃ conn, srv.conns[k]? = some conn ∧ conn.live = true ∧
      x = respond env conn.session { srv.sink with faults } i now := by
  unfold reply at h
  split at h
  · rename_i conn hconn
    split at h
    · rename_i hlive
      exact ⟨conn, hconn, hlive, (Option.some.inj h).symm⟩
    · cases h
  · cases h

theorem step_input (h : srv.reply env k i now faults = some x) :
    srv.step env (.input k i now faults) =
      { conns := srv.conns.set k { session := x.session, live := x.out.close.isNone }
        sink := x.sink } := by
  simp [step, h]

theorem step_input_none (h : srv.reply env k i now faults = none) :
    srv.step env (.input k i now faults) = srv := by
  simp [step, h]

theorem sink_step_input {P : Sink → Prop} (h : P srv.sink) (h₀ : P { srv.sink with faults })
    (hP : ∀ src x y, Move env now i src x y → P x.sink → P y.sink) :
    P (srv.step env (.input k i now faults)).sink := by
  cases hx : srv.reply env k i now faults with
  | none => rwa [step_input_none hx]
  | some x =>
    obtain ⟨conn, -, -, rfl⟩ := reply_eq_some hx
    rw [step_input hx]
    exact respond_keeps i (I := fun x => P x.sink) (fun x y => hP _ x y) h₀

theorem length_step_input :
    (srv.step env (.input k i now faults)).conns.length = srv.conns.length := by
  cases hx : srv.reply env k i now faults with
  | none => rw [step_input_none hx]
  | some x => rw [step_input hx, length_set]

variable {conn : Conn}

theorem input_conn {j : Nat} (h : (srv.step env (.input k i now faults)).conns[j]? = some conn) :
    ((conn.live = true → j ≠ k) ∧ srv.conns[j]? = some conn) ∨
    (j = k ∧ ∃ conn₀ x, srv.conns[k]? = some conn₀ ∧ conn₀.live = true ∧
      srv.reply env k i now faults = some x ∧
      x = respond env conn₀.session { srv.sink with faults } i now ∧
      conn.session = x.session ∧ conn.live = x.out.close.isNone) := by
  cases hx : srv.reply env k i now faults with
  | none =>
    rw [step_input_none hx] at h
    refine Or.inl ⟨?_, h⟩
    rintro hlive rfl
    simp [reply, h, hlive] at hx
  | some x =>
    obtain ⟨conn₀, hconn₀, hlive₀, hxe⟩ := reply_eq_some hx
    rw [step_input hx] at h
    rcases getElem?_set_cases h with ⟨rfl, rfl⟩ | ⟨hj, h⟩
    · exact Or.inr ⟨rfl, conn₀, x, hconn₀, hlive₀, rfl, hxe, rfl, rfl⟩
    · exact Or.inl ⟨fun _ => hj, h⟩

theorem live_of_hangup {j : Nat}
    (h : (srv.conns.modify k fun c => { c with live := false })[j]? = some conn)
    (hlive : conn.live = true) : srv.conns[j]? = some conn := by
  obtain ⟨conn₀, hconn₀, ⟨-, rfl⟩ | ⟨-, rfl⟩⟩ := getElem?_modify_cases h
  · cases hlive
  · exact hconn₀

theorem conn_cases {ev : ServerEvent} (h : conn ∈ (srv.step env ev).conns)
    (hlive : conn.live = true) :
    conn ∈ srv.conns ∨
    (∃ peer cfg v t, ev = .accept peer cfg v t ∧ conn.session = newSession peer cfg v t) ∨
    ∃ k i now faults x, ev = .input k i now faults ∧ srv.reply env k i now faults = some x ∧
      conn.session = x.session := by
  cases ev with
  | accept peer cfg v t =>
    rcases mem_append.mp h with h | h
    · exact Or.inl h
    · exact Or.inr (Or.inl ⟨peer, cfg, v, t, rfl, by rw [mem_singleton.mp h]⟩)
  | input k i now faults =>
    cases hx : srv.reply env k i now faults with
    | none => exact Or.inl (step_input_none hx ▸ h)
    | some x =>
      rw [step_input hx] at h
      rcases mem_or_eq_of_mem_set h with h | rfl
      · exact Or.inl h
      · exact Or.inr (Or.inr ⟨k, i, now, faults, x, rfl, hx, rfl⟩)
  | hangup k =>
    rcases mem_modify_cases h with h | ⟨c, -, rfl⟩
    · exact Or.inl h
    · cases hlive

end Server

/-! ## Peers and frames for concrete runs -/

def anyEnv : SinkEnv where
  callUuid := some
  parseTime := fun _ => some 0
  hasUser := fun _ _ => true

def alice : Peer := ⟨"tenant-1", "alice", "device-1"⟩

def bob : Peer := ⟨"tenant-1", "bob", "device-2"⟩

def startBy (p : Peer) (c : CallId) : CallStart where
  callId := c
  startedAt := "2026-09-01T10:14:02Z"
  userUid := p.userUid
  deviceId := p.deviceId

def recordOf (c : CallId) (seq : Nat) : MediaRecord where
  callId := c
  channel := .far
  seq := seq
  timestampMs := 1000 * seq
  flags := {}
  payload := []

end Sentinel
