import Sentinel.Gateway.Server

/-!
# When a call is handed to the pipeline

The contract has the server hold a call's finalization open until every sequence through the
`last_seq` of its `call.end` has been stored, or five minutes have passed (`wire.md`, section 3.2).
-/

open Table

namespace Sentinel

def holeTimeout : Time := 5 * 60 * 10 ^ 9

def Complete (sink : Sink) (u : Uuid) (lastSeq : Channel → Option Nat) : Prop :=
  ∀ ch, ∀ n ∈ lastSeq ch, ∀ q < n + 1, (u, ch, asInt32 q) ∈ sink.segments.keys

instance (sink : Sink) (u : Uuid) (lastSeq : Channel → Option Nat) :
    Decidable (Complete sink u lastSeq) :=
  inferInstanceAs (Decidable (∀ ch, ∀ n ∈ lastSeq ch, ∀ q < n + 1, _))

structure Watch where
  srv : Server := {}
  ends : List (CallEnd × Time) := []

def ServerEvent.endOf : ServerEvent → List (CallEnd × Time)
  | .input _ (.frame (.callEnd ce)) now _ => [(ce, now)]
  | _ => []

def ServerEvent.time : ServerEvent → Time
  | .accept _ _ _ now => now
  | .input _ _ now _ => now
  | .hangup _ => 0

def Watch.step (env : SinkEnv) (w : Watch) (ev : ServerEvent) : Watch where
  srv := w.srv.step env ev
  ends := w.ends ++ ev.endOf

def QueuesComplete (env : SinkEnv) (w : Watch) (ev : ServerEvent) : Prop :=
  ∀ u ∈ (w.step env ev).srv.sink.outbox.keys, u ∉ w.srv.sink.outbox.keys →
    ∃ p ∈ (w.step env ev).ends, env.callUuid p.1.callId = some u ∧
      (Complete (w.step env ev).srv.sink u p.1.lastSeq ∨ p.2 + holeTimeout ≤ ev.time)

instance (env : SinkEnv) (w : Watch) (ev : ServerEvent) : Decidable (QueuesComplete env w ev) :=
  inferInstanceAs (Decidable (∀ u ∈ (w.step env ev).srv.sink.outbox.keys, _))

def Server.connOf (srv : Server) : ServerEvent → Option Conn
  | .input k _ _ _ => srv.conns[k]?
  | _ => none

def Finishes (env : SinkEnv) (session : Session) (sink : Sink) (ce : CallEnd) (u : Uuid) : Prop :=
  ce.callId ∈ session.calls.keys ∧ env.callUuid ce.callId = some u ∧
    ∃ row ∈ sink.calls.get? u, row.tenantId = session.peer.tenantId ∧ row.ended = none

instance (env : SinkEnv) (session : Session) (sink : Sink) (ce : CallEnd) (u : Uuid) :
    Decidable (Finishes env session sink ce u) :=
  inferInstanceAs (Decidable (_ ∧ _ ∧ _))

def EndsInOrder (env : SinkEnv) (w : Watch) (ev : ServerEvent) : Prop :=
  ∀ p ∈ ev.endOf, ∀ conn ∈ w.srv.connOf ev, conn.live = true → ∀ u ∈ env.callUuid p.1.callId,
    Finishes env conn.session w.srv.sink p.1 u → Complete w.srv.sink u p.1.lastSeq ∨
      ∃ q ∈ w.ends, env.callUuid q.1.callId = some u ∧ q.2 + holeTimeout ≤ p.2

instance (env : SinkEnv) (w : Watch) (ev : ServerEvent) : Decidable (EndsInOrder env w ev) :=
  inferInstanceAs (Decidable (∀ p ∈ ev.endOf, _))

/-! ## What moves do to the outbox -/

section Moves

variable {env : SinkEnv} {now : Time} {i : Input} {src : MediaRecord → Prop} {x y : Ctx}

variable {s : Session} {a b : Sink}

theorem SinkEffect.outbox_cases (h : SinkEffect env i s a b) {u : Uuid} (hu : u ∈ b.outbox.keys) :
    u ∈ a.outbox.keys ∨ ∃ ce, i = .frame (.callEnd ce) ∧ Finishes env s a ce u := by
  cases h with
  | finish ce v row endedAt fs hi hkey hv hrow htenant hopen =>
    by_cases huv : u = v
    · exact Or.inr ⟨ce, hi, hkey, huv ▸ hv, row, huv ▸ hrow, htenant, hopen⟩
    refine Or.inl (isSome_get?.mp ?_)
    rw [← get?_insertNew_of_ne _ huv]
    exact isSome_get?.mpr hu
  | _ => exact Or.inl hu

theorem SinkEffect.segments_mono (h : SinkEffect env i s a b) {k : Uuid × Channel × Int}
    (hk : k ∈ a.segments.keys) : k ∈ b.segments.keys := by
  cases h with
  | segment rec u entry =>
    obtain ⟨e, hrow⟩ := mem_keys.mp hk
    exact mem_keys.mpr ⟨e, mem_rows_insertNew.mpr (Or.inl hrow)⟩
  | _ => exact hk

theorem SinkEffect.unended_row (h : SinkEffect env i s a b) {ce : CallEnd}
    (hi : i = .frame (.callEnd ce)) {u : Uuid} {row : CallRow} (hrow : b.calls.get? u = some row)
    (hopen : row.ended = none) : a.calls.get? u = some row := by
  cases h with
  | create cs v startedAt fs hcs => cases hi.symm.trans hcs
  | finish ce' v row' endedAt =>
    simp only [get?_put] at hrow
    split at hrow
    · cases hrow
      cases hopen
    · exact hrow
  | _ => exact hrow

structure QueuesFrom (env : SinkEnv) (i : Input) (x₀ x : Ctx) : Prop where
  peer_eq : x.session.peer = x₀.session.peer
  segments : ∀ k ∈ x₀.sink.segments.keys, k ∈ x.sink.segments.keys
  keys : ∀ ce, i = .frame (.callEnd ce) → ∀ c ∈ x.session.calls.keys, c ∈ x₀.session.calls.keys
  rows : ∀ ce, i = .frame (.callEnd ce) → ∀ u row, x.sink.calls.get? u = some row →
    row.ended = none → x₀.sink.calls.get? u = some row
  queued : ∀ u ∈ x.sink.outbox.keys, u ∈ x₀.sink.outbox.keys ∨
    ∃ ce, i = .frame (.callEnd ce) ∧ Finishes env x₀.session x₀.sink ce u

theorem QueuesFrom.move {x₀ : Ctx} (h : Move env now i src x y) (hx : QueuesFrom env i x₀ x) :
    QueuesFrom env i x₀ y where
  peer_eq := h.peer_cfg.1.trans hx.peer_eq
  segments := fun k hk => h.sinkEffect.segments_mono (hx.segments k hk)
  keys := by
    intro ce hi c hc
    rcases h.keys_new hc with hc | ⟨cs, r, hcs, -⟩
    · exact hx.keys ce hi c hc
    · cases hi.symm.trans hcs
  rows := fun ce hi u row hrow hopen =>
    hx.rows ce hi u row (h.sinkEffect.unended_row hi hrow hopen) hopen
  queued := by
    intro u hu
    rcases h.sinkEffect.outbox_cases hu with hu | ⟨ce, hi, hkey, hcall, row, hrow, htenant, hopen⟩
    · exact hx.queued u hu
    exact Or.inr ⟨ce, hi, hx.keys ce hi _ hkey, hcall, row, hx.rows ce hi u row hrow hopen,
      hx.peer_eq ▸ htenant, hopen⟩

end Moves

/-! ## Whole runs -/

variable {env : SinkEnv} {srv : Server}

theorem queued_step {ev : ServerEvent} {u : Uuid} (hu : u ∈ (srv.step env ev).sink.outbox.keys)
    (hnew : u ∉ srv.sink.outbox.keys) :
    ∃ k ce now faults conn, ev = .input k (.frame (.callEnd ce)) now faults ∧
      srv.conns[k]? = some conn ∧ conn.live = true ∧ Finishes env conn.session srv.sink ce u ∧
      ∀ k ∈ srv.sink.segments.keys, k ∈ (srv.step env ev).sink.segments.keys := by
  cases ev with
  | accept | hangup => exact absurd hu hnew
  | input k i now faults =>
    cases hx : srv.reply env k i now faults with
    | none =>
      rw [Server.step_input_none hx] at hu
      exact absurd hu hnew
    | some x =>
      obtain ⟨conn, hconn, hlive, hxe⟩ := Server.reply_eq_some hx
      have hwork : QueuesFrom env i { session := conn.session, sink := { srv.sink with faults } }
          x := by
        rw [hxe]
        refine respond_keeps i (fun _ _ hm hw => QueuesFrom.move hm hw) ?_
        exact ⟨rfl, fun k hk => hk, fun _ _ c hc => hc, fun _ _ u row hr _ => hr,
          fun u hu => Or.inl hu⟩
      rw [Server.step_input hx] at hu ⊢
      rcases hwork.queued u hu with hu | ⟨ce, rfl, hfin⟩
      · exact absurd hu hnew
      · exact ⟨k, ce, now, faults, conn, rfl, hconn, hlive, hfin, hwork.segments⟩

/-- **A call is queued only when complete, in the runs whose `call.end` frames come after the
audio.** -/
theorem queues_complete_of_ends_in_order (env : SinkEnv) (sink : Sink) (es : List ServerEvent)
    (h : Runs.Along (Watch.step env) (EndsInOrder env) { srv := { sink } } es) :
    Runs.Along (Watch.step env) (QueuesComplete env) { srv := { sink } } es := by
  refine h.of_invariant (I := fun _ => True) trivial (fun _ _ _ _ => trivial) ?_
  intro w ev _ horder u hu hnew
  obtain ⟨k, ce, now, faults, conn, rfl, hconn, hlive, hfin, hmono⟩ := queued_step hu hnew
  have hcall : env.callUuid ce.callId = some u := hfin.2.1
  have hend : (ce, now) ∈ (ServerEvent.input k (.frame (.callEnd ce)) now faults).endOf :=
    List.mem_singleton.mpr rfl
  rcases horder (ce, now) hend conn hconn hlive u hcall hfin with hcomplete | ⟨q, hq, hqu, hlate⟩
  · exact ⟨(ce, now), List.mem_append.mpr (Or.inr hend), hcall,
      Or.inl fun ch n hn q hq => hmono _ (hcomplete ch n hn q hq)⟩
  · exact ⟨q, List.mem_append.mpr (Or.inl hq), hqu, Or.inr hlate⟩

/-! ## Concrete runs -/

def endAt (c : CallId) (last : Nat) : CallEnd where
  callId := c
  endedAt := "2026-09-01T10:20:00Z"
  reason := .hangup
  lastSeq := fun ch => if ch = .far then some last else none

def wholeRun : List ServerEvent :=
  [.accept alice {} 0 0, .input 0 (.frame (.callStart (startBy alice "call-1"))) 0 [],
    .input 0 (.frame (.media [recordOf "call-1" 0, recordOf "call-1" 1])) 0 [],
    .input 0 (.frame (.callEnd (endAt "call-1" 1))) 0 []]

/-- The hypothesis of `queues_complete_of_ends_in_order` is met by a run that queues. -/
theorem wholeRun_complete :
    (Runs.run (Watch.step anyEnv) {} wholeRun).srv.sink.outbox.keys = ["call-1"] ∧
      Runs.Along (Watch.step anyEnv) (EndsInOrder anyEnv) {} wholeRun ∧
      Runs.Along (Watch.step anyEnv) (QueuesComplete anyEnv) {} wholeRun :=
  ⟨by decide, by decide, queues_complete_of_ends_in_order anyEnv {} wholeRun (by decide)⟩

def earlyEndRun : List ServerEvent :=
  [.accept alice {} 0 0, .input 0 (.frame (.callStart (startBy alice "call-1"))) 0 [],
    .input 0 (.frame (.media [recordOf "call-1" 0])) 0 [],
    .input 0 (.frame (.callEnd (endAt "call-1" 1))) 0 []]

/-- The call is queued at once, with its second segment missing. -/
theorem earlyEndRun_queued_with_hole :
    ¬ Runs.Along (Watch.step anyEnv) (QueuesComplete anyEnv) {} earlyEndRun := by
  decide

end Sentinel
