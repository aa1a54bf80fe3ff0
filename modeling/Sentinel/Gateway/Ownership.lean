import Sentinel.Gateway.Server

/-!
# Who may write for a call

The row created for a call records whose it is.
-/

open Option

open Table

open List

namespace Sentinel

def CallRow.owner (r : CallRow) : Peer := ⟨r.tenantId, r.userUid, r.deviceId⟩

def Sink.ownerOf (s : Sink) (u : Uuid) : Option Peer := (s.calls.get? u).map CallRow.owner

def newWrites (before after : Sink) : List Write := after.writes.drop before.writes.length

def OwnedStep (env : SinkEnv) (srv : Server) : ServerEvent → Prop
  | .input k i now faults =>
    ∀ conn ∈ srv.conns[k]?, ∀ x ∈ srv.reply env k i now faults,
      ∀ w ∈ newWrites srv.sink x.sink, x.sink.ownerOf w.call = some conn.session.peer
  | _ => True

instance (env : SinkEnv) (srv : Server) : ∀ ev, Decidable (OwnedStep env srv ev)
  | .input k i now faults =>
    inferInstanceAs (Decidable (∀ conn ∈ srv.conns[k]?, ∀ x ∈ srv.reply env k i now faults,
      ∀ w ∈ newWrites srv.sink x.sink, x.sink.ownerOf w.call = some conn.session.peer))
  | .accept .. | .hangup _ => .isTrue trivial

def Unclaimed (env : SinkEnv) (srv : Server) (peer : Peer) (u : Uuid) : Prop :=
  (∀ p ∈ srv.sink.ownerOf u, p = peer) ∧
    ∀ conn ∈ srv.conns, conn.live = true → ∀ c ∈ conn.session.calls.keys,
      env.callUuid c = some u → conn.session.peer = peer

instance (env : SinkEnv) (srv : Server) (peer : Peer) (u : Uuid) :
    Decidable (Unclaimed env srv peer u) :=
  inferInstanceAs (Decidable (_ ∧ _))

def OwnStart (env : SinkEnv) (srv : Server) : ServerEvent → Prop
  | .input k (.frame (.callStart cs)) _ _ => ∀ conn ∈ srv.conns[k]?, conn.live = true →
      cs.userUid = conn.session.peer.userUid → cs.deviceId = conn.session.peer.deviceId →
      ∀ u ∈ env.callUuid cs.callId, Unclaimed env srv conn.session.peer u
  | _ => True

instance (env : SinkEnv) (srv : Server) : ∀ ev, Decidable (OwnStart env srv ev)
  | .input k (.frame (.callStart cs)) _ _ =>
    inferInstanceAs (Decidable (∀ conn ∈ srv.conns[k]?, conn.live = true →
      cs.userUid = conn.session.peer.userUid → cs.deviceId = conn.session.peer.deviceId →
      ∀ u ∈ env.callUuid cs.callId, Unclaimed env srv conn.session.peer u))
  | .input _ (.frame (.callEnd _)) _ _ | .input _ (.frame (.media _)) _ _
  | .input _ (.frame .heartbeat) _ _ | .input _ (.frame .malformed) _ _
  | .input _ (.frame .unknown) _ _ | .input _ .tick _ _ | .accept .. | .hangup _ => .isTrue trivial

/-! ## Owners along a move -/

section Moves

variable {env : SinkEnv} {now : Time} {i : Input} {src : MediaRecord → Prop} {x y : Ctx}

variable {s : Session} {a b : Sink} {u : Uuid} {p : Peer}

theorem SinkEffect.ownerOf_cases (h : SinkEffect env i s a b) : (∀ u, b.ownerOf u = a.ownerOf u) ∨
    ∃ cs u, i = .frame (.callStart cs) ∧
      (cs.userUid = s.peer.userUid ∧ cs.deviceId = s.peer.deviceId) ∧
      env.callUuid cs.callId = some u ∧ a.ownerOf u = none ∧ b.ownerOf u = some s.peer ∧
      ∀ v, v ≠ u → b.ownerOf v = a.ownerOf v := by
  cases h with
  | create cs u startedAt fs hi hpeer hu hnew =>
    refine Or.inr ⟨cs, u, hi, hpeer, hu, ?_, ?_, ?_⟩
    · rw [Sink.ownerOf, get?_eq_none.mpr hnew, map_none]
    · simp only [Sink.ownerOf, get?_insertNew_self, get?_eq_none.mpr hnew,
        getD_none, map_some, CallRow.owner, Sink.newCallRow, hpeer.1]
    intro v hv
    simp only [Sink.ownerOf, get?_insertNew_of_ne _ hv]
  | finish ce u row endedAt fs hi hkey hu hrow =>
    left
    intro v
    exact map_get?_put hrow (by rfl) v
  | _ => exact Or.inl fun _ => rfl

theorem Move.ownerOf_mono (h : Move env now i src x y)
    (hp : x.sink.ownerOf u = some p) : y.sink.ownerOf u = some p := by
  rcases h.sinkEffect.ownerOf_cases with heq | ⟨cs, v, -, -, -, hnone, -, heq⟩
  · rw [heq, hp]
  have hne : u ≠ v := by
    rintro rfl
    cases hnone.symm.trans hp
  rw [heq u hne, hp]

theorem SinkEffect.writes_cases (h : SinkEffect env i s a b) :
    b.writes = a.writes ∨ ∃ w c, b.writes = a.writes ++ [w] ∧ c ∈ s.calls.keys ∧
      env.callUuid c = some w.call ∧ ∃ p, a.ownerOf w.call = some p := by
  have howner : ∀ {u row}, a.calls.get? u = some row → ∃ p, a.ownerOf u = some p := by
    intro u row hrow
    exact ⟨row.owner, by rw [Sink.ownerOf, hrow, map_some]⟩
  cases h with
  | segment rec u entry fs puts writes hkey hu hvisible hputs hwrites =>
    rcases hwrites with hw | hw
    · exact Or.inl hw
    obtain ⟨row, hrow, -⟩ := (any_eq_true _ _).mp hvisible
    exact Or.inr ⟨.segment u rec.channel (asInt32 rec.seq), rec.callId, hw, hkey, hu, howner hrow⟩
  | mark c ch t u w fs hkey hu hrow hw =>
    obtain ⟨row, hrow⟩ := isSome_iff_exists.mp (isSome_get?.mpr hrow)
    exact Or.inr ⟨.watermark u ch, c, rfl, hkey, hu, howner hrow⟩
  | finish ce u row endedAt fs hi hkey hu hrow =>
    exact Or.inr ⟨.ended u, ce.callId, rfl, hkey, hu, howner hrow⟩
  | _ => exact Or.inl rfl

structure OwnedWork (env : SinkEnv) (i : Input) (peer : Peer) (sink₀ : Sink) (x : Ctx) :
    Prop where
  peer_eq : x.session.peer = peer
  calls : ∀ c ∈ x.session.calls.keys, ∀ u p, env.callUuid c = some u →
    x.sink.ownerOf u = some p → p = peer
  target : ∀ cs, i = .frame (.callStart cs) → cs.userUid = peer.userUid →
    cs.deviceId = peer.deviceId → ∀ u p, env.callUuid cs.callId = some u →
    x.sink.ownerOf u = some p → p = peer
  rows : ∀ u, x.sink.ownerOf u = sink₀.ownerOf u ∨
    (x.sink.ownerOf u = some peer ∧ ∃ cs, i = .frame (.callStart cs) ∧
      cs.userUid = peer.userUid ∧ cs.deviceId = peer.deviceId ∧ env.callUuid cs.callId = some u)
  writes : ∃ new, x.sink.writes = sink₀.writes ++ new ∧
    ∀ w ∈ new, x.sink.ownerOf w.call = some peer

theorem Move.ownerOf_some (h : Move env now i src x y)
    (hp : y.sink.ownerOf u = some p) : x.sink.ownerOf u = some p ∨ p = x.session.peer := by
  rcases h.sinkEffect.ownerOf_cases with heq | ⟨cs, v, -, -, -, -, hset, heq⟩
  · exact Or.inl (heq u ▸ hp)
  by_cases hv : u = v
  · rw [hv, hset] at hp
    exact Or.inr (some.inj hp).symm
  · exact Or.inl (heq u hv ▸ hp)

theorem OwnedWork.move {peer : Peer} {sink₀ : Sink} (h : Move env now i src x y)
    (hx : OwnedWork env i peer sink₀ x) : OwnedWork env i peer sink₀ y where
  peer_eq := h.peer_cfg.1.trans hx.peer_eq
  calls := by
    intro c hc u p hu hp
    rcases h.ownerOf_some hp with hp | rfl
    · rcases h.keys_new hc with hc | ⟨cs, r, hi, rfl, hpeer, -⟩
      · exact hx.calls c hc u p hu hp
      rw [hx.peer_eq] at hpeer
      exact hx.target cs hi hpeer.1 hpeer.2 u p hu hp
    · exact hx.peer_eq
  target := by
    intro cs hi huser hdevice u p hu hp
    rcases h.ownerOf_some hp with hp | rfl
    · exact hx.target cs hi huser hdevice u p hu hp
    · exact hx.peer_eq
  rows := by
    intro u
    rcases h.sinkEffect.ownerOf_cases with heq | ⟨cs, v, hi, hpeer, hv, hnone, hset, heq⟩
    · rw [heq u]
      exact hx.rows u
    by_cases huv : u = v
    · rw [hx.peer_eq] at hpeer hset
      exact Or.inr ⟨huv ▸ hset, cs, hi, hpeer.1, hpeer.2, huv ▸ hv⟩
    rw [heq u huv]
    exact hx.rows u
  writes := by
    obtain ⟨new, hnew, hown⟩ := hx.writes
    rcases h.sinkEffect.writes_cases with hw | ⟨w, c, hw, hc, hu, p, hp⟩
    · exact ⟨new, hw.trans hnew, fun w' hw' => h.ownerOf_mono (hown w' hw')⟩
    refine ⟨new ++ [w], by rw [hw, hnew, append_assoc], fun w' hw' => ?_⟩
    rcases mem_append.mp hw' with hw' | hw'
    · exact h.ownerOf_mono (hown w' hw')
    rw [mem_singleton.mp hw']
    have hpp : p = peer := hx.calls c hc w.call p hu hp
    exact h.ownerOf_mono (hpp ▸ hp)

end Moves

/-! ## Owners along a run -/

def Owned (env : SinkEnv) (srv : Server) : Prop :=
  ∀ conn ∈ srv.conns, conn.live = true → ∀ c ∈ conn.session.calls.keys, ∀ u p,
    env.callUuid c = some u → srv.sink.ownerOf u = some p → p = conn.session.peer

variable {env : SinkEnv} {srv : Server}

theorem owned_reply {k : Nat} {i : Input} {now : Time} {faults : List Fault} {x : Ctx}
    {conn : Conn} (hI : Owned env srv) (hstart : OwnStart env srv (.input k i now faults))
    (hconn : srv.conns[k]? = some conn) (hlive : conn.live = true)
    (hx : x = respond env conn.session { srv.sink with faults } i now) :
    OwnedWork env i conn.session.peer srv.sink x := by
  rw [hx]
  refine respond_keeps i (fun _ _ hm hw => OwnedWork.move hm hw) ⟨rfl, ?_, ?_, fun u => ?_, ?_⟩
  · exact hI conn (mem_of_getElem? hconn) hlive
  · rintro cs rfl huser hdevice u p hu hp
    exact (hstart conn hconn hlive huser hdevice u hu).1 p hp
  · exact Or.inl rfl
  · exact ⟨[], (append_nil _).symm, by simp⟩

theorem owned_step {ev : ServerEvent} (hI : Owned env srv) (hstart : OwnStart env srv ev) :
    Owned env (srv.step env ev) := by
  intro conn hconn hlive c hc u p hu hp
  cases ev with
  | accept peer cfg v t =>
    rcases Server.conn_cases hconn hlive with hmem | ⟨peer', cfg', v', t', -, hs⟩ |
      ⟨k, i, now, faults, x, he, -⟩
    · exact hI conn hmem hlive c hc u p hu hp
    · rw [hs] at hc
      simp [newSession] at hc
    · cases he
  | hangup k =>
    rcases Server.conn_cases hconn hlive with hmem | ⟨peer', cfg', v', t', he, -⟩ |
      ⟨k', i, now, faults, x, he, -⟩
    · exact hI conn hmem hlive c hc u p hu hp
    · cases he
    · cases he
  | input k i now faults =>
    cases hx : srv.reply env k i now faults with
    | none =>
      rw [Server.step_input_none hx] at hconn hp
      exact hI conn hconn hlive c hc u p hu hp
    | some x =>
      obtain ⟨conn₀, hconn₀, hlive₀, hxe⟩ := Server.reply_eq_some hx
      have hwork := owned_reply hI hstart hconn₀ hlive₀ hxe
      rw [Server.step_input hx] at hp
      rcases Server.conn_cases hconn hlive with hmem | ⟨peer', cfg', v', t', he, -⟩ |
        ⟨k', i', now', faults', x', he, hx', hs⟩
      · -- Another connection: the owner it sees is old, or was set by this `call.start`.
        rcases hwork.rows u with heq | ⟨hset, cs, hi, huser, hdevice, hcs⟩
        · exact hI conn hmem hlive c hc u p hu (heq ▸ hp)
        rw [hset] at hp
        rw [← some.inj hp]
        subst hi
        exact ((hstart conn₀ hconn₀ hlive₀ huser hdevice u hcs).2 conn hmem hlive c hc hu).symm
      · cases he
      cases he
      rw [hx] at hx'
      cases hx'
      rw [hs] at hc ⊢
      rw [hwork.peer_eq]
      exact hwork.calls c hc u p hu hp

/-- **Only the owner writes.** -/
theorem owned_writes_of_own_starts (env : SinkEnv) (sink : Sink) (es : List ServerEvent)
    (h : Runs.Along (Server.step env) (OwnStart env) { sink } es) :
    Runs.Along (Server.step env) (OwnedStep env) { sink } es := by
  refine h.of_invariant (I := Owned env) (fun conn hconn => ?_) (fun srv ev => owned_step) ?_
  · cases hconn
  · intro srv ev hI hstart
    cases ev with
    | accept peer cfg v t => trivial
    | hangup k => trivial
    | input k i now faults =>
      intro conn hconn x hx w hw
      obtain ⟨conn', hconn', hlive, hxe⟩ := Server.reply_eq_some hx
      obtain rfl : conn = conn' := Option.some.inj (hconn.symm.trans hconn')
      obtain ⟨new, hnew, hown⟩ := (owned_reply hI hstart hconn hlive hxe).writes
      rw [newWrites, hnew, List.drop_left] at hw
      exact hown w hw

/-! ## Concrete runs -/

def ownRun : List ServerEvent :=
  [.accept alice {} 0 0, .accept bob {} 0 0,
    .input 0 (.frame (.callStart (startBy alice "call-1"))) 0 [],
    .input 1 (.frame (.callStart (startBy bob "call-2"))) 0 [],
    .input 0 (.frame (.media [recordOf "call-1" 0])) 0 [],
    .input 1 (.frame (.media [recordOf "call-2" 0])) 0 []]

/-- The hypothesis of `owned_writes_of_own_starts` is met by a run that writes. -/
theorem ownRun_owned :
    (Runs.run (Server.step anyEnv) {} ownRun).sink.writes.length = 4 ∧
      Runs.Along (Server.step anyEnv) (OwnStart anyEnv) {} ownRun ∧
      Runs.Along (Server.step anyEnv) (OwnedStep anyEnv) {} ownRun :=
  ⟨by decide, by decide, owned_writes_of_own_starts anyEnv {} ownRun (by decide)⟩

def hijackRun : List ServerEvent :=
  [.accept alice {} 0 0, .accept bob {} 0 0,
    .input 0 (.frame (.callStart (startBy alice "call-1"))) 0 [],
    .input 1 (.frame (.callStart (startBy bob "call-1"))) 0 [],
    .input 1 (.frame (.media [recordOf "call-1" 0])) 0 []]

/-- The second user's segment is stored under the first user's call. -/
theorem hijackRun_not_owned :
    ¬ Runs.Along (Server.step anyEnv) (OwnedStep anyEnv) {} hijackRun := by
  decide

end Sentinel
