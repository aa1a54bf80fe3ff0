import Sentinel.Gateway.Server

/-!
# When the gateway gives a call up

A fatal `call.error` makes the client delete what it holds of the call.
-/

open Table

open List

namespace Sentinel

open Ctx (isExpired)

structure Spared (now : Time) (i : Input) (s₀ : Session) (x : Ctx) : Prop where
  errors : ∀ e ∈ x.out.errors, e.fatal = false
  starts : ∀ cs, i = .frame (.callStart cs) → cs.By x.session.peer
  ends : ∀ ce, i = .frame (.callEnd ce) → ce.callId ∈ x.session.calls.keys
  grace : 0 < x.session.cfg.orphanGrace
  waiting : ∀ c os, x.session.orphans.get? c = some os → isExpired x.session.cfg now os = false
  opened : ∀ c ∈ s₀.calls.keys, c ∈ x.session.calls.keys
  buffered : ∀ c ∈ x.session.orphans.keys, c ∈ s₀.orphans.keys ∨
    (c ∉ s₀.calls.keys ∧ ∃ records, i = .frame (.media records) ∧ ∃ r ∈ records, r.callId = c)

namespace Spared

variable {env : SinkEnv} {now : Time} {i : Input} {src : MediaRecord → Prop} {s₀ : Session}
  {x y : Ctx}

theorem expired_eq_nil (h : Spared now i s₀ x) :
    (x.session.orphans.rows.filter fun r => isExpired x.session.cfg now r.2) = [] := by
  refine filter_eq_nil_iff.mpr fun r hr => ?_
  rw [h.waiting r.1 r.2 (get?_eq_some.mpr hr)]
  exact Bool.false_ne_true

theorem of_forget (h : Spared now i s₀ x) (hm : Move env now i src x y)
    (herrors : y.out.errors = x.out.errors)
    (horphans : ∀ c os, y.session.orphans.get? c = some os → x.session.orphans.get? c = some os) :
    Spared now i s₀ y where
  errors := herrors ▸ h.errors
  starts := hm.peer_cfg.1 ▸ h.starts
  ends := fun ce hi => hm.keys_mono (h.ends ce hi)
  grace := hm.peer_cfg.2 ▸ h.grace
  waiting := fun c os hos => by
    rw [hm.peer_cfg.2]
    exact h.waiting c os (horphans c os hos)
  opened := fun c hc => hm.keys_mono (h.opened c hc)
  buffered := fun c hc => by
    obtain ⟨os, hos⟩ := Option.isSome_iff_exists.mp (isSome_get?.mpr hc)
    exact h.buffered c (mem_keys_of_get? (horphans c os hos))

theorem addError (h : Spared now i s₀ x) {e : CallError} (he : e.fatal = false) :
    Spared now i s₀ (x.addError e) := by
  refine ⟨fun e' he' => ?_, h.starts, h.ends, h.grace, h.waiting, h.opened, h.buffered⟩
  rcases mem_append.mp he' with he' | he'
  · exact h.errors e' he'
  · rwa [mem_singleton.mp he']

theorem move (hm : Move env now i src x y) (h : Spared now i s₀ x) : Spared now i s₀ y := by
  have hkept := hm
  cases hm with
  | mismatch cs e hi hpeer he => exact absurd (h.starts cs hi) hpeer
  | complain e he => exact h.addError he
  | unknownEnd ce e hi hst he => exact absurd (h.ends ce hi) (get?_eq_none.mp hst)
  | take c =>
    refine h.of_forget hkept rfl fun d os hos => ?_
    rw [get?_eq_some] at hos ⊢
    exact (mem_rows_erase.mp hos).1
  | buffer rec records hi hrec hsrc hst =>
    have hnew : rec.callId ∉ s₀.calls.keys :=
      fun hc => get?_eq_none.mp hst (h.opened _ hc)
    refine ⟨h.errors, h.starts, h.ends, h.grace, fun c os hos => ?_, h.opened, fun c hc => ?_⟩
    · simp only [get?_put] at hos
      split at hos
      · -- The head of the list decides, and it was there before or has just arrived.
        cases hos
        have hgrace := h.grace
        cases hw : x.session.orphans.get? rec.callId with
        | none => simp [isExpired, hgrace]
        | some waiting =>
          cases waiting with
          | nil => simp [isExpired, hgrace]
          | cons o os =>
            have hold := h.waiting _ _ hw
            exact hold
      · exact h.waiting c os hos
    rcases mem_keys_put.mp hc with rfl | hc
    · exact Or.inr ⟨hnew, records, hi, rec, hrec, rfl⟩
    · exact h.buffered c hc
  | expire =>
    refine h.of_forget hkept ?_ fun d os hos => ?_
    · simp [Ctx.expireOrphans, h.expired_eq_nil]
    · exact get?_eq_some.mpr (mem_of_mem_filter (get?_eq_some.mp hos))
  | expireQuietly =>
    refine h.of_forget hkept rfl fun d os hos => ?_
    exact get?_eq_some.mpr (mem_of_mem_filter (get?_eq_some.mp hos))
  | _ => exact h.of_forget hkept rfl fun _ _ hos => hos

end Spared

/-! ## What a `call.start` leaves -/

theorem start_opens (env : SinkEnv) (s : Session) (sink : Sink) (now : Time) {cs : CallStart}
    (hpeer : cs.By s.peer) :
    cs.callId ∈ (respond env s sink (.frame (.callStart cs)) now).session.calls.keys ∨
      (sink.ensureCall env cs s.peer.tenantId s.peer.deviceId).2 = none ∨
      (respond env s sink (.frame (.callStart cs)) now).out.close.isSome := by
  have hs := Ctx.onCallStart_started env now { session := s, sink } cs
  change cs.callId ∈ (Ctx.onCallStart env _ cs now).1.session.calls.keys ∨ _ ∨
    (Ctx.onCallStart env _ cs now).1.out.close.isSome
  generalize Ctx.onCallStart env { session := s, sink } cs now = w at hs ⊢
  cases hs with
  | mismatched hby => exact absurd hpeer hby
  | full => exact Or.inr (Or.inr rfl)
  | failed _ _ hres => exact Or.inr (Or.inl hres)
  | opens _ _ existed =>
    left
    refine Moves.keeps (I := fun x => cs.callId ∈ x.session.calls.keys)
      (Ctx.afterOpen_moves ?_ ?_ existed : Moves env now .tick (fun _ => True) _ _)
      (fun _ _ hm => hm.keys_mono) ?_
    · exact get?_put_self _ _ _
    · exact fun _ _ _ _ => trivial
    · exact mem_keys_put.mpr (Or.inl rfl)

end Sentinel
