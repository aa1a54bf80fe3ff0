import Sentinel.Lib.Runs
import Sentinel.Capture.Pipeline

/-!
# Foreign audio, counted

On tier B the suppressor (`foreign.rs`) calls a slice foreign when something is heard although the
softphone's session has been inactive for a while, and reports now and then how much has gathered.
-/

open List Option

namespace Sentinel.Capture

open Runs

/-! ## Histories -/

inductive SuppressorOp where
  | session (nowMs : Nat) (active : Bool)
  | judge (nowMs : Nat) (voiced : Bool) (durationMs : Nat)
  | drain (nowMs : Nat)
  deriving DecidableEq, Repr

namespace SuppressorOp

def nowMs : SuppressorOp → Nat
  | session now _ | judge now _ _ | drain now => now

def session? : SuppressorOp → Option Bool
  | session _ active => some active
  | _ => none

def activeAfter (ops : List SuppressorOp) : Bool := (ops.filterMap session?).getLast?.getD false

def InactiveSince (ops : List SuppressorOp) (t : Nat) : Prop :=
  (t = 0 ∧ ∀ op ∈ ops, op.session? ≠ some true) ∨
    ∃ before after, ops = before ++ session t false :: after ∧ activeAfter before = true ∧
      ∀ op ∈ after, op.session? ≠ some true

theorem activeAfter_concat (ops : List SuppressorOp) (op : SuppressorOp) :
    activeAfter (ops ++ [op]) = op.session?.getD (activeAfter ops) := by
  cases h : op.session? <;> simp [activeAfter, h]

theorem inactiveSince_concat {ops : List SuppressorOp} {op : SuppressorOp} {t : Nat} :
    InactiveSince (ops ++ [op]) t ↔ op.session? ≠ some true ∧
      (InactiveSince ops t ∨ op = session t false ∧ activeAfter ops = true) := by
  constructor
  · rintro (⟨ht, hall⟩ | ⟨before, after, hsplit, hbefore, hafter⟩)
    · exact ⟨hall op (by simp), .inl (.inl ⟨ht, fun o ho => hall o (by simp [ho])⟩)⟩
    rcases History.split_append hsplit with ⟨after', hops, rfl⟩ | ⟨pre, rfl, hop⟩
    · exact ⟨hafter op (by simp),
        .inl (.inr ⟨before, after', hops, hbefore, fun o ho => hafter o (by simp [ho])⟩)⟩
    cases pre with
    | nil =>
      obtain ⟨rfl, rfl⟩ := cons.inj hop
      rw [append_nil] at hbefore
      exact ⟨by simp [session?], .inr ⟨rfl, hbefore⟩⟩
    | cons o pre => simp at hop
  rintro ⟨hop, (⟨ht, hall⟩ | ⟨before, after, rfl, hbefore, hafter⟩) | ⟨rfl, hactive⟩⟩
  · refine .inl ⟨ht, fun o ho => ?_⟩
    rcases mem_append.mp ho with ho | ho
    · exact hall o ho
    · rwa [mem_singleton.mp ho]
  · refine .inr ⟨before, after ++ [op], by simp, hbefore, fun o ho => ?_⟩
    rcases mem_append.mp ho with ho | ho
    · exact hafter o ho
    · rwa [mem_singleton.mp ho]
  · exact .inr ⟨ops, [], rfl, hactive, nofun⟩

end SuppressorOp

/-! ## The suppressor and its books -/

open SuppressorOp (activeAfter InactiveSince activeAfter_concat inactiveSince_concat)

structure Suppression where
  suppressor : ForeignAudioSuppressor
  events : List ClientEvent := []
  foreignMs : List Nat := []

namespace Suppression

def new (params : SuppressorParams) : Suppression where
  suppressor := { params }

def step (l : Suppression) : SuppressorOp → Suppression
  | .session now active => { l with suppressor := l.suppressor.setSessionActive now active }
  | .judge now voiced durationMs =>
    let judged := l.suppressor.judge now voiced durationMs
    { l with
      suppressor := judged.1
      foreignMs := if judged.2 = .markForeign then l.foreignMs ++ [durationMs] else l.foreignMs }
  | .drain now =>
    let drained := l.suppressor.takeEvent now
    { l with suppressor := drained.1, events := l.events ++ drained.2.toList }

def reportedMs (l : Suppression) : Nat := (l.events.map fun ev => ev.count.getD 0).sum

structure Follows (params : SuppressorParams) (ops : List SuppressorOp) (l : Suppression) :
    Prop where
  params : l.suppressor.params = params
  enabled : l.suppressor.enabled = true
  active : l.suppressor.sessionActive = activeAfter ops
  edge : l.suppressor.sessionActive = l.suppressor.inactiveSinceMs.isNone
  since : ∀ t, l.suppressor.inactiveSinceMs = some t ↔ InactiveSince ops t
  reported : l.reportedMs + l.suppressor.unreportedMs = l.suppressor.suppressedMs
  total : l.suppressor.suppressedMs = l.foreignMs.sum

namespace Follows

variable {params : SuppressorParams} {ops : List SuppressorOp} {l : Suppression}

theorem new (params : SuppressorParams) : Follows params [] (.new params) where
  params := rfl
  enabled := rfl
  active := rfl
  edge := rfl
  since t := by
    constructor
    · intro h
      exact .inl ⟨(some.inj h).symm, nofun⟩
    rintro (⟨rfl, -⟩ | ⟨before, after, h, -, -⟩)
    · rfl
    · simp at h
  reported := rfl
  total := rfl

theorem quiet {op : SuppressorOp} {l' : Suppression} (h : Follows params ops l)
    (hop : op.session? = none) (hparams : l'.suppressor.params = l.suppressor.params)
    (henabled : l'.suppressor.enabled = l.suppressor.enabled)
    (hactive : l'.suppressor.sessionActive = l.suppressor.sessionActive)
    (hsince : l'.suppressor.inactiveSinceMs = l.suppressor.inactiveSinceMs)
    (hreported : l'.reportedMs + l'.suppressor.unreportedMs = l'.suppressor.suppressedMs)
    (htotal : l'.suppressor.suppressedMs = l'.foreignMs.sum) :
    Follows params (ops ++ [op]) l' where
  params := hparams.trans h.params
  enabled := henabled.trans h.enabled
  active := by rw [hactive, h.active, activeAfter_concat, hop]; rfl
  edge := by rw [hactive, hsince, h.edge]
  since t := by
    rw [hsince, h.since, inactiveSince_concat]
    have hne : op ≠ .session t false := by
      rintro rfl
      cases hop
    simp [hop, hne]
  reported := hreported
  total := htotal

theorem session (h : Follows params ops l) (now : Nat) (active : Bool) :
    Follows params (ops ++ [.session now active]) (l.step (.session now active)) := by
  have hnot : l.suppressor.sessionActive = true → ∀ t, ¬ InactiveSince ops t := by
    intro hon t ht
    rw [h.edge, isNone_iff_eq_none] at hon
    rw [← h.since, hon] at ht
    cases ht
  simp only [Suppression.step, ForeignAudioSuppressor.setSessionActive]
  by_cases hsame : active = l.suppressor.sessionActive
  · -- The same state again is not an edge.
    rw [if_pos hsame]
    refine ⟨h.params, h.enabled, ?_, h.edge, fun t => ?_, h.reported, h.total⟩
    · rw [activeAfter_concat]
      exact hsame.symm
    rw [h.since, inactiveSince_concat]
    cases active with
    | true => simp [SuppressorOp.session?, hnot hsame.symm t]
    | false => simp [SuppressorOp.session?, ← h.active, ← hsame]
  rw [if_neg hsame]
  refine ⟨h.params, h.enabled, ?_, ?_, fun t => ?_, h.reported, h.total⟩
  · rw [activeAfter_concat]
    rfl
  · cases active <;> rfl
  rw [inactiveSince_concat]
  cases active with
  | true => simp [SuppressorOp.session?]
  | false =>
    have hon : l.suppressor.sessionActive = true := by simpa using hsame
    simp [SuppressorOp.session?, hnot hon t, ← h.active, hon]

theorem judge (h : Follows params ops l) (now : Nat) (voiced : Bool) (durationMs : Nat) :
    Follows params (ops ++ [.judge now voiced durationMs])
      (l.step (.judge now voiced durationMs)) := by
  simp only [Suppression.step, ForeignAudioSuppressor.judge]
  split
  · exact h.quiet rfl rfl rfl rfl rfl h.reported h.total
  have hreported := h.reported
  have htotal := h.total
  refine h.quiet rfl rfl rfl rfl rfl ?_ ?_
  · change l.reportedMs + (l.suppressor.unreportedMs + durationMs) =
      l.suppressor.suppressedMs + durationMs
    omega
  simp only [if_true, sum_append, sum_singleton]
  omega

theorem drain (h : Follows params ops l) (now : Nat) :
    Follows params (ops ++ [.drain now]) (l.step (.drain now)) := by
  simp only [Suppression.step, ForeignAudioSuppressor.takeEvent]
  split
  · refine h.quiet rfl rfl rfl rfl rfl ?_ h.total
    simpa [reportedMs] using h.reported
  refine h.quiet rfl rfl rfl rfl rfl ?_ h.total
  simpa [reportedMs] using h.reported

theorem step (h : Follows params ops l) (op : SuppressorOp) :
    Follows params (ops ++ [op]) (l.step op) := by
  cases op with
  | session now active => exact h.session now active
  | judge now voiced durationMs => exact h.judge now voiced durationMs
  | drain now => exact h.drain now

theorem run (params : SuppressorParams) (ops : List SuppressorOp) :
    Follows params ops (run Suppression.step (.new params) ops) := by
  induction ops using reverseRecOn with
  | nil => exact .new params
  | append_singleton ops op ih =>
    rw [run_concat]
    exact ih.step op

theorem judge_iff (h : Follows params ops l) {now : Nat} (hnow : ∀ op ∈ ops, op.nowMs ≤ now)
    (voiced : Bool) (durationMs : Nat) :
    (l.suppressor.judge now voiced durationMs).2 = .markForeign ↔
      voiced = true ∧ activeAfter ops = false ∧
        ∃ since, InactiveSince ops since ∧ since + params.trailingGraceMs ≤ now := by
  have hjudge : (l.suppressor.judge now voiced durationMs).2 = .markForeign ↔
      voiced = true ∧ l.suppressor.sessionActive = false ∧
        l.suppressor.inTrailingGrace now = false := by
    unfold ForeignAudioSuppressor.judge
    rw [h.enabled]
    split
    · cases hs : l.suppressor.sessionActive <;> cases hg : l.suppressor.inTrailingGrace now <;>
        cases voiced <;> simp_all
    rename_i hkeep
    simp only [Bool.not_true, Bool.false_or, Bool.or_eq_true, not_or, Bool.not_eq_true,
      Bool.not_eq_false'] at hkeep
    simp [hkeep]
  rw [hjudge, h.active]
  refine and_congr_right fun _ => and_congr_right fun hoff => ?_
  obtain ⟨since, hsince⟩ : ∃ t, l.suppressor.inactiveSinceMs = some t := by
    rw [← isSome_iff_exists, ← not_isNone, ← h.edge, h.active, hoff]
    rfl
  have hpast : since ≤ now := by
    rcases (h.since since).mp hsince with ⟨rfl, -⟩ | ⟨before, after, rfl, -, -⟩
    · exact Nat.zero_le now
    · exact hnow (.session since false) (by simp)
  have hgrace : l.suppressor.inTrailingGrace now = false ↔
      since + params.trailingGraceMs ≤ now := by
    simp only [ForeignAudioSuppressor.inTrailingGrace, hsince, any_some, h.params,
      decide_eq_false_iff_not]
    omega
  rw [hgrace]
  constructor
  · exact fun hover => ⟨since, (h.since since).mp hsince, hover⟩
  rintro ⟨t, ht, hover⟩
  rw [← h.since, hsince] at ht
  rwa [some.inj ht]

end Follows

end Suppression

theorem ForeignAudioSuppressor.unreportedMs_takeEvent_lt {s : ForeignAudioSuppressor}
    (h : 0 < s.params.reportAfterMs) (now : Nat) :
    (s.takeEvent now).1.unreportedMs < s.params.reportAfterMs := by
  unfold takeEvent
  split
  · assumption
  · exact h

/-- **The suppressor goes by its history.** -/
theorem suppression_accounted (params : SuppressorParams) (hreport : 0 < params.reportAfterMs)
    (ops : List SuppressorOp) :
    let l := run Suppression.step (.new params) ops
    (∀ now voiced durationMs, (∀ op ∈ ops, op.nowMs ≤ now) →
      ((l.suppressor.judge now voiced durationMs).2 = .markForeign ↔
        voiced = true ∧ activeAfter ops = false ∧
          ∃ since, InactiveSince ops since ∧ since + params.trailingGraceMs ≤ now)) ∧
      l.reportedMs + l.suppressor.unreportedMs = l.suppressor.suppressedMs ∧
      l.suppressor.suppressedMs = l.foreignMs.sum ∧
      ∀ now, (l.suppressor.takeEvent now).1.unreportedMs < params.reportAfterMs := by
  intro l
  have h : Suppression.Follows params ops l := .run params ops
  refine ⟨fun now voiced durationMs hnow => h.judge_iff hnow voiced durationMs, h.reported,
    h.total, fun now => ?_⟩
  have hlt := ForeignAudioSuppressor.unreportedMs_takeEvent_lt (h.params ▸ hreport) now
  rwa [h.params] at hlt

def musicAfterCall : List SuppressorOp :=
  [.session 100 true, .judge 120 true 20, .session 1000 false, .session 1500 false,
    .judge 2499 true 20, .judge 2500 true 1990, .drain 2500, .judge 4490 true 20, .drain 4510]

theorem musicAfterCall_accounted :
    (run Suppression.step (.new {}) musicAfterCall).foreignMs = [1990, 20] ∧
      (run Suppression.step (.new {}) musicAfterCall).reportedMs = 2010 ∧
      ∀ now, ((run Suppression.step (.new {}) musicAfterCall).suppressor.takeEvent
        now).1.unreportedMs < 2000 :=
  ⟨by decide, by decide, (suppression_accounted {} (by decide) musicAfterCall).2.2.2⟩

end Sentinel.Capture
