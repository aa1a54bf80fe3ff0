import Sentinel.Gateway.Watermark

/-!
# What a session still has to acknowledge

A channel whose last acknowledgement is of all it holds in order is `Caught` up; a session whose
channels all are, and which buffers nothing, is `Settled`.
-/

open List Option Table Function

namespace Sentinel

open Sink Ctx

/-! ## A session with nothing left to say -/

def ChannelState.Caught (cst : ChannelState) : Prop :=
  cst.started = true → cst.everAcked = true ∧ cst.acked = cst.through

instance (cst : ChannelState) : Decidable cst.Caught := inferInstanceAs (Decidable (_ → _))

def Session.Settled (s : Session) : Prop :=
  s.orphans.rows = [] ∧
    ∀ r ∈ s.calls.rows, ∀ ch : Channel, ∀ cst ∈ r.2.channels ch, cst.Caught

instance (s : Session) : Decidable s.Settled :=
  inferInstanceAs (Decidable (_ ∧ ∀ r ∈ s.calls.rows, ∀ _ : Channel, _))

/-! ## Durable marks -/

namespace Sink

def covers (env : SinkEnv) (s : Sink) (c : CallId) (ch : Channel) (q : Nat) : Bool :=
  (s.mark env c ch).any (q ≤ ·)

variable {env : SinkEnv} {R : MediaRecord → Prop} {s : Sink} {c d : CallId} {ch ch' : Channel}
  {q t : Nat}

theorem covers_iff : s.covers env c ch q = true ↔ ∃ m, s.mark env c ch = some m ∧ q ≤ m := by
  simp [covers, Option.any_eq_true]

theorem putSegment_watermarks (env : SinkEnv) (s : Sink) (tenant : String) (c : CallId)
    (r : MediaRecord) : (s.putSegment env tenant c r).1.watermarks = s.watermarks := by
  obtain ⟨segments, fs, puts, writes, he, -⟩ := putSegment_spec env s tenant c r
  rw [he]

theorem finishCall_watermarks (env : SinkEnv) (s : Sink) (tenant : String) (ce : CallEnd) :
    (s.finishCall env tenant ce).1.watermarks = s.watermarks := by
  obtain ⟨calls, outbox, fs, writes, he, -⟩ := finishCall_spec env s tenant ce
  rw [he]

theorem setWatermark_watermarks (env : SinkEnv) (s : Sink) (c : CallId) (ch : Channel) (t : Nat) :
    ((s.setWatermark env c ch t).1.watermarks = s.watermarks ∧
        (s.setWatermark env c ch t).2 = false) ∨
      ∃ u w, env.callUuid c = some u ∧
        (s.setWatermark env c ch t).1.watermarks = s.watermarks.put (u, ch) w ∧
        (s.watermarks.get? (u, ch) = none → w = asInt32 t) ∧
        ∀ old, s.watermarks.get? (u, ch) = some old → w = max old (asInt32 t) := by
  unfold setWatermark
  split
  · rename_i u hu
    obtain ⟨fs, hfs⟩ := nextFault_spec s
    dsimp only
    rw [hfs]
    split
    · exact .inl ⟨rfl, rfl⟩
    split
    · exact .inl ⟨rfl, rfl⟩
    refine .inr ⟨u, _, hu, rfl, fun hnone => ?_, fun old hold => ?_⟩
    · rw [hnone]
    · rw [hold]
  · exact .inl ⟨rfl, rfl⟩

theorem mark_setWatermark_apart
    (h : ∀ u, env.callUuid d = some u → env.callUuid c = some u → ch' ≠ ch) :
    (s.setWatermark env c ch t).1.mark env d ch' = s.mark env d ch' := by
  rcases s.setWatermark_watermarks env c ch t with ⟨hsame, -⟩ | ⟨u, w, hu, he, -⟩
  · exact mark_congr hsame d ch'
  unfold mark ackedOf
  rw [he]
  cases hd : env.callUuid d with
  | none => rfl
  | some v =>
    have hkey : (v, ch') ≠ (u, ch) := by
      intro heq
      obtain ⟨rfl, hch⟩ := Prod.mk.inj heq
      exact h v hd hu hch
    simp only [bind_some, get?_put_ne _ hkey]

theorem mark_setWatermark_ne (henv : env.Faithful) (hne : (d, ch') ≠ (c, ch)) :
    (s.setWatermark env c ch t).1.mark env d ch' = s.mark env d ch' :=
  mark_setWatermark_apart fun u hd hc hch => hne (Prod.ext (henv d c u hd hc) hch)

theorem Safe.mark_setWatermark (hR : ∀ r, R r → r.seq < 2 ^ 31) (h : s.Safe env R)
    (hcov : Covered s.puts c ch t) :
    ((s.setWatermark env c ch t).1.mark env c ch = s.mark env c ch ∧
        (s.setWatermark env c ch t).2 = false) ∨
      (s.setWatermark env c ch t).1.mark env c ch = some (max ((s.mark env c ch).getD 0) t) := by
  rcases s.setWatermark_watermarks env c ch t with
    ⟨hsame, hfail⟩ | ⟨u, w, hu, he, hnew, hold⟩
  · exact .inl ⟨mark_congr hsame c ch, hfail⟩
  have hsmall : ∀ {d p}, Covered s.puts d ch p → p < 2 ^ 31 := by
    intro d p hp
    obtain ⟨r, hr, hseq⟩ := hp.exists_seq
    rw [← hseq]
    exact hR r (h.puts r hr)
  have ht := hsmall hcov
  right
  unfold mark Sink.ackedOf
  rw [he, hu]
  simp only [bind_some, get?_put_self, map_some, some.injEq]
  cases hw : s.watermarks.get? (u, ch) with
  | none =>
    rw [hnew hw, asInt32_of_lt ht, asUint32_natCast (by omega)]
    simp
  | some old =>
    obtain ⟨d, m, -, rfl, hm⟩ := h.marks u ch old hw
    have hlt := hsmall hm
    have hmax : max (m : Int) t = (max m t : ℕ) := by omega
    rw [hold m hw, asInt32_of_lt ht, hmax, asUint32_natCast (by omega), map_some,
      getD_some, asUint32_natCast (by omega)]

theorem Safe.covers_setWatermark (henv : env.Faithful) (hR : ∀ r, R r → r.seq < 2 ^ 31)
    (h : s.Safe env R) (hcov : Covered s.puts c ch t)
    (hq : (s.setWatermark env c ch t).1.covers env d ch' q = true) :
    s.covers env d ch' q = true ∨ (d, ch') = (c, ch) ∧ q ≤ t := by
  obtain ⟨m, hmark, hle⟩ := covers_iff.mp hq
  by_cases heq : (d, ch') = (c, ch)
  · obtain ⟨rfl, rfl⟩ := Prod.mk.inj heq
    rcases h.mark_setWatermark hR hcov with ⟨hsame, -⟩ | hraised
    · exact .inl (covers_iff.mpr ⟨m, hsame.symm.trans hmark, hle⟩)
    rw [hmark, some.injEq] at hraised
    rcases le_or_gt q t with hqt | hlt
    · exact .inr ⟨heq, hqt⟩
    cases hold : s.mark env d ch' with
    | none =>
      rw [hold, getD_none] at hraised
      omega
    | some m₀ =>
      rw [hold, getD_some] at hraised
      exact .inl (covers_iff.mpr ⟨m₀, hold, by omega⟩)
  rw [mark_setWatermark_ne henv heq] at hmark
  exact .inl (covers_iff.mpr ⟨m, hmark, hle⟩)

end Sink

theorem Move.watermarks {env : SinkEnv} {now : Time} {i : Input} {src : MediaRecord → Prop}
    {x y : Ctx} (h : Move env now i src x y) :
    y.sink.watermarks = x.sink.watermarks ∨ ∃ c ch st cst, x.session.calls.get? c = some st ∧
      st.channels ch = some cst ∧ cst.started = true ∧
      y.sink = (x.sink.setWatermark env c ch cst.through).1 := by
  cases h with
  | ensureFails | opens => exact .inl (ensureCall_watermarks ..)
  | store | storeFails => exact .inl (putSegment_watermarks ..)
  | finish => exact .inl (finishCall_watermarks ..)
  | acknowledge c ch st cst hst hcst hstarted | markFails c ch st cst hst hcst hstarted =>
    exact .inr ⟨c, ch, st, cst, hst, hcst, hstarted, rfl⟩
  | _ => exact .inl rfl

def Sink.Grows (env : SinkEnv) (a b : Sink) : Prop :=
  ∀ c ch m, a.mark env c ch = some m → ∃ m', b.mark env c ch = some m' ∧ m ≤ m'

theorem Sink.Grows.of_eq {env : SinkEnv} {a b : Sink} (h : b.watermarks = a.watermarks) :
    a.Grows env b :=
  fun c ch m hm => ⟨m, (mark_congr h c ch).trans hm, le_refl m⟩

theorem Sink.Grows.trans {env : SinkEnv} {a b c : Sink} (h : a.Grows env b) (h' : b.Grows env c) :
    a.Grows env c := by
  intro d ch m hm
  obtain ⟨m₁, hm₁, hle₁⟩ := h d ch m hm
  obtain ⟨m₂, hm₂, hle₂⟩ := h' d ch m₁ hm₁
  exact ⟨m₂, hm₂, hle₁.trans hle₂⟩

/-! ## Promises -/

def ChannelState.Promised (cst : ChannelState) (m : Option Nat) : Prop :=
  cst.everAcked = true → cst.started = true ∧ cst.acked ≤ cst.through ∧ ∃ t ∈ m, cst.acked ≤ t

def Session.Promises (env : SinkEnv) (sink : Sink) (s : Session) : Prop :=
  s.Channels fun c ch cst => cst.Promised (sink.mark env c ch)

def ChannelState.Owing (cst : ChannelState) (q : Nat) : Prop :=
  cst.started = true ∧ q ≤ cst.through ∧ ¬ cst.Caught

def Session.Due (s : Session) (c : CallId) (ch : Channel) (q : Nat) : Prop :=
  ∃ st cst, s.calls.get? c = some st ∧ st.channels ch = some cst ∧ cst.Owing q

theorem Session.Settled.not_due {s : Session} (h : s.Settled) (c : CallId) (ch : Channel)
    (q : Nat) : ¬ s.Due c ch q := by
  rintro ⟨st, cst, hst, hcst, -, -, hnot⟩
  exact hnot (h.2 (c, st) (get?_eq_some.mp hst) ch cst hcst)

theorem absorb_spec (n : Nat) (cst : ChannelState) :
    (absorb n cst).acked = cst.acked ∧ (absorb n cst).everAcked = cst.everAcked ∧
      (absorb n cst).started = cst.started ∧ cst.through ≤ (absorb n cst).through := by
  induction n generalizing cst with
  | zero => exact ⟨rfl, rfl, rfl, le_refl _⟩
  | succ n ih =>
    rw [absorb]
    split
    · obtain ⟨hacked, hever, hstarted, hthrough⟩ := ih { cst with
        through := cst.through + 1, ahead := cst.ahead.erase (cst.through + 1) }
      exact ⟨hacked, hever, hstarted, (Nat.le_succ _).trans hthrough⟩
    · exact ⟨rfl, rfl, rfl, le_refl _⟩

theorem advance_spec (cst : ChannelState) (q : Nat) :
    (advance cst q).acked = cst.acked ∧ (advance cst q).everAcked = cst.everAcked ∧
      (cst.started = true →
        (advance cst q).started = true ∧ cst.through ≤ (advance cst q).through) := by
  unfold advance
  split
  · rename_i hs
    have hs : cst.started = false := by simpa using hs
    split
    · obtain ⟨hacked, hever, -, -⟩ := absorb_spec cst.ahead.length
        { cst with through := 0, started := true }
      exact ⟨hacked, hever, fun h => absurd (h.symm.trans hs) (by simp)⟩
    · exact ⟨rfl, rfl, fun h => ⟨h, le_refl _⟩⟩
  split
  · obtain ⟨hacked, hever, hstarted, hthrough⟩ := absorb_spec cst.ahead.length
      { cst with through := q }
    exact ⟨hacked, hever, fun h => ⟨hstarted.trans h, by dsimp only at hthrough; omega⟩⟩
  · exact ⟨rfl, rfl, fun h => ⟨h, le_refl _⟩⟩

namespace ChannelState

variable {cst cst' : ChannelState} {m : Option Nat} {q : Nat}

structure Onward (cst cst' : ChannelState) : Prop where
  acked : cst'.acked = cst.acked
  everAcked : cst'.everAcked = cst.everAcked
  started : cst.started = true → cst'.started = true ∧ cst.through ≤ cst'.through

theorem Onward.of_eq (hacked : cst'.acked = cst.acked) (hever : cst'.everAcked = cst.everAcked)
    (hstarted : cst'.started = cst.started) (hthrough : cst'.through = cst.through) :
    Onward cst cst' :=
  ⟨hacked, hever, fun h => ⟨hstarted.trans h, hthrough.ge⟩⟩

theorem onward_advance (cst : ChannelState) (n q : Nat) :
    Onward cst (advance { cst with sinceAck := n } q) := by
  obtain ⟨hacked, hever, hstarted⟩ := advance_spec { cst with sinceAck := n } q
  exact ⟨hacked, hever, hstarted⟩

theorem Promised.onward (h : cst.Promised m) (ho : Onward cst cst') : cst'.Promised m := by
  intro hever
  rw [ho.everAcked] at hever
  obtain ⟨hstarted, hle, hmark⟩ := h hever
  obtain ⟨hstarted', hthrough⟩ := ho.started hstarted
  rw [ho.acked]
  exact ⟨hstarted', hle.trans hthrough, hmark⟩

theorem Owing.onward (h : cst.Owing q) (hpromised : cst.Promised m) (ho : Onward cst cst') :
    cst'.Owing q := by
  obtain ⟨hstarted, hle, hnot⟩ := h
  obtain ⟨hstarted', hthrough⟩ := ho.started hstarted
  refine ⟨hstarted', hle.trans hthrough, fun hcaught => hnot fun _ => ?_⟩
  obtain ⟨hever, hacked⟩ := hcaught hstarted'
  rw [ho.everAcked] at hever
  rw [ho.acked] at hacked
  have hold := (hpromised hever).2.1
  exact ⟨hever, by omega⟩

end ChannelState

section Channels

variable {env : SinkEnv} {sink sink' : Sink} {s : Session} {x : Ctx} {st st' : CallState}
  {cst : ChannelState} {c d : CallId} {ch ch' : Channel} {q : Nat}

theorem Session.Promises.grow (h : s.Promises env sink) (hgrow : sink.Grows env sink') :
    s.Promises env sink' := by
  intro c st hst ch cst hcst hever
  obtain ⟨hstarted, hle, t, ht, hacked⟩ := h c st hst ch cst hcst hever
  obtain ⟨t', ht', hle'⟩ := hgrow c ch t ht
  exact ⟨hstarted, hle, t', ht', hacked.trans hle'⟩

theorem Session.Promises.channelOf (h : s.Promises env sink) (hst : s.calls.get? c = some st)
    (ch : Channel) : (channelOf st ch).Promised (sink.mark env c ch) :=
  Session.Channels.channelOf h hst fun hever => absurd hever Bool.false_ne_true

theorem Session.Due.setChannel (h : x.session.Due d ch' q) (hst : x.session.calls.get? c = some st)
    (hcst : d = c → ch' = ch → (channelOf st ch).Owing q → cst.Owing q) :
    (x.setChannel c st ch cst).session.Due d ch' q := by
  obtain ⟨st', cst', hst', hcst', howing⟩ := h
  by_cases hd : d = c
  · subst hd
    obtain rfl : st = st' := some.inj (hst.symm.trans hst')
    by_cases hch : ch' = ch
    · subst hch
      rw [channelOf_some hcst'] at hcst
      exact ⟨_, cst, get?_put_self _ _ _, update_self _ _ _, hcst rfl rfl howing⟩
    have hsame := (update_of_ne hch (some cst) st.channels).trans hcst'
    exact ⟨_, cst', get?_put_self _ _ _, hsame, howing⟩
  · exact ⟨st', cst', (get?_put_ne _ hd _).trans hst', hcst', howing⟩

end Channels

/-! ## The session at work -/

section Moves

variable {env : SinkEnv} {now : Time} {i : Input} {src R : MediaRecord → Prop} {x y : Ctx}
  {c : CallId} {ch : Channel} {q : Nat}

theorem Move.mark_eq (henv : env.Faithful) (hm : Move env now i src x y)
    (hc : c ∉ x.session.calls.keys) : y.sink.mark env c ch = x.sink.mark env c ch := by
  rcases hm.watermarks with hsame | ⟨d, ch', st, cst, hst, -, -, he⟩
  · exact mark_congr hsame c ch
  rw [he]
  refine mark_setWatermark_ne henv fun heq => hc ?_
  rw [(Prod.mk.inj heq).1]
  exact mem_keys_of_get? hst

theorem Move.grows (henv : env.Faithful) (hR : ∀ r, R r → r.seq < 2 ^ 31) (hx : x.Safe env R)
    (hm : Move env now i src x y) : x.sink.Grows env y.sink := by
  rcases hm.watermarks with hsame | ⟨d, ch', st, cst, hst, hcst, hstarted, he⟩
  · exact .of_eq hsame
  intro c ch m hmark
  rw [he]
  by_cases heq : (c, ch) = (d, ch')
  · obtain ⟨rfl, rfl⟩ := Prod.mk.inj heq
    have hcov := covered_of_held (hx.session.channels c st hst ch cst hcst) hstarted
    rcases hx.sink.mark_setWatermark hR hcov with ⟨hsame, -⟩ | hraised
    · exact ⟨m, hsame.trans hmark, le_refl m⟩
    rw [hmark] at hraised
    exact ⟨_, hraised, le_max_left m _⟩
  · exact ⟨m, (mark_setWatermark_ne henv heq).trans hmark, le_refl m⟩

theorem Session.Promises.move (henv : env.Faithful) (hR : ∀ r, R r → r.seq < 2 ^ 31)
    (hx : x.Safe env R) (hm : Move env now i src x y) (h : x.session.Promises env x.sink) :
    y.session.Promises env y.sink := by
  have hgrown : x.session.Promises env y.sink := h.grow (hm.grows henv hR hx)
  cases hm with
  | opens cs existed acked hi hpeer hr =>
    obtain ⟨calls, fs, he, -, hacked⟩ := ensureCall_spec env x.sink cs
      x.session.peer.tenantId x.session.peer.deviceId
    obtain ⟨u, hu, rfl⟩ := hacked existed acked hr
    refine Session.Channels.putCall hgrown fun ch cst hcst => ?_
    simp only [resumeFrom] at hcst
    split at hcst
    · -- The channel starts over from its durable mark.
      rename_i t ht
      cases hcst
      refine fun _ => ⟨rfl, le_refl t, t, ?_, le_refl t⟩
      rw [he]
      unfold mark
      rwa [hu]
    cases hst : x.session.calls.get? cs.callId with
    | none =>
      rw [hst] at hcst
      cases hcst
    | some st =>
      rw [hst] at hcst
      exact hgrown cs.callId st hst ch cst hcst
  | touch c st ch n last hst =>
    refine Session.Channels.setChannel hgrown hst ((hgrown.channelOf hst ch).onward ?_)
    exact ⟨rfl, rfl, fun h => ⟨h, le_refl _⟩⟩
  | store rec st n hsrc hst hok =>
    refine Session.Channels.setChannel (x := { x with sink := _ }) hgrown hst ?_
    exact (hgrown.channelOf hst rec.channel).onward (ChannelState.onward_advance _ n rec.seq)
  | acknowledge c ch st cst hst hcst hstarted hok =>
    have hcov := covered_of_held (hx.session.channels c st hst ch cst hcst) hstarted
    refine Session.Channels.setChannel (x := { x with sink := _ }) hgrown hst fun _ => ?_
    rcases hx.sink.mark_setWatermark hR hcov with ⟨-, hfail⟩ | hraised
    · cases hok.symm.trans hfail
    · exact ⟨hstarted, le_refl _, _, hraised, le_max_right _ _⟩
  | ended c st hst => exact Session.Channels.putCall hgrown (hgrown c st hst)
  | _ => exact hgrown

structure Ctx.Tracks (env : SinkEnv) (R : MediaRecord → Prop) (c : CallId) (ch : Channel) (q : Nat)
    (x : Ctx) : Prop where
  safe : x.Safe env R
  promises : x.session.Promises env x.sink
  tracked : x.sink.covers env c ch q = true →
    (∃ t, (c, ch, t) ∈ x.out.acks ∧ q ≤ t) ∨ x.session.Due c ch q

theorem Ctx.Tracks.of_quiet (h : x.Tracks env R c ch q) (hsafe : y.Safe env R)
    (hpromises : y.session.Promises env y.sink) (hmarks : y.sink.watermarks = x.sink.watermarks)
    (hacks : y.out.acks = x.out.acks) (hdue : x.session.Due c ch q → y.session.Due c ch q) :
    y.Tracks env R c ch q where
  safe := hsafe
  promises := hpromises
  tracked := by
    intro hcovers
    rw [covers, mark_congr hmarks] at hcovers
    rw [hacks]
    exact (h.tracked hcovers).imp_right hdue

theorem Ctx.Tracks.move (henv : env.Faithful) (hR : ∀ r, R r → r.seq < 2 ^ 31)
    (hsrc : ∀ r, src r → R r) (hi : ∀ cs, i ≠ .frame (.callStart cs)) (hm : Move env now i src x y)
    (h : x.Tracks env R c ch q) : y.Tracks env R c ch q := by
  have hsafe := Safe.move henv hR hsrc hm h.safe
  have hpromises := h.promises.move henv hR h.safe hm
  cases hm with
  | mismatch cs _ hcs | ensureFails cs hcs | opens cs _ _ hcs => exact absurd hcs (hi cs)
  | touch d st ch' n last hst =>
    exact h.of_quiet hsafe hpromises rfl rfl fun hdue => hdue.setChannel hst fun _ _ how => how
  | store rec st n hrec hst hok =>
    refine h.of_quiet hsafe hpromises (putSegment_watermarks ..) rfl fun hdue => ?_
    refine Session.Due.setChannel (x := { x with sink := _ }) hdue hst fun _ _ how => ?_
    exact how.onward (h.promises.channelOf hst rec.channel)
      (ChannelState.onward_advance _ n rec.seq)
  | storeFails => exact h.of_quiet hsafe hpromises (putSegment_watermarks ..) rfl id
  | finish => exact h.of_quiet hsafe hpromises (finishCall_watermarks ..) rfl id
  | ended d st hst =>
    refine h.of_quiet hsafe hpromises rfl rfl ?_
    rintro ⟨st', cst, hst', hcst, howing⟩
    by_cases hd : c = d
    · subst hd
      obtain rfl : st = st' := some.inj (hst.symm.trans hst')
      exact ⟨_, cst, get?_put_self _ _ _, hcst, howing⟩
    · exact ⟨st', cst, (get?_put_ne _ hd _).trans hst', hcst, howing⟩
  | acknowledge d ch' st cst hst hcst hstarted hok =>
    refine ⟨hsafe, hpromises, fun hcovers => ?_⟩
    have hcov := covered_of_held (h.safe.session.channels d st hst ch' cst hcst) hstarted
    have hadded : (d, ch', cst.through) ∈ x.out.acks ++ [(d, ch', cst.through)] :=
      mem_append_right _ (mem_singleton.mpr rfl)
    rcases h.safe.sink.covers_setWatermark henv hR hcov hcovers with hbefore | ⟨heq, hq⟩
    · rcases h.tracked hbefore with ⟨t, ht, hqt⟩ | hdue
      · exact .inl ⟨t, mem_append_left _ ht, hqt⟩
      by_cases heq : (c, ch) = (d, ch')
      · -- What was due on this channel is acknowledged now.
        obtain ⟨rfl, rfl⟩ := Prod.mk.inj heq
        obtain ⟨st', cst', hst', hcst', -, hqt, -⟩ := hdue
        obtain rfl : st = st' := some.inj (hst.symm.trans hst')
        obtain rfl : cst = cst' := some.inj (hcst.symm.trans hcst')
        exact .inl ⟨cst.through, hadded, hqt⟩
      refine .inr (Session.Due.setChannel (x := { x with sink := _ }) hdue hst ?_)
      exact fun hc hch => absurd (by rw [hc, hch]) heq
    obtain ⟨rfl, rfl⟩ := Prod.mk.inj heq
    exact .inl ⟨cst.through, hadded, hq⟩
  | markFails d ch' st cst hst hcst hstarted hok =>
    refine ⟨hsafe, hpromises, fun hcovers => ?_⟩
    have hcov := covered_of_held (h.safe.session.channels d st hst ch' cst hcst) hstarted
    by_cases hbefore : x.sink.covers env c ch q = true
    · exact h.tracked hbefore
    -- The mark was raised over the sequence, and the answer was lost.
    obtain ⟨heq, hq⟩ :=
      (h.safe.sink.covers_setWatermark henv hR hcov hcovers).resolve_left hbefore
    obtain ⟨rfl, rfl⟩ := Prod.mk.inj heq
    refine .inr ⟨st, cst, hst, hcst, hstarted, hq, fun hcaught => hbefore ?_⟩
    obtain ⟨hever, hacked⟩ := hcaught hstarted
    obtain ⟨-, -, m₀, hm₀, hle₀⟩ := h.promises c st hst ch cst hcst hever
    exact covers_iff.mpr ⟨m₀, hm₀, by omega⟩
  | _ => exact h.of_quiet hsafe hpromises rfl rfl id

end Moves

section Respond

variable {env : SinkEnv} {now : Time} {i : Input} {R : MediaRecord → Prop} {s : Session}
  {sink : Sink} {c : CallId} {ch : Channel} {q : Nat}

theorem start_cases (env : SinkEnv) (s : Session) (sink : Sink) (cs : CallStart) (now : Time) :
    ((respond env s sink (.frame (.callStart cs)) now).session.calls = s.calls ∧
        (respond env s sink (.frame (.callStart cs)) now).sink.watermarks = sink.watermarks) ∨
      ∃ x, (∃ y, Move env now (.frame (.callStart cs)) (Carries s (.frame (.callStart cs)))
            { session := s, sink } y ∧
          Move env now (.frame (.callStart cs)) (Carries s (.frame (.callStart cs))) y x) ∧
        x.sink.watermarks = sink.watermarks ∧
        (∀ d, d ≠ cs.callId → x.session.calls.get? d = s.calls.get? d) ∧
        Moves env now .tick (Carries s (.frame (.callStart cs))) x
          (respond env s sink (.frame (.callStart cs)) now) := by
  have hactive : Move env now (.frame (.callStart cs)) (Carries s (.frame (.callStart cs)))
      { session := s, sink } { session := { s with lastActivity := now }, sink } :=
    neutral_activity now
  have hs := onCallStart_started env now { session := s, sink } cs
  change ((onCallStart env _ cs now).1.session.calls = _ ∧
    (onCallStart env _ cs now).1.sink.watermarks = _) ∨ ∃ x, _ ∧ _ ∧ _ ∧
      Moves env now .tick _ x (onCallStart env _ cs now).1
  generalize onCallStart env { session := s, sink } cs now = w at hs ⊢
  cases hs with
  | mismatched | full => exact .inl ⟨rfl, rfl⟩
  | failed => exact .inl ⟨rfl, ensureCall_watermarks ..⟩
  | opens hby _ existed hres =>
    refine .inr ⟨_, ⟨_, hactive, .opens _ cs existed _ rfl hby hres⟩,
      ensureCall_watermarks .., fun d hne => get?_put_ne _ hne _, ?_⟩
    refine afterOpen_moves (get?_put_self _ _ _) ?_ existed
    exact fun os hos o ho => .inr ⟨cs.callId, os, hos, o, ho, rfl⟩

theorem respond_tracks (henv : env.Faithful) (hR : ∀ r, R r → r.seq < 2 ^ 31)
    (hsrc : ∀ r, Carries s i r → R r) (h : Tracks env R c ch q { session := s, sink })
    (hstart : ∀ cs, i = .frame (.callStart cs) → cs.callId = c →
      sink.covers env c ch q = false) : (respond env s sink i now).Tracks env R c ch q := by
  by_cases hcs : ∃ cs, i = .frame (.callStart cs)
  · obtain ⟨cs, rfl⟩ := hcs
    have hboth : ∀ x y,
        Move env now (.frame (.callStart cs)) (Carries s (.frame (.callStart cs))) x y →
        x.Safe env R ∧ x.session.Promises env x.sink →
        y.Safe env R ∧ y.session.Promises env y.sink :=
      fun x y hm hx => ⟨Safe.move henv hR hsrc hm hx.1, hx.2.move henv hR hx.1 hm⟩
    rcases start_cases env s sink cs now with ⟨hcalls, hmarks⟩ |
      ⟨x, ⟨y, hy, hx⟩, hmarks, hcalls, hmoves⟩
    · obtain ⟨hsafe, hpromises⟩ := respond_keeps (.frame (.callStart cs)) hboth ⟨h.safe, h.promises⟩
      refine ⟨hsafe, hpromises, fun hcovers => ?_⟩
      rw [covers, mark_congr hmarks] at hcovers
      rcases h.tracked hcovers with ⟨t, ht, -⟩ | ⟨st, cst, hst, hcst⟩
      · cases ht
      · exact .inr ⟨st, cst, hcalls.symm ▸ hst, hcst⟩
    obtain ⟨hsafe, hpromises⟩ := hboth y x hx (hboth _ y hy ⟨h.safe, h.promises⟩)
    refine hmoves.keeps (fun _ _ hm => Tracks.move henv hR hsrc (by simp) hm)
      ⟨hsafe, hpromises, fun hcovers => ?_⟩
    rw [covers, mark_congr hmarks] at hcovers
    by_cases hc : cs.callId = c
    · rw [← covers, hstart cs rfl hc] at hcovers
      cases hcovers
    rcases h.tracked hcovers with ⟨t, ht, -⟩ | ⟨st, cst, hst, hcst⟩
    · cases ht
    · exact .inr ⟨st, cst, (hcalls c fun he => hc he.symm).trans hst, hcst⟩
  exact respond_keeps i (fun _ _ hm =>
    Tracks.move henv hR hsrc (fun cs he => hcs ⟨cs, he⟩) hm) h

theorem respond_mark (henv : env.Faithful) (hc : c ∉ s.calls.keys)
    (hstart : ∀ cs, i = .frame (.callStart cs) → cs.callId ≠ c) :
    (respond env s sink i now).sink.mark env c ch = sink.mark env c ch := by
  have hkept : c ∉ (respond env s sink i now).session.calls.keys ∧
      (respond env s sink i now).sink.mark env c ch = sink.mark env c ch := by
    refine respond_keeps i (I := fun x => c ∉ x.session.calls.keys ∧
      x.sink.mark env c ch = sink.mark env c ch) (fun x y hm hx => ⟨fun hnew => ?_, ?_⟩) ⟨hc, rfl⟩
    · rcases hm.keys_new hnew with hold | ⟨cs, r, hi, he, -⟩
      · exact hx.1 hold
      · exact hstart cs hi he.symm
    · exact (hm.mark_eq henv hx.1).trans hx.2
  exact hkept.2

end Respond

/-! ## The whole gateway -/

structure Ctx.Marked (env : SinkEnv) (R : MediaRecord → Prop) (K : Set CallId) (a : Sink)
    (x : Ctx) : Prop where
  safe : x.Safe env R
  promises : x.session.Promises env x.sink
  opened : ∀ c ∈ x.session.calls.keys, c ∈ K
  marks : ∀ c ch m, x.sink.mark env c ch = some m → c ∈ K
  grows : a.Grows env x.sink

theorem Ctx.Marked.move {env : SinkEnv} {now : Time} {i : Input} {src R : MediaRecord → Prop}
    {K : Set CallId} {a : Sink} {x y : Ctx} (henv : env.Faithful) (hR : ∀ r, R r → r.seq < 2 ^ 31)
    (hsrc : ∀ r, src r → R r) (hstart : ∀ cs, i = .frame (.callStart cs) → cs.callId ∈ K)
    (hm : Move env now i src x y) (h : x.Marked env R K a) : y.Marked env R K a where
  safe := Safe.move henv hR hsrc hm h.safe
  promises := h.promises.move henv hR h.safe hm
  opened := by
    intro c hc
    rcases hm.keys_new hc with hc | ⟨cs, r, hi, rfl, -⟩
    · exact h.opened c hc
    · exact hstart cs hi
  marks := by
    intro c ch m hmark
    by_cases hc : c ∈ x.session.calls.keys
    · exact h.opened c hc
    · exact h.marks c ch m ((hm.mark_eq henv hc).symm.trans hmark)
  grows := h.grows.trans (hm.grows henv hR h.safe)

structure Server.Marked (env : SinkEnv) (K : Set CallId) (srv : Server) : Prop where
  promises : ∀ conn ∈ srv.conns, conn.session.Promises env srv.sink
  opened : ∀ conn ∈ srv.conns, ∀ c ∈ conn.session.calls.keys, c ∈ K
  marks : ∀ c ch m, srv.sink.mark env c ch = some m → c ∈ K

namespace Server.Marked

variable {env : SinkEnv} {R : MediaRecord → Prop} {K K' : Set CallId} {srv : Server}

theorem mono (h : srv.Marked env K) (hK : K ⊆ K') : srv.Marked env K' where
  promises := h.promises
  opened := fun conn hconn c hc => hK (h.opened conn hconn c hc)
  marks := fun c ch m hm => hK (h.marks c ch m hm)

theorem accept (h : srv.Marked env K) (peer : Peer) (cfg : Config) (v : Int) (t : Time) :
    (srv.step env (.accept peer cfg v t)).Marked env K where
  promises := forall_mem_append.mpr
    ⟨h.promises, forall_mem_singleton.mpr fun c st hst => by cases hst⟩
  opened := forall_mem_append.mpr ⟨h.opened, forall_mem_singleton.mpr fun c hc => by cases hc⟩
  marks := h.marks

theorem hangup (h : srv.Marked env K) (k : Nat) : (srv.step env (.hangup k)).Marked env K :=
  ⟨forall_mem_modify h.promises fun _ hc => hc, forall_mem_modify h.opened fun _ hc => hc, h.marks⟩

theorem input (henv : env.Faithful) (hR : ∀ r, R r → r.seq < 2 ^ 31) (hsafe : srv.Safe env R)
    (h : srv.Marked env K) (k : Nat) {i : Input} (now : Time) (faults : List Fault)
    (hi : ∀ records, i = .frame (.media records) → ∀ r ∈ records, R r)
    (hstart : ∀ cs, i = .frame (.callStart cs) → cs.callId ∈ K) :
    (srv.step env (.input k i now faults)).Marked env K := by
  cases hx : srv.reply env k i now faults with
  | none =>
    rwa [Server.step_input_none hx]
  | some x =>
    obtain ⟨conn, hconn, -, hxe⟩ := Server.reply_eq_some hx
    have hmem := mem_of_getElem? hconn
    have hmarked : x.Marked env R K srv.sink := by
      rw [hxe]
      refine respond_keeps i (fun _ _ hm => Marked.move henv hR (hsafe.carries hconn hi) hstart hm)
        ⟨hsafe.start hconn faults, ?_, h.opened conn hmem, h.marks, .of_eq rfl⟩
      exact (h.promises conn hmem).grow (.of_eq rfl)
    rw [Server.step_input hx]
    refine ⟨fun conn' hconn' => ?_, fun conn' hconn' => ?_, hmarked.marks⟩ <;>
      rcases mem_or_eq_of_mem_set hconn' with hconn' | rfl
    · exact (h.promises conn' hconn').grow hmarked.grows
    · exact hmarked.promises
    · exact h.opened conn' hconn'
    · exact hmarked.opened

end Server.Marked

end Sentinel
