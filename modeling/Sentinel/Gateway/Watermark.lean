import Mathlib.Order.Interval.Set.Basic
import Sentinel.Gateway.Server

/-!
# What a watermark stands for

The gateway acknowledges a channel with one number, and the client deletes everything up to it.
-/

open List Table

namespace Sentinel

open ChannelState

/-! ## Sets of sequences -/

def storedSeqs (puts : List MediaRecord) (c : CallId) (ch : Channel) : Set ℕ :=
  {q | ∃ r ∈ puts, r.callId = c ∧ r.channel = ch ∧ r.seq = q}

theorem storedSeqs_mono {puts puts' : List MediaRecord} (h : puts ⊆ puts') (c : CallId)
    (ch : Channel) : storedSeqs puts c ch ⊆ storedSeqs puts' c ch := by
  rintro q ⟨r, hr, hq⟩
  exact ⟨r, h hr, hq⟩

def Covered (puts : List MediaRecord) (c : CallId) (ch : Channel) (t : Nat) : Prop :=
  Set.Iic t ⊆ storedSeqs puts c ch

theorem Covered.mono {puts puts' : List MediaRecord} {c : CallId} {ch : Channel} {t : Nat}
    (h : Covered puts c ch t) (hputs : puts ⊆ puts') : Covered puts' c ch t :=
  h.trans (storedSeqs_mono hputs c ch)

theorem Covered.exists_seq {puts : List MediaRecord} {c : CallId} {ch : Channel} {t : Nat}
    (h : Covered puts c ch t) : ∃ r ∈ puts, r.seq = t := by
  obtain ⟨r, hr, -, -, hq⟩ := h (Set.mem_Iic.mpr le_rfl)
  exact ⟨r, hr, hq⟩

def ChannelState.held (cst : ChannelState) : Set ℕ :=
  {q | cst.started = true ∧ q ≤ cst.through} ∪ {q | q ∈ cst.ahead}

theorem held_absorb (n : Nat) (cst : ChannelState) (hs : cst.started = true) :
    (absorb n cst).held = cst.held := by
  induction n generalizing cst with
  | zero => rfl
  | succ n ih =>
    rw [absorb]
    split
    · rename_i hnext
      rw [ih _ (by exact hs)]
      ext q
      simp only [held, hs, true_and, Set.mem_union, Set.mem_ofPred_eq]
      constructor
      · rintro (hq | hq)
        · rcases Nat.le_succ_iff.mp hq with hq | rfl
          · exact Or.inl hq
          · exact Or.inr hnext
        · exact Or.inr (mem_of_mem_erase hq)
      rintro (hq | hq)
      · exact Or.inl (hq.trans (Nat.le_succ _))
      by_cases hne : q = cst.through + 1
      · exact Or.inl hne.le
      · exact Or.inr ((mem_erase_of_ne hne).mpr hq)
    · rfl

theorem held_advance (cst : ChannelState) (q : Nat) : (advance cst q).held = insert q cst.held := by
  have hahead : ∀ cst : ChannelState,
      { cst with ahead := cst.ahead.insert q }.held = insert q cst.held := by
    intro cst
    ext p
    simp only [held, mem_insert_iff, Set.mem_union, Set.mem_ofPred_eq, Set.mem_insert_iff]
    tauto
  unfold advance
  split
  · rename_i hs
    have hs : cst.started = false := by simpa using hs
    split
    · rename_i hq
      refine (held_absorb _ _ rfl).trans ?_
      ext p
      simp [held, hs, hq]
    · exact hahead cst
  rename_i hs
  have hs : cst.started = true := by simpa using hs
  split
  · rename_i hq
    rw [held_absorb _ _ (by exact hs)]
    ext p
    simp only [held, hs, hq, true_and, Set.mem_union, Set.mem_ofPred_eq,
      Set.mem_insert_iff, Nat.le_succ_iff]
    tauto
  · exact hahead cst

/-! ## What holds of every channel -/

def Session.Channels (P : CallId → Channel → ChannelState → Prop) (s : Session) : Prop :=
  ∀ c st, s.calls.get? c = some st → ∀ ch cst, st.channels ch = some cst → P c ch cst

namespace Session.Channels

variable {P : CallId → Channel → ChannelState → Prop} {s : Session} {x : Ctx} {c : CallId}
  {ch : Channel} {st : CallState} {cst : ChannelState}

theorem channelOf (h : s.Channels P) (hst : s.calls.get? c = some st) (hnew : P c ch {}) :
    P c ch (Ctx.channelOf st ch) := by
  cases hcst : st.channels ch with
  | none => rwa [Ctx.channelOf, hcst]
  | some cst =>
    rw [Ctx.channelOf_some hcst]
    exact h c st hst ch cst hcst

theorem putCall (h : s.Channels P) (hst : ∀ ch cst, st.channels ch = some cst → P c ch cst) :
    Session.Channels P { s with calls := s.calls.put c st } := by
  intro d st' hd
  simp only [get?_put] at hd
  split at hd
  · rename_i heq
    cases hd
    exact heq ▸ hst
  · exact h d st' hd

theorem setChannel (h : x.session.Channels P) (hst : x.session.calls.get? c = some st)
    (hcst : P c ch cst) : (x.setChannel c st ch cst).session.Channels P := by
  refine h.putCall fun ch' cst' hcst' => ?_
  simp only [Function.update_apply] at hcst'
  split at hcst'
  · rename_i heq
    cases hcst'
    exact heq ▸ hcst
  · exact h c st hst ch' cst' hcst'

end Session.Channels

/-! ## Safety of the parts of a context -/

def SinkEnv.Faithful (env : SinkEnv) : Prop :=
  ∀ c d u, env.callUuid c = some u → env.callUuid d = some u → c = d

theorem anyEnv_faithful : anyEnv.Faithful := by
  intro c d u hc hd
  exact (Option.some.inj hc).trans (Option.some.inj hd).symm

structure Sink.Safe (env : SinkEnv) (R : MediaRecord → Prop) (s : Sink) : Prop where
  puts : ∀ r ∈ s.puts, R r
  marks : ∀ u ch w, s.watermarks.get? (u, ch) = some w →
    ∃ c, ∃ t : Nat, env.callUuid c = some u ∧ w = t ∧ Covered s.puts c ch t

structure Session.Safe (R : MediaRecord → Prop) (puts : List MediaRecord) (s : Session) :
    Prop where
  channels : s.Channels fun c ch cst => cst.held ⊆ storedSeqs puts c ch
  orphans : ∀ c os, s.orphans.get? c = some os → ∀ o ∈ os, R o.record

structure Outbound.Safe (puts : List MediaRecord) (o : Outbound) : Prop where
  acks : ∀ a ∈ o.acks, Covered puts a.1 a.2.1 a.2.2
  resumes : ∀ r ∈ o.resumes, ∀ ch t, r.2 ch = some t → Covered puts r.1 ch t

structure Ctx.Safe (env : SinkEnv) (R : MediaRecord → Prop) (x : Ctx) : Prop where
  sink : x.sink.Safe env R
  session : x.session.Safe R x.sink.puts
  out : x.out.Safe x.sink.puts

section Safe

variable {env : SinkEnv} {R : MediaRecord → Prop} {puts puts' : List MediaRecord}
  {c : CallId} {ch : Channel}

variable {s' sink : Sink} {cst : ChannelState} {u : Uuid}

theorem Sink.Safe.congr {s : Sink} (h : s.Safe env R) (hputs : s'.puts = s.puts)
    (hmarks : s'.watermarks = s.watermarks) : s'.Safe env R where
  puts := hputs ▸ h.puts
  marks := by
    rw [hputs, hmarks]
    exact h.marks

variable {s : Session} {o : Outbound} {st : CallState} {t : Nat}

theorem Session.Safe.mono {R' : MediaRecord → Prop} (h : s.Safe R puts) (hputs : puts ⊆ puts')
    (hR : ∀ r, R r → R' r) : s.Safe R' puts' where
  channels := fun c st hst ch cst hcst =>
    (h.channels c st hst ch cst hcst).trans (storedSeqs_mono hputs c ch)
  orphans := fun c os hos o ho => hR _ (h.orphans c os hos o ho)

theorem Outbound.Safe.mono (h : o.Safe puts) (hputs : puts ⊆ puts') : o.Safe puts' where
  acks := fun a ha => (h.acks a ha).mono hputs
  resumes := fun r hr ch t ht => (h.resumes r hr ch t ht).mono hputs

theorem covered_of_held (h : cst.held ⊆ storedSeqs puts c ch)
    (hs : cst.started = true) : Covered puts c ch cst.through :=
  fun _ hq => h (Or.inl ⟨hs, hq⟩)

theorem Session.Safe.channelOf (h : s.Safe R puts) (hst : s.calls.get? c = some st) (ch : Channel) :
    (Ctx.channelOf st ch).held ⊆ storedSeqs puts c ch :=
  h.channels.channelOf hst (by simp [held])

theorem Sink.Safe.ackedOf {s : Sink} (henv : env.Faithful)
    (hR : ∀ r, R r → r.seq < 2 ^ 31) (h : s.Safe env R) (hu : env.callUuid c = some u)
    (ht : s.ackedOf u ch = some t) : Covered s.puts c ch t := by
  obtain ⟨w, hw, rfl⟩ := Option.map_eq_some_iff.mp ht
  obtain ⟨d, t, hd, rfl, hcov⟩ := h.marks u ch w hw
  obtain ⟨r, hr, hseq⟩ := hcov.exists_seq
  have hlt : t < 2 ^ 31 := hseq ▸ hR r (h.puts r hr)
  rwa [asUint32_natCast (by omega), henv c d u hu hd]

theorem Session.Safe.resumeFrom {cs : CallStart} {now : Time}
    (henv : env.Faithful) (hR : ∀ r, R r → r.seq < 2 ^ 31) (h : s.Safe R sink.puts)
    (hsink : sink.Safe env R) (hu : env.callUuid cs.callId = some u) (ch : Channel)
    (cst : ChannelState)
    (hcst : (Ctx.resumeFrom ((s.calls.get? cs.callId).getD { start := cs, firstSeen := now })
      (sink.ackedOf u)).channels ch = some cst) : cst.held ⊆ storedSeqs sink.puts cs.callId ch := by
  have hold : ∀ ch, (Ctx.channelOf
      ((s.calls.get? cs.callId).getD { start := cs, firstSeen := now }) ch).held ⊆
        storedSeqs sink.puts cs.callId ch := by
    intro ch
    cases hst : s.calls.get? cs.callId with
    | none => simp [Ctx.channelOf, held]
    | some st => exact h.channelOf hst ch
  simp only [Ctx.resumeFrom] at hcst
  split at hcst
  · rename_i t ht
    cases hcst
    rintro q (hq | hq)
    · exact hsink.ackedOf henv hR hu ht hq.2
    · exact hold ch (Or.inr hq)
  have hch := hold ch
  rwa [Ctx.channelOf_some hcst] at hch

theorem Sink.Safe.setWatermark {s : Sink} (hR : ∀ r, R r → r.seq < 2 ^ 31) (h : s.Safe env R)
    (hcov : Covered s.puts c ch t) :
    (s.setWatermark env c ch t).1.Safe env R ∧
      (s.setWatermark env c ch t).1.puts = s.puts := by
  obtain ⟨marks, fs, writes, he, hcases⟩ := Sink.setWatermark_spec env s c ch t
  rw [he]
  refine ⟨⟨h.puts, fun u ch' w hw => ?_⟩, rfl⟩
  rcases hcases with ⟨rfl, -⟩ | ⟨v, w', hv, -, rfl, hw', -⟩
  · exact h.marks u ch' w hw
  simp only [get?_put] at hw
  split at hw
  · rename_i heq
    cases heq
    obtain rfl : w' = w := Option.some.inj hw
    rcases hw' with hw' | hw'
    · obtain ⟨r, hr, hseq⟩ := hcov.exists_seq
      have hlt : r.seq < 2 ^ 31 := hR r (h.puts r hr)
      rw [hseq] at hlt
      exact ⟨c, t, hv, hw'.trans (asInt32_of_lt hlt), hcov⟩
    · exact h.marks _ _ _ hw'
  · exact h.marks u ch' w hw

theorem Sink.Safe.store {s : Sink} {r : MediaRecord} (h : s.Safe env R) (hr : R r)
    (hputs : s'.puts = s.puts ++ [r]) (hmarks : s'.watermarks = s.watermarks) :
    s'.Safe env R where
  puts := by
    intro r' hr'
    rw [hputs] at hr'
    rcases mem_append.mp hr' with hr' | hr'
    · exact h.puts r' hr'
    · exact mem_singleton.mp hr' ▸ hr
  marks := by
    intro u ch w hw
    rw [hmarks] at hw
    obtain ⟨c, t, hc, ht, hcov⟩ := h.marks u ch w hw
    rw [hputs]
    exact ⟨c, t, hc, ht, hcov.mono (subset_append_left _ _)⟩

theorem Session.Safe.forget {orphans : Table CallId (List Orphan)} (h : s.Safe R puts)
    (hsub : orphans.rows ⊆ s.orphans.rows) : Session.Safe R puts { s with orphans := orphans } where
  channels := h.channels
  orphans := fun c os hos =>
    h.orphans c os (get?_eq_some.mpr (hsub (get?_eq_some.mp hos)))

theorem Session.Safe.buffer {rec : MediaRecord} {now : Time} (h : s.Safe R puts) (hrec : R rec) :
    Session.Safe R puts { s with
      orphans := s.orphans.put rec.callId
        ((s.orphans.get? rec.callId).getD [] ++ [{ record := rec, arrived := now }]) } where
  channels := h.channels
  orphans := by
    intro d os hos o ho
    simp only [get?_put] at hos
    split at hos
    · cases hos
      rcases mem_append.mp ho with ho | ho
      · cases hw : s.orphans.get? rec.callId with
        | none => simp [hw] at ho
        | some waiting => exact h.orphans _ waiting hw o (by simpa [hw] using ho)
      · rwa [mem_singleton.mp ho]
    · exact h.orphans d os hos o ho

theorem Session.Safe.watermarkMap (h : s.Safe R puts) (hst : s.calls.get? c = some st)
    (ht : Ctx.watermarkMap st ch = some t) : Covered puts c ch t := by
  simp only [Ctx.watermarkMap] at ht
  split at ht
  · rename_i cst hcst
    split at ht
    · rename_i hs
      cases ht
      exact covered_of_held (h.channels c st hst ch cst hcst) hs
    · cases ht
  · cases ht

theorem Outbound.Safe.addResume {marks : Channel → Option Nat} (h : o.Safe puts)
    (hmarks : ∀ ch t, marks ch = some t → Covered puts c ch t) :
    Outbound.Safe puts { o with resumes := o.resumes ++ [(c, marks)] } where
  acks := h.acks
  resumes := by
    intro r hr ch t ht
    rcases mem_append.mp hr with hr | hr
    · exact h.resumes r hr ch t ht
    cases mem_singleton.mp hr
    exact hmarks ch t ht

theorem Outbound.Safe.addAck (h : o.Safe puts) (hcov : Covered puts c ch t) :
    Outbound.Safe puts { o with acks := o.acks ++ [(c, ch, t)] } where
  acks := by
    intro a ha
    rcases mem_append.mp ha with ha | ha
    · exact h.acks a ha
    cases mem_singleton.mp ha
    exact hcov
  resumes := h.resumes

theorem Ctx.Safe.withSink {x : Ctx} (h : x.Safe env R) (hsink : sink.Safe env R)
    (hputs : sink.puts = x.sink.puts) : Ctx.Safe env R { x with sink := sink } where
  sink := hsink
  session := hputs ▸ h.session
  out := hputs ▸ h.out

end Safe

/-! ## Every move is safe -/

section Moves

variable {env : SinkEnv} {now : Time} {i : Input} {src R : MediaRecord → Prop} {x y : Ctx}

theorem Ctx.Safe.store {rec : MediaRecord} {st : CallState} (hx : x.Safe env R) (hrec : R rec)
    (hst : x.session.calls.get? rec.callId = some st)
    (hok : (x.sink.putSegment env x.session.peer.tenantId rec.callId rec).2 = true) (n : Nat) :
    Ctx.Safe env R (Ctx.setChannel
      { x with sink := (x.sink.putSegment env x.session.peer.tenantId rec.callId rec).1 }
      rec.callId st rec.channel
      (advance { Ctx.channelOf st rec.channel with sinceAck := n } rec.seq)) := by
  obtain ⟨segments, fs, puts, writes, he, -, ⟨-, hputs⟩ | ⟨hfail, -⟩⟩ :=
    Sink.putSegment_spec env x.sink x.session.peer.tenantId rec.callId rec
  · have hsub : x.sink.puts ⊆ puts := by
      rw [hputs]
      exact subset_append_left _ _
    have hmem : rec ∈ puts := by simp [hputs]
    rw [he]
    refine ⟨hx.sink.store hrec hputs rfl, ?_, hx.out.mono hsub⟩
    have hsession := hx.session.mono hsub fun _ h => h
    refine ⟨hsession.channels.setChannel (x := { x with sink := _ }) hst ?_, hsession.orphans⟩
    rw [held_advance]
    rintro q (rfl | hq)
    · exact ⟨rec, hmem, rfl, rfl, rfl⟩
    · exact storedSeqs_mono hsub _ _ (hx.session.channelOf hst rec.channel hq)
  · cases hok.symm.trans hfail

theorem Ctx.Safe.acknowledge {c : CallId} {ch : Channel} {st : CallState} {cst cst' : ChannelState}
    (hx : x.Safe env R) (hR : ∀ r, R r → r.seq < 2 ^ 31)
    (hst : x.session.calls.get? c = some st) (hcst : st.channels ch = some cst)
    (hstarted : cst.started = true) (hsame : cst'.held = cst.held) :
    Ctx.Safe env R { (Ctx.setChannel
        { x with sink := (x.sink.setWatermark env c ch cst.through).1 } c st ch cst') with
      out := { x.out with acks := x.out.acks ++ [(c, ch, cst.through)] } } := by
  have hheld := hx.session.channels c st hst ch cst hcst
  have hcov := covered_of_held hheld hstarted
  obtain ⟨hsink, hputs⟩ := hx.sink.setWatermark hR hcov
  have hx' := hx.withSink hsink hputs
  refine ⟨hsink, ?_, hx'.out.addAck ?_⟩
  · refine ⟨hx'.session.channels.setChannel (x := { x with sink := _ }) hst ?_, hx'.session.orphans⟩
    rw [hsame]
    exact hx'.session.channels c st hst ch cst hcst
  · exact covered_of_held (hx'.session.channels c st hst ch cst hcst) hstarted

theorem Ctx.Safe.move (henv : env.Faithful) (hR : ∀ r, R r → r.seq < 2 ^ 31)
    (hsrc : ∀ r, src r → R r) (h : Move env now i src x y) (hx : x.Safe env R) : y.Safe env R := by
  cases h with
  | neutral => exact ⟨hx.sink, ⟨hx.session.1, hx.session.2⟩, ⟨hx.out.1, hx.out.2⟩⟩
  | mismatch | complain | unknownEnd => exact ⟨hx.sink, hx.session, ⟨hx.out.1, hx.out.2⟩⟩
  | ensureFails cs hi hpeer hr =>
    obtain ⟨calls, fs, he, -⟩ := Sink.ensureCall_spec env x.sink cs x.session.peer.tenantId
      x.session.peer.deviceId
    rw [he]
    exact hx.withSink (hx.sink.congr rfl rfl) rfl
  | opens cs existed acked hi hpeer hr =>
    obtain ⟨calls, fs, he, -, hacked⟩ := Sink.ensureCall_spec env x.sink cs
      x.session.peer.tenantId x.session.peer.deviceId
    obtain ⟨u, hu, rfl⟩ := hacked existed acked hr
    rw [he]
    exact ⟨hx.sink.congr rfl rfl, ⟨hx.session.channels.putCall
      (hx.session.resumeFrom henv hR hx.sink hu), hx.session.orphans⟩, hx.out⟩
  | resume c st hst =>
    exact ⟨hx.sink, hx.session, hx.out.addResume fun _ _ ht => hx.session.watermarkMap hst ht⟩
  | take | expireQuietly => exact ⟨hx.sink, hx.session.forget filter_sublist.subset, hx.out⟩
  | touch c st ch n last hst =>
    refine ⟨hx.sink, ⟨hx.session.channels.setChannel hst ?_, hx.session.orphans⟩, hx.out⟩
    exact hx.session.channelOf hst ch
  | store rec st n hrec hst hok => exact hx.store (hsrc rec hrec) hst hok n
  | storeFails rec st hrec hst hok =>
    obtain ⟨segments, fs, puts, writes, he, -, ⟨hput, -⟩ | ⟨-, hputs⟩⟩ :=
      Sink.putSegment_spec env x.sink x.session.peer.tenantId rec.callId rec
    · cases hput.symm.trans hok
    rw [he, hputs]
    exact hx.withSink (hx.sink.congr rfl rfl) rfl
  | acknowledge c ch st cst hst hcst hstarted hok =>
    exact hx.acknowledge hR hst hcst hstarted rfl
  | markFails c ch st cst hst hcst hstarted hok =>
    have hcov := covered_of_held (hx.session.channels c st hst ch cst hcst) hstarted
    obtain ⟨hsink, hputs⟩ := hx.sink.setWatermark hR hcov
    exact hx.withSink hsink hputs
  | buffer rec records hi hrec hrecsrc hst =>
    exact ⟨hx.sink, hx.session.buffer (hsrc rec hrecsrc), hx.out⟩
  | expire =>
    exact ⟨hx.sink, hx.session.forget filter_sublist.subset, ⟨hx.out.1, hx.out.2⟩⟩
  | finish ce st hi hst =>
    obtain ⟨calls, outbox, fs, writes, he, -⟩ := Sink.finishCall_spec env x.sink
      x.session.peer.tenantId ce
    rw [he]
    exact hx.withSink (hx.sink.congr rfl rfl) rfl
  | ended c st hst =>
    refine ⟨hx.sink, ⟨hx.session.channels.putCall ?_, hx.session.orphans⟩, hx.out⟩
    exact hx.session.channels c st hst

theorem SinkEffect.puts_mono {s : Session} {a b : Sink} (h : SinkEffect env i s a b) :
    a.puts ⊆ b.puts := by
  cases h with
  | segment rec u entry fs puts writes hkey hu hvisible hputs hwrites =>
    rcases hputs with rfl | rfl
    · exact Subset.refl _
    · exact subset_append_left _ _
  | _ => exact Subset.refl _

end Moves

/-! ## The whole gateway -/

def Backed (puts : List MediaRecord) : ServerMessage → Prop
  | .ack c ch t => Covered puts c ch t
  | .resume c acked => ∀ ch t, acked ch = some t → Covered puts c ch t
  | _ => True

theorem Backed.mono {puts puts' : List MediaRecord} {m : ServerMessage} (h : Backed puts m)
    (hputs : puts ⊆ puts') : Backed puts' m := by
  cases m with
  | ack c ch t => exact Covered.mono h hputs
  | resume c acked => exact fun ch t ht => (h ch t ht).mono hputs
  | _ => trivial

theorem Outbound.Safe.messages {puts : List MediaRecord} {o : Outbound} (h : o.Safe puts) :
    ∀ m ∈ o.messages, Backed puts m := by
  intro m hm
  simp only [Outbound.messages, mem_append, mem_map] at hm
  rcases hm with (((⟨r, hr, rfl⟩ | ⟨a, ha, rfl⟩) | ⟨e, -, rfl⟩) | ⟨v, -, rfl⟩) | ⟨c, -, rfl⟩
  · exact h.resumes r hr
  · exact h.acks a ha
  · trivial
  · trivial
  · trivial

structure Server.Safe (env : SinkEnv) (R : MediaRecord → Prop) (srv : Server) : Prop where
  sink : srv.sink.Safe env R
  sessions : ∀ conn ∈ srv.conns, conn.session.Safe R srv.sink.puts

namespace Server.Safe

variable {env : SinkEnv} {R : MediaRecord → Prop} {srv : Server}

theorem weaken {R' : MediaRecord → Prop} (h : srv.Safe env R) (hR : ∀ r, R r → R' r) :
    srv.Safe env R' where
  sink := ⟨fun r hr => hR r (h.sink.puts r hr), h.sink.marks⟩
  sessions := fun conn hconn => (h.sessions conn hconn).mono (Subset.refl _) hR

theorem accept (h : srv.Safe env R) (peer : Peer) (cfg : Config) (v : Int) (t : Time) :
    (srv.step env (.accept peer cfg v t)).Safe env R :=
  ⟨h.sink, forall_mem_append.mpr ⟨h.sessions, forall_mem_singleton.mpr
    ⟨fun c st hst => by simp [newSession] at hst, fun c os hos => by simp [newSession] at hos⟩⟩⟩

theorem hangup (h : srv.Safe env R) (k : Nat) : (srv.step env (.hangup k)).Safe env R :=
  ⟨h.sink, forall_mem_modify h.sessions fun _ hc => hc⟩

variable {k : Nat} {conn : Conn}

theorem start (h : srv.Safe env R) (hconn : srv.conns[k]? = some conn) (faults : List Fault) :
    Ctx.Safe env R { session := conn.session, sink := { srv.sink with faults } } :=
  ⟨h.sink.congr rfl rfl, h.sessions conn (mem_of_getElem? hconn), ⟨by simp, by simp⟩⟩

theorem carries (h : srv.Safe env R) (hconn : srv.conns[k]? = some conn)
    {i : Input} (hi : ∀ records, i = .frame (.media records) → ∀ r ∈ records, R r) :
    ∀ r, Carries conn.session i r → R r := by
  rintro r (⟨records, hrecords, hr⟩ | ⟨c, os, hos, o, ho, rfl⟩)
  · exact hi records hrecords r hr
  · exact (h.sessions conn (mem_of_getElem? hconn)).orphans c os hos o ho

theorem input (henv : env.Faithful) (hR : ∀ r, R r → r.seq < 2 ^ 31) (h : srv.Safe env R)
    (k : Nat) {i : Input} (now : Time) (faults : List Fault)
    (hi : ∀ records, i = .frame (.media records) → ∀ r ∈ records, R r) :
    (srv.step env (.input k i now faults)).Safe env R ∧
      srv.sink.puts ⊆ (srv.step env (.input k i now faults)).sink.puts ∧
      ∀ x ∈ srv.reply env k i now faults, ∀ m ∈ x.out.messages,
        Backed (srv.step env (.input k i now faults)).sink.puts m := by
  cases hx : srv.reply env k i now faults with
  | none =>
    rw [Server.step_input_none hx]
    exact ⟨h, Subset.refl _, by simp⟩
  | some x =>
    obtain ⟨conn, hconn, -, hxe⟩ := Server.reply_eq_some hx
    have hsafe : x.Safe env R := by
      rw [hxe]
      exact respond_keeps i (fun _ _ hm => Ctx.Safe.move henv hR (h.carries hconn hi) hm)
        (h.start hconn faults)
    have hputs : srv.sink.puts ⊆ x.sink.puts := by
      rw [hxe]
      refine respond_keeps (I := fun y => srv.sink.puts ⊆ y.sink.puts) i ?_ (Subset.refl _)
      exact fun _ _ hm hsub => Subset.trans hsub hm.sinkEffect.puts_mono
    rw [Server.step_input hx]
    refine ⟨⟨hsafe.sink, fun conn' hconn' => ?_⟩, hputs, ?_⟩
    · rcases mem_or_eq_of_mem_set hconn' with hconn' | rfl
      · exact (h.sessions conn' hconn').mono hputs fun _ hr => hr
      · exact hsafe.session
    intro y hy
    cases hy
    exact hsafe.out.messages

end Server.Safe

end Sentinel
