import Sentinel.Client.Pump
import Sentinel.Capture.Waiting

/-!
# Eviction across pipelines

The spool outlives the pipeline that fills it, and the creation time of a row is the clock of that
pipeline, which starts at zero.
-/

open List Runs

namespace Sentinel.Capture

open Faults (Budget Upholds)

variable {α : Type} {dsp : Dsp α}

/-! ## Pipes that count up -/

structure ChannelPipe.Counts {ch : Channel} (q : ChannelPipe dsp ch) : Prop where
  ready : q.ready.Pairwise fun a b => a.seq < b.seq
  next : ∀ seg ∈ q.ready, seg.seq < q.encoder.nextSeq

namespace ChannelPipe.Counts

variable {ch : Channel} {q q' : ChannelPipe dsp ch}

theorem of_nil (h : q.ready = []) : q.Counts := by
  constructor <;> simp [h]

theorem append (h : q.Counts) {e : SegmentEncoder dsp ch} {samples : List α}
    {out : List (Segment α ch)} (henc : Encodes q.encoder e samples out) :
    (q.ready ++ out).Pairwise (fun a b => a.seq < b.seq) ∧
      ∀ seg ∈ q.ready ++ out, seg.seq < e.nextSeq := by
  have hbounds : ∀ seg ∈ out, q.encoder.nextSeq ≤ seg.seq ∧ seg.seq < e.nextSeq := by
    intro seg hseg
    have hmem := mem_map_of_mem (f := fun s : Segment α ch => s.seq) hseg
    rw [henc.seqs, mem_range'_1] at hmem
    rwa [henc.nextSeq]
  have hout : out.Pairwise fun a b => a.seq < b.seq := by
    have hseqs := pairwise_lt_range' (s := q.encoder.nextSeq) (n := out.length) 1
    rwa [← henc.seqs, pairwise_map] at hseqs
  constructor
  · rw [pairwise_append]
    exact ⟨h.ready, hout, fun a ha b hb => (h.next a ha).trans_le (hbounds b hb).1⟩
  intro seg hseg
  rcases mem_append.mp hseg with hseg | hseg
  · have := h.next seg hseg
    have := henc.nextSeq
    omega
  · exact (hbounds seg hseg).2

theorem trim (h : q.Counts) (keep : Bool) : (q.trim keep).Counts := by
  unfold ChannelPipe.trim
  split
  · exact of_nil rfl
  · exact ⟨h.ready.sublist (drop_sublist _ _), fun seg hseg => h.next seg (mem_of_mem_drop hseg)⟩

end ChannelPipe.Counts

def Pipeline.Counting (p : Pipeline dsp) : Prop := ∀ ch, ∀ q ∈ p.pipe ch, q.Counts

namespace Pipeline.Counting

variable {p p' : Pipeline dsp}

theorem setPipe (h : p.Counting) {ch : Channel} {q : ChannelPipe dsp ch} (hq : q.Counts) :
    (p.setPipe (some q)).Counting :=
  forall_setPipe (P := fun _ q => q.Counts) h hq

theorem congr (h : p.Counting) (hpipe : ∀ ch, p'.pipe ch = p.pipe ch) : p'.Counting :=
  fun ch q hq => h ch q (hpipe ch ▸ hq)

theorem boundPreroll (h : p.Counting) : p.boundPreroll.Counting := by
  intro ch q hq
  obtain ⟨q0, hq0, rfl⟩ := mem_pipe_boundPreroll hq
  exact (h ch q0 hq0).trim _

end Pipeline.Counting

/-! ## What a step spools -/

def Pipeline.hears (p : Pipeline dsp) (ch : Channel) (read : Option (List α)) : Nat :=
  if (p.pipe ch).isSome then min readSamples (read.getD []).length else 0

def StepEnv.heard (env : StepEnv α) (p : Pipeline dsp) : Nat :=
  max (p.hears .far env.far) (p.hears .near env.near)

def StepEnv.audioMs (env : StepEnv α) (p : Pipeline dsp) : Nat :=
  env.heard p * 1000 / sampleRate

def rowsOf (log : List (Entry α)) : List SegmentRow :=
  log.filterMap fun
    | .spooled row _ => some row
    | _ => none

@[simp] theorem rowsOf_append (log more : List (Entry α)) :
    rowsOf (log ++ more) = rowsOf log ++ rowsOf more :=
  filterMap_append

namespace Work

structure Lays (w w' : Work dsp) (rows : List SegmentRow) : Prop where
  clock : w'.pipeline.clockMs = w.pipeline.clockMs
  log : ∃ more, w'.book.log = w.book.log ++ more ∧ rowsOf more = rows
  spool : (rows.foldl Spool.pushed w.book.uplink.spool).SameSegments w'.book.uplink.spool
  stamped : ∀ row ∈ rows, row.2.createdMs = w.pipeline.clockMs

structure Untouched (w w' : Work dsp) : Prop where
  counting : w'.pipeline.Counting
  clock : w'.pipeline.clockMs = w.pipeline.clockMs
  book : w'.book = w.book

theorem Untouched.trans {w w₁ w₂ : Work dsp} (h : Untouched w w₁) (h' : Untouched w₁ w₂) :
    Untouched w w₂ :=
  ⟨h'.counting, h'.clock.trans h.clock, h'.book.trans h.book⟩

def LaysInOrder (w w' : Work dsp) : Prop :=
  w'.pipeline.Counting ∧
    ∃ rows, Lays w w' rows ∧ rows.Pairwise fun a b => Spool.evictOrder a b = true

def LaysFor (callId : CallId) (ch : Channel) (w w' : Work dsp) : Prop :=
  w'.pipeline.Counting ∧
    ∃ rows, Lays w w' rows ∧ (rows.Pairwise fun a b => Spool.evictOrder a b = true) ∧
      ∀ row ∈ rows, row.1.callId = callId ∧ row.1.channel = ch

variable {w w₁ w₂ : Work dsp} {rows : List SegmentRow}

theorem Lays.congr (h : Lays w w₁ rows) (hclock : w₂.pipeline.clockMs = w₁.pipeline.clockMs)
    (hlog : ∃ more, w₂.book.log = w₁.book.log ++ more ∧ rowsOf more = [])
    (hspool : w₁.book.uplink.spool.SameSegments w₂.book.uplink.spool) : Lays w w₂ rows where
  clock := hclock.trans h.clock
  log := by
    obtain ⟨more, hmore, rfl⟩ := h.log
    obtain ⟨more', hlog, hrows⟩ := hlog
    exact ⟨more ++ more', by rw [hlog, hmore, append_assoc], by simp [hrows]⟩
  spool := h.spool.trans hspool
  stamped := h.stamped

theorem rowsOf_entriesOf {ch : Channel} (callId : CallId) (clock : Nat)
    (segs : List (Segment α ch)) :
    rowsOf (entriesOf callId clock segs) = segs.map (toRow callId · clock) := by
  induction segs with
  | nil => rfl
  | cons seg segs ih => exact congrArg _ ih

variable [Inhabited α]

theorem Lays.moves {flushed : Prop} {callId : CallId} {ch : Channel} (h : Lays w w₁ rows)
    (hc : w₁.pipeline.Counting) (hm : Moves flushed callId ch w₁ w₂) :
    w₂.pipeline.Counting ∧ ∃ more, Lays w w₂ (rows ++ more) ∧
      (more.Pairwise fun a b => Spool.evictOrder a b = true) ∧
      ∀ row ∈ more, row.1.callId = callId ∧ row.1.channel = ch := by
  cases hm with
  | idle hw => exact hw ▸ ⟨hc, [], (append_nil rows).symm ▸ h, .nil, nofun⟩
  | moved q q' segs b hq hready hout hs =>
    have hsorted : segs.Pairwise fun a b => a.seq < b.seq := by
      rcases hout with ⟨-, hsegs⟩ | ⟨-, -, rfl | ⟨tail, htail, hsegs⟩⟩
      · exact (hc ch q hq).ready.sublist hsegs.sublist
      · exact .nil
      obtain ⟨silence, -, henc⟩ := SegmentEncoder.flush_spec htail
      exact ((hc ch q hq).append henc).1.sublist hsegs.sublist
    have hsame := Pipeline.SameButPipes.setPipe w₁.pipeline (some q')
    have hclock : (w₁.pipeline.setPipe (some q')).clockMs = w.pipeline.clockMs :=
      hsame.clockMs.trans h.clock
    refine ⟨(hc.setPipe (.of_nil hready)).congr hs.pipe,
      segs.map (toRow callId · w.pipeline.clockMs), ⟨hs.same.clockMs.trans hclock, ?_, ?_, ?_⟩,
      pairwise_map.mpr (hsorted.imp fun {a b} hab => ?_), fun row hrow => ?_⟩
    · obtain ⟨more, hmore, rfl⟩ := h.log
      exact ⟨_, by rw [hs.log, hmore, append_assoc, hclock], by simp [rowsOf_entriesOf]⟩
    · rw [foldl_append, hs.spool, hclock]
      exact h.spool.foldl_admit _
    · intro row hrow
      rcases mem_append.mp hrow with hrow | hrow
      · exact h.stamped row hrow
      obtain ⟨seg, -, rfl⟩ := mem_map.mp hrow
      rfl
    · simp [Spool.evictOrder, toRow, hab.le]
    obtain ⟨seg, -, rfl⟩ := mem_map.mp hrow
    exact ⟨rfl, rfl⟩

theorem LaysFor.near {flushed : Prop} {callId : CallId} (h : LaysFor callId .far w w₁)
    (hm : Moves flushed callId .near w₁ w₂) : LaysInOrder w w₂ := by
  obtain ⟨hc, far, hfar, hfarSorted, hfarKeys⟩ := h
  obtain ⟨hc, near, hlays, hnearSorted, hnearKeys⟩ := hfar.moves hc hm
  refine ⟨hc, far ++ near, hlays, pairwise_append.mpr
    ⟨hfarSorted, hnearSorted, fun a ha b hb => ?_⟩⟩
  have hclock : b.2.createdMs = a.2.createdMs := by
    rw [hlays.stamped b (mem_append_right _ hb), hfar.stamped a ha]
  obtain ⟨hca, hcha⟩ := hfarKeys a ha
  obtain ⟨hcb, hchb⟩ := hnearKeys b hb
  simp [Spool.evictOrder, hclock, hca, hcb, hcha, hchb, Channel.asU8]

theorem act_lays (hw : w.pipeline.Counting) (env : StepEnv α) (t : Transition) :
    Upholds (LaysInOrder w) (LaysInOrder w) (w.act env t) := by
  have hkeep : ∀ {w₂ : Work dsp} (w₁ : Work dsp) {rows}, w₂.pipeline.clockMs = w₁.pipeline.clockMs →
      w₂.book = w₁.book → Lays w w₁ rows → Lays w w₂ rows := fun _ _ hclock hbook h =>
    h.congr hclock ⟨[], by rw [hbook, append_nil], rfl⟩ (hbook ▸ .refl _)
  refine act_handles (I := fun w' => w'.pipeline.Counting ∧ Lays w w' [])
    (F := fun c => LaysFor c .far w) ?_ ⟨hw, rfl, ⟨[], (append_nil _).symm, rfl⟩, .refl _, nofun⟩
  constructor
  case restart =>
    exact fun _ w₁ _ q _ h => ⟨h.1.setPipe (.of_nil rfl),
      hkeep w₁ (Pipeline.SameButPipes.setPipe w₁.pipeline (some q.restart)).clockMs rfl h.2⟩
  case start =>
    intro w₁ h
    unfold startCall
    split
    · exact h
    · exact ⟨h.1.congr fun ch => by cases ch <;> rfl, h.2.congr rfl ⟨_, rfl, rfl⟩ ⟨rfl, rfl⟩⟩
  case close =>
    exact fun w₁ h => ⟨h.1.congr fun ch => by cases ch <;> rfl, hkeep w₁ rfl rfl h.2⟩
  case far => exact fun _ _ _ h hm => h.2.moves h.1 hm
  case near => exact fun _ _ _ h hm => h.near hm
  case idle => exact fun _ h => ⟨h.1, [], h.2, .nil⟩
  case half => exact fun _ _ h => ⟨h.1, h.2.imp fun _ hrows => ⟨hrows.1, hrows.2.1⟩⟩
  case stop =>
    rintro w₁ c reason ⟨hc, rows, hlays, hsorted⟩
    unfold recordEnd
    split
    · exact ⟨hc, rows, hlays, hsorted⟩
    refine ⟨⟨hc, rows, hlays.congr rfl ⟨_, rfl, rfl⟩ ⟨Spool.endCall_segments _ _ _, ?_⟩, hsorted⟩,
      rfl⟩
    simp only [Uplink.endCall, Spool.endCall]
    split <;> rfl
  case bound =>
    rintro w₁ res ⟨hc, rows, hlays, hsorted⟩
    exact ⟨hc.boundPreroll, rows, hkeep w₁ rfl rfl hlays, hsorted⟩

omit [Inhabited α] in
theorem readChannel_reads {w : Work dsp} (hw : w.pipeline.Counting) (ch : Channel)
    (read : Option (List α)) :
    Upholds (Untouched w) (fun r => Untouched w r.2 ∧ r.1 = w.pipeline.hears ch read ∧
        ∀ ch' ≠ ch, r.2.pipeline.pipe ch' = w.pipeline.pipe ch') (w.readChannel ch read) := by
  unfold readChannel
  cases hq : w.pipeline.pipe ch with
  | none => exact ⟨⟨hw, rfl, rfl⟩, by simp [Pipeline.hears, hq], fun _ _ => rfl⟩
  | some q =>
    cases read with
    | none => exact ⟨hw, rfl, rfl⟩
    | some available =>
      have hcounts := hw ch q hq
      have hclock : ∀ q' : ChannelPipe dsp ch,
          (w.pipeline.setPipe (some q')).clockMs = w.pipeline.clockMs :=
        fun q' => (Pipeline.SameButPipes.setPipe w.pipeline (some q')).clockMs
      have hhears : (available.take readSamples).length =
          w.pipeline.hears ch (some available) := by simp [Pipeline.hears, hq]
      dsimp only
      split
      · rename_i hempty
        rw [isEmpty_iff.mp hempty] at hhears
        exact ⟨⟨hw, rfl, rfl⟩, hhears, fun _ _ => rfl⟩
      split
      · -- The codec failed: the segments it had finished are lost, and their numbers with them.
        have hnext := q.encoder.nextSeq_le_pushSamples (available.take readSamples) w.budget
        refine ⟨hw.setPipe ⟨hcounts.ready, fun seg hseg => ?_⟩, hclock _, rfl⟩
        exact (hcounts.next seg hseg).trans_le hnext
      rename_i finished hout
      obtain ⟨henc, -⟩ := SegmentEncoder.pushSamples_spec hout
      obtain ⟨hready, hnext⟩ := hcounts.append henc
      exact ⟨⟨hw.setPipe ⟨hready, hnext⟩, hclock _, rfl⟩, hhears,
        fun ch' hne => Pipeline.pipe_setPipe_ne _ _ hne⟩

def Stepped (env : StepEnv α) (w w' : Work dsp) : Prop :=
  Untouched w w' ∨
    ∃ w₁ : Work dsp, w₁.book = w.book ∧ 0 < env.heard w.pipeline ∧
      w₁.pipeline.clockMs = w.pipeline.clockMs + env.audioMs w.pipeline ∧ LaysInOrder w₁ w'

theorem step_stepped {w : Work dsp} (hw : w.pipeline.Counting) (env : StepEnv α) :
    Upholds (Stepped env w) (Stepped env w) (w.step env) := by
  refine Upholds.bind ((readChannel_reads hw .far env.far).imp (fun _ h => .inl h) fun _ h => h)
    fun far hfar => ?_
  obtain ⟨h₁, hn, hother⟩ := hfar
  refine Upholds.bind ((readChannel_reads h₁.counting .near env.near).imp
    (fun _ h => .inl (h₁.trans h)) fun _ h => h) fun near hnear => ?_
  obtain ⟨h₂, hm, -⟩ := hnear
  have hread := h₁.trans h₂
  split
  · exact .inl hread
  have hheard : max far.1 near.1 = env.heard w.pipeline := by
    rw [hn, hm, StepEnv.heard, Pipeline.hears, Pipeline.hears, Pipeline.hears,
      hother .near (by decide)]
  let w₁ : Work dsp :=
    { near.2 with pipeline := (near.2.pipeline.listen (max far.1 near.1)).1 }
  have hclock : w₁.pipeline.clockMs = w.pipeline.clockMs + env.audioMs w.pipeline := by
    change near.2.pipeline.clockMs + max far.1 near.1 * 1000 / sampleRate = _
    rw [hread.clock, hheard, StepEnv.audioMs]
  have hcounting : w₁.pipeline.Counting :=
    forall_listen (P := fun _ q => q.Counts) h₂.counting (fun q hq => ⟨hq.ready, hq.next⟩) _
  have hacts := act_lays hcounting env (near.2.pipeline.listen (max far.1 near.1)).2
  exact hacts.mono fun w' h => .inr ⟨w₁, hread.book, by omega, hclock, h⟩

end Work

/-! ## A station -/

structure Assignment where
  policy : Policy
  tier : CaptureTier
  deviceId : String
  userUid : String

def Assignment.pipeline (a : Assignment) : Pipeline dsp :=
  .new a.policy a.tier a.deviceId a.userUid

structure Station (dsp : Dsp α) where
  rig : Rig dsp
  now : Nat := 0
  heardAt : Nat := 0
  count : Nat := 0
  order : SegmentKey → Nat := fun _ => 0
  born : SegmentKey → Nat := fun _ => 0

inductive StationEvent (α : Type) where
  | pipe (e : PipeEvent α)
  | pump (env : Uplink.PumpEnv) (incoming : List ServerMessage)
  | create (a : Assignment)
  | restart (a : Assignment) (limits : SpoolLimits)

def StationEvent.capture? : StationEvent α → Option (StepEnv α)
  | .pipe (.step env) => some env
  | _ => none

def StationEvent.rebuilds : StationEvent α → Bool
  | .create _ | .restart .. => true
  | _ => false

namespace Station

variable [Inhabited α]

def start (a : Assignment) (limits : SpoolLimits) : Station dsp where
  rig := ⟨a.pipeline, ⟨.new { limits }, []⟩⟩

variable (st : Station dsp)

def clock : Nat := st.rig.pipeline.clockMs

def shelf : Shelf := ⟨st.rig.book.uplink.spool, st.count, st.order, st.born⟩

def pushed (e : PipeEvent α) : List SegmentRow :=
  rowsOf ((st.rig.step e).book.log.drop st.rig.book.log.length)

def operate (now : Nat) (e : PipeEvent α) : Station dsp :=
  let shelf := Runs.run (Shelf.put now) st.shelf (st.pushed e)
  { rig := st.rig.step e
    now
    heardAt := match e with
      | .step _ => now
      | _ => st.heardAt
    count := shelf.count
    order := shelf.order
    born := shelf.born }

def step (e : Nat × StationEvent α) : Station dsp :=
  let now := st.now + e.1
  match e.2 with
  | .pipe (.uplink _) => { st with now }
  | .pipe e => st.operate now e
  | .pump env incoming =>
    { st with
      now
      rig := { st.rig with
        book := { st.rig.book with uplink := (st.rig.book.uplink.pump now env incoming).up } } }
  | .create a => { st with now, heardAt := now, rig := { st.rig with pipeline := a.pipeline } }
  | .restart a limits =>
    { st with
      now
      heardAt := now
      rig := ⟨a.pipeline, { st.rig.book with
        uplink := .new { st.rig.book.uplink.spool with limits } }⟩ }

def FairAt (e : Nat × StationEvent α) : Prop :=
  match e.2 with
  | .pipe op => Runs.Along (Shelf.put (st.now + e.1)) (Shelf.Fair (st.now + e.1)) st.shelf
      (st.pushed op)
  | _ => True

def LongEnoughAt (e : Nat × StationEvent α) : Prop :=
  match e.2 with
  | .pipe op => Runs.Along (Shelf.put (st.now + e.1))
      (fun s row => (s.insert (st.now + e.1) row).LongEnough row.2.createdMs (st.now + e.1))
      st.shelf (st.pushed op)
  | _ => True

def Paced (e : Nat × StationEvent α) : Prop :=
  ∀ env ∈ e.2.capture?, env.audioMs st.rig.pipeline + st.heardAt ≤ st.now + e.1 ∧
    st.clock + env.audioMs st.rig.pipeline < 2 ^ 63

def Sound (e : Nat × StationEvent α) : Prop :=
  st.Paced e ∧
    (∀ env ∈ e.2.capture?, env.heard st.rig.pipeline = 0 ∨ 16 ≤ env.heard st.rig.pipeline) ∧
    (e.2.rebuilds = true → st.shelf.rows = [])

instance (e : Nat × StationEvent α) : Decidable (st.Paced e) :=
  inferInstanceAs (Decidable (∀ env ∈ e.2.capture?, _))

instance (e : Nat × StationEvent α) : Decidable (st.Sound e) :=
  inferInstanceAs (Decidable (_ ∧ (∀ env ∈ e.2.capture?, _) ∧ (_ → _)))

instance (e : Nat × StationEvent α) : Decidable (st.FairAt e) :=
  match e with
  | (dt, .pipe op) => inferInstanceAs (Decidable (Runs.Along (Shelf.put (st.now + dt))
      (Shelf.Fair (st.now + dt)) st.shelf (st.pushed op)))
  | (_, .pump ..) | (_, .create _) | (_, .restart ..) => .isTrue trivial

variable {st} {now : Nat} {e : PipeEvent α}

/-! ## What an operation pushes -/

structure Pushes (st : Station dsp) (e : PipeEvent α) : Prop where
  counting : (st.rig.step e).pipeline.Counting
  spool : ((st.pushed e).foldl Spool.pushed st.rig.book.uplink.spool).SameSegments
    (st.rig.step e).book.uplink.spool
  sorted : (st.pushed e).Pairwise fun a b => Spool.evictOrder a b = true
  stamped : ∀ row ∈ st.pushed e, row.2.createdMs = (st.rig.step e).pipeline.clockMs
  clock : (st.pushed e = [] ∧ (st.rig.step e).pipeline.clockMs = st.clock) ∨
    ∃ env, e = .step env ∧ 0 < env.heard st.rig.pipeline ∧
      (st.rig.step e).pipeline.clockMs = st.clock + env.audioMs st.rig.pipeline

theorem pushed_of_log {more : List (Entry α)}
    (h : (st.rig.step e).book.log = st.rig.book.log ++ more) : st.pushed e = rowsOf more := by
  rw [pushed, h, drop_left]

theorem pushed_of_log_eq (h : (st.rig.step e).book.log = st.rig.book.log) : st.pushed e = [] := by
  rw [pushed, h, drop_length]
  rfl

theorem pushed_uplink (u : Uplink) : st.pushed (.uplink u) = [] := pushed_of_log_eq rfl

theorem step_pipe (he : ∀ u, e ≠ .uplink u) (dt : Nat) :
    st.step (dt, .pipe e) = st.operate (st.now + dt) e := by
  cases e with
  | uplink u => exact absurd rfl (he u)
  | _ => rfl

theorem Pushes.of_quiet (hbook : (st.rig.step e).book = st.rig.book)
    (hclock : (st.rig.step e).pipeline.clockMs = st.clock)
    (hc : (st.rig.step e).pipeline.Counting) : st.Pushes e := by
  have hnone : st.pushed e = [] := pushed_of_log_eq (by rw [hbook])
  refine ⟨hc, ?_, ?_, ?_, .inl ⟨hnone, hclock⟩⟩
  · rw [hnone, hbook]
    exact .refl _
  · rw [hnone]
    exact .nil
  rw [hnone]
  exact nofun

theorem pushes_capture (hc : st.rig.pipeline.Counting) (env : StepEnv α) :
    st.Pushes (.step env) := by
  obtain ⟨w', hrig, hstepped⟩ : ∃ w' : Work dsp, st.rig.step (.step env) = ⟨w'.pipeline, w'.book⟩ ∧
      Work.Stepped env ⟨st.rig.pipeline, st.rig.book, env.budget, {}⟩ w' := by
    have hstep := Work.step_stepped (w := ⟨st.rig.pipeline, st.rig.book, env.budget, {}⟩) hc env
    rw [Rig.step, Rig.capture]
    cases h : Work.step ⟨st.rig.pipeline, st.rig.book, env.budget, {}⟩ env with
    | ok w' | error w' =>
      rw [h] at hstep
      exact ⟨w', rfl, hstep⟩
  rcases hstepped with hsame | ⟨w₁, hbook, hheard, hclock, hcounting, rows, hlays, hsorted⟩
  · refine .of_quiet ?_ ?_ ?_ <;> rw [hrig]
    · exact hsame.book
    · exact hsame.clock
    · exact hsame.counting
  obtain ⟨more, hlog, hmore⟩ := hlays.log
  have hpushed : st.pushed (.step env) = rows := by
    rw [← hmore]
    refine pushed_of_log ?_
    rw [hrig, hlog, hbook]
  have hspool := hlays.spool
  rw [hbook] at hspool
  refine ⟨?_, ?_, by rwa [hpushed], ?_, .inr ⟨env, rfl, hheard, ?_⟩⟩ <;> rw [hrig]
  · exact hcounting
  · rwa [hpushed]
  · intro row hrow
    rw [hpushed] at hrow
    exact (hlays.stamped row hrow).trans hlays.clock.symm
  · exact hlays.clock.trans hclock

theorem pushes (hc : st.rig.pipeline.Counting) (he : ∀ u, e ≠ .uplink u) : st.Pushes e := by
  cases e with
  | step env => exact pushes_capture hc env
  | uplink u => exact absurd rfl (he u)
  | openPinned env =>
    have hopened := openPinned_opened st.rig.pipeline env
    exact .of_quiet rfl hopened.keeps.2.1
      (forall_opened (P := fun _ q => q.Counts) hc (fun ch => .of_nil rfl) hopened)
  | deviceLost => exact .of_quiet rfl rfl fun ch q hq => by cases ch <;> cases hq
  | _ => exact .of_quiet rfl rfl (hc.congr fun ch => by cases ch <;> rfl)

theorem rows_operate (h : st.Pushes e) (now : Nat) :
    (st.operate now e).shelf.rows = (run (Shelf.put now) st.shelf (st.pushed e)).rows := by
  have hspool := Shelf.foldl_put_spool now st.shelf (st.pushed e)
  rw [Shelf.rows, Shelf.rows, run, hspool]
  exact congrArg Table.rows h.spool.segments

theorem heardAt_operate (st : Station dsp) (now : Nat) (e : PipeEvent α) :
    (st.operate now e).heardAt = now ∨ (st.operate now e).heardAt = st.heardAt := by
  cases e with
  | step env => exact .inl rfl
  | _ => exact .inr rfl

/-! ## The age cap -/

structure Timed (st : Station dsp) : Prop where
  counting : st.rig.pipeline.Counting
  aged : st.shelf.Aged st.clock st.heardAt
  heard : st.heardAt ≤ st.now

omit [Inhabited α] in
theorem timed_start (a : Assignment) (limits : SpoolLimits) :
    (start a limits : Station dsp).Timed where
  counting ch q hq := by cases ch <;> cases hq
  aged := ⟨nofun, nofun, nofun⟩
  heard := Nat.le_refl _

theorem Timed.operate (h : st.Timed) {dt : Nat} (he : ∀ u, e ≠ .uplink u)
    (hpaced : st.Paced (dt, .pipe e)) :
    Along (Shelf.put (st.now + dt))
        (fun s row => (s.insert (st.now + dt) row).LongEnough row.2.createdMs (st.now + dt))
        st.shelf (st.pushed e) ∧
      (st.operate (st.now + dt) e).Timed := by
  have hp := pushes h.counting he
  have hnow := h.heard
  have hrows := rows_operate hp (st.now + dt)
  rcases hp.clock with ⟨hnone, hclock⟩ | ⟨env, rfl, -, hclock⟩
  · rw [hnone] at hrows ⊢
    have haged : st.shelf.Aged st.clock (st.operate (st.now + dt) e).heardAt := by
      refine h.aged.later ?_ ?_ <;>
        rcases heardAt_operate st (st.now + dt) e with he | he <;> omega
    refine ⟨trivial, hp.counting, ?_, ?_⟩
    · rw [clock, show (st.operate (st.now + dt) e).rig.pipeline.clockMs = st.clock from hclock]
      refine haged.sublist (hrows ▸ Sublist.refl _) ?_
      change (run _ st.shelf (st.pushed e)).born = _
      rw [hnone]
      rfl
    change _ ≤ st.now + dt
    rcases heardAt_operate st (st.now + dt) e with he | he <;> omega
  obtain ⟨haudio, hbound⟩ : env.audioMs st.rig.pipeline + st.heardAt ≤ st.now + dt ∧
      st.clock + env.audioMs st.rig.pipeline < 2 ^ 63 := hpaced env rfl
  have hstamped : ∀ row ∈ st.pushed (.step env),
      row.2.createdMs = st.clock + env.audioMs st.rig.pipeline :=
    fun row hrow => (hp.stamped row hrow).trans hclock
  have hlater : st.shelf.Aged (st.clock + env.audioMs st.rig.pipeline) (st.now + dt) :=
    h.aged.later (by omega) (by omega)
  obtain ⟨halong, haged⟩ := Shelf.along_longEnough hlater hstamped hbound
  refine ⟨halong, hp.counting, ?_, Nat.le_refl _⟩
  rw [clock, show (st.operate (st.now + dt) (.step env)).rig.pipeline.clockMs =
    st.clock + env.audioMs st.rig.pipeline from hclock]
  exact haged.sublist (hrows ▸ Sublist.refl _) rfl

omit [Inhabited α] in
theorem Timed.rebuilt (h : st.Timed) {st' : Station dsp} (hc : st'.rig.pipeline.Counting)
    (hclock : st'.clock = 0) (hrows : st'.shelf.rows = st.shelf.rows)
    (hborn : st'.born = st.born) (hheard : st'.heardAt = st'.now) (hnow : st.now ≤ st'.now) :
    st'.Timed where
  counting := hc
  aged := by
    have hlater := h.heard
    rw [hclock, hheard]
    exact (h.aged.later (by omega) (by omega)).sublist (hrows ▸ Sublist.refl _) hborn
  heard := hheard.le

theorem Timed.step (h : st.Timed) {e : Nat × StationEvent α} (hpaced : st.Paced e) :
    st.LongEnoughAt e ∧ (st.step e).Timed := by
  have hnow : st.heardAt ≤ st.now + e.1 := h.heard.trans (Nat.le_add_right _ _)
  obtain ⟨dt, e⟩ := e
  cases e with
  | pipe op =>
    by_cases hop : ∃ u, op = .uplink u
    · obtain ⟨u, rfl⟩ := hop
      exact ⟨by simp [LongEnoughAt, pushed_uplink], h.counting, h.aged, hnow⟩
    have hop : ∀ u, op ≠ .uplink u := fun u hu => hop ⟨u, hu⟩
    rw [step_pipe hop]
    exact h.operate hop hpaced
  | pump env incoming =>
    exact ⟨trivial, h.counting, h.aged.sublist (Uplink.pump_rows _ _ _ _) rfl, hnow⟩
  | create a | restart a limits =>
    exact ⟨trivial, h.rebuilt (fun ch q hq => by cases ch <;> cases hq) rfl rfl rfl rfl
      (Nat.le_add_right _ _)⟩

/-- **The age cap deletes no row early**, also over restarts. -/
theorem longEnough_of_paced {es : List (Nat × StationEvent α)} (a : Assignment)
    (limits : SpoolLimits) (h : Along step Paced (start a limits : Station dsp) es) :
    Along step LongEnoughAt (start a limits : Station dsp) es :=
  h.of_invariant (timed_start a limits) (fun _ _ ht hp => (ht.step hp).2)
    fun _ _ ht hp => (ht.step hp).1

/-! ## The size cap -/

structure Sorted (st : Station dsp) : Prop where
  ordered : st.shelf.Ordered
  recent : ∀ r ∈ st.shelf.rows, r.2.createdMs ≤ st.clock

omit [Inhabited α] in
theorem sorted_of_nil (h : st.shelf.rows = []) : st.Sorted where
  ordered := ⟨by simp [h], by simp [h], by simp [h]⟩
  recent := by simp [h]

theorem evictOrder_of_lt {a b : SegmentRow} (hab : a.2.createdMs < b.2.createdMs)
    (hb : b.2.createdMs < 2 ^ 63) : Spool.evictOrder a b = true := by
  have hlt : asI64 a.2.createdMs < asI64 b.2.createdMs := by
    rw [asI64_of_lt hb, asI64_of_lt (hab.trans hb)]
    exact_mod_cast hab
  simp [Spool.evictOrder, hlt]

theorem Sorted.operate (h : st.Sorted) (ht : st.Timed) {dt : Nat} (he : ∀ u, e ≠ .uplink u)
    (hsound : st.Sound (dt, .pipe e)) :
    Along (Shelf.put (st.now + dt))
        (fun s row => (s.insert (st.now + dt) row).OldestFirst row.2.createdMs)
        st.shelf (st.pushed e) ∧
      (st.operate (st.now + dt) e).Sorted := by
  have hp := pushes ht.counting he
  have hrows := rows_operate hp (st.now + dt)
  have hclock : st.clock ≤ (st.rig.step e).pipeline.clockMs := by
    rcases hp.clock with ⟨-, hclock⟩ | ⟨env, -, -, hclock⟩ <;> omega
  have hafter : ∀ r ∈ st.shelf.rows, ∀ row ∈ st.pushed e, Spool.evictOrder r row = true := by
    intro r hr row hrow
    rcases hp.clock with ⟨hnone, -⟩ | ⟨env, rfl, hheard, hadvance⟩
    · rw [hnone] at hrow
      cases hrow
    obtain ⟨hpaced, hslice, -⟩ := hsound
    have hbound := (hpaced env rfl).2
    have hrow := (hp.stamped row hrow).trans hadvance
    have hr := h.recent r hr
    have haudio : 1 ≤ env.audioMs st.rig.pipeline := by
      have hslice : 16 ≤ env.heard st.rig.pipeline :=
        (hslice env rfl).resolve_left (by omega)
      unfold StepEnv.audioMs sampleRate
      omega
    exact evictOrder_of_lt (by omega) (by omega)
  obtain ⟨halong, hordered⟩ := Shelf.along_oldestFirst (st.now + dt) h.ordered hp.sorted hafter
  refine ⟨halong, hordered.sublist (hrows ▸ Sublist.refl _) rfl rfl, fun r hr => ?_⟩
  rw [hrows] at hr
  rcases Shelf.mem_rows_run hr with hr | hr
  · exact (h.recent r hr).trans hclock
  · exact (hp.stamped r hr).le

theorem Sorted.step (h : st.Sorted) (ht : st.Timed) {e : Nat × StationEvent α}
    (hsound : st.Sound e) : st.FairAt e ∧ (st.step e).Sorted := by
  obtain ⟨dt, e⟩ := e
  cases e with
  | pipe op =>
    by_cases hop : ∃ u, op = .uplink u
    · obtain ⟨u, rfl⟩ := hop
      exact ⟨by simp [FairAt, pushed_uplink], h.ordered, h.recent⟩
    have hop : ∀ u, op ≠ .uplink u := fun u hu => hop ⟨u, hu⟩
    obtain ⟨hfirst, hsorted⟩ := h.operate ht hop hsound
    rw [step_pipe hop]
    exact ⟨along_and.mpr ⟨hfirst, (ht.operate hop hsound.1).1⟩, hsorted⟩
  | pump env incoming =>
    have hrows := Uplink.pump_rows st.rig.book.uplink (st.now + dt) env incoming
    exact ⟨trivial, h.ordered.sublist hrows rfl rfl, fun r hr => h.recent r (hrows.subset hr)⟩
  | create a | restart a limits => exact ⟨trivial, sorted_of_nil (hsound.2.2 rfl)⟩

/-- **Eviction follows real age** -/
theorem fair_of_sound {es : List (Nat × StationEvent α)} (a : Assignment) (limits : SpoolLimits)
    (h : Runs.Along step Sound (start a limits : Station dsp) es) :
    Runs.Along step FairAt (start a limits : Station dsp) es :=
  h.of_invariant (I := fun st => st.Timed ∧ st.Sorted)
    ⟨timed_start a limits, sorted_of_nil rfl⟩
    (fun _ _ hi hs => ⟨(hi.1.step hs.1).2, (hi.2.step hi.1 hs).2⟩)
    fun _ _ hi hs => (hi.2.step hi.1 hs).1

/-! ## Two runs -/

def alice : Assignment := ⟨briskPolicy, .A, "device-1", "alice"⟩

def small : Station (thresholdDsp fun a : Int => a ≠ 0) := start alice { maxBytes := 400 }

def callRun (silence : Nat) (c : CallId) : List (Nat × StationEvent Int) :=
  (PipeEvent.openPinned headset :: List.replicate silence (slice 0 c) ++
    [.sessionState true, slice 1 c, .sessionState false, slice 0 c, slice 0 c]).map
      fun e => (20, .pipe e)

def restartRun : List (Nat × StationEvent Int) :=
  callRun 2 "call-1" ++ [(20, .restart alice { maxBytes := 400 })] ++ callRun 0 "call-2"

def drainedRun : List (Nat × StationEvent Int) :=
  callRun 2 "call-1" ++
    [(20, .pump { connects := true } [.ack "call-1" .far 0, .ack "call-1" .near 0]),
      (20, .restart alice { maxBytes := 150 })] ++ callRun 0 "call-2"

/-- The first row of the second call is evicted, and was pushed first. -/
theorem drainedRun_fair : Runs.Along step FairAt small drainedRun :=
  fair_of_sound alice { maxBytes := 400 } (by decide +kernel)

/-- **The size cap evicts the row that was just pushed.** -/
theorem restartRun_not_fair : ¬ Runs.Along step FairAt small restartRun := by
  decide +kernel

/-- Its rows were all kept long enough. -/
theorem restartRun_longEnough : Runs.Along step LongEnoughAt small restartRun :=
  longEnough_of_paced alice { maxBytes := 400 } (by decide +kernel)

end Station

end Sentinel.Capture
