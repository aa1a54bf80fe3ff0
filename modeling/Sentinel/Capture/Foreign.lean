import Sentinel.Capture.Attribution
import Sentinel.Capture.Waiting

/-!
# The foreign flag

On tier B a slice that the suppressor judges foreign marks the far segment being built.
-/

open List Nat Option

namespace Sentinel.Capture

open Runs (run Along)
open Faults (Budget Upholds)

/-! ## Judged steps -/

section Judged

variable {α : Type} {dsp : Dsp α}

def Pipeline.judgesForeign (p : Pipeline dsp) (read : Nat) : Bool :=
  let advanceMs := read * 1000 / sampleRate
  (p.suppressor.judge (p.clockMs + advanceMs) (p.far.any fun q => dsp.isVoiced q.vad)
    advanceMs).2 = .markForeign

def Work.judgesForeign (w : Work dsp) (env : StepEnv α) : Bool :=
  (w.sampled env).any fun heard => heard.1.pipeline.judgesForeign heard.2

def Rig.judgesForeign (r : Rig dsp) : PipeEvent α → Bool
  | .step env => Work.judgesForeign ⟨r.pipeline, r.book, env.budget, {}⟩ env
  | _ => false

end Judged

/-! ## Samples that remember their step -/

inductive Sliced (α : Type) where
  | read (a : α) (step : Nat)
  | silence
  deriving DecidableEq

namespace Sliced

variable {α : Type}

instance : Inhabited (Sliced α) := ⟨silence⟩

def From (steps : List Nat) : Sliced α → Prop
  | read _ n => n ∈ steps
  | silence => False

instance (steps : List Nat) : DecidablePred (From steps : Sliced α → Prop)
  | read _ n => inferInstanceAs (Decidable (n ∈ steps))
  | silence => inferInstanceAs (Decidable False)

def Before (n : Nat) : Sliced α → Prop
  | read _ k => k < n
  | silence => True

variable {a : Sliced α} {n : Nat}

theorem From.concat {steps : List Nat} (h : a.From steps) (n : Nat) : a.From (steps ++ [n]) := by
  cases a with
  | read a k => exact mem_append_left _ h
  | silence => exact h.elim

theorem From.last (h : a.From [n]) (steps : List Nat) : a.From (steps ++ [n]) := by
  cases a with
  | read a k => exact mem_append_right _ h
  | silence => exact h.elim

theorem Before.succ (h : a.Before n) : a.Before (n + 1) := by
  cases a with
  | read a k => exact lt_succ_of_lt h
  | silence => trivial

theorem Before.from_concat {steps : List Nat} (h : a.Before n) :
    a.From (steps ++ [n]) ↔ a.From steps := by
  cases a with
  | silence => rfl
  | read a k =>
    refine ⟨fun hk => ?_, fun hk => mem_append_left _ hk⟩
    rcases mem_append.mp hk with hk | hk
    · exact hk
    · exact absurd (mem_singleton.mp hk) (Nat.ne_of_lt h)

end Sliced

variable {α : Type} {dsp : Dsp (Sliced α)} {ch : Channel}

structure Recording (dsp : Dsp (Sliced α)) where
  rig : Rig dsp
  count : Nat := 0
  foreign : List Nat := []

namespace Recording

def slice (r : Recording dsp) (e : PipeEvent α) : PipeEvent (Sliced α) := e.map (.read · r.count)

def step (r : Recording dsp) (e : PipeEvent α) : Recording dsp where
  rig := r.rig.step (r.slice e)
  count := r.count + 1
  foreign := if r.rig.judgesForeign (r.slice e) then r.foreign ++ [r.count] else r.foreign

def init (policy : Policy) (deviceId userUid : String) (u : Uplink) : Recording dsp where
  rig := .init policy .B deviceId userUid u

def FlagsExact (r : Recording dsp) : Prop :=
  ∀ s ∈ spooledOf r.rig.book.log, s.1.1.channel = .far →
    (s.1.2.flags.foreign = true ↔ ∃ a ∈ s.2, a.From r.foreign)

instance (r : Recording dsp) : Decidable r.FlagsExact :=
  inferInstanceAs (Decidable (∀ _ ∈ _, _ → _))

def SliceFits (r : Recording dsp) : PipeEvent α → Prop
  | .step env => r.rig.judgesForeign (r.slice (.step env)) = true →
      ∀ q ∈ r.rig.pipeline.far,
        let taken := (env.samples .far).take readSamples
        (q.encoder.foreign = true ∨ taken ≠ []) ∧
        (segmentSamples ≤ q.encoder.held.length + taken.length →
          q.encoder.foreign = true ∧ segmentSamples < q.encoder.held.length + taken.length)
  | _ => True

instance (r : Recording dsp) : DecidablePred r.SliceFits
  | .step _ => inferInstanceAs (Decidable (_ → ∀ _ ∈ _, _ ∧ (_ → _)))
  | .openPinned _ | .sessionState _ | .userChanged _ | .block _ | .unblock | .deviceLost
  | .takeEvents | .setAccountRef _ | .uplink _ => isTrue trivial

end Recording

/-! ## The law of the flag -/

structure Tells (n : Nat) (steps : List Nat) (flag : Bool) (pcm : List (Sliced α)) : Prop where
  before : ∀ a ∈ pcm, a.Before n
  iff : flag = true ↔ ∃ a ∈ pcm, a.From steps

namespace Tells

variable {n : Nat} {steps : List Nat} {flag : Bool} {pcm more : List (Sliced α)}

theorem nil : Tells n steps false ([] : List (Sliced α)) :=
  ⟨forall_mem_nil _, by simp⟩

theorem append (h : Tells n steps flag pcm) (hbefore : ∀ a ∈ more, a.Before n)
    (hnot : ∀ a ∈ more, ¬ a.From steps) : Tells n steps flag (pcm ++ more) where
  before a ha := (mem_append.mp ha).elim (h.before a) (hbefore a)
  iff := by
    rw [h.iff]
    refine ⟨fun ⟨a, ha, hfrom⟩ => ⟨a, mem_append_left _ ha, hfrom⟩, fun ⟨a, ha, hfrom⟩ => ?_⟩
    rcases mem_append.mp ha with ha | ha
    · exact ⟨a, ha, hfrom⟩
    · exact absurd hfrom (hnot a ha)

theorem succ (h : Tells n steps flag pcm) : Tells (n + 1) steps flag pcm :=
  ⟨fun a ha => (h.before a ha).succ, h.iff⟩

theorem concat (h : Tells n steps flag pcm) : Tells (n + 1) (steps ++ [n]) flag pcm where
  before a ha := (h.before a ha).succ
  iff := by
    rw [h.iff]
    exact exists_congr fun a => and_congr_right fun ha => (h.before a ha).from_concat.symm

end Tells

namespace SegmentEncoder

def Tells (n : Nat) (steps : List Nat) (e : SegmentEncoder dsp ch) : Prop :=
  ch = .far → Capture.Tells n steps e.foreign e.held

variable {n : Nat} {steps : List Nat} {e : SegmentEncoder dsp ch}

theorem Tells.fill (h : e.Tells n steps) {xs : List (Sliced α)}
    (hxs : ∀ a ∈ xs, a.Before n ∧ ¬ a.From steps) : (e.fill xs).Tells n steps := by
  intro hfar
  have hheld := (fill_encodes e xs).pcm
  rw [flatMap_nil, nil_append] at hheld
  rw [hheld]
  have htake := fun a ha => hxs a (mem_of_mem_take (i := frameSamples - e.pending.length) ha)
  exact (h hfar).append (fun a ha => (htake a ha).1) fun a ha => (htake a ha).2

theorem Tells.closeFrame (h : e.Tells n steps) (hp : e.pending.length = frameSamples) :
    (e.closeFrame hp).1.Tells n steps ∧
      ∀ s ∈ (e.closeFrame hp).2, ch = .far → Capture.Tells n steps s.flags.foreign s.pcm := by
  unfold SegmentEncoder.closeFrame
  dsimp only
  split
  · refine ⟨fun _ => Capture.Tells.nil, fun s hs hfar => ?_⟩
    rw [mem_singleton] at hs
    subst hs
    exact h hfar
  refine ⟨fun hfar => ?_, forall_mem_nil _⟩
  have hheld := h hfar
  rwa [held, append_nil]

theorem Tells.flush (h : e.Tells n steps) (budget : Budget) : (e.flush budget).enc.Tells n steps ∧
      ∀ out, (e.flush budget).out = some out →
        ∀ s ∈ out, ch = .far → Capture.Tells n steps s.flags.foreign s.pcm := by
  have hpadded : ∀ k, ch = .far →
      Capture.Tells n steps e.foreign (e.held ++ replicate k default) := by
    intro k hfar
    refine (h hfar).append (fun a ha => ?_) fun a ha => ?_ <;> rw [eq_of_mem_replicate ha]
    · trivial
    · exact id
  have hf := e.flush_flushed budget
  generalize e.flush budget = c at hf
  cases hf with
  | empty =>
    refine ⟨h, fun out hout => ?_⟩
    obtain rfl := some.inj hout
    exact forall_mem_nil _
  | refused =>
    refine ⟨fun hfar => ?_, fun out hout => by cases hout⟩
    have hheld := hpadded (frameSamples - e.pending.length) hfar
    rwa [held, append_assoc] at hheld
  | closed encoder frames silence left hheld hcase =>
    refine ⟨fun _ => Capture.Tells.nil, fun out hout => ?_⟩
    obtain rfl := some.inj hout
    refine forall_mem_singleton.mpr fun hfar => ?_
    rcases hcase with ⟨-, rfl⟩ | ⟨-, rfl⟩
    · exact hpadded 0 hfar
    · exact hpadded _ hfar

end SegmentEncoder

def flagLaw (n : Nat) (steps : List Nat) : Law dsp where
  enc _ e := e.Tells n steps
  seg ch s := ch = .far → Tells n steps s.flags.foreign s.pcm
  row row pcm := row.1.channel = .far → Tells n steps row.2.flags.foreign pcm
  spooled _ _ h := h

theorem flagLaw_renews (n : Nat) (steps : List Nat) : (flagLaw n steps : Law dsp).Renews :=
  fun _ _ => Tells.nil

theorem flagLaw_feed {n : Nat} {steps : List Nat} {e : SegmentEncoder dsp ch}
    {samples : List (Sliced α)} (budget : Budget)
    (hsamples : ∀ a ∈ samples, a.Before n ∧ ¬ a.From steps) (h : (flagLaw n steps).enc ch e) :
    (flagLaw n steps).enc ch (e.pushSamples samples budget).enc ∧
      ∀ out, (e.pushSamples samples budget).out = some out →
        ∀ s ∈ out, ch = .far → Tells n steps s.flags.foreign s.pcm :=
  SegmentEncoder.pushSamples_keeps (fun _ _ hxs he => he.fill hxs)
    (fun _ hp he => he.closeFrame hp) budget h hsamples

namespace ChannelPipe

variable {n : Nat} {steps : List Nat} {q q' : ChannelPipe dsp .far}
  {taken : List (Sliced α)} {out : List (Segment (Sliced α) .far)}

theorem flagLaw_marked (hold : (flagLaw n steps).Pipe q) (hnew : (flagLaw (n + 1) steps).Pipe q')
    (henc : Encodes q.encoder q'.encoder taken out) (hready : q'.ready = q.ready ++ out)
    (hfull : ∀ seg ∈ out, seg.pcm.length = segmentSamples) (hread : taken.length ≤ frameSamples)
    (hslice : ∀ a ∈ taken, a.From [n]) (hfits : (q.encoder.foreign = true ∨ taken ≠ []) ∧
      (segmentSamples ≤ q.encoder.held.length + taken.length →
        q.encoder.foreign = true ∧ segmentSamples < q.encoder.held.length + taken.length)) :
    (flagLaw (n + 1) (steps ++ [n])).Pipe { q' with encoder := q'.encoder.markForeign } := by
  obtain ⟨hbrings, hcompletes⟩ := hfits
  have hmark : q.encoder.foreign = true → ∃ a ∈ q.encoder.held, a.From (steps ++ [n]) := by
    intro hforeign
    obtain ⟨a, ha, hfrom⟩ := (hold.1 rfl).iff.mp hforeign
    exact ⟨a, ha, hfrom.concat n⟩
  have hown : ∀ a ∈ taken, a.From (steps ++ [n]) := fun a ha => (hslice a ha).last steps
  have hpcm := henc.pcm
  have hlength := congrArg length hpcm
  match out, SegmentEncoder.length_out_le_one henc hfull hread with
  | [], _ =>
    rw [flatMap_nil, nil_append] at hpcm
    refine ⟨fun _ => ⟨(hnew.1 rfl).before, iff_of_true rfl ?_⟩, fun s hs hfar => ?_⟩
    · change ∃ a ∈ q'.encoder.held, _
      rw [hpcm]
      rcases hbrings with hforeign | hne
      · obtain ⟨a, ha, hfrom⟩ := hmark hforeign
        exact ⟨a, mem_append_left _ ha, hfrom⟩
      obtain ⟨a, ha⟩ := exists_mem_of_ne_nil _ hne
      exact ⟨a, mem_append_right _ ha, hown a ha⟩
    rw [hready, append_nil] at hs
    exact (hold.2 s hs hfar).concat
  | [seg], _ =>
    have hseg := hfull seg mem_cons_self
    rw [flatMap_singleton] at hpcm hlength
    rw [length_append, length_append, hseg] at hlength
    obtain ⟨hforeign, hleft⟩ := hcompletes (by omega)
    obtain ⟨mid, hmid, htaken⟩ := henc.split_of_full hseg
    refine ⟨fun _ => ⟨(hnew.1 rfl).before, iff_of_true rfl ?_⟩, fun s hs hfar => ?_⟩
    · obtain ⟨a, ha⟩ := exists_mem_of_length_pos (l := q'.encoder.held) (by omega)
      exact ⟨a, ha, hown a (htaken ▸ mem_append_right _ ha)⟩
    rcases mem_append.mp (hready ▸ hs) with hs' | hs'
    · exact (hold.2 s hs' hfar).concat
    obtain rfl := mem_singleton.mp hs'
    have htells := hnew.2 s hs hfar
    obtain ⟨a, ha, hfrom⟩ := (hold.1 rfl).iff.mp hforeign
    have hmem : a ∈ s.pcm := hmid ▸ mem_append_left _ ha
    exact ⟨htells.before, iff_of_true (htells.iff.mpr ⟨a, hmem, hfrom⟩) ⟨a, hmem, hfrom.concat n⟩⟩

end ChannelPipe

/-! ## A step -/

theorem listen_pipe {dsp : Dsp α} (p : Pipeline dsp) (n : Nat) : (p.listen n).1.near = p.near ∧
      (p.listen n).1.far =
        if p.judgesForeign n then p.far.map fun q => { q with encoder := q.encoder.markForeign }
        else p.far :=
  ⟨rfl, rfl⟩

theorem flagLaw_succ (n : Nat) (steps : List Nat) :
    (flagLaw n steps : Law dsp).Implies (flagLaw (n + 1) steps) where
  enc _ h hfar := (h hfar).succ
  seg _ h hfar := (h hfar).succ
  row _ _ h hfar := (h hfar).succ
  plug _ h := h

namespace Recording

structure Exact (r : Recording dsp) : Prop where
  holds : (flagLaw r.count r.foreign).Holds r.rig
  past : ∀ n ∈ r.foreign, n < r.count

variable {r : Recording dsp} {w : Work dsp} {env : StepEnv α}

theorem Exact.flagsExact (h : r.Exact) : r.FlagsExact :=
  fun s hs hfar => (h.holds.log.2 s.1 s.2 (spooled_of_mem hs) hfar).iff

def taken (r : Recording dsp) (env : StepEnv α) : List (Sliced α) :=
  ((env.samples .far).take readSamples).map (Sliced.read · r.count)

theorem length_taken (r : Recording dsp) (env : StepEnv α) :
    (r.taken env).length = ((env.samples .far).take readSamples).length := length_map ..

theorem take_map_far (r : Recording dsp) (env : StepEnv α) :
    ((env.map (Sliced.read · r.count)).far.getD []).take readSamples = r.taken env := by
  unfold taken StepEnv.map StepEnv.samples
  cases env.far with
  | none => rfl
  | some xs => exact map_take.symm

theorem Exact.slice (h : r.Exact) {xs : List α} {a : Sliced α}
    (ha : a ∈ xs.map (Sliced.read · r.count)) :
    a.From [r.count] ∧ a.Before (r.count + 1) ∧ ¬ a.From r.foreign := by
  obtain ⟨b, -, rfl⟩ := mem_map.mp ha
  exact ⟨mem_singleton_self _, lt_succ_self _, fun hmem => absurd (h.past _ hmem) (lt_irrefl _)⟩

theorem Exact.read (h : r.Exact) (hw : (flagLaw (r.count + 1) r.foreign).Rules w) (ch : Channel)
    (read : Option (List α)) :
    Upholds (flagLaw (r.count + 1) r.foreign).Rules
      (fun p => (flagLaw (r.count + 1) r.foreign).Rules p.2)
      (w.readChannel ch (read.map (List.map (Sliced.read · r.count)))) := by
  refine Work.readChannel_rules (fun b => flagLaw_feed b) hw ch fun xs hxs a ha => ?_
  obtain ⟨ys, -, rfl⟩ := mem_map.mp hxs
  exact (h.slice ha).2

structure Sampled (r : Recording dsp) (env : StepEnv α) (w : Work dsp) : Prop where
  rules : (flagLaw (r.count + 1) r.foreign).Rules w
  book : w.book = r.rig.book
  far : ∀ q' ∈ w.pipeline.far, ∃ q ∈ r.rig.pipeline.far, ∃ out,
    Encodes q.encoder q'.encoder (r.taken env) out ∧ q'.ready = q.ready ++ out ∧
    ∀ seg ∈ out, seg.pcm.length = segmentSamples

def work (r : Recording dsp) (env : StepEnv α) : Work dsp :=
  ⟨r.rig.pipeline, r.rig.book, (env.map (Sliced.read · r.count)).budget, {}⟩

theorem Exact.work_rules (h : r.Exact) (env : StepEnv α) :
    (flagLaw (r.count + 1) r.foreign).Rules (r.work env) :=
  ⟨(flagLaw_succ ..).pipes h.holds.pipes, (flagLaw_succ ..).log h.holds.log⟩

theorem Exact.sampled (h : r.Exact) {w1 w2 : Work dsp} {n m : Nat}
    (hfar : (r.work env).readChannel .far (env.map (Sliced.read · r.count)).far = .ok (n, w1))
    (hnear : w1.readChannel .near (env.map (Sliced.read · r.count)).near = .ok (m, w2)) :
    r.Sampled env w2 := by
  have hpush1 := Work.readChannel_pushed hfar
  have hpush2 := Work.readChannel_pushed hnear
  have hrules1 : Upholds _ _ ((r.work env).readChannel .far
    (env.map (Sliced.read · r.count)).far) := h.read (h.work_rules env) .far env.far
  rw [hfar] at hrules1
  have hrules2 : Upholds _ _ (w1.readChannel .near (env.map (Sliced.read · r.count)).near) :=
    h.read hrules1 .near env.near
  rw [hnear] at hrules2
  refine ⟨hrules2, hpush2.book.trans hpush1.book, fun q' hq' => ?_⟩
  have hother : w2.pipeline.pipe .far = w1.pipeline.pipe .far := hpush2.other .far (by decide)
  obtain ⟨q, hq, out, hout, hencoder, hready⟩ := hpush1.pipe q' (hother ▸ hq')
  rw [take_map_far] at hout hencoder
  obtain ⟨henc, hfull⟩ := SegmentEncoder.pushSamples_spec hout
  exact ⟨q, hq, out, hencoder ▸ henc, hready, hfull⟩

theorem Exact.listen (h : r.Exact) {k : Nat} (hw : r.Sampled env w)
    (hjudged : w.pipeline.judgesForeign k = true) (hfits : ∀ q ∈ r.rig.pipeline.far,
      let taken := (env.samples .far).take readSamples
      (q.encoder.foreign = true ∨ taken ≠ []) ∧
      (segmentSamples ≤ q.encoder.held.length + taken.length →
        q.encoder.foreign = true ∧ segmentSamples < q.encoder.held.length + taken.length)) :
    (flagLaw (r.count + 1) (r.foreign ++ [r.count])).Rules
      { w with pipeline := (w.pipeline.listen k).1 } := by
  obtain ⟨-, hlisten⟩ := listen_pipe w.pipeline k
  rw [if_pos hjudged] at hlisten
  refine ⟨fun ch q' hq' => ?_, trivial, fun row pcm hmem hch => ?_⟩
  · cases ch with
    | near => exact ⟨fun hch => (by cases hch), fun s _ hch => (by cases hch)⟩
    | far =>
      have hq' : q' ∈ (w.pipeline.listen k).1.far := hq'
      rw [hlisten] at hq'
      obtain ⟨q1, hq1, rfl⟩ := mem_map.mp hq'
      obtain ⟨q, hq, out, henc, hready, hfull⟩ := hw.far q1 hq1
      obtain ⟨hbrings, hcompletes⟩ := hfits q hq
      rw [← length_taken r] at hcompletes
      exact ChannelPipe.flagLaw_marked (h.holds.pipes .far q hq) (hw.rules.pipes .far q1 hq1) henc
        hready hfull (r.length_taken env ▸ length_take_le _ _) (fun a ha => (h.slice ha).1)
        ⟨hbrings.imp_right fun hne hnil => hne (map_eq_nil_iff.mp hnil), hcompletes⟩
  rw [hw.book] at hmem
  exact (h.holds.log.2 row pcm hmem hch).concat

theorem listen_keeps {n k : Nat} {steps : List Nat} (hrules : (flagLaw n steps).Rules w)
    (hjudged : w.pipeline.judgesForeign k = false) :
    (flagLaw n steps).Rules { w with pipeline := (w.pipeline.listen k).1 } := by
  obtain ⟨hnear, hfar⟩ := listen_pipe w.pipeline k
  rw [hjudged] at hfar
  refine ⟨hrules.pipes.congr fun ch => ?_, hrules.log⟩
  cases ch with
  | far => exact hfar
  | near => exact hnear

theorem Exact.capture (h : r.Exact) (hfits : r.SliceFits (.step env)) :
    (flagLaw (r.count + 1) (r.step (.step env)).foreign).Holds
      (r.rig.capture (env.map (Sliced.read · r.count))) := by
  set env' := env.map (Sliced.read · r.count)
  have hforeign : (r.step (.step env)).foreign =
      if ((r.work env).sampled env').any fun heard => heard.1.pipeline.judgesForeign heard.2
      then r.foreign ++ [r.count] else r.foreign := rfl
  have hfits : (((r.work env).sampled env').any fun heard =>
    heard.1.pipeline.judgesForeign heard.2) = true → _ := hfits
  have hshape := (r.work env).step_proceeds env'
  have hread : Upholds _ _ ((r.work env).readChannel .far env'.far) :=
    h.read (h.work_rules env) .far env.far
  refine Law.Holds.capture ?_
  change Upholds _ _ ((r.work env).step env')
  rw [hforeign]
  generalize (r.work env).sampled env' = heard at hshape hfits ⊢
  generalize (r.work env).step env' = result at hshape ⊢
  cases hshape with
  | farFailed hfar =>
    rwa [hfar] at hread
  | @nearFailed n w1 w2 hfar hnear =>
    rw [hfar] at hread
    have hread2 : Upholds _ _ (w1.readChannel .near env'.near) := h.read hread .near env.near
    rwa [hnear] at hread2
  | idle hfar hnear => exact (h.sampled hfar hnear).rules
  | @listened n m w1 w2 hfar hnear =>
    have hw := h.sampled hfar hnear
    refine Work.act_rules ?_ env'
      ⟨fun _ => flagLaw_renews _ _, fun _ _ _ _ budget h => h.flush budget⟩
    rw [any_some] at hfits ⊢
    cases hjudged : w2.pipeline.judgesForeign (max n m) with
    | true => exact h.listen hw hjudged (hfits hjudged)
    | false => exact listen_keeps hw.rules hjudged

theorem Exact.init (policy : Policy) (deviceId userUid : String) (u : Uplink) :
    (init policy deviceId userUid u : Recording dsp).Exact where
  holds := .init _ _ _ _ trivial
  past _ hn := absurd hn not_mem_nil

theorem Exact.between (h : r.Exact) {e : PipeEvent α} (hforeign : (r.step e).foreign = r.foreign)
    (hnot : ∀ env, r.slice e ≠ .step env) :
    (flagLaw (r.count + 1) (r.step e).foreign).Holds (r.step e).rig := by
  rw [hforeign]
  exact ((flagLaw_succ ..).holds h.holds).step (fun _ _ => flagLaw_renews _ _) (fun _ => trivial)
    fun env henv => absurd henv (hnot env)

theorem Exact.step (h : r.Exact) {e : PipeEvent α} (hfits : r.SliceFits e) : (r.step e).Exact where
  holds := by
    cases e with
    | step env => exact h.capture hfits
    | _ => exact h.between rfl (by simp [Recording.slice, PipeEvent.map])
  past n hn := by
    simp only [Recording.step] at hn ⊢
    split at hn
    · rcases mem_append.mp hn with hn | hn
      · exact lt_succ_of_lt (h.past n hn)
      · exact mem_singleton.mp hn ▸ lt_succ_self _
    · exact lt_succ_of_lt (h.past n hn)

end Recording

/-- **Exact flags.** -/
theorem flags_exact (policy : Policy) (deviceId userUid : String) (u : Uplink)
    (es : List (PipeEvent α)) (hfits : Along Recording.step Recording.SliceFits
      (.init policy deviceId userUid u : Recording dsp) es) :
    (run Recording.step (.init policy deviceId userUid u : Recording dsp) es).FlagsExact := by
  have hexact := hfits.invariant (Recording.Exact.init policy deviceId userUid u)
    fun _ _ h hfit => Recording.Exact.step h hfit
  exact hexact.flagsExact

/-! ## A loopback that falls silent -/

def slicedDsp : Dsp (Sliced Int) :=
  thresholdDsp fun
    | .read a _ => a ≠ 0
    | .silence => false

def tierB : Recording slicedDsp := .init briskPolicy "device-1" "alice" { spool := {} }

def reads (ch : Channel) (a : Int) : PipeEvent Int :=
  let frame (ch' : Channel) := if ch' = ch then List.replicate frameSamples a else []
  .step { far := some (frame .far), near := some (frame .near), callId := "call-1" }

def graceRun : List (PipeEvent Int) :=
  [.openPinned headset, .sessionState true, reads .far 1, .sessionState false] ++
    List.replicate 74 (reads .near 1)

def hangup : List (PipeEvent Int) := [reads .far 0, reads .near 0, reads .near 0]

theorem graceRun_facts :
    (run Recording.step tierB (graceRun ++ reads .far 1 :: hangup)).foreign = [78] ∧
      Along Recording.step Recording.SliceFits tierB (graceRun ++ reads .far 1 :: hangup) ∧
      ¬ (run Recording.step tierB (graceRun ++ reads .near 1 :: hangup)).FlagsExact := by
  decide +kernel

/-- The first foreign slice is a frame of the loopback: it is in the segment that it marks. -/
theorem flags_exact_graceRun :
    (run Recording.step tierB (graceRun ++ reads .far 1 :: hangup)).foreign = [78] ∧
      (run Recording.step tierB (graceRun ++ reads .far 1 :: hangup)).FlagsExact :=
  ⟨graceRun_facts.1,
    flags_exact briskPolicy "device-1" "alice" { spool := {} } _ graceRun_facts.2.1⟩

/-- **A flag without foreign audio.** -/
theorem staleFrame_flagged :
    ¬ (run Recording.step tierB (graceRun ++ reads .near 1 :: hangup)).FlagsExact :=
  graceRun_facts.2.2

end Sentinel.Capture
