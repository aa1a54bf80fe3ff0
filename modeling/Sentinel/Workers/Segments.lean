import Mathlib.Data.Int.Interval
import Sentinel.Lib.Bytes
import Sentinel.Gateway.Sink

/-!
# Reading a call's audio back

The pipeline (`segments.py`) looks up a channel's segments, drops the ones flagged foreign, fetches
each object, and decodes what it got into one buffer, with 20 ms of silence for every packet that
was dropped at capture.
-/

open List Except

namespace Sentinel.Workers

open Bytes

def sampleRateHz : Nat := 16000
def frameMs : Nat := 20
def framesPerSegment : Nat := 50

def silenceFrame : List UInt8 := List.replicate (sampleRateHz / 1000 * frameMs * 2) 0

structure MalformedSegment where
  text : String
  deriving DecidableEq, Repr

def malformed (payload : List UInt8) (_ off : Nat) : Cut → MalformedSegment
  | .inLength _ => ⟨"segment ends mid-length at byte " ++ toString off ++ " of " ++
      toString payload.length⟩
  | .inFrame claims left => ⟨"frame claims " ++ toString claims ++ " bytes but only " ++
      toString left ++ " remain"⟩

def orDropped (packet : List UInt8) : Option (List UInt8) :=
  if packet.length = 0 then none else some packet

def unpackFrames (payload : List UInt8) :
    Except MalformedSegment (List (Option (List UInt8))) :=
  readAll (fun buf => (readFrame 2 buf).map fun p => (orDropped p.1, p.2)) (malformed payload)
    payload

/-! ## Decoding -/

inductive AudioError where
  | malformed (e : MalformedSegment)
  | decoder
  | storage
  deriving DecidableEq, Repr

structure FrameDecoder where
  State : Type
  new : State
  decode : State → List UInt8 → Option (List UInt8 × State)

structure SegmentCodec where
  decoder : FrameDecoder
  rawPcm : Bool := false

def FrameDecoder.packets (d : FrameDecoder) :
    d.State → List (Option (List UInt8)) → Except AudioError (List UInt8 × d.State)
  | st, [] => .ok ([], st)
  | st, none :: ps => do
    let (rest, st) ← d.packets st ps
    .ok (silenceFrame ++ rest, st)
  | st, some p :: ps => do
    let (pcm, st) ← (d.decode st p).elim (.error .decoder) .ok
    let (rest, st) ← d.packets st ps
    .ok (pcm ++ rest, st)

def FrameDecoder.segment (d : FrameDecoder) (st : d.State) (payload : List UInt8) :
    Except AudioError (List UInt8 × d.State) := do
  let packets ← (unpackFrames payload).mapError .malformed
  d.packets st packets

def FrameDecoder.segments (d : FrameDecoder) :
    d.State → List (List UInt8) → Except AudioError (List UInt8)
  | _, [] => .ok []
  | st, payload :: payloads => do
    let (pcm, st) ← d.segment st payload
    let rest ← d.segments st payloads
    .ok (pcm ++ rest)

def SegmentCodec.decodeSegments (c : SegmentCodec) (payloads : List (List UInt8)) :
    Except AudioError (List UInt8) :=
  if c.rawPcm then .ok payloads.flatten else c.decoder.segments c.decoder.new payloads

/-! ## Which objects -/

structure MediaRow where
  tenantId : String
  s3Key : String
  foreignAudio : Bool := false
  receivedAt : Int := 0
  deriving DecidableEq, Repr

abbrev MediaSegments := Table (Uuid × Channel × Int) MediaRow

structure SegmentRow where
  seq : Int
  s3Key : String
  foreignAudio : Bool
  deriving DecidableEq, Repr

def bySeq (rows : List SegmentRow) : List SegmentRow :=
  rows.insertionSort fun a b => a.seq ≤ b.seq

def segmentsFor (t : MediaSegments) (tenant : String) (call : Uuid) (ch : Channel) :
    List SegmentRow :=
  bySeq ((t.rows.filter fun r => r.2.tenantId = tenant ∧ r.1.1 = call ∧ r.1.2.1 = ch ∧
    ¬ r.2.foreignAudio).map fun r => ⟨r.1.2.2, r.2.s3Key, r.2.foreignAudio⟩)

def transcribable (rows : List SegmentRow) : List SegmentRow :=
  (bySeq rows).filter fun r => !r.foreignAudio

def channelAudio (t : MediaSegments) (get : String → Except AudioError (Option (List UInt8)))
    (codec : SegmentCodec) (tenant : String) (call : Uuid) (ch : Channel) :
    Except AudioError (Option (List UInt8)) := do
  let rows := transcribable (segmentsFor t tenant call ch)
  if rows.isEmpty then .ok none
  else
    let bodies ← rows.mapM fun row => get row.s3Key
    let payloads := bodies.reduceOption
    if payloads.isEmpty then .ok none
    else
      let pcm ← codec.decodeSegments payloads
      .ok (if pcm.isEmpty then none else some pcm)

/-! ## The rows that are read -/

section Rows

variable {t t' : MediaSegments} {tenant : String} {call : Uuid} {ch : Channel}

def Audible (tenant : String) (call : Uuid) (ch : Channel)
    (r : (Uuid × Channel × Int) × MediaRow) : Prop :=
  r.2.tenantId = tenant ∧ r.1.1 = call ∧ r.1.2.1 = ch ∧ ¬ r.2.foreignAudio

instance (r : (Uuid × Channel × Int) × MediaRow) : Decidable (Audible tenant call ch r) :=
  inferInstanceAs (Decidable (_ ∧ _ ∧ _ ∧ _))

theorem mem_segmentsFor {row : SegmentRow} : row ∈ segmentsFor t tenant call ch ↔
      ∃ r ∈ t.rows, Audible tenant call ch r ∧ row = ⟨r.1.2.2, r.2.s3Key, r.2.foreignAudio⟩ := by
  rw [segmentsFor, bySeq, mem_insertionSort, mem_map]
  constructor
  · rintro ⟨r, hr, rfl⟩
    obtain ⟨hmem, haudible⟩ := mem_filter.mp hr
    exact ⟨r, hmem, of_decide_eq_true haudible, rfl⟩
  rintro ⟨r, hmem, haudible, rfl⟩
  exact ⟨r, mem_filter.mpr ⟨hmem, decide_eq_true haudible⟩, rfl⟩

theorem segmentsFor_increasing (t : MediaSegments) (tenant : String) (call : Uuid) (ch : Channel) :
    (segmentsFor t tenant call ch).Pairwise fun a b => a.seq < b.seq := by
  set rows := t.rows.filter fun r => Audible tenant call ch r with hrows
  have hkeys : rows.Pairwise fun a b => a.1 ≠ b.1 :=
    pairwise_map.mp ((filter_sublist.map Prod.fst).nodup t.nodup)
  have hseqs : (rows.map fun r => (⟨r.1.2.2, r.2.s3Key, r.2.foreignAudio⟩ : SegmentRow)).Pairwise
      fun a b => a.seq ≠ b.seq := by
    refine pairwise_map.mpr (hkeys.imp_of_mem fun {a b} ha hb hne heq => hne ?_)
    have ha : Audible tenant call ch a := of_decide_eq_true (mem_filter.mp ha).2
    have hb : Audible tenant call ch b := of_decide_eq_true (mem_filter.mp hb).2
    exact Prod.ext (ha.2.1.trans hb.2.1.symm) (Prod.ext (ha.2.2.1.trans hb.2.2.1.symm) heq)
  have hle := pairwise_insertionSort (fun a b : SegmentRow => a.seq ≤ b.seq)
    (rows.map fun r => (⟨r.1.2.2, r.2.s3Key, r.2.foreignAudio⟩ : SegmentRow))
  have hne := hseqs.perm (perm_insertionSort (fun a b : SegmentRow => a.seq ≤ b.seq) _).symm
    fun h => Ne.symm h
  exact (hle.and hne).imp fun h => lt_of_le_of_ne h.1 h.2

theorem transcribable_segmentsFor (t : MediaSegments) (tenant : String) (call : Uuid)
    (ch : Channel) :
    transcribable (segmentsFor t tenant call ch) = segmentsFor t tenant call ch := by
  have hsorted : bySeq (segmentsFor t tenant call ch) = segmentsFor t tenant call ch :=
    Pairwise.insertionSort_eq ((segmentsFor_increasing t tenant call ch).imp le_of_lt)
  rw [transcribable, hsorted, filter_eq_self]
  intro row hrow
  obtain ⟨r, -, haudible, rfl⟩ := mem_segmentsFor.mp hrow
  simpa using haudible.2.2.2

theorem segmentsFor_congr (h : ∀ r, Audible tenant call ch r → (r ∈ t.rows ↔ r ∈ t'.rows)) :
    segmentsFor t tenant call ch = segmentsFor t' tenant call ch := by
  have hmem : ∀ row, row ∈ segmentsFor t tenant call ch ↔ row ∈ segmentsFor t' tenant call ch := by
    intro row
    rw [mem_segmentsFor, mem_segmentsFor]
    refine exists_congr fun r => ?_
    constructor
    · rintro ⟨hr, ha, hrow⟩
      exact ⟨(h r ha).mp hr, ha, hrow⟩
    rintro ⟨hr, ha, hrow⟩
    exact ⟨(h r ha).mpr hr, ha, hrow⟩
  have hinc := segmentsFor_increasing t tenant call ch
  have hinc' := segmentsFor_increasing t' tenant call ch
  have hnodup : ∀ {l : List SegmentRow}, l.Pairwise (fun a b => a.seq < b.seq) → l.Nodup :=
    fun hl => hl.imp fun hlt heq => absurd (heq ▸ hlt) (lt_irrefl _)
  refine Perm.eq_of_pairwise (fun a b _ _ hab hba => ?_) hinc hinc' ?_
  · exact absurd (lt_trans hab hba) (lt_irrefl _)
  exact (perm_ext_iff_of_nodup (hnodup hinc) (hnodup hinc')).mpr hmem

end Rows

/-! ## The samples of segments -/

def IsSegment (payload : List UInt8) : Prop :=
  ∃ packets, unpackFrames payload = .ok packets ∧ packets.length = framesPerSegment

namespace FrameDecoder

variable {d : FrameDecoder}

def Steady (d : FrameDecoder) : Prop :=
  ∀ st packet, ∃ pcm st', d.decode st packet = some (pcm, st') ∧ pcm.length = 2 * 320

def Plays (d : FrameDecoder) (payload audio : List UInt8) : Prop :=
  ∃ st st', d.segment st payload = .ok (audio, st')

theorem Steady.packets (h : d.Steady) (st : d.State) (ps : List (Option (List UInt8))) :
    ∃ pcm st', d.packets st ps = .ok (pcm, st') ∧ pcm.length = 2 * 320 * ps.length := by
  induction ps generalizing st with
  | nil => exact ⟨[], st, rfl, rfl⟩
  | cons p ps ih =>
    cases p with
    | none =>
      obtain ⟨rest, st', hrest, hlen⟩ := ih st
      refine ⟨silenceFrame ++ rest, st', ?_, ?_⟩
      · simp [FrameDecoder.packets, hrest, bind, Except.bind]
      have hsilence : silenceFrame.length = 2 * 320 := length_replicate
      rw [length_append, hsilence, hlen, length_cons]
      omega
    | some packet =>
      obtain ⟨pcm, st₁, hpcm, hlen₁⟩ := h st packet
      obtain ⟨rest, st', hrest, hlen⟩ := ih st₁
      refine ⟨pcm ++ rest, st', ?_, ?_⟩
      · simp [FrameDecoder.packets, hpcm, hrest, bind, Except.bind]
      rw [length_append, hlen₁, hlen, length_cons]
      omega

theorem Steady.segment (h : d.Steady) (st : d.State) {payload : List UInt8}
    (hp : IsSegment payload) :
    ∃ pcm st', d.segment st payload = .ok (pcm, st') ∧ pcm.length = 2 * sampleRateHz := by
  obtain ⟨packets, hunpack, hfifty⟩ := hp
  obtain ⟨pcm, st', hpcm, hlen⟩ := h.packets st packets
  refine ⟨pcm, st', ?_, ?_⟩
  · simp [FrameDecoder.segment, hunpack, hpcm, bind, Except.bind, Except.mapError]
  rw [hlen, hfifty]
  rfl

theorem Steady.segments (h : d.Steady) (st : d.State) {payloads : List (List UInt8)}
    (hp : ∀ payload ∈ payloads, IsSegment payload) :
    ∃ chunks, d.segments st payloads = .ok chunks.flatten ∧
      (∀ c ∈ chunks, c.length = 2 * sampleRateHz) ∧ Forall₂ d.Plays payloads chunks := by
  induction payloads generalizing st with
  | nil => exact ⟨[], rfl, nofun, .nil⟩
  | cons payload payloads ih =>
    obtain ⟨pcm, st', hpcm, hlen⟩ := h.segment st (hp payload mem_cons_self)
    obtain ⟨chunks, hrest, hlens, hplays⟩ := ih st' fun p hmem => hp p (mem_cons_of_mem _ hmem)
    refine ⟨pcm :: chunks, ?_, ?_, .cons ⟨st, st', hpcm⟩ hplays⟩
    · simp [FrameDecoder.segments, hpcm, hrest, bind, Except.bind]
    intro c hc
    rcases mem_cons.mp hc with rfl | hc
    · exact hlen
    · exact hlens c hc

end FrameDecoder

/-! ## The timeline -/

theorem position_of_noHole {l : List Int} (hinc : l.Pairwise (· < ·)) (hnonneg : ∀ j ∈ l, 0 ≤ j)
    {i : Nat} {k : Int} (hk : l[i]? = some k) (hbelow : ∀ j, 0 ≤ j → j < k → j ∈ l) :
    i = k.toNat := by
  obtain ⟨hi, rfl⟩ := List.getElem?_eq_some_iff.mp hk
  have hsplit : l = l.take i ++ l[i] :: l.drop (i + 1) := by
    rw [← drop_eq_getElem_cons hi, take_append_drop]
  rw [hsplit] at hinc
  obtain ⟨hfront, hback, hacross⟩ := pairwise_append.mp hinc
  -- What stands before the entry are the numbers below it, each once.
  have hset : (l.take i).toFinset = Finset.Ico 0 l[i] := by
    ext j
    rw [mem_toFinset, Finset.mem_Ico]
    constructor
    · intro hj
      exact ⟨hnonneg j (mem_of_mem_take hj), hacross j hj _ mem_cons_self⟩
    rintro ⟨hj0, hjk⟩
    have hmem := hbelow j hj0 hjk
    rw [hsplit, mem_append, mem_cons] at hmem
    rcases hmem with hmem | rfl | hmem
    · exact hmem
    · exact absurd hjk (lt_irrefl _)
    · exact absurd ((pairwise_cons.mp hback).1 j hmem) (not_lt_of_gt hjk)
  have hcard := congrArg Finset.card hset
  rw [toFinset_card_of_nodup (hfront.imp ne_of_lt), Int.card_Ico, length_take] at hcard
  omega

section Timeline

variable (t : MediaSegments) (get : String → Except AudioError (Option (List UInt8)))
  (tenant : String) (call : Uuid) (ch : Channel)

def Kept (k : Int) (payload : List UInt8) : Prop :=
  ∃ row, ((call, ch, k), row) ∈ t.rows ∧ Audible tenant call ch ((call, ch, k), row) ∧
    get row.s3Key = .ok (some payload)

def Stored : Prop :=
  ∀ r ∈ t.rows, Audible tenant call ch r →
    ∃ body, get r.2.s3Key = .ok body ∧ ∀ payload ∈ body, IsSegment payload

def NoHole : Prop :=
  ∀ k payload, Kept t get tenant call ch k payload →
    0 ≤ k ∧ ∀ j, 0 ≤ j → j < k → ∃ payload', Kept t get tenant call ch j payload'

def samples (pcm : List UInt8) (start count : Nat) : List UInt8 :=
  slice pcm (2 * start) (2 * (start + count))

def OnTimeline (d : FrameDecoder) (pcm : List UInt8) : Prop :=
  (∀ k payload, Kept t get tenant call ch k payload → 0 ≤ k ∧
    ∃ audio, d.Plays payload audio ∧ samples pcm (16000 * k.toNat) 16000 = audio) ∧
  ∀ j : Nat, (∀ payload, ¬ Kept t get tenant call ch j payload) →
    2 * (16000 * (j + 1)) ≤ pcm.length →
    samples pcm (16000 * j) 16000 = List.replicate (2 * 16000) 0

variable {t get tenant call ch}

theorem mapM_get {rows : List SegmentRow} {body : SegmentRow → Option (List UInt8)}
    (h : ∀ row ∈ rows, get row.s3Key = .ok (body row)) :
    rows.mapM (fun row => get row.s3Key) = .ok (rows.map body) := by
  induction rows with
  | nil => rfl
  | cons row rows ih =>
    rw [mapM_cons, h row mem_cons_self, ih fun r hr => h r (mem_cons_of_mem _ hr)]
    rfl

def bodyOf (get : String → Except AudioError (Option (List UInt8))) (row : SegmentRow) :
    Option (List UInt8) :=
  (get row.s3Key).toOption.join

variable (t get tenant call ch) in
def keptSegments : List (Int × List UInt8) :=
  (segmentsFor t tenant call ch).filterMap fun row =>
    (bodyOf get row).map fun payload => (row.seq, payload)

theorem Stored.get_eq (hstored : Stored t get tenant call ch) {row : SegmentRow}
    (hrow : row ∈ segmentsFor t tenant call ch) : get row.s3Key = .ok (bodyOf get row) := by
  obtain ⟨r, hr, ha, rfl⟩ := mem_segmentsFor.mp hrow
  obtain ⟨b, hb, -⟩ := hstored r hr ha
  simp [bodyOf, hb, Except.toOption]

variable {k : Int} {payload pcm : List UInt8} {codec : SegmentCodec}

theorem Stored.mem_keptSegments (hstored : Stored t get tenant call ch) :
    (k, payload) ∈ keptSegments t get tenant call ch ↔ Kept t get tenant call ch k payload := by
  rw [keptSegments, mem_filterMap]
  constructor
  · rintro ⟨row, hrow, hpay⟩
    have hok := hstored.get_eq hrow
    obtain ⟨p, hp, heq⟩ := Option.map_eq_some_iff.mp hpay
    obtain ⟨⟨⟨c, h, q⟩, mrow⟩, hr, ha, rfl⟩ := mem_segmentsFor.mp hrow
    obtain ⟨rfl, rfl⟩ := Prod.mk.inj heq
    obtain ⟨htenant, rfl, rfl, hforeign⟩ := ha
    exact ⟨mrow, hr, ⟨htenant, rfl, rfl, hforeign⟩, hok.trans (congrArg _ hp)⟩
  rintro ⟨mrow, hr, ha, hp⟩
  refine ⟨_, mem_segmentsFor.mpr ⟨_, hr, ha, rfl⟩, ?_⟩
  simp [bodyOf, hp, Except.toOption]

theorem keptSegments_increasing :
    ((keptSegments t get tenant call ch).map Prod.fst).Pairwise (· < ·) := by
  rw [pairwise_map, keptSegments, pairwise_filterMap]
  refine (segmentsFor_increasing t tenant call ch).imp fun {a b} hab x hx y hy => ?_
  obtain ⟨p, -, rfl⟩ := Option.map_eq_some_iff.mp hx
  obtain ⟨q, -, rfl⟩ := Option.map_eq_some_iff.mp hy
  exact hab

theorem reduceOption_bodyOf : ((segmentsFor t tenant call ch).map (bodyOf get)).reduceOption =
      (keptSegments t get tenant call ch).map Prod.snd := by
  change ((segmentsFor t tenant call ch).map (bodyOf get)).filterMap id = _
  rw [keptSegments, map_filterMap, filterMap_map]
  refine filterMap_congr fun row _ => ?_
  cases h : bodyOf get row <;> simp [h]

theorem Stored.isSegment (hstored : Stored t get tenant call ch)
    (hk : Kept t get tenant call ch k payload) : IsSegment payload := by
  obtain ⟨mrow, hr, ha, hobj⟩ := hk
  obtain ⟨b, hb, hall⟩ := hstored _ hr ha
  rw [hobj] at hb
  exact hall payload (by rw [← ok.inj hb]; rfl)

theorem channelAudio_eq (hraw : codec.rawPcm = false) (hsteady : codec.decoder.Steady)
    (hstored : Stored t get tenant call ch) :
    ∃ chunks : List (List UInt8), (∀ c ∈ chunks, c.length = 2 * sampleRateHz) ∧
      Forall₂ codec.decoder.Plays ((keptSegments t get tenant call ch).map Prod.snd) chunks ∧
      channelAudio t get codec tenant call ch =
        .ok (if keptSegments t get tenant call ch = [] then none else some chunks.flatten) := by
  have hsegments : ∀ payload ∈ (keptSegments t get tenant call ch).map Prod.snd,
      IsSegment payload := by
    intro payload hp
    obtain ⟨⟨k, p⟩, hkp, rfl⟩ := mem_map.mp hp
    exact hstored.isSegment (hstored.mem_keptSegments.mp hkp)
  obtain ⟨chunks, hpcm, hlens, hplays⟩ := hsteady.segments codec.decoder.new hsegments
  refine ⟨chunks, hlens, hplays, ?_⟩
  have hdecode : codec.decodeSegments ((keptSegments t get tenant call ch).map Prod.snd) =
      .ok chunks.flatten := by
    rwa [SegmentCodec.decodeSegments, hraw]
  unfold channelAudio
  rw [transcribable_segmentsFor]
  by_cases hnil : segmentsFor t tenant call ch = []
  · have hkeptNil : keptSegments t get tenant call ch = [] := by rw [keptSegments, hnil]; rfl
    rw [if_pos (by rw [hnil]; rfl), if_pos hkeptNil]
  rw [if_neg (by simpa using hnil), mapM_get fun _ => hstored.get_eq]
  change (if ((segmentsFor t tenant call ch).map (bodyOf get)).reduceOption.isEmpty then _
    else _) = _
  rw [reduceOption_bodyOf]
  by_cases hkeptNil : keptSegments t get tenant call ch = []
  · rw [if_pos (by rw [hkeptNil]; rfl), if_pos hkeptNil]
  rw [if_neg (by simpa using hkeptNil), if_neg hkeptNil, hdecode]
  have hpos : 0 < chunks.length := by
    rw [← hplays.length_eq, length_map]
    exact length_pos_iff.mpr hkeptNil
  have hne : chunks.flatten.isEmpty = false := by
    rw [isEmpty_eq_false_iff, ← length_pos_iff, length_flatten_of_length hlens, sampleRateHz]
    omega
  change (Except.ok (if chunks.flatten.isEmpty then none else some chunks.flatten) :
    Except AudioError _) = _
  rw [hne]
  rfl

theorem channelAudio_of_kept (hraw : codec.rawPcm = false) (hsteady : codec.decoder.Steady)
    (hstored : Stored t get tenant call ch) (hk : Kept t get tenant call ch k payload) :
    ∃ pcm, channelAudio t get codec tenant call ch = .ok (some pcm) := by
  obtain ⟨chunks, -, -, haudio⟩ := channelAudio_eq hraw hsteady hstored
  have hne : keptSegments t get tenant call ch ≠ [] :=
    ne_nil_of_mem (hstored.mem_keptSegments.mpr hk)
  exact ⟨_, by rw [haudio, if_neg hne]⟩

theorem channelAudio_some (hraw : codec.rawPcm = false) (hsteady : codec.decoder.Steady)
    (hstored : Stored t get tenant call ch)
    (hpcm : channelAudio t get codec tenant call ch = .ok (some pcm)) :
    ∃ chunks : List (List UInt8), (∀ c ∈ chunks, c.length = 2 * sampleRateHz) ∧
      Forall₂ codec.decoder.Plays ((keptSegments t get tenant call ch).map Prod.snd) chunks ∧
      (keptSegments t get tenant call ch).length = chunks.length ∧ pcm = chunks.flatten := by
  obtain ⟨chunks, hlens, hplays, haudio⟩ := channelAudio_eq hraw hsteady hstored
  refine ⟨chunks, hlens, hplays, by simpa using hplays.length_eq, ?_⟩
  rw [hpcm] at haudio
  split at haudio
  · cases haudio
  · exact Option.some.inj (ok.inj haudio)

theorem NoHole.position (hhole : NoHole t get tenant call ch)
    (hstored : Stored t get tenant call ch) {i : Nat}
    (hi : (keptSegments t get tenant call ch)[i]? = some (k, payload)) : i = k.toNat := by
  refine position_of_noHole keptSegments_increasing ?_ (by rw [getElem?_map, hi]; rfl) ?_
  · intro j hj
    obtain ⟨⟨j, p⟩, hjp, rfl⟩ := mem_map.mp hj
    exact (hhole j p (hstored.mem_keptSegments.mp hjp)).1
  intro j hj0 hjk
  have hk := hstored.mem_keptSegments.mp (mem_of_getElem? hi)
  obtain ⟨p, hp⟩ := (hhole k payload hk).2 j hj0 hjk
  exact mem_map.mpr ⟨(j, p), hstored.mem_keptSegments.mpr hp, rfl⟩

theorem samples_second (pcm : List UInt8) (i : Nat) : samples pcm (16000 * i) 16000 =
      slice pcm (2 * sampleRateHz * i) (2 * sampleRateHz * (i + 1)) := by
  have hstart : 2 * (16000 * i) = 2 * sampleRateHz * i := by rw [sampleRateHz]; omega
  have hstop : 2 * (16000 * i + 16000) = 2 * sampleRateHz * (i + 1) := by
    rw [sampleRateHz]; omega
  rw [samples, hstart, hstop]

theorem onTimeline_of_noHole (hraw : codec.rawPcm = false) (hsteady : codec.decoder.Steady)
    (hstored : Stored t get tenant call ch) (hhole : NoHole t get tenant call ch)
    (hpcm : channelAudio t get codec tenant call ch = .ok (some pcm)) :
    OnTimeline t get tenant call ch codec.decoder pcm := by
  obtain ⟨chunks, hlens, hplays, hlen, rfl⟩ := channelAudio_some hraw hsteady hstored hpcm
  refine ⟨fun k payload hk => ⟨(hhole k payload hk).1, ?_⟩, fun j hj hwithin => ?_⟩
  · obtain ⟨i, hi⟩ := getElem?_of_mem (hstored.mem_keptSegments.mpr hk)
    have hi' : i < chunks.length := by
      rw [← hlen]
      exact (List.getElem?_eq_some_iff.mp hi).1
    have hplay : codec.decoder.Plays payload chunks[i] := by
      have h := forall₂_iff_get.mp hplays
      have hsnd : ((keptSegments t get tenant call ch).map Prod.snd)[i]? = some payload := by
        rw [getElem?_map, hi]
        rfl
      obtain ⟨hi'', heq⟩ := List.getElem?_eq_some_iff.mp hsnd
      have := h.2 i hi'' hi'
      simp only [get_eq_getElem] at this
      rwa [heq] at this
    refine ⟨chunks[i], hplay, ?_⟩
    rw [← hhole.position hstored hi, samples_second]
    exact slice_flatten hlens (getElem?_eq_getElem hi')
  -- A second for which nothing is kept lies past the end.
  exfalso
  rw [length_flatten_of_length hlens, ← hlen, sampleRateHz] at hwithin
  have hj' : j < (keptSegments t get tenant call ch).length := by omega
  obtain ⟨⟨k, payload⟩, hat⟩ : ∃ r, (keptSegments t get tenant call ch)[j]? = some r :=
    ⟨_, getElem?_eq_getElem hj'⟩
  have hk := hstored.mem_keptSegments.mp (mem_of_getElem? hat)
  have hnum : (j : Int) = k :=
    calc (j : Int) = (k.toNat : Int) := congrArg Nat.cast (hhole.position hstored hat)
      _ = k := Int.toNat_of_nonneg (hhole _ _ hk).1
  exact hj payload (hnum ▸ hk)

theorem noHole_of_onTimeline (hraw : codec.rawPcm = false) (hsteady : codec.decoder.Steady)
    (hstored : Stored t get tenant call ch)
    (hpcm : channelAudio t get codec tenant call ch = .ok (some pcm))
    (h : OnTimeline t get tenant call ch codec.decoder pcm) : NoHole t get tenant call ch := by
  obtain ⟨chunks, hlens, -, hlen, rfl⟩ := channelAudio_some hraw hsteady hstored hpcm
  set kept := keptSegments t get tenant call ch
  have hbound : ∀ k payload, Kept t get tenant call ch k payload → k < kept.length := by
    intro k payload hk
    obtain ⟨hk0, audio, ⟨st, st', hplay⟩, hat⟩ := h.1 k payload hk
    obtain ⟨pcm', st'', hpcm', hlen'⟩ := hsteady.segment st (hstored.isSegment hk)
    obtain ⟨rfl, -⟩ := Prod.mk.inj (ok.inj (hplay.symm.trans hpcm'))
    have hle := length_slice_le chunks.flatten (2 * (16000 * k.toNat))
      (2 * (16000 * k.toNat + 16000))
    have hwhole := length_flatten_of_length hlens
    rw [samples] at hat
    rw [hat, hlen', hwhole, ← hlen, sampleRateHz] at hle
    omega
  have hall : (kept.map Prod.fst).toFinset = Finset.Ico 0 (kept.length : Int) := by
    refine Finset.eq_of_subset_of_card_le (fun k hk => ?_) ?_
    · obtain ⟨⟨k, p⟩, hkp, rfl⟩ := mem_map.mp (mem_toFinset.mp hk)
      have hkept := hstored.mem_keptSegments.mp hkp
      exact Finset.mem_Ico.mpr ⟨(h.1 k p hkept).1, hbound k p hkept⟩
    have hnodup : (kept.map Prod.fst).Nodup := keptSegments_increasing.imp ne_of_lt
    rw [toFinset_card_of_nodup hnodup, Int.card_Ico, length_map]
    omega
  refine fun k payload hk => ⟨(h.1 k payload hk).1, fun j hj0 hjk => ?_⟩
  have hj : j ∈ (kept.map Prod.fst).toFinset := by
    rw [hall, Finset.mem_Ico]
    exact ⟨hj0, hjk.trans (hbound k payload hk)⟩
  obtain ⟨⟨j, p⟩, hjp, rfl⟩ := mem_map.mp (mem_toFinset.mp hj)
  exact ⟨p, hstored.mem_keptSegments.mp hjp⟩

theorem channelAudio_congr {t' : MediaSegments}
    {get' : String → Except AudioError (Option (List UInt8))} (codec : SegmentCodec)
    (hrows : ∀ r, Audible tenant call ch r → (r ∈ t.rows ↔ r ∈ t'.rows))
    (hget : ∀ r ∈ t.rows, Audible tenant call ch r → get' r.2.s3Key = get r.2.s3Key) :
    channelAudio t' get' codec tenant call ch = channelAudio t get codec tenant call ch := by
  have hbodies : ∀ rows ⊆ segmentsFor t tenant call ch,
      rows.mapM (fun row => get' row.s3Key) = rows.mapM (fun row => get row.s3Key) := by
    intro rows hsub
    induction rows with
    | nil => rfl
    | cons row rows ih =>
      obtain ⟨hrow, hrest⟩ := cons_subset.mp hsub
      obtain ⟨r, hr, ha, rfl⟩ := mem_segmentsFor.mp hrow
      rw [mapM_cons, mapM_cons, hget r hr ha, ih hrest]
  unfold channelAudio
  rw [transcribable_segmentsFor, transcribable_segmentsFor, ← segmentsFor_congr hrows]
  dsimp only
  rw [hbodies _ (Subset.refl _)]

/-- **A channel's timeline.** -/
theorem channel_timeline {codec : SegmentCodec} (hraw : codec.rawPcm = false)
    (hsteady : codec.decoder.Steady) (hstored : Stored t get tenant call ch) :
    (NoHole t get tenant call ch →
      (∀ k payload, Kept t get tenant call ch k payload →
        ∃ pcm, channelAudio t get codec tenant call ch = .ok (some pcm)) ∧
      ∀ pcm, channelAudio t get codec tenant call ch = .ok (some pcm) →
        OnTimeline t get tenant call ch codec.decoder pcm) ∧
    ∀ (t' : MediaSegments) (get' : String → Except AudioError (Option (List UInt8))),
      (∀ r, Audible tenant call ch r → (r ∈ t.rows ↔ r ∈ t'.rows)) →
      (∀ r ∈ t.rows, Audible tenant call ch r → get' r.2.s3Key = get r.2.s3Key) →
      channelAudio t' get' codec tenant call ch = channelAudio t get codec tenant call ch := by
  refine ⟨fun hhole => ⟨fun k payload hk => ?_, fun pcm hpcm => ?_⟩, fun t' get' hrows hget => ?_⟩
  · exact channelAudio_of_kept hraw hsteady hstored hk
  · exact onTimeline_of_noHole hraw hsteady hstored hhole hpcm
  · exact channelAudio_congr codec hrows hget

end Timeline

/-! ## A channel with a hole -/

def fiftyPackets : List UInt8 := (List.replicate 50 [1]).flatMap (writeFrame 2)

theorem isSegment_fiftyPackets : IsSegment fiftyPackets :=
  ⟨replicate 50 (some [1]), by decide +kernel, rfl⟩

def toneDecoder : FrameDecoder where
  State := Unit
  new := ()
  decode _ packet := some (List.replicate (2 * 320) (packet.headD 0), ())

theorem toneDecoder_steady : toneDecoder.Steady :=
  fun _ packet => ⟨replicate (2 * 320) (packet.headD 0), (), rfl, length_replicate⟩

def toneCodec : SegmentCodec := { decoder := toneDecoder }

theorem toneCodec_rawPcm : toneCodec.rawPcm = false := rfl

def threeSegments : MediaSegments where
  rows := [(("c", .far, 0), ⟨"t", "k0", false, 0⟩), (("c", .far, 1), ⟨"t", "k1", false, 0⟩),
    (("c", .far, 2), ⟨"t", "k2", false, 0⟩)]
  nodup := by decide

def lacking (missing : List String) (key : String) : Except AudioError (Option (List UInt8)) :=
  .ok (if key ∈ missing then none else some fiftyPackets)

theorem stored_lacking (t : MediaSegments) (missing : List String) (tenant : String)
    (call : Uuid) (ch : Channel) : Stored t (lacking missing) tenant call ch := by
  intro r _ _
  refine ⟨_, rfl, fun payload hp => ?_⟩
  split at hp
  · cases hp
  cases hp
  exact isSegment_fiftyPackets

theorem kept_threeSegments {missing : List String} {k : Int} {payload : List UInt8} :
    Kept threeSegments (lacking missing) "t" "c" .far k payload ↔
      payload = fiftyPackets ∧ (k = 0 ∧ "k0" ∉ missing ∨ k = 1 ∧ "k1" ∉ missing ∨
        k = 2 ∧ "k2" ∉ missing) := by
  constructor
  · rintro ⟨row, hr, -, hobj⟩
    have hpay : row.s3Key ∉ missing ∧ payload = fiftyPackets := by
      unfold lacking at hobj
      split at hobj
      · cases hobj
      · exact ⟨‹_›, (Option.some.inj (ok.inj hobj)).symm⟩
    refine ⟨hpay.2, ?_⟩
    simp only [threeSegments, mem_cons, Prod.mk.injEq, true_and, not_mem_nil, or_false] at hr
    rcases hr with ⟨rfl, rfl⟩ | ⟨rfl, rfl⟩ | ⟨rfl, rfl⟩
    · exact .inl ⟨rfl, hpay.1⟩
    · exact .inr (.inl ⟨rfl, hpay.1⟩)
    · exact .inr (.inr ⟨rfl, hpay.1⟩)
  rintro ⟨rfl, ⟨rfl, h⟩ | ⟨rfl, h⟩ | ⟨rfl, h⟩⟩
  · exact ⟨⟨"t", "k0", false, 0⟩, by decide, by decide, by rw [lacking, if_neg h]⟩
  · exact ⟨⟨"t", "k1", false, 0⟩, by decide, by decide, by rw [lacking, if_neg h]⟩
  · exact ⟨⟨"t", "k2", false, 0⟩, by decide, by decide, by rw [lacking, if_neg h]⟩

/-- With every object there, the three seconds are where they belong. -/
theorem threeSegments_onTimeline :
    ∃ pcm, channelAudio threeSegments (lacking []) toneCodec "t" "c" .far = .ok (some pcm) ∧
      OnTimeline threeSegments (lacking []) "t" "c" .far toneDecoder pcm := by
  have hhole : NoHole threeSegments (lacking []) "t" "c" .far := by
    intro k payload hk
    obtain ⟨-, hk⟩ := kept_threeSegments.mp hk
    refine ⟨by omega, fun j hj0 hjk => ⟨fiftyPackets, kept_threeSegments.mpr ⟨rfl, ?_⟩⟩⟩
    simp only [not_mem_nil, not_false_eq_true, and_true] at hk ⊢
    omega
  have htimeline := (channel_timeline toneCodec_rawPcm toneDecoder_steady
    (stored_lacking threeSegments [] "t" "c" .far)).1 hhole
  have hzero : Kept threeSegments (lacking []) "t" "c" .far 0 fiftyPackets :=
    kept_threeSegments.mpr ⟨rfl, .inl ⟨rfl, not_mem_nil⟩⟩
  obtain ⟨pcm, hpcm⟩ := htimeline.1 0 fiftyPackets hzero
  exact ⟨pcm, hpcm, htimeline.2 pcm hpcm⟩

/-- **A hole shifts what comes after it.** -/
theorem gapped_not_onTimeline :
    Stored threeSegments (lacking ["k1"]) "t" "c" .far ∧
    ∃ pcm, channelAudio threeSegments (lacking ["k1"]) toneCodec "t" "c" .far = .ok (some pcm) ∧
      ¬ OnTimeline threeSegments (lacking ["k1"]) "t" "c" .far toneDecoder pcm := by
  have hstored := stored_lacking threeSegments ["k1"] "t" "c" .far
  have htwo : Kept threeSegments (lacking ["k1"]) "t" "c" .far 2 fiftyPackets :=
    kept_threeSegments.mpr ⟨rfl, by decide⟩
  obtain ⟨pcm, haudio⟩ := channelAudio_of_kept toneCodec_rawPcm toneDecoder_steady hstored htwo
  refine ⟨hstored, pcm, haudio, fun htimeline => ?_⟩
  obtain ⟨-, hbelow⟩ :=
    noHole_of_onTimeline toneCodec_rawPcm toneDecoder_steady hstored haudio htimeline 2
      fiftyPackets htwo
  obtain ⟨payload, hone⟩ := hbelow 1 (by decide) (by decide)
  have hmissing := (kept_threeSegments.mp hone).2
  revert hmissing
  decide

end Sentinel.Workers
