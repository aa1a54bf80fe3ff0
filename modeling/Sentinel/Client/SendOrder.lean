import Sentinel.Client.Observed

/-!
# The order of sending on a connection

Five pieces of the uplink's state belong to its connection: the calls started on it, the calls ended
on it, what was sent, what `resume` said, and the calls still waiting.
-/

open List Table

namespace Sentinel

open Runs History Moment

/-! ## What the uplink knows of its connection -/

namespace Uplink

variable {u : Uplink} {c d : CallId} {now : Nat} {t l : List Moment}

structure Tracks (u : Uplink) (t : List Moment) : Prop where
  started : ∀ c, c ∈ u.startedThisConnection ↔ Opened c t
  ended : ∀ c, c ∈ u.endedThisConnection ↔ Closed c t
  sent : ∀ c ch, ∀ q ∈ seqsOf c ch t, ∃ hi, u.sentThrough.get? (c, ch) = some hi ∧ q ≤ hi
  waits : ∀ a s cs b, t = a ++ .started s cs true :: b → Waited cs.callId s b ∨
    u.awaitingResume.get? cs.callId = some (saturatingAdd s resumeTimeoutMs)

def Current (now : Nat) (t : List Moment) : Prop :=
  ∀ a s cs k b, t = a ++ .started s cs k :: b → s = now ∨ .pass now ∈ b

structure Midway (now : Nat) (u : Uplink) (t : List Moment) : Prop where
  tracks : Tracks u t
  current : Current now t
  order : InOrder Waited t

theorem Tracks.of_onConnected (u : Uplink) : Tracks u.onConnected [] where
  started := fun c => by simp [onConnected, Opened]
  ended := fun c => by simp [onConnected, Closed]
  sent := fun c ch q hq => by simp [seqsOf] at hq
  waits := fun a s cs b h => by simp at h

theorem Tracks.append {v : Uplink} (h : Tracks u t) (hnone : ∀ s cs k, .started s cs k ∉ l)
    (hstarted : v.startedThisConnection = u.startedThisConnection)
    (hawaiting : v.awaitingResume = u.awaitingResume)
    (hended : ∀ c, c ∈ v.endedThisConnection ↔ c ∈ u.endedThisConnection ∨ Closed c l)
    (hsent : ∀ c ch, ∀ q ∈ seqsOf c ch t ++ seqsOf c ch l,
      ∃ hi, v.sentThrough.get? (c, ch) = some hi ∧ q ≤ hi) :
    Tracks v (t ++ l) where
  started := fun c => by
    rw [hstarted, h.started c, opened_append]
    refine ⟨.inl, fun hc => hc.resolve_right ?_⟩
    rintro ⟨s, cs, k, hm, -⟩
    exact hnone s cs k hm
  ended := fun c => by rw [hended, h.ended c, closed_append]
  sent := fun c ch q hq => hsent c ch q (seqsOf_append .. ▸ hq)
  waits := fun a s cs b hab => by
    rcases split_append hab with ⟨b', ht, rfl⟩ | ⟨a', rfl, hl⟩
    · rw [hawaiting]
      exact (h.waits a s cs b' ht).imp_left fun hw => hw.append l
    refine absurd ?_ (hnone s cs true)
    rw [hl]
    exact mem_append_right _ mem_cons_self

theorem Tracks.quiet {m : Moment} (h : Tracks u t) (hm : m.quiet) : Tracks u (t ++ [m]) := by
  have hclosed : ∀ c, ¬ Closed c [m] := by
    rintro c ⟨ce, hmem, -⟩
    rw [← mem_singleton.mp hmem] at hm
    cases hm
  have hseqs : ∀ c ch, seqsOf c ch [m] = [] := by
    intro c ch
    cases m with
    | media records => cases hm
    | _ => rfl
  refine h.append (fun s cs k hmem => ?_) rfl rfl (fun c => ?_) fun c ch q hq => ?_
  · rw [← mem_singleton.mp hmem] at hm
    cases hm
  · exact (or_iff_left (hclosed c)).symm
  rw [hseqs, append_nil] at hq
  exact h.sent c ch q hq

theorem Current.append (h : Current now t) (hl : ∀ s cs k, .started s cs k ∈ l → s = now) :
    Current now (t ++ l) := by
  intro a s cs k b hab
  rcases split_append hab with ⟨b', ht, rfl⟩ | ⟨a', rfl, hl'⟩
  · exact (h a s cs k b' ht).imp_right fun hmem => mem_append_left _ hmem
  refine .inl (hl s cs k ?_)
  rw [hl']
  simp

/-! ### The `call.start` -/

theorem Midway.start {cs : CallStart} (h : Midway now u t) (hc : c ∉ u.startedThisConnection)
    (hcs : u.spool.callStartJson c = some cs) (hid : cs.callId = c) :
    Midway now (opened now c u) (t ++ [.started now cs (locallyAcked c u)]) := by
  have hnew : ¬ Opened c t := fun ho => hc ((h.tracks.started c).mpr ho)
  have hopened : opened now c u = { u with
      startedThisConnection := insertCall c u.startedThisConnection
      awaitingResume := if isReplay c u
        then u.awaitingResume.put c (saturatingAdd now resumeTimeoutMs)
        else u.awaitingResume } := by
    have hframes : startFrames c u ≠ [] := by simp [startFrames, hc, hcs]
    rw [opened, if_neg hframes]
  rw [hopened]
  refine ⟨⟨fun d => ?_, fun d => ?_, fun d ch q hq => ?_, fun a s cs' b hab => ?_⟩,
    h.current.append fun s cs' k hmem => ?_, h.order.allowed.concat trivial, fun d ch => ?_⟩
  · rw [mem_insertCall, opened_append, h.tracks.started d]
    have hone : Opened d [.started now cs (locallyAcked c u)] ↔ d = c := by
      simp only [Opened, mem_singleton]
      constructor
      · rintro ⟨s, cs', k, he, rfl⟩
        cases he
        exact hid
      rintro rfl
      exact ⟨now, cs, _, rfl, hid⟩
    rw [hone, or_comm]
  · rw [h.tracks.ended d, closed_append]
    have hnone : ¬ Closed d [.started now cs (locallyAcked c u)] := by simp [Closed]
    exact ⟨.inl, fun hd => hd.resolve_right hnone⟩
  · rw [seqsOf_append] at hq
    exact h.tracks.sent d ch q (by simpa [seqsOf] using hq)
  · rcases split_append hab with ⟨b', ht, rfl⟩ | ⟨a', rfl, hl⟩
    · -- An earlier `call.start` was of another call, whose wait is as it was.
      have hne : cs'.callId ≠ c := by
        rintro rfl
        exact hnew ⟨s, cs', true, by rw [ht]; simp, rfl⟩
      rcases h.tracks.waits a s cs' b' ht with hw | hw
      · exact .inl (hw.append _)
      right
      split
      · rw [get?_put_ne _ hne, hw]
      · exact hw
    -- This one: a call with an acknowledgement of its own is a replay.
    have hlast : Moment.started now cs (locallyAcked c u) = .started s cs' true ∧ b = [] := by
      cases a' with
      | nil =>
        obtain ⟨he, hb⟩ := cons.inj hl
        exact ⟨he, hb.symm⟩
      | cons x a' => simp at hl
    obtain ⟨he, rfl⟩ := hlast
    obtain ⟨rfl, rfl, hacked⟩ := Moment.started.inj he
    have hreplay : isReplay c u = true := by rw [isReplay, hacked, Bool.true_or]
    right
    rw [if_pos hreplay, hid, get?_put_self]
  · cases mem_singleton.mp hmem
    rfl
  rw [seqsOf_append]
  simpa [seqsOf] using h.order.increasing d ch

/-! ### The end of a wait -/

theorem Midway.release (h : Midway now u t) (hc : ¬ holds now c u) :
    Midway now (release c u) t := by
  refine ⟨⟨h.tracks.started, h.tracks.ended, h.tracks.sent, fun a s cs b hab => ?_⟩, h.current,
    h.order⟩
  rcases h.tracks.waits a s cs b hab with hw | hw
  · exact .inl hw
  by_cases hd : cs.callId = c
  · left
    -- The deadline has passed, and the clock was read in this pass.
    rw [hd] at hw
    have hle : saturatingAdd s resumeTimeoutMs ≤ now := by
      simp only [holds, hw, Option.any_some, decide_eq_true_iff, Nat.not_lt] at hc
      exact hc
    have hcases : s + 5000 ≤ now ∨ 2 ^ 64 - 1 ≤ now := by
      unfold saturatingAdd resumeTimeoutMs at hle
      omega
    rcases h.current a s cs true b hab with rfl | hpass
    · have hend : 2 ^ 64 - 1 ≤ s := by omega
      exact .inr (.inl hend)
    rcases hcases with hlater | hend
    · exact .inl (.inr ⟨now, hpass, hlater⟩)
    · exact .inr (.inr ⟨now, hpass, hend⟩)
  right
  exact (get?_erase_ne _ hd).trans hw

/-! ### The media -/

theorem sentThrough_markAll {rows : List SegmentRow} (hcall : ∀ r ∈ rows, r.1.callId = c)
    (hrows : rows.Pairwise fun a b => a.1.channel = b.1.channel → a.1.seq < b.1.seq)
    (u : Uplink) (ch : Channel) :
    (∀ r ∈ rows, r.1.channel = ch → ∃ hi,
      (u.markAll rows).sentThrough.get? (c, ch) = some hi ∧ r.1.seq ≤ hi) ∧
    ((∀ r ∈ rows, r.1.channel ≠ ch) →
      (u.markAll rows).sentThrough.get? (c, ch) = u.sentThrough.get? (c, ch)) := by
  induction rows generalizing u with
  | nil => exact ⟨fun r hr => (by cases hr), fun _ => rfl⟩
  | cons row rows ih =>
    obtain ⟨hfirst, hrest⟩ := pairwise_cons.mp hrows
    have hrow : row.1.callId = c := hcall row mem_cons_self
    obtain ⟨hsome, hnone⟩ := ih (fun r hr => hcall r (mem_cons_of_mem _ hr)) hrest (u.mark row)
    have hmark : (u.markAll (row :: rows)) = (u.mark row).markAll rows := rfl
    rw [hmark]
    refine ⟨fun r hr hch => ?_, fun hall => ?_⟩
    · rcases mem_cons.mp hr with rfl | hr
      · by_cases hmore : ∃ x ∈ rows, x.1.channel = ch
        · obtain ⟨x, hx, hxch⟩ := hmore
          obtain ⟨hi, hget, hle⟩ := hsome x hx hxch
          have hlt : r.1.seq < x.1.seq := hfirst x hx (hch.trans hxch.symm)
          exact ⟨hi, hget, by omega⟩
        have hother : ∀ x ∈ rows, x.1.channel ≠ ch := fun x hx he => hmore ⟨x, hx, he⟩
        refine ⟨r.1.seq, ?_, le_rfl⟩
        rw [hnone hother, mark, hrow, hch]
        exact get?_put_self _ _ _
      · exact hsome r hr hch
    have hne : row.1.channel ≠ ch := hall row mem_cons_self
    rw [hnone fun r hr => hall r (mem_cons_of_mem _ hr), mark]
    exact get?_put_ne _ (fun he => hne (Prod.mk.inj he).2.symm) _

theorem seqsOf_media (d : CallId) (ch : Channel) (rows : List SegmentRow)
    {groups : List (List MediaRecord)} (hflat : groups.flatten = rows.map toRecord) :
    seqsOf d ch (groups.map .media) =
      (rows.filter fun r => r.1.callId = d ∧ r.1.channel = ch).map fun r => r.1.seq := by
  have hflatMap : seqsOf d ch (groups.map .media) =
      (groups.flatten.filter fun r => r.callId = d ∧ r.channel = ch).map (·.seq) := by
    rw [filter_flatten, map_flatten, seqsOf, flatMap_map, flatMap_def, map_map]
    rfl
  rw [hflatMap, hflat, filter_map, map_map]
  rfl

theorem outgoing_increasing (c : CallId) (u : Uplink) :
    (outgoing c u).Pairwise fun a b => a.1.channel = b.1.channel → a.1.seq < b.1.seq :=
  ((u.spool.takePending_increasing c segmentsPerPass).filter _).filter _

theorem Tracks.lt_outgoing (h : Tracks u t) {r : SegmentRow} (hr : r ∈ outgoing c u) {q : Nat}
    (hq : q ∈ seqsOf c r.1.channel t) : q < r.1.seq := by
  obtain ⟨hi, hget, hle⟩ := h.sent c r.1.channel q hq
  obtain ⟨-, hcall, hpick⟩ := mem_outgoing hr
  rw [picks, Bool.and_eq_true, hcall, hget] at hpick
  have hlt : hi < r.1.seq := by simpa using hpick.2
  omega

theorem Tracks.sent_markAll (h : Tracks u t) {ch : Channel} {q : Nat} (hq : q ∈ seqsOf d ch t ∨
      ∃ r ∈ outgoing c u, r.1.callId = d ∧ r.1.channel = ch ∧ r.1.seq = q) :
    ∃ hi, (u.markAll (outgoing c u)).sentThrough.get? (d, ch) = some hi ∧ q ≤ hi := by
  have hcall : ∀ r ∈ outgoing c u, r.1.callId = c := fun r hr => (mem_outgoing hr).2.1
  by_cases hd : d = c
  · subst hd
    obtain ⟨hsome, hnone⟩ := sentThrough_markAll hcall (outgoing_increasing d u) u ch
    rcases hq with hq | ⟨r, hr, -, hch, rfl⟩
    · by_cases hmore : ∃ x ∈ outgoing d u, x.1.channel = ch
      · obtain ⟨x, hx, rfl⟩ := hmore
        obtain ⟨hi, hget, hle⟩ := hsome x hx rfl
        have hlt := h.lt_outgoing hx hq
        exact ⟨hi, hget, by omega⟩
      rw [hnone fun x hx he => hmore ⟨x, hx, he⟩]
      exact h.sent d ch q hq
    · exact hsome r hr hch
  rw [sentThrough_markAll_ne hcall hd]
  refine h.sent d ch q (hq.resolve_right ?_)
  rintro ⟨r, hr, hrd, -⟩
  exact hd (hrd.symm.trans (hcall r hr))

theorem Midway.media (h : Midway now u t) (hc : c ∈ u.startedThisConnection)
    (hwait : u.awaitingResume.get? c = none) :
    Midway now (u.markAll (outgoing c u))
      (t ++ ((batches ((outgoing c u).map toRecord)).map .media)) := by
  set rows := outgoing c u with hrowsdef
  set groups := batches (rows.map toRecord) with hgroups
  have hflat : groups.flatten = rows.map toRecord := (batches_spec _).1
  have hcall : ∀ r ∈ rows, r.1.callId = c := fun r hr => (mem_outgoing hr).2.1
  have hnoStart : ∀ s cs k, .started s cs k ∉ groups.map Moment.media := by simp
  have hnoEnd : ∀ d, ¬ Closed d (groups.map Moment.media) := by simp [Closed]
  have hseqs : ∀ {d ch q}, q ∈ seqsOf d ch (groups.map Moment.media) →
      ∃ r ∈ rows, r.1.callId = d ∧ r.1.channel = ch ∧ r.1.seq = q := by
    intro d ch q hq
    rw [seqsOf_media d ch rows hflat] at hq
    obtain ⟨r, hr, rfl⟩ := mem_map.mp hq
    obtain ⟨hr, hsel⟩ := mem_filter.mp hr
    obtain ⟨hd, hch⟩ := of_decide_eq_true hsel
    exact ⟨r, hr, hd, hch, rfl⟩
  refine ⟨h.tracks.append hnoStart rfl rfl (fun d => ?_) fun d ch q hq => ?_,
    h.current.append fun s cs k hmem => absurd hmem (hnoStart s cs k), ?_, fun d ch => ?_⟩
  · exact (or_iff_left (hnoEnd d)).symm
  · exact h.tracks.sent_markAll ((mem_append.mp hq).imp_right hseqs)
  · refine h.order.allowed.append fun a m b hl => ?_
    obtain ⟨records, hrecords, rfl⟩ := mem_map.mp (show m ∈ groups.map Moment.media by
      rw [hl]
      exact mem_append_right _ mem_cons_self)
    intro r hr
    have hrec : r.callId = c := by
      have hmem : r ∈ rows.map toRecord := hflat ▸ mem_flatten.mpr ⟨_, hrecords, hr⟩
      obtain ⟨row, hrow, rfl⟩ := mem_map.mp hmem
      exact hcall row hrow
    have hopen : Opened c t := (h.tracks.started c).mp hc
    refine ⟨opened_append.mpr (.inl (hrec ▸ hopen)), fun x s cs y hxy hid => ?_⟩
    rcases split_append hxy with ⟨y', ht, rfl⟩ | ⟨x', rfl, ha⟩
    · -- A replayed call whose wait is not noted any more has waited.
      refine ((h.tracks.waits x s cs y' ht).resolve_right fun hw => ?_).append a
      rw [hid, hrec, hwait] at hw
      cases hw
    refine absurd ?_ (hnoStart s cs true)
    rw [hl, ha]
    simp
  rw [seqsOf_append, pairwise_append]
  refine ⟨h.order.increasing d ch, ?_, fun q hq x hx => ?_⟩
  · rw [seqsOf_media d ch rows hflat, pairwise_map]
    refine ((outgoing_increasing c u).filter _).imp_of_mem fun {a b} ha hb hab => hab ?_
    have hach : a.1.channel = ch := (of_decide_eq_true (mem_filter.mp ha).2).2
    have hbch : b.1.channel = ch := (of_decide_eq_true (mem_filter.mp hb).2).2
    exact hach.trans hbch.symm
  obtain ⟨r, hr, hrd, rfl, rfl⟩ := hseqs hx
  have hd : d = c := hrd.symm.trans (hcall r hr)
  exact h.tracks.lt_outgoing hr (hd ▸ hq)

/-! ### The `call.end` -/

theorem Midway.close {ce : CallEnd} (h : Midway now u t) (hc : c ∈ u.startedThisConnection)
    (hnew : c ∉ u.endedThisConnection) (hid : ce.callId = c) :
    Midway now { u with endedThisConnection := insertCall c u.endedThisConnection }
      (t ++ [.ended ce]) := by
  refine ⟨h.tracks.append (by simp) rfl rfl (fun d => ?_) fun d ch q hq => ?_,
    h.current.append fun s cs k hmem => by simp at hmem, ?_, fun d ch => ?_⟩
  · have hone : Closed d [.ended ce] ↔ d = c := by
      simp only [Closed, mem_singleton]
      constructor
      · rintro ⟨ce', he, rfl⟩
        cases he
        exact hid
      rintro rfl
      exact ⟨ce, rfl, hid⟩
    rw [mem_insertCall, hone, or_comm]
  · exact h.tracks.sent d ch q (by simpa [seqsOf] using hq)
  · refine h.order.allowed.concat ⟨?_, ?_⟩
    · rw [hid]
      exact (h.tracks.started c).mp hc
    rw [hid]
    exact fun hcl => hnew ((h.tracks.ended c).mpr hcl)
  rw [seqsOf_append]
  simpa [seqsOf] using h.order.increasing d ch

/-! ### A turn, a pass -/

theorem observed_congr {v : Uplink} (h : v.spool = u.spool) : v.observed now = u.observed now := by
  funext f
  cases f with
  | callStart cs =>
    unfold observed locallyAcked
    rw [h]
  | _ => rfl

theorem Midway.starting (h : Midway now u t) (hkey : c ∈ u.spool.calls.keys)
    (hlabel : ∀ cs, u.spool.callStartJson c = some cs → cs.callId = c) :
    Midway now (opened now c u) (t ++ (startFrames c u).map (u.observed now)) ∧
      c ∈ (opened now c u).startedThisConnection := by
  by_cases hc : c ∈ u.startedThisConnection
  · have hnil : startFrames c u = [] := by simp [startFrames, hc]
    rw [opened, if_pos hnil, hnil, map_nil, append_nil]
    exact ⟨h, hc⟩
  obtain ⟨cs, hcs⟩ := Option.isSome_iff_exists.mp (Spool.isSome_callStartJson.mpr hkey)
  have hid : cs.callId = c := hlabel cs hcs
  have hframes : startFrames c u = [.callStart cs] := by simp [startFrames, hc, hcs]
  have hstart := h.start hc hcs hid
  constructor
  · rwa [hframes, map_singleton, observed, hid]
  rw [opened, if_neg (by rw [hframes]; simp)]
  exact mem_insertCall.mpr (.inl rfl)

theorem Midway.closing (h : Midway now u t) (hc : c ∈ u.startedThisConnection)
    (hlabel : ∀ ce, u.spool.callEndJson c = some ce → ce.callId = c) :
    Midway now (closed c u) (t ++ (endFrames c u).map (u.observed now)) := by
  unfold closed
  by_cases hended : c ∈ u.endedThisConnection
  · have hnil : endFrames c u = [] := by simp [endFrames, hended]
    rwa [if_pos hnil, hnil, map_nil, append_nil]
  cases hce : u.spool.callEndJson c with
  | none =>
    have hnil : endFrames c u = [] := by simp [endFrames, hce]
    rwa [if_pos hnil, hnil, map_nil, append_nil]
  | some ce =>
    have hframes : endFrames c u = [.callEnd ce] := by simp [endFrames, hended, hce]
    rw [if_neg (by rw [hframes]; simp), hframes]
    exact h.close hc hended (hlabel ce hce)

theorem opened_spool (now : Nat) (c : CallId) (u : Uplink) : (opened now c u).spool = u.spool := by
  unfold opened
  split <;> rfl

theorem afterTurn_spool (now : Nat) (c : CallId) (u : Uplink) :
    (afterTurn now c u).spool = u.spool := by
  unfold afterTurn
  split
  · rfl
  split
  · exact opened_spool now c u
  unfold closed
  split <;> exact opened_spool now c u

theorem afterTurn_known (h : d ∈ (afterTurn now c u).knownCalls) : d ∈ u.knownCalls := by
  have hopened : (opened now c u).knownCalls = u.knownCalls := by
    unfold opened
    split <;> rfl
  have hclosed : ∀ v : Uplink, (closed c v).knownCalls = v.knownCalls := by
    intro v
    unfold closed
    split <;> rfl
  unfold afterTurn at h
  split at h
  · exact mem_of_mem_erase h
  split at h
  · exact hopened ▸ h
  rw [hclosed] at h
  exact hopened ▸ h

theorem observed_mediaFrames (v : Uplink) : (mediaFrames c u).map (v.observed now) =
      (batches ((outgoing c u).map toRecord)).map .media := by
  rw [mediaFrames, map_map]
  rfl

theorem Midway.turn (h : Midway now u t) (hu : Labelled u) (hkey : c ∈ u.spool.calls.keys) :
    Midway now (afterTurn now c u) (t ++ (turnFrames now c u).map (u.observed now)) := by
  unfold afterTurn turnFrames
  by_cases hsealed : u.spool.isSealed c
  · rw [if_pos hsealed, if_pos hsealed, map_nil, append_nil]
    exact ⟨⟨h.tracks.started, h.tracks.ended, h.tracks.sent, h.tracks.waits⟩, h.current, h.order⟩
  rw [if_neg hsealed, if_neg hsealed]
  obtain ⟨hstarted, hc⟩ := h.starting hkey (hu.start c)
  by_cases hholds : holds now c (opened now c u)
  · rwa [if_pos hholds, if_pos hholds, append_nil]
  rw [if_neg hholds, if_neg hholds]
  set v := Uplink.release c (opened now c u) with hv
  have hspool : v.spool = u.spool := opened_spool now c u
  have hmedia : Midway now (v.markAll (outgoing c v)) _ :=
    (hstarted.release hholds).media hc (get?_erase_self _ _)
  have hlabel : ∀ ce, (v.markAll (outgoing c v)).spool.callEndJson c = some ce →
      ce.callId = c := by
    intro ce hce
    exact hu.stop c ce (hspool ▸ hce)
  have hclosed := hmedia.closing hc hlabel
  have hobs : (v.markAll (outgoing c v)).observed now = u.observed now :=
    observed_congr hspool
  rw [hobs, append_assoc, append_assoc] at hclosed
  rwa [map_append, map_append, observed_mediaFrames]

theorem Midway.turns {cs : List CallId} (h : Midway now u t) (hu : Labelled u)
    (hcs : ∀ c ∈ cs, c ∈ u.spool.calls.keys) :
    Midway now (afterTurns now cs u) (t ++ (turns now cs u).map (u.observed now)) := by
  induction cs generalizing u t with
  | nil =>
    rwa [turns, map_nil, append_nil]
  | cons c cs ih =>
    have hspool := afterTurn_spool now c u
    have hturn := h.turn hu (hcs c mem_cons_self)
    have hafter := hu.congr (congrArg Spool.calls hspool) fun d hd => hu.known d (afterTurn_known hd)
    have hrest := ih hturn hafter fun d hd =>
      hspool ▸ hcs d (mem_cons_of_mem _ hd)
    rwa [observed_congr hspool, append_assoc, ← map_append] at hrest

theorem Tracks.midway (h : Tracks u t) (horder : InOrder Waited t) (now : Nat) :
    Midway now u (t ++ [.pass now]) := by
  refine ⟨h.quiet rfl, fun a s cs k b hab => .inr ?_, horder.quiet rfl⟩
  rcases split_append hab with ⟨b', -, rfl⟩ | ⟨a', -, hl⟩
  · simp
  cases a' with
  | nil => cases (cons.inj hl).1
  | cons x a' => simp at hl

theorem Tracks.pass (h : Tracks u t) (horder : InOrder Waited t) (hu : Labelled u) (now : Nat) :
    Midway now (afterPass now u) (t ++ .pass now :: (passFrames now u).map (u.observed now)) := by
  have hmid := h.midway horder now
  have hmid' : Midway now { u with knownCalls := u.passCalls } (t ++ [.pass now]) :=
    ⟨⟨hmid.tracks.started, hmid.tracks.ended, hmid.tracks.sent, hmid.tracks.waits⟩, hmid.current,
      hmid.order⟩
  have hlabelled : Labelled { u with knownCalls := u.passCalls } :=
    hu.congr rfl fun c hc => hu.mem_keys hc
  have hkeys : ∀ c ∈ u.passCalls, c ∈ u.spool.calls.keys := fun c hc => hu.mem_keys hc
  have hturns := hmid'.turns hlabelled hkeys
  rwa [append_assoc, singleton_append] at hturns

/-! ### What arrives -/

theorem Tracks.got (h : Tracks u t) (now : Nat) (m : ServerMessage) :
    Tracks (received now u m) (t ++ [.got m]) := by
  have hquiet : Tracks u (t ++ [.got m]) := h.quiet rfl
  rcases received_cases now u m with ⟨_, _, _, -, he⟩ | ⟨c, acked, rfl, he⟩ | ⟨_, -, -, he⟩ |
    ⟨_, he⟩ <;> rw [he]
  case inr.inl =>
    refine ⟨hquiet.started, hquiet.ended, hquiet.sent, fun a s cs b hab => ?_⟩
    rcases split_append hab with ⟨b', ht, rfl⟩ | ⟨a', -, hl⟩
    · by_cases hid : cs.callId = c
      · left
        rw [hid]
        exact .inl (.inl ⟨acked, by simp⟩)
      refine (hquiet.waits a s cs _ hab).imp_right fun hw => ?_
      exact (get?_erase_ne _ hid).trans hw
    cases a' with
    | nil => cases (cons.inj hl).1
    | cons x a' => simp at hl
  all_goals exact ⟨hquiet.started, hquiet.ended, hquiet.sent, hquiet.waits⟩

theorem Tracks.read (h : Tracks u t) (horder : InOrder Waited t) (now : Nat)
    (msgs : List ServerMessage) :
    Tracks (msgs.foldl (received now) u) (t ++ msgs.map .got) ∧
      InOrder Waited (t ++ msgs.map .got) := by
  induction msgs generalizing u t with
  | nil =>
    rw [map_nil, append_nil]
    exact ⟨h, horder⟩
  | cons m msgs ih =>
    have hrest := ih (h.got now m) (horder.quiet (m := .got m) rfl)
    rwa [append_assoc, singleton_append] at hrest

end Uplink

/-! ## Runs -/

namespace Observed

open Uplink

structure Sound (o : Observed) : Prop where
  labelled : Labelled o.up
  order : InOrder Waited o.trace
  tracks : o.up.connected = true → Tracks o.up o.trace

theorem Sound.pump {o : Observed} (h : o.Sound) (now : Nat) (env : PumpEnv)
    (incoming : List ServerMessage) : (o.pump now env incoming).Sound := by
  have hlabelled : Labelled (o.up.pump now env incoming).up := by
    rcases pump_spec h.labelled now env incoming with ⟨-, p, msgs, hp⟩ | ⟨-, -, t, hr⟩
    · exact hp.labelled h.labelled
    rw [hr]
    exact h.labelled.congr rfl h.labelled.known
  unfold Observed.pump
  rcases pump_cases o.up now env incoming with ⟨hconn, hcases⟩ | ⟨hconn, hdials, t, hr⟩
  · rw [if_pos (by simpa using hconn)]
    -- The history the pass continues, and the uplink it starts from.
    set t := if o.up.connected then o.trace else [] with ht
    have htracks : Tracks o.up.sender t ∧ InOrder Waited t := by
      rw [ht, sender]
      cases hc : o.up.connected with
      | true => exact ⟨h.tracks hc, h.order⟩
      | false => exact ⟨.of_onConnected _, ⟨each_nil, fun c ch => .nil⟩⟩
    have hspool : o.up.sender.spool = o.up.spool := by
      unfold sender
      split <;> rfl
    have hpass := htracks.1.pass htracks.2 h.labelled.sender now
    rw [observed_congr hspool] at hpass
    have hwrites := sendPending_writes o.up.sender now env.budget
    rcases hcases with ⟨p, hp, hr⟩ | ⟨p, hp, hout, -, hup⟩
    · have hpre : p.out <+: passFrames now o.up.sender := by simpa using (hwrites.error p hp).1
      have hheard : o.up.heard now env incoming = [] := by
        unfold heard
        rw [hp]
      rw [hheard, map_nil, append_nil]
      refine ⟨hlabelled, hpass.order.of_prefix ?_, fun hc => ?_⟩
      · rw [hr]
        exact prefix_append_right_inj t |>.mpr ((prefix_cons_inj _).mpr (hpre.map _))
      rw [hr] at hc
      cases hc
    obtain ⟨hpout, hpup⟩ := hwrites.ok p hp
    have hheard : o.up.heard now env incoming = readable incoming := by
      unfold heard
      rw [hp]
    have hread := hpass.tracks.read hpass.order now (readable incoming)
    rw [hheard, hout, show p.out = passFrames now o.up.sender by simpa using hpout]
    rw [hpup] at hup
    refine ⟨hlabelled, hread.2, fun hc => ?_⟩
    rcases hup with ⟨-, he⟩ | he
    · rw [he]
      exact hread.1
    rw [he] at hc
    cases hc
  rw [if_neg (by simp [hconn, hdials])]
  refine ⟨hlabelled, h.order, fun hc => ?_⟩
  rw [hr] at hc
  cases hconn.symm.trans hc

theorem Sound.step {o : Observed} (h : o.Sound) (op : UplinkOp) : (o.step op).Sound := by
  cases op with
  | beginCall cs now =>
    refine ⟨h.labelled.beginCall cs now, h.order, fun hc => ?_⟩
    have ht := h.tracks hc
    exact ⟨ht.started, ht.ended, ht.sent, ht.waits⟩
  | push row =>
    unfold Observed.step
    dsimp only
    split
    · rename_i up hr
      obtain ⟨spool, ev, hpush, rfl⟩ := pushSegment_ok hr
      have hcalls : spool.calls = o.up.spool.calls := (Spool.push_ok hpush).2.1
      refine ⟨h.labelled.congr hcalls h.labelled.known, h.order, fun hc => ?_⟩
      have ht := h.tracks hc
      exact ⟨ht.started, ht.ended, ht.sent, ht.waits⟩
    · exact h
  | endCall ce =>
    refine ⟨h.labelled.endCall ce, h.order, fun hc => ?_⟩
    have ht := h.tracks hc
    exact ⟨ht.started, ht.ended, ht.sent, ht.waits⟩
  | pump now env incoming => exact h.pump now env incoming
  | takeEvents =>
    refine ⟨h.labelled.congr rfl h.labelled.known, h.order, fun hc => ?_⟩
    have ht := h.tracks hc
    exact ⟨ht.started, ht.ended, ht.sent, ht.waits⟩
  | restart => exact ⟨labelled_new h.labelled, h.order, fun hc => by cases hc⟩

/-- **Every connection sends in order.** -/
theorem sends_in_order (s : Spool) (hs : Labelled (.new s)) (ops : List UplinkOp) :
    InOrder Waited (run step { up := .new s } ops).trace := by
  have hstart : Sound { up := .new s } :=
    ⟨hs, ⟨each_nil, fun c ch => .nil⟩, fun hc => by cases hc⟩
  exact (run_invariant hstart (fun o op ho => ho.step op) ops).order

def farRow (seq : Nat) : SegmentRow := (⟨"call-1", .far, seq⟩, ⟨1000 * seq, {}, [], 0⟩)

def firstCall : CallStart :=
  { callId := "call-1", startedAt := "t", userUid := "alice", deviceId := "pc" }

def ackedRun : List UplinkOp :=
  [.beginCall firstCall 0, .push (farRow 0), .push (farRow 1),
    .pump 0 {} [.ack "call-1" .far 0], .restart]

def resumedRun : List UplinkOp :=
  ackedRun ++ [.pump 100 {} [.resume "call-1" fun _ => some 0], .pump 200 {} []]

theorem resumedRun_in_order :
    (run step { up := .new {} } resumedRun).trace =
        [.pass 100, .started 100 firstCall true, .got (.resume "call-1" fun _ => some 0),
          .pass 200, .media [toRecord (farRow 1)]] ∧
      InOrder Waited (run step { up := .new {} } resumedRun).trace :=
  ⟨by decide +kernel,
    sends_in_order {} ⟨nofun, nofun, nofun⟩ resumedRun⟩

def lastReadingRun : List UplinkOp := ackedRun ++ [.pump (2 ^ 64 - 1) {} []]

/-- At the last reading of the clock the deadline is that reading, and media goes out with the
`call.start`: no `resume` has come and no time has passed. -/
theorem lastReadingRun_does_not_wait :
    ¬ InOrder Answered (run step { up := .new {} } lastReadingRun).trace := by
  have htrace : (run step { up := .new {} } lastReadingRun).trace =
      [.pass (2 ^ 64 - 1), .started (2 ^ 64 - 1) firstCall true] ++
        .media [toRecord (farRow 1)] :: [] := by decide +kernel
  intro h
  have hallowed := h.allowed _ _ _ htrace (toRecord (farRow 1)) (by simp)
  rcases hallowed.2 [.pass (2 ^ 64 - 1)] _ _ [] rfl rfl with ⟨acked, hmem⟩ | ⟨m, hmem, -⟩
  · cases hmem
  · cases hmem

end Observed

end Sentinel
