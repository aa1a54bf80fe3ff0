import Sentinel.Client.SendPass

/-!
# A send pass, call by call

A send pass gives each call one turn: its `call.start` if this connection has not had it, then the
rows read from the spool, then its `call.end`.
-/

open List Table

namespace Sentinel

/-! ## Messages out of records -/

def batches (records : List MediaRecord) : List (List MediaRecord) :=
  if records.length < segmentsPerMessage then (if records = [] then [] else [records])
  else records.take segmentsPerMessage :: batches (records.drop segmentsPerMessage)
termination_by records.length
decreasing_by
  rw [length_drop]
  simp only [segmentsPerMessage] at *
  omega

@[simp] theorem batches_nil : batches [] = [] := by
  rw [batches]
  simp [segmentsPerMessage]

theorem batches_of_lt {records : List MediaRecord} (h : records.length < segmentsPerMessage)
    (hne : records ≠ []) : batches records = [records] := by
  rw [batches, if_pos h, if_neg hne]

theorem batches_append {g : List MediaRecord} (h : g.length = segmentsPerMessage)
    (records : List MediaRecord) : batches (g ++ records) = g :: batches records := by
  have hlen : ¬ (g ++ records).length < segmentsPerMessage := by
    rw [length_append]
    omega
  rw [batches, if_neg hlen, ← h, take_left, drop_left]

theorem batches_spec (records : List MediaRecord) : (batches records).flatten = records ∧
      ∀ g ∈ batches records, g ≠ [] ∧ g.length ≤ segmentsPerMessage := by
  induction hn : records.length using Nat.strong_induction_on generalizing records with
  | _ n ih =>
    by_cases hlt : records.length < segmentsPerMessage
    · by_cases hne : records = []
      · rw [hne, batches_nil]
        simp
      rw [batches_of_lt hlt hne]
      simp only [flatten_singleton, mem_singleton, forall_eq, true_and]
      exact ⟨hne, hlt.le⟩
    have htake : (records.take segmentsPerMessage).length = segmentsPerMessage := by
      rw [length_take]
      omega
    have hdrop : (records.drop segmentsPerMessage).length < n := by
      rw [length_drop, hn]
      simp only [segmentsPerMessage] at *
      omega
    obtain ⟨hflat, hsize⟩ := ih _ hdrop (records.drop segmentsPerMessage) rfl
    have hsplit : batches records =
        records.take segmentsPerMessage :: batches (records.drop segmentsPerMessage) := by
      rw [batches, if_neg hlt]
    rw [hsplit]
    constructor
    · rw [flatten_cons, hflat, take_append_drop]
    intro g hg
    rcases mem_cons.mp hg with rfl | hg
    · refine ⟨fun h => ?_, htake.le⟩
      rw [h] at htake
      cases htake
    · exact hsize g hg

namespace Uplink

variable {u v : Uplink} {p : SendPass} {c d : CallId} {now : Nat}

/-! ## What the socket lets through -/

structure Writes (p : SendPass) (fs : List ClientFrame) (u' : Uplink)
    (r : Except SendPass SendPass) : Prop where
  ok : ∀ p', r = .ok p' → p'.out = p.out ++ fs ∧ p'.up = u'
  error : ∀ p', r = .error p' → p'.out <+: p.out ++ fs ∧ p'.up.spool = p.up.spool
  spool : u'.spool = p.up.spool

theorem Writes.nil (p : SendPass) : Writes p [] p.up (.ok p) :=
  ⟨fun p' h => (by cases h; simp), fun p' h => (by cases h), rfl⟩

variable {r : Except SendPass SendPass} {point : ResumePoint} {row : SegmentRow}
  {rows : List SegmentRow}

variable {fs gs : List ClientFrame} {cs : List CallId}

theorem Writes.after {q : SendPass} {u' : Uplink}
    (hout : q.out = p.out ++ fs) (hspool : q.up.spool = p.up.spool) (h : Writes q gs u' r) :
    Writes p (fs ++ gs) u' r := by
  refine ⟨fun p' hp' => ?_, fun p' hp' => ?_, h.spool.trans hspool⟩
  · obtain ⟨hout', hup'⟩ := h.ok p' hp'
    rw [hout', hout, append_assoc]
    exact ⟨rfl, hup'⟩
  obtain ⟨hpre, hsame⟩ := h.error p' hp'
  rw [hout, append_assoc] at hpre
  exact ⟨hpre, hsame.trans hspool⟩

theorem Writes.bind {u₁ u₂ : Uplink}
    {k : SendPass → Except SendPass SendPass} (hr : Writes p fs u₁ r)
    (hk : ∀ p₁, p₁.up = u₁ → Writes p₁ gs u₂ (k p₁)) : Writes p (fs ++ gs) u₂ (r >>= k) := by
  cases r with
  | error p₁ =>
    obtain ⟨hpre, hsame⟩ := hr.error p₁ rfl
    have hlast : u₂.spool = u₁.spool := (hk { p₁ with up := u₁ } rfl).spool
    refine ⟨fun p' h => (by cases h), fun p' h => ?_, hlast.trans hr.spool⟩
    cases h
    rw [← append_assoc]
    exact ⟨hpre.trans (prefix_append _ _), hsame⟩
  | ok p₁ =>
    obtain ⟨hout, hup⟩ := hr.ok p₁ rfl
    exact .after hout (hup ▸ hr.spool) (hk p₁ hup)

theorem transmit_writes (p : SendPass) (f : ClientFrame) : Writes p [f] p.up (transmit p f) := by
  rcases transmit_cases p f with ⟨b, -, he⟩ | ⟨-, he⟩
  · rw [he]
    refine ⟨fun p' h => ?_, fun p' h => (by cases h), rfl⟩
    cases h
    exact ⟨rfl, rfl⟩
  rw [he]
  refine ⟨fun p' h => (by cases h), fun p' h => ?_, rfl⟩
  cases h
  exact ⟨prefix_append _ _, rfl⟩

/-! ## The rows of a turn -/

def picks (point : ResumePoint) (u : Uplink) (row : SegmentRow) : Bool :=
  shouldSend point row.1.channel row.1.seq &&
    !(u.sentThrough.get? (row.1.callId, row.1.channel)).any (row.1.seq ≤ ·)

def encodable (row : SegmentRow) : Bool := row.2.payload.length < 2 ^ 16

def mark (u : Uplink) (row : SegmentRow) : Uplink :=
  { u with sentThrough := u.sentThrough.put (row.1.callId, row.1.channel) row.1.seq }

def markAll (u : Uplink) (rows : List SegmentRow) : Uplink :=
  { u with sentThrough :=
      rows.foldl (fun t row => t.put (row.1.callId, row.1.channel) row.1.seq) u.sentThrough }

def selected (c : CallId) (u : Uplink) : List SegmentRow :=
  (u.spool.takePending c segmentsPerPass).filter (picks (u.resumePointFor c) u)

def outgoing (c : CallId) (u : Uplink) : List SegmentRow := (selected c u).filter encodable

theorem picks_mark {r : SegmentRow} (hrow : picks point u row)
    (hlater : row.1.channel = r.1.channel → row.1.seq < r.1.seq) :
    picks point (u.mark row) r = picks point u r := by
  unfold picks mark
  congr 2
  rw [get?_put]
  by_cases hkey : (r.1.callId, r.1.channel) = (row.1.callId, row.1.channel)
  · have hch : row.1.channel = r.1.channel := (Prod.mk.inj hkey).2.symm
    have hlt : row.1.seq < r.1.seq := hlater hch
    rw [if_pos hkey, hkey]
    have hmark : (some row.1.seq).any (r.1.seq ≤ ·) = false := by simpa using hlt
    rw [hmark]
    unfold picks at hrow
    cases hsent : u.sentThrough.get? (row.1.callId, row.1.channel) with
    | none => rfl
    | some hi =>
      have hhi : hi < row.1.seq := by
        rw [hsent] at hrow
        simpa using (Bool.and_eq_true_iff.mp hrow).2
      have hpast : ¬ r.1.seq ≤ hi := by omega
      simp [hpast]
  · rw [if_neg hkey]

theorem sendRows_of_not_picks (hpick : ¬ picks point p.up row) (rows : List SegmentRow)
    (batch : List MediaRecord) :
    ∃ skipped, sendRows point (row :: rows) batch p =
      sendRows point rows batch { p with skipped := skipped } := by
  rw [sendRows]
  by_cases hshould : shouldSend point row.1.channel row.1.seq
  · have hany : (p.up.sentThrough.get? (row.1.callId, row.1.channel)).any (row.1.seq ≤ ·) := by
      rwa [picks, hshould, Bool.true_and, Bool.not_eq_true', Bool.not_eq_false] at hpick
    rw [if_neg (by rw [hshould]; simp), if_pos hany]
    exact ⟨p.skipped, rfl⟩
  rw [if_pos (by simpa using hshould)]
  exact ⟨p.skipped ++ [row], rfl⟩

theorem sendRows_of_picks (hpick : picks point p.up row) (rows : List SegmentRow)
    (batch : List MediaRecord) :
    sendRows point (row :: rows) batch p =
      if encodable row then if (batch ++ [toRecord row]).length = segmentsPerMessage then
          transmit { p with up := p.up.mark row, sent := p.sent + 1 }
            (.media (batch ++ [toRecord row])) >>= sendRows point rows []
        else sendRows point rows (batch ++ [toRecord row])
          { p with up := p.up.mark row, sent := p.sent + 1 }
      else sendRows point rows batch p := by
  rw [picks, Bool.and_eq_true, Bool.not_eq_true'] at hpick
  rw [sendRows, if_neg (by rw [hpick.1]; simp), if_neg (by rw [hpick.2]; simp)]
  by_cases hlen : 65535 < row.2.payload.length
  · have henc : ¬ encodable row := by
      rw [encodable, decide_eq_true_iff]
      omega
    rw [if_pos hlen, if_neg henc]
  have henc : encodable row := by
    rw [encodable, decide_eq_true_iff]
    omega
  rw [if_neg hlen, if_pos henc]
  dsimp only [mark]
  split
  · cases transmit _ (.media (batch ++ [toRecord row])) <;> rfl
  · rfl

theorem sendRows_writes {batch : List MediaRecord}
    (hrows : rows.Pairwise fun a b => a.1.channel = b.1.channel → a.1.seq < b.1.seq)
    (hbatch : batch.length < segmentsPerMessage) (p : SendPass) {sends : List SegmentRow}
    (hsends : sends = (rows.filter (picks point p.up)).filter encodable) :
    (∀ p' rest, sendRows point rows batch p = .ok (p', rest) →
      ∃ groups, batches (batch ++ sends.map toRecord) = groups ++ batches rest ∧
        p'.out = p.out ++ groups.map .media ∧ p'.up = p.up.markAll sends ∧
        rest.length < segmentsPerMessage) ∧
    ∀ p', sendRows point rows batch p = .error p' →
      p'.out <+: p.out ++ (batches (batch ++ sends.map toRecord)).map .media ∧
        p'.up.spool = p.up.spool := by
  induction rows generalizing batch p sends with
  | nil =>
    subst hsends
    refine ⟨fun p' rest h => ?_, fun p' h => (by cases h)⟩
    cases h
    exact ⟨[], by simp, by simp, rfl, hbatch⟩
  | cons row rows ih =>
    obtain ⟨hfirst, hrest⟩ := pairwise_cons.mp hrows
    by_cases hpick : picks point p.up row
    · rw [sendRows_of_picks hpick]
      by_cases henc : encodable row
      · have hcons : sends =
            row :: (rows.filter (picks point (p.up.mark row))).filter encodable := by
          rw [hsends, filter_cons_of_pos hpick, filter_cons_of_pos henc,
            filter_congr fun r hr => picks_mark hpick (hfirst r hr)]
        have hshift : batch ++ sends.map toRecord = (batch ++ [toRecord row]) ++
            ((rows.filter (picks point (p.up.mark row))).filter encodable).map toRecord := by
          rw [hcons, map_cons, append_assoc, singleton_append]
        rw [if_pos henc]
        by_cases hfull : (batch ++ [toRecord row]).length = segmentsPerMessage
        · rw [if_pos hfull, hshift, batches_append hfull]
          rcases transmit_cases { p with up := p.up.mark row, sent := p.sent + 1 }
            (.media (batch ++ [toRecord row])) with ⟨b, -, he⟩ | ⟨-, he⟩
          · rw [he]
            have hempty : ([] : List MediaRecord).length < segmentsPerMessage := by decide
            obtain ⟨hok, herr⟩ := ih hrest hempty { p with
              up := p.up.mark row
              out := p.out ++ [.media (batch ++ [toRecord row])]
              budget := b
              sent := p.sent + 1 } rfl
            rw [nil_append] at hok herr
            constructor
            · intro p' rest h
              obtain ⟨groups, hgroups, hout', hup', hrestlen⟩ := hok p' rest h
              refine ⟨(batch ++ [toRecord row]) :: groups, ?_, ?_, ?_, hrestlen⟩
              · rw [hgroups, cons_append]
              · rw [hout', map_cons, append_assoc, singleton_append]
              rw [hup', hcons]
              rfl
            intro p' h
            obtain ⟨hpre, hsame⟩ := herr p' h
            rw [append_assoc, singleton_append, ← map_cons] at hpre
            exact ⟨hpre, hsame⟩
          rw [he]
          refine ⟨fun p' rest h => (by cases h), fun p' h => ?_⟩
          cases h
          exact ⟨prefix_append _ _, rfl⟩
        rw [if_neg hfull, hshift]
        have hshort : (batch ++ [toRecord row]).length < segmentsPerMessage := by
          have hone : (batch ++ [toRecord row]).length = batch.length + 1 := by simp
          omega
        obtain ⟨hok, herr⟩ := ih hrest hshort { p with up := p.up.mark row, sent := p.sent + 1 } rfl
        refine ⟨fun p' rest h => ?_, herr⟩
        obtain ⟨groups, hgroups, hout', hup', hrestlen⟩ := hok p' rest h
        refine ⟨groups, hgroups, hout', ?_, hrestlen⟩
        rw [hup', hcons]
        rfl
      rw [if_neg henc]
      refine ih hrest hbatch p ?_
      rw [hsends, filter_cons_of_pos hpick, filter_cons_of_neg henc]
    obtain ⟨skipped, hskip⟩ := sendRows_of_not_picks hpick rows batch
    rw [hskip]
    refine ih hrest hbatch { p with skipped := skipped } ?_
    rw [hsends, filter_cons_of_neg hpick]

theorem sendMedia_writes (c : CallId) (p : SendPass) :
    Writes p ((batches ((outgoing c p.up).map toRecord)).map .media)
      (p.up.markAll (outgoing c p.up)) (sendMedia c p) := by
  have hempty : ([] : List MediaRecord).length < segmentsPerMessage := by decide
  have houtgoing : outgoing c p.up = ((p.up.spool.takePending c segmentsPerPass).filter
    (picks (p.up.resumePointFor c) p.up)).filter encodable := rfl
  obtain ⟨hok, herr⟩ := sendRows_writes
    (p.up.spool.takePending_increasing c segmentsPerPass) hempty p houtgoing
  rw [nil_append] at hok herr
  unfold sendMedia
  cases hr : sendRows (p.up.resumePointFor c) (p.up.spool.takePending c segmentsPerPass) [] p with
  | error q =>
    refine ⟨fun p' h => (by cases h), fun p' h => ?_, rfl⟩
    cases h
    exact herr q hr
  | ok r =>
    obtain ⟨q, rest⟩ := r
    obtain ⟨groups, hgroups, hout, hup, hlen⟩ := hok q rest hr
    rw [hgroups]
    cases rest with
    | nil =>
      refine ⟨fun p' h => ?_, fun p' h => (by cases h), rfl⟩
      cases h
      rw [batches_nil, append_nil]
      exact ⟨hout, hup⟩
    | cons r rs =>
      have hspool : q.up.spool = p.up.spool := by
        rw [hup]
        rfl
      rw [batches_of_lt hlen (by simp), map_append, ← hup]
      exact .after hout hspool (transmit_writes q (.media (r :: rs)))

/-! ## A turn -/

def startFrames (c : CallId) (u : Uplink) : List ClientFrame :=
  if c ∈ u.startedThisConnection then []
  else (u.spool.callStartJson c).toList.map .callStart

def locallyAcked (c : CallId) (u : Uplink) : Bool := u.spool.acks.keys.any fun k => k.1 = c

def isReplay (c : CallId) (u : Uplink) : Bool :=
  locallyAcked c u || u.sentThrough.keys.any fun k => k.1 = c

def opened (now : Nat) (c : CallId) (u : Uplink) : Uplink :=
  if startFrames c u = [] then u
  else { u with
    startedThisConnection := insertCall c u.startedThisConnection
    awaitingResume := if isReplay c u
      then u.awaitingResume.put c (saturatingAdd now resumeTimeoutMs) else u.awaitingResume }

def holds (now : Nat) (c : CallId) (u : Uplink) : Bool :=
  (u.awaitingResume.get? c).any (now < ·)

def release (c : CallId) (u : Uplink) : Uplink :=
  { u with awaitingResume := u.awaitingResume.erase c }

def endFrames (c : CallId) (u : Uplink) : List ClientFrame :=
  if c ∈ u.endedThisConnection then []
  else (u.spool.callEndJson c).toList.map .callEnd

def closed (c : CallId) (u : Uplink) : Uplink :=
  if endFrames c u = [] then u
  else { u with endedThisConnection := insertCall c u.endedThisConnection }

def mediaFrames (c : CallId) (u : Uplink) : List ClientFrame :=
  (batches ((outgoing c u).map toRecord)).map .media

def turnFrames (now : Nat) (c : CallId) (u : Uplink) : List ClientFrame :=
  if u.spool.isSealed c then []
  else startFrames c u ++
    if holds now c (opened now c u) then []
    else mediaFrames c (opened now c u) ++ endFrames c (opened now c u)

def afterTurn (now : Nat) (c : CallId) (u : Uplink) : Uplink :=
  if u.spool.isSealed c then { u with knownCalls := u.knownCalls.erase c }
  else if holds now c (opened now c u) then opened now c u
  else closed c ((release c (opened now c u)).markAll (outgoing c (opened now c u)))

theorem transmit_noting_writes (f : ClientFrame) (note : Uplink → Uplink)
    (herr : transmit p f = .error p → r = .error p)
    (hok : ∀ p₁, transmit p f = .ok p₁ → r = .ok { p₁ with up := note p₁.up })
    (hnote : (note p.up).spool = p.up.spool) : Writes p [f] (note p.up) r := by
  rcases transmit_cases p f with ⟨b, -, he⟩ | ⟨-, he⟩
  · rw [hok _ he]
    refine ⟨fun p' h => ?_, fun p' h => (by cases h), hnote⟩
    cases h
    exact ⟨rfl, rfl⟩
  rw [herr he]
  refine ⟨fun p' h => (by cases h), fun p' h => ?_, hnote⟩
  cases h
  exact ⟨prefix_append _ _, rfl⟩

theorem sendStart_writes (now : Nat) (c : CallId) (p : SendPass) :
    Writes p (startFrames c p.up) (opened now c p.up) (sendStart now c p) := by
  unfold sendStart opened startFrames
  by_cases hc : c ∈ p.up.startedThisConnection
  · simp only [if_pos hc]
    exact .nil p
  simp only [if_neg hc]
  cases hcs : p.up.spool.callStartJson c with
  | none =>
    exact .nil p
  | some cs =>
    dsimp only
    refine transmit_noting_writes (.callStart cs) (fun u => { u with
        startedThisConnection := insertCall c u.startedThisConnection
        awaitingResume := if isReplay c u
          then u.awaitingResume.put c (saturatingAdd now resumeTimeoutMs)
          else u.awaitingResume }) (fun he => ?_) (fun p₁ he => ?_) rfl
    · rw [he]
    rw [he]
    rfl

theorem sendEnd_writes (c : CallId) (p : SendPass) :
    Writes p (endFrames c p.up) (closed c p.up) (sendEnd c p) := by
  unfold sendEnd closed endFrames
  by_cases hc : c ∈ p.up.endedThisConnection
  · simp only [if_pos hc]
    exact .nil p
  simp only [if_neg hc]
  cases hce : p.up.spool.callEndJson c with
  | none =>
    exact .nil p
  | some ce =>
    dsimp only
    refine transmit_noting_writes (.callEnd ce) (fun u => { u with
        endedThisConnection := insertCall c u.endedThisConnection }) (fun he => ?_)
      (fun p₁ he => ?_) rfl
    · rw [he]
    · rw [he]

theorem sendMedia_sendEnd_writes (c : CallId) (p : SendPass) (hup : p.up = release c u) :
    Writes p (mediaFrames c u ++ endFrames c u)
      (closed c ((release c u).markAll (outgoing c u))) (sendMedia c p >>= sendEnd c) := by
  have hmedia := sendMedia_writes c p
  rw [hup] at hmedia
  refine hmedia.bind fun p₁ hp₁ => ?_
  have hend := sendEnd_writes c p₁
  rwa [hp₁] at hend

theorem sendCall_writes (now : Nat) (c : CallId) (p : SendPass) :
    Writes p (turnFrames now c p.up) (afterTurn now c p.up) (sendCall now c p) := by
  unfold sendCall turnFrames afterTurn
  by_cases hsealed : p.up.spool.isSealed c
  · simp only [if_pos hsealed]
    refine ⟨fun p' h => ?_, fun p' h => (by cases h), rfl⟩
    cases h
    exact ⟨by simp, rfl⟩
  simp only [if_neg hsealed]
  refine (sendStart_writes now c p).bind fun p₁ hup => ?_
  rw [← hup]
  cases hwait : p₁.up.awaitingResume.get? c with
  | none =>
    have hholds : ¬ holds now c p₁.up := by simp [holds, hwait]
    have hrelease : release c p₁.up = p₁.up := by
      rw [release, erase_of_get?_eq_none hwait]
    simp only [if_neg hholds]
    exact sendMedia_sendEnd_writes c p₁ hrelease.symm
  | some deadline =>
    by_cases hlt : now < deadline
    · have hholds : holds now c p₁.up := by simp [holds, hwait, hlt]
      simp only [if_pos hholds, if_pos hlt]
      exact .nil p₁
    have hholds : ¬ holds now c p₁.up := by
      simp only [holds, hwait, Option.any_some, decide_eq_true_iff]
      exact hlt
    simp only [if_neg hholds, if_neg hlt]
    have hrest := sendMedia_sendEnd_writes c { p₁ with up := release c p₁.up } rfl
    exact ⟨hrest.ok, hrest.error, hrest.spool⟩

/-! ## One call's bookkeeping and another's -/

structure SameFor (c : CallId) (u v : Uplink) : Prop where
  spool : v.spool = u.spool
  resumePoints : v.resumePoints = u.resumePoints
  started : c ∈ v.startedThisConnection ↔ c ∈ u.startedThisConnection
  ended : c ∈ v.endedThisConnection ↔ c ∈ u.endedThisConnection
  sent : ∀ ch, v.sentThrough.get? (c, ch) = u.sentThrough.get? (c, ch)
  awaiting : v.awaitingResume.get? c = u.awaitingResume.get? c

theorem SameFor.refl (c : CallId) (u : Uplink) : SameFor c u u :=
  ⟨rfl, rfl, Iff.rfl, Iff.rfl, fun _ => rfl, rfl⟩

theorem SameFor.trans {w : Uplink} (h : SameFor c u v) (h' : SameFor c v w) : SameFor c u w :=
  ⟨h'.spool.trans h.spool, h'.resumePoints.trans h.resumePoints, h'.started.trans h.started,
    h'.ended.trans h.ended, fun ch => (h'.sent ch).trans (h.sent ch), h'.awaiting.trans h.awaiting⟩

theorem any_keys_iff {t : Table (CallId × Channel) Nat} :
    (t.keys.any fun k => k.1 = c) = true ↔ ∃ ch, (t.get? (c, ch)).isSome := by
  simp only [any_eq_true, decide_eq_true_iff, isSome_get?]
  constructor
  · rintro ⟨⟨c', ch⟩, hmem, rfl⟩
    exact ⟨ch, hmem⟩
  rintro ⟨ch, hmem⟩
  exact ⟨(c, ch), hmem, rfl⟩

namespace SameFor

variable (h : SameFor c u v)
include h

theorem startFrames_eq : startFrames c v = startFrames c u := by
  unfold startFrames
  simp only [h.started, h.spool]

theorem endFrames_eq : endFrames c v = endFrames c u := by
  unfold endFrames
  simp only [h.ended, h.spool]

theorem isReplay_eq : isReplay c v = isReplay c u := by
  unfold isReplay locallyAcked
  rw [h.spool]
  congr 1
  rw [Bool.eq_iff_iff, any_keys_iff, any_keys_iff]
  simp only [h.sent]

theorem opened_opened : SameFor c (opened now c u) (opened now c v) := by
  unfold opened
  rw [h.startFrames_eq, h.isReplay_eq]
  by_cases hnil : startFrames c u = []
  · simp only [if_pos hnil]
    exact h
  simp only [if_neg hnil]
  refine ⟨h.spool, h.resumePoints, by simp, h.ended, h.sent, ?_⟩
  by_cases hreplay : isReplay c u
  · simp only [if_pos hreplay, get?_put_self]
  simp only [if_neg hreplay]
  exact h.awaiting

theorem holds_eq : holds now c v = holds now c u := by
  unfold holds
  rw [h.awaiting]

theorem selected_eq : selected c v = selected c u := by
  unfold selected resumePointFor
  rw [h.spool, h.resumePoints]
  refine filter_congr fun r hr => ?_
  have hc : r.1.callId = c := (Spool.mem_takePending hr).2
  unfold picks
  rw [hc, h.sent]

theorem outgoing_eq : outgoing c v = outgoing c u := by
  unfold outgoing
  rw [h.selected_eq]

theorem turnFrames_eq : turnFrames now c v = turnFrames now c u := by
  have hopen : SameFor c (opened now c u) (opened now c v) := h.opened_opened
  unfold turnFrames mediaFrames
  rw [h.spool, h.startFrames_eq, hopen.holds_eq, hopen.outgoing_eq, hopen.endFrames_eq]

end SameFor

theorem sentThrough_markAll_ne (hrows : ∀ r ∈ rows, r.1.callId = c) (hd : d ≠ c) (u : Uplink)
    (ch : Channel) : (u.markAll rows).sentThrough.get? (d, ch) = u.sentThrough.get? (d, ch) := by
  induction rows generalizing u with
  | nil => rfl
  | cons row rows ih =>
    have hne : (d, ch) ≠ (row.1.callId, row.1.channel) := by
      rw [hrows row mem_cons_self]
      exact fun he => hd (Prod.mk.inj he).1
    have hrest : ∀ r ∈ rows, r.1.callId = c := fun r hr => hrows r (mem_cons_of_mem _ hr)
    calc ((u.mark row).markAll rows).sentThrough.get? (d, ch)
        = (u.mark row).sentThrough.get? (d, ch) := ih hrest (u.mark row)
      _ = u.sentThrough.get? (d, ch) := get?_put_ne _ hne _

theorem mem_selected {r : SegmentRow} (h : r ∈ selected c u) :
    r ∈ u.spool.segments.rows ∧ r.1.callId = c ∧ picks (u.resumePointFor c) u r := by
  obtain ⟨hr, hpick⟩ := mem_filter.mp h
  exact ⟨(Spool.mem_takePending hr).1, (Spool.mem_takePending hr).2, hpick⟩

theorem mem_outgoing {r : SegmentRow} (h : r ∈ outgoing c u) :
    r ∈ u.spool.segments.rows ∧ r.1.callId = c ∧ picks (u.resumePointFor c) u r :=
  mem_selected (mem_filter.mp h).1

theorem sameFor_opened (hd : d ≠ c) : SameFor d u (opened now c u) := by
  unfold opened
  by_cases hnil : startFrames c u = []
  · rw [if_pos hnil]
    exact .refl d u
  rw [if_neg hnil]
  refine ⟨rfl, rfl, by simp [hd], Iff.rfl, fun _ => rfl, ?_⟩
  by_cases hreplay : isReplay c u
  · simp only [if_pos hreplay]
    exact get?_put_ne _ hd _
  · simp only [if_neg hreplay]

theorem sameFor_closed (hd : d ≠ c) : SameFor d u (closed c u) := by
  unfold closed
  by_cases hnil : endFrames c u = []
  · rw [if_pos hnil]
    exact .refl d u
  rw [if_neg hnil]
  exact ⟨rfl, rfl, Iff.rfl, by simp [hd], fun _ => rfl, rfl⟩

theorem sameFor_afterTurn (now : Nat) (u : Uplink) (hd : d ≠ c) :
    SameFor d u (afterTurn now c u) := by
  unfold afterTurn
  by_cases hsealed : u.spool.isSealed c
  · rw [if_pos hsealed]
    exact ⟨rfl, rfl, Iff.rfl, Iff.rfl, fun _ => rfl, rfl⟩
  rw [if_neg hsealed]
  have hopened : SameFor d u (opened now c u) := sameFor_opened hd
  by_cases hholds : holds now c (opened now c u)
  · rwa [if_pos hholds]
  rw [if_neg hholds]
  have hmarked : SameFor d (opened now c u)
      ((release c (opened now c u)).markAll (outgoing c (opened now c u))) :=
    ⟨rfl, rfl, Iff.rfl, Iff.rfl,
      fun ch => sentThrough_markAll_ne (fun r hr => (mem_outgoing hr).2.1) hd _ ch,
      get?_erase_ne _ hd⟩
  exact hopened.trans (hmarked.trans (sameFor_closed hd))

/-! ## The whole pass -/

def afterTurns (now : Nat) (cs : List CallId) (u : Uplink) : Uplink :=
  cs.foldl (fun u c => afterTurn now c u) u

def turns (now : Nat) : List CallId → Uplink → List ClientFrame
  | [], _ => []
  | c :: cs, u => turnFrames now c u ++ turns now cs (afterTurn now c u)

theorem sendCalls_writes (now : Nat) (cs : List CallId) (p : SendPass) :
    Writes p (turns now cs p.up) (afterTurns now cs p.up) (sendCalls now cs p) := by
  induction cs generalizing p with
  | nil => exact .nil p
  | cons c cs ih =>
    refine (sendCall_writes now c p).bind fun p₁ hp₁ => ?_
    have hrest := ih p₁
    rwa [hp₁] at hrest

theorem turns_of_nodup (now : Nat) (hnodup : cs.Nodup) (u : Uplink) :
    turns now cs u = (cs.map fun c => turnFrames now c u).flatten := by
  induction cs generalizing u with
  | nil => rfl
  | cons c cs ih =>
    obtain ⟨hc, hnodup⟩ := nodup_cons.mp hnodup
    have hturns : (cs.map fun d => turnFrames now d (afterTurn now c u)) =
        cs.map fun d => turnFrames now d u := by
      refine map_congr_left fun d hd => ?_
      have hne : d ≠ c := fun he => hc (he ▸ hd)
      exact (sameFor_afterTurn now u hne).turnFrames_eq
    rw [turns, ih hnodup, hturns, map_cons, flatten_cons]

theorem nodup_insertCall {known : List CallId} (h : known.Nodup) : (insertCall c known).Nodup := by
  unfold insertCall
  split
  · exact h
  rename_i hc
  exact (perm_orderedInsert _ _ _).nodup_iff.mpr (nodup_cons.mpr ⟨hc, h⟩)

theorem nodup_passCalls (h : u.knownCalls.Nodup) : u.passCalls.Nodup := by
  unfold passCalls
  generalize u.spool.pendingCalls = pending
  generalize u.knownCalls = known at h
  induction pending generalizing known with
  | nil => exact h
  | cons c pending ih => exact ih _ (nodup_insertCall h)

def passFrames (now : Nat) (u : Uplink) : List ClientFrame :=
  turns now u.passCalls { u with knownCalls := u.passCalls }

def afterPass (now : Nat) (u : Uplink) : Uplink :=
  afterTurns now u.passCalls { u with knownCalls := u.passCalls }

theorem sendPending_writes (u : Uplink) (now : Nat) (budget : Option Nat) :
    Writes { up := { u with knownCalls := u.passCalls }, budget } (passFrames now u)
      (afterPass now u) (u.sendPending now budget) :=
  sendCalls_writes now u.passCalls _

theorem passFrames_eq (now : Nat) (h : u.knownCalls.Nodup) :
    passFrames now u = (u.passCalls.map fun c => turnFrames now c u).flatten := by
  rw [passFrames, turns_of_nodup now (nodup_passCalls h)]
  congr 1
  refine map_congr_left fun c _ => ?_
  have hsame : SameFor c u { u with knownCalls := u.passCalls } :=
    ⟨rfl, rfl, Iff.rfl, Iff.rfl, fun _ => rfl, rfl⟩
  exact hsame.turnFrames_eq

theorem start_mem_turns {start : CallStart} (hc : c ∈ cs)
    (hsealed : u.spool.isSealed c = false) (hnew : c ∉ u.startedThisConnection)
    (hstart : u.spool.callStartJson c = some start) : .callStart start ∈ turns now cs u := by
  induction cs generalizing u with
  | nil => cases hc
  | cons d cs ih =>
    rw [turns, mem_append]
    by_cases hcd : c = d
    · subst hcd
      left
      rw [turnFrames, if_neg (by rw [hsealed]; exact Bool.false_ne_true), startFrames,
        if_neg hnew, hstart]
      exact mem_append_left _ mem_cons_self
    right
    have hsame := sameFor_afterTurn now u hcd
    refine ih ((mem_cons.mp hc).resolve_left hcd) ?_ ?_ ?_
    · rwa [hsame.spool]
    · rwa [hsame.started]
    · rwa [hsame.spool]

/-! ## The calls a pass knows -/

section Known

open Faults (Upholds)

theorem sendPending_known (u : Uplink) (now : Nat) (budget : Option Nat) (hd : d ∈ u.passCalls)
    (hsealed : u.spool.isSealed d = false) :
    Upholds (fun q => d ∈ q.up.knownCalls) (fun q => d ∈ q.up.knownCalls)
      (u.sendPending now budget) := by
  have hkeeps : Keeps u fun p => d ∈ p.up.knownCalls := by
    refine ⟨?_, ?_, ?_, ?_, ?_, ?_, fun p c h hc => (mem_erase_of_ne ?_).mpr h⟩
    · exact fun _ _ h _ _ => h
    · exact fun _ _ _ h => h
    · exact fun _ _ _ _ _ h _ _ _ _ _ => h
    · exact fun _ _ _ _ h _ _ _ => h
    · exact fun _ _ _ _ h _ _ _ => h
    · exact fun _ _ h => h
    rintro rfl
    exact Bool.false_ne_true (hsealed.symm.trans hc)
  exact Upholds.imp (sendPending_keeps hkeeps now budget hd) (fun _ h => h.1) fun _ h => h

end Known

/-! ## A socket that holds -/

theorem sendPending_holds (u : Uplink) (now : Nat) : ∃ p, u.sendPending now none = .ok p := by
  have hkeeps : Keeps u fun p => p.budget = none := by
    refine ⟨?_, ?_, ?_, ?_, ?_, ?_, ?_⟩
    · exact fun _ _ h _ _ => h
    · exact fun _ _ _ h => h
    · exact fun _ _ _ _ _ h hb _ _ _ _ => hb h
    · exact fun _ _ _ _ h hb _ _ => hb h
    · exact fun _ _ _ _ h hb _ _ => hb h
    · exact fun _ _ h => h
    · exact fun _ _ h _ => h
  have hpass := sendPending_keeps hkeeps now none rfl
  cases hr : u.sendPending now none with
  | error p =>
    rw [hr] at hpass
    exact absurd hpass.1 hpass.2
  | ok p => exact ⟨p, rfl⟩

end Uplink

end Sentinel
