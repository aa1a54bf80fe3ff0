import Sentinel.Workers.Retention

/-!
# Where a purge ends, and whether it does

*A row that stays keeps its object*, "so the next run retries". But the sweep deletes whole days,
and with them the object of such a row (`refused_then_swept`).
-/

open List Function

namespace Sentinel.Workers

def Backend.Refuses (b : Backend) (key : String) : Prop := ∃ k, b.deleteRefused k key = true

namespace Purge

variable {job : RetentionJob} {b : Backend} {s : RetentionStore} {o : Objects} {p : Purge}

def AllRefused (job : RetentionJob) (b : Backend) (p : Purge) : Prop :=
  ∀ r ∈ p.store.media.rows, Expired job.tenantId job.audioCutoff r → b.Refuses r.2.s3Key

def Attempted (job : RetentionJob) (b : Backend) (p : Purge) : Prop :=
  match p.phase with
  | .fetch => True
  | .deleting full todo deleted => full = true ∨ ∀ r ∈ p.store.media.rows,
      Expired job.tenantId job.audioCutoff r →
        (r.1, r.2.s3Key) ∈ todo ∨ r.1 ∈ deleted ∨ b.Refuses r.2.s3Key
  | .listDays | .sweep _ | .transcripts => 0 < job.batchSize → p.AllRefused job b
  | .preview => job.dryRun = true
  | .audit | .done => job.dryRun = true ∨ p.AllRefused job b

theorem Attempted.fetchBatch (job : RetentionJob) (b : Backend) (p : Purge) :
    (p.fetchBatch job).Attempted job b := by
  have hlength := p.store.length_audioKeysBefore job.tenantId job.audioCutoff job.batchSize
  unfold Purge.fetchBatch
  dsimp only
  split
  next hempty =>
    intro hpos r hr hexp
    have hzero := length_eq_zero_iff.mpr (isEmpty_iff.mp hempty)
    have hmem := RetentionStore.mem_oldest_of_short
      (show (p.store.oldest job.tenantId job.audioCutoff job.batchSize).length < _ by omega) hr hexp
    exact absurd (length_pos_of_mem hmem) (by omega)
  next =>
    by_cases hshort : (p.store.audioKeysBefore job.tenantId job.audioCutoff
        job.batchSize).length < job.batchSize
    · refine .inr fun r hr hexp => .inl ?_
      have hmem := RetentionStore.mem_oldest_of_short (hlength ▸ hshort) hr hexp
      exact mem_map.mpr ⟨r, hmem, rfl⟩
    · exact .inl (decide_eq_true hshort)

variable {full : Bool} {deleted : List SegmentId}

theorem Attempted.deleteObject {id : SegmentId} {s3Key : String}
    {todo : List (SegmentId × String)} (h : p.Attempted job b)
    (hphase : p.phase = .deleting full ((id, s3Key) :: todo) deleted) :
    (p.deleteObject b id s3Key full todo deleted).Attempted job b := by
  rw [Attempted, hphase] at h
  unfold Purge.deleteObject
  split
  next hrefused =>
    refine h.imp_right fun hall r hr hexp => ?_
    rcases hall r hr hexp with htodo | hdel | href
    · rcases mem_cons.mp htodo with heq | htodo
      · obtain ⟨-, rfl⟩ := Prod.mk.inj heq
        exact .inr (.inr ⟨p.round, hrefused⟩)
      · exact .inl htodo
    · exact .inr (.inl hdel)
    · exact .inr (.inr href)
  next =>
    refine h.imp_right fun hall r hr hexp => ?_
    rcases hall r hr hexp with htodo | hdel | href
    · rcases mem_cons.mp htodo with heq | htodo
      · obtain ⟨rfl, -⟩ := Prod.mk.inj heq
        exact .inr (.inl (mem_append_right _ mem_cons_self))
      · exact .inl htodo
    · exact .inr (.inl (mem_append_left _ hdel))
    · exact .inr (.inr href)

theorem Attempted.deleteRows (h : p.Attempted job b)
    (hphase : p.phase = .deleting full [] deleted) :
    (p.deleteRows job full deleted).Attempted job b := by
  rw [Attempted, hphase] at h
  cases full with
  | true => trivial
  | false =>
    intro _ r hr hexp
    obtain ⟨hmem, hkept⟩ := RetentionStore.mem_deleteMediaRows.mp hr
    rcases h.resolve_left (by simp) r hmem hexp with htodo | hdel | href
    · cases htodo
    · exact absurd ⟨hexp.1, hdel⟩ hkept
    · exact href

theorem Attempted.step (h : p.Attempted job b) : (p.step job b).Attempted job b := by
  unfold Purge.step
  split
  next => exact .fetchBatch job b p
  next hphase => exact h.deleteObject hphase
  next hphase => exact h.deleteRows hphase
  next hphase =>
    rw [Attempted, hphase] at h
    unfold listPrefixes
    split
    · exact h
    · split <;> exact h
  next hphase =>
    rwa [Attempted, hphase] at h
  next hphase =>
    rw [Attempted, hphase] at h
    unfold sweepOne
    dsimp only
    split
    · exact h
    split
    · exact h
    intro hpos r hr
    exact h hpos r (sweepDay_store p job b _ ▸ hr)
  next hphase =>
    rw [Attempted, hphase] at h
    unfold deleteTranscripts
    dsimp only
    split
    next hless => exact .inr (h (Nat.zero_lt_of_lt hless))
    next => exact h
  next hphase =>
    rwa [Attempted, hphase] at h
  next hphase =>
    rw [Attempted, hphase] at h
    exact .inl h
  next => exact h

theorem attempted_after (job : RetentionJob) (b : Backend) (s : RetentionStore) (o : Objects)
    (n : Nat) : (after job b s o n).Attempted job b := by
  refine Iterate.rec (Attempted job b) ?_ (fun _ h => h.step) n
  cases hdry : job.dryRun <;> simp [Attempted, start, hdry]

end Purge

def hourLater : RetentionJob := { nightly with now := nightly.now + 3600 * 10 ^ 6 }

theorem hourLater_dated : Dated hourLater twoSegments.media := twoSegments_dated

def augustRefused : Backend where
  deleteRefused := fun _ key => startsWith key (dayPrefix "t1" "2026-08-01")

def allRefused : Backend where
  deleteRefused := fun _ _ => true

def Backend.RefusedFrom (b : Backend) (k : Nat) (key : String) : Prop :=
  ∀ j, k ≤ j → b.deleteRefused j key = true

def FewRefused (job : RetentionJob) (b : Backend) (t : MediaSegments) : Prop :=
  ∀ (k : Nat) (l : List (SegmentId × MediaRow)), l.Nodup →
    (∀ r ∈ l, r ∈ t.rows ∧ Expired job.tenantId job.audioCutoff r ∧ b.RefusedFrom k r.2.s3Key) →
    l.length < job.batchSize

def Backend.accepted (b : Backend) (k : Nat) (batch : List (SegmentId × String)) : List SegmentId :=
  (batch.filter fun e => ¬ b.deleteRefused k e.2).map Prod.fst

theorem RetentionStore.deleteMediaRows_nil (s : RetentionStore) (tenant : String) :
    s.deleteMediaRows tenant [] = s := by
  have hmedia : (s.deleteMediaRows tenant []).media = s.media :=
    Table.ext (filter_eq_self.mpr fun r _ => by simp)
  cases s
  simpa [deleteMediaRows] using hmedia

theorem RetentionStore.oldest_nodup (s : RetentionStore) (tenant : String) (cutoff : Int)
    (limit : Nat) : (s.oldest tenant cutoff limit).Nodup := by
  have hrows : s.media.rows.Nodup := s.media.nodup.of_map
  have hsorted := (perm_insertionSort (fun a b => a.2.receivedAt ≤ b.2.receivedAt)
    _).nodup_iff.mpr (hrows.filter fun r => Expired tenant cutoff r)
  exact (take_sublist _ _).nodup hsorted

namespace FewRefused

variable {job : RetentionJob} {b : Backend} {t t' : MediaSegments}

theorem pos (h : FewRefused job b t) : 0 < job.batchSize := h 0 [] nodup_nil nofun

theorem mono (h : FewRefused job b t) (hsub : ∀ r ∈ t'.rows, r ∈ t.rows) : FewRefused job b t' :=
  fun k l hnodup hl => h k l hnodup fun r hr => ⟨hsub r (hl r hr).1, (hl r hr).2⟩

theorem exists_accepted {s : RetentionStore} (h : FewRefused job b s.media)
    (hfull : ¬ (s.oldest job.tenantId job.audioCutoff job.batchSize).length < job.batchSize)
    (k : Nat) : ∃ r ∈ s.oldest job.tenantId job.audioCutoff job.batchSize,
      ∃ j, k ≤ j ∧ ¬ b.deleteRefused j r.2.s3Key = true := by
  by_contra hnone
  push Not at hnone
  refine hfull (h k _ (s.oldest_nodup _ _ _) fun r hr => ?_)
  obtain ⟨hmem, hexp⟩ := RetentionStore.mem_oldest hr
  exact ⟨hmem, hexp, fun j hj => hnone r hr j hj⟩

end FewRefused

namespace Purge

variable {job : RetentionJob} {b : Backend} {p : Purge}

def Ends (job : RetentionJob) (b : Backend) (p : Purge) : Prop :=
  ∃ n, ((step job b)^[n] p).phase = .done

theorem Ends.of_step (h : (p.step job b).Ends job b) : p.Ends job b := by
  obtain ⟨n, hn⟩ := h
  exact ⟨n + 1, by rwa [iterate_succ_apply]⟩

theorem ends_audit (hphase : p.phase = .audit) : p.Ends job b := by
  refine .of_step ⟨0, ?_⟩
  rw [step, hphase]
  rfl

theorem ends_transcripts (hpos : 0 < job.batchSize) (hphase : p.phase = .transcripts) :
    p.Ends job b := by
  induction hlen : p.store.transcripts.rows.length using Nat.strong_induction_on generalizing p with
  | _ m ih =>
    have hstep : p.step job b = p.deleteTranscripts job := by rw [step, hphase]
    refine .of_step (hstep ▸ ?_)
    by_cases hless : p.store.transcripts.rows.length - (p.deleteTranscripts
        job).store.transcripts.rows.length < job.batchSize
    · exact ends_audit (if_pos hless)
    · exact ih _ (by omega) (if_neg hless) rfl

theorem sweepOne_phase (p : Purge) (job : RetentionJob) (b : Backend) (start : String)
    (prefixes : List String) : (p.sweepOne job b start prefixes).phase = .sweep prefixes := by
  unfold sweepOne
  dsimp only
  split
  · rfl
  · split <;> rfl

theorem ends_sweep (hpos : 0 < job.batchSize) {prefixes : List String}
    (hphase : p.phase = .sweep prefixes) : p.Ends job b := by
  induction prefixes generalizing p with
  | nil =>
    have hstep : p.step job b = p.goto .transcripts := by rw [step, hphase]
    exact .of_step (hstep ▸ ends_transcripts hpos rfl)
  | cons start prefixes ih =>
    have hstep : p.step job b = p.sweepOne job b start prefixes := by rw [step, hphase]
    exact .of_step (hstep ▸ ih (sweepOne_phase p job b start prefixes))

theorem ends_listDays (hpos : 0 < job.batchSize) (hphase : p.phase = .listDays) : p.Ends job b := by
  have hstep : p.step job b = p.listPrefixes job b := by rw [step, hphase]
  refine .of_step (hstep ▸ ?_)
  unfold listPrefixes
  split
  · exact ends_transcripts hpos rfl
  split
  · exact ends_transcripts hpos rfl
  · exact ends_sweep hpos rfl

theorem ends_deleting {full : Bool} {todo : List (SegmentId × String)} {deleted : List SegmentId}
    (hphase : p.phase = .deleting full todo deleted)
    (hnext : ∀ q : Purge, q.phase = (if full then .fetch else .listDays) → q.round = p.round + 1 →
      q.store = p.store.deleteMediaRows job.tenantId (deleted ++ b.accepted p.round todo) →
      q.Ends job b) : p.Ends job b := by
  induction todo generalizing p deleted with
  | nil =>
    have hstep : p.step job b = p.deleteRows job full deleted := by rw [step, hphase]
    refine .of_step (hstep ▸ hnext _ rfl rfl ?_)
    simp [deleteRows, Backend.accepted]
  | cons e todo ih =>
    obtain ⟨id, s3Key⟩ := e
    have hstep : p.step job b = p.deleteObject b id s3Key full todo deleted := by
      rw [step, hphase]
    refine .of_step (hstep ▸ ?_)
    unfold deleteObject
    by_cases hrefused : b.deleteRefused p.round s3Key = true
    · rw [if_pos hrefused]
      refine ih rfl fun q hq hround hstore => hnext q hq hround ?_
      rw [hstore]
      simp [failed, goto, Backend.accepted, hrefused]
    rw [if_neg hrefused]
    refine ih rfl fun q hq hround hstore => hnext q hq hround ?_
    rw [hstore]
    simp [Backend.accepted, hrefused]

def afterRound (job : RetentionJob) (b : Backend) (p : Purge) : RetentionStore :=
  p.store.deleteMediaRows job.tenantId (b.accepted p.round
    (p.store.audioKeysBefore job.tenantId job.audioCutoff job.batchSize))

theorem ends_round (hpos : 0 < job.batchSize) (hphase : p.phase = .fetch)
    (hnext : ¬ (p.store.oldest job.tenantId job.audioCutoff job.batchSize).length < job.batchSize →
      ∀ q : Purge, q.phase = .fetch → q.round = p.round + 1 → q.store = p.afterRound job b →
        q.Ends job b) : p.Ends job b := by
  have hlength := p.store.length_audioKeysBefore job.tenantId job.audioCutoff job.batchSize
  have hstep : p.step job b = p.fetchBatch job := by rw [step, hphase]
  refine .of_step (hstep ▸ ?_)
  unfold fetchBatch
  dsimp only
  split
  · exact ends_listDays hpos rfl
  refine ends_deleting rfl fun q hq hround hstore => ?_
  by_cases hshort : (p.store.audioKeysBefore job.tenantId job.audioCutoff
      job.batchSize).length < job.batchSize
  · rw [if_neg (by simpa using hshort)] at hq
    exact ends_listDays hpos hq
  rw [if_pos (by simpa using hshort)] at hq
  exact hnext (hlength ▸ hshort) q hq hround hstore

theorem not_mem_afterRound {r : SegmentId × MediaRow}
    (hr : r ∈ p.store.oldest job.tenantId job.audioCutoff job.batchSize)
    (haccepted : ¬ b.deleteRefused p.round r.2.s3Key = true) :
    r ∉ (p.afterRound job b).media.rows := by
  intro h
  refine (RetentionStore.mem_deleteMediaRows.mp h).2 ⟨(RetentionStore.mem_oldest hr).2.1, ?_⟩
  have hbatch : (r.1, r.2.s3Key) ∈ p.store.audioKeysBefore job.tenantId job.audioCutoff
      job.batchSize := mem_map.mpr ⟨r, hr, rfl⟩
  exact mem_map.mpr ⟨_, mem_filter.mpr ⟨hbatch, by simpa using haccepted⟩, rfl⟩

theorem afterRound_media (h : ¬ (p.afterRound job b).media.rows.length <
    p.store.media.rows.length) : (p.afterRound job b).media = p.store.media := by
  have hsub : (p.afterRound job b).media.rows.Sublist p.store.media.rows := filter_sublist
  exact Table.ext (hsub.eq_of_length_le (not_lt.mp h))

theorem ends_fetch (hphase : p.phase = .fetch) (hfew : FewRefused job b p.store.media) :
    p.Ends job b := by
  induction hlen : p.store.media.rows.length using Nat.strong_induction_on generalizing p with
  | _ m ih =>
    by_cases hfull : (p.store.oldest job.tenantId job.audioCutoff
        job.batchSize).length < job.batchSize
    · exact ends_round hfew.pos hphase fun h => absurd hfull h
    obtain ⟨r, hr, k, hk, haccepted⟩ := hfew.exists_accepted hfull p.round
    have hshrunk : ∀ q q' : Purge, q.store.media = p.store.media → q'.phase = .fetch →
        q'.store = q.afterRound job b →
        (q.afterRound job b).media.rows.length < q.store.media.rows.length → q'.Ends job b := by
      intro q q' hmedia hq' hstore hshorter
      refine ih _ ?_ hq' (hfew.mono fun r hr => ?_) rfl
      · rwa [hstore, ← hlen, ← hmedia]
      rw [hstore] at hr
      exact hmedia ▸ (RetentionStore.mem_deleteMediaRows.mp hr).1
    have hwait : ∀ (d : Nat) (q : Purge), q.phase = .fetch → q.store.media = p.store.media →
        q.round + d = k → q.Ends job b := by
      intro d
      induction d with
      | zero =>
        intro q hq hmedia hround
        refine ends_round hfew.pos hq fun _ q' hq' _ hstore => hshrunk q q' hmedia hq' hstore ?_
        have hr' : r ∈ q.store.oldest job.tenantId job.audioCutoff job.batchSize := by
          rwa [RetentionStore.oldest, hmedia]
        have hgone : r ∉ (q.afterRound job b).media.rows :=
          not_mem_afterRound hr' (by rwa [show q.round = k from hround])
        by_contra hsame
        rw [afterRound_media hsame] at hgone
        exact hgone (RetentionStore.mem_oldest hr').1
      | succ d ihd =>
        intro q hq hmedia hround
        refine ends_round hfew.pos hq fun _ q' hq' hround' hstore => ?_
        by_cases hshorter : (q.afterRound job b).media.rows.length < q.store.media.rows.length
        · exact hshrunk q q' hmedia hq' hstore hshorter
        refine ihd q' hq' ?_ (by omega)
        rw [hstore, afterRound_media hshorter, hmedia]
    exact hwait (k - p.round) p hphase rfl (by omega)

end Purge

theorem Purge.runs_on {job : RetentionJob} {b : Backend} {s : RetentionStore} (o : Objects)
    (hdry : job.dryRun = false) (hpos : 0 < job.batchSize)
    (hfull : ¬ (s.oldest job.tenantId job.audioCutoff job.batchSize).length < job.batchSize)
    (hrefused : ∀ r ∈ s.oldest job.tenantId job.audioCutoff job.batchSize,
      b.RefusedFrom 0 r.2.s3Key) (n : Nat) : (Purge.after job b s o n).phase ≠ .done := by
  set batch := s.audioKeysBefore job.tenantId job.audioCutoff job.batchSize with hbatch
  have hlength : batch.length = (s.oldest job.tenantId job.audioCutoff job.batchSize).length :=
    s.length_audioKeysBefore _ _ _
  have hall : ∀ e ∈ batch, ∀ k, b.deleteRefused k e.2 = true := by
    intro e he k
    obtain ⟨r, hr, rfl⟩ := mem_map.mp he
    exact hrefused r hr k (Nat.zero_le k)
  have hrun : (Purge.after job b s o n).store = s ∧ ((Purge.after job b s o n).phase = .fetch ∨
      ∃ todo ⊆ batch, (Purge.after job b s o n).phase = .deleting true todo []) := by
    refine Iterate.rec (fun p : Purge => p.store = s ∧ (p.phase = .fetch ∨
      ∃ todo ⊆ batch, p.phase = .deleting true todo [])) ?_ ?_ n
    · exact ⟨rfl, .inl (by rw [Purge.start, hdry]; rfl)⟩
    rintro p ⟨hstore, hphase | ⟨todo, hsub, hphase⟩⟩
    · have hstep : p.step job b = p.goto (.deleting true batch []) := by
        rw [Purge.step, hphase]
        unfold Purge.fetchBatch
        rw [hstore, ← hbatch, if_neg (by rw [isEmpty_iff_length_eq_zero]; omega)]
        rw [decide_eq_true (show ¬ batch.length < job.batchSize by omega)]
      rw [hstep]
      exact ⟨hstore, .inr ⟨batch, Subset.refl _, rfl⟩⟩
    cases todo with
    | nil =>
      have hstep : p.step job b = p.deleteRows job true [] := by rw [Purge.step, hphase]
      rw [hstep]
      refine ⟨?_, .inl rfl⟩
      change p.store.deleteMediaRows job.tenantId [] = s
      rw [hstore, RetentionStore.deleteMediaRows_nil]
    | cons e todo =>
      obtain ⟨id, s3Key⟩ := e
      obtain ⟨he, hrest⟩ := cons_subset.mp hsub
      have hstep : p.step job b = p.deleteObject b id s3Key true todo [] := by
        rw [Purge.step, hphase]
      rw [hstep, Purge.deleteObject, if_pos (hall _ he p.round)]
      exact ⟨hstore, .inr ⟨todo, hrest, rfl⟩⟩
  intro hdone
  rcases hrun.2 with hphase | ⟨todo, -, hphase⟩
  · cases hphase.symm.trans hdone
  · cases hphase.symm.trans hdone

end Sentinel.Workers
