import Mathlib.Data.List.TakeWhile
import Mathlib.Algebra.Order.Group.Abs
import Sentinel.Workers.Segments

/-!
# The nightly purge

`RetentionJob.purge_tenant` deletes a tenant's expired audio first by row: it fetches a batch of
expired rows, deletes the object of each and then the rows whose object went (`retention.py`).
-/

open List Table

namespace Sentinel.Workers

/-! ## Dates and keys -/

def day : Int := 86400 * 10 ^ 6

def dateOf (t : Int) : Int := t / day

def pad8 (n : Int) : String :=
  let digits := toString n.natAbs
  let sign := if n < 0 then "-" else ""
  sign ++ String.ofList (List.replicate (8 - sign.length - digits.length) '0') ++ digits

def segmentKey (tenant day callId : String) (ch : Channel) (seq : Int) : String :=
  "audio/" ++ tenant ++ "/" ++ day ++ "/" ++ callId ++ "/" ++ toString ch.asU8 ++ "/" ++
    pad8 seq ++ ".opus"

def tenantPrefix (tenant : String) : String := "audio/" ++ tenant ++ "/"

def dayPrefix (tenant day : String) : String := "audio/" ++ tenant ++ "/" ++ day ++ "/"

def startsWith (key start : String) : Prop := start.toList <+: key.toList

instance (key start : String) : Decidable (startsWith key start) :=
  inferInstanceAs (Decidable (_ <+: _))

def dayOf (start key : String) : String :=
  String.ofList ((key.toList.drop start.toList.length).takeWhile (· ≠ '/'))

def lastComponent (s : String) : String :=
  String.ofList ((s.toList.reverse.dropWhile (· = '/')).takeWhile (· ≠ '/')).reverse

/-! ## The two stores -/

structure TranscriptRow where
  tenantId : String
  createdAt : Int
  deriving DecidableEq, Repr

inductive AuditDetail where
  | purge (audioSegments transcripts sweptObjects sweptDays : Nat)
      (audioCutoff transcriptCutoff : Int) (errors : Nat)
  | preview (audioSegments transcripts : Nat) (audioCutoff transcriptCutoff : Int)
  deriving DecidableEq, Repr

structure AuditEntry where
  tenantId : String
  action : String
  detail : AuditDetail
  deriving DecidableEq, Repr

structure RetentionStore where
  media : MediaSegments := ∅
  transcripts : Table (Uuid × Channel) TranscriptRow := ∅
  auditLog : List AuditEntry := []

abbrev SegmentId := Uuid × Channel × Int

def Expired (tenant : String) (cutoff : Int) (r : SegmentId × MediaRow) : Prop :=
  r.2.tenantId = tenant ∧ r.2.receivedAt < cutoff

instance (tenant : String) (cutoff : Int) (r : SegmentId × MediaRow) :
    Decidable (Expired tenant cutoff r) := inferInstanceAs (Decidable (_ ∧ _))

namespace RetentionStore

variable (s : RetentionStore) (tenant : String) (cutoff : Int)

def oldest (limit : Nat) : List (SegmentId × MediaRow) :=
  ((s.media.rows.filter fun r => Expired tenant cutoff r).insertionSort
    fun a b => a.2.receivedAt ≤ b.2.receivedAt).take limit

def audioKeysBefore (limit : Nat) : List (SegmentId × String) :=
  (s.oldest tenant cutoff limit).map fun r => (r.1, r.2.s3Key)

def countAudioBefore : Nat := (s.media.rows.filter fun r => Expired tenant cutoff r).length

def deleteMediaRows (keys : List SegmentId) : RetentionStore :=
  { s with media := s.media.filter fun r => !(r.2.tenantId = tenant && keys.contains r.1) }

def staleTranscripts : List ((Uuid × Channel) × TranscriptRow) :=
  s.transcripts.rows.filter fun r => r.2.tenantId = tenant ∧ r.2.createdAt < cutoff

def deleteTranscriptsBefore (limit : Nat) : RetentionStore :=
  { s with transcripts := s.transcripts.filter fun r =>
      r.1 ∉ ((s.staleTranscripts tenant cutoff).take limit).map Prod.fst }

def audit (action : String) (detail : AuditDetail) : RetentionStore :=
  { s with auditLog := s.auditLog ++ [⟨tenant, action, detail⟩] }

end RetentionStore

abbrev Objects := Table String (List UInt8)

def dayPrefixes (objects : Objects) (start : String) : List String :=
  let days := ((objects.keys.filter fun k => startsWith k start).map (dayOf start)).dedup
  ((days.filter (· ≠ "")).map fun d => start ++ d ++ "/").insertionSort (· ≤ ·)

structure Backend where
  deleteRefused : Nat → String → Bool := fun _ _ => false
  sweeps : Bool := true
  listingFails : Bool := false
  spares : String → String → Bool := fun _ _ => false
  prefixFails : String → Bool := fun _ => false

def Backend.deletePrefix (b : Backend) (objects : Objects) (start : String) : Objects :=
  objects.filter fun o => ¬ startsWith o.1 start ∨ b.spares start o.1

/-! ## The run -/

structure PurgeResult where
  tenantId : String
  audioSegments : Nat := 0
  audioBytesFreed : Nat := 0
  transcripts : Nat := 0
  sweptObjects : Nat := 0
  sweptDays : Nat := 0
  dryRun : Bool := false
  errors : List String := []
  deriving DecidableEq, Repr

def sweepMarginDays : Int := 1

structure RetentionJob where
  tenantId : String
  tenantPlain : '/' ∉ tenantId.toList := by decide
  audioDays : Int
  transcriptDays : Int
  now : Int
  batchSize : Nat := 1000
  dryRun : Bool := false
  fromIsoFormat : String → Option Int

namespace RetentionJob

variable (job : RetentionJob)

def audioCutoff : Int := job.now - job.audioDays * day

def transcriptCutoff : Int := job.now - job.transcriptDays * day

def horizon : Int := dateOf (job.audioCutoff - sweepMarginDays * day)

end RetentionJob

inductive Phase where
  | fetch
  | deleting (full : Bool) (todo : List (SegmentId × String)) (deleted : List SegmentId)
  | listDays
  | sweep (prefixes : List String)
  | transcripts
  | audit
  | preview
  | done
  deriving DecidableEq, Repr

structure Purge where
  store : RetentionStore
  objects : Objects
  round : Nat := 0
  result : PurgeResult
  phase : Phase

namespace Purge

variable (job : RetentionJob) (b : Backend) (p : Purge)

def start (store : RetentionStore) (objects : Objects) : Purge where
  store := store
  objects := objects
  result := { tenantId := job.tenantId, dryRun := job.dryRun }
  phase := if job.dryRun then .preview else .fetch

def failed (text : String) : Purge :=
  { p with result := { p.result with errors := p.result.errors ++ [text] } }

def goto (phase : Phase) : Purge := { p with phase := phase }

def fetchBatch : Purge :=
  let batch := p.store.audioKeysBefore job.tenantId job.audioCutoff job.batchSize
  if batch.isEmpty then p.goto .listDays
  else p.goto (.deleting (¬ batch.length < job.batchSize) batch [])

def deleteObject (id : SegmentId) (s3Key : String) (full : Bool)
    (todo : List (SegmentId × String)) (deleted : List SegmentId) : Purge :=
  if b.deleteRefused p.round s3Key then
    -- The row stays, so that the next run retries.
    (p.failed ("blob delete failed for " ++ id.1 ++ "/" ++ toString id.2.1.asU8 ++ "/" ++
      toString id.2.2)).goto (.deleting full todo deleted)
  else { p with objects := p.objects.erase s3Key, phase := .deleting full todo (deleted ++ [id]) }

def deleteRows (full : Bool) (deleted : List SegmentId) : Purge :=
  let store := p.store.deleteMediaRows job.tenantId deleted
  { p with
    store := store
    round := p.round + 1
    result := { p.result with audioSegments := p.result.audioSegments +
      (p.store.media.rows.length - store.media.rows.length) }
    phase := if full then .fetch else .listDays }

def listPrefixes : Purge :=
  if ¬ b.sweeps then p.goto .transcripts
  else if b.listingFails then (p.failed "listing day prefixes failed").goto .transcripts
  else p.goto (.sweep (dayPrefixes p.objects (tenantPrefix job.tenantId)))

def sweepDay (text : String) : Purge :=
  let start := dayPrefix job.tenantId text
  let left := b.deletePrefix p.objects start
  let swept := { p with objects := left }
  if b.prefixFails start then swept.failed "day prefix delete failed"
  else { swept with result := { p.result with
    sweptObjects := p.result.sweptObjects + (p.objects.rows.length - left.rows.length)
    sweptDays := p.result.sweptDays + 1 } }

def sweepOne (start : String) (prefixes : List String) : Purge :=
  let text := lastComponent start
  match job.fromIsoFormat text with
  -- Not a day: left alone rather than guessed at.
  | none => p.goto (.sweep prefixes)
  | some parsed =>
    if job.horizon ≤ parsed then p.goto (.sweep prefixes)
    else (p.sweepDay job b text).goto (.sweep prefixes)

def deleteTranscripts : Purge :=
  let store := p.store.deleteTranscriptsBefore job.tenantId job.transcriptCutoff job.batchSize
  let n := p.store.transcripts.rows.length - store.transcripts.rows.length
  { p with
    store := store
    result := { p.result with transcripts := p.result.transcripts + n }
    phase := if n < job.batchSize then .audit else .transcripts }

def auditPurge : Purge :=
  { p with
    store := p.store.audit job.tenantId "retention.purge" (.purge p.result.audioSegments
      p.result.transcripts p.result.sweptObjects p.result.sweptDays (dateOf job.audioCutoff)
      (dateOf job.transcriptCutoff) p.result.errors.length)
    phase := .done }

def previewTenant : Purge :=
  let audio := p.store.countAudioBefore job.tenantId job.audioCutoff
  let transcripts := (p.store.staleTranscripts job.tenantId job.transcriptCutoff).length
  { p with
    store := p.store.audit job.tenantId "retention.preview" (.preview audio transcripts
      (dateOf job.audioCutoff) (dateOf job.transcriptCutoff))
    result := { p.result with audioSegments := audio, transcripts := transcripts }
    phase := .done }

def step : Purge :=
  match p.phase with
  | .fetch => p.fetchBatch job
  | .deleting full ((id, s3Key) :: todo) deleted => p.deleteObject b id s3Key full todo deleted
  | .deleting full [] deleted => p.deleteRows job full deleted
  | .listDays => p.listPrefixes job b
  | .sweep [] => p.goto .transcripts
  | .sweep (start :: prefixes) => p.sweepOne job b start prefixes
  | .transcripts => p.deleteTranscripts job
  | .audit => p.auditPurge job
  | .preview => p.previewTenant job
  | .done => p

def after (store : RetentionStore) (objects : Objects) (n : Nat) : Purge :=
  (step job b)^[n] (start job store objects)

end Purge

/-! ## What a key says of its day -/

section Keys

variable {tenant tenant' text key callId : String} {ch : Channel} {seq : Int}

theorem takeWhile_slash {l : List Char} (h : '/' ∉ l) (rest : List Char) :
    (l ++ '/' :: rest).takeWhile (· ≠ '/') = l := by
  have hall : ∀ c ∈ l, decide (c ≠ '/') = true :=
    fun c hc => decide_eq_true fun heq => h (heq ▸ hc)
  rw [takeWhile_append_of_pos hall, takeWhile_cons_of_neg (by simp), append_nil]

theorem dayPrefix_eq (tenant text : String) :
    dayPrefix tenant text = tenantPrefix tenant ++ (text ++ "/") := by
  simp only [dayPrefix, tenantPrefix, String.append_assoc]

theorem segmentKey_eq (tenant text callId : String) (ch : Channel) (seq : Int) :
    segmentKey tenant text callId ch seq = dayPrefix tenant text ++
      (callId ++ "/" ++ toString ch.asU8 ++ "/" ++ pad8 seq ++ ".opus") := by
  change "audio/" ++ tenant ++ "/" ++ text ++ "/" ++ callId ++ "/" ++ toString ch.asU8 ++ "/" ++
    pad8 seq ++ ".opus" = _
  simp only [dayPrefix, String.append_assoc]

theorem startsWith_segmentKey (tenant text callId : String) (ch : Channel) (seq : Int) :
    startsWith (segmentKey tenant text callId ch seq) (dayPrefix tenant text) :=
  ⟨_, by rw [segmentKey_eq, String.toList_append]⟩

theorem dayOf_of_startsWith (htext : '/' ∉ text.toList)
    (h : startsWith key (dayPrefix tenant text)) :
    startsWith key (tenantPrefix tenant) ∧ dayOf (tenantPrefix tenant) key = text := by
  obtain ⟨rest, hrest⟩ := h
  have hslash : "/".toList = ['/'] := rfl
  have hkey : key.toList = (tenantPrefix tenant).toList ++ (text.toList ++ '/' :: rest) := by
    rw [← hrest, dayPrefix_eq, String.toList_append, String.toList_append, hslash]
    simp only [append_assoc, singleton_append]
  refine ⟨⟨_, hkey.symm⟩, ?_⟩
  rw [dayOf, hkey, drop_left, takeWhile_slash htext, String.ofList_toList]

theorem tenant_of_startsWith (ht : '/' ∉ tenant.toList) (ht' : '/' ∉ tenant'.toList)
    (h : startsWith (segmentKey tenant' text callId ch seq) (tenantPrefix tenant)) :
    tenant' = tenant := by
  obtain ⟨rest, hrest⟩ := h
  have hslash : "/".toList = ['/'] := rfl
  rw [segmentKey_eq, dayPrefix_eq] at hrest
  simp only [tenantPrefix, String.toList_append, append_assoc, append_cancel_left_eq,
    hslash, cons_append, nil_append] at hrest
  have hcut := congrArg (takeWhile (· ≠ '/')) hrest
  rw [takeWhile_slash ht, takeWhile_slash ht'] at hcut
  exact (String.toList_injective hcut).symm

theorem slash_not_mem_lastComponent (s : String) : '/' ∉ (lastComponent s).toList := by
  rw [lastComponent, String.toList_ofList, mem_reverse]
  intro h
  simpa using mem_takeWhile_imp h

end Keys

def RetentionJob.Swept (job : RetentionJob) (key : String) : Prop :=
  startsWith key (tenantPrefix job.tenantId) ∧
    ∃ d ∈ job.fromIsoFormat (dayOf (tenantPrefix job.tenantId) key), d < job.horizon

def Dated (job : RetentionJob) (t : MediaSegments) : Prop :=
  ∀ r ∈ t.rows, '/' ∉ r.2.tenantId.toList ∧ ∃ text callId, '/' ∉ text.toList ∧
    r.2.s3Key = segmentKey r.2.tenantId text callId r.1.2.1 r.1.2.2 ∧
    ∀ d ∈ job.fromIsoFormat text, |d - dateOf r.2.receivedAt| ≤ 1

def UniqueKeys (t : MediaSegments) : Prop :=
  ∀ r ∈ t.rows, ∀ r' ∈ t.rows, r.2.s3Key = r'.2.s3Key → r = r'

theorem horizon_le_of_recent (job : RetentionJob) {d t : Int} (hnear : |d - dateOf t| ≤ 1)
    (hrecent : job.audioCutoff ≤ t) : job.horizon ≤ d := by
  have hmono : dateOf job.audioCutoff ≤ dateOf t :=
    Int.ediv_le_ediv (by decide) hrecent
  have hmargin : job.horizon = dateOf job.audioCutoff - 1 := by
    unfold RetentionJob.horizon dateOf sweepMarginDays day
    omega
  have hlow := (abs_le.mp hnear).1
  omega

theorem expired_of_swept {job : RetentionJob} {t : MediaSegments} (hdated : Dated job t)
    {r : SegmentId × MediaRow} (hr : r ∈ t.rows)
    (hswept : job.Swept r.2.s3Key) : Expired job.tenantId job.audioCutoff r := by
  obtain ⟨hslash, text, callId, htext, hkey, hnear⟩ := hdated r hr
  obtain ⟨hstart, d, hd, hlt⟩ := hswept
  have htenant' : r.2.tenantId = job.tenantId :=
    tenant_of_startsWith job.tenantPlain hslash (hkey ▸ hstart)
  refine ⟨htenant', ?_⟩
  have hday : dayOf (tenantPrefix job.tenantId) r.2.s3Key = text := by
    refine (dayOf_of_startsWith htext ?_).2
    rw [hkey, htenant']
    exact startsWith_segmentKey _ _ _ _ _
  rw [hday] at hd
  by_contra hrecent
  exact absurd (horizon_le_of_recent job (hnear d hd) (not_lt.mp hrecent)) (not_le.mpr hlt)

/-! ## The batch -/

namespace RetentionStore

variable {s : RetentionStore} {tenant : String} {cutoff : Int} {limit : Nat}
  {r : SegmentId × MediaRow}

theorem mem_sorted_iff : r ∈ (s.media.rows.filter fun r => Expired tenant cutoff r).insertionSort
      (fun a b => a.2.receivedAt ≤ b.2.receivedAt) ↔
    r ∈ s.media.rows ∧ Expired tenant cutoff r := by
  rw [mem_insertionSort, mem_filter, decide_eq_true_iff]

theorem mem_oldest (h : r ∈ s.oldest tenant cutoff limit) :
    r ∈ s.media.rows ∧ Expired tenant cutoff r :=
  mem_sorted_iff.mp (mem_of_mem_take h)

theorem mem_oldest_of_short (hshort : (s.oldest tenant cutoff limit).length < limit)
    (hr : r ∈ s.media.rows) (hexp : Expired tenant cutoff r) :
    r ∈ s.oldest tenant cutoff limit := by
  have hall : s.oldest tenant cutoff limit = (s.media.rows.filter fun r =>
      Expired tenant cutoff r).insertionSort (fun a b => a.2.receivedAt ≤ b.2.receivedAt) := by
    rw [oldest, length_take] at hshort
    exact take_of_length_le (by omega)
  rw [hall]
  exact mem_sorted_iff.mpr ⟨hr, hexp⟩

theorem length_audioKeysBefore (s : RetentionStore) (tenant : String) (cutoff : Int)
    (limit : Nat) : (s.audioKeysBefore tenant cutoff limit).length =
      (s.oldest tenant cutoff limit).length :=
  length_map _

theorem mem_deleteMediaRows {keys : List SegmentId} :
    r ∈ (s.deleteMediaRows tenant keys).media.rows ↔
      r ∈ s.media.rows ∧ ¬ (r.2.tenantId = tenant ∧ r.1 ∈ keys) := by
  rw [deleteMediaRows, rows_filter, mem_filter]
  refine and_congr_right fun _ => ?_
  rw [Bool.not_eq_true', Bool.eq_false_iff, ne_eq, Bool.and_eq_true, decide_eq_true_iff,
    contains_iff_mem]

end RetentionStore

/-! ## What every step keeps -/

def Phase.todo : Phase → List (SegmentId × String)
  | .deleting _ todo _ => todo
  | _ => []

def Phase.deleted : Phase → List SegmentId
  | .deleting _ _ deleted => deleted
  | _ => []

namespace Purge

structure Faithful (job : RetentionJob) (s : RetentionStore) (o : Objects) (p : Purge) : Prop where
  rows : ∀ r ∈ p.store.media.rows, r ∈ s.media.rows
  gone : ∀ r ∈ s.media.rows, r ∈ p.store.media.rows ∨ Expired job.tenantId job.audioCutoff r
  todo : ∀ e ∈ p.phase.todo, ∃ r ∈ s.media.rows,
    Expired job.tenantId job.audioCutoff r ∧ e = (r.1, r.2.s3Key)
  deleted : ∀ id ∈ p.phase.deleted, ∃ r ∈ s.media.rows,
    Expired job.tenantId job.audioCutoff r ∧ id = r.1
  objects : ∀ r ∈ p.store.media.rows, r.1 ∈ p.phase.deleted ∨ job.Swept r.2.s3Key ∨
    p.objects.get? r.2.s3Key = o.get? r.2.s3Key

variable {job : RetentionJob} {b : Backend} {s : RetentionStore} {o : Objects} {p : Purge}

theorem faithful_start (job : RetentionJob) (s : RetentionStore) (o : Objects) :
    Faithful job s o (start job s o) where
  rows := fun _ hr => hr
  gone := fun _ hr => .inl hr
  todo := by
    intro e he
    cases hdry : job.dryRun <;> simp [start, hdry, Phase.todo] at he
  deleted := by
    intro id hid
    cases hdry : job.dryRun <;> simp [start, hdry, Phase.deleted] at hid
  objects := fun _ _ => .inr (.inr rfl)

theorem Faithful.of_eq {q : Purge} (h : Faithful job s o p)
    (hmedia : q.store.media = p.store.media) (hobjects : q.objects = p.objects)
    (htodo : q.phase.todo = []) (hold : p.phase.deleted = []) (hdeleted : q.phase.deleted = []) :
    Faithful job s o q where
  rows := fun r hr => h.rows r (hmedia ▸ hr)
  gone := fun r hr => hmedia ▸ h.gone r hr
  todo := fun e he => by rw [htodo] at he; cases he
  deleted := fun id hid => by rw [hdeleted] at hid; cases hid
  objects := fun r hr => by
    rw [hdeleted, hobjects, ← hold]
    exact h.objects r (hmedia ▸ hr)

theorem Faithful.fetchBatch (h : Faithful job s o p) (hphase : p.phase = .fetch) :
    Faithful job s o (p.fetchBatch job) := by
  have hold : p.phase.deleted = [] := by rw [hphase]; rfl
  unfold Purge.fetchBatch
  dsimp only
  split
  · exact h.of_eq rfl rfl rfl hold rfl
  refine ⟨h.rows, h.gone, fun e he => ?_, nofun, fun r hr => ?_⟩
  · obtain ⟨r, hr, rfl⟩ := mem_map.mp he
    obtain ⟨hr, hexp⟩ := RetentionStore.mem_oldest hr
    exact ⟨r, h.rows r hr, hexp, rfl⟩
  have hobj := h.objects r hr
  rwa [hold] at hobj

variable {full : Bool} {deleted : List SegmentId}

variable {todo : List (SegmentId × String)} {start : String}

theorem Faithful.of_deleting (h : Faithful job s o p)
    (hphase : p.phase = .deleting full todo deleted) :
    (∀ e ∈ todo, ∃ r ∈ s.media.rows,
      Expired job.tenantId job.audioCutoff r ∧ e = (r.1, r.2.s3Key)) ∧
    (∀ i ∈ deleted, ∃ r ∈ s.media.rows, Expired job.tenantId job.audioCutoff r ∧ i = r.1) ∧
    ∀ r ∈ p.store.media.rows, r.1 ∈ deleted ∨ job.Swept r.2.s3Key ∨
      p.objects.get? r.2.s3Key = o.get? r.2.s3Key := by
  have htodo := h.todo
  have hdeleted := h.deleted
  have hobjects := h.objects
  rw [hphase] at htodo hdeleted hobjects
  exact ⟨htodo, hdeleted, hobjects⟩

theorem Faithful.deleteObject (hunique : UniqueKeys s.media) (h : Faithful job s o p)
    {id : SegmentId} {s3Key : String}
    (hphase : p.phase = .deleting full ((id, s3Key) :: todo) deleted) :
    Faithful job s o (p.deleteObject b id s3Key full todo deleted) := by
  obtain ⟨htodo, hdeleted, hobjects⟩ := h.of_deleting hphase
  have hrest : ∀ e ∈ todo, ∃ r ∈ s.media.rows,
      Expired job.tenantId job.audioCutoff r ∧ e = (r.1, r.2.s3Key) :=
    fun e he => htodo e (mem_cons_of_mem _ he)
  unfold Purge.deleteObject
  split
  · exact ⟨h.rows, h.gone, hrest, hdeleted, hobjects⟩
  obtain ⟨r₀, hr₀, hexp₀, heq⟩ := htodo _ mem_cons_self
  obtain ⟨rfl, rfl⟩ := Prod.mk.inj heq
  refine ⟨h.rows, h.gone, hrest, fun i hi => ?_, fun r hr => ?_⟩
  · rcases mem_append.mp hi with hi | hi
    · exact hdeleted i hi
    · exact ⟨r₀, hr₀, hexp₀, mem_singleton.mp hi⟩
  by_cases hkey : r.2.s3Key = r₀.2.s3Key
  · have hr₀' : r = r₀ := hunique r (h.rows r hr) r₀ hr₀ hkey
    exact .inl (mem_append_right _ (by rw [hr₀']; exact mem_cons_self))
  rcases hobjects r hr with hdel | hswept | hsame
  · exact .inl (mem_append_left _ hdel)
  · exact .inr (.inl hswept)
  · exact .inr (.inr ((get?_erase_ne _ hkey).trans hsame))

theorem Faithful.deleteRows (h : Faithful job s o p)
    (hphase : p.phase = .deleting full [] deleted) :
    Faithful job s o (p.deleteRows job full deleted) := by
  obtain ⟨-, hdeleted, hobjects⟩ := h.of_deleting hphase
  -- A key is the key of one row, so a row with a key of the list is the expired one.
  have hexpired : ∀ r ∈ s.media.rows, r.1 ∈ deleted → Expired job.tenantId job.audioCutoff r := by
    intro r hr hmem
    obtain ⟨r₀, hr₀, hexp, hid⟩ := hdeleted r.1 hmem
    obtain ⟨k, row⟩ := r
    obtain ⟨k₀, row₀⟩ := r₀
    obtain rfl : k = k₀ := hid
    rwa [eq_of_mem hr hr₀]
  have hphase' : (p.deleteRows job full deleted).phase.todo = [] ∧
      (p.deleteRows job full deleted).phase.deleted = [] := by
    cases full <;> exact ⟨rfl, rfl⟩
  refine ⟨fun r hr => ?_, fun r hr => ?_, fun e he => ?_, fun i hi => ?_, fun r hr => ?_⟩
  · exact h.rows r (RetentionStore.mem_deleteMediaRows.mp hr).1
  · by_cases hgo : r.2.tenantId = job.tenantId ∧ r.1 ∈ deleted
    · exact .inr (hexpired r hr hgo.2)
    refine (h.gone r hr).imp (fun hmem => ?_) id
    exact RetentionStore.mem_deleteMediaRows.mpr ⟨hmem, hgo⟩
  · rw [hphase'.1] at he
    cases he
  · rw [hphase'.2] at hi
    cases hi
  obtain ⟨hmem, hkept⟩ := RetentionStore.mem_deleteMediaRows.mp hr
  refine .inr ((hobjects r hmem).resolve_left fun hdel => hkept ⟨?_, hdel⟩)
  exact (hexpired r (h.rows r hmem) hdel).1

theorem sweepDay_store (p : Purge) (job : RetentionJob) (b : Backend) (text : String) :
    (p.sweepDay job b text).store = p.store := by
  unfold sweepDay
  dsimp only
  split <;> rfl

theorem sweepDay_objects (p : Purge) (job : RetentionJob) (b : Backend) (text : String) :
    (p.sweepDay job b text).objects = b.deletePrefix p.objects (dayPrefix job.tenantId text) := by
  unfold sweepDay
  dsimp only
  split <;> rfl

theorem get?_deletePrefix (b : Backend) (objects : Objects) {key : String}
    (h : ¬ startsWith key start) : (b.deletePrefix objects start).get? key = objects.get? key := by
  refine get?_congr fun v => ?_
  rw [Backend.deletePrefix, rows_filter, mem_filter, decide_eq_true_iff]
  exact and_iff_left (.inl h)

theorem Faithful.sweepOne (h : Faithful job s o p) {prefixes : List String}
    (hphase : p.phase = .sweep (start :: prefixes)) :
    Faithful job s o (p.sweepOne job b start prefixes) := by
  have hold : p.phase.deleted = [] := by rw [hphase]; rfl
  unfold Purge.sweepOne
  dsimp only
  split
  · exact h.of_eq rfl rfl rfl hold rfl
  next parsed hparsed =>
    split
    · exact h.of_eq rfl rfl rfl hold rfl
    next hbefore =>
      have hstore := sweepDay_store p job b (lastComponent start)
      refine ⟨fun r hr => h.rows r (hstore ▸ hr), fun r hr => hstore ▸ h.gone r hr, nofun, nofun,
        fun r hr => .inr ?_⟩
      have hmem : r ∈ p.store.media.rows := hstore ▸ hr
      by_cases hunder : startsWith r.2.s3Key (dayPrefix job.tenantId (lastComponent start))
      · obtain ⟨htenant, hday⟩ := dayOf_of_startsWith (slash_not_mem_lastComponent start) hunder
        exact .inl ⟨htenant, parsed, hday ▸ hparsed, not_le.mp hbefore⟩
      have hobj := (h.objects r hmem).resolve_left (by rw [hold]; exact not_mem_nil)
      refine hobj.imp id fun hsame => ?_
      change (p.sweepDay job b (lastComponent start)).objects.get? _ = _
      rw [sweepDay_objects, get?_deletePrefix b _ hunder, hsame]

theorem Faithful.step (hunique : UniqueKeys s.media) (h : Faithful job s o p) :
    Faithful job s o (p.step job b) := by
  unfold Purge.step
  split
  next hphase => exact h.fetchBatch hphase
  next hphase => exact h.deleteObject hunique hphase
  next hphase => exact h.deleteRows hphase
  next hphase =>
    have hold : p.phase.deleted = [] := by rw [hphase]; rfl
    unfold listPrefixes
    split
    · exact h.of_eq rfl rfl rfl hold rfl
    · split <;> exact h.of_eq rfl rfl rfl hold rfl
  next hphase => exact h.of_eq rfl rfl rfl (by rw [hphase]; rfl) rfl
  next hphase => exact h.sweepOne hphase
  next hphase =>
    have hnext : (p.deleteTranscripts job).phase.todo = [] ∧
        (p.deleteTranscripts job).phase.deleted = [] := by
      unfold deleteTranscripts
      dsimp only
      split <;> exact ⟨rfl, rfl⟩
    exact h.of_eq rfl rfl hnext.1 (by rw [hphase]; rfl) hnext.2
  next hphase => exact h.of_eq rfl rfl rfl (by rw [hphase]; rfl) rfl
  next hphase => exact h.of_eq rfl rfl rfl (by rw [hphase]; rfl) rfl
  next hphase => exact h

theorem faithful_after (hunique : UniqueKeys s.media) (o : Objects) (n : Nat) :
    Faithful job s o (after job b s o n) :=
  Function.Iterate.rec (Faithful job s o) (faithful_start job s o) (fun _ h => h.step hunique) n

theorem after_dryRun (hdry : job.dryRun = true) (s : RetentionStore) (o : Objects) (n : Nat) :
    (after job b s o n).store.media = s.media ∧
      (after job b s o n).store.transcripts = s.transcripts ∧ (after job b s o n).objects = o := by
  have hrun : ((after job b s o n).phase = .preview ∨ (after job b s o n).phase = .done) ∧
      (after job b s o n).store.media = s.media ∧
      (after job b s o n).store.transcripts = s.transcripts ∧ (after job b s o n).objects = o := by
    refine Function.Iterate.rec (fun p : Purge => (p.phase = .preview ∨ p.phase = .done) ∧
      p.store.media = s.media ∧ p.store.transcripts = s.transcripts ∧ p.objects = o) ?_ ?_ n
    · exact ⟨.inl (by rw [start, hdry]; rfl), rfl, rfl, rfl⟩
    rintro p ⟨hphase | hphase, hsame⟩
    · have hstep : p.step job b = p.previewTenant job := by rw [step, hphase]
      rw [hstep]
      exact ⟨.inr rfl, hsame⟩
    have hstep : p.step job b = p := by rw [step, hphase]
    rw [hstep]
    exact ⟨.inr hphase, hsame⟩
  exact hrun.2

end Purge

/-- **Retention never deletes early.** -/
theorem purge_keeps_recent (job : RetentionJob) (b : Backend) (s : RetentionStore) (o : Objects)
    (n : Nat) :
    (UniqueKeys s.media → Dated job s.media →
      ∀ r ∈ s.media.rows, job.audioCutoff ≤ r.2.receivedAt →
        r ∈ (Purge.after job b s o n).store.media.rows ∧
        (Purge.after job b s o n).objects.get? r.2.s3Key = o.get? r.2.s3Key) ∧
    (job.dryRun = true → (Purge.after job b s o n).store.media = s.media ∧
      (Purge.after job b s o n).store.transcripts = s.transcripts ∧
      (Purge.after job b s o n).objects = o) := by
  refine ⟨fun hunique hdated r hr hrecent => ?_, fun hdry => Purge.after_dryRun hdry s o n⟩
  have h : Purge.Faithful job s o (Purge.after job b s o n) := Purge.faithful_after hunique o n
  have hfresh : ¬ Expired job.tenantId job.audioCutoff r :=
    fun hexp => absurd hexp.2 (not_lt.mpr hrecent)
  have hmem := (h.gone r hr).resolve_right hfresh
  refine ⟨hmem, ?_⟩
  rcases h.objects r hmem with hdel | hswept | hsame
  · obtain ⟨⟨k, row⟩, hr', hexp, hid⟩ := h.deleted r.1 hdel
    obtain ⟨k', row'⟩ := r
    obtain rfl : k' = k := hid
    exact absurd (Table.eq_of_mem hr hr' ▸ hexp) hfresh
  · exact absurd (expired_of_swept hdated hr hswept) hfresh
  · exact hsame

/-! ## A night's run -/

def nightly : RetentionJob where
  tenantId := "t1"
  audioDays := 30
  transcriptDays := 365
  now := 20697 * day + 2 * 3600 * 10 ^ 6
  batchSize := 2
  fromIsoFormat := fun text =>
    if text = "2026-07-01" then some 20635 else if text = "2026-08-01" then some 20666 else none

def twoSegments : RetentionStore where
  media := ⟨[
    (("c1", .far, 0),
      ⟨"t1", segmentKey "t1" "2026-07-01" "c1" .far 0, false, 20635 * day⟩),
    (("c2", .near, 3),
      ⟨"t1", segmentKey "t1" "2026-08-01" "c2" .near 3, false, nightly.audioCutoff⟩)], by decide⟩

def twoObjects : Objects :=
  ⟨[(segmentKey "t1" "2026-07-01" "c1" .far 0, [1]),
    (segmentKey "t1" "2026-08-01" "c2" .near 3, [2])], by decide +kernel⟩

theorem twoSegments_unique : UniqueKeys twoSegments.media := by
  unfold UniqueKeys twoSegments
  decide +kernel

theorem twoSegments_dated : Dated nightly twoSegments.media := by
  intro r hr
  simp only [twoSegments, mem_cons, not_mem_nil, or_false] at hr
  rcases hr with rfl | rfl
  · exact ⟨by decide, "2026-07-01", "c1", by decide, rfl, by decide +kernel⟩
  · exact ⟨by decide, "2026-08-01", "c2", by decide, rfl, by decide +kernel⟩

theorem nightly_keeps_recent :
    (Purge.after nightly {} twoSegments twoObjects 10).phase = .done ∧
      (Purge.after nightly {} twoSegments twoObjects 10).objects.keys =
        [segmentKey "t1" "2026-08-01" "c2" .near 3] ∧
      ∀ r ∈ twoSegments.media.rows, nightly.audioCutoff ≤ r.2.receivedAt →
        r ∈ (Purge.after nightly {} twoSegments twoObjects 10).store.media.rows ∧
        (Purge.after nightly {} twoSegments twoObjects 10).objects.get? r.2.s3Key =
          twoObjects.get? r.2.s3Key :=
  ⟨by decide +kernel, by decide +kernel,
    (purge_keeps_recent nightly {} twoSegments twoObjects 10).1 twoSegments_unique
      twoSegments_dated⟩

end Sentinel.Workers
