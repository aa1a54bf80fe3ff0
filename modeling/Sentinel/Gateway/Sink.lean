import Sentinel.Lib.Table
import Sentinel.Protocol

/-!
# The durable side of ingest

`DBSink` (`sink.go`) writes four Postgres tables: the calls, their segments, the watermarks and the
finalize outbox. Each method is one transaction run as the tenant of the connection.
-/

namespace Sentinel

abbrev Uuid := String

abbrev Time := Int

structure SinkEnv where
  callUuid : CallId → Option Uuid
  parseTime : String → Option Time
  hasUser : String → String → Bool

structure CallRow where
  tenantId : String
  deviceId : String
  userUid : String
  startedAt : Time
  direction : CallDirection
  accountRef : Option String
  dialerCallId : Option String
  tier : CaptureTier
  ended : Option (Time × EndReason) := none
  deriving DecidableEq

structure SegmentEntry where
  tenantId : String
  bytes : Nat
  timestampMs : Nat
  foreignAudio : Bool
  silenceInserted : Bool
  deriving DecidableEq

structure OutboxRow where
  tenantId : String
  finalizedAt : Time
  deriving DecidableEq

inductive Fault where
  | none
  | refused
  | unreported
  deriving DecidableEq, Repr

inductive Write where
  | segment (call : Uuid) (channel : Channel) (seq : Int)
  | watermark (call : Uuid) (channel : Channel)
  | ended (call : Uuid)
  deriving DecidableEq

def Write.call : Write → Uuid
  | .segment u _ _ => u
  | .watermark u _ => u
  | .ended u => u

structure Sink where
  calls : Table Uuid CallRow := ∅
  segments : Table (Uuid × Channel × Int) SegmentEntry := ∅
  watermarks : Table (Uuid × Channel) Int := ∅
  outbox : Table Uuid OutboxRow := ∅
  faults : List Fault := []
  puts : List MediaRecord := []
  writes : List Write := []

def asInt32 (n : Nat) : Int := Int.bmod n (2 ^ 32)

def asUint32 (i : Int) : Nat := (i % 2 ^ 32).toNat

theorem asInt32_of_lt {n : Nat} (h : n < 2 ^ 31) : asInt32 n = n := by
  unfold asInt32
  rw [Int.bmod_def]
  omega

theorem asUint32_natCast {n : Nat} (h : n < 2 ^ 32) : asUint32 n = n := by
  unfold asUint32
  omega

namespace Sink

def nextFault (s : Sink) : Fault × Sink :=
  match s.faults with
  | [] => (.none, s)
  | f :: fs => (f, { s with faults := fs })

def newCallRow (cs : CallStart) (tenantId deviceId : String) (startedAt : Time) : CallRow where
  tenantId := tenantId
  deviceId := deviceId
  userUid := cs.userUid
  startedAt := startedAt
  direction := cs.direction
  accountRef := cs.accountRef
  dialerCallId := cs.dialerCallId
  tier := cs.tier

def ackedOf (s : Sink) (u : Uuid) : Channel → Option Nat :=
  fun ch => (s.watermarks.get? (u, ch)).map asUint32

def ensureCall (env : SinkEnv) (s : Sink) (cs : CallStart) (tenantId deviceId : String) :
    Sink × Option (Bool × (Channel → Option Nat)) :=
  match env.callUuid cs.callId, env.parseTime cs.startedAt with
  | some u, some startedAt =>
    let (fault, s) := s.nextFault
    if fault = .refused then (s, none)
    else
      -- `INSERT ... SELECT ... FROM users`: no row without the user, none over a row.
      let inserted := env.hasUser cs.userUid tenantId && u ∉ s.calls.keys
      let calls := if inserted
        then s.calls.insertNew u (newCallRow cs tenantId deviceId startedAt) else s.calls
      let s := { s with calls }
      if fault = .unreported then (s, none)
      else (s, some (!inserted, s.ackedOf u))
  | _, _ => (s, none)

def putSegment (env : SinkEnv) (s : Sink) (tenant : String) (callId : CallId)
    (r : MediaRecord) : Sink × Bool :=
  match env.callUuid callId with
  | some u =>
    let (fault, s) := s.nextFault
    if fault = .refused then (s, false)
    -- The row policy wants a call of this tenant; the foreign key wants a call.
    else if !((s.calls.get? u).any (·.tenantId = tenant)) then (s, false)
    else
      let key := (u, r.channel, asInt32 r.seq)
      let entry : SegmentEntry :=
        { tenantId := tenant, bytes := r.payload.length, timestampMs := r.timestampMs,
          foreignAudio := r.flags.foreign, silenceInserted := r.flags.silenceInserted }
      let writes := if key ∈ s.segments.keys then s.writes
        else s.writes ++ [.segment u r.channel (asInt32 r.seq)]
      let s := { s with segments := s.segments.insertNew key entry, writes }
      if fault = .unreported then (s, false)
      else ({ s with puts := s.puts ++ [{ r with callId := callId }] }, true)
  | none => (s, false)

def setWatermark (env : SinkEnv) (s : Sink) (callId : CallId) (channel : Channel)
    (throughSeq : Nat) : Sink × Bool :=
  match env.callUuid callId with
  | some u =>
    let (fault, s) := s.nextFault
    if fault = .refused then (s, false)
    else if u ∉ s.calls.keys then (s, false)
    else
      let old := s.watermarks.get? (u, channel)
      let through := match old with
        | some w => max w (asInt32 throughSeq)
        | none => asInt32 throughSeq
      let s := { s with watermarks := s.watermarks.put (u, channel) through
                        writes := s.writes ++ [.watermark u channel] }
      (s, fault ≠ .unreported)
  | none => (s, false)

def finishCall (env : SinkEnv) (s : Sink) (tenant : String) (ce : CallEnd) : Sink × Bool :=
  match env.callUuid ce.callId, env.parseTime ce.endedAt with
  | some u, some endedAt =>
    let (fault, s) := s.nextFault
    if fault = .refused then (s, false)
    else
      match s.calls.get? u with
      | some row =>
        if row.tenantId = tenant ∧ row.ended = none then
          let s := { s with
            calls := s.calls.put u { row with ended := some (endedAt, ce.reason) }
            outbox := s.outbox.insertNew u { tenantId := tenant, finalizedAt := endedAt }
            writes := s.writes ++ [.ended u] }
          (s, fault ≠ .unreported)
        else (s, fault ≠ .unreported)
      | none => (s, fault ≠ .unreported)
  | _, _ => (s, false)

/-! ## What each transaction can have done -/

variable {env : SinkEnv} {s : Sink}

theorem any_row_iff {c : CallId} {p : CallRow → Bool} :
    ((env.callUuid c).bind s.calls.get?).any p = true ↔
      ∃ u row, env.callUuid c = some u ∧ s.calls.get? u = some row ∧ p row = true := by
  simp only [Option.any_eq_true, Option.bind_eq_some_iff]
  constructor
  · rintro ⟨row, ⟨u, hu, hget⟩, hrow⟩
    exact ⟨u, row, hu, hget, hrow⟩
  rintro ⟨u, row, hu, hget, hrow⟩
  exact ⟨row, ⟨u, hu, hget⟩, hrow⟩

theorem nextFault_spec (s : Sink) : ∃ fs, s.nextFault.2 = { s with faults := fs } := by
  unfold nextFault
  split
  · exact ⟨s.faults, rfl⟩
  · exact ⟨_, rfl⟩

theorem ensureCall_spec (env : SinkEnv) (s : Sink) (cs : CallStart) (tenant device : String) :
    ∃ calls fs, (s.ensureCall env cs tenant device).1 = { s with calls := calls, faults := fs } ∧
      (calls = s.calls ∨ ∃ u at_, env.callUuid cs.callId = some u ∧ u ∉ s.calls.keys ∧
        calls = s.calls.insertNew u (newCallRow cs tenant device at_)) ∧
      ∀ existed acked, (s.ensureCall env cs tenant device).2 = some (existed, acked) →
        ∃ u, env.callUuid cs.callId = some u ∧ acked = s.ackedOf u := by
  unfold ensureCall
  split
  · rename_i u startedAt hu _
    obtain ⟨fs, hfs⟩ := nextFault_spec s
    dsimp only
    rw [hfs]
    split
    · exact ⟨s.calls, fs, rfl, Or.inl rfl, by simp⟩
    by_cases hins : (env.hasUser cs.userUid tenant && decide (u ∉ s.calls.keys)) = true
    · have hnew : u ∉ s.calls.keys := by simpa using (Bool.and_eq_true_iff.mp hins).2
      refine ⟨_, fs, ?_, Or.inr ⟨u, startedAt, hu, hnew, rfl⟩, ?_⟩
      · rw [if_pos hins]
        split <;> rfl
      intro existed acked h
      split at h
      · cases h
      cases h
      exact ⟨u, hu, rfl⟩
    refine ⟨s.calls, fs, ?_, Or.inl rfl, ?_⟩
    · rw [if_neg hins]
      split <;> rfl
    intro existed acked h
    split at h
    · cases h
    cases h
    exact ⟨u, hu, rfl⟩
  · exact ⟨s.calls, s.faults, rfl, Or.inl rfl, by simp⟩

theorem putSegment_spec (env : SinkEnv) (s : Sink) (tenant : String) (c : CallId)
    (r : MediaRecord) :
    ∃ segments fs puts writes, (s.putSegment env tenant c r).1 =
        { s with segments := segments, faults := fs, puts := puts, writes := writes } ∧
      ((segments = s.segments ∧ puts = s.puts ∧ writes = s.writes) ∨
        ∃ u entry, env.callUuid c = some u ∧
        (s.calls.get? u).any (·.tenantId = tenant) ∧
        segments = s.segments.insertNew (u, r.channel, asInt32 r.seq) entry ∧
        (writes = s.writes ∨ writes = s.writes ++ [.segment u r.channel (asInt32 r.seq)])) ∧
      (((s.putSegment env tenant c r).2 = true ∧ puts = s.puts ++ [{ r with callId := c }]) ∨
        ((s.putSegment env tenant c r).2 = false ∧ puts = s.puts)) := by
  unfold putSegment
  split
  · rename_i u hu
    obtain ⟨fs, hfs⟩ := nextFault_spec s
    dsimp only
    rw [hfs]
    split
    · exact ⟨_, fs, _, _, rfl, Or.inl ⟨rfl, rfl, rfl⟩, Or.inr ⟨rfl, rfl⟩⟩
    split
    · exact ⟨_, fs, _, _, rfl, Or.inl ⟨rfl, rfl, rfl⟩, Or.inr ⟨rfl, rfl⟩⟩
    rename_i hvisible
    have hany : (s.calls.get? u).any (·.tenantId = tenant) = true := by simpa using hvisible
    have hwrites : ∀ w : List Write, (w = if (u, r.channel, asInt32 r.seq) ∈ s.segments.keys
        then s.writes else s.writes ++ [.segment u r.channel (asInt32 r.seq)]) →
        w = s.writes ∨ w = s.writes ++ [.segment u r.channel (asInt32 r.seq)] := by
      intro w hw
      split at hw
      · exact Or.inl hw
      · exact Or.inr hw
    split
    · exact ⟨_, fs, _, _, rfl, Or.inr ⟨u, _, hu, hany, rfl, hwrites _ rfl⟩, Or.inr ⟨rfl, rfl⟩⟩
    · exact ⟨_, fs, _, _, rfl, Or.inr ⟨u, _, hu, hany, rfl, hwrites _ rfl⟩, Or.inl ⟨rfl, rfl⟩⟩
  · exact ⟨_, _, _, _, rfl, Or.inl ⟨rfl, rfl, rfl⟩, Or.inr ⟨rfl, rfl⟩⟩

theorem setWatermark_spec (env : SinkEnv) (s : Sink) (c : CallId) (ch : Channel) (t : Nat) :
    ∃ marks fs writes, (s.setWatermark env c ch t).1 =
        { s with watermarks := marks, faults := fs, writes := writes } ∧
      ((marks = s.watermarks ∧ writes = s.writes) ∨ ∃ u w, env.callUuid c = some u ∧
        u ∈ s.calls.keys ∧ marks = s.watermarks.put (u, ch) w ∧
        (w = asInt32 t ∨ s.watermarks.get? (u, ch) = some w) ∧
        writes = s.writes ++ [.watermark u ch]) := by
  unfold setWatermark
  split
  · rename_i u hu
    obtain ⟨fs, hfs⟩ := nextFault_spec s
    dsimp only
    rw [hfs]
    split
    · exact ⟨_, fs, _, rfl, Or.inl ⟨rfl, rfl⟩⟩
    split
    · exact ⟨_, fs, _, rfl, Or.inl ⟨rfl, rfl⟩⟩
    rename_i hkey
    refine ⟨_, fs, _, rfl, Or.inr ⟨u, _, hu, not_not.mp hkey, rfl, ?_, rfl⟩⟩
    cases hw : s.watermarks.get? (u, ch) with
    | none => exact Or.inl rfl
    | some w =>
      rcases le_total w (asInt32 t) with hle | hle
      · exact Or.inl (max_eq_right hle)
      · exact Or.inr (congrArg some (max_eq_left hle).symm)
  · exact ⟨_, _, _, rfl, Or.inl ⟨rfl, rfl⟩⟩

theorem finishCall_spec (env : SinkEnv) (s : Sink) (tenant : String) (ce : CallEnd) :
    ∃ calls outbox fs writes, (s.finishCall env tenant ce).1 =
        { s with calls := calls, outbox := outbox, faults := fs, writes := writes } ∧
      ((calls = s.calls ∧ outbox = s.outbox ∧ writes = s.writes) ∨
        ∃ u row at_, env.callUuid ce.callId = some u ∧ s.calls.get? u = some row ∧
          row.tenantId = tenant ∧ row.ended = none ∧
          calls = s.calls.put u { row with ended := some (at_, ce.reason) } ∧
          outbox = s.outbox.insertNew u { tenantId := tenant, finalizedAt := at_ } ∧
          writes = s.writes ++ [.ended u]) := by
  unfold finishCall
  split
  · rename_i u at_ hu _
    obtain ⟨fs, hfs⟩ := nextFault_spec s
    dsimp only
    rw [hfs]
    split
    · exact ⟨_, _, fs, _, rfl, Or.inl ⟨rfl, rfl, rfl⟩⟩
    split
    · rename_i row hrow
      split
      · rename_i hopen
        exact ⟨_, _, fs, _, rfl, Or.inr ⟨u, row, at_, hu, hrow, hopen.1, hopen.2, rfl, rfl, rfl⟩⟩
      · exact ⟨_, _, fs, _, rfl, Or.inl ⟨rfl, rfl, rfl⟩⟩
    · exact ⟨_, _, fs, _, rfl, Or.inl ⟨rfl, rfl, rfl⟩⟩
  · exact ⟨_, _, _, _, rfl, Or.inl ⟨rfl, rfl, rfl⟩⟩

end Sink

end Sentinel
