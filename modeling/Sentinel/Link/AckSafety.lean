import Sentinel.Gateway.Acknowledging
import Sentinel.Link.World

/-!
# Nothing is deleted before it is stored

The client deletes a spooled segment when an acknowledgement covers it, and passes it over when the
resume plan does.
-/

open List

namespace Sentinel

open Uplink Spool

/-! ## Accounting for rows -/

def evictedCount (events : List ClientEvent) : Nat :=
  ((events.filter fun e => e.kind = .spoolEviction).map fun e => e.count.getD 0).sum

@[simp] theorem evictedCount_append (es fs : List ClientEvent) :
    evictedCount (es ++ fs) = evictedCount es + evictedCount fs := by
  simp [evictedCount]

structure Accounts (puts : List MediaRecord) (before after : List SegmentRow)
    (events : List ClientEvent) (evicted : List SegmentRow) : Prop where
  sub : after ⊆ before
  nodup : evicted.Nodup
  counted : evicted.length = evictedCount events
  gone : ∀ r ∈ evicted, r ∈ before ∧ r ∉ after
  rest : ∀ r ∈ before, r ∉ after → toRecord r ∈ puts ∨ r ∈ evicted

namespace Accounts

variable {puts : List MediaRecord} {before after after' evicted evicted' : List SegmentRow}
  {events events' : List ClientEvent}

theorem of_stored (hsub : after ⊆ before) (hev : evictedCount events = 0)
    (hstored : ∀ r ∈ before, r ∉ after → toRecord r ∈ puts) :
    Accounts puts before after events [] :=
  ⟨hsub, nodup_nil, hev.symm, by simp, fun r hr hgone => Or.inl (hstored r hr hgone)⟩

theorem refl (rows : List SegmentRow) (hev : evictedCount events = 0) :
    Accounts puts rows rows events [] :=
  of_stored (Subset.refl _) hev fun _ hr hgone => absurd hr hgone

theorem of_shrinks {t t' : Table SegmentKey SegmentBody} {n : Nat} (h : t.Shrinks t' n)
    (hev : evictedCount events = n) :
    Accounts puts t.rows t'.rows events (t.rows.filter (· ∉ t'.rows)) where
  sub := h.sublist.subset
  nodup := t.nodup.of_map.filter _
  counted := h.length_removed.trans hev.symm
  gone := fun r hr => by simpa using mem_filter.mp hr
  rest := fun r hr hgone => Or.inr (mem_filter.mpr ⟨hr, by simpa using hgone⟩)

theorem trans (h : Accounts puts before after events evicted)
    (h' : Accounts puts after after' events' evicted') :
    Accounts puts before after' (events ++ events') (evicted ++ evicted') where
  sub := Subset.trans h'.sub h.sub
  nodup := h.nodup.append h'.nodup fun r hr hr' => (h.gone r hr).2 (h'.gone r hr').1
  counted := by rw [length_append, h.counted, h'.counted, evictedCount_append]
  gone := by
    intro r hr
    rcases mem_append.mp hr with hr | hr
    · exact ⟨(h.gone r hr).1, fun hmem => (h.gone r hr).2 (h'.sub hmem)⟩
    · exact ⟨h.sub (h'.gone r hr).1, (h'.gone r hr).2⟩
  rest := by
    intro r hr hgone
    by_cases hmid : r ∈ after
    · exact (h'.rest r hmid hgone).imp_right fun he => mem_append.mpr (Or.inr he)
    · exact (h.rest r hr hmid).imp_right fun he => mem_append.mpr (Or.inl he)

end Accounts

/-! ## Rows and records -/

def FromPushed (pushed : List SegmentRow) (r : MediaRecord) : Prop :=
  ∃ row ∈ pushed, r = toRecord row

structure Journal (puts : List MediaRecord) (pushed : List SegmentRow) : Prop where
  small : ∀ row ∈ pushed, row.1.seq < 2 ^ 31
  unique : ∀ row ∈ pushed, ∀ row' ∈ pushed, row.1 = row'.1 → row = row'
  puts : ∀ r ∈ puts, FromPushed pushed r

theorem Journal.stored {puts : List MediaRecord} {pushed : List SegmentRow} {row : SegmentRow}
    (h : Journal puts pushed) (hrow : row ∈ pushed)
    (hq : row.1.seq ∈ storedSeqs puts row.1.callId row.1.channel) : toRecord row ∈ puts := by
  obtain ⟨r, hr, hcall, hchannel, hseq⟩ := hq
  obtain ⟨row', hrow', rfl⟩ := h.puts r hr
  have hkey : row'.1 = row.1 := by
    rcases hk' : row'.1 with ⟨c', ch', q'⟩
    rcases hk : row.1 with ⟨c, ch, q⟩
    simp only [toRecord, hk', hk] at hcall hchannel hseq
    rw [hcall, hchannel, hseq]
  rwa [← h.unique row' hrow' row hrow hkey]

/-! ## The client's numbers -/

structure Uplink.Safe (puts : List MediaRecord) (pushed : List SegmentRow) (u : Uplink) :
    Prop where
  labelled : Uplink.Labelled u
  rows : ∀ row ∈ u.spool.segments.rows, row ∈ pushed
  acks : ∀ c ch t, u.spool.acks.get? (c, ch) = some t → Covered puts c ch t
  points : ∀ c p, u.resumePoints.get? c = some p → ∀ ch q, q < p ch → q ∈ storedSeqs puts c ch

namespace Uplink.Safe

variable {puts puts' : List MediaRecord} {pushed pushed' : List SegmentRow} {u u' : Uplink}
  {p : Uplink.SendPass} {m : ServerMessage} {now : Nat}

theorem mono (h : u.Safe puts pushed) (hputs : puts ⊆ puts') (hpushed : pushed ⊆ pushed') :
    u.Safe puts' pushed' where
  labelled := h.labelled
  rows := fun row hrow => hpushed (h.rows row hrow)
  acks := fun c ch t ht => (h.acks c ch t ht).mono hputs
  points := fun c p hp ch q hq => storedSeqs_mono hputs c ch (h.points c p hp ch q hq)

variable {c : CallId} {ch : Channel}

theorem plan (h : u.Safe puts pushed) {acked : Channel → Option Nat}
    (hacked : ∀ ch t, acked ch = some t → Covered puts c ch t) {q : Nat}
    (hq : shouldSend (Sentinel.plan (u.spool.ackedThrough c) acked) ch q = false) :
    q ∈ storedSeqs puts c ch := by
  rcases covered_of_not_shouldSend hq with ⟨t, ht, hle⟩ | ⟨t, ht, hle⟩
  · exact h.acks c ch t ht hle
  · exact hacked ch t ht hle

theorem skipped (h : u.Safe puts pushed) {q : Nat}
    (hq : shouldSend (u.resumePointFor c) ch q = false) : q ∈ storedSeqs puts c ch := by
  unfold resumePointFor at hq
  split at hq
  · rename_i point hpoint
    exact h.points c point hpoint ch q (by simpa [shouldSend] using hq)
  · exact h.plan (by simp) hq

theorem effectiveAck (h : u.Safe puts pushed) {t : Nat} (ht : Covered puts c ch t) :
    Covered puts c ch (u.spool.effectiveAck c ch t) := by
  unfold Spool.effectiveAck
  split
  · rename_i old hold
    rcases le_total old t with hle | hle
    · rwa [max_eq_right hle]
    rw [max_eq_left hle]
    exact h.acks c ch old hold
  · exact ht

theorem sender (h : u.Safe puts pushed) : u.sender.Safe puts pushed := by
  refine ⟨h.labelled.sender, ?_, ?_, ?_⟩ <;> unfold Uplink.sender <;> split
  · exact h.rows
  · exact h.rows
  · exact h.acks
  · exact h.acks
  · exact h.points
  · simp [onConnected]

theorem sends (h : u.Safe puts pushed) (hp : Sends u p) : p.up.Safe puts pushed :=
  ⟨h.labelled.sends hp, hp.spool ▸ h.rows, hp.spool ▸ h.acks, hp.resumePoints ▸ h.points⟩

theorem received (h : u.Safe puts pushed) (hm : Backed puts m) :
    (received now u m).Safe puts pushed := by
  have hlabelled := h.labelled.received now m
  rcases received_cases now u m with
    ⟨c, ch, t, rfl, he⟩ | ⟨c, acked, rfl, he⟩ | ⟨e, -, -, he⟩ | ⟨_, he⟩ <;> rw [he] at hlabelled ⊢
  · refine ⟨hlabelled, fun row hrow => h.rows row (mem_ack.mp hrow).1, ?_, h.points⟩
    intro c' ch' t' ht
    change (u.spool.ack c ch t).1.acks.get? (c', ch') = some t' at ht
    rw [ack_get?] at ht
    split at ht
    · rename_i heq
      obtain ⟨rfl, rfl⟩ := Prod.mk.inj heq
      rw [← Option.some.inj ht]
      exact h.effectiveAck hm
    · exact h.acks c' ch' t' ht
  · refine ⟨hlabelled, h.rows, h.acks, ?_⟩
    intro c' p hp ch q hq
    change (u.resumePoints.put c (Sentinel.plan (u.spool.ackedThrough c) acked)).get? c' =
      some p at hp
    rw [Table.get?_put] at hp
    split at hp
    · rename_i heq
      rw [← Option.some.inj hp] at hq
      rw [heq]
      exact h.plan hm (by simpa [shouldSend] using hq)
    · exact h.points c' p hp ch q hq
  · refine ⟨hlabelled, fun row hrow => h.rows row ?_, h.acks, h.points⟩
    exact ((mem_sealCall e.callId e.code now).mp hrow).1
  · exact ⟨hlabelled, h.rows, h.acks, h.points⟩

theorem dropConnection (h : u.Safe puts pushed) (t delay : Nat) :
    (u.dropConnection t delay).Safe puts pushed :=
  ⟨⟨h.labelled.start, h.labelled.stop, h.labelled.known⟩, h.rows, h.acks, h.points⟩

theorem received_accounts (hj : Journal puts pushed) (h : u.Safe puts pushed)
    (hm : Backed puts m) (now : Nat) :
    ∃ new evicted, (Uplink.received now u m).events = u.events ++ new ∧
      Accounts puts u.spool.segments.rows (Uplink.received now u m).spool.segments.rows new
        evicted := by
  rcases received_cases now u m with
    ⟨c, ch, t, rfl, he⟩ | ⟨_, _, -, he⟩ | ⟨e, -, -, he⟩ | ⟨_, he⟩ <;> rw [he]
  · refine ⟨[], [], (append_nil _).symm, .of_stored ?_ rfl fun r hr hgone => ?_⟩
    · exact fun r hr => (mem_ack.mp hr).1
    have hcov : r.1.callId = c ∧ r.1.channel = ch ∧ r.1.seq ≤ u.spool.effectiveAck c ch t := by
      by_contra hkept
      exact hgone (mem_ack.mpr ⟨hr, hkept⟩)
    obtain ⟨rfl, rfl, hseq⟩ := hcov
    exact hj.stored (h.rows r hr) (h.effectiveAck hm hseq)
  · exact ⟨[], [], (append_nil _).symm, .refl _ rfl⟩
  · obtain ⟨k, hshrinks, hev⟩ := sealCall_spec u.spool e.callId e.code now
    refine ⟨_, _, rfl, .of_shrinks hshrinks ?_⟩
    rw [hev]
    simp [evictedCount]
  · exact ⟨[], [], (append_nil _).symm, .refl _ rfl⟩

theorem read (hj : Journal puts pushed) (h : u.Safe puts pushed) {msgs : List ServerMessage}
    (hmsgs : ∀ m ∈ msgs, Backed puts m) (now : Nat) :
    (msgs.foldl (Uplink.received now) u).Safe puts pushed ∧
    ∃ new evicted, (msgs.foldl (Uplink.received now) u).events = u.events ++ new ∧
      Accounts puts u.spool.segments.rows
        (msgs.foldl (Uplink.received now) u).spool.segments.rows new evicted := by
  induction msgs generalizing u with
  | nil => exact ⟨h, [], [], (append_nil _).symm, .refl _ rfl⟩
  | cons m msgs ih =>
    have hm : Backed puts m := hmsgs m mem_cons_self
    obtain ⟨new₁, evicted₁, hnew₁, hacc₁⟩ := h.received_accounts hj hm now
    obtain ⟨hsafe, new₂, evicted₂, hnew₂, hacc₂⟩ :=
      ih (h.received hm) fun m hm => hmsgs m (mem_cons_of_mem _ hm)
    refine ⟨hsafe, new₁ ++ new₂, evicted₁ ++ evicted₂, ?_, hacc₁.trans hacc₂⟩
    rw [foldl_cons, hnew₂, hnew₁, append_assoc]

theorem pump (hj : Journal puts pushed) (h : u.Safe puts pushed) (now : Nat)
    (penv : Uplink.PumpEnv) {incoming : List ServerMessage} (hin : ∀ m ∈ incoming, Backed puts m) :
    (u.pump now penv incoming).up.Safe puts pushed ∧
    (∃ new evicted, (u.pump now penv incoming).up.events = u.events ++ new ∧
      Accounts puts u.spool.segments.rows
        (u.pump now penv incoming).up.spool.segments.rows new evicted) ∧
    (∀ row ∈ (u.pump now penv incoming).skipped, toRecord row ∈ puts) ∧
    ∀ records, .media records ∈ (u.pump now penv incoming).out →
      ∀ r ∈ records, FromPushed pushed r := by
  rcases Uplink.pump_spec h.labelled now penv incoming with
    ⟨-, p, msgs, hp⟩ | ⟨-, -, t, he⟩
  · have hsender : u.sender.spool = u.spool ∧ u.sender.events = u.events := by
      unfold Uplink.sender
      split <;> exact ⟨rfl, rfl⟩
    obtain ⟨hread, new, evicted, hnew, hacc⟩ := (h.sender.sends hp.sends).read hj
      (fun m hm => hin m (hp.read.subset hm)) now
    rw [hp.sends.spool, hsender.1] at hacc
    rw [hp.sends.events, hsender.2] at hnew
    refine ⟨?_, ?_, fun row hrow => ?_, fun records hrecords r hr => ?_⟩
    · rcases hp.up with he | he
      · exact he ▸ hread
      · exact he ▸ hread.dropConnection now penv.delayMs
    · rcases hp.up with he | he
      · exact ⟨new, evicted, he ▸ hnew, he ▸ hacc⟩
      rw [he]
      refine ⟨new ++ [Uplink.reconnectEvent now], evicted ++ [], ?_, hacc.trans (.refl _ rfl)⟩
      rw [← append_assoc, ← hnew]
      rfl
    · rw [hp.skipped] at hrow
      obtain ⟨hrow, hskip⟩ := hp.sends.skipped row hrow
      exact hj.stored (h.sender.rows row hrow) (h.sender.skipped hskip)
    rw [hp.out] at hrecords
    obtain ⟨row, hrow, rfl⟩ := hp.sends.frames _ hrecords r hr
    exact ⟨row, h.sender.rows row hrow, rfl⟩
  rw [he]
  exact ⟨⟨⟨h.labelled.start, h.labelled.stop, h.labelled.known⟩, h.rows, h.acks, h.points⟩,
    ⟨[], [], (append_nil _).symm, .refl _ rfl⟩, by simp, by simp⟩

theorem pushSegment (h : u.Safe puts pushed) {row : SegmentRow}
    (hpush : u.pushSegment row = .ok u') :
    u'.Safe puts (pushed ++ [row]) ∧ u.spool.isSealed row.1.callId = false ∧
    ∃ new evicted, u'.events = u.events ++ new ∧
      Accounts puts (u.spool.insert row).segments.rows u'.spool.segments.rows new evicted := by
  obtain ⟨spool, ev, hspool, rfl⟩ := pushSegment_ok hpush
  obtain ⟨hsealed, hcalls, hacks, k, hshrinks, hev⟩ := push_ok hspool
  refine ⟨⟨h.labelled.congr hcalls h.labelled.known, fun r hr => ?_, ?_, h.points⟩, hsealed,
    ev.toList, _, rfl, .of_shrinks hshrinks ?_⟩
  · rcases mem_insert.mp (hshrinks.mem hr) with hr | ⟨rfl, -⟩
    · exact mem_append.mpr (Or.inl (h.rows r hr))
    · exact mem_append.mpr (Or.inr (mem_singleton.mpr rfl))
  · simp only [hacks]
    exact h.acks
  rw [hev]
  split
  · rename_i hk
    exact hk.symm
  · simp [evictedCount]

end Uplink.Safe

/-! ## The world -/

structure World.Sound (env : SinkEnv) (w : World) : Prop where
  journal : Journal w.server.sink.puts w.pushed
  client : w.uplink.Safe w.server.sink.puts w.pushed
  server : w.server.Safe env (FromPushed w.pushed)
  frames : ∀ l ∈ w.links, ∀ records, .media records ∈ l.up → ∀ r ∈ records, FromPushed w.pushed r
  messages : ∀ l ∈ w.links, ∀ m ∈ l.down, Backed w.server.sink.puts m

def PushedInOrder (w : World) : WorldEvent → Prop
  | .push row => row.1.seq < 2 ^ 31 ∧ ∀ r ∈ w.pushed, r.1.callId = row.1.callId →
      r.1.channel = row.1.channel → r.1.seq < row.1.seq
  | _ => True

instance (w : World) : ∀ ev, Decidable (PushedInOrder w ev)
  | .push row => inferInstanceAs (Decidable (row.1.seq < 2 ^ 31 ∧ ∀ r ∈ w.pushed,
      r.1.callId = row.1.callId → r.1.channel = row.1.channel → r.1.seq < row.1.seq))
  | .beginCall .. | .endCall _ | .pump .. | .takeEvents | .restart | .serve .. | .tick ..
  | .hangup _ | .loseUp .. | .loseDown .. => .isTrue trivial

def rowsAtStake (w : World) : WorldEvent → List SegmentRow
  | .push row =>
    if w.uplink.spool.isSealed row.1.callId then w.uplink.spool.segments.rows
    else (w.uplink.spool.insert row).segments.rows
  | _ => w.uplink.spool.segments.rows

def rowsSkipped (env : SinkEnv) (w : World) : WorldEvent → List SegmentRow
  | .pump nowMs penv deliver d => ((w.ready env nowMs penv d).pumped nowMs penv deliver).skipped
  | _ => []

structure NothingLost (env : SinkEnv) (w : World) (ev : WorldEvent) : Prop where
  removed : ∃ evicted, Accounts w.server.sink.puts (rowsAtStake w ev)
    (w.step env ev).uplink.spool.segments.rows
    ((w.step env ev).uplink.events.drop w.uplink.events.length) evicted
  skipped : ∀ row ∈ rowsSkipped env w ev, toRecord row ∈ w.server.sink.puts

namespace World.Sound

variable {env : SinkEnv} {w : World}

variable {ev : WorldEvent}

theorem nothingLost_of_rows
    (hrows : (w.step env ev).uplink.spool.segments = w.uplink.spool.segments)
    (hevents : (w.step env ev).uplink.events.drop w.uplink.events.length = [])
    (hstake : rowsAtStake w ev = w.uplink.spool.segments.rows) (hskip : rowsSkipped env w ev = []) :
    NothingLost env w ev where
  removed := by
    rw [hrows, hstake, hevents]
    exact ⟨[], .refl _ rfl⟩
  skipped := by simp [hskip]

theorem dial (h : w.Sound env) (d : Dial) : (w.dial env d).Sound env where
  journal := h.journal
  client := h.client
  server := h.server.accept d.peer d.cfg d.policyVersion d.now
  frames := forall_mem_append.mpr ⟨h.frames, by simp⟩
  messages := forall_mem_append.mpr ⟨h.messages, by simp⟩

theorem ready (h : w.Sound env) (t : Nat) (penv : PumpEnv) (d : Dial) :
    (w.ready env t penv d).Sound env := by
  unfold World.ready
  split
  · exact h.dial d
  · exact h

theorem pump (h : w.Sound env) (t : Nat) (penv : PumpEnv) (n : Nat) :
    (w.pump t penv n).Sound env := by
  obtain ⟨hclient, -, -, hframes⟩ := h.client.pump h.journal t penv (forall_incoming h.messages _ n)
  refine ⟨h.journal, hclient, h.server, forall_mem_modify h.frames fun l hl records hrecords => ?_,
    forall_mem_modify h.messages fun l hl m hm => hl m (mem_of_mem_drop hm)⟩
  exact (mem_append.mp hrecords).elim (hl records) (hframes records)

theorem small (h : w.Sound env) : ∀ r, FromPushed w.pushed r → r.seq < 2 ^ 31 := by
  rintro r ⟨row, hrow, rfl⟩
  exact h.journal.small row hrow

theorem input (henv : env.Faithful) (h : w.Sound env) (k : Nat) {i : Input} (t : Time)
    (faults : List Fault)
    (hi : ∀ records, i = .frame (.media records) → ∀ r ∈ records, FromPushed w.pushed r) :
    (w.input env k i t faults).Sound env := by
  obtain ⟨hserver, hputs, hout⟩ := h.server.input henv h.small k t faults hi
  refine ⟨⟨h.journal.small, h.journal.unique, hserver.sink.puts⟩,
    h.client.mono hputs (Subset.refl _), hserver, forall_mem_modify h.frames fun _ hl => hl,
    fun l hl m hm => ?_⟩
  rcases input_down hl hm with ⟨l₀, hl₀, hm⟩ | ⟨x, hx, hm⟩
  · exact (h.messages l₀ hl₀ m hm).mono hputs
  · exact hout x hx m hm

theorem shrink (h : w.Sound env) (k : Nat) {f : Link → Link}
    (hup : ∀ l, (f l).up ⊆ l.up) (hdown : ∀ l, (f l).down ⊆ l.down) :
    World.Sound env { w with links := w.links.modify k f } where
  journal := h.journal
  client := h.client
  server := h.server
  frames := forall_mem_modify h.frames fun l hl records hr => hl records (hup l hr)
  messages := forall_mem_modify h.messages fun l hl m hm => hl m (hdown l hm)

theorem journal_push (h : w.Sound env) {row : SegmentRow} (hrow : PushedInOrder w (.push row)) :
    Journal w.server.sink.puts (w.pushed ++ [row]) := by
  have hnew : ∀ r ∈ w.pushed, r.1 ≠ row.1 := by
    intro r hr heq
    have hlt := hrow.2 r hr (by rw [heq]) (by rw [heq])
    rw [heq] at hlt
    exact lt_irrefl _ hlt
  refine ⟨fun r hr => ?_, fun r hr r' hr' heq => ?_, fun r hr => ?_⟩
  · rcases mem_append.mp hr with hr | hr
    · exact h.journal.small r hr
    rw [mem_singleton.mp hr]
    exact hrow.1
  · rw [mem_append, mem_singleton] at hr hr'
    rcases hr with hr | rfl <;> rcases hr' with hr' | rfl
    · exact h.journal.unique r hr r' hr' heq
    · exact absurd heq (hnew r hr)
    · exact absurd heq.symm (hnew r' hr')
    · rfl
  obtain ⟨row', hrow', he⟩ := h.journal.puts r hr
  exact ⟨row', mem_append.mpr (Or.inl hrow'), he⟩

theorem push (h : w.Sound env) {row : SegmentRow} (hrow : PushedInOrder w (.push row)) :
    (w.push row).Sound env := by
  rcases w.push_cases row with ⟨up, hpush, he⟩ | ⟨-, he⟩
  · have hmono : ∀ r, FromPushed w.pushed r → FromPushed (w.pushed ++ [row]) r := by
      rintro r ⟨row', hrow', he⟩
      exact ⟨row', mem_append.mpr (Or.inl hrow'), he⟩
    rw [he]
    exact ⟨h.journal_push hrow, (h.client.pushSegment hpush).1, h.server.weaken hmono,
      fun l hl records hr r hrec => hmono r (h.frames l hl records hr r hrec), h.messages⟩
  · rwa [he]

theorem work (henv : env.Faithful) (h : w.Sound env) {k : Nat} {i : Input} {t : Time}
    {faults : List Fault} (hev : w.Works ev k i t faults) :
    ((w.taken k i).input env k i t faults).Sound env := by
  have htaken : (w.taken k i).Sound env :=
    h.shrink k (fun l => drop_subset _ _) fun l => Subset.refl _
  refine htaken.input henv k t faults ?_
  rintro records rfl
  obtain ⟨l, hl, hmem⟩ := hev.mem
  exact h.frames l hl records hmem

theorem step (henv : env.Faithful) (h : w.Sound env) (hev : PushedInOrder w ev) :
    (w.step env ev).Sound env := by
  cases ev with
  | beginCall cs t =>
    exact ⟨h.journal, ⟨h.client.labelled.beginCall cs t, h.client.rows, h.client.acks,
      h.client.points⟩, h.server, h.frames, h.messages⟩
  | push row => exact h.push hev
  | endCall ce =>
    exact ⟨h.journal, ⟨h.client.labelled.endCall ce,
      (endCall_segments w.uplink.spool ce.callId ce).symm ▸ h.client.rows,
      (endCall_acks w.uplink.spool ce.callId ce).symm ▸ h.client.acks, h.client.points⟩,
      h.server, h.frames, h.messages⟩
  | pump t penv n d => exact (h.ready t penv d).pump t penv n
  | takeEvents =>
    exact ⟨h.journal, ⟨h.client.labelled.congr rfl h.client.labelled.known, h.client.rows,
      h.client.acks, h.client.points⟩, h.server, h.frames, h.messages⟩
  | restart =>
    exact ⟨h.journal, ⟨labelled_new h.client.labelled, h.client.rows, h.client.acks,
      fun c p hp => absurd hp (by simp [World.step, new])⟩, h.server, h.frames, h.messages⟩
  | serve k t faults =>
    change (w.serve env k t faults).Sound env
    rcases w.serve_cases env k t faults with he | ⟨f, hnext, -, he⟩ <;> rw [he]
    · exact h
    · exact h.work henv (.serve k f t faults hnext)
  | tick k t faults => exact h.input henv k t faults (by simp)
  | hangup k => exact ⟨h.journal, h.client, h.server.hangup k, h.frames, h.messages⟩
  | loseUp k i =>
    exact h.shrink k (fun l => (eraseIdx_sublist l.up i).subset) fun l => Subset.refl _
  | loseDown k i =>
    exact h.shrink k (fun l => Subset.refl _) fun l => (eraseIdx_sublist l.down i).subset

theorem nothingLost_push (h : w.Sound env) (row : SegmentRow) : NothingLost env w (.push row) := by
  rcases w.push_cases row with ⟨up, hpush, he⟩ | ⟨⟨e, herr⟩, he⟩
  · obtain ⟨-, hsealed, new, evicted, hnew, hacc⟩ := h.client.pushSegment hpush
    have hstep : (w.step env (.push row)).uplink = up := congrArg World.uplink he
    have hstake : rowsAtStake w (.push row) = (w.uplink.spool.insert row).segments.rows := by
      simp [rowsAtStake, hsealed]
    refine ⟨⟨evicted, ?_⟩, fun r hr => by cases hr⟩
    rwa [hstep, hstake, hnew, drop_left]
  have hsealed : w.uplink.spool.isSealed row.1.callId = true := by
    by_contra hopen
    simp [pushSegment, Spool.push, hopen] at herr
  have hstep : (w.step env (.push row)).uplink = w.uplink := congrArg World.uplink he
  refine nothingLost_of_rows (by rw [hstep]) (by rw [hstep, drop_length]) ?_ rfl
  simp [rowsAtStake, hsealed]

theorem nothingLost_pump (h : w.Sound env) (t : Nat) (penv : PumpEnv) (n : Nat) (d : Dial) :
    NothingLost env w (.pump t penv n d) := by
  have hready := h.ready t penv d
  have hsame := ready_client env w t penv d
  obtain ⟨-, ⟨new, evicted, hnew, hacc⟩, hskip, -⟩ :=
    hready.client.pump hready.journal t penv (forall_incoming hready.messages _ n)
  rw [hsame.2] at hacc hskip
  refine ⟨⟨evicted, ?_⟩, hskip⟩
  have hevents : (w.step env (.pump t penv n d)).uplink.events = w.uplink.events ++ new := by
    rwa [← hsame.1]
  rw [hevents, drop_left]
  change Accounts _ w.uplink.spool.segments.rows _ _ _
  rwa [← hsame.1]

theorem nothingLost (h : w.Sound env) (ev : WorldEvent) : NothingLost env w ev := by
  cases ev with
  | beginCall | tick | hangup | loseUp | loseDown =>
    exact nothingLost_of_rows rfl drop_length rfl rfl
  | push row => exact h.nothingLost_push row
  | endCall ce =>
    exact nothingLost_of_rows (endCall_segments _ _ _) drop_length rfl rfl
  | pump t penv n d => exact h.nothingLost_pump t penv n d
  | takeEvents | restart => exact nothingLost_of_rows rfl drop_nil rfl rfl
  | serve k t faults =>
    have huplink := w.serve_uplink env k t faults
    refine nothingLost_of_rows ?_ ?_ rfl rfl
    · exact congrArg (fun u => u.spool.segments) huplink
    change drop _ (w.serve env k t faults).uplink.events = []
    rw [huplink, drop_length]

end World.Sound

theorem World.sound_init (env : SinkEnv) (limits : SpoolLimits) :
    (World.init limits).Sound env where
  journal := ⟨by simp [init], by simp [init], by simp [init]⟩
  client := by
    refine ⟨labelled_init limits, ?_, ?_, ?_⟩ <;> intro c <;> simp [init, new]
  server := ⟨⟨by simp [init], fun u ch w hw => by simp [init] at hw⟩, by simp [init]⟩
  frames := by simp [init]
  messages := by simp [init]

/-- **Nothing is deleted before it is stored.** -/
theorem nothing_lost (env : SinkEnv) (henv : env.Faithful) (limits : SpoolLimits)
    (es : List WorldEvent) (h : Runs.Along (World.step env) PushedInOrder (World.init limits) es) :
    Runs.Along (World.step env) (NothingLost env) (World.init limits) es :=
  h.of_invariant (I := World.Sound env) (World.sound_init env limits)
    (fun _ _ hI hev => hI.step henv hev) fun _ ev hI _ => hI.nothingLost ev

def deliveredRun : List WorldEvent :=
  [.beginCall (startBy alice "call-1") 0, .push (rowOf "call-1" 0), pumpAs alice 0,
    .serve 0 0 [], .serve 0 0 [], pumpAs alice 1]

/-- The hypotheses of `nothing_lost` are met by a run that deletes a stored row. -/
theorem deliveredRun_nothing_lost :
    (Runs.run (World.step anyEnv) (World.init {}) deliveredRun).uplink.spool.segments.rows = [] ∧
      Runs.Along (World.step anyEnv) PushedInOrder (World.init {}) deliveredRun ∧
      Runs.Along (World.step anyEnv) (NothingLost anyEnv) (World.init {}) deliveredRun :=
  ⟨by decide, by decide, nothing_lost anyEnv anyEnv_faithful {} deliveredRun (by decide)⟩

/-! ## When nothing more is exchanged -/

def Uplink.Done (u : Uplink) : Prop := ∀ now, ∃ p, u.sendPending now none = .ok p ∧ p.out = []

/-- Connection `k` is the one the client has and the gateway serves; a send pass at any time would
send nothing; nothing is under way; and the session is `Settled`. -/
structure World.Quiet (w : World) (k : Nat) : Prop where
  newest : k + 1 = w.links.length
  connected : w.uplink.connected = true
  done : w.uplink.Done
  delivered : w.links[k]? = some {}
  settled : ∃ conn, w.server.conns[k]? = some conn ∧ conn.live = true ∧ conn.session.Settled

end Sentinel
