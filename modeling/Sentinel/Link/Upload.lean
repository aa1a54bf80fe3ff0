import Sentinel.Client.Upload
import Sentinel.Link.Codec

/-!
# What the gateway reads of an upload

The bytes of a send pass (`Client.Upload`) meet the gateway's reader (`Gateway.Wire`).
-/

open List (append_nil flatMap_append flatMap_id flatMap_map forall₂_map_right_iff forall₂_same
  length_cons map_append map_cons map_flatten map_map mem_append mem_cons_of_mem mem_cons_self
  mem_filter mem_flatten mem_map nil_append)

namespace Sentinel

open Protocol

namespace Upload

variable (callIdBytes : CallId → Vector UInt8 16)

def gatewayReads : List WireMessage → Except Wire.GoError (List Wire.MediaRecord)
  | [] => .ok []
  | .text _ :: ms => gatewayReads ms
  | .binary b :: ms => do
    let records ← Wire.decodeAll b
    let rest ← gatewayReads ms
    .ok (records ++ rest)

def Modest : ClientFrame → Prop
  | .media records => records.length ≤ segmentsPerMessage ∧
      ∀ r ∈ records, r.payload.length < 2 ^ 16
  | _ => True

def mediaOf (fs : List ClientFrame) : List MediaRecord :=
  fs.flatMap fun
    | .media records => records
    | _ => []

def received (records : List MediaRecord) : List Wire.MediaRecord :=
  records.map fun r => (packed callIdBytes r).toWire

theorem received_append (rs ss : List MediaRecord) :
    received callIdBytes (rs ++ ss) = received callIdBytes rs ++ received callIdBytes ss :=
  map_append

theorem length_message_le {records : List MediaRecord}
    (h : ∀ r ∈ records, r.payload.length < 2 ^ 16) :
    (message callIdBytes records).length ≤ records.length * (headerLen + 65535) := by
  induction records with
  | nil => simp [message]
  | cons r rs ih =>
    have hr : r.payload.length < 2 ^ 16 := h r mem_cons_self
    have hrs := ih fun s hs => h s (mem_cons_of_mem _ hs)
    have hone : (packed callIdBytes r).bytes.length = headerLen + r.payload.length :=
      MediaRecord.length_bytes _
    have hsplit : (message callIdBytes (r :: rs)).length =
        (packed callIdBytes r).bytes.length + (message callIdBytes rs).length := by
      simp [message]
    rw [hsplit, hone, length_cons, Nat.add_mul]
    omega

theorem decodeAll_message {records : List MediaRecord} (h : Modest (.media records)) :
    (message callIdBytes records).length ≤ maxMessageBytes ∧
      Wire.decodeAll (message callIdBytes records) = .ok (received callIdBytes records) := by
  obtain ⟨hcount, hpayload⟩ := h
  have hlen : (message callIdBytes records).length ≤ maxMessageBytes := by
    calc (message callIdBytes records).length
        ≤ records.length * (headerLen + 65535) := length_message_le callIdBytes hpayload
      _ ≤ segmentsPerMessage * (headerLen + 65535) := Nat.mul_le_mul_right _ hcount
      _ ≤ maxMessageBytes := by decide
  have hfits : ∀ r ∈ records.map (packed callIdBytes), r.Fits := by
    intro r hr
    obtain ⟨s, hs, rfl⟩ := mem_map.mp hr
    exact hpayload s hs
  have hbytes : message callIdBytes records =
      (records.map (packed callIdBytes)).flatMap MediaRecord.bytes := by
    rw [flatMap_map]
    rfl
  refine ⟨hlen, ?_⟩
  rw [hbytes] at hlen ⊢
  rw [Wire.decodeAll_bytes hfits hlen, map_map]
  rfl

theorem gatewayReads_onWire {fs : List ClientFrame} (h : ∀ f ∈ fs, Modest f) :
    gatewayReads (fs.map (onWire callIdBytes)) = .ok (received callIdBytes (mediaOf fs)) := by
  induction fs with
  | nil => rfl
  | cons f fs ih =>
    have hf : Modest f := h f mem_cons_self
    have hfs := ih fun g hg => h g (mem_cons_of_mem _ hg)
    rw [map_cons]
    cases f with
    | media records =>
      have hmedia : mediaOf (.media records :: fs) = records ++ mediaOf fs := by simp [mediaOf]
      rw [onWire, gatewayReads, (decodeAll_message callIdBytes hf).2, hfs, hmedia, received_append]
      rfl
    | _ => exact hfs

/-! ## The turns of a pass -/

open Uplink

def selects (now : Nat) (c : CallId) (u : Uplink) : List SegmentRow :=
  if u.spool.isSealed c || holds now c (opened now c u) then [] else selected c u

theorem outgoing_opened (now : Nat) (c : CallId) (u : Uplink) :
    outgoing c (opened now c u) = (selected c u).filter encodable := by
  unfold outgoing opened
  split <;> rfl

theorem mediaOf_map_text {α : Type} {f : α → ClientFrame} (hf : ∀ a, mediaOf [f a] = [])
    (xs : List α) : mediaOf (xs.map f) = [] := by
  induction xs with
  | nil => rfl
  | cons x xs ih =>
    have hcons : mediaOf (f x :: xs.map f) = mediaOf [f x] ++ mediaOf (xs.map f) := by
      simp [mediaOf]
    rw [map_cons, hcons, hf x, ih, nil_append]

theorem mediaOf_startFrames (c : CallId) (u : Uplink) : mediaOf (startFrames c u) = [] := by
  unfold startFrames
  split
  · rfl
  · exact mediaOf_map_text (fun _ => rfl) _

theorem mediaOf_endFrames (c : CallId) (u : Uplink) : mediaOf (endFrames c u) = [] := by
  unfold endFrames
  split
  · rfl
  · exact mediaOf_map_text (fun _ => rfl) _

theorem mediaOf_append (fs gs : List ClientFrame) : mediaOf (fs ++ gs) = mediaOf fs ++ mediaOf gs :=
  flatMap_append

theorem mediaOf_mediaFrames (c : CallId) (u : Uplink) :
    mediaOf (mediaFrames c u) = (outgoing c u).map toRecord := by
  have hflat := (batches_spec ((outgoing c u).map toRecord)).1
  rw [mediaFrames, mediaOf, flatMap_map]
  exact flatMap_id.trans hflat

theorem mediaOf_turnFrames (now : Nat) (c : CallId) (u : Uplink) :
    mediaOf (turnFrames now c u) = ((selects now c u).filter encodable).map toRecord := by
  unfold turnFrames selects
  by_cases hsealed : u.spool.isSealed c
  · simp [hsealed, mediaOf]
  by_cases hholds : holds now c (opened now c u)
  · rw [if_neg hsealed, if_pos hholds, if_pos (by simp [hholds]), append_nil, mediaOf_startFrames]
    rfl
  rw [if_neg hsealed, if_neg hholds, if_neg (by simp [hsealed, hholds]), mediaOf_append,
    mediaOf_append, mediaOf_startFrames, mediaOf_endFrames, mediaOf_mediaFrames,
    outgoing_opened, nil_append, append_nil]

theorem modest_turnFrames (now : Nat) (c : CallId) (u : Uplink) :
    ∀ f ∈ turnFrames now c u, Modest f := by
  have hstart : ∀ f ∈ startFrames c u, Modest f := by
    intro f hf
    unfold startFrames at hf
    split at hf
    · cases hf
    obtain ⟨cs, -, rfl⟩ := mem_map.mp hf
    trivial
  have hend : ∀ v, ∀ f ∈ endFrames c v, Modest f := by
    intro v f hf
    unfold endFrames at hf
    split at hf
    · cases hf
    obtain ⟨ce, -, rfl⟩ := mem_map.mp hf
    trivial
  have hmedia : ∀ v, ∀ f ∈ mediaFrames c v, Modest f := by
    intro v f hf
    obtain ⟨g, hg, rfl⟩ := mem_map.mp hf
    obtain ⟨hflat, hsize⟩ := batches_spec ((outgoing c v).map toRecord)
    refine ⟨(hsize g hg).2, fun r hr => ?_⟩
    have hmem : r ∈ (outgoing c v).map toRecord := by
      rw [← hflat]
      exact mem_flatten.mpr ⟨g, hg, hr⟩
    obtain ⟨row, hrow, rfl⟩ := mem_map.mp hmem
    have henc : encodable row := (mem_filter.mp hrow).2
    exact of_decide_eq_true henc
  intro f hf
  unfold turnFrames at hf
  split at hf
  · cases hf
  rcases mem_append.mp hf with hf | hf
  · exact hstart f hf
  split at hf
  · cases hf
  rcases mem_append.mp hf with hf | hf
  · exact hmedia _ f hf
  · exact hend _ f hf

/-! ## The upload -/

def messages : Except Upload Upload → List WireMessage
  | .ok q => q.out
  | .error q => q.out

structure Carries (row : SegmentRow) (g : Wire.MediaRecord) : Prop where
  channel : g.channel = Protocol.channelByte row.1.channel
  flags : g.flags = row.2.flags
  seq : g.seq.toNat = row.1.seq
  timestampMs : g.timestampMs.toNat = row.2.timestampMs
  callId : g.callId = callIdBytes row.1.callId
  payload : g.payload = row.2.payload

structure Typed (u : Uplink) : Prop where
  known : u.knownCalls.Nodup
  seq : ∀ r ∈ u.spool.segments.rows, r.1.seq < 2 ^ 32
  timestampMs : ∀ r ∈ u.spool.segments.rows, r.2.timestampMs < 2 ^ 64

theorem carries_received {rows : List SegmentRow}
    (hseq : ∀ r ∈ rows, r.1.seq < 2 ^ 32) (hts : ∀ r ∈ rows, r.2.timestampMs < 2 ^ 64) :
    List.Forall₂ (Carries callIdBytes) rows (received callIdBytes (rows.map toRecord)) := by
  rw [received, map_map]
  refine forall₂_map_right_iff.mpr (forall₂_same.mpr fun r hr => ?_)
  exact ⟨rfl, rfl, UInt32.toNat_ofNat_of_lt (hseq r hr), UInt64.toNat_ofNat_of_lt (hts r hr), rfl,
    rfl⟩

theorem uploadPending_out (u : Uplink) (now : Nat) (budget : Option Nat) :
    (∀ q, uploadPending callIdBytes u now budget = .ok q →
      q.out = (passFrames now u).map (onWire callIdBytes)) ∧
    ∀ q, uploadPending callIdBytes u now budget = .error q →
      q.out <+: (passFrames now u).map (onWire callIdBytes) := by
  have hwrites := sendPending_writes u now budget
  rw [uploadPending_eq]
  cases hp : u.sendPending now budget with
  | ok p =>
    refine ⟨fun q hq => ?_, nofun⟩
    cases hq
    have hout : p.out = passFrames now u := by simpa using (hwrites.ok p hp).1
    rw [← hout]
    rfl
  | error p =>
    refine ⟨nofun, fun q hq => ?_⟩
    cases hq
    have hout : p.out <+: passFrames now u := by simpa using (hwrites.error p hp).1
    exact hout.map _

variable {u : Uplink} {now : Nat}

theorem mem_passFrames_of_messages {budget : Option Nat} {m : WireMessage}
    (hm : m ∈ messages (uploadPending callIdBytes u now budget)) :
    m ∈ (passFrames now u).map (onWire callIdBytes) := by
  obtain ⟨hok, herror⟩ := uploadPending_out callIdBytes u now budget
  cases hq : uploadPending callIdBytes u now budget with
  | ok q =>
    rw [hq] at hm
    exact hok q hq ▸ hm
  | error q =>
    rw [hq] at hm
    exact (herror q hq).subset hm

theorem accepted_of_passFrames (hu : u.knownCalls.Nodup) {b : List UInt8}
    (hb : .binary b ∈ (passFrames now u).map (onWire callIdBytes)) :
    b.length ≤ 1024 * 1024 ∧ ∃ gs, Wire.decodeAll b = .ok gs := by
  obtain ⟨f, hf, hwire⟩ := mem_map.mp hb
  rw [passFrames_eq now hu] at hf
  obtain ⟨turn, hturn, hft⟩ := mem_flatten.mp hf
  obtain ⟨c, -, rfl⟩ := mem_map.mp hturn
  have hmodest := modest_turnFrames now c u f hft
  cases f with
  | media records =>
    cases hwire
    have hread := decodeAll_message callIdBytes hmodest
    exact ⟨hread.1, _, hread.2⟩
  | _ => cases hwire

theorem mem_segments_of_selects {c : CallId} {r : SegmentRow} (hr : r ∈ selects now c u) :
    r ∈ u.spool.segments.rows := by
  unfold selects at hr
  split at hr
  · cases hr
  · exact (mem_selected hr).1

theorem gatewayReads_turn (hu : Typed u) (now : Nat) (c : CallId) :
    ∃ gs, gatewayReads ((turnFrames now c u).map (onWire callIdBytes)) = .ok gs ∧
      List.Forall₂ (Carries callIdBytes) ((selects now c u).filter encodable) gs := by
  have hrows : ∀ r ∈ (selects now c u).filter encodable, r ∈ u.spool.segments.rows :=
    fun r hr => mem_segments_of_selects (mem_filter.mp hr).1
  refine ⟨_, gatewayReads_onWire callIdBytes (modest_turnFrames now c u), ?_⟩
  rw [mediaOf_turnFrames]
  exact carries_received callIdBytes (fun r hr => hu.seq r (hrows r hr))
    fun r hr => hu.timestampMs r (hrows r hr)

/-- **What the client uploads, the gateway reads.** -/
theorem upload_conforms (u : Uplink) (hu : Typed u) (now : Nat) (budget : Option Nat) :
    (∀ b, .binary b ∈ messages (uploadPending callIdBytes u now budget) →
      b.length ≤ 1024 * 1024 ∧ ∃ gs, Wire.decodeAll b = .ok gs) ∧
    ∃ turns : List (List WireMessage),
      List.Forall₂ (fun c turn => ∃ gs, gatewayReads turn = .ok gs ∧
        List.Forall₂ (Carries callIdBytes) ((selects now c u).filter encodable) gs)
        u.passCalls turns ∧
      (∀ q, uploadPending callIdBytes u now budget = .ok q → q.out = turns.flatten) ∧
      (∀ q, uploadPending callIdBytes u now budget = .error q → q.out <+: turns.flatten) ∧
      ∃ q, uploadPending callIdBytes u now none = .ok q := by
  obtain ⟨hok, herror⟩ := uploadPending_out callIdBytes u now budget
  have hflat : (u.passCalls.map fun c => (turnFrames now c u).map (onWire callIdBytes)).flatten =
      (passFrames now u).map (onWire callIdBytes) := by
    rw [passFrames_eq now hu.known, map_flatten, map_map]
    rfl
  constructor
  · intro b hb
    exact accepted_of_passFrames callIdBytes hu.known (mem_passFrames_of_messages callIdBytes hb)
  · refine ⟨u.passCalls.map fun c => (turnFrames now c u).map (onWire callIdBytes), ?_,
      fun q hq => hflat ▸ hok q hq, fun q hq => hflat ▸ herror q hq, ?_⟩
    · refine forall₂_map_right_iff.mpr (forall₂_same.mpr fun c _ => ?_)
      exact gatewayReads_turn callIdBytes hu now c
    · obtain ⟨p, hp⟩ := sendPending_holds u now
      exact ⟨lower callIdBytes p, by rw [uploadPending_eq, hp]; rfl⟩

def twoRowUplink : Uplink :=
  Uplink.new ((({} : Spool).beginCall "call-1"
      { callId := "call-1", startedAt := "t", userUid := "alice", deviceId := "pc" } 0).insert
        (⟨"call-1", .near, 3⟩, ⟨60, {}, [1, 2], 0⟩) |>.insert
        (⟨"call-1", .far, 7⟩, ⟨140, {}, [5], 0⟩))

theorem twoRowUplink_conforms :
    ((selects 0 "call-1" twoRowUplink).map fun r => r.1.seq) = [7, 3] ∧
    ∀ b, .binary b ∈ messages (uploadPending (fun _ => Vector.replicate 16 7) twoRowUplink 0 none) →
      b.length ≤ 1024 * 1024 ∧ ∃ gs, Wire.decodeAll b = .ok gs :=
  ⟨by decide +kernel, (upload_conforms (fun _ => Vector.replicate 16 7) twoRowUplink
    ⟨by decide +kernel, by decide +kernel, by decide +kernel⟩ 0 none).1⟩

end Upload

end Sentinel
