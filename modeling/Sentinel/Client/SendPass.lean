import Sentinel.Client.Uplink
import Sentinel.Lib.Faults

/-!
# What a send pass puts on the wire

`Sends u p` says which frames a pass `p` begun from the uplink `u` can emit, in which order, and
what it leaves of the uplink, at every point of the pass, also where the socket fails.
-/

open List Set

namespace Sentinel

/-! ## Frames in order -/

def ClientFrame.opens : ClientFrame → Set CallId
  | .callStart cs => {cs.callId}
  | _ => ∅

def ClientFrame.needs : ClientFrame → Set CallId
  | .media records => {c | ∃ r ∈ records, r.callId = c}
  | .callEnd ce => {ce.callId}
  | _ => ∅

def opensOf (fs : List ClientFrame) : Set CallId := {c | ∃ f ∈ fs, c ∈ f.opens}

def WellOpened : Set CallId → List ClientFrame → Prop
  | _, [] => True
  | opened, f :: fs => f.needs ⊆ opened ∧ WellOpened (opened ∪ f.opens) fs

@[simp] theorem opensOf_nil : opensOf [] = ∅ := by simp [opensOf]

@[simp] theorem opensOf_cons (f : ClientFrame) (fs : List ClientFrame) :
    opensOf (f :: fs) = f.opens ∪ opensOf fs := by
  ext c
  simp [opensOf]

@[simp] theorem opensOf_append (fs gs : List ClientFrame) :
    opensOf (fs ++ gs) = opensOf fs ∪ opensOf gs := by
  induction fs with
  | nil => simp
  | cons f fs ih => simp [ih, union_assoc]

theorem WellOpened.mono {o o' : Set CallId} {fs : List ClientFrame} (h : WellOpened o fs)
    (ho : o ⊆ o') : WellOpened o' fs := by
  induction fs generalizing o o' with
  | nil => trivial
  | cons f fs ih => exact ⟨h.1.trans ho, ih h.2 (union_subset_union_left _ ho)⟩

theorem wellOpened_append {o : Set CallId} {fs gs : List ClientFrame} :
    WellOpened o (fs ++ gs) ↔ WellOpened o fs ∧ WellOpened (o ∪ opensOf fs) gs := by
  induction fs generalizing o with
  | nil => simp [WellOpened]
  | cons f fs ih => simp [WellOpened, ih, union_assoc, and_assoc]

namespace Uplink

/-! ## The calls of a pass -/

def passCalls (u : Uplink) : List CallId :=
  u.spool.pendingCalls.foldl (fun known c => insertCall c known) u.knownCalls

theorem mem_foldl_insertCall {c : CallId} {cs known : List CallId} :
    c ∈ cs.foldl (fun known c => insertCall c known) known ↔ c ∈ known ∨ c ∈ cs := by
  induction cs generalizing known with
  | nil => simp
  | cons d cs ih =>
    rw [foldl_cons, ih, mem_insertCall, mem_cons]
    tauto

theorem mem_passCalls {u : Uplink} {c : CallId} :
    c ∈ u.passCalls ↔ c ∈ u.knownCalls ∨ c ∈ u.spool.pendingCalls :=
  mem_foldl_insertCall

structure Labelled (u : Uplink) : Prop where
  start : ∀ c cs, u.spool.callStartJson c = some cs → cs.callId = c
  stop : ∀ c ce, u.spool.callEndJson c = some ce → ce.callId = c
  known : ∀ c ∈ u.knownCalls, c ∈ u.spool.calls.keys

def Emits (u : Uplink) : ClientFrame → Prop
  | .callStart cs => cs.callId ∈ u.passCalls ∧ cs.callId ∉ u.startedThisConnection ∧
      u.spool.isSealed cs.callId = false ∧ u.spool.callStartJson cs.callId = some cs
  | .callEnd ce => u.spool.callEndJson ce.callId = some ce
  | .media records => ∀ r ∈ records, ∃ row ∈ u.spool.segments.rows, r = toRecord row
  | _ => False

structure Sends (u : Uplink) (p : SendPass) : Prop where
  spool : p.up.spool = u.spool
  resumePoints : p.up.resumePoints = u.resumePoints
  events : p.up.events = u.events
  known : p.up.knownCalls ⊆ u.passCalls
  frames : ∀ f ∈ p.out, u.Emits f
  order : WellOpened {c | c ∈ u.startedThisConnection} p.out
  started : ∀ c, c ∈ p.up.startedThisConnection ↔
    c ∈ u.startedThisConnection ∨ c ∈ opensOf p.out
  skipped : ∀ row ∈ p.skipped, row ∈ u.spool.segments.rows ∧
    shouldSend (u.resumePointFor row.1.callId) row.1.channel row.1.seq = false

variable {u : Uplink} {p p' : SendPass} {f : ClientFrame} {c : CallId}

theorem transmit_cases (p : SendPass) (f : ClientFrame) : (∃ b, (p.budget = none → b = none) ∧
      transmit p f = .ok { p with out := p.out ++ [f], budget := b }) ∨
    p.budget ≠ none ∧ transmit p f = .error p := by
  unfold transmit
  split
  · exact .inl ⟨p.budget, id, rfl⟩
  · rename_i hb
    exact .inr ⟨by simp [hb], rfl⟩
  rename_i n hb
  exact .inl ⟨some n, by simp [hb], rfl⟩

theorem Labelled.mem_keys (hu : Labelled u) (hc : c ∈ u.passCalls) : c ∈ u.spool.calls.keys := by
  rcases mem_passCalls.mp hc with hc | hc
  · exact hu.known c hc
  · exact (Spool.mem_pendingCalls.mp hc).2.1

/-! ## What a pass keeps -/

section Keeps

open Faults (Upholds)

structure Turn (u : Uplink) (c : CallId) (p : SendPass) : Prop where
  visited : c ∈ u.passCalls
  opened : c ∈ p.up.startedThisConnection ∨ u.spool.callStartJson c = none

def RowsOf (u : Uplink) (c : CallId) (records : List MediaRecord) : Prop :=
  ∀ r ∈ records, r.callId = c ∧ ∃ row ∈ u.spool.segments.rows, r = toRecord row

structure Keeps (u : Uplink) (I : SendPass → Prop) : Prop where
  skip : ∀ p row, I p → row ∈ u.spool.segments.rows →
    shouldSend (u.resumePointFor row.1.callId) row.1.channel row.1.seq = false →
    I { p with skipped := p.skipped ++ [row] }
  mark : ∀ p sent n, I p → I { p with up := { p.up with sentThrough := sent }, sent := n }
  start : ∀ p c cs b waits, I p → (p.budget = none → b = none) → c ∈ u.passCalls →
    u.spool.isSealed c = false → c ∉ p.up.startedThisConnection →
    u.spool.callStartJson c = some cs →
    I { p with
      up := { p.up with
        startedThisConnection := insertCall c p.up.startedThisConnection
        awaitingResume := waits }
      out := p.out ++ [.callStart cs]
      budget := b }
  media : ∀ p c records b, I p → (p.budget = none → b = none) → Turn u c p →
    u.RowsOf c records → I { p with out := p.out ++ [.media records], budget := b }
  finish : ∀ p c ce b, I p → (p.budget = none → b = none) → Turn u c p →
    u.spool.callEndJson c = some ce →
    I { p with
      up := { p.up with endedThisConnection := insertCall c p.up.endedThisConnection }
      out := p.out ++ [.callEnd ce]
      budget := b }
  release : ∀ p waits, I p → I { p with up := { p.up with awaitingResume := waits } }
  forget : ∀ p c, I p → u.spool.isSealed c = true →
    I { p with up := { p.up with knownCalls := p.up.knownCalls.erase c } }

structure Under (u : Uplink) (I : SendPass → Prop) (p : SendPass) : Prop where
  kept : I p
  spool : p.up.spool = u.spool
  resumePoints : p.up.resumePoints = u.resumePoints

variable {I : SendPass → Prop}

def Broken (u : Uplink) (I : SendPass → Prop) (p : SendPass) : Prop :=
  Under u I p ∧ p.budget ≠ none

theorem sendRows_keeps (hI : Keeps u I) {rows : List SegmentRow} {batch : List MediaRecord}
    (hrows : ∀ row ∈ rows, row ∈ u.spool.segments.rows ∧ row.1.callId = c)
    (hbatch : u.RowsOf c batch) (hp : Under u I p) (hturn : Turn u c p) :
    Upholds (Broken u I) (fun r => Under u I r.1 ∧ Turn u c r.1 ∧ u.RowsOf c r.2)
      (sendRows (u.resumePointFor c) rows batch p) := by
  induction rows generalizing batch p with
  | nil => exact ⟨hp, hturn, hbatch⟩
  | cons row rows ih =>
    have hrest := fun r hr => hrows r (mem_cons_of_mem _ hr)
    obtain ⟨hrow, rfl⟩ := hrows row mem_cons_self
    rw [sendRows]
    split
    · rename_i hskip
      have hkept := hI.skip p row hp.kept hrow (by simpa using hskip)
      exact ih hrest hbatch ⟨hkept, hp.spool, hp.resumePoints⟩ ⟨hturn.visited, hturn.opened⟩
    split
    · exact ih hrest hbatch hp hturn
    split
    · exact ih hrest hbatch hp hturn
    -- The row is marked as sent and joins the batch.
    have hbatch₁ : u.RowsOf row.1.callId (batch ++ [toRecord row]) := by
      intro r hr
      rcases mem_append.mp hr with hr | hr
      · exact hbatch r hr
      rw [mem_singleton.mp hr]
      exact ⟨rfl, row, hrow, rfl⟩
    let p₁ : SendPass := { p with
      up := { p.up with
        sentThrough := p.up.sentThrough.put (row.1.callId, row.1.channel) row.1.seq }
      sent := p.sent + 1 }
    have hmarked : Under u I p₁ := ⟨hI.mark p _ _ hp.kept, hp.spool, hp.resumePoints⟩
    have hturn₁ : Turn u row.1.callId p₁ := ⟨hturn.visited, hturn.opened⟩
    dsimp only
    split
    · rcases transmit_cases p₁ (.media (batch ++ [toRecord row])) with ⟨b, hb, he⟩ | ⟨hb, he⟩
      · rw [he]
        have hsent := hI.media p₁ _ _ b hmarked.kept hb hturn₁ hbatch₁
        exact ih hrest (forall_mem_nil _) ⟨hsent, hp.spool, hp.resumePoints⟩
          ⟨hturn.visited, hturn.opened⟩
      rw [he]
      exact ⟨hmarked, hb⟩
    · exact ih hrest hbatch₁ hmarked hturn₁

theorem sendStart_keeps (hI : Keeps u I) (now : Nat) (hc : c ∈ u.passCalls)
    (hsealed : u.spool.isSealed c = false) (hp : Under u I p) :
    Upholds (Broken u I) (fun p => Under u I p ∧ Turn u c p) (sendStart now c p) := by
  unfold sendStart
  split
  · rename_i hstarted
    exact ⟨hp, hc, .inl hstarted⟩
  rename_i hnew
  rw [hp.spool]
  cases hcs : u.spool.callStartJson c with
  | none => exact ⟨hp, hc, .inr hcs⟩
  | some cs =>
    dsimp only
    rcases transmit_cases p (.callStart cs) with ⟨b, hb, he⟩ | ⟨hb, he⟩
    · rw [he]
      exact ⟨⟨hI.start p c cs b _ hp.kept hb hc hsealed hnew hcs, hp.spool, hp.resumePoints⟩, hc,
        .inl (mem_insertCall.mpr (.inl rfl))⟩
    rw [he]
    exact ⟨hp, hb⟩

theorem sendMedia_keeps (hI : Keeps u I) (hp : Under u I p) (hturn : Turn u c p) :
    Upholds (Broken u I) (fun p => Under u I p ∧ Turn u c p) (sendMedia c p) := by
  have hpoint : p.up.resumePointFor c = u.resumePointFor c := by
    rw [resumePointFor, resumePointFor, hp.resumePoints, hp.spool]
  have hrows : ∀ row ∈ u.spool.takePending c segmentsPerPass,
      row ∈ u.spool.segments.rows ∧ row.1.callId = c := fun row hrow => Spool.mem_takePending hrow
  have hsent := sendRows_keeps hI hrows (forall_mem_nil _) hp hturn
  unfold sendMedia
  rw [hpoint, hp.spool]
  split <;> rename_i hr <;> rw [hr] at hsent
  · exact hsent
  · exact ⟨hsent.1, hsent.2.1⟩
  rename_i q batch _
  obtain ⟨hq, hturn, hbatch⟩ := hsent
  rcases transmit_cases q (.media batch) with ⟨b, hb, he⟩ | ⟨hb, he⟩
  · rw [he]
    have hmedia := hI.media q c batch b hq.kept hb hturn hbatch
    exact ⟨⟨hmedia, hq.spool, hq.resumePoints⟩, hturn.visited, hturn.opened⟩
  rw [he]
  exact ⟨hq, hb⟩

theorem sendEnd_keeps (hI : Keeps u I) (hp : Under u I p) (hturn : Turn u c p) :
    Upholds (Broken u I) (Under u I) (sendEnd c p) := by
  unfold sendEnd
  split
  · exact hp
  rw [hp.spool]
  cases hce : u.spool.callEndJson c with
  | none => exact hp
  | some ce =>
    dsimp only
    rcases transmit_cases p (.callEnd ce) with ⟨b, hb, he⟩ | ⟨hb, he⟩
    · rw [he]
      exact ⟨hI.finish p c ce b hp.kept hb hturn hce, hp.spool, hp.resumePoints⟩
    rw [he]
    exact ⟨hp, hb⟩

theorem sendCall_keeps (hI : Keeps u I) (now : Nat) (hc : c ∈ u.passCalls) (hp : Under u I p) :
    Upholds (Broken u I) (Under u I) (sendCall now c p) := by
  have hrest : ∀ p, Under u I p → Turn u c p →
      Upholds (Broken u I) (Under u I) (sendMedia c p >>= fun p => sendEnd c p) :=
    fun p hp hturn => (sendMedia_keeps hI hp hturn).bind fun p h => sendEnd_keeps hI h.1 h.2
  unfold sendCall
  split
  · rename_i hsealed
    exact ⟨hI.forget p c hp.kept (hp.spool ▸ hsealed), hp.spool, hp.resumePoints⟩
  rename_i hsealed
  rw [hp.spool, Bool.not_eq_true] at hsealed
  refine (sendStart_keeps hI now hc hsealed hp).bind fun p₁ h₁ => ?_
  split
  · split
    · exact h₁.1
    · exact hrest _ ⟨hI.release p₁ _ h₁.1.kept, h₁.1.spool, h₁.1.resumePoints⟩ ⟨hc, h₁.2.opened⟩
  · exact hrest p₁ h₁.1 h₁.2

theorem sendCalls_keeps (hI : Keeps u I) (now : Nat) {cs : List CallId} (hcs : cs ⊆ u.passCalls)
    (hp : Under u I p) : Upholds (Broken u I) (Under u I) (sendCalls now cs p) := by
  induction cs generalizing p with
  | nil => exact hp
  | cons c cs ih =>
    exact (sendCall_keeps hI now (hcs mem_cons_self) hp).bind
      fun p₁ h₁ => ih (subset_of_cons_subset hcs) h₁

theorem sendPending_keeps (hI : Keeps u I) (now : Nat) (budget : Option Nat)
    (hp : I { up := { u with knownCalls := u.passCalls }, budget }) :
    Upholds (fun p => I p ∧ p.budget ≠ none) I (u.sendPending now budget) :=
  Upholds.imp (sendCalls_keeps hI now (fun _ hc => hc) ⟨hp, rfl, rfl⟩)
    (fun _ h => ⟨h.1.kept, h.2⟩) fun _ h => h.kept

end Keeps

/-! ## The frames of a pass -/

theorem Turn.started (hu : Labelled u) (h : Turn u c p) : c ∈ p.up.startedThisConnection := by
  refine h.opened.resolve_right fun hnone => ?_
  have hstart := Spool.isSome_callStartJson.mpr (hu.mem_keys h.visited)
  simp [hnone] at hstart

theorem Sends.append {b : Option Nat} (h : Sends u p) (hf : u.Emits f)
    (hneeds : ∀ c ∈ f.needs, c ∈ p.up.startedThisConnection) (hopens : f.opens = ∅) :
    Sends u { p with out := p.out ++ [f], budget := b } where
  spool := h.spool
  resumePoints := h.resumePoints
  events := h.events
  skipped := h.skipped
  known := h.known
  frames := forall_mem_append.mpr ⟨h.frames, forall_mem_singleton.mpr hf⟩
  order := wellOpened_append.mpr ⟨h.order, fun c hc => (h.started c).mp (hneeds c hc), trivial⟩
  started := by
    intro c
    rw [h.started c]
    simp [hopens]

theorem Sends.start {cs : CallStart} {b : Option Nat} {waits : Table CallId Nat} (h : Sends u p)
    (hcs : cs.callId = c) (hf : u.Emits (.callStart cs)) :
    Sends u { p with
      up := { p.up with
        startedThisConnection := insertCall c p.up.startedThisConnection
        awaitingResume := waits }
      out := p.out ++ [.callStart cs]
      budget := b } where
  spool := h.spool
  resumePoints := h.resumePoints
  events := h.events
  skipped := h.skipped
  known := h.known
  frames := forall_mem_append.mpr ⟨h.frames, forall_mem_singleton.mpr hf⟩
  order := wellOpened_append.mpr ⟨h.order, empty_subset _, trivial⟩
  started := by
    intro d
    rw [mem_insertCall, h.started d]
    simp only [opensOf_append, opensOf_cons, opensOf_nil, ClientFrame.opens, hcs,
      union_empty, mem_union, mem_singleton_iff]
    tauto

theorem keeps_sends (hu : Labelled u) : Keeps u (Sends u) where
  skip p row h hrow hs := { h with
    skipped := forall_mem_append.mpr ⟨h.skipped, forall_mem_singleton.mpr ⟨hrow, hs⟩⟩ }
  mark p _ _ h := { h with }
  start p c cs b waits h _ hc hsealed hnew hcs := by
    obtain rfl := hu.start c cs hcs
    exact h.start rfl ⟨hc, fun hmem => hnew ((h.started _).mpr (.inl hmem)), hsealed, hcs⟩
  media p c records b h _ hturn hrows := by
    refine h.append (fun r hr => (hrows r hr).2) ?_ rfl
    rintro d ⟨r, hr, rfl⟩
    exact (hrows r hr).1 ▸ hturn.started hu
  finish p c ce b h _ hturn hce := by
    obtain rfl := hu.stop c ce hce
    have hsent : Sends u { p with out := p.out ++ [.callEnd ce], budget := b } :=
      h.append hce (fun d hd => hd ▸ hturn.started hu) rfl
    exact { hsent with }
  release p _ h := { h with }
  forget p c h _ := { h with known := fun d hd => h.known (mem_of_mem_erase hd) }

def Ends (P : SendPass → Prop) : Except SendPass SendPass → Prop
  | .ok p => P p
  | .error p => P p

theorem sendPending_spec (hu : Labelled u) (now : Nat) (budget : Option Nat) :
    Ends (Sends u) (u.sendPending now budget) := by
  have hpass := sendPending_keeps (keeps_sends hu) now budget
    ⟨rfl, rfl, rfl, fun c hc => hc, by simp, trivial, by simp, by simp⟩
  generalize u.sendPending now budget = r at hpass ⊢
  cases r with
  | error p => exact hpass.1
  | ok p => exact hpass

end Uplink

end Sentinel
