import Mathlib.Algebra.Order.BigOperators.Group.Finset
import Mathlib.Algebra.Order.Group.Abs
import Mathlib.Algebra.Order.Ring.Int
import Mathlib.Data.List.Sort
import Mathlib.Data.String.Basic
import Sentinel.Lib.Table

/-!
# Reconciling captured calls with the dialer's export

`reconcile` (`coverage.py`) walks the rows of the export and credits to each the captured call with
the dialer's id, or else the first call of the agent that is not taken yet and starts within thirty
seconds of it.
-/

open List Function Table

namespace Sentinel.Workers

structure CdrCall where
  agentId : String
  startedAt : Int
  durationMs : Int
  dialerCallId : Option String := none
  deriving DecidableEq, Repr

structure CapturedCall where
  userUid : String
  startedAt : Int
  durationMs : Int
  dialerCallId : Option String := none
  deriving DecidableEq, Repr

structure Coverage where
  tenantId : String
  userUid : String
  day : Int
  dialerCalls : Nat := 0
  capturedCalls : Nat := 0
  dialerMinutes : Int := 0
  capturedMinutes : Int := 0
  gapReason : Option String := none
  deriving DecidableEq, Repr

def matchWindow : Int := 30 * 10 ^ 6

def gapReason (c : Coverage) : Option String :=
  if c.dialerCalls = 0 then none
  else if c.capturedCalls = 0 then
    some "no calls captured; check that the agent signed in and the headset was detected"
  else if 100 * c.capturedCalls < 90 * c.dialerCalls then
    some "some calls not captured; check device events for headset loss or agent restarts"
  else none

structure Tally where
  matched : Finset Nat := ∅
  perAgent : Table String Coverage := ∅

def Tally.view (s : Tally) : Finset Nat × (String → Option Coverage) :=
  (s.matched, s.perAgent.get?)

structure Day where
  tenantId : String
  day : Int
  captured : List CapturedCall
  agentFor : List (String × String) := []

namespace Day

section Reconcile

variable (D : Day)

def uidOf (agentId : String) : String := (D.agentFor.lookup agentId).getD agentId

def byDialerId (call : CdrCall) : Option Nat :=
  (call.dialerCallId.filter (· ≠ "")).bind fun id =>
    (List.range D.captured.length).reverse.find? fun i =>
      (D.captured[i]?.bind (·.dialerCallId)) = some id

def Fits (call : CdrCall) (i : Nat) : Prop :=
  ∃ c ∈ D.captured[i]?, c.userUid = D.uidOf call.agentId ∧
    |c.startedAt - call.startedAt| ≤ matchWindow

instance (call : CdrCall) : DecidablePred (D.Fits call) :=
  fun _ => inferInstanceAs (Decidable (∃ _ ∈ _, _))

def byTime (matched : Finset Nat) (call : CdrCall) : Option Nat :=
  (List.range D.captured.length).find? fun i => i ∉ matched ∧ D.Fits call i

def matchOf (matched : Finset Nat) (call : CdrCall) : Option Nat :=
  (D.byDialerId call).or (D.byTime matched call)

def marked (matched : Finset Nat) (call : CdrCall) : Finset Nat :=
  if (D.byDialerId call).isSome then matched
  else (D.byTime matched call).elim matched (insert · matched)

def minutesOf (i : Nat) : Int := D.captured[i]?.elim 0 fun c => c.durationMs / 60000

def add (r : Coverage) (call : CdrCall) (m : Option Nat) : Coverage :=
  { r with
    dialerCalls := r.dialerCalls + 1
    dialerMinutes := r.dialerMinutes + call.durationMs / 60000
    capturedCalls := r.capturedCalls + m.toList.length
    capturedMinutes := r.capturedMinutes + m.elim 0 D.minutesOf }

def blank (uid : String) : Coverage := { tenantId := D.tenantId, userUid := uid, day := D.day }

def credit (s : Tally) (call : CdrCall) : Tally :=
  let uid := D.uidOf call.agentId
  let r := (s.perAgent.get? uid).getD (D.blank uid)
  { matched := D.marked s.matched call
    perAgent := s.perAgent.put uid
      (D.add r call (D.matchOf s.matched call)) }

def reconcile (cdr : List CdrCall) : List Coverage :=
  let s := cdr.foldl D.credit {}
  (s.perAgent.rows.map fun r => { r.2 with gapReason := gapReason r.2 }).mergeSort
    fun a b => a.userUid ≤ b.userUid

def credits : Finset Nat → List CdrCall → List (CdrCall × Option Nat)
  | _, [] => []
  | matched, call :: cdr => (call, D.matchOf matched call) ::
      credits (D.marked matched call) cdr

def credited (matched : Finset Nat) (cdr : List CdrCall) : List Nat :=
  (D.credits matched cdr).filterMap Prod.snd

def creditedTo (matched : Finset Nat) (cdr : List CdrCall) (uid : String) : List Nat :=
  ((D.credits matched cdr).filter
    fun r => D.uidOf r.1.agentId = uid).filterMap Prod.snd

end Reconcile

variable {D : Day} {matched : Finset Nat} {call : CdrCall} {cdr cdr' : List CdrCall} {i : Nat}
  {uid : String} {r : Coverage}

/-! ## The rows of the report -/

theorem get?_foldl_credit (uid : String) (cdr : List CdrCall) (s : Tally) :
    (cdr.foldl D.credit s).perAgent.get? uid = ((D.credits s.matched cdr).filter
        fun r => D.uidOf r.1.agentId = uid).foldl
          (fun o r => some (D.add (o.getD (D.blank uid)) r.1 r.2)) (s.perAgent.get? uid) := by
  induction cdr generalizing s with
  | nil => rfl
  | cons call cdr ih =>
    rw [foldl_cons, ih, credits, filter_cons]
    by_cases hu : D.uidOf call.agentId = uid
    · simp [credit, hu]
    · simp [credit, hu, get?_put_ne _ (Ne.symm hu)]

theorem getD_foldl_add (b : Coverage) (l : List (CdrCall × Option Nat)) (o : Option Coverage) :
    let r := (l.foldl (fun o r => some (D.add (o.getD b) r.1 r.2)) o).getD b
    r.userUid = (o.getD b).userUid ∧
      r.capturedCalls = (o.getD b).capturedCalls + (l.filterMap Prod.snd).length ∧
      r.capturedMinutes = (o.getD b).capturedMinutes +
        ((l.filterMap Prod.snd).map D.minutesOf).sum := by
  induction l generalizing o with
  | nil => simp
  | cons p l ih =>
    obtain ⟨hu, hc, hm⟩ := ih (some (D.add (o.getD b) p.1 p.2))
    refine ⟨hu, hc.trans ?_, hm.trans ?_⟩ <;> obtain ⟨call, _ | i⟩ := p
    · simp [add]
    · simp [add]
      omega
    · simp [add]
    simp [add]
    omega

theorem of_get?_credit (h : (cdr.foldl D.credit {}).perAgent.get? uid = some r) :
    r.userUid = uid ∧ r.capturedCalls = (D.creditedTo ∅ cdr uid).length ∧ r.capturedMinutes =
        ((D.creditedTo ∅ cdr uid).map D.minutesOf).sum := by
  have hsum := @getD_foldl_add D (D.blank uid)
    ((D.credits ∅ cdr).filter fun r => D.uidOf r.1.agentId = uid) none
  rw [get?_foldl_credit, get?_empty] at h
  rw [h] at hsum
  simpa [blank, creditedTo] using hsum

theorem mem_reconcile : r ∈ D.reconcile cdr ↔ ∃ cov,
    (cdr.foldl D.credit {}).perAgent.get? cov.userUid = some cov ∧
      r = { cov with gapReason := gapReason cov } := by
  rw [reconcile, mem_mergeSort, mem_map]
  constructor
  · rintro ⟨⟨uid, cov⟩, hmem, rfl⟩
    have hget := get?_eq_some.mpr hmem
    exact ⟨cov, (of_get?_credit hget).1 ▸ hget, rfl⟩
  rintro ⟨cov, hget, rfl⟩
  exact ⟨(_, cov), get?_eq_some.mp hget, rfl⟩

/-! ## What a row is credited with -/

theorem byTime_eq_none : D.byTime matched call = none ↔ ∀ i, D.Fits call i → i ∈ matched := by
  have hrange : ∀ i, D.Fits call i → i < D.captured.length := by
    rintro i ⟨c, hc, -⟩
    exact (List.getElem?_eq_some_iff.mp hc).1
  simp only [byTime, find?_eq_none, mem_range, decide_eq_true_eq, not_and]
  exact ⟨fun h i hi => not_not.mp fun hm => h i (hrange i hi) hm hi, fun h i _ hm hi => hm (h i hi)⟩

theorem matched_cases (D : Day) (matched : Finset Nat) (call : CdrCall) :
    (∃ j, D.byDialerId call = some j ∧ D.matchOf matched call = some j ∧
      D.marked matched call = matched) ∨ D.byDialerId call = none ∧ D.matchOf matched call = none ∧
      D.marked matched call = matched ∧ (∀ i, D.Fits call i → i ∈ matched) ∨
    ∃ i, D.byDialerId call = none ∧ D.matchOf matched call = some i ∧
      D.marked matched call = insert i matched ∧ i ∉ matched ∧ D.Fits call i := by
  rcases hid : D.byDialerId call with _ | j
  · rcases ht : D.byTime matched call with _ | i
    · exact .inr (.inl ⟨rfl, by simp [matchOf, hid, ht], by simp [marked, hid, ht],
        byTime_eq_none.mp ht⟩)
    exact .inr (.inr ⟨i, rfl, by simp [matchOf, hid, ht], by simp [marked, hid, ht],
      of_decide_eq_true (find?_some (p := fun i => i ∉ matched ∧ D.Fits call i) ht)⟩)
  · exact .inl ⟨j, rfl, by simp [matchOf, hid], by simp [marked, hid]⟩

def callsOf (D : Day) (uid : String) : Finset Nat :=
  (Finset.range D.captured.length).filter fun i => ∃ c ∈ D.captured[i]?, c.userUid = uid

theorem mem_callsOf : i ∈ D.callsOf uid ↔ ∃ c ∈ D.captured[i]?, c.userUid = uid := by
  simp only [callsOf, Finset.mem_filter, Finset.mem_range, and_iff_right_iff_imp]
  rintro ⟨c, hc, -⟩
  exact (List.getElem?_eq_some_iff.mp hc).1

structure OneToOne (D : Day) (cdr : List CdrCall) : Prop where
  once : (D.credited ∅ cdr).Nodup
  own : ∀ r ∈ D.credits ∅ cdr, ∀ i ∈ r.2,
    i ∈ D.callsOf (D.uidOf r.1.agentId)
  calls : ∀ r ∈ D.reconcile cdr,
    r.capturedCalls ≤ (D.callsOf r.userUid).card
  minutes : (∀ c ∈ D.captured, 0 ≤ c.durationMs) →
    ∀ r ∈ D.reconcile cdr,
      r.capturedMinutes ≤ ∑ i ∈ D.callsOf r.userUid, D.minutesOf i

theorem minutesOf_nonneg (h : ∀ c ∈ D.captured, 0 ≤ c.durationMs) (i : Nat) :
    0 ≤ D.minutesOf i := by
  rw [minutesOf]
  rcases hc : D.captured[i]? with _ | c
  · exact le_rfl
  · exact Int.ediv_nonneg (h c (mem_of_getElem? hc)) (by decide)

theorem oneToOne_of_credits (honce : (D.credited ∅ cdr).Nodup)
    (hown : ∀ r ∈ D.credits ∅ cdr, ∀ i ∈ r.2, i ∈ D.callsOf (D.uidOf r.1.agentId)) :
    D.OneToOne cdr := by
  have hnodup : ∀ uid, (D.creditedTo ∅ cdr uid).Nodup := fun uid =>
    (filter_sublist.filterMap Prod.snd).nodup honce
  have hsub : ∀ uid, (D.creditedTo ∅ cdr uid).toFinset ⊆ D.callsOf uid := by
    intro uid i hi
    obtain ⟨r, hr, hri⟩ := mem_filterMap.mp (mem_toFinset.mp hi)
    obtain ⟨hr, hu⟩ := mem_filter.mp hr
    exact of_decide_eq_true hu ▸ hown r hr i hri
  refine ⟨honce, hown, ?_, ?_⟩
  · intro r hr
    obtain ⟨cov, hget, rfl⟩ := mem_reconcile.mp hr
    calc cov.capturedCalls = (D.creditedTo ∅ cdr cov.userUid).toFinset.card := by
          rw [toFinset_card_of_nodup (hnodup _), (of_get?_credit hget).2.1]
      _ ≤ _ := Finset.card_le_card (hsub _)
  intro hpos r hr
  obtain ⟨cov, hget, rfl⟩ := mem_reconcile.mp hr
  calc cov.capturedMinutes
      = ∑ i ∈ (D.creditedTo ∅ cdr cov.userUid).toFinset, D.minutesOf i := by
        rw [sum_toFinset _ (hnodup _), (of_get?_credit hget).2.2]
    _ ≤ _ := Finset.sum_le_sum_of_subset_of_nonneg (hsub _)
        fun i _ _ => minutesOf_nonneg hpos i

def timed (D : Day)
    (matched : Finset Nat) (cdr : List CdrCall) : List Nat :=
  ((D.credits matched cdr).filter
    fun r => D.byDialerId r.1 = none).filterMap Prod.snd

theorem nodup_timed (cdr : List CdrCall) (matched : Finset Nat) : (D.timed matched cdr).Nodup ∧
      ∀ i ∈ matched, i ∉ D.timed matched cdr := by
  induction cdr generalizing matched with
  | nil => simp [timed, credits]
  | cons call cdr ih =>
    obtain ⟨hnodup, hfresh⟩ := ih (D.marked matched call)
    obtain ⟨j, hid, hmatch, hmark⟩ | ⟨hid, hmatch, hmark, -⟩ | ⟨i, hid, hmatch, hmark, hi, -⟩ :=
      matched_cases D matched call
    all_goals rw [hmark] at hnodup hfresh
    · have hskip : D.timed matched (call :: cdr) =
          D.timed matched cdr := by simp [timed, credits, hid, hmark]
      rw [hskip]
      exact ⟨hnodup, hfresh⟩
    · have hskip : D.timed matched (call :: cdr) =
          D.timed matched cdr := by simp [timed, credits, hid, hmatch, hmark]
      rw [hskip]
      exact ⟨hnodup, hfresh⟩
    have htake : D.timed matched (call :: cdr) =
        i :: D.timed (insert i matched) cdr := by
      simp [timed, credits, hid, hmatch, hmark]
    rw [htake]
    refine ⟨nodup_cons.mpr ⟨hfresh i (Finset.mem_insert_self ..), hnodup⟩, ?_⟩
    intro k hk hmem
    rcases mem_cons.mp hmem with rfl | hmem
    · exact hi hk
    · exact hfresh k (Finset.mem_insert_of_mem hk) hmem

theorem credits_byDialerId (cdr : List CdrCall) (matched : Finset Nat) :
    ((D.credits matched cdr).filter fun r => ¬ D.byDialerId r.1 = none).filterMap Prod.snd =
      cdr.filterMap D.byDialerId := by
  induction cdr generalizing matched with
  | nil => rfl
  | cons call cdr ih =>
    rcases hid : D.byDialerId call with _ | j <;> simp_all [credits, matchOf]

theorem credits_perm (cdr : List CdrCall) : (D.credited ∅ cdr).Perm
      (D.timed ∅ cdr ++ cdr.filterMap D.byDialerId) := by
  have hsplit := (filter_append_perm (fun r => D.byDialerId r.1 = none)
    (D.credits ∅ cdr)).filterMap Prod.snd
  rw [filterMap_append] at hsplit
  simp only [← decide_not] at hsplit
  rw [credits_byDialerId] at hsplit
  exact hsplit.symm

theorem mem_credits {r : CdrCall × Option Nat} (h : r ∈ D.credits matched cdr) :
    ∃ matched', r.2 = D.matchOf matched' r.1 ∧ r.1 ∈ cdr := by
  induction cdr generalizing matched with
  | nil => cases h
  | cons call cdr ih =>
    rcases mem_cons.mp h with rfl | h
    · exact ⟨matched, rfl, mem_cons_self⟩
    obtain ⟨matched', hr, hmem⟩ := ih h
    exact ⟨matched', hr, mem_cons_of_mem _ hmem⟩

theorem map_fst_credits (cdr : List CdrCall) (matched : Finset Nat) :
    (D.credits matched cdr).map Prod.fst = cdr := by
  induction cdr generalizing matched with
  | nil => rfl
  | cons call cdr ih => rw [credits, map_cons, ih]

/-- **Credits are one to one when the ids are.** -/
theorem oneToOne_iff (D : Day) (cdr : List CdrCall) : D.OneToOne cdr ↔
      (cdr.filterMap D.byDialerId).Nodup ∧ (∀ call ∈ cdr, ∀ i ∈ D.byDialerId call,
        i ∈ D.callsOf (D.uidOf call.agentId)) ∧
      ∀ i ∈ D.timed ∅ cdr, i ∉ cdr.filterMap D.byDialerId := by
  have hperm := (@credits_perm D cdr).nodup_iff
  rw [nodup_append'] at hperm
  constructor
  · intro h
    obtain ⟨-, hids, hdis⟩ := hperm.mp h.once
    refine ⟨hids, ?_, fun i hi hi' => hdis hi hi'⟩
    intro call hcall j hj
    rw [← @map_fst_credits D cdr ∅] at hcall
    obtain ⟨r, hr, rfl⟩ := mem_map.mp hcall
    obtain ⟨matched, hmatch, -⟩ := mem_credits hr
    exact h.own r hr j (by rw [hmatch, matchOf, Option.mem_def.mp hj]; rfl)
  · rintro ⟨hids, hown, hdis⟩
    refine oneToOne_of_credits (hperm.mpr ⟨(nodup_timed cdr ∅).1, hids, fun i hi => hdis i hi⟩) ?_
    intro r hr i hi
    obtain ⟨matched, hmatch, hmem⟩ := mem_credits hr
    obtain ⟨j, hid, hj, -⟩ | ⟨-, hj, -⟩ | ⟨j, -, hj, -, -, c, hc, hu, -⟩ :=
      matched_cases D matched r.1
    all_goals rw [hmatch, hj] at hi
    · cases hi
      exact hown r.1 hmem _ hid
    · cases hi
    · cases hi
      exact mem_callsOf.mpr ⟨c, hc, hu⟩

def idTwice : List CdrCall := List.replicate 2 ⟨"agent", 0, 60000, some "d1"⟩

/-- Two rows with one dialer id are both credited with the one call that has it. -/
theorem repeated_id_credited_twice :
    credited ⟨"bank", 0, [⟨"agent", 0, 60000, some "d1"⟩], []⟩ ∅ idTwice = [0, 0] ∧
      (reconcile ⟨"bank", 0, [⟨"agent", 0, 60000, some "d1"⟩], []⟩ idTwice).map (·.capturedCalls) =
        [2] ∧ ¬ OneToOne ⟨"bank", 0, [⟨"agent", 0, 60000, some "d1"⟩], []⟩ idTwice :=
  ⟨by decide, by decide +kernel, fun h => absurd h.once (by decide)⟩

/-! ## The order of the export -/

theorem reconcile_eq_of_view (h : (cdr.foldl D.credit {}).view = (cdr'.foldl D.credit {}).view) :
    D.reconcile cdr = D.reconcile cdr' := by
  have hget := congrFun (congrArg Prod.snd h)
  simp only [Tally.view] at hget
  have hperm : (D.reconcile cdr).Perm
      (D.reconcile cdr') := by
    refine (mergeSort_perm _ _).trans (.trans (.map _ ?_) (mergeSort_perm _ _).symm)
    refine (perm_ext_iff_of_nodup (nodup _).of_map (nodup _).of_map).mpr ?_
    rintro ⟨uid, r⟩
    rw [← get?_eq_some, ← get?_eq_some, hget]
  have hsorted : ∀ cdr, (D.reconcile cdr).Pairwise
      fun a b => a.userUid ≤ b.userUid := fun cdr =>
    (pairwise_mergeSort (by simpa using fun _ _ _ => le_trans)
      (by simpa using fun a b => le_total _ _) _).imp of_decide_eq_true
  refine hperm.eq_of_pairwise ?_ (hsorted cdr) (hsorted cdr')
  intro a b ha hb hab hba
  obtain ⟨cov, hcov, rfl⟩ := mem_reconcile.mp ha
  obtain ⟨cov', hcov', rfl⟩ := mem_reconcile.mp hb
  have hu : cov.userUid = cov'.userUid := le_antisymm hab hba
  rw [← hget, ← hu, hcov] at hcov'
  rw [Option.some_inj.mp hcov']

def post (D : Day)
    (rows : String → Option Coverage) (uid : String) (call : CdrCall) (m : Option Nat) :
    String → Option Coverage :=
  Function.update rows uid
    (some (D.add ((rows uid).getD (D.blank uid)) call m))

def creditView (D : Day) (v : Finset Nat × (String → Option Coverage))
    (call : CdrCall) : Finset Nat × (String → Option Coverage) :=
  (D.marked v.1 call, D.post v.2 (D.uidOf call.agentId)
    call (D.matchOf v.1 call))

theorem view_credit (s : Tally) (call : CdrCall) : (D.credit s call).view =
      D.creditView s.view call := by
  refine Prod.ext rfl (funext fun uid => ?_)
  simp [Tally.view, credit, creditView, post, get?_put, update_apply]

theorem view_foldl (cdr : List CdrCall) (s : Tally) : (cdr.foldl D.credit s).view =
      cdr.foldl D.creditView s.view := by
  induction cdr generalizing s with
  | nil => rfl
  | cons call cdr ih => rw [foldl_cons, ih, view_credit, foldl_cons]

def Apart (D : Day) : Prop :=
  ∀ agentId, ∀ a ∈ D.captured, ∀ b ∈ D.captured, a.userUid = D.uidOf agentId →
    b.userUid = D.uidOf agentId →
    |a.startedAt - b.startedAt| ≤ 2 * matchWindow → a.startedAt = b.startedAt

theorem Apart.fits (h : D.Apart) {a b : CdrCall} (hi : D.Fits a i) (hi' : D.Fits b i) (j : Nat) :
    D.Fits a j → D.Fits b j := by
  obtain ⟨c, hc, hu, hw⟩ := hi
  obtain ⟨_, hc', hu', hw'⟩ := hi'
  cases Option.mem_unique hc hc'
  rintro ⟨d, hd, hv, hx⟩
  have hsame : c.startedAt = d.startedAt := by
    refine h a.agentId c (mem_of_getElem? hc) d (mem_of_getElem? hd) hu hv ?_
    rw [abs_le] at hw hx ⊢
    omega
  exact ⟨d, hd, by rw [hv, ← hu, hu'], hsame ▸ hw'⟩

theorem post_post (rows : String → Option Coverage) {u v : String} {a b : CdrCall}
    {x y x' y' : Option Nat} (h : x = x' ∧ y = y' ∨ u = v ∧ x = y' ∧ y = x') :
    D.post (D.post rows u a x) v b y = D.post (D.post rows v b y') u a x' := by
  by_cases huv : u = v
  · subst huv
    simp only [post, update_self, update_idem, Option.getD_some, add]
    congr 3 <;> obtain ⟨rfl, rfl⟩ | ⟨-, rfl, rfl⟩ := h <;> omega
  obtain ⟨rfl, rfl⟩ | ⟨huv', -⟩ := h
  · rw [post, post, post, post, update_of_ne (Ne.symm huv), update_of_ne huv, update_comm huv]
  · exact absurd huv' huv

section Swap

variable {a b : CdrCall}

theorem byTime_marked (hdis : ∀ i, D.Fits a i → ¬ D.Fits b i)
    (matched : Finset Nat) : D.byTime (D.marked matched a) b = D.byTime matched b := by
  obtain ⟨-, -, -, hmark⟩ | ⟨-, -, hmark, -⟩ | ⟨i, -, -, hmark, -, hi⟩ :=
    matched_cases D matched a <;> rw [hmark]
  have hfits : ∀ j, D.Fits b j → j ≠ i := fun j hj h => hdis i hi (h ▸ hj)
  unfold byTime
  congr 1
  funext j
  rw [decide_eq_decide, Finset.mem_insert, not_or]
  exact ⟨fun h => ⟨h.1.2, h.2⟩, fun h => ⟨⟨hfits j h.2, h.1⟩, h.2⟩⟩

theorem byTime_congr (h : ∀ i, D.Fits a i ↔ D.Fits b i) (matched : Finset Nat) :
    D.byTime matched a = D.byTime matched b := by
  simp only [byTime, h]

theorem marked_comm (hdis : ∀ i, D.Fits a i → ¬ D.Fits b i) (matched : Finset Nat) :
    D.marked (D.marked matched a) b = D.marked (D.marked matched b) a := by
  have hb := byTime_marked hdis matched
  have ha := byTime_marked (fun i hi hi' => hdis i hi' hi) matched (a := b) (b := a)
  rw [marked, hb, marked.eq_def _ (D.marked matched b), ha, marked, marked]
  split <;> split <;> try rfl
  rcases D.byTime matched a <;> rcases D.byTime matched b <;>
    simp [Finset.insert_comm]

theorem creditView_comm_of_isSome (h : (D.byDialerId a).isSome)
    (v : Finset Nat × (String → Option Coverage)) : D.creditView (D.creditView v a) b =
      D.creditView (D.creditView v b) a := by
  have hmark : ∀ matched, D.marked matched a = matched := fun _ => if_pos h
  have hmatch : ∀ matched, D.matchOf matched a = D.byDialerId a :=
    fun _ => Option.or_of_isSome h
  simp only [creditView, hmark, hmatch]
  exact Prod.ext rfl (post_post v.2 (.inl ⟨rfl, rfl⟩))

theorem Apart.creditView_comm (h : D.Apart) (v : Finset Nat × (String → Option Coverage)) :
    D.creditView (D.creditView v a) b = D.creditView (D.creditView v b) a := by
  by_cases ha : (D.byDialerId a).isSome
  · exact creditView_comm_of_isSome ha v
  by_cases hb : (D.byDialerId b).isSome
  · exact (creditView_comm_of_isSome hb v).symm
  rw [Option.not_isSome_iff_eq_none] at ha hb
  by_cases hdis : ∀ i, D.Fits a i → ¬ D.Fits b i
  · refine Prod.ext (marked_comm hdis v.1) (post_post v.2 (.inl ⟨?_, ?_⟩))
    · simp only [creditView, matchOf, byTime_marked (fun i hi hi' => hdis i hi' hi) v.1]
    · simp only [creditView, matchOf, byTime_marked hdis v.1]
  -- The rows fit one call, so they fit the same ones, and are credited in turn.
  push Not at hdis
  obtain ⟨i, hi, hi'⟩ := hdis
  have hsame := byTime_congr fun j => ⟨h.fits hi hi' j, h.fits hi' hi j⟩
  have hu : D.uidOf a.agentId = D.uidOf b.agentId := by
    obtain ⟨c, hc, hu, -⟩ := hi
    obtain ⟨c', hc', hu', -⟩ := hi'
    rw [← hu, ← hu', Option.mem_unique hc hc']
  have hmark : ∀ matched, D.marked matched a =
      D.marked matched b := fun _ => by rw [marked, marked, ha, hb, hsame]
  refine Prod.ext (by simp only [creditView, hmark]) (post_post v.2 (.inr ⟨hu, ?_, ?_⟩))
  · rw [matchOf, matchOf, ha, hb, hsame]
  · simp only [creditView, matchOf, hmark, ha, hb, hsame]

end Swap

/-! ## Calls that are not apart -/

def fitting (D : Day) (call : CdrCall) :
    Finset Nat :=
  (Finset.range D.captured.length).filter (D.Fits call)

theorem mem_fitting : i ∈ D.fitting call ↔ D.Fits call i := by
  simp only [fitting, Finset.mem_filter, Finset.mem_range, and_iff_right_iff_imp]
  rintro ⟨c, hc, -⟩
  exact (List.getElem?_eq_some_iff.mp hc).1

def taken (D : Day)
    (matched : Finset Nat) (cdr : List CdrCall) : Finset Nat :=
  cdr.foldl D.marked matched

theorem taken_cons : D.taken matched (call :: cdr) = D.taken (D.marked matched call) cdr := rfl

theorem credited_cons : D.credited matched (call :: cdr) = (D.matchOf matched call).toList ++
      D.credited (D.marked matched call) cdr := by
  rcases h : D.matchOf matched call <;> simp [credited, credits, h]

theorem credited_append (cdr cdr' : List CdrCall) (matched : Finset Nat) :
    D.credited matched (cdr ++ cdr') = D.credited matched cdr ++
      D.credited (D.taken matched cdr) cdr' := by
  induction cdr generalizing matched with
  | nil => rfl
  | cons call cdr ih =>
    rw [cons_append, credited_cons, ih, credited_cons, taken_cons, append_assoc]

theorem credited_replicate (hid : D.byDialerId call = none) (n : Nat) (matched : Finset Nat) :
    (D.credited matched (replicate n call)).length = min n (D.fitting call \ matched).card ∧
      D.taken matched (replicate n call) ⊆ matched ∪ D.fitting call := by
  induction n generalizing matched with
  | zero => simp [credited, credits, taken]
  | succ n ih =>
    obtain ⟨hlen, hsub⟩ := ih (D.marked matched call)
    rw [replicate_succ, credited_cons, taken_cons]
    obtain ⟨j, hj, -⟩ | ⟨-, hmatch, hmark, hall⟩ | ⟨i, -, hmatch, hmark, hi, hfit⟩ :=
      matched_cases D matched call
    · cases hid.symm.trans hj
    · have hnone : D.fitting call \ matched = ∅ :=
        Finset.sdiff_eq_empty_iff_subset.mpr fun i hi => hall i (mem_fitting.mp hi)
      rw [hmark] at hlen hsub ⊢
      refine ⟨?_, hsub⟩
      rw [hmatch, Option.toList_none, nil_append, hlen, hnone]
      simp
    have hmem : i ∈ D.fitting call \ matched :=
      Finset.mem_sdiff.mpr ⟨mem_fitting.mpr hfit, hi⟩
    have hcard := Finset.card_erase_add_one hmem
    rw [hmark, Finset.sdiff_insert] at hlen
    rw [hmark] at hsub ⊢
    refine ⟨?_, hsub.trans ?_⟩
    · rw [hmatch, Option.toList_some, singleton_append, length_cons, hlen]
      omega
    exact Finset.union_subset (Finset.insert_subset
      (Finset.mem_union_right _ (mem_fitting.mpr hfit)) Finset.subset_union_left)
      Finset.subset_union_right

theorem length_credited_of_reconcile_eq (h : D.reconcile cdr = D.reconcile cdr') (hne : cdr ≠ [])
    (hcdr : ∀ call ∈ cdr, D.uidOf call.agentId = uid)
    (hcdr' : ∀ call ∈ cdr', D.uidOf call.agentId = uid) :
    (D.credited ∅ cdr).length = (D.credited ∅ cdr').length := by
  have hown : ∀ {cdr : List CdrCall}, (∀ call ∈ cdr, D.uidOf call.agentId = uid) →
      (D.credits ∅ cdr).filter (fun r => D.uidOf r.1.agentId = uid) =
        D.credits ∅ cdr := by
    intro cdr hcdr
    refine filter_eq_self.mpr fun r hr => decide_eq_true (hcdr r.1 ?_)
    obtain ⟨-, -, hmem⟩ := mem_credits hr
    exact hmem
  have hcount : ∀ {cdr : List CdrCall} {r}, (∀ call ∈ cdr, D.uidOf call.agentId = uid) →
      r ∈ D.reconcile cdr → r.userUid = uid →
      r.capturedCalls = (D.credited ∅ cdr).length := by
    rintro cdr r hcdr hr rfl
    obtain ⟨cov, hget, rfl⟩ := mem_reconcile.mp hr
    rw [credited, ← hown hcdr]
    exact (of_get?_credit hget).2.1
  obtain ⟨cov, hget⟩ : ∃ cov,
      (cdr.foldl D.credit {}).perAgent.get? uid = some cov := by
    rw [get?_foldl_credit, hown hcdr]
    obtain hnil | ⟨l, r, hl⟩ := eq_nil_or_concat (D.credits ∅ cdr)
    · rw [← @map_fst_credits D cdr ∅, hnil] at hne
      exact absurd rfl hne
    rw [hl, concat_eq_append, foldl_append]
    exact ⟨_, rfl⟩
  have hu := (of_get?_credit hget).1
  have hr := mem_reconcile.mpr ⟨cov, hu ▸ hget, rfl⟩
  exact (hcount hcdr hr hu).symm.trans (hcount hcdr' (h ▸ hr) hu)

theorem exists_rivals {agentId : String} {a b : CapturedCall} (ha : a ∈ D.captured)
    (hb : b ∈ D.captured) (hua : a.userUid = D.uidOf agentId) (hub : b.userUid = D.uidOf agentId)
    (hab : |a.startedAt - b.startedAt| ≤ 2 * matchWindow) (hne : a.startedAt ≠ b.startedAt) :
    ∃ t t' x y, D.matchOf ∅ ⟨agentId, t, 0, none⟩ = some x ∧
      D.marked ∅ ⟨agentId, t, 0, none⟩ = {x} ∧ D.Fits ⟨agentId, t, 0, none⟩ y ∧
      D.Fits ⟨agentId, t', 0, none⟩ x ∧ ¬ D.Fits ⟨agentId, t', 0, none⟩ y := by
  obtain ⟨ia, hia⟩ := mem_iff_getElem?.mp ha
  obtain ⟨ib, hib⟩ := mem_iff_getElem?.mp hb
  rw [abs_le] at hab
  let first : CdrCall := ⟨agentId, max a.startedAt b.startedAt - matchWindow, 0, none⟩
  have hfa : D.Fits first ia := ⟨a, hia, hua, by rw [abs_le]; grind⟩
  have hfb : D.Fits first ib := ⟨b, hib, hub, by rw [abs_le]; grind⟩
  obtain ⟨_, hj, -⟩ | ⟨-, -, -, hall⟩ | ⟨x, -, hmatch, hmark, -, c, hc, hu, -⟩ :=
    matched_cases D ∅ first
  · cases hj
  · exact absurd (hall ia hfa) (Finset.notMem_empty _)
  obtain ⟨y, d, hd, hfy, hdc⟩ : ∃ y, ∃ d ∈ D.captured[y]?, D.Fits first y ∧
      d.startedAt ≠ c.startedAt := by
    by_cases hac : a.startedAt = c.startedAt
    · exact ⟨ib, b, hib, hfb, fun hbc => hne (hac.trans hbc.symm)⟩
    · exact ⟨ia, a, hia, hfa, hac⟩
  refine ⟨_, if c.startedAt < d.startedAt then c.startedAt - matchWindow
    else c.startedAt + matchWindow, x, y, hmatch, hmark, hfy, ⟨c, hc, hu, ?_⟩, ?_⟩
  · rw [abs_le]
    grind
  rintro ⟨d', hd', -, hw'⟩
  cases Option.mem_unique hd hd'
  rw [abs_le] at hw'
  grind

/-- **The order of the export does not matter exactly when no row has a choice.** -/
theorem reconcile_perm_iff (D : Day) : (∀ cdr cdr' : List CdrCall, cdr.Perm cdr' → D.reconcile cdr =
        D.reconcile cdr') ↔ D.Apart := by
  constructor
  · intro h agentId a ha b hb hua hub hab
    by_contra hne
    obtain ⟨t, t', x, y, hmatch, hmark, hy, hx, hy'⟩ := exists_rivals ha hb hua hub hab hne
    -- The row at `t`, and as many at `t'` as there are calls that fit one.
    let first : CdrCall := ⟨agentId, t, 0, none⟩
    let second : CdrCall := ⟨agentId, t', 0, none⟩
    let n := (D.fitting second).card
    have hcount := @length_credited_of_reconcile_eq D
      (first :: List.replicate n second) (List.replicate n second ++ [first])
      (D.uidOf agentId) (h _ _ (perm_append_singleton ..).symm) (cons_ne_nil _ _)
      (by simp [first, second]) (by simp [first, second]; grind)
    -- At the head it takes the call of one of them, at the end it takes `y`.
    have hhead := (@credited_replicate D second rfl n {x}).1
    obtain ⟨hlast, htaken⟩ := @credited_replicate D second rfl n ∅
    rw [credited_cons, hmark, hmatch, length_append, hhead, credited_append,
      length_append, hlast, credited_cons, length_append, Finset.sdiff_empty,
      Finset.card_sdiff_of_subset (by simpa using mem_fitting.mpr hx)] at hcount
    obtain ⟨_, hj, -⟩ | ⟨-, -, -, hall⟩ | ⟨z, -, hz, -⟩ :=
      matched_cases D (D.taken ∅ (List.replicate n second)) first
    · cases hj
    · have hmem := htaken (hall y hy)
      rw [Finset.empty_union, mem_fitting] at hmem
      exact hy' hmem
    · have hpos : 0 < n := Finset.card_pos.mpr ⟨x, mem_fitting.mpr hx⟩
      rw [hz] at hcount
      simp only [Option.toList_some, length_singleton, Finset.card_singleton] at hcount
      omega
  · intro h cdr cdr' hperm
    refine reconcile_eq_of_view ?_
    rw [view_foldl, view_foldl]
    exact hperm.foldl_eq' (fun a _ b _ v => h.creditView_comm v) _

/-- Calls at 0 s and 50 s; a row at 25 s fits both, a row at -10 s the first alone. -/
theorem export_order_matters :
    (reconcile ⟨"bank", 0, [⟨"agent", 0, 0, none⟩, ⟨"agent", 50000000, 0, none⟩], []⟩
        [⟨"agent", 25000000, 0, none⟩, ⟨"agent", -10000000, 0, none⟩]).map (·.capturedCalls) = [1] ∧
    (reconcile ⟨"bank", 0, [⟨"agent", 0, 0, none⟩, ⟨"agent", 50000000, 0, none⟩], []⟩
        [⟨"agent", -10000000, 0, none⟩, ⟨"agent", 25000000, 0, none⟩]).map (·.capturedCalls) =
      [2] := by
  decide +kernel

end Day

end Sentinel.Workers
