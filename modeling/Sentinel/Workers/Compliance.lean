import Sentinel.Workers.Billing

/-!
# Compliance runs, and loses nothing

*Analysis never stops compliance.* Whatever the analysis provider answers, the rules are evaluated
and their findings saved, if pricing and saving the analysis do not raise.
-/

open List

namespace Sentinel.Workers

open Faults

/-! ## What the judge may do -/

def Overturns (x : Finding) (raw : Json) : Prop :=
  judgeSchema.valid raw = true ∧ (raw.get? "verdict").bind Json.asStr? = some "not_a_violation" ∧
    (raw.get? "rule_id").bind Json.asStr? = some x.ruleId

def Fate (judge : Option ComplianceJudge) (i : Nat) (x : Finding) (r : Option Finding) : Prop :=
  r = some x ∨
    (∃ y, r = some y ∧ y.tier = 2 ∧ y.ruleId = x.ruleId ∧ y.severity = x.severity) ∨
    (r = none ∧ ∃ j reply, judge = some j ∧ j.judge i = some reply ∧ Overturns x reply.raw)

def Conserved (judgeRules : List String) (judge : Option ComplianceJudge)
    (tier1 saved : List Finding) : Prop :=
  ∃ fates : List (Finding × Option Finding),
    fates.map Prod.fst = tier1 ∧ saved.Perm (fates.filterMap Prod.snd) ∧
    (∀ x ∈ fates, x.1.ruleId ∉ judgeRules → x.2 = some x.1) ∧
    ∀ i x, (fates.filter fun x => x.1.ruleId ∈ judgeRules)[i]? = some x →
      Fate judge i x.1 x.2

theorem Conserved.refl (judgeRules : List String) (judge : Option ComplianceJudge)
    (tier1 : List Finding) : Conserved judgeRules judge tier1 tier1 := by
  refine ⟨tier1.map fun x => (x, some x), ?_, ?_, ?_, ?_⟩
  · rw [map_map]
    exact map_id _
  · rw [filterMap_map]
    simp
  · intro x hx _
    obtain ⟨y, -, rfl⟩ := mem_map.mp hx
    rfl
  intro i x hx
  obtain ⟨y, -, rfl⟩ := mem_map.mp (mem_of_mem_filter (mem_of_getElem? hx))
  exact .inl rfl

theorem exists_zipped {α : Type} (p : α → Bool) (l : List α) (rs : List (Option α))
    (h : rs.length = (l.filter p).length) :
    ∃ m : List (α × Option α), m.map Prod.fst = l ∧
      m.filter (fun x => p x.1) = (l.filter p).zip rs ∧
      (∀ x ∈ m, p x.1 = false → x.2 = some x.1) ∧
      (m.filterMap Prod.snd).Perm (rs.reduceOption ++ l.filter fun x => !p x) := by
  induction l generalizing rs with
  | nil =>
    obtain rfl : rs = [] := length_eq_zero_iff.mp h
    exact ⟨[], rfl, rfl, nofun, .refl _⟩
  | cons a l ih =>
    cases hp : p a with
    | true =>
      rw [filter_cons_of_pos hp, length_cons] at h
      obtain ⟨r, rs, rfl⟩ := exists_cons_of_length_eq_add_one h
      obtain ⟨m, hfst, hfilter, hrest, hperm⟩ := ih rs (Nat.succ.inj h)
      refine ⟨(a, r) :: m, by rw [map_cons, hfst], ?_, fun x hx hpx => ?_, ?_⟩
      · rw [filter_cons_of_pos hp, zip_cons_cons, ← hfilter]
        exact filter_cons_of_pos hp
      · rcases mem_cons.mp hx with rfl | hx
        · exact absurd hp (by simp [hpx])
        · exact hrest x hx hpx
      rw [filter_cons_of_neg (by simp [hp])]
      cases r with
      | none => exact hperm
      | some b => exact hperm.cons b
    | false =>
      have hneg : ¬ p a = true := by simp [hp]
      rw [filter_cons_of_neg hneg] at h
      obtain ⟨m, hfst, hfilter, hrest, hperm⟩ := ih rs h
      refine ⟨(a, some a) :: m, by rw [map_cons, hfst], ?_, fun x hx hpx => ?_, ?_⟩
      · rw [filter_cons_of_neg hneg, ← hfilter]
        exact filter_cons_of_neg hneg
      · rcases mem_cons.mp hx with rfl | hx
        · rfl
        · exact hrest x hx hpx
      rw [filter_cons_of_pos (by simp [hp])]
      exact (hperm.cons a).trans perm_middle.symm

theorem Conserved.of_reviewed {judgeRules : List String} {judge : Option ComplianceJudge}
    {tier1 : List Finding} {rs : List (Option Finding)}
    (hlen : rs.length = (escalate tier1 judgeRules).length)
    (hfate : ∀ i x r, (escalate tier1 judgeRules)[i]? = some x → rs[i]? = some r →
      Fate judge i x r) :
    Conserved judgeRules judge tier1 ((rs.reduceOption ++
      tier1.filter fun x => x ∉ escalate tier1 judgeRules).insertionSort before) := by
  obtain ⟨fates, hfst, hfilter, hrest, hperm⟩ :=
    exists_zipped (fun x : Finding => decide (x.ruleId ∈ judgeRules)) tier1 rs hlen
  refine ⟨fates, hfst, ?_, fun x hx hrule => hrest x hx (decide_eq_false hrule), fun i x hx => ?_⟩
  · have hother : (tier1.filter fun x => x ∉ escalate tier1 judgeRules) =
        tier1.filter fun x => !decide (x.ruleId ∈ judgeRules) :=
      filter_congr fun x hx => by simp [escalate, hx]
    rw [hother]
    exact (perm_insertionSort before _).trans hperm.symm
  rw [hfilter, getElem?_zip_eq_some] at hx
  exact hfate i x.1 x.2 hx.1 hx.2

/-! ## Specifications of the steps -/

variable {D : Type}

def Adds (P : Deed → Prop) (w w' : World D) : Prop :=
  ∃ new, w'.deeds = w.deeds ++ new ∧ ∀ x ∈ new, P x

namespace Adds

variable {P : Deed → Prop} {w w' w'' : World D}

theorem one {x : Deed} (h : w'.deeds = w.deeds ++ [x]) (hx : P x) : Adds P w w' :=
  ⟨[x], h, fun _ hy => mem_singleton.mp hy ▸ hx⟩

theorem trans (h : Adds P w w') (h' : Adds P w' w'') : Adds P w w'' := by
  obtain ⟨new, hnew, hP⟩ := h
  obtain ⟨new', hnew', hP'⟩ := h'
  refine ⟨new ++ new', by rw [hnew', hnew, append_assoc], fun x hx => ?_⟩
  rcases mem_append.mp hx with hx | hx
  · exact hP x hx
  · exact hP' x hx

end Adds

def NotSaved (x : Deed) : Prop := x.isSavedFindings = false

theorem not_notSaved (version : Int) (saved : List Finding) :
    ¬ NotSaved (.savedFindings version saved) := by simp [NotSaved, Deed.isSavedFindings]

variable {Q : Unit → World D → Prop} {E : Trouble → World D → Prop}

theorem meets_note {text : String} {w : World D} (h : Q () { w with notes := w.notes ++ [text] }) :
    Meets (note text) w Q E := h

theorem meets_deed {x : Deed} {w : World D} (h : Q () { w with deeds := w.deeds ++ [x] }) :
    Meets (deed x) w Q E := h

theorem meets_spend {paise : Int} {w : World D}
    (h : Q () { w with budget := w.budget.record paise }) :
    Meets (spend paise) w Q E := h

theorem meets_save {x : Deed} {g : D → Except SinkError D} {w : World D}
    (hok : ∀ db, Q () { w with deeds := w.deeds ++ [x], db := db })
    (herror : ∀ e, g w.db = .error e → E (.sink e) { w with deeds := w.deeds ++ [x] }) :
    Meets (save x g) w Q E := by
  refine .bind (meets_deed (.bind (.get ?_)))
  split
  next db hdb => exact hok db
  next e he => exact herror e he

namespace Finalizer

variable {f : Finalizer D} {ctx : CallContext} {w : World D}

def JudgeCounts (f : Finalizer D) : Prop :=
  ∀ j, f.judge = some j → ∀ i r, j.judge i = some r → r.Counted

structure Sound (f : Finalizer D) : Prop where
  transcript : ∀ db id t e, f.sink.saveTranscript db id t ≠ .error e
  findings : ∀ db id version fs e, f.sink.saveFindings db id version fs ≠ .error e
  status : ∀ db id s e, f.sink.setStatus db id s ≠ .error e
  judge : f.JudgeCounts

def AnalysisSaved (f : Finalizer D) (t : Transcript) : Prop :=
  ∀ a, f.analyzer = some a → ∀ x, (a.analyse t).2 = .ok x →
    f.costPolicy.costPaise x.model x.inputTokens x.outputTokens ≠ .error .typeError ∧
    ∀ db paise e, f.sink.saveAnalysis db t.context.callId x paise ≠ .error e

def Idle (w w' : World D) : Prop := w'.deeds = w.deeds ∧ w'.budget = w.budget

def Books (f : Finalizer D) (P : Deed → Prop) (w w' : World D) : Prop :=
  Adds P w w' ∧ ∀ budget, f.Balanced budget w → f.Balanced budget w'

def Preparing (x : Deed) : Prop := x.isEvaluated = false ∧ x.isJudged = false ∧ NotSaved x

namespace Books

variable {P : Deed → Prop} {w' w'' : World D}

theorem idle (h : Idle w w') : f.Books P w w' :=
  ⟨⟨[], by rw [h.1, append_nil], forall_mem_nil _⟩, fun _ hw => by rwa [Balanced, h.1, h.2]⟩

theorem one {x : Deed} (hdeeds : w'.deeds = w.deeds ++ [x]) (hbudget : w'.budget = w.budget)
    (hx : P x) (hfree : f.charge x = 0) : f.Books P w w' :=
  ⟨.one hdeeds hx, fun _ hw => hw.free hdeeds hbudget hfree⟩

theorem trans (h : f.Books P w w') (h' : f.Books P w' w'') : f.Books P w w'' :=
  ⟨h.1.trans h'.1, fun budget hw => h'.2 budget (h.2 budget hw)⟩

end Books

theorem meets_transcribeChannel (ch : Channel) :
    Meets (f.transcribeChannel ctx ch) w (fun _ w' => Idle w w') (fun _ w' => Idle w w') := by
  unfold transcribeChannel
  split
  · exact .throw ⟨rfl, rfl⟩
  dsimp only
  split
  · exact .bind (meets_note (.pure ⟨rfl, rfl⟩))
  split
  · exact .bind (meets_note (.pure ⟨rfl, rfl⟩))
  · exact .pure ⟨rfl, rfl⟩

theorem meets_transcribe :
    Meets (f.transcribe ctx) w (fun _ w' => Idle w w') (fun _ w' => Idle w w') := by
  refine .bind ((meets_transcribeChannel .far).imp (fun _ w₁ h₁ => ?_) fun _ _ h => h)
  have hidle : ∀ w₂ : World D, Idle w₁ w₂ → Idle w w₂ :=
    fun w₂ h₂ => ⟨h₂.1.trans h₁.1, h₂.2.trans h₁.2⟩
  exact .bind ((meets_transcribeChannel .near).imp (fun _ w₂ h₂ => .pure (hidle w₂ h₂))
    fun _ w₂ => hidle w₂)

theorem meets_askAll (rs : List (Option Reply)) {Q : Unit → World D → Prop}
    {E : Trouble → World D → Prop} (h : Q () { w with deeds := w.deeds ++ rs.map .asked }) :
    Meets (askAll rs) w Q E := by
  induction rs generalizing w with
  | nil => exact .pure (by simpa using h)
  | cons r rs ih => exact .bind (meets_deed (ih (by simpa using h)))

variable {t : Transcript} {r : Reply} {j : ComplianceJudge} {w₁ w₂ : World D} {C : Prop}
  {xs : List Finding}

variable {a : CallAnalyzer} {x : Finding} {reply : Option Reply} {v : JudgeVerdict} {i : Nat}

theorem books_asked (ha : f.analyzer = some a) (t : Transcript)
    (hdeeds : w₁.deeds = w.deeds ++ (a.analyse t).1.map .asked)
    (hbudget : w₁.budget = w.budget.record (f.paid (a.analyse t).2)) : f.Books Preparing w w₁ := by
  refine ⟨⟨_, hdeeds, fun d hd => ?_⟩, fun _ hw => hw.adds hdeeds (billed_analyse ha ▸ hbudget)⟩
  obtain ⟨r, -, rfl⟩ := mem_map.mp hd
  exact ⟨rfl, rfl, rfl⟩

theorem meets_priceAnalysis (ha : f.analyzer = some a) {x : Analysis}
    (hx : (a.analyse t).2 = .ok x) :
    Meets (f.priceAnalysis x) w (fun paise w' => paise = f.paid (.ok x) ∧ Idle w w')
      (fun _ w' => (f.paid (.ok x) = 0 ∧ Idle w w') ∧ ¬ f.AnalysisSaved t) := by
  unfold priceAnalysis
  split
  next hprice => exact .pure ⟨by rw [paid, hprice]; rfl, rfl, rfl⟩
  next hprice => exact .bind (meets_note (.pure ⟨by rw [paid, hprice]; rfl, rfl, rfl⟩))
  next hprice =>
    exact .throw ⟨⟨by rw [paid, hprice]; rfl, rfl, rfl⟩, fun hsaved => (hsaved a ha x hx).1 hprice⟩

theorem meets_analyseOnce (ha : f.analyzer = some a) (t : Transcript) :
    Meets (f.analyseOnce a t) w (fun _ w' => f.Books Preparing w w')
      (fun _ w' => f.Books Preparing w w' ∧ ¬ f.AnalysisSaved t) := by
  have hunpaid : ∀ w' : World D, f.paid (a.analyse t).2 = 0 →
      w'.deeds = w.deeds ++ (a.analyse t).1.map .asked → w'.budget = w.budget →
      f.Books Preparing w w' := fun w' hpaid hdeeds hbudget =>
    books_asked ha t hdeeds (by rw [hpaid, TenantBudget.record_zero, hbudget])
  refine .bind (meets_askAll _ ?_)
  split
  next he => exact .bind (meets_note (.pure (hunpaid _ (by rw [he]; rfl) rfl rfl)))
  next he => exact .bind (meets_note (.pure (hunpaid _ (by rw [he]; rfl) rfl rfl)))
  next x hx =>
    refine .bind ((meets_priceAnalysis ha hx).imp (fun paise w₂ h₂ => ?_)
      fun _ w₂ h => ⟨hunpaid w₂ (hx ▸ h.1.1) h.1.2.1 h.1.2.2, h.2⟩)
    obtain ⟨rfl, hdeeds, hbudget⟩ := h₂
    have hspent : f.Books Preparing w { w₂ with budget := w₂.budget.record (f.paid (.ok x)) } :=
      books_asked ha t hdeeds (by rw [hx, hbudget])
    refine .bind (meets_spend (.bind (meets_save (fun db => .pure ?_) fun e he => ⟨?_, ?_⟩)))
    · exact hspent.trans (.one rfl rfl ⟨rfl, rfl, rfl⟩ rfl)
    · exact hspent.trans (.one rfl rfl ⟨rfl, rfl, rfl⟩ rfl)
    · exact fun hsaved => (hsaved a ha x hx).2 _ _ e he

theorem meets_analyse (t : Transcript) (decision : Decision) :
    Meets (f.analyse t decision) w (fun _ w' => f.Books Preparing w w')
      (fun _ w' => f.Books Preparing w w' ∧ ¬ f.AnalysisSaved t) := by
  unfold analyse
  split
  next a ha =>
    split
    · exact meets_analyseOnce ha t
    · exact .bind (meets_note (.pure (.idle ⟨rfl, rfl⟩)))
  · exact .bind (meets_note (.pure (.idle ⟨rfl, rfl⟩)))

theorem reviewReply_eq {verdict : Option JudgeVerdict}
    (h : reviewReply x reply = some (verdict, r)) :
    reply = some r ∧ ∀ v, verdict = some v → judgeSchema.valid r.raw = true ∧
      (r.raw.get? "rule_id").bind Json.asStr? = some x.ruleId ∧ toVerdict r.raw = some v := by
  cases reply with
  | none => cases h
  | some r' =>
    unfold reviewReply at h
    dsimp only at h
    split at h
    · cases h
      exact ⟨rfl, fun v hv => by cases hv⟩
    next hvalid =>
      split at h
      · cases h
        exact ⟨rfl, fun v hv => by cases hv⟩
      next hrule =>
        obtain ⟨v', hv', heq⟩ := Option.map_eq_some_iff.mp h
        obtain ⟨rfl, rfl⟩ := Prod.mk.inj heq
        refine ⟨rfl, fun v hv => ⟨not_not.mp hvalid, not_not.mp hrule, ?_⟩⟩
        rw [hv', hv]

theorem verdict_of_toVerdict {raw : Json} (h : toVerdict raw = some v) :
    (raw.get? "verdict").bind Json.asStr? = some v.verdict := by
  unfold toVerdict at h
  simp only [Option.bind_eq_bind, Option.bind_eq_some_iff] at h
  obtain ⟨span, -, vj, hvj, verdict, hverdict, rj, -, ruleId, -, cj, -, c, -, aj, -, rationale, -,
    text, -, heq⟩ := h
  rw [hvj, Option.bind_some, hverdict, ← Option.some.inj heq]

theorem fate_of_review (hj : f.judge = some j)
    (h : reviewReply x (j.judge i) = some (some v, r)) : Fate f.judge i x (applyVerdict x v) := by
  obtain ⟨hreply, hread⟩ := reviewReply_eq h
  obtain ⟨hvalid, hrule, hverdict⟩ := hread v rfl
  unfold applyVerdict
  split
  next hnot =>
    refine .inr (.inr ⟨rfl, j, r, hj, hreply, hvalid, ?_, hrule⟩)
    rw [verdict_of_toVerdict hverdict, hnot]
  · split
    · exact .inl rfl
    · exact .inr (.inl ⟨_, rfl, rfl, rfl, rfl⟩)

theorem meets_priceReview (hj : f.judge = some j) (hr : j.judge i = some r) :
    Meets (f.priceReview j r) w
      (fun _ w' => w'.deeds = w.deeds ∧ w'.budget = w.budget.record (f.costPolicy.price j.name r))
      (fun _ w' => (w'.deeds = w.deeds ∧
        w'.budget = w.budget.record (f.costPolicy.price j.name r)) ∧ ¬ f.JudgeCounts) := by
  unfold priceReview CostPolicy.price
  split
  next hprice => exact meets_spend ⟨rfl, by rw [hprice]; rfl⟩
  next hprice => exact meets_note ⟨rfl, by rw [hprice]; exact (TenantBudget.record_zero _).symm⟩
  next hprice =>
    refine .throw ⟨⟨rfl, by rw [hprice]; exact (TenantBudget.record_zero _).symm⟩,
      fun hcounts => ?_⟩
    obtain ⟨hin, hout⟩ := hcounts j hj i r hr
    obtain ⟨a, ha⟩ := Option.isSome_iff_exists.mp hin
    obtain ⟨b, hb⟩ := Option.isSome_iff_exists.mp hout
    rw [ha, hb] at hprice
    exact f.costPolicy.costPaise_ne_typeError _ _ _ hprice

def Reviews (f : Finalizer D) (C : Prop) (xs : List Finding) (w w' : World D) : Prop :=
  ∃ new, w'.deeds = w.deeds ++ new ∧ (∀ x ∈ new, x.isJudged = true) ∧
    (C → (new = [] ↔ xs = [])) ∧ ∀ budget, f.Balanced budget w → f.Balanced budget w'

theorem Reviews.skip (hdeeds : w₁.deeds = w.deeds) (hbudget : w₁.budget = w.budget) (hC : ¬ C) :
    f.Reviews C xs w w₁ :=
  ⟨[], by simp [hdeeds], by simp, fun h => absurd h hC,
    fun _ hw => by rwa [Balanced, hdeeds, hbudget]⟩

theorem Reviews.cons (h : f.Reviews C xs w₁ w₂) (hdeeds : w₁.deeds = w.deeds ++ [.judged x reply])
    (hw : ∀ budget, f.Balanced budget w → f.Balanced budget w₁) : f.Reviews C (x :: xs) w w₂ := by
  obtain ⟨new, hnew, hjudged, -, hbalanced⟩ := h
  refine ⟨.judged x reply :: new, by simp [hnew, hdeeds], ?_, by simp, fun budget h =>
    hbalanced budget (hw budget h)⟩
  exact forall_mem_cons.mpr ⟨rfl, hjudged⟩

theorem meets_reviewOne (hj : f.judge = some j) (i : Nat) (x : Finding) :
    Meets (f.reviewOne j i x) w
      (fun r w' => Fate f.judge i x r ∧ w'.deeds = w.deeds ++ [.judged x (j.judge i)] ∧
        ∀ budget, f.Balanced budget w → f.Balanced budget w')
      (fun _ w' => (w'.deeds = w.deeds ++ [.judged x (j.judge i)] ∧
        ∀ budget, f.Balanced budget w → f.Balanced budget w') ∧ ¬ f.JudgeCounts) := by
  refine .bind (meets_deed ?_)
  split
  next hnone =>
    have hzero : f.billed [.judged x (j.judge i)] = 0 := by
      cases hr : j.judge i with
      | none => rfl
      | some r => simp [billed, discards, hr ▸ hnone]
    refine .pure ⟨.inl rfl, rfl, fun _ hw => hw.adds rfl ?_⟩
    rw [hzero, TenantBudget.record_zero]
  next verdict r hreview =>
    have hr : j.judge i = some r := (reviewReply_eq hreview).1
    have hbilled : f.billed [.judged x (j.judge i)] = f.costPolicy.price j.name r := by
      rw [hr] at hreview ⊢
      simp [billed, discards, charge, hreview, hj]
    have hpriced : ∀ w' : World D, w'.deeds = w.deeds ++ [.judged x (j.judge i)] ∧
        w'.budget = w.budget.record (f.costPolicy.price j.name r) →
        w'.deeds = w.deeds ++ [.judged x (j.judge i)] ∧
          ∀ budget, f.Balanced budget w → f.Balanced budget w' :=
      fun w' h => ⟨h.1, fun _ hw => hw.adds h.1 (hbilled ▸ h.2)⟩
    refine .bind ((meets_priceReview hj hr).imp (fun _ w₁ h₁ => ?_)
      fun _ w₁ h => ⟨hpriced w₁ h.1, h.2⟩)
    split
    · exact .bind (meets_note (.pure ⟨.inl rfl, hpriced w₁ h₁⟩))
    next v => exact .pure ⟨fate_of_review hj hreview, hpriced w₁ h₁⟩

theorem meets_reviewAll (hj : f.judge = some j) (i : Nat) (xs : List Finding) :
    Meets (f.reviewAll j i xs) w
      (fun rs w' => (rs.length = xs.length ∧ ∀ k x r, xs[k]? = some x → rs[k]? = some r →
        Fate f.judge (i + k) x r) ∧ f.Reviews C xs w w')
      (fun _ w' => f.Reviews C xs w w' ∧ ¬ f.JudgeCounts) := by
  induction xs generalizing i w with
  | nil => exact .pure ⟨⟨rfl, by simp⟩, [], by simp⟩
  | cons x xs ih =>
    refine .bind ((meets_reviewOne hj i x).imp (fun r w₁ h₁ => ?_) fun _ w₁ h => ⟨?_, h.2⟩)
    · refine .bind ((ih (i + 1)).imp (fun rs w₂ h₂ => .pure ?_)
        fun _ _ h => ⟨h.1.cons h₁.2.1 h₁.2.2, h.2⟩)
      obtain ⟨⟨hlen, hfates⟩, hreviews⟩ := h₂
      refine ⟨⟨congrArg Nat.succ hlen, fun k y s hy hs => ?_⟩, hreviews.cons h₁.2.1 h₁.2.2⟩
      cases k with
      | zero =>
        obtain rfl : x = y := by simpa using hy
        obtain rfl : r = s := by simpa using hs
        exact h₁.1
      | succ k =>
        rw [show i + (k + 1) = i + 1 + k by omega]
        exact hfates k y s (by simpa using hy) (by simpa using hs)
    · exact ⟨_, h.1.1, by simp [Deed.isJudged], by simp, h.1.2⟩

theorem meets_review (hj : f.judge = some j) (findings : List Finding) :
    Meets (f.review j findings) w
      (fun saved w' => Conserved f.rules.judgeRules f.judge findings saved ∧
        f.Reviews C (escalate findings f.rules.judgeRules) w w')
      (fun _ w' => f.Reviews C (escalate findings f.rules.judgeRules) w w' ∧
        ¬ f.JudgeCounts) := by
  refine .bind ((meets_reviewAll hj 0 _).imp (fun rs w₁ h₁ => .pure ⟨?_, h₁.2⟩) fun _ _ h => h)
  refine .of_reviewed h₁.1.1 fun i x r hx hr => ?_
  simpa using h₁.1.2 i x r hx hr

def Sampled (f : Finalizer D) (ctx : CallContext) (budget : TenantBudget)
    (findings : List Finding) : Prop :=
  f.judge.isSome ∧ 0 < f.rules.judgeSamplePct ∧
    (f.sampleBucket ctx.callId : ℚ) < f.rules.judgeSamplePct * 100 ∧
    (f.costPolicy.decide budget ctx.durationMs (!findings.isEmpty)).judge = true

theorem shouldJudge_of_sampled {bucket : Nat} {pct : ℚ} (hpct : 0 < pct)
    (hbucket : (bucket : ℚ) < pct * 100) (hit : Bool) (rules ids : List String) :
    shouldJudge bucket hit rules ids pct = true := by
  unfold shouldJudge
  split
  · rfl
  rw [if_neg (not_le.mpr hpct)]
  exact decide_eq_true hbucket

theorem meets_judged (findings : List Finding) : Meets (f.judged ctx findings) w
      (fun saved w' => Conserved f.rules.judgeRules f.judge findings saved ∧
        f.Reviews (f.Sampled ctx w.budget findings) (escalate findings f.rules.judgeRules) w w')
      (fun _ w' => f.Reviews (f.Sampled ctx w.budget findings)
        (escalate findings f.rules.judgeRules) w w' ∧ ¬ f.JudgeCounts) := by
  have hrefl : Conserved f.rules.judgeRules f.judge findings findings := .refl _ _ _
  refine .bind (.get ?_)
  dsimp only
  split
  next j hj =>
    split
    · exact meets_review hj findings
    next hskip =>
      have hnot : ¬ f.Sampled ctx w.budget findings := fun h => hskip (by
        simp [h.2.2.2, shouldJudge_of_sampled h.2.1 h.2.2.1])
      split
      · exact .bind (meets_note (.pure ⟨hrefl, .skip rfl rfl hnot⟩))
      · exact .pure ⟨hrefl, .skip rfl rfl hnot⟩
  next hj =>
    have hnot : ¬ f.Sampled ctx w.budget findings := fun h => by simp [Sampled, hj] at h
    split
    · exact .bind (meets_note (.pure ⟨hrefl, .skip rfl rfl hnot⟩))
    · exact .pure ⟨hrefl, .skip rfl rfl hnot⟩

def Tried (f : Finalizer D) (ctx : CallContext) (t : Transcript) (w w' : World D) : Prop :=
  ∃ new, w'.deeds = w.deeds ++ .evaluated t (f.rules.evaluate t) :: new ∧
    (∀ x ∈ new, x.isEvaluated = false) ∧
    (∀ version saved, .savedFindings version saved ∈ new →
      Conserved f.rules.judgeRules f.judge (f.rules.evaluate t) saved) ∧
    (f.Sampled ctx w.budget (f.rules.evaluate t) →
      ((∃ x ∈ new, x.isJudged = true) ↔ escalate (f.rules.evaluate t) f.rules.judgeRules ≠ [])) ∧
    ∀ budget, f.Balanced budget w → f.Balanced budget w'

theorem Tried.of_reviews (h : f.Reviews (f.Sampled ctx w.budget (f.rules.evaluate t))
      (escalate (f.rules.evaluate t) f.rules.judgeRules)
      { w with deeds := w.deeds ++ [.evaluated t (f.rules.evaluate t)] } w₁) :
    f.Tried ctx t w w₁ := by
  obtain ⟨new, hnew, hjudged, hasked, hbalanced⟩ := h
  refine ⟨new, by simpa using hnew, fun x hx => ?_, fun _ _ hmem => ?_, fun hsampled => ?_,
    fun budget hw => hbalanced budget (hw.free rfl rfl rfl)⟩
  · cases x with
    | evaluated _ _ => cases hjudged _ hx
    | _ => rfl
  · cases hjudged _ hmem
  rw [Ne, ← hasked hsampled]
  exact ⟨fun ⟨x, hx, _⟩ => ne_nil_of_mem hx, fun hne =>
    (exists_mem_of_ne_nil _ hne).imp fun x hx => ⟨hx, hjudged x hx⟩⟩

theorem Tried.add (h : f.Tried ctx t w w₁) {x : Deed} (hdeeds : w₂.deeds = w₁.deeds ++ [x])
    (hbudget : w₂.budget = w₁.budget) (hx : x.isEvaluated = false ∧ x.isJudged = false)
    (hfree : f.charge x = 0) (hsaved : ∀ version saved, x = .savedFindings version saved →
      Conserved f.rules.judgeRules f.judge (f.rules.evaluate t) saved) : f.Tried ctx t w w₂ := by
  obtain ⟨new, hnew, hnot, hold, hasked, hbalanced⟩ := h
  refine ⟨new ++ [x], by simp [hdeeds, hnew], fun y hy => ?_, fun version saved hmem => ?_,
    fun hsampled => ?_, fun budget hw => (hbalanced budget hw).free hdeeds hbudget hfree⟩
  · exact (mem_append.mp hy).elim (hnot y) fun hy => mem_singleton.mp hy ▸ hx.1
  · exact (mem_append.mp hmem).elim (hold version saved)
      fun hmem => hsaved version saved (mem_singleton.mp hmem).symm
  rw [← hasked hsampled]
  simp [hx.2]

theorem meets_comply (t : Transcript) : Meets (f.comply ctx t) w
      (fun saved w' => f.Tried ctx t w w' ∧ .savedFindings f.rules.version saved ∈ w'.deeds)
      (fun _ w' => f.Tried ctx t w w' ∧ ¬ f.Sound) := by
  refine .bind (meets_deed ?_)
  refine .bind ((meets_judged _).imp (fun saved w₁ h₁ => ?_) fun _ w' h =>
    ⟨.of_reviews h.1, fun hsound => h.2 hsound.judge⟩)
  have hsaved : ∀ w₂ : World D, w₂.deeds = w₁.deeds ++ [.savedFindings f.rules.version saved] →
      w₂.budget = w₁.budget → f.Tried ctx t w w₂ := by
    refine fun w₂ hdeeds hbudget => (Tried.of_reviews h₁.2).add hdeeds hbudget ⟨rfl, rfl⟩ rfl ?_
    rintro _ _ ⟨⟩
    exact h₁.1
  refine .bind (meets_save (fun db => ?_) fun e he =>
    ⟨hsaved _ rfl rfl, fun hsound => hsound.findings _ _ _ _ _ he⟩)
  have hstatus : ∀ w₃ : World D, w₃.deeds = w₁.deeds ++ [.savedFindings f.rules.version saved] ++
      [.status "complete"] → w₃.budget = w₁.budget → f.Tried ctx t w w₃ := fun w₃ hdeeds hbudget =>
    (hsaved { w₁ with deeds := w₁.deeds ++ [.savedFindings f.rules.version saved] } rfl rfl).add
      hdeeds hbudget ⟨rfl, rfl⟩ rfl nofun
  exact .bind (meets_save
    (fun db' => .pure ⟨hstatus _ rfl rfl, mem_append_left _ (mem_append_right _ mem_cons_self)⟩)
    fun e he => ⟨hstatus _ rfl rfl, fun hsound => hsound.status _ _ _ _ he⟩)

def Conserving (f : Finalizer D) (deeds : List Deed) : Prop :=
  ∀ version saved, .savedFindings version saved ∈ deeds →
    ∃ t, .evaluated t (f.rules.evaluate t) ∈ deeds ∧
      Conserved f.rules.judgeRules f.judge (f.rules.evaluate t) saved

theorem conserving_of_notSaved {deeds : List Deed} (h : ∀ x ∈ deeds, NotSaved x) :
    f.Conserving deeds :=
  fun _ _ hmem => absurd (h _ hmem) (not_notSaved _ _)

theorem Tried.conserving {w' : World D} (h : f.Tried ctx t w w')
    (hw : ∀ x ∈ w.deeds, NotSaved x) : f.Conserving w'.deeds := by
  obtain ⟨new, hnew, -, hsaved, -⟩ := h
  intro version saved hmem
  rw [hnew] at hmem ⊢
  refine ⟨t, mem_append_right _ mem_cons_self, ?_⟩
  rcases mem_append.mp hmem with hmem | hmem
  · exact absurd (hw _ hmem) (not_notSaved _ _)
  rcases mem_cons.mp hmem with heq | hmem
  · cases heq
  · exact hsaved version saved hmem

def Early (f : Finalizer D) (budget : TenantBudget) (w : World D) : Prop :=
  f.Balanced budget w ∧ ∀ x ∈ w.deeds, Preparing x

theorem Books.early {budget : TenantBudget} (h : f.Books Preparing w w₁)
    (hw : f.Early budget w) : f.Early budget w₁ := by
  obtain ⟨⟨new, hnew, hprep⟩, hbalanced⟩ := h
  refine ⟨hbalanced budget hw.1, fun x hx => ?_⟩
  rw [hnew] at hx
  exact (mem_append.mp hx).elim (hw.2 x) (hprep x)

def Audited (f : Finalizer D) (ctx : CallContext) (budget : TenantBudget) (w : World D) : Prop :=
  f.Early budget w ∨ ∃ t w₀, f.Early budget w₀ ∧ f.Tried ctx t w₀ w

variable {budget : TenantBudget}

theorem Early.done (h : f.Early budget w) : f.Conserving w.deeds ∧ f.Audited ctx budget w :=
  ⟨conserving_of_notSaved fun x hx => (h.2 x hx).2.2, .inl h⟩

theorem Early.complied (h : f.Early budget w) (hdone : f.Tried ctx t w w₁) :
    f.Conserving w₁.deeds ∧ f.Audited ctx budget w₁ :=
  ⟨hdone.conserving fun x hx => (h.2 x hx).2.2, .inr ⟨t, w, h, hdone⟩⟩

theorem meets_complete (t : Transcript) (hw : f.Early budget w) : Meets (f.complete ctx t) w
      (fun outcome w' => (f.Conserving w'.deeds ∧ f.Audited ctx budget w') ∧
        outcome.costPaise = w'.budget.spentPaise ∧ outcome.status = "complete" ∧
        (∃ t', .evaluated t' (f.rules.evaluate t') ∈ w'.deeds) ∧
        ∃ saved, .savedFindings f.rules.version saved ∈ w'.deeds)
      (fun _ w' => (f.Conserving w'.deeds ∧ f.Audited ctx budget w') ∧
        (f.Sound → ¬ f.AnalysisSaved t)) := by
  have hsave : ∀ {w w' : World D} {x : Deed}, f.Early budget w → w'.deeds = w.deeds ++ [x] →
      w'.budget = w.budget → Preparing x → f.charge x = 0 → f.Early budget w' :=
    fun hw hdeeds hbudget hx hfree => (Books.one hdeeds hbudget hx hfree).early hw
  refine .bind (meets_save (fun db => ?_) fun e he =>
    ⟨Early.done (hsave hw rfl rfl ⟨rfl, rfl, rfl⟩ rfl), fun h _ => h.transcript _ _ _ _ he⟩)
  refine .bind (.get ?_)
  have hstart : f.Early budget { w with deeds := w.deeds ++ [.savedTranscript t], db := db } :=
    hsave hw rfl rfl ⟨rfl, rfl, rfl⟩ rfl
  refine .bind (meets_save (fun db' => ?_) fun e he =>
    ⟨Early.done (hsave hstart rfl rfl ⟨rfl, rfl, rfl⟩ rfl), fun h _ => h.status _ _ _ _ he⟩)
  have hstatus : f.Early budget { w with
      deeds := w.deeds ++ [.savedTranscript t] ++ [.status "analyzing"], db := db' } :=
    hsave hstart rfl rfl ⟨rfl, rfl, rfl⟩ rfl
  refine .bind ((meets_analyse t _).imp (fun analysis w₁ h₁ => ?_) fun _ _ h =>
    ⟨(h.1.early hstatus).done, fun _ => h.2⟩)
  have hbefore := h₁.early hstatus
  refine .bind ((meets_comply _).imp (fun findings w₂ h₂ => ?_) fun _ _ h =>
    ⟨hbefore.complied h.1, fun hsound => absurd hsound h.2⟩)
  refine .bind (.get (.pure ⟨hbefore.complied h₂.1, rfl, rfl, ?_, findings, h₂.2⟩))
  obtain ⟨new, hnew, -⟩ := h₂.1
  exact ⟨_, hnew ▸ mem_append_right _ mem_cons_self⟩

variable (ctx) in
theorem meets_finalize (hw : f.Early budget w) :
    Meets (f.finalize ctx) w (fun outcome w' => (f.Conserving w'.deeds ∧ f.Audited ctx budget w') ∧
        (outcome.costPaise = w'.budget.spentPaise ∧ outcome.status = "complete" ∨
          outcome.costPaise = 0 ∧ outcome.status = "failed" ∧ w'.budget = w.budget))
      (fun _ w' => f.Conserving w'.deeds ∧ f.Audited ctx budget w') := by
  have hidle : ∀ w' : World D, Idle w w' → f.Early budget w' := fun w' h => (Books.idle h).early hw
  refine .bind (meets_transcribe.imp (fun t w₁ h₁ => ?_) fun _ w' h => (hidle w' h).done)
  split
  · have hfailed : ∀ w' : World D, w'.deeds = w₁.deeds ++ [.status "failed"] →
        w'.budget = w₁.budget → f.Early budget w' := fun w' hdeeds hbudget =>
      (Books.one hdeeds hbudget ⟨rfl, rfl, rfl⟩ rfl).early (hidle w₁ h₁)
    exact .bind (meets_save (fun db => .bind (.get (.pure ⟨Early.done (hfailed _ rfl rfl),
      .inr ⟨rfl, rfl, h₁.2⟩⟩))) fun _ _ => Early.done (hfailed _ rfl rfl))
  next t =>
    exact (meets_complete t (hidle w₁ h₁)).imp (fun _ _ h => ⟨h.1, .inl ⟨h.2.1, h.2.2.1⟩⟩)
      fun _ _ h => h.1

end Finalizer

def World.start (db : D) (budget : TenantBudget) : World D := { db := db, budget := budget }

theorem Finalizer.early_start (f : Finalizer D) (db : D) (budget : TenantBudget) :
    f.Early budget (.start db budget) :=
  ⟨(TenantBudget.record_zero budget).symm, forall_mem_nil _⟩

def promise (lower upper : Int) : Reply where
  raw := .obj [("summary", .str "The borrower promised to pay."), ("disposition", .str "ptp"),
    ("ptp", .obj [("present", .bool true), ("amount_paise", .num (.int 1500000)),
      ("confidence", .num (.float (9 / 10))),
      ("evidence_span_ms", .arr [.num (.int lower), .num (.int upper)])]),
    ("sentiment", .obj [("far", .arr []), ("near", .arr []), ("far_open", .num (.int 0)),
      ("far_close", .num (.int 0)), ("delta", .num (.int 0))]),
    ("talk_ratio", .num (.float (1 / 2))), ("interruptions", .num (.int 0))]
  inputTokens := some 900
  outputTokens := some 120

def floor (analysis : Reply) (judge : Option ComplianceJudge) : Finalizer Records where
  segments := fun _ ch => .ok (if ch = .near then some [1, 0] else none)
  asr := fun _ _ _ => some { text := "pay today" }
  analyzer := some ⟨"m", fun _ => some analysis, fun _ => false, fun _ => none⟩
  rules := ⟨fun _ => [⟨"abusive_language", .high, 1, none, none, none, none, none⟩], 1,
    ["abusive_language"], 5⟩
  judge := judge
  sampleBucket := fun _ => 0
  sink := postgresSink "t1" some
  costPolicy := { pricing := [("m", ⟨"m", 100, 200⟩)] }

def oneMinute : CallContext :=
  { callId := "c1", tenantId := "t1", userUid := "u1", startedAt := 0, durationMs := 60000 }

def noCap : TenantBudget := { tenantId := "t1", monthlyBudgetPaise := none }

variable {tenant : String} {callUuid : CallId → Option Uuid}

theorem sound_of_postgres {f : Finalizer Records}
    (hsink : f.sink = postgresSink tenant callUuid) (hid : ∀ id, (callUuid id).isSome)
    (hjudge : f.JudgeCounts) : f.Sound := by
  have huuid : ∀ id, ∃ uuid, callUuid id = some uuid :=
    fun id => Option.isSome_iff_exists.mp (hid id)
  refine ⟨fun db id t e => ?_, fun db id version fs e => ?_, fun db id s e => ?_, hjudge⟩
  · obtain ⟨uuid, huuid⟩ := huuid id
    simp [hsink, postgresSink, huuid, bind, Except.bind]
  · obtain ⟨uuid, huuid⟩ := huuid id
    simp [hsink, postgresSink, huuid, bind, Except.bind, db.transact_saveFindings, Except.mapError]
  obtain ⟨uuid, huuid⟩ := huuid id
  simp [hsink, postgresSink, huuid, bind, Except.bind]

theorem saveAnalysis_of_postgres {f : Finalizer Records}
    (hsink : f.sink = postgresSink tenant callUuid)
    {id : CallId} (hid : (callUuid id).isSome) {x : Analysis}
    (hspan : x.ptp.present = true → rangeReads x.ptp.evidenceSpanMs = true) (db : Records)
    (paise : Int) (e : SinkError) : f.sink.saveAnalysis db id x paise ≠ .error e := by
  obtain ⟨uuid, huuid⟩ := Option.isSome_iff_exists.mp hid
  obtain ⟨d', hd'⟩ := db.transact_saveAnalysis tenant uuid paise hspan
  simp [hsink, postgresSink, huuid, bind, Except.bind, hd', Except.mapError]

def heard : Transcript := ⟨oneMinute, [{ channel := .near, text := "pay today" }]⟩

def good : Except AnalyseError Analysis → Bool
  | .ok x => (x.inputTokens.isSome && x.outputTokens.isSome) && rangeReads x.ptp.evidenceSpanMs
  | .error _ => true

/-- **Findings are conserved through the review.** -/
theorem findings_conserved (f : Finalizer D) (ctx : CallContext) (db : D) (budget : TenantBudget) :
    f.Conserving (exec (f.finalize ctx) (.start db budget)).2.deeds ∧
    (f.JudgeCounts → ∀ (findings : List Finding) (w : World D),
      ∃ saved w', exec (f.judged ctx findings) w = (.ok saved, w') ∧
        Conserved f.rules.judgeRules f.judge findings saved) := by
  constructor
  · have h : Meets (f.finalize ctx) (World.start db budget) (fun _ w' => f.Conserving w'.deeds)
      fun _ w' => f.Conserving w'.deeds :=
      (Finalizer.meets_finalize ctx (f.early_start db budget)).imp (fun _ _ h => h.1.1)
        fun _ _ h => h.1
    unfold Meets at h
    revert h
    obtain ⟨_ | _, w'⟩ := exec (f.finalize ctx) (.start db budget) <;> exact fun h => h
  · intro hcounts findings w
    have h : Meets (f.judged ctx findings) w
        (fun saved _ => Conserved f.rules.judgeRules f.judge findings saved) fun _ _ => False :=
      (Finalizer.meets_judged findings).imp (fun _ _ h => h.1) fun _ _ h => h.2 hcounts
    exact h.returns

def acquits : ComplianceJudge where
  name := "m"
  judge := fun _ => some {
    raw := .obj [("verdict", .str "not_a_violation"), ("rule_id", .str "abusive_language"),
      ("confidence", .num (.int 1)), ("rationale", .str "The agent quoted the borrower.")]
    inputTokens := some 700
    outputTokens := some 60 }

def acquittedDeeds : List Deed :=
  (exec ((floor (promise 4000 9000) (some acquits)).finalize oneMinute) (.start {} noCap)).2.deeds

theorem acquitted_finding_conserved :
    (floor (promise 4000 9000) (some acquits)).Conserving acquittedDeeds ∧
      (acquittedDeeds.any fun x => match x with
        | .savedFindings _ saved => saved.isEmpty
        | _ => false) = true :=
  ⟨(findings_conserved (floor (promise 4000 9000) (some acquits)) oneMinute {} noCap).1,
    by decide +kernel⟩

end Sentinel.Workers
