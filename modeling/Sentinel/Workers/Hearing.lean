import Sentinel.Lib.Sorting
import Sentinel.Workers.Rules

/-!
# What the borrower's speech can do to the agent's findings

Two transcripts of a call that differ on the far channel only are evaluated side by side, and what
is compared is the findings of the rules that are not configured to hear the borrower.
-/

open List Bool Function

namespace Sentinel.Workers

variable (py : PyLibrary)

/-! ## Whose finding it is -/

def beforeIn (a b : Rule × Finding) : Prop := before a.2 b.2

instance : DecidableRel beforeIn := fun a b => inferInstanceAs (Decidable (before a.2 b.2))

theorem before_trans {a b c : Finding} (hab : before a b) (hbc : before b c) : before a c := by
  unfold before at *
  omega

theorem before_total (a b : Finding) : before a b ∨ before b a := by
  unfold before
  omega

instance : IsTrans (Rule × Finding) beforeIn := ⟨fun _ _ _ => before_trans⟩

instance : Std.Total beforeIn := ⟨fun a b => before_total a.2 b.2⟩

def Rule.hearsBorrower (r : Rule) : Bool :=
  r.ruleId.asStr? = some "third_party_disclosure" || r.channel? = some .far

namespace RuleSet

variable (rs : RuleSet) (t : Transcript)

def attributed : Option (List (Rule × Finding)) :=
  (rs.rules.mapM fun r => (rs.findingsOf py t r).map (·.map (Prod.mk r))).map fun findings =>
    findings.flatten.insertionSort beforeIn

def agentFindings : Option (List (Rule × Finding)) :=
  (rs.attributed py t).map (·.filter fun x => !x.1.hearsBorrower)

def contribution (r : Rule) : List (Rule × Finding) :=
  ((rs.findingsOf py t r).getD []).map (Prod.mk r)

theorem attributed_eq_none_iff :
    rs.attributed py t = none ↔ ∃ r ∈ rs.rules, rs.findingsOf py t r = none := by
  simp only [attributed, Option.map_eq_none_iff, mapM_eq_none]

theorem mapM_findingsOf {β : Type} (f : Rule → List Finding → β) (h : rs.attributed py t ≠ none) :
    (rs.rules.mapM fun r => (rs.findingsOf py t r).map (f r)) =
      some (rs.rules.map fun r => f r ((rs.findingsOf py t r).getD [])) := by
  rw [mapM_eq_some, map_map]
  refine map_congr_left fun r hr => ?_
  obtain ⟨fs, hfs⟩ := Option.ne_none_iff_exists'.mp fun hn =>
    h ((rs.attributed_eq_none_iff py t).mpr ⟨r, hr, hn⟩)
  simp [hfs]

theorem attributed_of_ne_none (h : rs.attributed py t ≠ none) :
    rs.attributed py t = some ((rs.rules.flatMap (rs.contribution py t)).insertionSort
      beforeIn) := by
  rw [attributed, mapM_findingsOf py rs t (fun r => List.map (Prod.mk r)) h, flatMap_def]
  rfl

end RuleSet

/-! ## When a rule raises -/

namespace Rule

variable (r : Rule)

theorem handler?_third {h : String × Handler} (hh : r.handler? = some (some h))
    (hthird : h.2 = .thirdPartyDisclosure) : r.ruleId.asStr? = some "third_party_disclosure" := by
  obtain ⟨id, h⟩ := h
  obtain rfl : h = .thirdPartyDisclosure := hthird
  cases hid : r.ruleId with
  | str s =>
    simp only [handler?, hid, Option.some.injEq, Option.map_eq_some_iff, Prod.mk.injEq] at hh
    obtain ⟨h, hlookup, rfl, rfl⟩ := hh
    have hmem : (s, Handler.thirdPartyDisclosure) ∈ handlers := by
      obtain ⟨l₁, l₂, hsplit, -⟩ := lookup_eq_some_iff.mp hlookup
      simp [hsplit]
    have hs : s = "third_party_disclosure" := by simpa [handlers] using hmem
    rw [hs, Json.asStr?]
  | _ => simp [handler?, hid] at hh

def spells (key : String) : Bool := (r.terms? key).any (·.all fun term => term.text?.isSome)

def compiles : Json → Bool
  | .str p =>
    match py.compile p with
    | .raises => false
    | _ => true
  | _ => false

def patternsReadable : Bool := (r.patterns?.bind Json.iterate?).any (·.all (compiles py))

def denied (far : ChannelTranscript) : Bool :=
  (r.terms? "denial_terms").any (·.any fun term =>
    term.text?.any fun text => termHits py far none term.language text ≠ [])

def agencyUnreadable (opening : String) : Bool :=
  (r.terms? "agency_terms").all fun terms =>
    (terms.find? fun term => term.text?.all fun text =>
      let fold := foldFor py term.language text
      fold text <:+: fold opening.toList).any fun term => term.text?.isNone

def readable : Bool :=
  r.spells "terms" && r.patternsReadable py && r.spells "denial_terms" &&
    r.spells "disclosure_terms" && (r.int? py "window_ms" 120000).isSome

end Rule

namespace RuleSet

variable (rs : RuleSet) (t : Transcript)

def breaks (r : Rule) : Handler → Bool
  | .termRule =>
    match r.channel? with
    | none => true
    | some ch => (t.get ch).any fun c =>
      !r.spells "terms" || (c.text ≠ "" && !r.patternsReadable py)
  | .thirdPartyDisclosure =>
    t.near.isSome && t.far.any fun far =>
      !r.spells "denial_terms" || (r.denied py far &&
        ((r.int? py "window_ms" 120000).isNone || !r.spells "disclosure_terms"))
  | .outsideCallHours => (rs.localTime? py t).isNone
  | .missingIdentification =>
    (opening? py r t 30000).all fun o => o.any fun o => r.agencyUnreadable py o.2.2
  | .noPurposeDisclosure =>
    (opening? py r t 60000).all fun o => o.any fun _ => !r.spells "terms"
  | .excessiveInterruption => (r.int? py "threshold" 12).isNone
  | .repeatContact => (r.int? py "threshold" 3).isNone

def breaksOn (r : Rule) : Bool :=
  r.enabled && r.handler?.all fun h => h.any fun h => rs.breaks py t r h.2

end RuleSet

variable {py}

theorem findTerms_eq_none_iff {c : ChannelTranscript} {terms : List Term}
    {window : Option (Int × Int)} :
    findTerms py c terms window = none ↔ ∃ term ∈ terms, term.text? = none := by
  simp only [findTerms, Option.map_eq_none_iff, mapM_eq_none]

section Hits

variable {c : ChannelTranscript} {terms : List Term} {window : Option (Int × Int)} {hits : List Hit}

theorem mem_findTerms_iff (h : findTerms py c terms window = some hits) {hit : Hit} :
    hit ∈ hits ↔ ∃ term ∈ terms, ∃ text, term.text? = some text ∧
      hit ∈ termHits py c window term.language text := by
  obtain ⟨lists, hlists, rfl⟩ := Option.map_eq_some_iff.mp h
  rw [mapM_eq_some] at hlists
  have hlist : ∀ l, l ∈ lists ↔ ∃ term ∈ terms,
      term.text?.map (termHits py c window term.language) = some l := by
    intro l
    rw [← mem_map_of_injective (Option.some_injective _), ← hlists, mem_map]
  simp only [mem_flatten, hlist, Option.map_eq_some_iff]
  constructor
  · rintro ⟨l, ⟨term, hterm, text, htext, rfl⟩, hhit⟩
    exact ⟨term, hterm, text, htext, hhit⟩
  rintro ⟨term, hterm, text, htext, hhit⟩
  exact ⟨_, ⟨term, hterm, text, htext, rfl⟩, hhit⟩

theorem findTerms_eq_nil_iff (h : findTerms py c terms window = some hits) :
    hits = [] ↔ ∀ term ∈ terms, ∀ text, term.text? = some text →
      termHits py c window term.language text = [] := by
  simp only [eq_nil_iff_forall_not_mem, mem_findTerms_iff h]
  constructor
  · intro hnone term hterm text htext hit hhit
    exact hnone hit ⟨term, hterm, text, htext, hhit⟩
  rintro hnone hit ⟨term, hterm, text, htext, hhit⟩
  exact hnone term hterm text htext hit hhit

end Hits

theorem saidAny_eq_none_iff {opening : List Char} {terms : List Term} :
    saidAny py opening terms = none ↔
      (terms.find? fun term => term.text?.all fun text => let fold := foldFor py term.language text
        fold text <:+: fold opening).any (fun term => term.text?.isNone) = true := by
  induction terms with
  | nil => simp [saidAny]
  | cons term terms ih =>
    cases htext : term.text? with
    | none => simp [saidAny, htext]
    | some text =>
      by_cases hsaid : foldFor py term.language text text <:+: foldFor py term.language text opening
      · simp [saidAny, htext, hsaid]
      · simp [saidAny, htext, hsaid, ih]

namespace Rule

variable {r : Rule}

section Found

variable {key : String} {c : ChannelTranscript} {window : Option (Int × Int)}

theorem found_eq_none_iff :
    (r.terms? key).bind (findTerms py c · window) = none ↔ r.spells key = false := by
  cases h : r.terms? key with
  | none => simp [spells, h]
  | some terms => simp [spells, h, findTerms_eq_none_iff]

theorem spells_of_found {hits : List Hit}
    (h : (r.terms? key).bind (findTerms py c · window) = some hits) : r.spells key = true := by
  rw [← not_eq_false, ← found_eq_none_iff, h]
  exact Option.some_ne_none hits

end Found

theorem patternHits_eq_none_iff {c : ChannelTranscript} {pattern : Json} :
    patternHits py c pattern = none ↔ compiles py pattern = false := by
  cases pattern with
  | str p => cases h : py.compile p <;> simp [patternHits, compiles, h]
  | _ => simp [patternHits, compiles]

theorem findPatterns_eq_none_iff {c : ChannelTranscript} {patterns : Json}
    (h : r.patterns? = some patterns) :
    findPatterns py c patterns = none ↔ c.text ≠ "" ∧ r.patternsReadable py = false := by
  by_cases htext : c.text = ""
  · simp [findPatterns, htext]
  cases hitems : patterns.iterate? with
  | none => simp [findPatterns, htext, patternsReadable, h, hitems]
  | some items =>
    have hloop : items.mapM (patternHits py c) = none ↔ ∃ p ∈ items, compiles py p = false := by
      simp only [mapM_eq_none, patternHits_eq_none_iff]
    cases hm : items.mapM (patternHits py c) with
    | none =>
      have hbad := hloop.mp hm
      simpa [findPatterns, htext, patternsReadable, h, hitems, hm] using hbad
    | some hits =>
      have hgood : ¬ ∃ p ∈ items, compiles py p = false := fun hbad => by
        rw [hloop.mpr hbad] at hm
        cases hm
      simpa [findPatterns, htext, patternsReadable, h, hitems, hm] using hgood

theorem denied_eq_false_iff {far : ChannelTranscript} {denials : List Hit}
    (h : (r.terms? "denial_terms").bind (findTerms py far · none) = some denials) :
    r.denied py far = false ↔ denials = [] := by
  obtain ⟨terms, hterms, hfound⟩ := Option.bind_eq_some_iff.mp h
  rw [findTerms_eq_nil_iff hfound]
  simp only [denied, hterms, Option.any_some, any_eq_false, not_eq_true]
  refine forall₂_congr fun term _ => ?_
  cases term.text? <;> simp

end Rule

namespace RuleSet

variable {rs : RuleSet} {r : Rule} {id : String} {t : Transcript}

theorem termRule_eq_none_iff : termRule py r id t = none ↔ rs.breaks py t r .termRule = true := by
  cases hch : r.channel? with
  | none => simp [termRule, Rule.channelFor, breaks, hch]
  | some ch =>
    cases hc : t.get ch with
    | none => simp [termRule, Rule.channelFor, breaks, hch, hc]
    | some c =>
      obtain ⟨patterns, hpatterns⟩ : ∃ patterns, r.patterns? = some patterns := by
        cases hp : r.params <;> simp [Rule.channel?, Rule.patterns?, Json.getField?, hp] at hch ⊢
      simp only [termRule, Rule.channelFor, breaks, hch, hc, Option.map_some, Option.any_some,
        hpatterns, Option.bind_eq_bind, Option.bind_some, ← Option.bind_assoc]
      cases hhits : (r.terms? "terms").bind (findTerms py c · none) with
      | none => simp [Rule.found_eq_none_iff.mp hhits]
      | some hits =>
        have hs := Rule.spells_of_found hhits
        cases hmore : findPatterns py c patterns with
        | none => simpa [hs] using (Rule.findPatterns_eq_none_iff hpatterns).mp hmore
        | some more =>
          have hr : ¬ (c.text ≠ "" ∧ r.patternsReadable py = false) := by
            rw [← Rule.findPatterns_eq_none_iff hpatterns, hmore]
            exact Option.some_ne_none more
          simp only [Option.bind_some]
          split <;> simpa [hs] using hr

theorem thirdPartyDisclosure_eq_none_iff :
    thirdPartyDisclosure py r id t = none ↔ rs.breaks py t r .thirdPartyDisclosure = true := by
  cases hnear : t.near with
  | none => simp [thirdPartyDisclosure, breaks, hnear]
  | some near =>
    cases hfar : t.far with
    | none => simp [thirdPartyDisclosure, breaks, hnear, hfar]
    | some far =>
      simp only [thirdPartyDisclosure, breaks, hnear, hfar, Option.any_some, Option.isSome_some,
        Bool.true_and, Option.bind_eq_bind, ← Option.bind_assoc]
      cases hdenials : (r.terms? "denial_terms").bind (findTerms py far · none) with
      | none => simp [Rule.found_eq_none_iff.mp hdenials]
      | some denials =>
        have hs := Rule.spells_of_found hdenials
        have hdenied := Rule.denied_eq_false_iff hdenials
        cases hmin : (denials.map (·.startMs)).min? with
        | none =>
          have hnil : denials = [] := by simpa using hmin
          simp [hs, hdenied.mpr hnil, hmin]
        | some firstDenial =>
          have hd : r.denied py far = true := by
            rw [← not_eq_false, hdenied]
            rintro rfl
            cases hmin
          simp only [Option.bind_some, hmin, hs, hd, Bool.not_true, Bool.false_or, Bool.true_and]
          cases hwindow : r.int? py "window_ms" 120000 with
          | none => simp
          | some window =>
            cases hfound : (r.terms? "disclosure_terms").bind (findTerms py near · none) with
            | none => simp [Rule.found_eq_none_iff.mp hfound]
            | some disclosures =>
              simp only [Option.bind_some, Rule.spells_of_found hfound]
              split <;> simp

theorem missingIdentification_eq_none_iff :
    missingIdentification py r id t = none ↔ rs.breaks py t r .missingIdentification = true := by
  cases hopening : opening? py r t 30000 with
  | none => simp [missingIdentification, breaks, hopening]
  | some o =>
    cases o with
    | none => simp [missingIdentification, breaks, hopening]
    | some o =>
      simp only [missingIdentification, breaks, hopening, Option.all_some, Option.any_some,
        Rule.agencyUnreadable, Option.bind_eq_bind, Option.bind_some]
      cases hterms : r.terms? "agency_terms" with
      | none => simp
      | some terms =>
        simp only [Option.bind_some, Option.all_some, ← saidAny_eq_none_iff]
        cases hsaid : saidAny py o.2.2.toList terms with
        | none => simp
        | some said =>
          simp only [Option.bind_some]
          split <;> simp

theorem noPurposeDisclosure_eq_none_iff :
    noPurposeDisclosure py r id t = none ↔ rs.breaks py t r .noPurposeDisclosure = true := by
  cases hopening : opening? py r t 60000 with
  | none => simp [noPurposeDisclosure, breaks, hopening]
  | some o =>
    cases o with
    | none => simp [noPurposeDisclosure, breaks, hopening]
    | some o =>
      simp only [noPurposeDisclosure, breaks, hopening, Option.all_some, Option.any_some,
        Option.bind_eq_bind, Option.bind_some, ← Option.bind_assoc]
      cases hfound : (r.terms? "terms").bind (findTerms py o.1 · (some (0, o.2.1))) with
      | none => simp [Rule.found_eq_none_iff.mp hfound]
      | some said =>
        simp only [Option.bind_some, Rule.spells_of_found hfound]
        split <;> simp

theorem outsideCallHours_eq_none_iff :
    rs.outsideCallHours py r id t = none ↔ rs.breaks py t r .outsideCallHours = true := by
  cases hnow : rs.localTime? py t with
  | none => simp [outsideCallHours, breaks, hnow]
  | some now =>
    rw [outsideCallHours, hnow, Option.bind_eq_bind, Option.bind_some, breaks, hnow]
    by_cases hin : rs.callHoursStart.time ≤ now.time ∧ now.time < rs.callHoursEnd.time
    · rw [if_pos hin]
      simp
    rw [if_neg hin]
    simp

theorem excessiveInterruption_eq_none_iff :
    excessiveInterruption py r id t = none ↔ rs.breaks py t r .excessiveInterruption = true := by
  cases hthreshold : r.int? py "threshold" 12 with
  | none => simp [excessiveInterruption, breaks, hthreshold]
  | some threshold =>
    simp only [excessiveInterruption, breaks, hthreshold, Option.bind_eq_bind, Option.bind_some]
    split
    · simp
    · split <;> simp

theorem repeatContact_eq_none_iff :
    repeatContact py r id t = none ↔ rs.breaks py t r .repeatContact = true := by
  cases hthreshold : r.int? py "threshold" 3 with
  | none => simp [repeatContact, breaks, hthreshold]
  | some threshold =>
    simp only [repeatContact, breaks, hthreshold, Option.bind_eq_bind, Option.bind_some]
    split <;> simp

theorem handle_eq_none_iff (h : Handler) :
    rs.handle py t r id h = none ↔ rs.breaks py t r h = true := by
  cases h with
  | termRule => exact termRule_eq_none_iff
  | thirdPartyDisclosure => exact thirdPartyDisclosure_eq_none_iff
  | outsideCallHours => exact outsideCallHours_eq_none_iff
  | missingIdentification => exact missingIdentification_eq_none_iff
  | noPurposeDisclosure => exact noPurposeDisclosure_eq_none_iff
  | excessiveInterruption => exact excessiveInterruption_eq_none_iff
  | repeatContact => exact repeatContact_eq_none_iff

theorem findingsOf_eq_none_iff : rs.findingsOf py t r = none ↔ rs.breaksOn py t r = true := by
  cases henabled : r.enabled with
  | false => simp [findingsOf, breaksOn, henabled]
  | true =>
    cases hh : r.handler? with
    | none => simp [findingsOf, breaksOn, henabled, hh]
    | some h =>
      cases h with
      | none => simp [findingsOf, breaksOn, henabled, hh]
      | some h => simpa [findingsOf, breaksOn, henabled, hh] using handle_eq_none_iff h.2

variable (py rs t) in
def Breaks : Prop := ∃ r ∈ rs.rules, rs.breaksOn py t r = true

instance : Decidable (rs.Breaks py t) := inferInstanceAs (Decidable (∃ r ∈ rs.rules, _))

variable (py rs t) in
def agentContribution (r : Rule) : List (Rule × Finding) :=
  if r.hearsBorrower then [] else rs.contribution py t r

theorem filter_contribution : (rs.contribution py t r).filter (fun x => !x.1.hearsBorrower) =
      rs.agentContribution py t r := by
  cases hr : r.hearsBorrower <;> simp [contribution, agentContribution, hr, filter_map, comp_def]

theorem agentFindings_eq_none_iff : rs.agentFindings py t = none ↔ rs.Breaks py t := by
  rw [agentFindings, Option.map_eq_none_iff, attributed_eq_none_iff, Breaks]
  simp only [findingsOf_eq_none_iff]

theorem agentFindings_of_ne_none (h : rs.agentFindings py t ≠ none) : rs.agentFindings py t =
      some ((rs.rules.flatMap (rs.agentContribution py t)).insertionSort beforeIn) := by
  have ha : rs.attributed py t ≠ none := fun hn => h (by rw [agentFindings, hn, Option.map_none])
  rw [agentFindings, attributed_of_ne_none py rs t ha, Option.map_some,
    filter_insertionSort, filter_flatMap]
  simp only [filter_contribution]

theorem breaks_of_readable {h : Handler} (hr : r.readable py = true)
    (hh : h = .thirdPartyDisclosure ∨ (h = .termRule ∧ r.channel? = some .far)) :
    rs.breaks py t r h = false := by
  simp only [Rule.readable, and_eq_true] at hr
  obtain ⟨⟨⟨⟨hterms, hpatterns⟩, hdenial⟩, hdisclosure⟩, hwindow⟩ := hr
  have hw : (r.int? py "window_ms" 120000).isNone = false := by simpa using hwindow
  rcases hh with rfl | ⟨rfl, hch⟩
  · simp [breaks, hdenial, hdisclosure, hw]
  · simp [breaks, hch, hterms, hpatterns]

/-! ## Two transcripts that differ in what the borrower said -/

section TwoTranscripts

variable {t₁ t₂ : Transcript} (hnear : t₁.near = t₂.near) (hctx : t₁.context = t₂.context)
include hnear hctx

theorem opening?_congr (default : Int) : opening? py r t₁ default = opening? py r t₂ default := by
  simp only [opening?, hnear, hctx]

theorem handle_congr {h : Handler} (hthird : h ≠ .thirdPartyDisclosure)
    (hfar : h = .termRule → r.channel? ≠ some .far) :
    rs.handle py t₁ r id h = rs.handle py t₂ r id h := by
  cases h with
  | termRule =>
    have hch : r.channelFor t₁ = r.channelFor t₂ := by
      cases hch : r.channel? with
      | none => simp [Rule.channelFor, hch]
      | some ch =>
        cases ch with
        | far => exact absurd hch (hfar rfl)
        | near => simpa [Rule.channelFor, hch, Transcript.near] using hnear
    simp only [handle, termRule, hch]
  | thirdPartyDisclosure => exact absurd rfl hthird
  | outsideCallHours => simp only [handle, outsideCallHours, localTime?, hctx]
  | missingIdentification =>
    simp only [handle, missingIdentification, opening?_congr hnear hctx]
  | noPurposeDisclosure => simp only [handle, noPurposeDisclosure, opening?_congr hnear hctx]
  | excessiveInterruption => simp only [handle, excessiveInterruption, hctx]
  | repeatContact => simp only [handle, repeatContact, hctx]

theorem findingsOf_congr (hr : r.hearsBorrower = false) :
    rs.findingsOf py t₁ r = rs.findingsOf py t₂ r := by
  obtain ⟨hid, hfar⟩ : ¬ r.ruleId.asStr? = some "third_party_disclosure" ∧
      ¬ r.channel? = some .far := by simpa [Rule.hearsBorrower] using hr
  simp only [findingsOf]
  cases hh : r.handler? with
  | none => rfl
  | some h =>
    cases h with
    | none => rfl
    | some h =>
      have hthird : h.2 ≠ .thirdPartyDisclosure := fun he => hid (r.handler?_third hh he)
      simp only [handle_congr hnear hctx hthird fun _ => hfar, Option.bind_eq_bind,
        Option.bind_some]

theorem agentContribution_congr : rs.agentContribution py t₁ = rs.agentContribution py t₂ := by
  funext r
  cases hr : r.hearsBorrower with
  | true => simp [agentContribution, hr]
  | false => simp [agentContribution, hr, contribution, findingsOf_congr hnear hctx hr]

theorem agentFindings_eq_of_breaks_iff (h : rs.Breaks py t₁ ↔ rs.Breaks py t₂) :
    rs.agentFindings py t₁ = rs.agentFindings py t₂ := by
  simp only [← agentFindings_eq_none_iff] at h
  by_cases h₁ : rs.agentFindings py t₁ = none
  · rw [h₁, h.mp h₁]
  have h₂ : rs.agentFindings py t₂ ≠ none := fun hn => h₁ (h.mpr hn)
  rw [agentFindings_of_ne_none h₁, agentFindings_of_ne_none h₂, agentContribution_congr hnear hctx]

theorem breaksOn_congr (hr : r.hearsBorrower = true → r.readable py = true) :
    rs.breaksOn py t₁ r = rs.breaksOn py t₂ r := by
  simp only [breaksOn]
  cases hh : r.handler? with
  | none => rfl
  | some h =>
    cases h with
    | none => rfl
    | some h =>
      simp only [Option.all_some, Option.any_some]
      by_cases hreads : h.2 = .thirdPartyDisclosure ∨ (h.2 = .termRule ∧ r.channel? = some .far)
      · have hhears : r.hearsBorrower = true := by
          rcases hreads with hthird | ⟨-, hfar⟩
          · simp [Rule.hearsBorrower, r.handler?_third hh hthird]
          · simp [Rule.hearsBorrower, hfar]
        rw [breaks_of_readable (hr hhears) hreads, breaks_of_readable (hr hhears) hreads]
      obtain ⟨hthird, hfar⟩ := not_or.mp hreads
      have hsame : rs.handle py t₁ r h.1 h.2 = rs.handle py t₂ r h.1 h.2 :=
        handle_congr hnear hctx hthird fun hterm hf => hfar ⟨hterm, hf⟩
      have hbreaks : rs.breaks py t₁ r h.2 = true ↔ rs.breaks py t₂ r h.2 = true := by
        rw [← handle_eq_none_iff, ← handle_eq_none_iff, hsame]
      rw [Bool.eq_iff_iff.mpr hbreaks]

theorem agentFindings_eq_of_readable
    (hrs : ∀ r ∈ rs.rules, r.hearsBorrower = true → r.readable py = true) :
    rs.agentFindings py t₁ = rs.agentFindings py t₂ := by
  refine agentFindings_eq_of_breaks_iff hnear hctx ?_
  refine exists_congr fun r => and_congr_right fun hr => ?_
  rw [breaksOn_congr hnear hctx (hrs r hr)]

/-- **Borrower speech and agent findings.** -/
theorem agentFindings_eq_iff :
    rs.agentFindings py t₁ = rs.agentFindings py t₂ ↔
      (rs.Breaks py t₁ ↔ rs.Breaks py t₂) := by
  refine ⟨fun h => ?_, agentFindings_eq_of_breaks_iff hnear hctx⟩
  rw [← agentFindings_eq_none_iff, ← agentFindings_eq_none_iff, h]

end TwoTranscripts

/-! ## Two calls -/

def plainLibrary : PyLibrary where
  nfkc text := text
  casefold := List.map Char.toLower
  category c := if c.isAlpha then .letter else if c.isDigit then .number else .other
  isalpha := Char.isAlpha
  isLatin := Char.isAlpha
  compile _ := .raises
  introduces _ := false
  int _ := none
  float v := v.asNum?.map JsonNum.toFloat
  astimezone _ _ := none

def callWith (said : String) : Transcript where
  context := {
    callId := "C", tenantId := "T", userUid := "U", startedAt := 0, durationMs := 60000
    interruptions := some 5 }
  channels := [{ channel := .near, text := "your loan" }, { channel := .far, text := said }]

def ruleOf (id : String) (params : List (String × Json)) : Json :=
  .obj [("rule_id", .str id), ("enabled", .bool true), ("severity", .str "high"),
    ("params", .obj params)]

def interruptionsAnd (id : String) (params : List (String × Json)) : List (String × Json) :=
  [("rules", .arr [ruleOf "excessive_interruption" [("threshold", .num (.int 3))],
    ruleOf id params])]

def disclosureParams (window : Json) : List (String × Json) :=
  [("denial_terms", .obj [("en", .arr [.str "wrong number"])]),
    ("disclosure_terms", .obj [("en", .arr [.str "loan"])]), ("window_ms", window)]

/-- The borrower denies, and the agent's interruptions are found all the same. -/
theorem agentFindings_eq_of_denial : ∃ rs,
    loadRuleSet plainLibrary (interruptionsAnd "third_party_disclosure"
      (disclosureParams (.num (.int 1000)))) 1 = some rs ∧
    rs.agentFindings plainLibrary (callWith "hello") =
      rs.agentFindings plainLibrary (callWith "wrong number") :=
  ⟨_, rfl, (agentFindings_eq_iff rfl rfl).mpr (by decide +kernel)⟩

/-- **A word of the borrower makes a finding about the agent disappear.** -/
theorem agentFindings_ne_of_speech :
    (∃ rs, loadRuleSet plainLibrary (interruptionsAnd "abusive_language" [("channel", .str "far"),
        ("patterns", .arr [.str "x\x7b4294967295\x7d"])]) 1 = some rs ∧
      (rs.evaluate plainLibrary (callWith "")).map (·.map (·.ruleId)) =
        some ["excessive_interruption"] ∧
      rs.evaluate plainLibrary (callWith "hello") = none ∧
      rs.agentFindings plainLibrary (callWith "") ≠
        rs.agentFindings plainLibrary (callWith "hello")) ∧
    ∃ rs, loadRuleSet plainLibrary (interruptionsAnd "third_party_disclosure"
        (disclosureParams (.str "soon"))) 1 = some rs ∧
      rs.agentFindings plainLibrary (callWith "hello") ≠
        rs.agentFindings plainLibrary (callWith "wrong number") := by
  refine ⟨⟨_, rfl, by decide +kernel, by decide +kernel, ?_⟩, ⟨_, rfl, ?_⟩⟩
  · intro h
    exact absurd (congrArg Option.isSome h) (by decide +kernel)
  · intro h
    exact absurd (congrArg Option.isSome h) (by decide +kernel)

end RuleSet

end Sentinel.Workers
