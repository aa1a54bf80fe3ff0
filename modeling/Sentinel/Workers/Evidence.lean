import Sentinel.Workers.Containment

/-!
# From many hits to one finding

The term rule keeps the hit that starts first and shows what was said around it: its span is that of
a run of consecutive words which fold to the tokens of a term, and the run stands in the evidence
(`termRule_traceable`).
-/

open List Option

namespace Sentinel.Workers

variable (py : PyLibrary)

/-! ## Words in time -/

structure InOrder (words : List Word) : Prop where
  nonneg : ∀ w ∈ words, 0 ≤ w.startMs
  lasts : ∀ w ∈ words, w.startMs < w.endMs
  starts : words.Pairwise fun v w => v.startMs ≤ w.startMs
  ends : words.Pairwise fun v w => v.endMs ≤ w.endMs

variable {spoken : List Word}

theorem InOrder.of_infix {words : List Word} (h : InOrder words) (hrun : spoken <:+: words) :
    InOrder spoken where
  nonneg w hw := h.nonneg w (hrun.subset hw)
  lasts w hw := h.lasts w (hrun.subset hw)
  starts := h.starts.sublist hrun.sublist
  ends := h.ends.sublist hrun.sublist

variable {first last : Word} {c : ChannelTranscript}

theorem InOrder.between (h : InOrder spoken)
    (hfirst : spoken.head? = some first) (hlast : spoken.getLast? = some last) :
    ∀ w ∈ spoken, first.startMs ≤ w.startMs ∧ w.endMs ≤ last.endMs := by
  intro w hw
  have hne := ne_nil_of_mem hw
  rw [head?_eq_some_head hne, some.injEq] at hfirst
  rw [getLast?_eq_some_getLast hne, some.injEq] at hlast
  subst hfirst hlast
  exact ⟨h.starts.rel_head_of_rel_head_head hw le_rfl,
    h.ends.rel_getLast_of_rel_getLast_getLast hw le_rfl⟩

/-! ## The term rule -/

def Utters (c : ChannelTranscript) (terms : List Term) (spoken : List Word) : Prop :=
  spoken <:+: c.words ∧ ∃ term ∈ terms, ∃ text, term.text? = some text ∧
    spoken.map (fun w => foldFor py term.language text w.text.toList) =
      tokens (foldFor py term.language text text)

structure Traced (c : ChannelTranscript) (hits : List Hit) (f : Finding) (spoken : List Word) :
    Prop where
  starts : ∃ first, spoken.head? = some first ∧ f.spanStartMs = some first.startMs
  ends : ∃ last, spoken.getLast? = some last ∧ f.spanEndMs = some last.endMs
  earliest : ∀ hit ∈ hits, ∃ start, f.spanStartMs = some start ∧ start ≤ hit.startMs
  shown : ∃ context, context.Sublist c.words ∧ spoken <:+: context ∧
    f.evidenceText = some (" ".intercalate (context.map (·.text)))

variable {py}

theorem exists_utters (hwords : c.words ≠ []) {terms : List Term}
    {hits : List Hit} (h : findTerms py c terms none = some hits) {hit : Hit} (hhit : hit ∈ hits) :
    ∃ spoken first last, Utters py c terms spoken ∧ spoken.head? = some first ∧
      spoken.getLast? = some last ∧
      hit = ⟨first.startMs, last.endMs, " ".intercalate (spoken.map (·.text))⟩ := by
  obtain ⟨term, hterm, text, htext, hhit⟩ := (mem_findTerms_iff h).mp hhit
  unfold termHits at hhit
  by_cases hneedle : foldFor py term.language text text = []
  · rw [if_pos hneedle] at hhit
    cases hhit
  rw [if_neg hneedle, if_neg hwords,
    (foldFor_tokenised py term.language text text).splitBlank_eq hneedle] at hhit
  obtain ⟨before, spoken, after, first, last, hsplit, hfolds, hfirst, hlast, heq⟩ :=
    mem_occurrences_iff.mp hhit
  exact ⟨spoken, first, last, ⟨⟨before, after, hsplit.symm⟩, term, hterm, text, htext, hfolds⟩,
    hfirst, hlast, heq⟩

theorem exists_context (hwords : c.words ≠ []) (horder : InOrder c.words)
    (hrun : spoken <:+: c.words) (hfirst : spoken.head? = some first)
    (hlast : spoken.getLast? = some last) :
    ∃ context, context.Sublist c.words ∧ spoken <:+: context ∧
      c.spanText (max 0 (first.startMs - 3000)) (last.endMs + 3000) =
        " ".intercalate (context.map (·.text)) := by
  unfold ChannelTranscript.spanText
  rw [if_neg hwords]
  refine ⟨_, filter_sublist, ?_, rfl⟩
  have hbetween := (horder.of_infix hrun).between hfirst hlast
  obtain ⟨before, after, hsplit⟩ := hrun
  -- Every word of the run overlaps the window, so the filter keeps the run as it is.
  have hkept : ∀ w ∈ spoken, decide (w.startMs < last.endMs + 3000 ∧
      max 0 (first.startMs - 3000) < w.endMs) = true := by
    intro w hw
    have hmem : w ∈ c.words := by
      rw [← hsplit]
      exact mem_append_left _ (mem_append_right _ hw)
    have hnonneg := horder.nonneg w hmem
    have hlasts := horder.lasts w hmem
    obtain ⟨hafter, hbefore⟩ := hbetween w hw
    refine decide_eq_true ⟨by omega, by omega⟩
  rw [← hsplit, filter_append, filter_append, filter_eq_self.mpr hkept]
  exact ⟨_, _, rfl⟩

namespace RuleSet

variable {r : Rule} {id : String} {t : Transcript}

theorem mem_termRule {c : ChannelTranscript} (hchannel : r.channelFor t = some (some c))
    (hpatterns : r.patterns? = some (.arr [])) {found : List Finding}
    (hfound : termRule py r id t = some found) {f : Finding} (hf : f ∈ found) :
    ∃ terms hits first, r.terms? "terms" = some terms ∧ findTerms py c terms none = some hits ∧
      first ∈ hits ∧ (∀ hit ∈ hits, first.startMs ≤ hit.startMs) ∧
      f.spanStartMs = some first.startMs ∧ f.spanEndMs = some first.endMs ∧
      ∃ context, context = c.spanText (max 0 (first.startMs - 3000)) (first.endMs + 3000) ∧
        f.evidenceText = some (if context = "" then first.text else context) := by
  have hmore : findPatterns py c (.arr []) = some [] := by
    unfold findPatterns
    split <;> rfl
  simp only [termRule, hchannel, hpatterns, hmore, bind_eq_bind, bind_some,
    append_nil, bind_eq_some_iff] at hfound
  obtain ⟨terms, hterms, hits, hhits, hfound⟩ := hfound
  have hsorted := pairwise_insertionSort (fun a b : Hit => a.startMs ≤ b.startMs) hits
  have hperm := perm_insertionSort (fun a b : Hit => a.startMs ≤ b.startMs) hits
  generalize insertionSort (fun a b : Hit => a.startMs ≤ b.startMs) hits = sorted
    at hfound hsorted hperm
  cases sorted with
  | nil =>
    cases hfound
    cases hf
  | cons first rest =>
    cases hfound
    cases mem_singleton.mp hf
    refine ⟨terms, hits, first, hterms, hhits, hperm.subset mem_cons_self, ?_, rfl, rfl, _,
      rfl, rfl⟩
    intro hit hhit
    exact hsorted.rel_head_of_rel_head_head (hperm.symm.subset hhit) le_rfl

/-- **A term finding can be traced to the words it came from.** -/
theorem termRule_traceable {c : ChannelTranscript} (hchannel : r.channelFor t = some (some c))
    (hpatterns : r.patterns? = some (.arr [])) (hwords : c.words ≠ []) (horder : InOrder c.words)
    {found : List Finding} (hfound : termRule py r id t = some found) {f : Finding}
    (hf : f ∈ found) :
    ∃ terms hits spoken, r.terms? "terms" = some terms ∧ findTerms py c terms none = some hits ∧
      Utters py c terms spoken ∧ Traced c hits f spoken := by
  obtain ⟨terms, hits, hit, hterms, hhits, hhit, hearliest, hstart, hend, context, rfl, hshown⟩ :=
    mem_termRule hchannel hpatterns hfound hf
  obtain ⟨spoken, first, last, hutters, hfirst, hlast, rfl⟩ := exists_utters hwords hhits hhit
  refine ⟨terms, hits, spoken, hterms, hhits, hutters, ⟨first, hfirst, hstart⟩, ⟨last, hlast, hend⟩,
    fun other hother => ⟨_, hstart, hearliest other hother⟩, ?_⟩
  obtain ⟨context, hsub, hrun, htext⟩ := exists_context hwords horder hutters.1 hfirst hlast
  rw [htext] at hshown
  -- An empty context is replaced by the words of the hit.
  split at hshown
  · exact ⟨spoken, hutters.1.sublist, infix_rfl, hshown⟩
  · exact ⟨context, hsub, hrun, hshown⟩

def onePhrase : Rule where
  ruleId := .str "abusive_language"
  enabled := true
  severity := .high
  params := .obj [("terms", .obj [("en", .arr [.str "wrong number"])]), ("channel", .str "far")]

def twoDenials (said : Int) : Transcript where
  context := {
    callId := "C", tenantId := "T", userUid := "U", startedAt := 0, durationMs := 300000 }
  channels := [
    { channel := .near, text := "your loan", words := [⟨"your", said - 500, said, none⟩,
        ⟨"loan", said, said + 500, none⟩] },
    { channel := .far, text := "Wrong number no wrong number", words := [⟨"Wrong", 0, 400, none⟩,
        ⟨"number", 400, 800, none⟩, ⟨"no", 199000, 200000, none⟩,
        ⟨"wrong", 200000, 200400, none⟩, ⟨"number", 200400, 200800, none⟩] }]

def firstDenial : Finding where
  ruleId := "abusive_language"
  severity := .high
  tier := 1
  spanStartMs := some 0
  spanEndMs := some 800
  evidenceText := some "Wrong number"
  rationale := some "2 matching phrase(s) on the borrower channel"

theorem firstDenial_traced : ∃ far, (twoDenials 0).far = some far ∧
    termRule plainLibrary onePhrase "abusive_language" (twoDenials 0) = some [firstDenial] ∧
    ∃ terms hits spoken, onePhrase.terms? "terms" = some terms ∧
      findTerms plainLibrary far terms none = some hits ∧
      Utters plainLibrary far terms spoken ∧ Traced far hits firstDenial spoken := by
  have hfound : termRule plainLibrary onePhrase "abusive_language" (twoDenials 0) =
      some [firstDenial] := by decide +kernel
  exact ⟨_, rfl, hfound, termRule_traceable rfl rfl (by decide)
    ⟨by decide, by decide, by decide, by decide⟩ hfound mem_cons_self⟩

/-! ## The disclosure rule -/

def discloses (py : PyLibrary) (r : Rule) (id : String) (t : Transcript) : Bool :=
  (thirdPartyDisclosure py r id t).any fun found => !found.isEmpty

def Follows (window : Int) (denial disclosure : Hit) : Prop :=
  denial.startMs ≤ disclosure.startMs ∧ disclosure.startMs ≤ denial.startMs + window

instance (window : Int) (denial disclosure : Hit) : Decidable (Follows window denial disclosure) :=
  inferInstanceAs (Decidable (_ ∧ _))

section Disclosure

variable {near far : ChannelTranscript} {denials disclosures : List Hit} {window : Int}

theorem discloses_iff (hnear : t.near = some near) (hfar : t.far = some far)
    (hdenials : (r.terms? "denial_terms").bind (findTerms py far · none) = some denials)
    (hdisclosures : (r.terms? "disclosure_terms").bind (findTerms py near · none) =
      some disclosures) (hwindow : r.int? py "window_ms" 120000 = some window) :
    discloses py r id t = true ↔ ∃ d ∈ denials, (∀ d' ∈ denials, d.startMs ≤ d'.startMs) ∧
      ∃ h ∈ disclosures, Follows window d h := by
  simp only [discloses, thirdPartyDisclosure, hnear, hfar, bind_eq_bind,
    ← bind_assoc, hdenials, hdisclosures, hwindow, bind_some]
  cases hmin : (denials.map (·.startMs)).min? with
  | none =>
    have hnil : denials = [] := by simpa using hmin
    simp [hnil]
  | some firstDenial =>
    obtain ⟨hmem, hleast⟩ := min?_eq_some_iff.mp hmin
    obtain ⟨d, hd, rfl⟩ := mem_map.mp hmem
    have hleast : ∀ d' ∈ denials, d.startMs ≤ d'.startMs := fun d' hd' =>
      hleast _ (mem_map_of_mem hd')
    dsimp only
    generalize hfilter : filter _ disclosures = late
    have hlate : late ≠ [] ↔ ∃ h ∈ disclosures, Follows window d h := by
      simp [← hfilter, Follows]
    have hfirst : (∃ d₁ ∈ denials, (∀ d' ∈ denials, d₁.startMs ≤ d'.startMs) ∧
        ∃ h ∈ disclosures, Follows window d₁ h) ↔ ∃ h ∈ disclosures, Follows window d h := by
      constructor
      · rintro ⟨d₁, hd₁, hleast₁, h, hh, hfollows⟩
        have heq : d₁.startMs = d.startMs := le_antisymm (hleast₁ d hd) (hleast d₁ hd₁)
        refine ⟨h, hh, ?_⟩
        unfold Follows at hfollows ⊢
        rwa [← heq]
      · exact fun hlate => ⟨d, hd, hleast, hlate⟩
    rw [hfirst, ← hlate, ← List.isSome_minOn?_iff (f := fun h : Hit => h.startMs)]
    cases late.minOn? (·.startMs) <;> rfl

/-- **When the disclosure rule reports what it is for** -/
theorem discloses_follows_iff (hnear : t.near = some near) (hfar : t.far = some far)
    (hdenials : (r.terms? "denial_terms").bind (findTerms py far · none) = some denials)
    (hdisclosures : (r.terms? "disclosure_terms").bind (findTerms py near · none) =
      some disclosures) (hwindow : r.int? py "window_ms" 120000 = some window) :
    (discloses py r id t = true ↔ ∃ d ∈ denials, ∃ h ∈ disclosures, Follows window d h) ↔
      ((∃ d ∈ denials, ∃ h ∈ disclosures, Follows window d h) →
        ∃ d ∈ denials, (∀ d' ∈ denials, d.startMs ≤ d'.startMs) ∧
          ∃ h ∈ disclosures, Follows window d h) := by
  rw [discloses_iff hnear hfar hdenials hdisclosures hwindow]
  refine ⟨Iff.mpr, fun hfirst => ⟨?_, hfirst⟩⟩
  rintro ⟨d, hd, -, h, hh, hfollows⟩
  exact ⟨d, hd, h, hh, hfollows⟩

end Disclosure

def twoMinutes : Rule where
  ruleId := .str "third_party_disclosure"
  enabled := true
  severity := .critical
  judge := true
  params := .obj (disclosureParams (.num (.int 120000)))

def heardDenials : List Hit := [⟨0, 800, "Wrong number"⟩, ⟨200000, 200800, "wrong number"⟩]

/-- The loan is mentioned after the first denial. -/
theorem firstDenial_reported :
    discloses plainLibrary twoMinutes "third_party_disclosure" (twoDenials 10000) = true ↔
      ∃ d ∈ heardDenials, ∃ h ∈ [(⟨10000, 10500, "loan"⟩ : Hit)], Follows 120000 d h :=
  (discloses_follows_iff rfl rfl (by decide +kernel) (by decide +kernel) rfl).mpr
    fun _ => by decide

/-- **The second denial is not listened to.** -/
theorem secondDenial_missed : ∃ near far disclosures,
    (twoDenials 210000).near = some near ∧ (twoDenials 210000).far = some far ∧
      (twoMinutes.terms? "denial_terms").bind (findTerms plainLibrary far · none) =
        some heardDenials ∧
      (twoMinutes.terms? "disclosure_terms").bind (findTerms plainLibrary near · none) =
        some disclosures ∧
      (∃ d ∈ heardDenials, ∃ h ∈ disclosures, Follows 120000 d h) ∧
      thirdPartyDisclosure plainLibrary twoMinutes "third_party_disclosure" (twoDenials 210000) =
        some [] :=
  ⟨_, _, [⟨210000, 210500, "loan"⟩], rfl, rfl, by decide +kernel, by decide +kernel, by decide,
    by decide +kernel⟩

end RuleSet

end Sentinel.Workers
