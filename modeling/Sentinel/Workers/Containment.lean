import Sentinel.Workers.Hearing

/-!
# What it takes for a term to be found

A term should be found just when its tokens occur one after the other among the tokens of what was
said, with or without timings.
-/

open List

namespace Sentinel.Workers

/-! ## Tokens -/

def tokens (text : List Char) : List (List Char) := (splitBlank text).filter (· ≠ [])

def IsToken (tok : List Char) : Prop := tok ≠ [] ∧ ' ' ∉ tok

def AreTokens (toks : List (List Char)) : Prop := ∀ tok ∈ toks, IsToken tok

theorem AreTokens.nil : AreTokens [] := forall_mem_nil _

variable {toks : List (List Char)}

variable {tok : List Char}

theorem AreTokens.cons (htok : IsToken tok) (h : AreTokens toks) : AreTokens (tok :: toks) := by
  intro t ht
  rcases mem_cons.mp ht with rfl | ht
  · exact htok
  · exact h t ht

theorem splitBlank_joinBlank (h : AreTokens toks) (hne : toks ≠ []) :
    splitBlank (joinBlank toks) = toks :=
  splitOn_intercalate ' ' (fun tok htok => (h tok htok).2) hne

theorem joinBlank_cons (hne : toks ≠ []) :
    joinBlank (tok :: toks) = tok ++ ' ' :: joinBlank toks := by
  cases toks with
  | nil => exact absurd rfl hne
  | cons tok' toks => simp [joinBlank, intercalate_cons_cons]

theorem joinBlank_eq_nil_iff (h : AreTokens toks) : joinBlank toks = [] ↔ toks = [] := by
  cases toks with
  | nil => exact ⟨fun _ => rfl, fun _ => rfl⟩
  | cons tok toks =>
    have hne := (h tok mem_cons_self).1
    by_cases hrest : toks = []
    · subst hrest
      simp [joinBlank, intercalate_singleton, hne]
    · simp [joinBlank_cons hrest]

theorem tokens_joinBlank (h : AreTokens toks) : tokens (joinBlank toks) = toks := by
  unfold tokens
  by_cases hne : toks = []
  · subst hne
    rfl
  rw [splitBlank_joinBlank h hne]
  exact filter_eq_self.mpr fun tok htok => by simpa using (h tok htok).1

def Tokenised (text : List Char) : Prop := ∃ toks, AreTokens toks ∧ text = joinBlank toks

namespace Tokenised

variable {text : List Char}

theorem areTokens (h : Tokenised text) : AreTokens (tokens text) := by
  obtain ⟨toks, htoks, rfl⟩ := h
  rwa [tokens_joinBlank htoks]

theorem eq_joinBlank (h : Tokenised text) : text = joinBlank (tokens text) := by
  obtain ⟨toks, htoks, rfl⟩ := h
  rw [tokens_joinBlank htoks]

theorem splitBlank_eq (h : Tokenised text) (hne : text ≠ []) : splitBlank text = tokens text := by
  obtain ⟨toks, htoks, rfl⟩ := h
  rw [tokens_joinBlank htoks]
  exact splitBlank_joinBlank htoks fun hnil => hne (by rw [hnil]; rfl)

theorem tokens_eq_nil_iff (h : Tokenised text) : tokens text = [] ↔ text = [] := by
  obtain ⟨toks, htoks, rfl⟩ := h
  rw [tokens_joinBlank htoks, joinBlank_eq_nil_iff htoks]

theorem tokens_eq_singleton_iff (h : Tokenised text) {tok : List Char} (htok : IsToken tok) :
    tokens text = [tok] ↔ text = tok := by
  have hone : AreTokens [tok] := .cons htok .nil
  have hjoin : joinBlank [tok] = tok := intercalate_singleton
  constructor
  · intro htokens
    rw [h.eq_joinBlank, htokens, hjoin]
  rintro rfl
  have htokens := tokens_joinBlank hone
  rwa [hjoin] at htokens

theorem map {f : List Char → List Char} (hf : ∀ tok, IsToken tok → IsToken (f tok))
    (h : Tokenised text) (hnil : f [] = []) : Tokenised (joinBlank ((splitBlank text).map f)) := by
  by_cases hne : text = []
  · subst hne
    exact ⟨[], .nil, by simp [splitBlank, hnil, joinBlank]⟩
  rw [h.splitBlank_eq hne]
  refine ⟨(tokens text).map f, fun tok htok => ?_, rfl⟩
  obtain ⟨t, ht, rfl⟩ := mem_map.mp htok
  exact hf t (h.areTokens t ht)

end Tokenised

/-! ## Folds put out tokens -/

def NotBothBlank (a b : Char) : Prop := a = ' ' → b ≠ ' '

theorem tokenised_of_chain : ∀ text : List Char, text.IsChain NotBothBlank →
    (∀ c ∈ text.head?, c ≠ ' ') → (∀ c ∈ text.getLast?, c ≠ ' ') → Tokenised text
  | [], _, _, _ => ⟨[], .nil, rfl⟩
  | [c], _, hhead, _ => by
    have hc : c ≠ ' ' := hhead c rfl
    have htok : IsToken [c] := ⟨by simp, by simpa using hc.symm⟩
    exact ⟨[[c]], .cons htok .nil, intercalate_singleton.symm⟩
  | c :: d :: cs, hchain, hhead, hlast => by
    have hc : c ≠ ' ' := hhead c rfl
    rw [isChain_cons_cons] at hchain
    by_cases hd : d = ' '
    · -- A token of one letter, and the rest after the blank.
      subst hd
      have hrest := isChain_cons.mp hchain.2
      have hne : cs ≠ [] := by
        rintro rfl
        exact hlast ' ' rfl rfl
      obtain ⟨toks, htoks, rfl⟩ := tokenised_of_chain cs hrest.2 (fun e he => hrest.1 e he rfl)
        (fun e he => hlast e (by rwa [getLast?_cons_cons, getLast?_cons_of_ne_nil hne]))
      have htoksne : toks ≠ [] := fun hnil => hne (by rw [hnil]; rfl)
      refine ⟨[c] :: toks, .cons ⟨by simp, by simpa using hc.symm⟩ htoks, ?_⟩
      rw [joinBlank_cons htoksne]
      rfl
    obtain ⟨toks, htoks, heq⟩ := tokenised_of_chain (d :: cs) hchain.2
      (fun e he => by rw [← Option.some.inj he]; exact hd)
      (fun e he => hlast e (by rwa [getLast?_cons_cons]))
    cases toks with
    | nil => cases heq
    | cons tok toks =>
      have htok := htoks tok mem_cons_self
      have hlonger : IsToken (c :: tok) := ⟨by simp, by simpa using ⟨hc.symm, htok.2⟩⟩
      refine ⟨(c :: tok) :: toks, .cons hlonger fun t ht => htoks t (mem_cons_of_mem _ ht), ?_⟩
      rw [heq]
      cases toks with
      | nil => simp [joinBlank]
      | cons t ts => simp [joinBlank_cons]

theorem isSpace_blank : isSpace ' ' = true := by decide

theorem squeeze_chain (text : List Char) : ∀ blank, (squeeze blank text).IsChain NotBothBlank ∧
    (blank = true → ∀ c ∈ (squeeze blank text).head?, c ≠ ' ') := by
  induction text with
  | nil => exact fun _ => ⟨IsChain.nil, fun _ c hc => by cases hc⟩
  | cons c cs ih =>
    intro blank
    unfold squeeze
    split
    · cases blank with
      | true => exact ih true
      | false =>
        refine ⟨isChain_cons.mpr ⟨fun d hd _ => (ih true).2 rfl d hd, (ih true).1⟩, ?_⟩
        intro h
        cases h
    rename_i hspace
    have hc : c ≠ ' ' := by
      rintro rfl
      exact hspace isSpace_blank
    refine ⟨isChain_cons.mpr ⟨fun _ _ hblank => absurd hblank hc, (ih false).1⟩, ?_⟩
    intro _ d hd
    rwa [← Option.some.inj hd]

variable (py : PyLibrary)

theorem normalise_tokenised (text : List Char) : Tokenised (normalise py text) := by
  unfold normalise
  dsimp only
  generalize filterMap _ _ = kept
  have hchain := (squeeze_chain kept false).1
  generalize squeeze false kept = squeezed at hchain
  unfold strip
  have hinit := rdropWhile_prefix isSpace (squeezed.dropWhile isSpace)
  refine tokenised_of_chain _ ?_ ?_ ?_
  · exact hchain.infix (hinit.isInfix.trans (dropWhile_suffix isSpace).isInfix)
  · rintro c hc rfl
    obtain ⟨tail, htail⟩ := hinit
    have hhead : (squeezed.dropWhile isSpace).head? = some ' ' := by
      rw [← htail, head?_append, Option.mem_def.mp hc]
      rfl
    have hnot := head?_dropWhile_not isSpace squeezed
    rw [hhead] at hnot
    exact absurd isSpace_blank (by rw [hnot]; decide)
  rintro c hc rfl
  have hne : (squeezed.dropWhile isSpace).rdropWhile isSpace ≠ [] := by
    intro hnil
    rw [hnil] at hc
    cases hc
  have hlast := rdropWhile_last_not isSpace (squeezed.dropWhile isSpace) hne
  rw [getLast?_eq_some_getLast hne] at hc
  rw [Option.some.inj hc] at hlast
  exact hlast isSpace_blank

/-! ### Stems -/

namespace IsToken

variable {word : List Char}

theorem orWord (h : IsToken word) {stem : List Char} (hstem : ' ' ∉ stem) :
    IsToken (orWord stem word) := by
  unfold Workers.orWord
  split
  · exact h
  · exact ⟨by assumption, hstem⟩

theorem replacePair (h : IsToken word) (a b : Char) {dst : Char} (hdst : dst ≠ ' ') :
    IsToken (replacePair a b dst word) := by
  refine ⟨?_, ?_⟩
  · have hne := h.1
    fun_cases Workers.replacePair a b dst word with
    | case1 | case2 => exact cons_ne_nil _ _
    | case3 => exact hne
  have hblank := h.2
  clear h
  fun_induction Workers.replacePair a b dst word with
  | case1 x y cs hxy ih =>
    simp only [mem_cons, not_or] at hblank ⊢
    exact ⟨hdst.symm, ih hblank.2.2⟩
  | case2 x y cs hxy ih =>
    simp only [mem_cons, not_or] at hblank ih ⊢
    exact ⟨hblank.1, ih hblank.2⟩
  | case3 => exact hblank

theorem romanLetters (h : IsToken word) : IsToken (word.map romanLetter) := by
  refine ⟨by simpa using h.1, fun hmem => ?_⟩
  obtain ⟨c, hc, hletter⟩ := mem_map.mp hmem
  unfold romanLetter at hletter
  split at hletter
  · exact absurd hletter (by decide)
  · exact absurd hletter (by decide)
  · exact absurd hletter (by decide)
  · exact h.2 (hletter ▸ hc)

theorem destutter (h : IsToken word) : IsToken (word.destutter (· ≠ ·)) :=
  ⟨fun hnil => h.1 ((destutter_eq_nil _).mp hnil),
    fun hmem => h.2 ((destutter_sublist _ word).subset hmem)⟩

theorem replaceEnding_no_blank (h : IsToken word) (endings : List (List Char)) (put : List Char)
    (hput : ' ' ∉ put) : ' ' ∉ replaceEnding endings put word := by
  unfold replaceEnding
  split
  · rw [mem_append, not_or]
    exact ⟨fun hmem => h.2 (mem_of_mem_take hmem), hput⟩
  · exact h.2

theorem replaceEnding (h : IsToken word) (endings : List (List Char)) (put : List Char)
    (hput : IsToken put) : IsToken (replaceEnding endings put word) := by
  refine ⟨?_, h.replaceEnding_no_blank endings put hput.2⟩
  unfold Workers.replaceEnding
  split
  · simp [hput.1]
  · exact h.1

theorem rdropWhile_no_blank (h : IsToken word) (p : Char → Bool) : ' ' ∉ word.rdropWhile p :=
  fun hmem => h.2 (( rdropWhile_prefix p word).subset hmem)

theorem romanDigraphs (h : IsToken word) :
    IsToken (romanDigraphs.foldl (fun w d => Workers.replacePair d.1 d.2.1 d.2.2 w) word) := by
  have hdst : ∀ d ∈ Workers.romanDigraphs, d.2.2 ≠ ' ' := by decide
  generalize Workers.romanDigraphs = digraphs at hdst
  induction digraphs generalizing word with
  | nil => exact h
  | cons d ds ih =>
    exact ih (h.replacePair d.1 d.2.1 (hdst d mem_cons_self))
      fun d' hd' => hdst d' (mem_cons_of_mem _ hd')

theorem romanisedWord (h : IsToken word) : IsToken (romanisedWord word) := by
  have hplain := h.romanDigraphs.romanLetters.destutter
  have hey := hplain.replaceEnding [['e', 'y'], ['a', 'y']] ['e'] ⟨by simp, by decide⟩
  have hon := hey.orWord (hey.replaceEnding_no_blank [['o', 'n'], ['e', 'n'], ['o']] [] (by simp))
  have hs := hon.orWord (hon.replaceEnding_no_blank [['s']] [] (by simp))
  exact hs.orWord (hs.rdropWhile_no_blank _)

end IsToken

theorem foldFor_tokenised (language : String) (term text : List Char) :
    Tokenised (foldFor py language term text) := by
  unfold foldFor
  split
  · exact (normalise_tokenised py text).map (fun _ h => h.orWord (h.rdropWhile_no_blank _)) rfl
  split
  · exact normalise_tokenised py text
  · exact (normalise_tokenised py text).map (fun _ h => h.romanisedWord) (by decide)

/-! ## Occurrences -/

theorem mem_occurrences_iff {words : List Word} {f : Word → List Char} {parts : List (List Char)}
    {hit : Hit} :
    hit ∈ occurrences words (words.map f) parts none ↔
      ∃ before spoken after first last, words = before ++ spoken ++ after ∧ spoken.map f = parts ∧
        spoken.head? = some first ∧ spoken.getLast? = some last ∧
        hit = ⟨first.startMs, last.endMs, " ".intercalate (spoken.map (·.text))⟩ := by
  unfold occurrences
  simp only [mem_filterMap, mem_range, length_map]
  constructor
  · rintro ⟨i, hi, hhit⟩
    split at hhit
    · rename_i hfold
      rw [← map_drop, ← map_take] at hfold
      split at hhit
      · rename_i first last hfirst hlast
        simp only [Option.all_none, if_true, Option.some.injEq] at hhit
        refine ⟨words.take i, (words.drop i).take parts.length, (words.drop i).drop parts.length,
          first, last, ?_, hfold, hfirst, hlast, hhit.symm⟩
        rw [append_assoc, take_append_drop, take_append_drop]
      · cases hhit
    · cases hhit
  rintro ⟨before, spoken, after, first, last, rfl, hfold, hfirst, hlast, rfl⟩
  have hlength : spoken.length = parts.length := by rw [← hfold, length_map]
  have hcovered :
      ((before ++ spoken ++ after).drop before.length).take parts.length = spoken := by
    rw [append_assoc, drop_left, ← hlength, take_left]
  refine ⟨before.length, ?_, ?_⟩
  · simp only [length_append]
    omega
  rw [← map_drop, ← map_take, hcovered, if_pos hfold, hfirst, hlast]
  simp

/-! ## A term on a channel -/

section Term

variable (term language : String)

def termFold (text : String) : List Char := foldFor py language term.toList text.toList

def reports (c : ChannelTranscript) : Bool :=
  (findTerms py c [⟨.str term, language⟩] none).any fun hits => hits ≠ []

def Contained (words : List Word) : Prop :=
  tokens (termFold py term language term) <:+:
    words.flatMap fun w => tokens (termFold py term language w.text)

def SpokenWhole (words : List Word) : Prop :=
  ∃ spoken, spoken <:+: words ∧
    spoken.map (fun w => tokens (termFold py term language w.text)) =
      (tokens (termFold py term language term)).map ([·])

instance (words : List Word) : Decidable (Contained py term language words) :=
  inferInstanceAs (Decidable (_ <:+: _))

variable {py term language}

theorem termFold_tokenised (text : String) : Tokenised (termFold py term language text) :=
  foldFor_tokenised ..

theorem reports_eq (c : ChannelTranscript) :
    reports py term language c = true ↔ termHits py c none language term.toList ≠ [] := by
  simp [reports, findTerms, Term.text?, Json.asStr?]

variable {c : ChannelTranscript} {words : List Word}

theorem reports_untimed (hwords : c.words = []) :
    reports py term language c = true ↔ termFold py term language term ≠ [] ∧
      termFold py term language term <:+: termFold py term language c.text := by
  rw [reports_eq]
  change (if termFold py term language term = [] then [] else
    if c.words = [] then if termFold py term language term <:+: termFold py term language c.text
      then _ else [] else _) ≠ [] ↔ _
  rw [if_pos hwords]
  by_cases hneedle : termFold py term language term = []
  · simp [hneedle]
  by_cases hinfix : termFold py term language term <:+: termFold py term language c.text
  · simp [hneedle, hinfix]
  · simp [hneedle, hinfix]

theorem reports_timed (hwords : c.words ≠ []) :
    reports py term language c = true ↔ termFold py term language term ≠ [] ∧
      SpokenWhole py term language c.words := by
  rw [reports_eq]
  change (if termFold py term language term = [] then [] else
    if c.words = [] then _ else occurrences c.words
      (c.words.map fun w => termFold py term language w.text)
      (splitBlank (termFold py term language term)) none) ≠ [] ↔ _
  rw [if_neg hwords]
  by_cases hneedle : termFold py term language term = []
  · simp [hneedle]
  have hterm : Tokenised (termFold py term language term) := termFold_tokenised term
  rw [if_neg hneedle, hterm.splitBlank_eq hneedle]
  -- A word that folds to one token of the term folds to that text, and the other way round.
  have hfolds : ∀ (spoken : List Word) (toks : List (List Char)), AreTokens toks →
      (spoken.map (fun w => termFold py term language w.text) = toks ↔
        spoken.map (fun w => tokens (termFold py term language w.text)) = toks.map ([·])) := by
    intro spoken toks htoks
    induction spoken generalizing toks with
    | nil => cases toks <;> simp
    | cons w spoken ih =>
      cases toks with
      | nil => simp
      | cons tok toks =>
        have hfold : Tokenised (termFold py term language w.text) := termFold_tokenised w.text
        have hhead := hfold.tokens_eq_singleton_iff (htoks tok mem_cons_self)
        have htail := ih toks fun t ht => htoks t (mem_cons_of_mem _ ht)
        simp only [map_cons, cons.injEq, hhead, htail]
  constructor
  · intro hhits
    obtain ⟨hit, hhit⟩ := exists_mem_of_ne_nil _ hhits
    obtain ⟨before, spoken, after, -, -, hsplit, hspoken, -⟩ := mem_occurrences_iff.mp hhit
    refine ⟨hneedle, spoken, ⟨before, after, hsplit.symm⟩, ?_⟩
    exact (hfolds spoken _ hterm.areTokens).mp hspoken
  rintro ⟨-, spoken, ⟨before, after, hsplit⟩, hspoken⟩
  have hspoken := (hfolds spoken _ hterm.areTokens).mpr hspoken
  have hne : spoken ≠ [] := by
    rintro rfl
    exact hneedle (hterm.tokens_eq_nil_iff.mp hspoken.symm)
  refine ne_nil_of_mem (mem_occurrences_iff.mpr ⟨before, spoken, after, spoken.head hne,
    spoken.getLast hne, hsplit.symm, hspoken, head?_eq_some_head hne,
    getLast?_eq_some_getLast hne, rfl⟩)

theorem SpokenWhole.contained (h : SpokenWhole py term language words) :
    Contained py term language words := by
  obtain ⟨spoken, ⟨before, after, rfl⟩, hspoken⟩ := h
  unfold Contained
  rw [flatMap_append, flatMap_append]
  have hflat : spoken.flatMap (fun w => tokens (termFold py term language w.text)) =
      tokens (termFold py term language term) := by
    rw [flatMap_def, hspoken, ← flatMap_def]
    exact flatMap_singleton' _
  rw [hflat]
  exact ⟨_, _, rfl⟩

theorem Contained.spokenWhole (h : Contained py term language words)
    (hone : ∀ w ∈ words, (tokens (termFold py term language w.text)).length = 1) :
    SpokenWhole py term language words := by
  have htokens : ∀ w ∈ words, tokens (termFold py term language w.text) =
      [termFold py term language w.text] := by
    intro w hw
    obtain ⟨tok, htok⟩ := length_eq_one_iff.mp (hone w hw)
    have hfold : Tokenised (termFold py term language w.text) := termFold_tokenised w.text
    have htoken := hfold.areTokens tok (by rw [htok]; exact mem_cons_self)
    rw [htok, (hfold.tokens_eq_singleton_iff htoken).mp htok]
  have hflat : words.flatMap (fun w => tokens (termFold py term language w.text)) =
      words.map fun w => termFold py term language w.text := by
    rw [flatMap_def, map_congr_left htokens, ← flatMap_def]
    exact map_eq_flatMap.symm
  unfold Contained at h
  rw [hflat] at h
  obtain ⟨before, after, hsplit⟩ := h
  obtain ⟨l1, after', rfl, hl1, -⟩ := map_eq_append_iff.mp hsplit.symm
  obtain ⟨before', spoken, rfl, -, hspoken⟩ := map_eq_append_iff.mp hl1
  refine ⟨spoken, ⟨before', after', rfl⟩, ?_⟩
  rw [← hspoken, map_map]
  refine map_congr_left fun w hw => htokens w ?_
  exact mem_append_left _ (mem_append_right _ hw)

/-- **Where term matching is token containment.** -/
theorem findTerms_contained_iff (t : ChannelTranscript) (term language : String) :
    (((reports py term language t = true ↔ Contained py term language t.words) ∧
        (reports py term language { t with words := [] } = true ↔
          Contained py term language t.words)) ↔
      termFold py term language term ≠ [] ∧
        (Contained py term language t.words → SpokenWhole py term language t.words) ∧
        (termFold py term language term <:+: termFold py term language t.text ↔
          Contained py term language t.words)) ∧
      ((∀ w ∈ t.words, (tokens (termFold py term language w.text)).length = 1) →
        Contained py term language t.words → SpokenWhole py term language t.words) := by
  have huntimed : reports py term language { t with words := [] } = true ↔
      termFold py term language term ≠ [] ∧
        termFold py term language term <:+: termFold py term language t.text :=
    reports_untimed rfl
  have hterm : Tokenised (termFold py term language term) := termFold_tokenised term
  refine ⟨⟨fun ⟨htimed, htext⟩ => ?_, fun ⟨hneedle, hspoken, htext⟩ => ?_⟩,
    fun hone hcontained => hcontained.spokenWhole hone⟩
  · have hneedle : termFold py term language term ≠ [] := by
      intro hnil
      have hcontained : Contained py term language t.words := by
        unfold Contained
        rw [hterm.tokens_eq_nil_iff.mpr hnil]
        exact nil_infix
      exact (huntimed.mp (htext.mpr hcontained)).1 hnil
    refine ⟨hneedle, fun hcontained => ?_, ?_⟩
    · by_cases hwords : t.words = []
      · rw [hwords] at hcontained
        exact absurd (hterm.tokens_eq_nil_iff.mp (infix_nil.mp hcontained)) hneedle
      · exact ((reports_timed hwords).mp (htimed.mpr hcontained)).2
    · rw [← htext, huntimed]
      exact ⟨fun hinfix => ⟨hneedle, hinfix⟩, fun h => h.2⟩
  · refine ⟨?_, ?_⟩
    · by_cases hwords : t.words = []
      · rw [reports_untimed hwords, htext]
        exact ⟨fun h => h.2, fun hcontained => ⟨hneedle, hcontained⟩⟩
      · rw [reports_timed hwords]
        exact ⟨fun h => h.2.contained, fun hcontained => ⟨hneedle, hspoken hcontained⟩⟩
    · rw [huntimed, htext]
      exact ⟨fun h => h.2, fun hcontained => ⟨hneedle, hcontained⟩⟩

def oneWord (text : String) : ChannelTranscript where
  channel := .near
  text := text
  words := [{ text, startMs := 0, endMs := 300 }]

/-- The word `don't` folds to two tokens, and the term `don't` is not found in it; `art` is found in
`party`, if the word has no timings. -/
theorem dont_missed :
    (Contained RuleSet.plainLibrary "don't" "en" (oneWord "don't").words ∧
      reports RuleSet.plainLibrary "don't" "en" (oneWord "don't") = false ∧
      reports RuleSet.plainLibrary "don't" "en" { oneWord "don't" with words := [] } = true) ∧
    ¬ Contained RuleSet.plainLibrary "art" "en" (oneWord "party").words ∧
      reports RuleSet.plainLibrary "art" "en" (oneWord "party") = false ∧
      reports RuleSet.plainLibrary "art" "en" { oneWord "party" with words := [] } = true := by
  decide +kernel

end Term

end Sentinel.Workers
