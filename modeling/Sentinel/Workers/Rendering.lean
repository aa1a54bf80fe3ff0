import Sentinel.Workers.Models

/-!
# The script of a transcript

Both model calls show the provider the transcript as a script: the words of all channels in the
order of their starts, one line for each stretch of one speaker.
-/

open List

namespace Sentinel.Workers

structure Turn where
  startMs : Int
  speaker : String
  text : String
  deriving DecidableEq, Repr

def speakerOf : Channel → String
  | .near => "AGENT"
  | .far => "BORROWER"

def turns (t : Transcript) : List Turn :=
  (t.channels.flatMap fun ct =>
    if ct.words ≠ [] then ct.words.map fun w => ⟨w.startMs, speakerOf ct.channel, w.text⟩
    else if ct.text ≠ "" then [⟨0, speakerOf ct.channel, ct.text⟩] else []).mergeSort
    fun a b => a.startMs ≤ b.startMs

def scriptLine (start : Int) (speaker : String) (buffer : List String) : String :=
  "[" ++ toString start ++ " ms] " ++ speaker ++ ": " ++ " ".intercalate buffer

structure Script where
  lines : List String := []
  speaker : Option String := none
  buffer : List String := []
  start : Int := 0

def Script.flush (s : Script) : List String :=
  if s.buffer ≠ [] then s.lines ++ [scriptLine s.start (s.speaker.getD "None") s.buffer]
  else s.lines

def Script.push (s : Script) (turn : Turn) : Script :=
  if some turn.speaker ≠ s.speaker then ⟨s.flush, some turn.speaker, [turn.text], turn.startMs⟩
  else { s with buffer := s.buffer ++ [turn.text] }

def script (ts : List Turn) : String := "\n".intercalate (ts.foldl Script.push {}).flush

def CallAnalyzer.renderTranscript (t : Transcript) (maxTranscriptChars : Nat := 48000) :
    String × Bool :=
  let rendered := script (turns t)
  if rendered.length ≤ maxTranscriptChars then (rendered, false)
  else (.ofList (rendered.toList.take maxTranscriptChars) ++ "\n[transcript truncated]", true)

def ComplianceJudge.renderTranscript (t : Transcript) (aroundMs : Option Int := none)
    (maxTranscriptChars : Nat := 24000) : String :=
  let windowed := aroundMs.elim [] fun ms =>
    (turns t).filter fun turn => ms - 90000 ≤ turn.startMs ∧ turn.startMs ≤ ms + 90000
  let rendered := script (if windowed ≠ [] then windowed else turns t)
  if maxTranscriptChars < rendered.length then
    .ofList (rendered.toList.take maxTranscriptChars) ++ "\n[transcript truncated]"
  else rendered

/-! ## Reading a script -/

def readLine (line : List Char) : String × List String :=
  let rest := (line.dropWhile (· ≠ ']')).drop 2
  (.ofList (rest.takeWhile (· ≠ ':')),
    (((rest.dropWhile (· ≠ ':')).drop 2).splitOn ' ').map .ofList)

def readBack (script : String) : List (String × List String) :=
  ((script.toList.splitOn '\n').filter (· ≠ [])).map readLine

def spoken (t : Transcript) : List (Channel × Word) :=
  t.channels.flatMap fun ct => ct.words.map (ct.channel, ·)

structure Faithful (t : Transcript) (out : String) (said : List (Channel × Word)) : Prop where
  perm : said.Perm (spoken t)
  recovered : (readBack out).flatMap (fun l => l.2.map (l.1, ·)) =
    said.map fun x => (speakerOf x.1, x.2.text)
  alternates : ((readBack out).map Prod.fst).IsChain (· ≠ ·)
  ordered : said.Pairwise fun x y => x.2.startMs ≤ y.2.startMs
  stable : ∀ ch ms, said.filter (fun x => x.1 = ch ∧ x.2.startMs = ms) =
    (spoken t).filter fun x => x.1 = ch ∧ x.2.startMs = ms

def Timed (t : Transcript) : Prop :=
  ∀ ct ∈ t.channels, ct.words ≠ [] ∧
    ∀ w ∈ ct.words, w.text ≠ "" ∧ ' ' ∉ w.text.toList ∧ '\n' ∉ w.text.toList

/-! ## The stretches of one speaker -/

def stretches (start : Int) (speaker : String) (buffer : List String) :
    List Turn → List (Int × String × List String)
  | [] => [(start, speaker, buffer)]
  | turn :: ts =>
    if turn.speaker = speaker then stretches start speaker (buffer ++ [turn.text]) ts
    else (start, speaker, buffer) :: stretches turn.startMs turn.speaker [turn.text] ts

variable {buffer words : List String} {speaker : String} {start : Int} {c : Char} {t : Transcript}

theorem flush_foldl_push (lines : List String) (hbuffer : buffer ≠ []) (ts : List Turn) :
    (ts.foldl Script.push ⟨lines, some speaker, buffer, start⟩).flush = lines ++
      (stretches start speaker buffer ts).map fun g => scriptLine g.1 g.2.1 g.2.2 := by
  induction ts generalizing lines buffer speaker start with
  | nil => simp [Script.flush, stretches, hbuffer]
  | cons turn ts ih =>
    rw [foldl_cons, Script.push, stretches]
    by_cases hsame : turn.speaker = speaker
    · rw [if_neg (by simpa using hsame), if_pos hsame]
      exact ih lines (by simp)
    rw [if_pos (by simpa using hsame), if_neg hsame, ih _ (by simp)]
    simp [Script.flush, hbuffer]

theorem stretches_ne_nil (hbuffer : buffer ≠ []) (ts : List Turn) :
    ∀ g ∈ stretches start speaker buffer ts, g.2.2 ≠ [] := by
  induction ts generalizing start speaker buffer with
  | nil => simpa [stretches] using hbuffer
  | cons turn ts ih =>
    rw [stretches]
    split
    · exact ih (by simp)
    · exact forall_mem_cons.mpr ⟨hbuffer, ih (by simp)⟩

theorem flatMap_stretches (start : Int) (speaker : String) (buffer : List String) (ts : List Turn) :
    (stretches start speaker buffer ts).flatMap (fun g => g.2.2.map (g.2.1, ·)) =
      buffer.map (speaker, ·) ++ ts.map fun turn => (turn.speaker, turn.text) := by
  induction ts generalizing start speaker buffer with
  | nil => simp [stretches]
  | cons turn ts ih =>
    rw [stretches]
    split
    case isTrue hsame => simp [ih, ← hsame]
    case isFalse => simp [ih]

theorem isChain_stretches (start : Int) (speaker : String) (buffer : List String)
    (ts : List Turn) : ∃ later, (stretches start speaker buffer ts).map (·.2.1) = speaker :: later ∧
        (speaker :: later).IsChain (· ≠ ·) := by
  induction ts generalizing start speaker buffer with
  | nil => exact ⟨[], rfl, .singleton _⟩
  | cons turn ts ih =>
    rw [stretches]
    split
    case isTrue => exact ih start speaker (buffer ++ [turn.text])
    case isFalse hother =>
      obtain ⟨later, hlater, hchain⟩ := ih turn.startMs turn.speaker [turn.text]
      exact ⟨turn.speaker :: later, by simp [hlater],
        isChain_cons_cons.mpr ⟨Ne.symm hother, hchain⟩⟩

/-! ## Taking a line apart -/

theorem notMem_toString (hdigit : c.isDigit = false) (hminus : c ≠ '-') (n : Int) :
    c ∉ (toString n).toList := by
  have hnat : ∀ m : Nat, c ∉ m.repr.toList := by
    intro m hmem
    rw [Nat.repr, String.toList_ofList] at hmem
    rw [Nat.isDigit_of_mem_toDigits (by decide) (by decide) hmem] at hdigit
    cases hdigit
  cases n with
  | ofNat m => exact hnat m
  | negSucc m =>
    change c ∉ ("-" ++ (m + 1).repr).toList
    rw [String.toList_append, mem_append]
    exact not_or.mpr ⟨by simpa using hminus, hnat (m + 1)⟩

def Plain (x : String × String) : Prop :=
  ':' ∉ x.1.toList ∧ '\n' ∉ x.1.toList ∧ ' ' ∉ x.2.toList ∧ '\n' ∉ x.2.toList

theorem readLine_scriptLine (hne : words ≠ []) (h : ∀ w ∈ words, Plain (speaker, w)) :
    readLine (scriptLine start speaker words).toList = (speaker, words) := by
  obtain ⟨w, hw⟩ := exists_mem_of_ne_nil words hne
  have hstart : ∀ c ∈ '[' :: (toString start).toList ++ [' ', 'm', 's'], c ≠ ']' := by
    have hnum := notMem_toString (c := ']') rfl (by decide) start
    grind
  have hline : (scriptLine start speaker words).toList =
      ('[' :: (toString start).toList ++ [' ', 'm', 's']) ++ ']' :: ' ' ::
        (speaker.toList ++ ':' :: ' ' :: [' '].intercalate (words.map String.toList)) := by
    simp [scriptLine, String.toList_intercalate]
  have hspeaker : ∀ c ∈ speaker.toList, decide (c ≠ ':') = true := fun c hc =>
    decide_eq_true fun hcolon => (h w hw).1 (hcolon ▸ hc)
  have hsplit : ([' '].intercalate (words.map String.toList)).splitOn ' ' = _ :=
    splitOn_intercalate ' ' (by simpa using fun w hw => (h w hw).2.2.1) (by simpa using hne)
  rw [hline, readLine, dropWhile_append_of_pos fun c hc => decide_eq_true (hstart c hc)]
  simp only [dropWhile_cons, ne_eq, not_true_eq_false, decide_false, Bool.false_eq_true,
    if_false, drop_succ_cons, drop_zero]
  rw [takeWhile_append_of_pos hspeaker, dropWhile_append_of_pos hspeaker]
  simp [hsplit]

theorem notMem_intercalate (hc : c ≠ ' ') {words : List (List Char)}
    (h : ∀ w ∈ words, c ∉ w) : c ∉ [' '].intercalate words := by
  induction words with
  | nil => simp [intercalate]
  | cons w ws ih =>
    cases ws with
    | nil => simpa using h
    | cons v vs =>
      rw [intercalate_cons_cons]
      simp_all

theorem newline_notMem_scriptLine (hne : words ≠ []) (h : ∀ w ∈ words, Plain (speaker, w)) :
    '\n' ∉ (scriptLine start speaker words).toList := by
  obtain ⟨w, hw⟩ := exists_mem_of_ne_nil words hne
  have hnum := notMem_toString (c := '\n') rfl (by decide) start
  have hwords : '\n' ∉ [' '].intercalate (words.map String.toList) :=
    notMem_intercalate (by decide) (by simpa using fun w hw => (h w hw).2.2.2)
  have hspeaker := (h w hw).2.1
  simp_all [scriptLine, String.toList_intercalate]

theorem readBack_script (ts : List Turn) (h : ∀ turn ∈ ts, Plain (turn.speaker, turn.text)) :
    (readBack (script ts)).flatMap (fun l => l.2.map (l.1, ·)) =
        ts.map (fun turn => (turn.speaker, turn.text)) ∧
      ((readBack (script ts)).map Prod.fst).IsChain (· ≠ ·) := by
  cases ts with
  | nil => simp [script, Script.flush, readBack]
  | cons turn ts =>
    let groups := stretches turn.startMs turn.speaker [turn.text] ts
    have hflat : groups.flatMap (fun g => g.2.2.map (g.2.1, ·)) =
        (turn :: ts).map fun turn => (turn.speaker, turn.text) := flatMap_stretches ..
    obtain ⟨later, hlater, hchain⟩ := isChain_stretches turn.startMs turn.speaker [turn.text] ts
    have hne : ∀ g ∈ groups, g.2.2 ≠ [] := stretches_ne_nil (by simp) ts
    have hplain : ∀ g ∈ groups, ∀ w ∈ g.2.2, Plain (g.2.1, w) := by
      intro g hg w hw
      have hmem : (g.2.1, w) ∈ groups.flatMap fun g => g.2.2.map (g.2.1, ·) :=
        mem_flatMap.mpr ⟨g, hg, mem_map.mpr ⟨w, hw, rfl⟩⟩
      rw [hflat] at hmem
      obtain ⟨turn, hturn, heq⟩ := mem_map.mp hmem
      exact heq ▸ h turn hturn
    have hscript : script (turn :: ts) =
        "\n".intercalate (groups.map fun g => scriptLine g.1 g.2.1 g.2.2) := by
      rw [script, foldl_cons]
      exact congrArg _ (flush_foldl_push [] (by simp) ts)
    have hread : readBack (script (turn :: ts)) = groups.map (·.2) := by
      have hlines : groups ≠ [] := by
        intro hnil
        rw [hnil] at hflat
        simp at hflat
      have hnewline : ∀ l ∈ groups.map fun g => (scriptLine g.1 g.2.1 g.2.2).toList,
          '\n' ∉ l := by
        intro l hl
        obtain ⟨g, hg, rfl⟩ := mem_map.mp hl
        exact newline_notMem_scriptLine (hne g hg) (hplain g hg)
      have hsplit := splitOn_intercalate '\n' hnewline (by simpa using hlines)
      have hfull : ∀ l ∈ groups.map fun g => (scriptLine g.1 g.2.1 g.2.2).toList,
          decide (l ≠ []) = true := by
        intro l hl
        obtain ⟨g, -, rfl⟩ := mem_map.mp hl
        simp [scriptLine]
      rw [readBack, hscript, String.toList_intercalate, map_map]
      rw [show "\n".toList = ['\n'] from rfl, Function.comp_def, hsplit,
        filter_eq_self.mpr hfull, map_map]
      exact map_congr_left fun g hg => readLine_scriptLine (hne g hg) (hplain g hg)
    rw [hread, ← hflat, flatMap_map, map_map]
    exact ⟨rfl, by rwa [Function.comp_def, hlater]⟩

/-! ## Both scripts -/

def toTurn (x : Channel × Word) : Turn := ⟨x.2.startMs, speakerOf x.1, x.2.text⟩

theorem turns_eq (h : Timed t) :
    turns t = ((spoken t).mergeSort fun x y => x.2.startMs ≤ y.2.startMs).map toTurn := by
  have hsort := map_mergeSort (s := fun a b => a.startMs ≤ b.startMs) (f := toTurn)
    (l := spoken t) (r := fun x y => x.2.startMs ≤ y.2.startMs) fun _ _ _ _ => rfl
  rw [hsort, turns, spoken, map_flatMap]
  congr 1
  refine flatMap_congr fun ct hct => ?_
  rw [if_pos (h ct hct).1, map_map]
  rfl

theorem faithful_script (h : Timed t) : Faithful t (script (turns t))
      ((spoken t).mergeSort fun x y => x.2.startMs ≤ y.2.startMs) := by
  have htrans : ∀ x y z : Channel × Word, decide (x.2.startMs ≤ y.2.startMs) = true →
      decide (y.2.startMs ≤ z.2.startMs) = true → decide (x.2.startMs ≤ z.2.startMs) = true := by
    simpa using fun _ _ _ _ _ _ => le_trans
  have htotal : ∀ x y : Channel × Word, (decide (x.2.startMs ≤ y.2.startMs) ||
      decide (y.2.startMs ≤ x.2.startMs)) = true := by
    simpa using fun _ _ _ _ => le_total _ _
  have hperm := mergeSort_perm (spoken t) fun x y => x.2.startMs ≤ y.2.startMs
  have hplain : ∀ turn ∈ turns t, Plain (turn.speaker, turn.text) := by
    rw [turns_eq h]
    intro turn hturn
    obtain ⟨⟨ch, w⟩, hx, rfl⟩ := mem_map.mp hturn
    obtain ⟨ct, hct, hw⟩ := mem_flatMap.mp (hperm.mem_iff.mp hx)
    obtain ⟨w, hw, ⟨⟩⟩ := mem_map.mp hw
    have hword := (h ct hct).2 w hw
    have hlabel : ':' ∉ (speakerOf ct.channel).toList ∧ '\n' ∉ (speakerOf ct.channel).toList := by
      cases ct.channel <;> decide
    exact ⟨hlabel.1, hlabel.2, hword.2⟩
  obtain ⟨hread, hchain⟩ := readBack_script _ hplain
  refine ⟨hperm, hread.trans ?_, hchain, ?_, ?_⟩
  · rw [turns_eq h, map_map]
    rfl
  · exact (pairwise_mergeSort htrans htotal _).imp of_decide_eq_true
  -- The words of one channel and start are in order, so the sort keeps them as they are.
  intro ch ms
  have hsorted : ((spoken t).filter fun x => x.1 = ch ∧ x.2.startMs = ms).Pairwise
      fun x y => decide (x.2.startMs ≤ y.2.startMs) = true := by
    refine pairwise_of_forall_mem_list fun x hx y hy => ?_
    simp only [mem_filter, decide_eq_true_eq] at hx hy
    exact decide_eq_true (hx.2.2.trans hy.2.2.symm).le
  have hsub := (sublist_mergeSort htrans htotal hsorted filter_sublist).filter
    fun x => x.1 = ch ∧ x.2.startMs = ms
  rw [filter_filter] at hsub
  simp only [Bool.and_self] at hsub
  exact (hsub.eq_of_length (hperm.filter _).length_eq.symm).symm

/-- **The script is the conversation.** -/
theorem renderTranscript_faithful (t : Transcript) (h : Timed t) (max : Nat) :
    ((CallAnalyzer.renderTranscript t max).2 = false →
      ∃ said, Faithful t (CallAnalyzer.renderTranscript t max).1 said) ∧
    ((script (turns t)).length ≤ max →
      ∃ said, Faithful t (ComplianceJudge.renderTranscript t none max) said) := by
  constructor
  · intro hwhole
    rw [CallAnalyzer.renderTranscript] at hwhole ⊢
    split_ifs at hwhole ⊢
    exact ⟨_, faithful_script h⟩
  · intro hwhole
    rw [ComplianceJudge.renderTranscript]
    simp only [Option.elim_none, ne_eq, not_true_eq_false, if_false, Nat.not_lt.mpr hwhole]
    exact ⟨_, faithful_script h⟩

def greeting : Transcript where
  context := ⟨"call", "bank", "agent", 0, 0, "Asia/Kolkata", none, none, "outbound", "A", 0, none⟩
  channels := [⟨.far, "haan ji", [⟨"haan", 500, 900, none⟩, ⟨"ji", 900, 990, none⟩], "hi", "", "",
    none⟩, ⟨.near, "namaste", [⟨"namaste", 0, 400, none⟩], "hi", "", "", none⟩]

theorem timed_greeting : Timed greeting := by
  unfold Timed
  decide

theorem script_greeting :
    script (turns greeting) = "[0 ms] AGENT: namaste\n[500 ms] BORROWER: haan ji" := by
  have hsort : turns greeting = [⟨0, "AGENT", "namaste"⟩, ⟨500, "BORROWER", "haan"⟩,
      ⟨900, "BORROWER", "ji"⟩] := by
    simp [turns, greeting, speakerOf, mergeSort]
  rw [hsort]
  decide

/-- A greeting is short enough for both. -/
theorem greeting_rendered_faithfully :
    (∃ said, Faithful greeting (CallAnalyzer.renderTranscript greeting).1 said) ∧
      ∃ said, Faithful greeting (ComplianceJudge.renderTranscript greeting) said :=
  ⟨(renderTranscript_faithful greeting timed_greeting 48000).1
      (by rw [CallAnalyzer.renderTranscript, script_greeting]; decide),
    (renderTranscript_faithful greeting timed_greeting 24000).2
      (by rw [script_greeting]; decide)⟩

end Sentinel.Workers
