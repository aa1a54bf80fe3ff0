import Sentinel.Workers.Containment

/-!
# From a range of the text to the time of its words

`_char_span_to_time` finds the words of a channel again in its text, each by a search from the end
of the one before.
-/

open List

namespace Sentinel.Workers

def placed : Nat → List Word → List (Nat × Word)
  | _, [] => []
  | place, w :: words => (place, w) :: placed (place + w.text.length + 1) words

def Overlaps (startChar endChar : Nat) (p : Nat × Word) : Bool :=
  p.1 < endChar ∧ startChar < p.1 + p.2.text.length

variable {text needle : List Char} {cursor place startChar endChar : Nat} {words : List Word}
  {w : Word}

theorem findFrom_eq_some {i : Nat} (hi : needle <+: text.drop i) (hlen : i ≤ text.length)
    (hcursor : cursor ≤ i) (hno : ∀ j < i, cursor ≤ j → ¬ needle <+: text.drop j) :
    findFrom text needle cursor = some i := by
  rw [findFrom, find?_range_eq_some]
  simp only [decide_eq_true_eq, mem_range, Bool.not_eq_true', decide_eq_false_iff_not, not_and]
  exact ⟨⟨hcursor, hi⟩, Nat.lt_succ_of_le hlen, hno⟩

def Before (text : List Char) (cursor place : Nat) (words : List Word) : Prop :=
  (place = cursor ∧ text.drop cursor = joinBlank (words.map (·.text.toList))) ∨
    (place = cursor + 1 ∧ text.drop cursor = ' ' :: joinBlank (words.map (·.text.toList)))

theorem Before.drop (h : Before text cursor place words) :
    text.drop place = joinBlank (words.map (·.text.toList)) := by
  rcases h with ⟨rfl, h⟩ | ⟨rfl, h⟩
  · exact h
  rw [← drop_drop, h]
  rfl

theorem joinBlank_eq_append (w : Word) (words : List Word) :
    ∃ rest, joinBlank ((w :: words).map (·.text.toList)) = w.text.toList ++ rest ∧
      (words ≠ [] → rest = ' ' :: joinBlank (words.map (·.text.toList))) := by
  cases words with
  | nil => exact ⟨[], by simp [joinBlank, intercalate_singleton], fun h => absurd rfl h⟩
  | cons w' words => exact ⟨_, joinBlank_cons (by simp), fun _ => rfl⟩

theorem findFrom_word (h : Before text cursor place (w :: words)) (hw : IsToken w.text.toList) :
    findFrom text w.text.toList cursor = some place := by
  obtain ⟨rest, hrest, -⟩ := joinBlank_eq_append w words
  have hplace : w.text.toList <+: text.drop place := by
    rw [h.drop, hrest]
    exact prefix_append _ _
  have hlen : place ≤ text.length := by
    by_contra hgt
    rw [drop_of_length_le (by omega)] at hplace
    exact hw.1 (prefix_nil.mp hplace)
  rcases h with ⟨rfl, h⟩ | ⟨rfl, h⟩
  · exact findFrom_eq_some hplace hlen le_rfl fun j hj hle => absurd hj (by omega)
  refine findFrom_eq_some hplace hlen (by omega) fun j hj hle hstarts => ?_
  obtain rfl : j = cursor := by omega
  rw [h] at hstarts
  obtain ⟨c, cs, hcs⟩ := exists_cons_of_ne_nil hw.1
  rw [hcs, cons_prefix_cons] at hstarts
  exact hw.2 (by rw [hcs, hstarts.1]; exact mem_cons_self)

theorem Before.next (h : Before text cursor place (w :: words)) (hne : words ≠ []) :
    Before text (place + w.text.length) (place + w.text.length + 1) words := by
  obtain ⟨rest, hrest, hblank⟩ := joinBlank_eq_append w words
  refine .inr ⟨rfl, ?_⟩
  rw [← drop_drop, h.drop, hrest, hblank hne, ← String.length_toList, drop_left]

theorem spanLoop_eq (h : words ≠ [] → Before text cursor place words)
    (hwords : ∀ w ∈ words, IsToken w.text.toList) (startMs : Option Int) (endMs : Int) :
    spanLoop text startChar endChar words cursor startMs endMs =
      (startMs.or (((placed place words).filter (Overlaps startChar endChar)).head?.map
          (·.2.startMs)), (((placed place words).filter (Overlaps startChar endChar)).getLast?.map
          (·.2.endMs)).getD endMs) := by
  induction words generalizing cursor place startMs endMs with
  | nil => simp [spanLoop, placed]
  | cons w words ih =>
    have hbefore := h (cons_ne_nil _ _)
    have hrest := ih hbefore.next fun w' hw' => hwords w' (mem_cons_of_mem _ hw')
    rw [spanLoop, findFrom_word hbefore (hwords w mem_cons_self), placed]
    dsimp only
    by_cases hover : place < endChar ∧ startChar < place + w.text.length
    · rw [if_pos hover, hrest, filter_cons_of_pos (by simpa [Overlaps] using hover)]
      generalize (placed (place + w.text.length + 1) words).filter _ = later
      rw [head?_cons, getLast?_cons]
      cases startMs <;> cases later.getLast? <;> rfl
    · rw [if_neg hover, hrest, filter_cons_of_neg (by simpa [Overlaps] using hover)]

theorem exists_placed {i : Nat} {c : Char}
    (hc : (joinBlank (words.map (·.text.toList)))[i]? = some c) (hblank : c ≠ ' ') (place : Nat) :
    ∃ p ∈ placed place words, p.1 ≤ place + i ∧ place + i < p.1 + p.2.text.length := by
  induction words generalizing i place with
  | nil => simp [joinBlank] at hc
  | cons w words ih =>
    obtain ⟨rest, hrest, hnext⟩ := joinBlank_eq_append w words
    rw [hrest] at hc
    by_cases hi : i < w.text.length
    · exact ⟨(place, w), mem_cons_self, by simp, by simpa using hi⟩
    rw [getElem?_append_right (by rw [String.length_toList]; omega)] at hc
    have hne : words ≠ [] := by
      rintro rfl
      simp [joinBlank, intercalate_singleton] at hrest
      simp [hrest] at hc
    rw [hnext hne, String.length_toList] at hc
    cases hk : i - w.text.length with
    | zero => rw [hk] at hc; exact absurd (Option.some.inj hc).symm hblank
    | succ k =>
      rw [hk] at hc
      obtain ⟨p, hp, hle, hlt⟩ := ih hc (place + w.text.length + 1)
      exact ⟨p, mem_cons_of_mem _ hp, by omega, by omega⟩

/-- **Pattern spans map to the right words.** -/
theorem charSpanToTime_eq {t : ChannelTranscript}
    (htext : t.text.toList = joinBlank (t.words.map (·.text.toList)))
    (hwords : ∀ w ∈ t.words, IsToken w.text.toList) {startChar endChar i : Nat} {c : Char}
    (hi : startChar ≤ i ∧ i < endChar) (hc : t.text.toList[i]? = some c) (hblank : c ≠ ' ') :
    ∃ first last, ((placed 0 t.words).filter (Overlaps startChar endChar)).head? = some first ∧
      ((placed 0 t.words).filter (Overlaps startChar endChar)).getLast? = some last ∧
      charSpanToTime t startChar endChar = (first.2.startMs, last.2.endMs) := by
  obtain ⟨p, hp, hle, hlt⟩ := exists_placed (htext ▸ hc) hblank 0
  have hne : (placed 0 t.words).filter (Overlaps startChar endChar) ≠ [] :=
    ne_nil_of_mem (mem_filter.mpr ⟨hp, decide_eq_true ⟨by omega, by omega⟩⟩)
  have hbefore : Before t.text.toList 0 0 t.words := .inl ⟨rfl, htext⟩
  have hloop : spanLoop t.text.toList startChar endChar t.words 0 none 0 = _ :=
    spanLoop_eq (fun _ => hbefore) hwords none 0
  obtain ⟨first, rest, hcons⟩ := exists_cons_of_ne_nil hne
  refine ⟨first, (first :: rest).getLast (cons_ne_nil _ _), by rw [hcons]; rfl,
    by rw [hcons]; exact List.getLast?_eq_some_getLast _, ?_⟩
  rw [charSpanToTime, hloop, hcons, List.getLast?_eq_some_getLast (cons_ne_nil _ _)]
  rfl

def repeated : ChannelTranscript where
  channel := .near
  text := "pay repay pay"
  words := [⟨"pay", 0, 300, none⟩, ⟨"repay", 400, 900, none⟩, ⟨"pay", 1000, 1300, none⟩]

theorem charSpanToTime_repeated : charSpanToTime repeated 6 13 = (400, 1300) := by
  obtain ⟨first, last, hfirst, hlast, h⟩ := charSpanToTime_eq (t := repeated) (i := 6) (c := 'p')
    (by decide) (by unfold IsToken; decide) (show 6 ≤ 6 ∧ 6 < 13 by decide) (by decide) (by decide)
  obtain rfl : (4, ⟨"repay", 400, 900, none⟩) = first := Option.some.inj hfirst
  obtain rfl : (10, ⟨"pay", 1000, 1300, none⟩) = last := Option.some.inj hlast
  exact h

end Sentinel.Workers
