import Sentinel.Lib.Sorting
import Sentinel.Portal.Store

/-!
# The order of a transcript

`transcriptTurns` joins the turns of the two channels and `sortTurns` puts them in the order in
which they begin.  The loops of `sortTurns` are an insertion sort from the back: the part in order
is the part already passed, and a new turn sinks into it from its end.  Read backwards, that part
is a list and sinking is `List.orderedInsert`, so the library's facts about insertion apply.
-/

open List

namespace Sentinel.Portal

def StartsAfter (t u : TranscriptTurn) : Prop := u.startMs ≤ t.startMs

instance : DecidableRel StartsAfter := fun t u =>
  inferInstanceAs (Decidable (u.startMs ≤ t.startMs))

instance : IsTrans TranscriptTurn StartsAfter := ⟨fun _ _ _ htu huv => le_trans huv htu⟩

instance : Std.Total StartsAfter := ⟨fun t u => le_total u.startMs t.startMs⟩

theorem sinkTurn_eq (l r : List TranscriptTurn) (t : TranscriptTurn) :
    sinkTurn l.length (l.reverse ++ t :: r) = (l.orderedInsert StartsAfter t).reverse ++ r := by
  induction l generalizing r with
  | nil => simp [sinkTurn]
  | cons u l ih =>
    have hget : (l.reverse ++ u :: t :: r)[l.length]? = some u := by
      rw [getElem?_append_right (by simp)]
      simp
    have hnext : (l.reverse ++ u :: t :: r)[l.length + 1]? = some t := by
      rw [getElem?_append_right (by simp)]
      simp
    have hswap : ((l.reverse ++ u :: t :: r).set (l.length + 1) u).set l.length t =
        l.reverse ++ t :: u :: r := by
      rw [set_append_right _ _ (by simp), set_append_right _ _ (by simp)]
      simp
    rw [length_cons, reverse_cons, append_assoc, singleton_append, sinkTurn, hget, hnext]
    dsimp only
    by_cases h : StartsAfter t u
    · rw [orderedInsert_cons_of_le _ l h, if_neg (not_lt.mpr h)]
      simp
    rw [orderedInsert_of_not_le _ l h, if_pos (not_le.mp h), hswap, ih]
    simp

theorem foldl_sinkTurn (l r : List TranscriptTurn) :
    (range' l.length r.length).foldl (fun ts i => sinkTurn i ts) (l.reverse ++ r) =
      (r.foldl (fun l t => l.orderedInsert StartsAfter t) l).reverse := by
  induction r generalizing l with
  | nil => simp
  | cons t r ih =>
    rw [length_cons, range'_succ, foldl_cons, foldl_cons, sinkTurn_eq, ← ih, orderedInsert_length]

theorem sortTurns_eq (ts : List TranscriptTurn) :
    sortTurns ts = (ts.reverse.insertionSort StartsAfter).reverse := by
  cases ts with
  | nil => rfl
  | cons t ts =>
    have h := foldl_sinkTurn [t] ts
    rw [sortTurns, length_cons, Nat.add_sub_cancel]
    refine h.trans ?_
    rw [insertionSort, foldr_reverse]
    rfl

/-- **The turns are put in order, and those that begin together stay as they were.** -/
theorem sortTurns_stable (ts : List TranscriptTurn) :
    sortTurns ts ~ ts ∧ (sortTurns ts).Pairwise (fun t u => t.startMs ≤ u.startMs) ∧
      ∀ start, (sortTurns ts).filter (·.startMs = start) = ts.filter (·.startMs = start) := by
  rw [sortTurns_eq]
  refine ⟨(reverse_perm _).trans ((perm_insertionSort _ _).trans (reverse_perm ts)),
    pairwise_reverse.mpr (pairwise_insertionSort StartsAfter _), fun start => ?_⟩
  have htogether : (ts.reverse.filter (·.startMs = start)).Pairwise StartsAfter := by
    refine pairwise_of_forall_mem_list fun t ht u hu => ?_
    have htime : t.startMs = start := by simpa using of_mem_filter ht
    have hutime : u.startMs = start := by simpa using of_mem_filter hu
    exact (hutime.trans htime.symm).le
  rw [filter_reverse, filter_insertionSort, htogether.insertionSort_eq, filter_reverse,
    reverse_reverse]

end Sentinel.Portal
