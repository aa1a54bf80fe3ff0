import Sentinel.Workers.Persistence

/-!
# The flags after `save_findings`

`save_findings` upserts the findings one by one and then deletes, by a text made of rule and tier,
the flags it did not write. `saveFindings_post` is its effect on the table.
-/

open List Table Nat

namespace Sentinel.Workers

theorem colon_notMem_toDigits (n : Nat) : ':' ∉ toDigits 10 n := fun h =>
  absurd (isDigit_of_mem_toDigits (by decide) (by decide) h) (by decide)

theorem append_colon_inj {a b c d : List Char} (hb : ':' ∉ b) (hd : ':' ∉ d)
    (h : a ++ ':' :: b = c ++ ':' :: d) : a = c ∧ b = d := by
  rcases append_eq_append_iff.mp h with ⟨as, rfl, has⟩ | ⟨as, rfl, has⟩
  · cases as with
    | nil => exact ⟨(append_nil _).symm, (cons.inj has).2⟩
    | cons x as => exact absurd ((cons.inj has).2 ▸ by simp) hb
  cases as with
  | nil => exact ⟨append_nil _, (cons.inj has).2.symm⟩
  | cons x as => exact absurd ((cons.inj has).2 ▸ by simp) hd

theorem flagText_inj {ruleId ruleId' : String} {tier tier' : Nat}
    (h : flagText ruleId tier = flagText ruleId' tier') : ruleId = ruleId' ∧ tier = tier' := by
  have hlist := congrArg String.toList h
  simp only [flagText, String.toList_append, toString_eq_repr, toList_repr, append_assoc] at hlist
  obtain ⟨hrule, htier⟩ :=
    append_colon_inj (colon_notMem_toDigits _) (colon_notMem_toDigits _) hlist
  have hnum : ∀ n, ofDigitChars 10 (toDigits 10 n) 0 = n :=
    fun _ => ofDigitChars_toDigits (by decide) (by decide)
  exact ⟨String.toList_inj.mp hrule, by rw [← hnum tier, htier, hnum]⟩

def lastOf (findings : List Finding) (key : String × Nat) : Option Finding :=
  findings.reverse.find? fun f => (f.ruleId, f.tier) = key

theorem lastOf_concat (findings : List Finding) (f : Finding) (key : String × Nat) :
    lastOf (findings ++ [f]) key =
      if (f.ruleId, f.tier) = key then some f else lastOf findings key := by
  simp only [lastOf, reverse_append, reverse_singleton, singleton_append, find?_cons]
  split <;> simp_all

theorem lastOf_eq_none {findings : List Finding} {key : String × Nat} : lastOf findings key = none ↔
      flagText key.1 key.2 ∉ findings.map fun f => flagText f.ruleId f.tier := by
  simp only [lastOf, find?_eq_none, mem_reverse, decide_eq_true_eq, mem_map, not_exists, not_and]
  refine forall₂_congr fun f _ => not_congr ⟨fun h => by rw [← h], fun h => ?_⟩
  obtain ⟨hrule, htier⟩ := flagText_inj h
  rw [hrule, htier]

namespace Flags

variable (fs : Flags) (tenant : String) (call : Uuid) (version : Int)

theorem get?_upsert (f : Finding) (k : FlagKey) : (fs.upsert tenant call version f).table.get? k =
      if k = (call, f.ruleId, f.tier) then some { (fs.table.get? k).getD
        ⟨fs.next, tenant, f.extraction version, {}⟩ with extraction := f.extraction version }
      else fs.table.get? k := by
  unfold upsert
  by_cases hmem : (call, f.ruleId, f.tier) ∈ fs.table.keys
  · rw [if_pos hmem, update, get?_mapVals]
    by_cases hk : k = (call, f.ruleId, f.tier)
    · obtain ⟨row, hrow⟩ := Option.isSome_iff_exists.mp (isSome_get?.mpr hmem)
      simp [hk, hrow]
    · simp [hk]
  rw [if_neg hmem, insert, get?_put]
  by_cases hk : k = (call, f.ruleId, f.tier)
  · rw [if_pos hk, if_pos hk, hk, get?_eq_none.mpr hmem, Option.getD_none]
  · rw [if_neg hk, if_neg hk]

theorem next_le_upsert (f : Finding) : fs.next ≤ (fs.upsert tenant call version f).next := by
  unfold upsert
  dsimp only
  split
  · exact le_rfl
  · exact le_succ _

theorem next_le_upsertAll (findings : List Finding) :
    fs.next ≤ (fs.upsertAll tenant call version findings).next := by
  induction findings generalizing fs with
  | nil => exact le_rfl
  | cons f findings ih => exact (fs.next_le_upsert tenant call version f).trans (ih _)

theorem get?_upsertAll (findings : List Finding) (key : String × Nat) :
    ∃ n, fs.next ≤ n ∧ (fs.upsertAll tenant call version findings).table.get? (call, key) =
      ((lastOf findings key).map fun f => { (fs.table.get? (call, key)).getD
        ⟨n, tenant, f.extraction version, {}⟩ with extraction := f.extraction version }).or
          (fs.table.get? (call, key)) := by
  induction findings using reverseRecOn with
  | nil => exact ⟨fs.next, le_rfl, rfl⟩
  | append_singleton findings f ih =>
    obtain ⟨n, hn, ih⟩ := ih
    have hstep : fs.upsertAll tenant call version (findings ++ [f]) =
        (fs.upsertAll tenant call version findings).upsert tenant call version f :=
      foldl_append
    rw [hstep, get?_upsert, lastOf_concat, ih]
    by_cases hkey : (f.ruleId, f.tier) = key
    · rw [if_pos hkey, if_pos (by rw [hkey])]
      cases fs.table.get? (call, key) with
      | some row => exact ⟨n, hn, by cases lastOf findings key <;> rfl⟩
      | none =>
        cases lastOf findings key with
        | some g => exact ⟨n, hn, rfl⟩
        | none => exact ⟨_, fs.next_le_upsertAll tenant call version findings, rfl⟩
    rw [if_neg hkey, if_neg fun h => hkey (Prod.mk.inj h).2.symm]
    exact ⟨n, hn, rfl⟩

theorem get?_upsertAll_of_ne (findings : List Finding) {k : FlagKey} (hk : k.1 ≠ call) :
    (fs.upsertAll tenant call version findings).table.get? k = fs.table.get? k := by
  induction findings generalizing fs with
  | nil => rfl
  | cons f findings ih =>
    refine (ih _).trans ?_
    rw [get?_upsert, if_neg fun h : k = _ => hk (h ▸ rfl)]

end Flags

variable {tenant : String} {call : Uuid} {version : Int} {findings : List Finding}

structure Saved (tenant : String) (call : Uuid) (version : Int) (findings : List Finding)
    (old new : Flags) : Prop where
  found : ∀ key f, lastOf findings key = some f → ∃ n, old.next ≤ n ∧
    new.table.get? (call, key) = some { (old.table.get? (call, key)).getD
      ⟨n, tenant, f.extraction version, {}⟩ with extraction := f.extraction version }
  absent : ∀ key, lastOf findings key = none → new.table.get? (call, key) =
    (old.table.get? (call, key)).filter fun row => ¬ row.review.Untouched
  other : ∀ k : FlagKey, k.1 ≠ call → new.table.get? k = old.table.get? k

theorem saved_deleteStale (fs : Flags) :
    Saved tenant call version findings fs ((fs.upsertAll tenant call version findings).deleteStale
      call (findings.map fun f => flagText f.ruleId f.tier)) where
  found key f hf := by
    obtain ⟨n, hn, hget⟩ := fs.get?_upsertAll tenant call version findings key
    have hmem := mt lastOf_eq_none.mpr (hf ▸ Option.some_ne_none f)
    refine ⟨n, hn, ?_⟩
    rw [Flags.deleteStale, Flags.filter, get?_filter, hget, hf]
    simp_all
  absent key hnone := by
    obtain ⟨n, -, hget⟩ := fs.get?_upsertAll tenant call version findings key
    have hnot := lastOf_eq_none.mp hnone
    rw [Flags.deleteStale, Flags.filter, get?_filter, hget, hnone]
    simp [hnot]
  other k hk := by
    rw [Flags.deleteStale, Flags.filter, get?_filter, Flags.get?_upsertAll_of_ne _ _ _ _ _ hk]
    cases fs.table.get? k <;> simp [hk]

theorem Saved.idem {old new again : Flags} (h : Saved tenant call version findings old new)
    (h' : Saved tenant call version findings new again) (k : FlagKey) :
    again.table.get? k = new.table.get? k := by
  by_cases hk : k.1 = call
  · obtain ⟨_, key⟩ := k
    obtain rfl : _ = call := hk
    cases hlast : lastOf findings key with
    | none =>
      rw [h'.absent key hlast, h.absent key hlast, Option.filter_filter]
      simp
    | some f =>
      obtain ⟨n, -, hnew⟩ := h.found key f hlast
      obtain ⟨m, -, hagain⟩ := h'.found key f hlast
      rw [hagain, hnew, Option.getD_some]
  · exact h'.other k hk

end Sentinel.Workers
