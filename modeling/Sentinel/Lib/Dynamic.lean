import Sentinel.Lib.Schema

/-!
# JSON values in a dynamically typed program

A program without static types finds out that a value is not what it expected when it uses it.
-/

namespace JsonNum

def truncate? : JsonNum → Option Int
  | .int n => some n
  | .float q => some (q.num.tdiv q.den)
  | _ => none

end JsonNum

namespace Json

def truthy : Json → Bool
  | .null => false
  | .bool b => b
  | .num (.int n) => n ≠ 0
  | .num (.float q) => q.num ≠ 0
  | .num _ => true
  | .str s => s ≠ ""
  | .arr items => !items.isEmpty
  | .obj fields => !fields.isEmpty

def orDefault (v : Option Json) (default : Json) : Json := (v.filter truthy).getD default

def distinct : List (String × Json) → List (String × Json)
  | [] => []
  | f :: fields => f :: (distinct fields).filter fun g => g.1 ≠ f.1

def getField? (v : Json) (name : String) : Option (Option Json) :=
  match v with
  | .obj fields => some (fields.lookup name)
  | _ => none

def items? : Json → Option (List (String × Json))
  | .obj fields => some (distinct fields)
  | _ => none

def iterate? : Json → Option (List Json)
  | .arr items => some items
  | .obj fields => some ((distinct fields).map fun f => .str f.1)
  | .str s => some (s.toList.map fun c => .str (String.singleton c))
  | _ => none

def toInt? (read : String → Option Int) : Json → Option Int
  | .bool b => some (if b then 1 else 0)
  | .num x => x.truncate?
  | .str s => read s
  | _ => none

end Json

namespace List

variable {α β : Type}

theorem mapM_eq_none {f : α → Option β} {l : List α} : l.mapM f = none ↔ ∃ a ∈ l, f a = none := by
  induction l with
  | nil => simp
  | cons a l ih =>
    rw [mapM_cons]
    cases h : f a with
    | none => simp [h]
    | some b =>
      cases hl : l.mapM f with
      | none | some => simpa [h, hl] using ih

theorem mapM_eq_some {f : α → Option β} {l : List α} {bs : List β} :
    l.mapM f = some bs ↔ l.map f = bs.map some := by
  induction l generalizing bs with
  | nil => cases bs <;> simp
  | cons a l ih =>
    rw [mapM_cons]
    cases h : f a with
    | none => cases bs <;> simp [h]
    | some b =>
      cases bs with
      | nil => cases l.mapM f <;> simp
      | cons b' bs =>
        cases hl : l.mapM f with
        | none =>
          have hne : l.map f ≠ bs.map some := fun he => by simpa [hl] using ih.mpr he
          simp [h, hne]
        | some cs =>
          have hcs := ih.mp hl
          simp [h, hcs, map_inj_right]

end List
