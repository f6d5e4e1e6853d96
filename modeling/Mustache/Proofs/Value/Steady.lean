import Mustache.Proofs.Value.Occurs

/-!
# Lambdas that do not count their calls

A lambda may answer each call in another way. If it does not, it does not matter how often it has
been called. Names and expressions then find the same after calls that differ in such lambdas only.

* `Calls.EqualBut`: calls that differ in the lambdas of some numbers; `Calls.SameResult`: the same
  result after related calls;
* `Value.Steady`: lambdas of these numbers do not count their calls; `Value.Pure`: no lambda does
  that is followed;
* `Steady.settle`, `Steady.child?`, `Steady.climb`, `Steady.descend`, **`Steady.resolve`**.
-/

namespace Mustache

/-! ## Calls -/

namespace Calls

/-- Other lambdas than those of the numbers have been called as often. -/
def EqualBut (p : Nat → Prop) (calls calls' : Calls) : Prop :=
  ∀ n, ¬ p n → calls'.count n = calls.count n

/-- The same result, after related calls. -/
def SameResult (K : Calls → Calls → Prop) {α : Type} (r r' : α × Calls) : Prop :=
  ∃ x after after', r = (x, after) ∧ r' = (x, after') ∧ K after after'

theorem count_bump (calls : Calls) (number n : Nat) :
    (calls.bump number).count n = if n = number then calls.count number + 1 else calls.count n := by
  unfold bump
  rw [count, Entries.lookup_put]
  by_cases h : n = number
  · simp [h]
  · simp [h, count]

variable {K : Calls → Calls → Prop} {p : Nat → Prop} {calls calls' calls'' : Calls}

theorem SameResult.of {α : Type} (x : α) (h : K calls calls') :
    SameResult K (x, calls) (x, calls') :=
  ⟨x, calls, calls', rfl, rfl, h⟩

namespace EqualBut

theorem refl (p : Nat → Prop) (calls : Calls) : EqualBut p calls calls := fun _ _ => rfl

theorem symm (h : EqualBut p calls calls') : EqualBut p calls' calls := fun n hn => (h n hn).symm

theorem trans (h : EqualBut p calls calls') (h' : EqualBut p calls' calls'') :
    EqualBut p calls calls'' := fun n hn => (h' n hn).trans (h n hn)

/-- One more call of the same lambda. -/
theorem bump (h : EqualBut p calls calls') (number : Nat) :
    EqualBut p (calls.bump number) (calls'.bump number) := by
  intro n hn
  rw [count_bump, count_bump]
  by_cases he : n = number
  · subst he
    rw [if_pos rfl, if_pos rfl, h n hn]
  · rw [if_neg he, if_neg he, h n hn]

/-- If all lambdas may differ, any calls are related. -/
theorem all (calls calls' : Calls) : EqualBut (fun _ => True) calls calls' :=
  fun _ hn => absurd trivial hn

end EqualBut

end Calls

/-! ## Values -/

namespace Value

/-- If the value is a lambda of one of the numbers, it answers a text alike at every call. -/
def Steady (p : Nat → Prop) (v : Value) : Prop :=
  ∀ number answer, v = .lambda number answer → p number → ∀ n input, answer n input = answer 0 input

/-- If the value is a lambda, it answers a text alike at every call, and so does its answer. -/
def Pure : Value → Prop
  | .lambda _ answer => ∀ input, (∀ n, answer n input = answer 0 input) ∧ Pure (answer 0 input)
  | _ => True

/-- A lambda that is pure is followed to the same value, whatever has been called before. -/
theorem Pure.settle {v : Value} (hv : v.Pure) (input : String) (calls calls' : Calls) :
    (v.settle input calls').1 = (v.settle input calls).1 := by
  fun_induction Value.settle input v calls generalizing calls' with
  | case1 number answer calls ih =>
    obtain ⟨hanswer, hpure⟩ := hv input
    rw [hanswer] at ih
    rw [Value.settle, hanswer (calls'.count number), hanswer (calls.count number)]
    exact ih hpure _
  | case2 v calls hl =>
    rw [Value.settle]
    exact hl

theorem Pure.steady {v : Value} (hv : v.Pure) (p : Nat → Prop) : v.Steady p := by
  rintro number answer rfl - n input
  exact (hv input).1 n

theorem stable_steady (p : Nat → Prop) : Stable (Steady p) where
  bool _ := nofun
  int _ := nofun
  float _ := nofun
  reversed _ := nofun
  sorted _ _ := nofun
  enumerated _ := nofun
  text _ _ := nofun
  key _ _ := nofun
  entry _ _ := nofun

theorem Everywhere.steady {v : Value} (hv : v.Everywhere Pure) (p : Nat → Prop) :
    v.Everywhere (Steady p) := fun u hu => (hv u hu).steady p

namespace Steady

open Calls

variable {p : Nat → Prop} {calls calls' : Calls}

/-- A lambda gives the same answer. -/
theorem answer {number : Nat} {answer : Nat → String → Value}
    (hv : Everywhere (Steady p) (.lambda number answer)) (hk : EqualBut p calls calls')
    (input : String) :
    answer (calls'.count number) input = answer (calls.count number) input := by
  by_cases hp : p number
  · have hs := hv.here number answer rfl hp
    rw [hs (calls'.count number), hs (calls.count number)]
  · rw [hk number hp]

theorem settle {v : Value} (hv : v.Everywhere (Steady p)) (hk : EqualBut p calls calls')
    (input : String) : SameResult (EqualBut p) (v.settle input calls) (v.settle input calls') := by
  fun_induction Value.settle input v calls generalizing calls' with
  | case1 number answer calls ih =>
    rw [Value.settle, Steady.answer hv hk]
    exact ih (hv.part (.answer _ _ _ _)) (hk.bump number)
  | case2 v calls hl =>
    rw [Value.settle]
    · exact .of _ hk
    · exact hl

theorem child? {v : Value} (hv : v.Everywhere (Steady p)) (hk : EqualBut p calls calls')
    (name : String) : SameResult (EqualBut p) (v.child? name calls) (v.child? name calls') := by
  fun_induction Value.child? name v calls generalizing calls' with
  | case1 | case2 => exact .of _ hk
  | case3 number answer calls ih =>
    rw [Value.child?, Steady.answer hv hk]
    exact ih (hv.part (.answer _ _ _ _)) (hk.bump number)
  | case4 v calls hmap hobject hlambda =>
    rw [Value.child?]
    · exact .of _ hk
    · exact hmap
    · exact hobject
    · exact hlambda

theorem descend {names : List String} {v : Value} (hv : v.Everywhere (Steady p))
    (hk : EqualBut p calls calls') :
    SameResult (EqualBut p) (Mustache.descend names v calls) (Mustache.descend names v calls') := by
  induction names generalizing v calls calls' with
  | nil => exact .of _ hk
  | cons name names ih =>
    obtain ⟨found, after, after', h, h', hafter⟩ := child? hv hk name
    rw [Mustache.descend, Mustache.descend, h, h']
    cases found with
    | none => exact .of _ hafter
    | some u => exact ih (hv.child? (by rw [h])) hafter

theorem climb {objects : List Value} (ho : ∀ v ∈ objects, v.Everywhere (Steady p))
    (hk : EqualBut p calls calls') (name : String) :
    SameResult (EqualBut p) (Mustache.climb name objects calls)
      (Mustache.climb name objects calls') := by
  induction objects generalizing calls calls' with
  | nil => exact .of _ hk
  | cons v objects ih =>
    obtain ⟨hv, hobjects⟩ := List.forall_mem_cons.mp ho
    obtain ⟨found, after, after', h, h', hafter⟩ := child? hv hk name
    rw [Mustache.climb, Mustache.climb, h, h']
    cases found with
    | none => exact ih hobjects hafter
    | some u => exact .of _ hafter

section

variable {c : Context} (hc : ∀ v ∈ c.top :: c.below, v.Everywhere (Steady p))
  (hk : EqualBut p calls calls') (e : Expression)

include hc hk

theorem resolveName :
    SameResult (EqualBut p) (Mustache.resolveName c e calls) (Mustache.resolveName c e calls') := by
  unfold Mustache.resolveName
  split_ifs
  · exact .of _ hk
  · exact .of _ hk
  · split
    · exact descend (hc _ List.mem_cons_self) hk
    · split
      · exact .of _ hk
      · rename_i first names _
        obtain ⟨found, after, after', h, h', hafter⟩ := climb hc hk first
        rw [h, h']
        cases found with
        | none => exact .of _ hafter
        | some v => exact descend (everywhere_climb hc (by rw [h])) hafter

/-- **Expressions resolve to the same values** after calls that differ in steady lambdas only. -/
theorem resolve :
    SameResult (EqualBut p) (Mustache.resolve c e calls) (Mustache.resolve c e calls') := by
  obtain ⟨found, after, after', h, h', hafter⟩ := resolveName hc hk e
  rw [Mustache.resolve, Mustache.resolve, h, h']
  cases found with
  | none => exact .of _ hafter
  | some v => exact .of _ hafter

end

end Steady

end Value

end Mustache
