import Mathlib.Data.List.Basic
import Mathlib.Data.Option.Basic

/-! Runs of a machine that takes one action at a time, and what every one of them keeps. -/
namespace Runs

variable {S A : Type} (step : S → A → Option S)

/-- The state after all the actions, when every one of them has ended. -/
def run (s : S) (actions : List A) : Option S := actions.foldlM step s

@[simp] theorem run_nil (s : S) : run step s [] = some s := rfl

@[simp] theorem run_cons (s : S) (a : A) (rest : List A) :
    run step s (a :: rest) = (step s a).bind fun t => run step t rest := rfl

theorem run_append (s : S) (first second : List A) :
    run step s (first ++ second) = (run step s first).bind fun t => run step t second := by
  induction first generalizing s with
  | nil => rfl
  | cons a rest ih =>
    rw [List.cons_append, run_cons, run_cons, Option.bind_assoc]
    exact Option.bind_congr fun t _ => ih t

def Guarded (C : S → A → Prop) : S → List A → Prop
  | _, [] => True
  | s, a :: rest => C s a ∧ ∀ t, step s a = some t → Guarded C t rest

variable {step}

theorem Guarded.cons {C : S → A → Prop} {s t : S} {a : A} {rest : List A} (allowed : C s a)
    (moved : step s a = some t) (later : Guarded step C t rest) : Guarded step C s (a :: rest) :=
  ⟨allowed, fun _ same => Option.some.inj (moved.symm.trans same) ▸ later⟩

theorem guarded_of_forall {C : S → A → Prop} (s : S) {actions : List A}
    (allowed : ∀ a ∈ actions, ∀ s, C s a) : Guarded step C s actions := by
  induction actions generalizing s with
  | nil => trivial
  | cons a rest ih =>
    exact ⟨allowed a List.mem_cons_self s,
      fun t _ => ih t fun b member => allowed b (List.mem_cons_of_mem a member)⟩

theorem invariant_of_guarded {C : S → A → Prop} {I : S → Prop}
    (keeps : ∀ s a t, I s → C s a → step s a = some t → I t) {s t : S} {actions : List A}
    (start : I s) (guarded : Guarded step C s actions) (reached : run step s actions = some t) :
    I t := by
  induction actions generalizing s with
  | nil => exact Option.some.inj reached ▸ start
  | cons a rest ih =>
    rw [run_cons] at reached
    obtain ⟨u, moved, reached⟩ := Option.bind_eq_some_iff.mp reached
    exact ih (keeps s a u start guarded.1 moved) (guarded.2 u moved) reached

/-- Every step of the run, as far as it goes, is one of `P`. -/
def Throughout (step : S → A → Option S) (P : S → A → S → Prop) : S → List A → Prop
  | _, [] => True
  | s, a :: rest => ∀ t, step s a = some t → P s a t ∧ Throughout step P t rest

theorem Throughout.at_step {P : S → A → S → Prop} {s u v : S} {first rest : List A} {a : A}
    (every : Throughout step P s (first ++ a :: rest)) (before : run step s first = some u)
    (moved : step u a = some v) : P u a v := by
  induction first generalizing s with
  | nil =>
    obtain rfl : s = u := Option.some.inj before
    exact (every v moved).1
  | cons b first ih =>
    rw [run_cons] at before
    obtain ⟨w, earlier, before⟩ := Option.bind_eq_some_iff.mp before
    exact ih (every w earlier).2 before

/-- Where a step is one of `P` exactly if `C` allows it, a run is one of `P` throughout exactly if
`C` allows every step of it. -/
theorem throughout_iff_guarded {C : S → A → Prop} {P : S → A → S → Prop} {I : S → Prop}
    (exact' : ∀ s a t, I s → step s a = some t → (P s a t ↔ C s a))
    (keeps : ∀ s a t, I s → step s a = some t → P s a t → I t) {s t : S} {actions : List A}
    (start : I s) (reached : run step s actions = some t) :
    Throughout step P s actions ↔ Guarded step C s actions := by
  induction actions generalizing s with
  | nil => exact Iff.rfl
  | cons a rest ih =>
    rw [run_cons] at reached
    obtain ⟨u, moved, reached⟩ := Option.bind_eq_some_iff.mp reached
    constructor
    · intro every
      obtain ⟨here, later⟩ := every u moved
      exact Guarded.cons ((exact' s a u start moved).mp here) moved
        ((ih (keeps s a u start moved here) reached).mp later)
    · rintro ⟨allowed, later⟩ v moved'
      obtain rfl : u = v := Option.some.inj (moved.symm.trans moved')
      have here := (exact' s a u start moved).mpr allowed
      exact ⟨here, (ih (keeps s a u start moved here) reached).mpr (later u moved)⟩

theorem guarded_true (s : S) (actions : List A) : Guarded step (fun _ _ => True) s actions :=
  guarded_of_forall s fun _ _ _ => trivial

theorem invariant {I : S → Prop} (keeps : ∀ s a t, I s → step s a = some t → I t) {s t : S}
    {actions : List A} (start : I s) (reached : run step s actions = some t) : I t :=
  invariant_of_guarded (fun s a t held _ => keeps s a t held) start (guarded_true s actions)
    reached

end Runs
