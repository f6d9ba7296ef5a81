import Mathlib.Order.Defs.Unbundled

/-! Procedures over a state, with two ways to end and one way not to: a call returns a
value, raises an error, or is still waiting. Nothing here knows which program the
procedures belong to. -/
namespace Procedures

inductive Outcome (S E A : Type) where
  | returned (value : A) (state : S)
  | raised (error : E) (state : S)
  | waiting (state : S)
  deriving DecidableEq

def Procedure (S E A : Type) := S → Outcome S E A

namespace Outcome

variable {S E A B : Type}

def state : Outcome S E A → S
  | returned _ s | raised _ s | waiting s => s

def andThen : Outcome S E A → (A → Procedure S E B) → Outcome S E B
  | returned a s, next => next a s
  | raised e s, _ => raised e s
  | waiting s, _ => waiting s

/-- The error as a value, for a caller that decides on it. -/
def captured : Outcome S E A → Outcome S E (Except E A)
  | returned a s => returned (.ok a) s
  | raised e s => returned (.error e) s
  | waiting s => waiting s

/-- Partial correctness: nothing is asked of a call that has not ended. -/
def Meets (Q : A → S → Prop) (R : E → S → Prop) : Outcome S E A → Prop
  | returned a s => Q a s
  | raised e s => R e s
  | waiting _ => True

def returnsWith (p : A → S → Bool) : Outcome S E A → Bool
  | returned a s => p a s
  | _ => false

def ended : Outcome S E A → Option S
  | returned _ s | raised _ s => some s
  | waiting _ => none

@[simp] theorem state_returned (a : A) (s : S) : (returned a s : Outcome S E A).state = s := rfl
@[simp] theorem state_raised (e : E) (s : S) : (raised e s : Outcome S E A).state = s := rfl
@[simp] theorem state_waiting (s : S) : (waiting s : Outcome S E A).state = s := rfl

@[simp] theorem andThen_returned (a : A) (s : S) (next : A → Procedure S E B) :
    (returned a s).andThen next = next a s := rfl
@[simp] theorem andThen_raised (e : E) (s : S) (next : A → Procedure S E B) :
    (raised e s).andThen next = raised e s := rfl
@[simp] theorem andThen_waiting (s : S) (next : A → Procedure S E B) :
    (waiting s).andThen next = waiting s := rfl

@[simp] theorem captured_returned (a : A) (s : S) :
    (returned a s : Outcome S E A).captured = returned (.ok a) s := rfl
@[simp] theorem captured_raised (e : E) (s : S) :
    (raised e s : Outcome S E A).captured = returned (.error e) s := rfl
@[simp] theorem captured_waiting (s : S) :
    (waiting s : Outcome S E A).captured = waiting s := rfl

@[simp] theorem meets_returned (Q : A → S → Prop) (R : E → S → Prop) (a : A) (s : S) :
    (returned a s).Meets Q R ↔ Q a s := Iff.rfl
@[simp] theorem meets_raised (Q : A → S → Prop) (R : E → S → Prop) (e : E) (s : S) :
    (raised e s).Meets Q R ↔ R e s := Iff.rfl
@[simp] theorem meets_waiting (Q : A → S → Prop) (R : E → S → Prop) (s : S) :
    (waiting s).Meets Q R ↔ True := Iff.rfl

@[simp] theorem ended_returned (a : A) (s : S) :
    (returned a s : Outcome S E A).ended = some s := rfl
@[simp] theorem ended_raised (e : E) (s : S) :
    (raised e s : Outcome S E A).ended = some s := rfl
@[simp] theorem ended_waiting (s : S) : (waiting s : Outcome S E A).ended = none := rfl

theorem raised_ne_returned (e : E) (s : S) (a : A) (t : S) : raised e s ≠ returned a t := nofun

theorem waiting_ne_returned (s : S) (a : A) (t : S) :
    (waiting s : Outcome S E A) ≠ returned a t := nofun

theorem Meets.weaken {Q Q' : A → S → Prop} {R R' : E → S → Prop} {o : Outcome S E A}
    (meets : o.Meets Q R) (returns : ∀ a s, Q a s → Q' a s) (raises : ∀ e s, R e s → R' e s) :
    o.Meets Q' R' := by
  cases o with
  | returned a s => exact returns a s meets
  | raised e s => exact raises e s meets
  | waiting s => trivial

theorem Meets.ended {I : S → Prop} {o : Outcome S E A} {s : S}
    (meets : o.Meets (fun _ => I) (fun _ => I)) (ends : o.ended = some s) : I s := by
  cases o with
  | returned a t => exact Option.some.inj ends ▸ meets
  | raised e t => exact Option.some.inj ends ▸ meets
  | waiting t => cases ends

end Outcome

namespace Procedure

variable {S E A B : Type}

def raise (e : E) : Procedure S E A := fun s => .raised e s
def wait : Procedure S E A := fun s => .waiting s
def read : Procedure S E S := fun s => .returned s s
def update (f : S → S) : Procedure S E Unit := fun s => .returned () (f s)

def capture (m : Procedure S E A) : Procedure S E (Except E A) := fun s => (m s).captured

def focus {T : Type} (get : S → T) (put : S → T → S) (m : Procedure T E A) : Procedure S E A :=
  fun s => match m (get s) with
  | .returned a t => .returned a (put s t)
  | .raised e t => .raised e (put s t)
  | .waiting t => .waiting (put s t)

/-- A procedure whose errors are told under other names. -/
def mapError {F : Type} (f : E → F) (m : Procedure S E A) : Procedure S F A := fun s =>
  match m s with
  | .returned a t => .returned a t
  | .raised e t => .raised (f e) t
  | .waiting t => .waiting t

instance : Monad (Procedure S E) where
  pure a := fun s => .returned a s
  bind m f := fun s => (m s).andThen f

@[simp] theorem pure_apply (a : A) (s : S) : (pure a : Procedure S E A) s = .returned a s := rfl
@[simp] theorem raise_apply (e : E) (s : S) : (raise e : Procedure S E A) s = .raised e s := rfl
@[simp] theorem wait_apply (s : S) : (wait : Procedure S E A) s = .waiting s := rfl
@[simp] theorem read_apply (s : S) : (read : Procedure S E S) s = .returned s s := rfl
@[simp] theorem update_apply (f : S → S) (s : S) :
    (update f : Procedure S E Unit) s = .returned () (f s) := rfl

@[simp] theorem capture_apply (m : Procedure S E A) (s : S) :
    capture m s = (m s).captured := rfl
@[simp] theorem bind_apply (m : Procedure S E A) (f : A → Procedure S E B) (s : S) :
    (m >>= f) s = (m s).andThen f := rfl

/-- From every state in `P`, a return lands in `Q` and a raised error in `R`. -/
def Triple (P : S → Prop) (m : Procedure S E A) (Q : A → S → Prop) (R : E → S → Prop) : Prop :=
  ∀ s, P s → (m s).Meets Q R

variable {P P' : S → Prop} {Q Q' : A → S → Prop} {R R' : E → S → Prop}

theorem Triple.pure {a : A} (holds : ∀ s, P s → Q a s) :
    Triple P (pure a : Procedure S E A) Q R := holds

theorem Triple.raise {e : E} (holds : ∀ s, P s → R e s) :
    Triple P (raise e : Procedure S E A) Q R := holds

theorem Triple.wait : Triple P (wait : Procedure S E A) Q R := fun _ _ => trivial

theorem Triple.read {Q : S → S → Prop} (holds : ∀ s, P s → Q s s) :
    Triple P (read : Procedure S E S) Q R := holds

theorem Triple.update {f : S → S} {Q : Unit → S → Prop} (holds : ∀ s, P s → Q () (f s)) :
    Triple P (update f : Procedure S E Unit) Q R := holds

theorem Triple.bind {m : Procedure S E A} {f : A → Procedure S E B} {M : A → S → Prop}
    {Q : B → S → Prop} (first : Triple P m M R) (next : ∀ a, Triple (M a) (f a) Q R) :
    Triple P (m >>= f) Q R := by
  intro s start
  have h := first s start
  rw [bind_apply]
  cases outcome : m s with
  | returned a t =>
    rw [outcome] at h
    exact next a t h
  | raised e t =>
    rw [outcome] at h
    exact h
  | waiting t => trivial

theorem Triple.map {m : Procedure S E A} {f : A → B} {Q : B → S → Prop}
    (body : Triple P m (fun a => Q (f a)) R) : Triple P (f <$> m) Q R :=
  Triple.bind body fun _ => Triple.pure fun _ held => held

theorem Triple.capture {m : Procedure S E A} {Q : Except E A → S → Prop} {R' : E → S → Prop}
    (body : Triple P m (fun a => Q (.ok a)) (fun e => Q (.error e))) :
    Triple P (capture m) Q R' := by
  intro s start
  have h := body s start
  rw [capture_apply]
  cases outcome : m s with
  | returned a t => rw [outcome] at h; exact h
  | raised e t => rw [outcome] at h; exact h
  | waiting t => trivial

theorem Triple.captured {m : Procedure S E A} {f : Except E A → Procedure S E B}
    {Q' : B → S → Prop} (body : Triple P m Q R) (ok : ∀ a, Triple (Q a) (f (.ok a)) Q' R')
    (error : ∀ e, Triple (R e) (f (.error e)) Q' R') :
    Triple P (Procedure.capture m >>= f) Q' R' := by
  intro s start
  have h := body s start
  rw [bind_apply, capture_apply]
  cases outcome : m s with
  | returned a t =>
    rw [outcome] at h
    exact ok a t h
  | raised e t =>
    rw [outcome] at h
    exact error e t h
  | waiting t => trivial

theorem Triple.consequence {m : Procedure S E A} (body : Triple P m Q R)
    (start : ∀ s, P' s → P s) (returns : ∀ a s, Q a s → Q' a s)
    (raises : ∀ e s, R e s → R' e s) : Triple P' m Q' R' :=
  fun s holds => (body s (start s holds)).weaken returns raises

theorem Triple.both {m : Procedure S E A} (left : Triple P m Q R) (right : Triple P m Q' R') :
    Triple P m (fun a s => Q a s ∧ Q' a s) (fun e s => R e s ∧ R' e s) := by
  intro s start
  have l := left s start
  have r := right s start
  cases outcome : m s with
  | returned a t => rw [outcome] at l r; exact ⟨l, r⟩
  | raised e t => rw [outcome] at l r; exact ⟨l, r⟩
  | waiting t => trivial

theorem focus_meets {T : Type} {get : S → T} {put : S → T → S} {m : Procedure T E A} {s : S}
    (part : (m (get s)).Meets (fun a t => Q a (put s t)) (fun e t => R e (put s t))) :
    (focus get put m s).Meets Q R := by
  unfold focus
  cases outcome : m (get s) with
  | returned a t => rw [outcome] at part; exact part
  | raised e t => rw [outcome] at part; exact part
  | waiting t => trivial

theorem mapError_meets {F : Type} {f : E → F} {m : Procedure S E A} {s : S} {R : F → S → Prop}
    (body : (m s).Meets Q (fun e t => R (f e) t)) : (mapError f m s).Meets Q R := by
  unfold mapError
  cases outcome : m s with
  | returned a t => rw [outcome] at body; exact body
  | raised e t => rw [outcome] at body; exact body
  | waiting t => trivial

theorem Triple.also {m : Procedure S E A} (p : Prop) (body : Triple P m Q R) :
    Triple (fun s => P s ∧ p) m (fun a s => Q a s ∧ p) (fun e s => R e s ∧ p) :=
  fun s held => (body s held.1).weaken (fun _ _ h => ⟨h, held.2⟩) (fun _ _ h => ⟨h, held.2⟩)

theorem Triple.given {m : Procedure S E A} {p : Prop} (body : p → Triple P m Q R) :
    Triple (fun s => P s ∧ p) m Q R := fun s held => body held.2 s held.1

theorem Triple.after (m : Procedure S E A) {f : A → Procedure S E B} {Q : B → S → Prop}
    (next : ∀ a, Triple (fun _ => True) (f a) Q (fun _ _ => True)) :
    Triple P (m >>= f) Q (fun _ _ => True) := by
  refine Triple.bind (M := fun _ _ => True) (fun s _ => ?_) next
  cases m s <;> trivial

theorem Triple.choose {c : Prop} [Decidable c] {m n : Procedure S E A}
    (yes : c → Triple P m Q R) (no : ¬c → Triple P n Q R) :
    Triple P (if c then m else n) Q R := by
  split
  · rename_i h; exact yes h
  · rename_i h; exact no h

theorem bind_congr_of {m : Procedure S E A} {f g : A → Procedure S E B} {M : A → S → Prop} {s : S}
    (first : (m s).Meets M fun _ _ => True) (next : ∀ a t, M a t → f a t = g a t) :
    (m >>= f) s = (m >>= g) s := by
  rw [bind_apply, bind_apply]
  cases outcome : m s with
  | returned a t =>
    rw [outcome] at first
    exact next a t first
  | raised e t => rfl
  | waiting t => rfl

/-- Whatever the part was, it is the same when the call has ended. -/
def Fixes {V : Type} (view : S → V) (m : Procedure S E A) : Prop :=
  ∀ v, Triple (fun s => view s = v) m (fun _ s => view s = v) (fun _ s => view s = v)

section

variable {V : Type} {view : S → V}

theorem Fixes.pure (a : A) : Fixes view (pure a : Procedure S E A) :=
  fun _ => Triple.pure fun _ same => same

theorem Fixes.raise (e : E) : Fixes view (raise e : Procedure S E A) :=
  fun _ => Triple.raise fun _ same => same

theorem Fixes.read : Fixes view (read : Procedure S E S) := fun _ => Triple.read fun _ same => same

theorem Fixes.wait : Fixes view (wait : Procedure S E A) := fun _ => Triple.wait

theorem Fixes.update {f : S → S} (same : ∀ s, view (f s) = view s) :
    Fixes view (update f : Procedure S E Unit) :=
  fun _ => Triple.update fun s held => (same s).trans held

theorem Fixes.bind {m : Procedure S E A} {f : A → Procedure S E B} (first : Fixes view m)
    (next : ∀ a, Fixes view (f a)) : Fixes view (m >>= f) :=
  fun v => Triple.bind (first v) fun a => next a v

theorem Fixes.capture {m : Procedure S E A} (body : Fixes view m) : Fixes view (capture m) :=
  fun v => Triple.capture (body v)

theorem Fixes.choose {c : Prop} [Decidable c] {m n : Procedure S E A} (yes : c → Fixes view m)
    (no : ¬c → Fixes view n) : Fixes view (if c then m else n) :=
  fun v => Triple.choose (fun h => yes h v) fun h => no h v

theorem Fixes.mapError {F : Type} {f : E → F} {m : Procedure S E A} (body : Fixes view m) :
    Fixes view (mapError f m) := fun v s held => mapError_meets (body v s held)

theorem Fixes.focus {T : Type} {get : S → T} {put : S → T → S} {m : Procedure T E A}
    {part : T → V} (body : Fixes part m) (into : ∀ s, part (get s) = view s)
    (back : ∀ s t, view (put s t) = part t) : Fixes view (focus get put m) := by
  intro v s held
  apply focus_meets
  apply (body v (get s) ((into s).trans held)).weaken
  · exact fun _ t same => (back s t).trans same
  · exact fun _ t same => (back s t).trans same

theorem Fixes.apart {T : Type} {get : S → T} {put : S → T → S} (m : Procedure T E A)
    (same : ∀ s t, view (put s t) = view s) : Fixes view (Procedure.focus get put m) := by
  intro v s held
  apply focus_meets
  cases m (get s) with
  | returned a t => exact (same s t).trans held
  | raised e t => exact (same s t).trans held
  | waiting t => trivial

theorem Fixes.comp {W : Type} {m : Procedure S E A} (fixes : Fixes view m) (f : V → W) :
    Fixes (fun s => f (view s)) m := by
  intro w s held
  apply (fixes (view s) s rfl).weaken
  · exact fun _ t same => (congrArg f same).trans held
  · exact fun _ t same => (congrArg f same).trans held

theorem Fixes.prod {W : Type} {other : S → W} {m : Procedure S E A} (left : Fixes view m)
    (right : Fixes other m) : Fixes (fun s => (view s, other s)) m := by
  rintro ⟨v, w⟩ s held
  obtain ⟨here, there⟩ := Prod.mk.inj held
  have first := left v s here
  have second := right w s there
  cases outcome : m s with
  | returned a t => rw [outcome] at first second; exact Prod.ext first second
  | raised e t => rw [outcome] at first second; exact Prod.ext first second
  | waiting t => trivial

theorem Fixes.keeps {m : Procedure S E A} (fixes : Fixes view m) (P : V → Prop) :
    Triple (fun s => P (view s)) m (fun _ s => P (view s)) fun _ s => P (view s) := by
  intro s held
  apply (fixes (view s) s rfl).weaken
  · exact fun _ t same => same ▸ held
  · exact fun _ t same => same ▸ held

theorem Fixes.ended {m : Procedure S E A} (fixes : Fixes view m) {s t : S}
    (ends : (m s).ended = some t) : view t = view s :=
  Outcome.Meets.ended (I := fun t => view t = view s) (fixes (view s) s rfl) ends

end

def WaitsIn (W : S → Prop) (m : Procedure S E A) : Prop := ∀ s t, m s = .waiting t → W t

variable {W : S → Prop}

theorem WaitsIn.pure (a : A) : WaitsIn W (pure a : Procedure S E A) := nofun

theorem WaitsIn.raise (e : E) : WaitsIn W (raise e : Procedure S E A) := nofun

theorem WaitsIn.read : WaitsIn W (read : Procedure S E S) := nofun

theorem WaitsIn.bind {m : Procedure S E A} {f : A → Procedure S E B} (first : WaitsIn W m)
    (next : ∀ a, WaitsIn W (f a)) : WaitsIn W (m >>= f) := by
  intro s t waits
  rw [bind_apply] at waits
  cases outcome : m s with
  | returned a u =>
    rw [outcome] at waits
    exact next a u t waits
  | raised e u => rw [outcome] at waits; cases waits
  | waiting u =>
    rw [outcome] at waits
    cases waits
    exact first s _ outcome

theorem WaitsIn.capture {m : Procedure S E A} (body : WaitsIn W m) : WaitsIn W (capture m) := by
  intro s t waits
  rw [capture_apply] at waits
  cases outcome : m s with
  | returned a u => rw [outcome] at waits; cases waits
  | raised e u => rw [outcome] at waits; cases waits
  | waiting u =>
    rw [outcome] at waits
    cases waits
    exact body s _ outcome

/-- The procedure returns or raises, from every state. -/
def Ends (m : Procedure S E A) : Prop := ∀ s, (m s).ended.isSome

theorem Ends.pure (a : A) : Ends (pure a : Procedure S E A) := fun _ => rfl

theorem Ends.raise (e : E) : Ends (raise e : Procedure S E A) := fun _ => rfl

theorem Ends.read : Ends (read : Procedure S E S) := fun _ => rfl

theorem Ends.update (f : S → S) : Ends (update f : Procedure S E Unit) := fun _ => rfl

theorem Ends.bind {m : Procedure S E A} {f : A → Procedure S E B} (first : Ends m)
    (next : ∀ a, Ends (f a)) : Ends (m >>= f) := by
  intro s
  have h := first s
  rw [bind_apply]
  cases outcome : m s with
  | returned a t => exact next a t
  | raised e t => rfl
  | waiting t => rw [outcome] at h; cases h

theorem Ends.capture {m : Procedure S E A} (body : Ends m) : Ends (capture m) := by
  intro s
  have h := body s
  rw [capture_apply]
  cases outcome : m s with
  | returned a t => rfl
  | raised e t => rfl
  | waiting t => rw [outcome] at h; cases h

theorem Ends.choose {c : Prop} [Decidable c] {m n : Procedure S E A} (yes : c → Ends m)
    (no : ¬c → Ends n) : Ends (if c then m else n) := by
  split
  · rename_i h; exact yes h
  · rename_i h; exact no h

/-- Every error that the procedure raises is one of `R`, from whatever state. -/
def Raises (R : E → Prop) (m : Procedure S E A) : Prop :=
  Triple (fun _ => True) m (fun _ _ => True) fun e _ => R e

section

variable {R : E → Prop}

theorem Raises.pure (a : A) : Raises R (pure a : Procedure S E A) := Triple.pure fun _ h => h

theorem Raises.raise {e : E} (allowed : R e) : Raises R (raise e : Procedure S E A) :=
  Triple.raise fun _ _ => allowed

theorem Raises.read : Raises R (read : Procedure S E S) := Triple.read fun _ h => h

theorem Raises.wait : Raises R (wait : Procedure S E A) := Triple.wait

theorem Raises.update (f : S → S) : Raises R (update f : Procedure S E Unit) :=
  Triple.update fun _ h => h

theorem Raises.bind {m : Procedure S E A} {f : A → Procedure S E B} (first : Raises R m)
    (next : ∀ a, Raises R (f a)) : Raises R (m >>= f) := Triple.bind first next

theorem Raises.choose {c : Prop} [Decidable c] {m n : Procedure S E A} (yes : c → Raises R m)
    (no : ¬c → Raises R n) : Raises R (if c then m else n) := Triple.choose yes no

theorem Raises.captured {m : Procedure S E A} {f : Except E A → Procedure S E B}
    {T : E → Prop} (body : Raises T m) (ok : ∀ a, Raises R (f (.ok a)))
    (error : ∀ e, T e → Raises R (f (.error e))) : Raises R (Procedure.capture m >>= f) := by
  apply Triple.captured body ok
  exact fun e s allowed => error e allowed s trivial

theorem Raises.weaken {T : E → Prop} {m : Procedure S E A} (body : Raises T m)
    (wider : ∀ e, T e → R e) : Raises R m :=
  body.consequence (fun _ h => h) (fun _ _ h => h) fun e _ => wider e

end

/-- The procedure moves the state along `rel` and in no other way. -/
def Moves (rel : S → S → Prop) (m : Procedure S E A) : Prop := ∀ s, rel s (m s).state

variable {rel : S → S → Prop}

theorem Moves.pure [Std.Refl rel] (a : A) : Moves rel (pure a : Procedure S E A) :=
  fun s => Std.Refl.refl s

theorem Moves.raise [Std.Refl rel] (e : E) : Moves rel (raise e : Procedure S E A) :=
  fun s => Std.Refl.refl s

theorem Moves.wait [Std.Refl rel] : Moves rel (wait : Procedure S E A) :=
  fun s => Std.Refl.refl s

theorem Moves.read [Std.Refl rel] : Moves rel (read : Procedure S E S) :=
  fun s => Std.Refl.refl s

theorem Moves.update {f : S → S} (along : ∀ s, rel s (f s)) :
    Moves rel (update f : Procedure S E Unit) := along

theorem Moves.bind [IsTrans S rel] {m : Procedure S E A} {f : A → Procedure S E B}
    (first : Moves rel m) (next : ∀ a, Moves rel (f a)) : Moves rel (m >>= f) := by
  intro s
  have h := first s
  rw [bind_apply]
  cases outcome : m s with
  | returned a t =>
    rw [outcome] at h
    exact IsTrans.trans _ _ _ h (next a t)
  | raised e t => rw [outcome] at h; exact h
  | waiting t => rw [outcome] at h; exact h

theorem Moves.map [IsTrans S rel] [Std.Refl rel] {m : Procedure S E A} (f : A → B)
    (body : Moves rel m) : Moves rel (f <$> m) := Moves.bind body fun _ => Moves.pure _

theorem Moves.seq {before after : S → S → Prop} {m : Procedure S E A} {f : A → Procedure S E B}
    (first : Moves before m) (next : ∀ a, Moves after (f a))
    (alone : ∀ s t, before s t → rel s t)
    (joined : ∀ s t u, before s t → after t u → rel s u) : Moves rel (m >>= f) := by
  intro s
  have h := first s
  rw [bind_apply]
  cases outcome : m s with
  | returned a t =>
    rw [outcome] at h
    exact joined _ _ _ h (next a t)
  | raised e t => rw [outcome] at h; exact alone _ _ h
  | waiting t => rw [outcome] at h; exact alone _ _ h

theorem Moves.capture {m : Procedure S E A} (body : Moves rel m) : Moves rel (capture m) := by
  intro s
  have h := body s
  rw [capture_apply]
  cases outcome : m s with
  | returned a t => rw [outcome] at h; exact h
  | raised e t => rw [outcome] at h; exact h
  | waiting t => rw [outcome] at h; exact h

theorem Moves.choose {c : Prop} [Decidable c] {m n : Procedure S E A}
    (yes : c → Moves rel m) (no : ¬c → Moves rel n) : Moves rel (if c then m else n) := by
  split
  · rename_i h; exact yes h
  · rename_i h; exact no h

theorem focus_state {T : Type} (get : S → T) (put : S → T → S) (m : Procedure T E A) (s : S) :
    (focus get put m s).state = put s (m (get s)).state := by
  unfold Procedure.focus
  cases m (get s) <;> rfl

theorem Moves.focus {T : Type} {get : S → T} {put : S → T → S} {m : Procedure T E A}
    (along : ∀ s, rel s (put s (m (get s)).state)) : Moves rel (focus get put m) := by
  intro s
  rw [focus_state]
  exact along s

theorem Triple.frame {m : Procedure S E A} (moves : Moves rel m) (body : Triple P m Q R) (s : S)
    (start : P s) : (m s).Meets (fun a t => rel s t ∧ Q a t) (fun e t => rel s t ∧ R e t) := by
  have along := moves s
  have h := body s start
  cases outcome : m s with
  | returned a t => rw [outcome] at along h; exact ⟨along, h⟩
  | raised e t => rw [outcome] at along h; exact ⟨along, h⟩
  | waiting t => trivial

theorem Moves.fixes {V : Type} {view : S → V} {m : Procedure S E A} (moves : Moves rel m)
    (same : ∀ s t, rel s t → view t = view s) : Fixes view m := by
  intro v s held
  have moved := moves s
  cases outcome : m s with
  | returned a t => rw [outcome] at moved; exact (same s t moved).trans held
  | raised e t => rw [outcome] at moved; exact (same s t moved).trans held
  | waiting t => trivial

end Procedure

end Procedures
