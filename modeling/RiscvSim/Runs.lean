import Mathlib.Tactic

/-!
Runs of a machine that can stop with an error. `run` feeds a list of inputs to a step
function; `Guarded` says that every step of the run meets a condition on the state before
it. Both come with their invariant rules, and every result about all reachable states of
a component is an instance of one of them. Two runs are compared through a relation between
the states that every pair of steps keeps.
-/
namespace RiscvSim.Runs

variable {ε σ α β : Type}

theorem bind_ok {x : Except ε α} {f : α → Except ε β} {b : β} :
    x >>= f = .ok b ↔ ∃ a, x = .ok a ∧ f a = .ok b := by
  cases x with
  | error e => exact ⟨nofun,fun ⟨_,h,_⟩ => nomatch h⟩
  | ok a => exact ⟨fun h => ⟨a,rfl,h⟩,fun ⟨_,same,h⟩ => by cases same; exact h⟩
theorem bind_error {x : Except ε α} {f : α → Except ε β} {e : ε} :
    x >>= f = .error e ↔ x = .error e ∨ ∃ a, x = .ok a ∧ f a = .error e := by
  cases x with
  | error e' =>
    constructor
    · intro h; cases h; exact .inl rfl
    · rintro (h | ⟨_,h,_⟩) <;> cases h; rfl
  | ok a =>
    constructor
    · intro h; exact .inr ⟨a,rfl,h⟩
    · rintro (h | ⟨_,same,h⟩)
      · cases h
      · cases same; exact h
@[simp] theorem ok_bind (a : α) (f : α → Except ε β) : (Except.ok a >>= f) = f a := rfl
@[simp] theorem error_bind (e : ε) (f : α → Except ε β) : (Except.error e >>= f) = .error e := rfl
@[simp] theorem pure_eq (a : α) : (pure a : Except ε α) = .ok a := rfl

/-- The outcome is a value with the property; for runs on fixed inputs. -/
def okAnd (x : Except ε α) (p : α → Bool) : Bool :=
  match x with
  | .ok a => p a
  | .error _ => false

theorem okAnd_iff {x : Except ε α} {p : α → Bool} : okAnd x p = true ↔ ∃ a, x = .ok a ∧ p a = true := by
  cases x with
  | error e => exact ⟨nofun,fun ⟨_,h,_⟩ => nomatch h⟩
  | ok a => exact ⟨fun h => ⟨a,rfl,h⟩,fun ⟨_,same,h⟩ => by cases same; exact h⟩

/-- The outcome is the error; for runs on fixed inputs. -/
def errorIs [DecidableEq ε] (x : Except ε α) (e : ε) : Bool :=
  match x with
  | .ok _ => false
  | .error e' => e' = e

theorem errorIs_iff [DecidableEq ε] {x : Except ε α} {e : ε} : errorIs x e = true ↔ x = .error e := by
  cases x with
  | ok a => exact ⟨nofun,nofun⟩
  | error e' => simp [errorIs]

/-- The inputs in order, up to the first error. -/
def run (step : σ → α → Except ε σ) (s : σ) : List α → Except ε σ
  | [] => .ok s
  | a :: rest => step s a >>= fun s' => run step s' rest

/-- Every step of the run from `s` meets the condition in the state before it. -/
def Guarded (step : σ → α → Except ε σ) (guard : σ → α → Prop) (s : σ) : List α → Prop
  | [] => True
  | a :: rest => guard s a ∧ ∀ s', step s a = .ok s' → Guarded step guard s' rest

variable {step : σ → α → Except ε σ} {guard : σ → α → Prop}

instance decidableGuarded [∀ s a, Decidable (guard s a)] :
    ∀ (inputs : List α) (s : σ), Decidable (Guarded step guard s inputs)
  | [],_ => isTrue trivial
  | a :: rest,s =>
    match stepped : step s a with
    | .error _ =>
      decidable_of_iff (guard s a) ⟨fun here => ⟨here,fun _ same => nomatch stepped.symm.trans same⟩,fun safe => safe.1⟩
    | .ok s' =>
      have := decidableGuarded rest s'
      decidable_of_iff (guard s a ∧ Guarded step guard s' rest)
        ⟨fun ⟨here,later⟩ => ⟨here,fun _ same => by cases stepped.symm.trans same; exact later⟩,
          fun safe => ⟨safe.1,safe.2 s' stepped⟩⟩

theorem run_append (s : σ) (before after : List α) :
    run step s (before ++ after) = run step s before >>= fun s' => run step s' after := by
  induction before generalizing s with
  | nil => rfl
  | cons a rest ih =>
    rw [List.cons_append,run,run]
    cases stepped : step s a with
    | error e => rfl
    | ok s' => exact ih s'

/-- An error of a run is one of the step behind some of its inputs. -/
theorem run_error {s : σ} {inputs : List α} {e : ε} (failed : run step s inputs = .error e) :
    ∃ before a after s', inputs = before ++ a :: after ∧ run step s before = .ok s' ∧ step s' a = .error e := by
  induction inputs generalizing s with
  | nil => cases failed
  | cons a rest ih =>
    rcases bind_error.mp failed with here | ⟨next,stepped,later⟩
    · exact ⟨[],a,rest,s,rfl,rfl,here⟩
    · obtain ⟨before,b,after,s',rfl,ran,there⟩ := ih later
      exact ⟨a :: before,b,after,s',rfl,bind_ok.mpr ⟨next,stepped,ran⟩,there⟩

/-- What every step preserves holds at the end of every run. -/
theorem run_invariant (Inv : σ → Prop) (preserve : ∀ s a s', Inv s → step s a = .ok s' → Inv s')
    {s s' : σ} {inputs : List α} (start : Inv s) (ran : run step s inputs = .ok s') : Inv s' := by
  induction inputs generalizing s with
  | nil => cases ran; exact start
  | cons a rest ih =>
    obtain ⟨next,stepped,later⟩ := bind_ok.mp ran
    exact ih (preserve s a next start stepped) later

theorem guarded_append {s : σ} {before after : List α} (safe : Guarded step guard s (before ++ after)) :
    Guarded step guard s before ∧ ∀ s', run step s before = .ok s' → Guarded step guard s' after := by
  induction before generalizing s with
  | nil => exact ⟨trivial,fun s' ran => by cases ran; exact safe⟩
  | cons a rest ih =>
    obtain ⟨here,later⟩ := safe
    refine ⟨⟨here,fun s' stepped => (ih (later s' stepped)).1⟩,?_⟩
    intro s' ran
    obtain ⟨next,stepped,tail⟩ := bind_ok.mp ran
    exact (ih (later next stepped)).2 s' tail

/-- A condition on the inputs alone is met in every run. -/
theorem guarded_all {fits : α → Prop} {inputs : List α} (all : ∀ a ∈ inputs, fits a) (s : σ) :
    Guarded step (fun _ a => fits a) s inputs := by
  induction inputs generalizing s with
  | nil => trivial
  | cons a rest ih =>
    exact ⟨all a List.mem_cons_self,fun s' _ => ih (fun b inside => all b (List.mem_cons_of_mem _ inside)) s'⟩

/-- A condition on the inputs alone joins the condition on the steps. -/
theorem guarded_and {fits : α → Prop} {s : σ} {inputs : List α} (all : ∀ a ∈ inputs, fits a)
    (safe : Guarded step guard s inputs) : Guarded step (fun s a => fits a ∧ guard s a) s inputs := by
  induction inputs generalizing s with
  | nil => trivial
  | cons a rest ih =>
    exact ⟨⟨all a List.mem_cons_self,safe.1⟩,
      fun s' stepped => ih (fun b inside => all b (List.mem_cons_of_mem _ inside)) (safe.2 s' stepped)⟩

/-- What every step that meets the condition preserves holds at the end of a guarded run, with the number of the
    steps. -/
theorem guarded_counted (Inv : Nat → σ → Prop)
    (preserve : ∀ n s a s', Inv n s → guard s a → step s a = .ok s' → Inv (n+1) s') {n : Nat} {s s' : σ}
    {inputs : List α} (start : Inv n s) (safe : Guarded step guard s inputs) (ran : run step s inputs = .ok s') :
    Inv (n + inputs.length) s' := by
  induction inputs generalizing n s with
  | nil => cases ran; exact start
  | cons a rest ih =>
    obtain ⟨next,stepped,later⟩ := bind_ok.mp ran
    rw [List.length_cons,Nat.add_comm rest.length 1,← Nat.add_assoc]
    exact ih (preserve n s a next start safe.1 stepped) (safe.2 next stepped) later

theorem guarded_invariant (Inv : σ → Prop) (preserve : ∀ s a s', Inv s → guard s a → step s a = .ok s' → Inv s')
    {s s' : σ} {inputs : List α} (start : Inv s) (safe : Guarded step guard s inputs)
    (ran : run step s inputs = .ok s') : Inv s' :=
  guarded_counted (fun _ => Inv) (fun _ => preserve) (n := 0) start safe ran

/-- What every step that meets the condition preserves holds to the end, or until a step reaches
    what ends it. -/
theorem guarded_until (Inv Done : σ → Prop)
    (progress : ∀ s a s', Inv s → guard s a → step s a = .ok s' → Inv s' ∨ Done s')
    {s s' : σ} {inputs : List α} (start : Inv s) (safe : Guarded step guard s inputs)
    (ran : run step s inputs = .ok s') :
    Inv s' ∨ ∃ before a after q r, inputs = before ++ a :: after ∧ run step s before = .ok q ∧
    step q a = .ok r ∧ Done r := by
  induction inputs generalizing s with
  | nil => cases ran; exact .inl start
  | cons a rest ih =>
    obtain ⟨next,stepped,later⟩ := bind_ok.mp ran
    rcases progress s a next start safe.1 stepped with kept | ended
    · rcases ih kept (safe.2 next stepped) later with last | ⟨before,b,after,q,r,rfl,reached,taken,ended⟩
      · exact .inl last
      · exact .inr ⟨a :: before,b,after,q,r,rfl,by rw [run,stepped]; exact reached,taken,ended⟩
    · exact .inr ⟨[],a,rest,s,next,rfl,rfl,stepped,ended⟩

/-- If a step that meets the condition never fails, a guarded run never does. -/
theorem guarded_total (Inv : σ → Prop)
    (progress : ∀ s a, Inv s → guard s a → ∃ s', step s a = .ok s' ∧ Inv s')
    {s : σ} {inputs : List α} (start : Inv s) (safe : Guarded step guard s inputs) :
    ∃ s', run step s inputs = .ok s' ∧ Inv s' := by
  induction inputs generalizing s with
  | nil => exact ⟨s,rfl,start⟩
  | cons a rest ih =>
    obtain ⟨next,stepped,kept⟩ := progress s a start safe.1
    obtain ⟨last,ran,holds⟩ := ih kept (safe.2 next stepped)
    exact ⟨last,by rw [run,stepped]; exact ran,holds⟩

/-! ### Two runs -/

/-- Both fail with the same error, or end in related values. -/
inductive Both {α β : Type} (R : α → β → Prop) : Except ε α → Except ε β → Prop
  | error (e : ε) : Both R (.error e) (.error e)
  | ok {a : α} {b : β} (related : R a b) : Both R (.ok a) (.ok b)

section
variable {γ δ τ : Type} {R : α → β → Prop} {S : γ → δ → Prop}

theorem Both.bind {x : Except ε α} {y : Except ε β} {f : α → Except ε γ} {g : β → Except ε δ} (first : Both R x y)
    (rest : ∀ a b, x = .ok a → R a b → Both S (f a) (g b)) : Both S (x >>= f) (y >>= g) := by
  cases first with
  | error e => exact .error e
  | ok related => exact rest _ _ rfl related

theorem Both.mono {R' : α → β → Prop} {x : Except ε α} {y : Except ε β} (both : Both R x y)
    (weaker : ∀ a b, R a b → R' a b) :
    Both R' x y := by
  cases both with
  | error e => exact .error e
  | ok related => exact .ok (weaker _ _ related)

theorem Both.ok_left {a : α} {y : Except ε β} (both : Both R (.ok a) y) : ∃ b, y = .ok b ∧ R a b := by
  cases both with
  | ok related => exact ⟨_,rfl,related⟩

theorem both_same (x : Except ε α) : Both (· = ·) x x := by
  cases x with
  | error e => exact .error e
  | ok a => exact .ok rfl

/-- What every pair of steps keeps holds at the end of both runs, or both fail alike. -/
theorem run_both {step' : τ → α → Except ε τ} {R : σ → τ → Prop}
    (preserve : ∀ s t a, R s t → Both R (step s a) (step' t a)) {s : σ} {t : τ} (start : R s t) (inputs : List α) :
    Both R (run step s inputs) (run step' t inputs) := by
  induction inputs generalizing s t with
  | nil => exact .ok start
  | cons a rest ih => exact (preserve s t a start).bind fun _ _ _ related => ih related

end

end RiscvSim.Runs
