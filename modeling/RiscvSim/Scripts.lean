import RiscvSim.Runs

/-!
Scripts of commands. A command is obeyed in a state; it can end the session or let it go on, and it
can fail. `session` obeys a script up to its end. What every command keeps is kept by all
scripts, and `Achieves` are the triples of a total correctness: from a state with the first condition a script
is obeyed to its end, in a state with the second.
-/
namespace RiscvSim.Scripts
open Runs

variable {ε σ γ : Type} (obey : γ → σ → Except ε (Bool × σ))

/-- The commands in order, up to one that ends the session. -/
def session : List γ → σ → Except ε (Bool × σ)
  | [],s => .ok (true,s)
  | c :: rest,s => do
    let (more,s) ← obey c s
    if more then session rest s else .ok (false,s)

/-- From every state with `P` the script is obeyed to its end, in a state with `Q`. -/
def Achieves (P : σ → Prop) (script : List γ) (Q : σ → Prop) : Prop :=
  ∀ s, P s → ∃ s', session obey script s = .ok (true,s') ∧ Q s'

variable {obey}

theorem session_one (c : γ) (s : σ) : session obey [c] s = obey c s := by
  show (obey c s >>= fun r => if r.1 then session obey [] r.2 else .ok (false,r.2)) = obey c s
  cases obeyed : obey c s with
  | error e => rfl
  | ok r =>
    obtain ⟨more,s'⟩ := r
    cases more <;> rfl

theorem session_goes {c : γ} {s t : σ} (obeyed : obey c s = .ok (true,t)) (rest : List γ) :
    session obey (c :: rest) s = session obey rest t := by
  rw [session,obeyed]
  rfl

theorem session_append (before after : List γ) (s : σ) :
    session obey (before ++ after) s = session obey before s >>= fun r => if r.1 then session obey after r.2
    else .ok (false,r.2) := by
  induction before generalizing s with
  | nil => rfl
  | cons c rest ih =>
    rw [List.cons_append,session,session]
    cases obeyed : obey c s with
    | error e => rfl
    | ok r =>
      obtain ⟨more,s'⟩ := r
      cases more with
      | false => rfl
      | true => exact ih s'

/-- An error of a session is one of the command behind some that went on. -/
theorem session_error {script : List γ} {s : σ} {e : ε} (failed : session obey script s = .error e) :
    ∃ before c after t, script = before ++ c :: after ∧ session obey before s = .ok (true,t) ∧ obey c t = .error e := by
  induction script generalizing s with
  | nil => cases failed
  | cons c rest ih =>
    rcases bind_error.mp failed with here | ⟨⟨more,next⟩,obeyed,later⟩
    · exact ⟨[],c,rest,s,rfl,rfl,here⟩
    · cases more with
      | false => cases later
      | true =>
        obtain ⟨before,d,after,t,rfl,ran,there⟩ := ih later
        exact ⟨c :: before,d,after,t,rfl,(session_goes obeyed before).trans ran,there⟩

/-- What the commands of a script keep holds wherever it ends. -/
theorem session_invariant (Inv : σ → Prop) {script : List γ} {s t : σ} {more : Bool} (start : Inv s)
    (keeps : ∀ c ∈ script, ∀ s t more, Inv s → obey c s = .ok (more,t) → Inv t)
    (ran : session obey script s = .ok (more,t)) : Inv t := by
  induction script generalizing s with
  | nil =>
    cases ran
    exact start
  | cons c rest ih =>
    obtain ⟨⟨goes,u⟩,obeyed,later⟩ := bind_ok.mp ran
    have next : Inv u := keeps c List.mem_cons_self s u goes start obeyed
    cases goes with
    | false =>
      cases later
      exact next
    | true => exact ih next (fun d inside => keeps d (List.mem_cons_of_mem _ inside)) later

theorem achieves_one {P Q : σ → Prop} {c : γ} (obeyed : ∀ s, P s → ∃ t, obey c s = .ok (true,t) ∧ Q t) :
    Achieves obey P [c] Q := by
  intro s before
  rw [session_one]
  exact obeyed s before

theorem Achieves.append {P Q R : σ → Prop} {before after : List γ} (first : Achieves obey P before Q)
    (second : Achieves obey Q after R) :
    Achieves obey P (before ++ after) R := by
  intro s start
  obtain ⟨t,ran,middle⟩ := first s start
  obtain ⟨u,ran',last⟩ := second t middle
  refine ⟨u,?_,last⟩
  rw [session_append,ran]
  exact ran'

end RiscvSim.Scripts
