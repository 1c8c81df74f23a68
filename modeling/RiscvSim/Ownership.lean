import Mathlib.Data.List.Forall2
import Mathlib.Tactic

/-!
Effects and the causes they come from. What a system has done and what it still owes is a list of
conditions on causes: each is to be met by a cause of its own, so that none is counted twice. With
`Owned` the causes come in the order of the conditions, with `OwnedAny` in any order.
-/
namespace RiscvSim.Ownership

section
variable {α β γ : Type} {R : α → β → Prop} {S : β → γ → Prop} {T : α → γ → Prop}

theorem sublistForall₂_append {as as' : List α} {bs bs' : List β} (first : List.SublistForall₂ R as bs)
    (second : List.SublistForall₂ R as' bs') : List.SublistForall₂ R (as ++ as') (bs ++ bs') := by
  obtain ⟨own,met,inside⟩ := List.sublistForall₂_iff.mp first
  obtain ⟨own',met',inside'⟩ := List.sublistForall₂_iff.mp second
  exact List.sublistForall₂_iff.mpr ⟨own ++ own',List.rel_append met met',inside.append inside'⟩

theorem sublistForall₂_trans (compose : ∀ a b c, R a b → S b c → T a c) {as : List α} {bs : List β} {cs : List γ}
    (first : List.SublistForall₂ R as bs) (second : List.SublistForall₂ S bs cs) : List.SublistForall₂ T as cs := by
  induction second generalizing as with
  | nil =>
    cases first
    exact .nil
  | cons here _ ih =>
    cases first with
    | nil => exact .nil
    | cons before rest => exact .cons (compose _ _ _ before here) (ih rest)
    | cons_right rest => exact .cons_right (ih rest)
  | cons_right _ ih => exact .cons_right (ih first)

end

variable {α : Type}

/-- Each condition is met by a cause of its own, and the causes keep their order. -/
def Owned (owed : List (α → Prop)) (causes : List α) : Prop := List.SublistForall₂ (fun P a => P a) owed causes

/-- Each condition of the first list follows from one of its own of the second. -/
def Covered (owed owed' : List (α → Prop)) : Prop := List.SublistForall₂ (fun P P' => ∀ a, P' a → P a) owed owed'

theorem owned_append {owed owed' : List (α → Prop)} {causes causes' : List α} (first : Owned owed causes)
    (second : Owned owed' causes') : Owned (owed ++ owed') (causes ++ causes') := sublistForall₂_append first second

theorem covered_sublist {owed owed' : List (α → Prop)} (kept : List.Sublist owed owed') : Covered owed owed' :=
  List.sublistForall₂_iff.mpr ⟨owed,List.forall₂_same.mpr fun _ _ _ met => met,kept⟩

theorem covered_refl (owed : List (α → Prop)) : Covered owed owed := covered_sublist (List.Sublist.refl owed)

theorem covered_append {owed owed' more more' : List (α → Prop)} (first : Covered owed owed')
    (second : Covered more more') :
    Covered (owed ++ more) (owed' ++ more') := sublistForall₂_append first second

/-- What is dropped needs no cause, and what is weakened keeps its own. -/
theorem owned_covered {owed owed' : List (α → Prop)} {causes : List α} (covered : Covered owed owed')
    (owned : Owned owed' causes) :
    Owned owed causes := sublistForall₂_trans (fun _ _ a weaker met => weaker a met) covered owned

/-- Each condition is met by a cause of its own. -/
def OwnedAny (owed : List (α → Prop)) (causes : List α) : Prop :=
  ∃ arranged, List.Perm arranged owed ∧ Owned arranged causes

theorem ownedAny_append {owed owed' : List (α → Prop)} {causes causes' : List α} (first : OwnedAny owed causes)
    (second : OwnedAny owed' causes') : OwnedAny (owed ++ owed') (causes ++ causes') := by
  obtain ⟨arranged,same,owned⟩ := first
  obtain ⟨arranged',same',owned'⟩ := second
  exact ⟨arranged ++ arranged',same.append same',owned_append owned owned'⟩

theorem ownedAny_subperm {owed owed' : List (α → Prop)} {causes : List α} (kept : List.Subperm owed owed')
    (owned : OwnedAny owed' causes) : OwnedAny owed causes := by
  obtain ⟨arranged,same,owned⟩ := owned
  obtain ⟨part,rearranged,inside⟩ := kept.trans same.symm.subperm
  exact ⟨part,rearranged,owned_covered (covered_sublist inside) owned⟩

/-- The causes, put in the order of the conditions. -/
theorem OwnedAny.own {owed : List (α → Prop)} {causes : List α} (owned : OwnedAny owed causes) :
    ∃ own, List.Subperm own causes ∧ List.Forall₂ (fun P a => P a) owed own := by
  obtain ⟨arranged,same,owned⟩ := owned
  obtain ⟨own,met,inside⟩ := List.sublistForall₂_iff.mp owned
  obtain ⟨own',met',same'⟩ := List.perm_comp_forall₂ same.symm met
  exact ⟨own',same'.subperm.trans inside.subperm,met'⟩

end RiscvSim.Ownership
