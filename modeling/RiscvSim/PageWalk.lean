import RiscvSim.TlbWalk

/-!
Walks of one address from a miss to their end, with any latency. A walk that ends has
found both entries valid and enters the translation of the page table; it is aborted where
the two slices of the address that are compared at its end differ.
-/
namespace RiscvSim
open Bytes Runs

namespace PageTables

/-- What one call of `get_address` does, whatever the buffer holds. -/
theorem get_address_outcome {pt : PageTables} {t t' : Tlb} {fw fw' : Framework} {stage : Stage} {va out out' : U32}
    {status code : U8} {locals : TlbLocals} (rested : pt.Rested fw) (access : stage = .F ∨ stage = .M)
    (start : status = 0xFF ∨ pt.Progress t fw.memory_pending.slots va status)
    (called : t.get_address Framework.port pt.ptbr (fw.enter stage) va out status locals = .ok (code,out',t',fw')) :
    pt.Held fw' ∧
      ((code = 0xFE ∧ status = 0xFF ∧ t.Hit va ∧ t' = t) ∨
        (code = 0xFF ∧ ∃ ret, pt.Entered t t' va ret ∧ out' = Tlb.physical ret va) ∨
        (code ≠ 0xFE ∧ code ≠ 0xFF ∧ t'.entries = t.entries ∧ pt.Progress t' fw'.memory_pending.slots va code)) := by
  unfold Tlb.get_address at called
  simp only at called
  split at called
  · rename_i hit
    cases called
    exact ⟨⟨rested.mem,rested.size,rested.ptbr,rested.reads⟩,.inl ⟨rfl,hit.1,hit.2,rfl⟩⟩
  · obtain ⟨⟨new_status,ret,t₁,fw₁⟩,updated,rest⟩ := bind_ok.mp called
    obtain ⟨held,notHit,⟨rfl,entered⟩ | ⟨going,entries,progress⟩⟩ := update_outcome rested access start updated
    · cases rest
      exact ⟨held,.inr (.inl ⟨rfl,ret,entered,rfl⟩)⟩
    · simp only [if_pos going] at rest
      cases rest
      exact ⟨held,.inr (.inr ⟨notHit,going,entries,progress⟩)⟩

/-- An address whose page is entered hits. -/
theorem entered_hit {pt : PageTables} {t t' : Tlb} {va ret : U32} (entered : pt.Entered t t' va ret) : t'.Hit va := by
  obtain ⟨group,n,-,-,entries⟩ := entered
  have nested : va.toNat / 131072 = va.toNat / 16384 / 8 := by rw [Nat.div_div_eq_div_mul]
  have small := ((Tlb.index va).setWidth 3 : BitVec 3).isLt
  rw [Tlb.Hit,entries]
  simp only [if_true,and_true]
  apply BitVec.eq_of_toNat_eq
  rw [BitVec.toNat_setWidth,BitVec.toNat_setWidth,superpage_toNat,BitVec.toNat_ushiftRight,Nat.shiftRight_eq_div_pow,
    show 2^17 = 131072 from rfl]
  have tag : va.toNat / 131072 = ((Tlb.index va).setWidth 3 : BitVec 3).toNat := by omega
  rw [tag,Nat.mod_eq_of_lt (a := _) (b := 2^15) (by omega),Nat.mod_eq_of_lt (by omega)]

/-- The page number of an address is that of a valid second-level entry in a valid table. -/
theorem page_some {pt : PageTables} {va n : U32} (found : pt.page va = some n) :
    pt.first va >>> 31 = 1 ∧ secondEntry pt.mem (pt.first va) va >>> 31 = 1 ∧
      n = secondEntry pt.mem (pt.first va) va &&& (0x7FFFFFFF : U32) := by
  unfold page pageNumber at found
  split at found
  · rename_i first
    split at found
    · rename_i second
      cases found
      exact ⟨first,second,rfl⟩
    · cases found
  · cases found

end PageTables

namespace Translator

/-- Calls for one address that missed: the walk has not started, is on its way, or has
    ended and the address hits. -/
structure Walking (pt : PageTables) (t : Tlb) (va : U32) (s : Translator) : Prop where
  rested : pt.Rested s.fw
  going : s.walk = none ∧ s.tlb.Hit va ∨ s.tlb.entries = t.entries ∧
    (s.walk = none ∨ ∃ status, s.walk = some (va,status) ∧ pt.Progress s.tlb s.fw.memory_pending.slots va status)

section
variable {pt : PageTables} {stage : Stage} (access : stage = .F ∨ stage = .M) {t : Tlb} {va : U32} {s : Translator}

/-- The status passed is that of a new access, or of the walk as far as it got. -/
theorem Walking.start (walking : Walking pt t va s) :
    s.status = 0xFF ∨ pt.Progress s.tlb s.fw.memory_pending.slots va s.status := by
  rcases walking.going with ⟨none,-⟩ | ⟨-,none | ⟨status,some,progress⟩⟩
  · exact .inl (by rw [Translator.status,none])
  · exact .inl (by rw [Translator.status,none])
  · exact .inr (by rw [Translator.status,some]; exact progress)

/-- Once the walk has ended, calls hit and change nothing. -/
theorem hit_call (idle : s.walk = none) (hit : s.tlb.Hit va) {c : TlbCall} (same : c.virtual_address = va) :
    s.call stage c = .ok (0xFE,s.tlb.translation va,⟨s.tlb,(s.fw.enter stage).end_cycle,none⟩) := by
  subst same
  rw [call,show s.status = 0xFF by rw [Translator.status,idle],PageTables.get_address_hit _ _ _ _ _ hit]
  rfl

include access in
/-- A call ends the walk, gets it further, or comes after it. -/
theorem walking_call {c : TlbCall} (same : c.virtual_address = va) (walking : Walking pt t va s) {code : U8} {out : U32}
    {s' : Translator} (called : s.call stage c = .ok (code,out,s')) :
    Walking pt t va s' ∧ (code = 0xFF →
      s.tlb.entries = t.entries ∧ ∃ ret, pt.Entered s.tlb s'.tlb va ret ∧ out = Tlb.physical ret va) := by
  have start := walking.start
  obtain ⟨rested,⟨idle,hit⟩ | ⟨before,-⟩⟩ := walking
  · rw [hit_call idle hit same] at called
    cases called
    have held : pt.Held (s.fw.enter stage) := ⟨rested.mem,rested.size,rested.ptbr,rested.reads⟩
    exact ⟨⟨held.rested,.inl ⟨rfl,hit⟩⟩,fun ended => absurd ended (by decide)⟩
  subst same
  obtain ⟨⟨code,output,tlb,fw⟩,got,rest⟩ := bind_ok.mp called
  cases rest
  rw [rested.ptbr] at got
  obtain ⟨held,⟨rfl,-,hit,rfl⟩ | ⟨rfl,ret,entered,rfl⟩ | ⟨notHit,going,entries,progress⟩⟩ :=
    PageTables.get_address_outcome rested access start got
  · exact ⟨⟨held.rested,.inl ⟨rfl,hit⟩⟩,fun ended => absurd ended (by decide)⟩
  · exact ⟨⟨held.rested,.inl ⟨rfl,PageTables.entered_hit entered⟩⟩,fun _ => ⟨before,ret,entered,rfl⟩⟩
  · have unfinished : ¬ (code = 0xFE ∨ code = 0xFF) := not_or_intro notHit going
    refine ⟨⟨held.rested,.inr ⟨entries.trans before,.inr ⟨code,if_neg unfinished,?_⟩⟩⟩,fun ended => absurd ended going⟩
    exact PageTables.progress_end_cycle progress

include access in
theorem walking_step (c : TlbCall) (s' : Translator) (walking : Walking pt t va s) (same : c.virtual_address = va)
    (stepped : step stage s c = .ok s') : Walking pt t va s' := by
  obtain ⟨⟨code,out,_⟩,called,rest⟩ := bind_ok.mp stepped
  cases rest
  exact (walking_call access same walking called).1

end

end Translator

/-! ### The end of a walk -/
namespace PageTables

/-- A completed walk translates correctly. Of the calls for an address that missed, the one
    that returns 0xFF found both entries of the address valid, gives the physical address if the
    low two bits of the page numbers agree, and has changed one entry of the buffer. -/
theorem walk_translates (pt : PageTables) (stage : Stage) (access : stage = .F ∨ stage = .M) (t : Tlb) (fw : Framework)
    (rested : pt.Rested fw) (va : U32) (calls : List TlbCall) (same : ∀ c ∈ calls, c.virtual_address = va)
    (s : Translator) (ran : run (Translator.step stage) ⟨t,fw,none⟩ calls = .ok s) (c : TlbCall)
    (last : c.virtual_address = va) (out : U32) (s' : Translator) (called : s.call stage c = .ok (0xFF,out,s')) :
    pt.first va >>> 31 = 1 ∧ secondEntry pt.mem (pt.first va) va >>> 31 = 1 ∧
      ((secondEntry pt.mem (pt.first va) va &&& (0x7FFFFFFF : U32)).toNat % 4 = va.toNat / 4096 % 4 →
        out = ((secondEntry pt.mem (pt.first va) va &&& (0x7FFFFFFF : U32)) <<< 12) ||| (va &&& (0xFFF : U32))) ∧
      ∀ k, k ≠ (Tlb.index va).setWidth 3 → s'.tlb.entries k = t.entries k := by
  have start : Translator.Walking pt t va ⟨t,fw,none⟩ := ⟨rested,.inr ⟨rfl,.inl rfl⟩⟩
  have walking := guarded_invariant (Translator.Walking pt t va) (fun s c s' => Translator.walking_step access c s')
    start
    (guarded_all same _) ran
  obtain ⟨before,ret,⟨-,n,found,rfl,entries⟩,rfl⟩ := (Translator.walking_call access last walking called).2 rfl
  obtain ⟨first,second,rfl⟩ := page_some found
  refine ⟨first,second,fun low => (physical_eq_iff low).mpr rfl,fun k other => ?_⟩
  rw [entries,← before]
  exact if_neg other

/-- Two calls from an empty buffer, without latency. -/
theorem walk_translates_identity : ∃ s s', run (Translator.step .F) ⟨.zero,identity.boot,none⟩
    [⟨0x25678,0,⟨0,0,0⟩⟩] = .ok s ∧
    s.call .F ⟨0x25678,0,⟨0,0,0⟩⟩ = .ok (0xFF,0x25678,s') ∧ identity.first 0x25678 >>> 31 = 1 ∧
    ∀ k, k ≠ (Tlb.index 0x25678).setWidth 3 → s'.tlb.entries k = Tlb.zero.entries k := by
  have evaluated : okAnd (run (Translator.step .F) ⟨.zero,identity.boot,none⟩ [⟨0x25678,0,⟨0,0,0⟩⟩]) (fun s =>
      okAnd (s.call .F ⟨0x25678,0,⟨0,0,0⟩⟩) (fun r => decide (r.1 = 0xFF ∧ r.2.1 = 0x25678))) =
        true := by decide +kernel
  obtain ⟨s,ran,evaluated⟩ := okAnd_iff.mp evaluated
  obtain ⟨⟨code,out,s'⟩,called,evaluated⟩ := okAnd_iff.mp evaluated
  obtain ⟨rfl,rfl⟩ := of_decide_eq_true evaluated
  obtain ⟨first,-,-,others⟩ := walk_translates identity .F (.inl rfl) .zero identity.boot identity.rested_boot 0x25678
    _ (by simp) s ran _ rfl _ s' called
  exact ⟨s,s',ran,called,first,others⟩

/-! ### The check at the end of a walk -/

/-- The second-level entry that a walk reads: number `(va >> 12) & 0xFF` of the table. -/
def readEntry (pt : PageTables) (va : U32) : U32 :=
  wordAt pt.mem ((Tlb.second_level_index (pt.first va) (va >>> 12)).setWidth 64)

/-- The walk of the address comes to no exit, from any buffer that misses and with any latency. -/
def NeverAborts (pt : PageTables) (va : U32) : Prop :=
  ∀ (stage : Stage) (t : Tlb) (fw : Framework) (calls : List TlbCall), stage = .F ∨ stage = .M →
  pt.Rested fw → ¬ t.Hit va → (∀ c ∈ calls, c.virtual_address = va) →
    run (Translator.step stage) ⟨t,fw,none⟩ calls ≠ .error .superpage_tlb_index_mismatch

/-- The slices compared are equal, or no valid entry is read. -/
def PassesCheck (pt : PageTables) (va : U32) : Prop :=
  va.toNat / 131072 = va.toNat / 16384 % 8 ∨ pt.readEntry va >>> 31 = 0

theorem slices_iff (va : U32) : va >>> 12 >>> 2 >>> 3 = Tlb.index va ↔ va.toNat / 131072 = va.toNat / 16384 % 8 := by
  rw [← BitVec.toNat_inj,superpage_toNat,index_toNat]

/-- An entry that passes the check is not refused. -/
theorem update_passes {pt : PageTables} {t : Tlb} {fw : Framework} {stage : Stage} {va : U32} {status : U8}
    {locals : TlbLocals} (rested : pt.Rested fw) (access : stage = .F ∨ stage = .M)
    (start : status = 0xFF ∨ pt.Progress t fw.memory_pending.slots va status) (passes : pt.PassesCheck va) :
    t.update_tlb_entry Framework.port pt.ptbr (fw.enter stage) (Tlb.index va) (va >>> 12) status locals ≠
      .error .superpage_tlb_index_mismatch := by
  intro failed
  cases Tlb.update_tlb_entry_fails failed with
  | first _ _ read => exact absurd (read_word_error Framework.port_answering read).1 (by decide)
  | second _ _ _ read => exact absurd (read_word_error Framework.port_answering read).1 (by decide)
  | mismatch later valid word fw₁ read present group =>
    rw [first_cached start later] at valid read
    have word : word = pt.readEntry va := (second_answered rested access start later valid read).delivered rfl
    rcases passes with slices | invalid
    · exact group ((slices_iff va).mpr slices)
    · exact present (word ▸ invalid)

theorem walking_passes {pt : PageTables} {stage : Stage} (access : stage = .F ∨ stage = .M) {t : Tlb} {va : U32}
    (passes : pt.PassesCheck va) {s : Translator} {c : TlbCall} (walking : Translator.Walking pt t va s)
    (same : c.virtual_address = va) : Translator.step stage s c ≠ .error .superpage_tlb_index_mismatch := by
  intro failed
  have start := walking.start
  rcases bind_error.mp failed with failed | ⟨_,-,failed⟩
  · rcases bind_error.mp failed with failed | ⟨_,-,failed⟩
    · subst same
      rw [walking.rested.ptbr] at failed
      unfold Tlb.get_address at failed
      simp only at failed
      split at failed
      · cases failed
      · rcases bind_error.mp failed with failed | ⟨_,-,failed⟩
        · exact update_passes walking.rested access start passes failed
        · split at failed <;> cases failed
    · cases failed
  · cases failed

/-- Without latency the second call comes to the check, and to the exit if the slices differ. -/
theorem walk_exits {pt : PageTables} {va : U32} (first : pt.first va >>> 31 = 1) (read : pt.readEntry va >>> 31 ≠ 0)
    (slices : va >>> 12 >>> 2 >>> 3 ≠ Tlb.index va) :
    run (Translator.step .F) ⟨.zero,pt.boot,none⟩ [⟨va,0,⟨0,0,0⟩⟩,⟨va,0,⟨0,0,0⟩⟩] =
      .error .superpage_tlb_index_mismatch := by
  obtain ⟨fw₁,walked,held,fast⟩ := walk_first pt.rested_boot rfl .zero va rfl 0 ⟨0,0,0⟩
  have begun : Translator.step .F ⟨.zero,pt.boot,none⟩ ⟨va,0,⟨0,0,0⟩⟩ =
      .ok ⟨⟨Tlb.zero.entries,pt.first va⟩,fw₁.end_cycle,some (va,2)⟩ := by
    rw [Translator.step,Translator.call,show (⟨.zero,pt.boot,none⟩ : Translator).status = 0xFF from rfl,
      show (⟨.zero,pt.boot,none⟩ : Translator).fw.ptbr = pt.ptbr from rfl,walked]
    rfl
  have inside : (tableOf (pt.first va)).toNat + 4096 ≤ pt.size.toNat := pt.tables va first
  have address := second_level_toNat va inside
  have table := tableOf_toNat (pt.first va)
  obtain ⟨done,word,fw₂,asked,answered,now⟩ := read_answered held.rested (.inl rfl) 0
    (a := Tlb.second_level_index (pt.first va) (va >>> 12)) (by omega) (by omega)
  obtain ⟨rfl,-⟩ := now fast
  have word_read : word = pt.readEntry va := answered.delivered rfl
  rw [← word_read] at read
  have later : ((2 : U8) == 1) = false := by decide
  have exits : Translator.step .F ⟨⟨Tlb.zero.entries,pt.first va⟩,fw₁.end_cycle,some (va,2)⟩ ⟨va,0,⟨0,0,0⟩⟩ =
      .error .superpage_tlb_index_mismatch := by
    rw [Translator.step,Translator.call,show fw₁.end_cycle.ptbr = pt.ptbr from held.ptbr]
    simp only [Translator.status,Tlb.get_address,Tlb.update_tlb_entry,later,asked,ok_bind,first,read,slices,
      show ((2 : U8) = 0xFF) = False from by decide,show ((2 : U8) = 0) = False from by decide,ne_eq,not_true,false_and,
      or_self,if_false,Bool.true_eq_false,not_false_eq_true,if_true]
    rfl
  rw [run,begun,ok_bind,run,exits]
  rfl

/-- The walk of a mapped address is never aborted exactly if bits 17 and up of the address
    are its bits 14 to 16, or the entry that the walk reads instead of its own is not valid. -/
theorem walk_never_aborts_iff {pt : PageTables} {va n : U32} (mapped : pt.page va = some n) :
    pt.NeverAborts va ↔ pt.PassesCheck va := by
  constructor
  · intro never
    by_contra fails
    obtain ⟨slices,read⟩ := not_or.mp fails
    refine never .F .zero pt.boot [⟨va,0,⟨0,0,0⟩⟩,⟨va,0,⟨0,0,0⟩⟩] (.inl rfl) pt.rested_boot ?_ (by simp) ?_
    · exact fun hit => Bool.false_ne_true hit.2
    · exact walk_exits (page_some mapped).1 read (fun same => slices ((slices_iff va).mp same))
  · intro passes stage t fw calls access rested missed same failed
    obtain ⟨before,c,after,s,rfl,ran,here⟩ := run_error failed
    have walking := guarded_invariant (Translator.Walking pt t va) (fun s c s' => Translator.walking_step access c s')
      (s := ⟨t,fw,none⟩) ⟨rested,.inr ⟨rfl,.inl rfl⟩⟩
      (guarded_all (fun c earlier => same c (List.mem_append_left _ earlier)) _) ran
    exact walking_passes access passes walking (same c (List.mem_append_right _ List.mem_cons_self)) here

theorem walk_never_aborts_identity : identity.NeverAborts 0x25678 :=
  (walk_never_aborts_iff (n := 0x25) (by decide +kernel)).mpr (.inl (by decide))

/-- Page 0x20 is mapped to itself, but its walk comes to the exit. -/
theorem mapped_walk_exits : identity.page 0x20000 = some 0x20 ∧
    run (Translator.step .F) ⟨.zero,identity.boot,none⟩ [⟨0x20000,0,⟨0,0,0⟩⟩,⟨0x20000,0,⟨0,0,0⟩⟩] =
      .error .superpage_tlb_index_mismatch ∧ ¬ identity.NeverAborts 0x20000 := by
  have mapped : identity.page 0x20000 = some 0x20 := by decide +kernel
  have read : identity.readEntry 0x20000 >>> 31 ≠ 0 := by decide +kernel
  have exits := walk_exits (page_some mapped).1 read (by decide)
  refine ⟨mapped,exits,fun never => ?_⟩
  exact never .F .zero identity.boot _ (.inl rfl) identity.rested_boot (fun hit => Bool.false_ne_true hit.2)
    (by simp) exits

end PageTables
end RiscvSim
