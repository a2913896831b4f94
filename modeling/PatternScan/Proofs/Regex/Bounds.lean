import PatternScan.Proofs.Regex.Language
import PatternScan.Proofs.Regex.Positions
/-! Whatever the code is, a run stays within the bytes that it may read, and if it fails it has run out
of threads or of steps. -/
namespace PatternScan.Regex
open List Machine Thread
variable {α:Type}{c:Code}{f:RunFlags}{inp:Input}{e:Nat}
def Sober {α:Type}(x:Except Fault α):Prop:=∀e,x=.error (.code e)→e=.tooManyReFibers
lemma sober_ok (a:α):Sober (.ok a):=nofun
lemma Sober.bind {β:Type}{x:Except Fault α}{g:α→Except Fault β}(hx:Sober x)
 (hg:∀a,Sober (g a)):Sober (x >>= g):=by
 intro e h
 cases x with
 | error _=>
  cases h
  exact hx e rfl
 | ok a=>exact hg a e h
lemma Thread.sober_take (p:Pool):Sober (take p):=by
 intro e h
 unfold take at h
 split at h
 ·cases h
 next c hc=>
 cases h
 unfold Pool.take at hc
 split at hc
 ·cases hc
 ·split at hc
  ·cases hc
   rfl
  ·cases hc
lemma Thread.sober_expand (fl:Nat):∀(t:Thread)(V:List Nat)(pl:Pool),Sober (expand c fl t V pl):=by
 induction fl with
 | zero=>exact fun _ _ _=>nofun
 | succ fl ih=>
  intro t V pl
  have hf (u u':Thread)(W:List Nat):Sober (fork c fl u u' W pl):=
   (sober_take pl).bind fun p=>(ih u W p).bind fun a=>(ih u' a.branches a.pool).bind fun b=>sober_ok _
  cases turn c t V with
  | taken _ _ heq | waits _ _ heq=>
   rw[heq]
   exact sober_ok _
  | branch _ _ _ heq | two _ _ _ heq=>
   rw[heq]
   exact hf _ _ _
  | one _ _ _ heq=>
   rw[heq]
   exact ih _ _ _
  | gap _ _ _ heq=>
   rw[heq]
   exact (sober_take pl).bind fun p=>(ih _ _ p).bind fun b=>sober_ok _
section
variable {allowed:Allowance}
lemma sober_sweep (v:View)(fl:Nat)(ts d:List Thread)(p:Pool)(l:Array Nat):
 Sober (sweep allowed c f v fl ts d p l).1:=by
 fun_induction sweep allowed c f v fl ts d p l with
 | case1 | case5=>exact sober_ok _
 | case2 | case8=>rintro _ ⟨⟩
 | case9 | case11=>
  next hx=>
  rintro e ⟨⟩
  exact sober_expand _ _ _ _ e hx
 | _=>assumption
lemma sober_spawn (e:Nat)(s:State):Sober (spawn allowed c e s):=
 (sober_take _).bind fun p=>(sober_expand _ _ _ p).bind fun _=>sober_ok _
lemma sober_rounds (en n read:Nat)(s:State):Sober (rounds allowed c f inp en n read s).result:=by
 fun_induction rounds allowed c f inp en n read s with
 | case1=>
  split
  ·exact sober_ok _
  ·rintro _ ⟨⟩
 | case2=>exact sober_ok _
 | case3=>
  next hs=>
  rintro e ⟨⟩
  exact sober_sweep _ _ _ _ _ _ e (congrArg Prod.fst hs)
 | case5=>
  next hs=>
  rintro e ⟨⟩
  exact sober_spawn _ _ e hs
 | _=>assumption
lemma sober_run (c:Code)(en:Nat)(f:RunFlags)(inp:Input):Sober (run c en f inp).result:=by
 unfold run runWithin
 split
 ·exact sober_rounds _ _ _ _
 ·next he=>
  rintro e ⟨⟩
  exact sober_spawn en _ e he
lemma result_of_code (h:(run c e f inp).code=.success):(run c e f inp).result=.ok ():=by
 have hs:=sober_run c e f inp
 rw[Run.code]at h
 split at h
 ·assumption
 ·next fault hfa=>
  subst h
  cases hs _ hfa
 all_goals cases h
end
lemma Run.code_cases {r:Run}(h:Sober r.result):
 r.code=.success∨r.code=.tooManyReFibers∨r.code=.internalFatalError:=by
 unfold code
 split
 ·exact .inl rfl
 ·next hc=>exact .inr (.inl (h _ hc))
 all_goals exact .inr (.inr rfl)
lemma Reaches.mul_width_le_reach {t u:Thread}{i j:Nat}
 (h:Reaches c (look f inp) t i u j)(hi:i*width f≤reach f inp):
 j*width f≤reach f inp:=by
 obtain⟨n,h⟩:=h
 induction h with
 | refl=>exact hi
 | step hm _ ih=>
  cases hm with
  | on _=>exact ih hi
  | pass _ _=>exact ih hi
  | read _ hr=>exact ih (succ_mul_le_reach (look_read hr))
lemma le_reach_of_mem_run {r:Nat}(hfi:Firm c f inp e)
 (h:r∈(run c e f inp).lengths):r≤reach f inp:=by
 obtain⟨i0,i,u,hi0,hu,-,rfl⟩:=found_of_mem_run hfi h
 refine hu.mul_width_le_reach ?_
 rcases hi0 with rfl|⟨-,hlt⟩
 ·rw[zero_mul]
  exact zero_le
 ·exact hlt.le
namespace GapMachine
variable {s:Setting}
lemma Due.sweep {r:Nat}{ps:List Position}(h:Due s r ps)(q n:Inst):
 Due s (r+1) (sweep s q n r (sweepFuel s ps.length) ps []):=by
 intro x hx
 have hpl:∀p∈ps,p.round=r→∃i,p.index=s.indexAt i:=by
  rintro p hp -
  obtain⟨i,-,rfl⟩:=h p hp
  exact⟨i,rfl⟩
 rcases (mem_sweep _ ps [] hpl (cost_le s r ps) x).1 hx with hx|⟨hx,hrd⟩|⟨i,j,-,hs,rfl⟩
 ·cases hx
 ·obtain⟨i,-,rfl⟩:=h x hx
  exact absurd rfl hrd
 ·exact⟨j,hs.le_reach,rfl⟩

/-- Whatever the code is, the machine for bytes and gaps stays within reach and fails only if it runs
out of steps. -/
lemma rounds_within (fl:Nat):∀(a r:Nat)(ps:List Position),Due s r ps→
 Sober (rounds s fl a r ps).result∧∀n∈(rounds s fl a r ps).lengths,n ≤ s.reach:=by
 induction fl with
 | zero=>
  intro a r ps _
  exact⟨nofun,fun n hn=>absurd hn (Array.not_mem_empty n)⟩
 | succ _ ih=>
  intro a r ps hps
  by_cases hni:ps=[]
  ·subst hni
   exact⟨sober_ok _,fun n hn=>absurd hn (Array.not_mem_empty n)⟩
  by_cases ha:s.code.fetch a=.accept
  ·have hl:∀p∈ps,(s.readBefore p.index).toNat ≤ s.reach:=by
    intro p hp
    obtain⟨i,hi,rfl⟩:=hps p hp
    rw[s.readBefore_indexAt]
    exact hi
   rw[rounds,if_neg (by simpa using hni),ha]
   split
   ·refine⟨sober_ok _,fun n hn=>?_⟩
    grind
   ·refine⟨sober_ok _,fun n hn=>?_⟩
    obtain⟨p,hp,rfl⟩:=mem_map.1 (mem_of_mem_take (mem_toArray.1 hn))
    exact hl p (mem_of_mem_filter hp)
  ·rw[rounds_inst hni rfl ha]
   exact ih _ _ _ (hps.sweep _ _)
lemma run_within (c:Code)(e:Nat)(f:RunFlags)(inp:Input):Sober (run c e f inp).result∧
  ∀n∈(run c e f inp).lengths,n≤(settingOf c f inp).reach:=by
 refine rounds_within _ _ _ _ ?_
 intro p hp
 rw[mem_singleton]at hp
 exact⟨0,zero_le,hp.trans (Setting.start_eq _)⟩
end GapMachine
end PatternScan.Regex