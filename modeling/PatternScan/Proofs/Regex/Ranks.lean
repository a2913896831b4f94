import PatternScan.Proofs.Regex.Expansion
import PatternScan.Proofs.Regex.Passage
/-! If no unbounded repetition has a body of tests alone, every thread has a rank that each test lowers. -/
open PatternScan.Limits PatternScan.Regex.Code PatternScan.Regex.Node PatternScan.Regex.Thread PatternScan.Regex.Pool
namespace PatternScan.Regex
open List
open Relation (ReflTransGen)
variable {x id:Nat}
/-- With enough steps a computation comes to an end, always with the same outcome. -/
def Settles {α:Type}(F:Nat→Except Fault α):Prop:=
 ∃x,x≠.error .endless∧∃N,∀n≥N,F n=x
namespace Settles
variable {α β:Type}
lemma const {x:Except Fault α}(hx:x≠.error .endless):Settles fun _=>x:=
 ⟨x,hx,0,fun _ _=>rfl⟩
lemma ok (a:α):Settles fun _=>.ok a:=const nofun
lemma bind {F:Nat→Except Fault α}{G:Nat→α→Except Fault β}(hF:Settles F)
 (hG:∀a n,F n=.ok a→Settles fun n=>G n a):Settles fun n=>F n >>= G n:=by
 obtain⟨x,hx,N,hN⟩:=hF
 cases x with
 | error e=>
  refine⟨.error e,fun h=>hx ?_,N,fun n hn=>?_⟩
  ·cases h
   rfl
  ·dsimp only
   rw[hN n hn]
   rfl
 | ok a=>
  obtain⟨y,hy,M,hM⟩:=hG a N (hN N le_rfl)
  refine⟨y,hy,max N M,fun n hn=>?_⟩
  dsimp only
  rw[hN n (by omega)]
  exact hM n (by omega)
lemma succ {F G:Nat→Except Fault α}(h:Settles F)(hG:∀n,G (n+1)=F n):Settles G:=by
 obtain⟨x,hx,N,hN⟩:=h
 refine⟨x,hx,N+1,fun n hn=>?_⟩
 obtain⟨m,rfl⟩:∃m,n=m+1:=⟨n-1,by omega⟩
 rw[hG,hN m (by omega)]
end Settles
namespace Pool
def room (p:Pool):Nat:=p.idle+(Limits.regexThreads-p.made)
def Sound (p:Pool):Prop:=p.made≤Limits.regexThreads
lemma Sound.release {p:Pool}(hp:p.Sound)(n:Nat):(p.release n).Sound:=hp
lemma room_release (p:Pool)(n:Nat):(p.release n).room=p.room+n:=by
 unfold room release
 dsimp only
 omega
end Pool
namespace Thread
lemma take_ne_endless (p:Pool):take p≠.error .endless:=by
 unfold take
 split
 ·exact nofun
 ·exact nofun
lemma take_eq_ok {p q:Pool}(hp:p.Sound)(h:take p=.ok q):q.Sound∧q.room+1=p.room:=by
 unfold take Pool.take at h
 unfold Pool.Sound Pool.room at *
 grind

/-- Threads come out of the pool and go back to it, and branches once taken stay so. -/
structure Balanced (V:List Nat)(pool:Pool)(X:Expansion):Prop where
 sound:X.pool.Sound
 room:X.pool.room+X.threads.length=pool.room+1
 branches:∀id∈V,id∈X.branches
variable {V:List Nat}{c:Code}
lemma expand_balanced (fl:Nat):∀(t:Thread)(V:List Nat)(pl:Pool)
 (X:Expansion),pl.Sound→expand c fl t V pl=.ok X→Balanced V pl X:=by
 induction fl with
 | zero=>intro t V pl X _ h;cases h
 | succ fl ih=>
  intro t V pl X hpo h
  have hf:∀{u u':Thread}{W:List Nat},fork c fl u u' W pl=.ok X→Balanced W pl X:=by
   intro u u' W h
   obtain⟨p,a,b,hp,ha,hb,rfl⟩:=fork_eq_ok h
   obtain⟨hp,hr⟩:=take_eq_ok hpo hp
   have hA:=ih _ _ _ _ hp ha
   have hB:=ih _ _ _ _ hA.sound hb
   refine⟨hB.sound,?_,fun id hid=>hB.branches id (hA.branches id hid)⟩
   have h1:=hA.room
   have h2:=hB.room
   dsimp only
   rw[length_append]
   omega
  cases turn c t V with
  | taken _ _ heq=>
   rw[heq]at h
   cases h
   exact⟨hpo,by rw[Pool.room_release];rfl,fun id hid=>hid⟩
  | branch _ _ _ heq=>
   rw[heq]at h
   have hX:=hf h
   exact⟨hX.sound,hX.room,fun id hid=>hX.branches id (mem_cons_of_mem _ hid)⟩
  | two _ _ _ heq=>
   rw[heq]at h
   exact hf h
  | one _ _ _ heq=>
   rw[heq]at h
   exact ih _ _ _ _ hpo h
  | waits _ _ heq=>
   rw[heq]at h
   cases h
   exact⟨hpo,rfl,fun id hid=>hid⟩
  | gap _ _ _ heq=>
   rw[heq]at h
   obtain⟨p,b,hp,hb,hbr,hpo',hpe⟩:=linger_eq_ok h
   obtain⟨hp,hr⟩:=take_eq_ok hpo hp
   have hB:=ih _ _ _ _ hp hb
   have h1:=hB.room
   refine⟨hpo'▸hB.sound,?_,fun id hid=>hbr▸hid⟩
   rw[hpo',hpe.length_eq,length_cons]
   omega

/-- A thread comes to a branch, or to a point where it waits, after a limited number of steps. -/
def Calm (c:Code)(t:Thread):Prop:=
 Acc (fun u t=>c.branch? t.address=none∧u∈t.ways c) t
def branchesOf (c:Code):Finset Nat:=(Finset.range c.size).biUnion fun x=>(c.branch? x).toFinset
lemma mem_branchesOf (h:c.branch? x=some id):id∈branchesOf c:=by
 have hx:x<c.size:=by
  by_contra hx
  rw[Code.branch?,Code.fetch_of_size_le c x (by omega)]at h
  cases h
 exact Finset.mem_biUnion.2 ⟨x,Finset.mem_range.2 hx,by simp[h]⟩
def untaken (c:Code)(V:List Nat):Nat:=(branchesOf c \ V.toFinset).card
lemma untaken_mono {W:List Nat}(h:∀id∈V,id∈W):untaken c W≤untaken c V:=by
 refine Finset.card_le_card fun id hid=>?_
 rw[Finset.mem_sdiff,mem_toFinset]at hid⊢
 exact⟨hid.1,fun hV=>hid.2 (h id hV)⟩
lemma untaken_cons (h:c.branch? x=some id)(hid:id∉V):untaken c (id::V)<untaken c V:=by
 refine Finset.card_lt_card ⟨fun k hk=>?_,fun hs=>?_⟩
 ·rw[Finset.mem_sdiff,mem_toFinset]at hk⊢
  exact⟨hk.1,fun hV=>hk.2 (mem_cons_of_mem _ hV)⟩
 ·have hm:=hs (Finset.mem_sdiff.2 ⟨mem_branchesOf h,fun hV=>hid (mem_toFinset.1 hV)⟩)
  rw[Finset.mem_sdiff,mem_toFinset]at hm
  exact hm.2 mem_cons_self
lemma settles_fork {u u':Thread}{pool:Pool}(hpo:pool.Sound)
 (hu:∀p,p.Sound→p.room≤pool.room→Settles fun n=>expand c n u V p)
 (hu':∀p W,p.Sound→p.room≤pool.room→(∀id∈V,id∈W)→
  Settles fun n=>expand c n u' W p):Settles fun n=>fork c n u u' V pool:=by
 refine Settles.bind (.const (take_ne_endless pool)) fun p _ hp=>?_
 obtain⟨hp,hr⟩:=take_eq_ok hpo hp
 refine Settles.bind (hu p hp (by omega)) fun a n ha=>?_
 have hA:=expand_balanced _ _ _ _ _ hp ha
 have hAroom:=hA.room
 exact Settles.bind (hu' a.pool a.branches hA.sound (by omega) hA.branches) fun b _ _=>.ok _

/-- The induction is on the room in the pool, then on the branches not yet taken, and between two branches on the way
to the next one. -/
lemma expand_settles (m:Nat):∀(k:Nat)(t:Thread),Calm c t→
 (∀u,Onward c t u→Calm c u)→∀(V:List Nat)(pool:Pool),pool.Sound→pool.room ≤ m→
 untaken c V≤k→Settles fun n=>expand c n t V pool:=by
 induction m using Nat.strong_induction_on with
 | _ m ihm=>
  intro k
  induction k using Nat.strong_induction_on with
  | _ k ihk=>
   intro t ht
   induction ht with
   | intro t _ iht=>
    intro hon V pool hpo hr hk
    have hn:∀{u},u∈t.ways c→Calm c u∧∀x,Onward c u x→Calm c x:=
     fun {u} hu=>⟨hon u (.single hu),fun x hx=>hon x (.head hu hx)⟩
    cases turn c t V with
    | taken _ _ heq=>exact (Settles.ok _).succ fun n=>heq n pool
    | @branch id u u' hid hm hw heq=>
     have hun:=untaken_cons hid hm
     refine (settles_fork hpo (fun p hp hle=>?_) fun p W hp hle hW=>?_).succ fun n=>heq n pool
     ·have hu:=hn ((hw u).2 (.inl rfl))
      exact ihk (untaken c (id::V)) (by omega) u hu.1 hu.2 _ p hp (by omega) le_rfl
     ·have hu:=hn ((hw u').2 (.inr rfl))
      have hle':=untaken_mono (c:=c) hW
      exact ihk (untaken c W) (by omega) u' hu.1 hu.2 _ p hp (by omega) le_rfl
    | @two u u' hbr _ hw heq=>
     refine (settles_fork hpo (fun p hp hle=>?_) fun p W hp hle hW=>?_).succ fun n=>heq n pool
     ·have hu:=(hw u).2 (.inl rfl)
      exact iht u ⟨hbr,hu⟩ (hn hu).2 V p hp (by omega) hk
     ·have hu:=(hw u').2 (.inr rfl)
      have hle':=untaken_mono (c:=c) hW
      exact iht u' ⟨hbr,hu⟩ (hn hu).2 W p hp (by omega) (by omega)
    | @one u hbr _ hw heq=>
     have hu:u∈t.ways c:=hw▸mem_singleton_self u
     exact (iht u ⟨hbr,hu⟩ (hn hu).2 V pool hpo hr hk).succ fun n=>heq n pool
    | @waits w _ _ heq=>exact (Settles.ok _).succ fun n=>heq n pool
    | @gap u w g _ _ hw heq=>
     have hu:=hn (hw▸mem_singleton_self u)
     refine Settles.succ ?_ fun n=>heq n pool
     refine Settles.bind (.const (take_ne_endless pool)) fun p _ hp=>?_
     obtain⟨hp,hl⟩:=take_eq_ok hpo hp
     -- the thread that stays at the gap is missing in the pool from here on
     exact Settles.bind (ihm p.room (by omega) _ u hu.1 hu.2 [] p hp le_rfl le_rfl) fun b _ _=>.ok _
end Thread
end PatternScan.Regex
namespace PatternScan.Regex
open Machine (Verdict advance)
open Emission (leaf?)
variable {r s w' x id lo hi a:Nat}{p' i' back f g:Bool}{t:Thread}{K:List Nat}{d:Int}{q:Inst}{c:Code}(n:Node)(ns:List Node)
namespace Node
variable {p i:Bool}{w:Nat}(e:Node)
mutual
def idle:Node→Bool
 | .empty | .start | .stop | .boundary | .nonBoundary | .star _ _=>true
 | .gap lo _ _=>lo%65536==0
 | .cat parts=>idleList parts
 | .alt l r=>l.idle||r.idle
 | .plus _ e=>e.idle
 | .range lo _ _ e=>lo==0||e.idle
 | _=>false
def idleList:List Node→Bool
 | []=>true
 | n::ns=>n.idle&&idleList ns
end
mutual
def probes:Node→Bool
 | .start | .stop | .boundary | .nonBoundary=>true
 | .cat parts=>probesList parts
 | .alt l r=>l.probes||r.probes
 | .star _ e | .plus _ e=>e.probes
 | .range lo hi _ e=>(lo != 0||hi != 0)&&e.probes
 | _=>false
def probesList:List Node→Bool
 | []=>false
 | n::ns=>n.probes&&idleList ns||n.idle&&probesList ns
end
mutual
/-- No repetition without an upper bound has a body that can be gone through by tests alone. -/
def tame:Node→Bool
 | .cat parts=>tameList parts
 | .alt l r=>l.tame&&r.tame
 | .star _ e | .plus _ e=>e.tame&&!e.probes
 | .range _ _ _ e=>e.tame
 | _=>true
def tameList:List Node→Bool
 | []=>true
 | n::ns=>n.tame&&tameList ns
end
/-- The rank in front of a piece of code. What lies behind it counts only if one gets there with nothing read, and
adds up only if one gets there by tests. -/
def rankOf (probes idle:Bool)(weight r:Nat):Nat:=
 if probes then weight+r else if idle then max weight r else weight
def rank (n:Node)(r:Nat):Nat:=rankOf n.probes n.idle n.weight r
def rankList (ns:List Node)(r:Nat):Nat:=rankOf (probesList ns) (idleList ns) (weightList ns) r
def loopRank (e:Node)(k r:Nat):Nat:=if e.probes then k*e.weight+r else max e.weight r
lemma idle_of_probes:n.probes→n.idle:=by
 induction n using induction (Q:=fun ns=>probesList ns→idleList ns) with
 | leaf n hn=>
  intro h
  cases n<;>first
   | exact hn.elim
   | rfl
   | cases h
 | cat _ ih=>exact ih
 | alt l r ihl ihr=>
  rw[probes,idle,Bool.or_eq_true,Bool.or_eq_true]
  exact Or.imp ihl ihr
 | star g e _=>exact fun _=>rfl
 | plus g e ih=>exact ih
 | range lo _ g e ih=>
  rw[probes,idle,Bool.and_eq_true,Bool.or_eq_true (lo==0)]
  exact fun h=>.inr (ih h.2)
 | nil h=>cases h
 | cons n _ _ _ h=>
  rw[probesList,Bool.or_eq_true,Bool.and_eq_true,Bool.and_eq_true]at h
  rw[idleList,Bool.and_eq_true]
  tauto
lemma rankOf_mono (h:r ≤ s):rankOf p i w r≤rankOf p i w s:=by
 unfold rankOf
 grind
lemma rankOf_rankOf (hp:p→i)(hp':p'→i')(r:Nat):rankOf p i w (rankOf p' i' w' r) ≤
  rankOf (p&&i'||i&&p') (i&&i') (w+w') r:=by
 cases p<;>cases i<;>cases p'<;>cases i' <;>
  simp only[rankOf,Bool.and_true,Bool.and_false,Bool.or_true,Bool.or_false,if_true,
   Bool.false_eq_true,if_false,imp_false,not_true]at hp hp'⊢ <;> omega
lemma rankOf_le_rankOf (hp:p→p')
 (hi:i→i')(hw:w≤w')(r:Nat):rankOf p i w r≤rankOf p' i' w' r:=by
 cases p<;>cases i<;>cases p'<;>cases i' <;>
  simp only[rankOf,if_true,Bool.false_eq_true,if_false,imp_false,not_true]at hp hi⊢ <;>
  omega
lemma rank_rankList (r:Nat):n.rank (rankList ns r)≤rankList (n::ns) r:=
 rankOf_rankOf n.idle_of_probes (cat ns).idle_of_probes r
lemma rankList_rank (r:Nat):rankList ns (n.rank r)≤rankList (n::ns) r:=by
 have h:rankList ns (n.rank r)≤rankOf (probesList ns&&n.idle||idleList ns&&n.probes)
  (idleList ns&&n.idle) (weightList ns+n.weight) r:=
  rankOf_rankOf (cat ns).idle_of_probes n.idle_of_probes r
 rw[Bool.and_comm (probesList ns),Bool.and_comm (idleList ns) n.probes,Bool.or_comm,
  Bool.and_comm (idleList ns),add_comm]at h
 exact h
lemma le_rankOf (hi:i)(w r:Nat):r≤rankOf p i w r:=by
 rw[hi,rankOf]
 split
 ·omega
 ·rw[if_pos rfl]
  omega
lemma rank_le_loopRank (r:Nat):e.rank r≤e.loopRank 1 r:=by
 unfold rank rankOf loopRank
 split
 ·omega
 ·split<;>omega
lemma rank_max_weight {e:Node}(h:e.probes=false)(r:Nat):e.rank (max e.weight r) ≤ max e.weight r:=by
 rw[rank,rankOf,h]
 grind
lemma le_loopRank (k r:Nat):r≤e.loopRank k r:=by
 unfold loopRank
 split<;>omega
lemma loopRank_mono {k m:Nat}(hk:k ≤ m)(hr:r ≤ s):e.loopRank k r≤e.loopRank m s:=by
 have:=Nat.mul_le_mul_right e.weight hk
 unfold loopRank
 split<;>omega
lemma loopRank_loopRank (k m r:Nat):e.loopRank k (e.loopRank m r)=e.loopRank (k+m) r:=by
 have:=add_mul k m e.weight
 unfold loopRank
 split<;>omega
lemma rank_loopRank (k r:Nat):e.rank (e.loopRank k r)≤e.loopRank (k+1) r:=by
 refine (e.rank_le_loopRank _).trans ?_
 rw[loopRank_loopRank,add_comm]
end Node
/-- Where threads stand in the code of tame patterns, and bounds for their ranks. -/
inductive Sits (c:Code)(back:Bool):Thread→Nat→Prop
 | mono {t:Thread}{r s:Nat}:Sits c back t r → r ≤ s→Sits c back t s
 | accept {t:Thread}{r:Nat}:c.fetch t.address=.accept→Sits c back t r
 | outside {t:Thread}{r:Nat}:c.size≤t.address→Sits c back t r
 | front {n:Node}{a:Nat}{K:List Nat}{r:Nat}:n.Laid c back a→n.tame=true→
  Sits c back ⟨a+n.codeSize,K,none⟩ r→Sits c back ⟨a,K,none⟩ (n.rank r)
 | gap {x lo hi:Nat}{g:Bool}{K:List Nat}{taken:Option Nat}{r:Nat}:
  c.fetch x=.gap lo hi g→Sits c back ⟨x+5,K,none⟩ r→
  Sits c back ⟨x,K,taken⟩ r
 | jump {x:Nat}{d:Int}{K:List Nat}{r:Nat}:c.fetch x=.jump d→
  Sits c back ⟨c.target x d,K,none⟩ r→Sits c back ⟨x,K,none⟩ r
 | again {g:Bool}{e:Node}{a:Nat}{K:List Nat}{r:Nat}:
  (Node.plus g e).Laid c back a→(Node.plus g e).tame=true→
  Sits c back ⟨a+(e.codeSize+4),K,none⟩ r→
  Sits c back ⟨a+e.codeSize,K,none⟩ (max e.weight r)
 | loop {e:Node}{least most x:Nat}{K:List Nat}{r:Nat}:
  LoopLaid c back e least most x→e.tame=true→
  Sits c back ⟨x+(e.codeSize+18),K,none⟩ r→
  Sits c back ⟨x,K,none⟩ (e.loopRank (max 1 (max least most)) r)
 | loopEnd {e:Node}{least most x:Nat}{K:List Nat}{r:Nat}(m:Nat):
  LoopLaid c back e least most x→e.tame=true→
  Sits c back ⟨x+(e.codeSize+18),K,none⟩ r→
  Sits c back ⟨x+9+e.codeSize,m::K,none⟩ (e.loopRank (max least most-(m+1)) r)
 | option {e:Node}{f:Bool}{id x:Nat}{K:List Nat}{r:Nat}:
  c.fetch x=.split f id (e.codeSize+4)→e.Laid c back (x+4)→e.tame=true→
  Sits c back ⟨x+4+e.codeSize,K,none⟩ r→
  Sits c back ⟨x,K,none⟩ (e.loopRank 1 r)
structure Moves (c:Code)(back:Bool)(t:Thread)(r:Nat):Prop where
 on:∀u∈t.ways c,Sits c back u r
 past:∀w,t.waits c=some w→c.fetch t.address=.accept∨c.fetch t.address=.filler∨
  ∃s,Sits c back (advance w (c.fetch t.address)) s∧((c.fetch t.address).isTest=true→s<r)
 calm:t.Calm c
lemma Thread.Calm.of_ways (h:∀u∈t.ways c,u.Calm c):t.Calm c:=
 Acc.intro t fun u hu=>h u hu.2
section
lemma Moves.mono (h:Moves c back t r)(hr:r ≤ s):Moves c back t s:=by
 refine⟨fun u hu=>(h.on u hu).mono hr,fun w hw=>?_,h.calm⟩
 rcases h.past w hw with ha|hf|⟨s',hs,hlt⟩
 ·exact .inl ha
 ·exact .inr (.inl hf)
 ·exact .inr (.inr ⟨s',hs,fun ht=>(hlt ht).trans_le hr⟩)
lemma Moves.of_ways (hw:t.waits c=none)(h:∀u∈t.ways c,Sits c back u r)(hc:t.Calm c):Moves c back t r:=by
 refine⟨h,fun w hwa=>?_,hc⟩
 rw[hw]at hwa
 cases hwa
lemma Moves.of_end (h:c.fetch t.address=.accept∨c.fetch t.address=.filler):Moves c back t r:=by
 have hw:t.ways c=[]:=by
  rcases h with h|h
  ·simp only[Thread.ways,h]
  ·simp only[Thread.ways,h]
 refine⟨fun u hu=>?_,fun w _=>?_,.of_ways fun u hu=>?_⟩
 ·rw[hw]at hu
  cases hu
 ·exact h.imp_right .inl
 ·rw[hw]at hu
  cases hu
lemma moves_split (hf:c.fetch x=.split f id d)
 (h1:Sits c back ⟨x+4,K,none⟩ r)(h2:Sits c back ⟨c.target x d,K,none⟩ r):
 Moves c back ⟨x,K,none⟩ r:=by
 refine .of_ways (by simp only[Thread.waits,hf]) (fun u hu=>?_) (Acc.intro _ fun u hu=>?_)
 ·rcases (mem_ways_split hf).1 hu with rfl|rfl
  ·exact h1
  ·exact h2
 ·have hbr:=hu.1
  simp only[Code.branch?,hf]at hbr
  cases hbr
lemma moves_jump (hf:c.fetch x=.jump d)(h:Sits c back ⟨c.target x d,K,none⟩ r)
 (hc:(⟨c.target x d,K,none⟩:Thread).Calm c):Moves c back ⟨x,K,none⟩ r:=by
 refine .of_ways (by simp only[Thread.waits,hf]) (fun u hu=>?_) (.of_ways fun u hu=>?_)
 ·rw[(mem_ways_jump hf).1 hu]
  exact h
 ·rw[(mem_ways_jump hf).1 hu]
  exact hc
lemma moves_gap {tk:Option Nat}(hf:c.fetch x=.gap lo hi g)
 (h:Sits c back ⟨x+5,K,none⟩ r)(hc:(⟨x+5,K,none⟩:Thread).Calm c)
 (hs:tk.getD 0<lo∨r ≤ s):Moves c back ⟨x,K,tk⟩ s:=by
 have hwa:∀u∈(⟨x,K,tk⟩:Thread).ways c,lo≤tk.getD 0∧u=⟨x+5,K,none⟩:=by
  intro u hu
  simp only[Thread.ways,hf]at hu
  split at hu
  ·cases hu
  ·exact⟨Nat.le_of_not_lt ‹_›,List.mem_singleton.1 hu⟩
 refine⟨fun u hu=>?_,fun w hw=>?_,.of_ways fun u hu=>?_⟩
 ·obtain⟨hlo,rfl⟩:=hwa u hu
  exact h.mono (hs.resolve_left (Nat.not_lt_of_le hlo))
 ·obtain⟨-,rfl⟩:=(Thread.waits_gap hf).1 hw
  simp only[hf]
  exact .inr (.inr ⟨r,.gap hf h,by rintro⟨⟩⟩)
 ·rw[(hwa u hu).2]
  exact hc
lemma moves_plain (hf:c.fetch x=q)(hwa:∀t:Thread,c.fetch t.address=q→t.ways c=[])
 (hwt:∀t:Thread,c.fetch t.address=q→t.waits c=some t)
 (ha:∀t:Thread,advance t q={t with address:=t.address+q.size})
 (h:Sits c back ⟨x+q.size,K,none⟩ r)(hr:q.isTest → r<s):
 Moves c back ⟨x,K,none⟩ s:=by
 refine⟨fun u hu=>?_,fun w hw=>?_,.of_ways fun u hu=>?_⟩
 ·rw[hwa _ hf]at hu
  cases hu
 ·rw[hwt _ hf]at hw
  cases hw
  simp only[hf,ha]
  exact .inr (.inr ⟨r,h,hr⟩)
 ·rw[hwa _ hf]at hu
  cases hu
lemma moves_option {e:Node}(hf:c.fetch x=.split f id (e.codeSize+4))
 (hli:e.Laid c back (x+4))(hta:e.tame)
 (hex:Sits c back ⟨x+4+e.codeSize,K,none⟩ r):
 Moves c back ⟨x,K,none⟩ (e.loopRank 1 r):=by
 refine moves_split hf ((Sits.front hli hta hex).mono (e.rank_le_loopRank r)) ?_
 rw[c.target_eq (y:=x+4+e.codeSize) (by omega)]
 exact hex.mono (e.le_loopRank 1 r)
def Carries (c:Code)(back:Bool)(e:Node):Prop:=
 ∀a K r,e.Laid c back a→e.tame=true→Sits c back ⟨a+e.codeSize,K,none⟩ r→
  Moves c back ⟨a+e.codeSize,K,none⟩ r→Moves c back ⟨a,K,none⟩ (e.rank r)
section
variable {e:Node}{least most:Nat}(h:LoopLaid c back e least most x)(hta:e.tame=true)(he:Carries c back e)
 (hex:Sits c back ⟨x+(e.codeSize+18),K,none⟩ r)
 (hmo:Moves c back ⟨x+(e.codeSize+18),K,none⟩ r)
include h hta he hex hmo
lemma moves_loopEnd (m:Nat):Moves c back ⟨x+9+e.codeSize,m::K,none⟩
 (e.loopRank (max least most-(m+1)) r):=by
 induction hk:max least most-m generalizing m with
 | zero=>
  have hw:∀u∈(⟨x+9+e.codeSize,m::K,none⟩:Thread).ways c,u=⟨x+(e.codeSize+18),K,none⟩:=
   fun u hu=>(h.ways_stop hu).resolve_left (by omega)
  refine .of_ways h.waits_stop (fun u hu=>?_) (.of_ways fun u hu=>?_)
  ·rw[hw u hu]
   exact hex.mono (e.le_loopRank _ _)
  ·rw[hw u hu]
   exact hmo.calm
 | succ k ih=>
  refine .of_ways h.waits_stop (fun u hu=>?_) (.of_ways fun u hu=>?_)
  ·rcases h.ways_stop hu with⟨hm,rfl⟩|rfl
   ·refine (Sits.front h.body hta (.loopEnd (m+1) h hta hex)).mono ((e.rank_loopRank _ _).trans ?_)
    exact e.loopRank_mono (by omega) le_rfl
   ·exact hex.mono (e.le_loopRank _ _)
  ·rcases h.ways_stop hu with⟨hm,rfl⟩|rfl
   ·exact (he _ _ _ h.body hta (.loopEnd (m+1) h hta hex) (ih (m+1) (by omega))).calm
   ·exact hmo.calm
lemma moves_loop:Moves c back ⟨x,K,none⟩ (e.loopRank (max 1 (max least most)) r):=by
 refine .of_ways h.waits_start (fun u hu=>?_) (.of_ways fun u hu=>?_)
 ·rcases h.ways_start hu with rfl|rfl
  ·refine (Sits.front h.body hta (.loopEnd 0 h hta hex)).mono ((e.rank_loopRank _ _).trans ?_)
   exact e.loopRank_mono (by omega) le_rfl
  ·exact hex.mono (e.le_loopRank _ _)
 ·rcases h.ways_start hu with rfl|rfl
  ·exact (he _ _ _ h.body hta (.loopEnd 0 h hta hex) (moves_loopEnd h hta he hex hmo 0)).calm
  ·exact hmo.calm
end
end
namespace Node
lemma loopRank_le_rank_range (g:Bool)(e:Node)(r:Nat)(hlo:lo=0)
 (hhi:hi≠0):e.loopRank (lo+hi+2) r≤(range lo hi g e).rank r:=by
 have hw:(range lo hi g e).weight=(lo+hi+2)*e.weight+e.weight:=by rw[weight,Nat.succ_mul]
 have hp:(range lo hi g e).probes=e.probes:=by simp[probes,hhi]
 have hid:(range lo hi g e).idle:=by simp[idle,hlo]
 rw[rank,rankOf,hp,hid,loopRank]
 split
 ·omega
 ·rw[if_pos rfl]
  omega
lemma rank_max_weight_le_rank_plus {e:Node}(h:e.probes=false)(g:Bool)(r:Nat):
 e.rank (max e.weight r)≤(plus g e).rank r:=by
 rw[rank,rank,rankOf,rankOf,weight,idle,probes,h]
 grind
lemma rank_loopRank_le_rank_range (hi:Nat)(g:Bool)(e:Node)(r:Nat)
 (hlo:lo>0):e.rank (e.loopRank (lo+hi+2) r)≤(range lo hi g e).rank r:=by
 have hw:(range lo hi g e).weight=(lo+hi+2)*e.weight+e.weight:=by rw[weight,Nat.succ_mul]
 have hp:(range lo hi g e).probes=e.probes:=by simp[probes,hlo.ne']
 have hid:(range lo hi g e).idle=e.idle:=by simp[idle,hlo.ne']
 rw[rank,rank,rankOf,rankOf,hp,hid,loopRank]
 split
 ·omega
 ·split<;>omega
section
variable {e:Node}{P:Thread→Nat→Prop}
 (hmono:∀{t r s},P t r → r ≤ s→P t s)
 (hbo:∀{x r},e.Laid c back x→P ⟨x+e.codeSize,K,none⟩ r→P ⟨x,K,none⟩ (e.rank r))
 (hoption:∀{f id x r},c.fetch x=.split f id (e.codeSize+4)→e.Laid c back (x+4)→
  P ⟨x+4+e.codeSize,K,none⟩ r→P ⟨x,K,none⟩ (e.loopRank 1 r))
 (hloop:∀{least most x r},LoopLaid c back e least most x→P ⟨x+(e.codeSize+18),K,none⟩ r→
  P ⟨x,K,none⟩ (e.loopRank (max 1 (max least most)) r))
 (hli:(range lo hi g e).Laid c back a)
 (hex:P ⟨a+(range lo hi g e).codeSize,K,none⟩ r)
include hmono hbo hoption hli hex
lemma branchAt_of_exit:P ⟨branchAt lo hi e a,K,none⟩ (e.loopRank 1 r):=by
 have hen:=epilogAt_add lo hi g e a
 have hepi:epilogAt lo hi e a=branchAt lo hi e a+if hi>lo then 4 else 0:=rfl
 by_cases hhi:hi>lo
 ·have hep:hasEpilog lo hi:=by simp[hasEpilog,hhi]
  obtain⟨id,hf⟩:=hli.2.2.1 hhi
  have hb:=hli.2.2.2 hep
  grind
 rw[if_neg hhi,add_zero]at hepi
 by_cases hep:hasEpilog lo hi
 ·have hb:=hli.2.2.2 hep
  rw[if_pos hep,hepi]at hen
  rw[hepi]at hb
  rw[←hen]at hex
  exact hmono (hbo hb hex) (e.rank_le_loopRank r)
 ·rw[if_neg hep,add_zero,hepi]at hen
  rw[hen]
  exact hmono hex (e.le_loopRank 1 r)
include hloop
lemma loopAt_of_exit:P ⟨loopAt lo e a,K,none⟩ (e.loopRank (lo+hi+2) r):=by
 have hbr:=branchAt_of_exit (P:=P) hmono hbo hoption hli hex
 by_cases hlp:hasLoop lo hi
 ·have hl:loopLow lo hi≤lo:=by unfold loopLow;omega
  have hh:loopHigh lo hi≤hi:=by unfold loopHigh;omega
  rw[branchAt,if_pos hlp]at hbr
  refine hmono (hloop (loopLaid_of_range hli hlp) hbr) ?_
  rw[loopRank_loopRank]
  exact e.loopRank_mono (by omega) le_rfl
 ·rw[branchAt,if_neg hlp]at hbr
  exact hmono hbr (e.loopRank_mono (by omega) le_rfl)
lemma range_of_exit:P ⟨a,K,none⟩ ((range lo hi g e).rank r):=by
 have hat:=loopAt_of_exit (P:=P) hmono hbo hoption hloop hli hex
 by_cases hlo:lo>0
 ·rw[loopAt,if_pos hlo]at hat
  exact hmono (hbo (hli.1 hlo) hat) (rank_loopRank_le_rank_range hi g e r hlo)
 obtain rfl:lo=0:=by omega
 by_cases hhi:hi=0
 ·subst hhi
  exact hmono hex (le_rankOf rfl _ r)
 ·exact hmono hat (loopRank_le_rank_range g e r rfl hhi)
end
lemma first_sits:∀a y K r,n.first back a=some y→n.Laid c back a→
 n.tame→Sits c back ⟨a+n.codeSize,K,none⟩ r→
 Sits c back ⟨y,K,none⟩ (n.rank r):=by
 induction n using induction (Q:=fun ns=>∀a y K r,firstList back ns a=some y→LaidList c back ns a→
   tameList ns→Sits c back ⟨a+codeSizeList ns,K,none⟩ r→
   Sits c back ⟨y,K,none⟩ (rankList ns r)) with
 | leaf n hn=>
  intro a y K r h hli hta hex
  rw[hn.first_eq,Option.map_eq_some_iff]at h
  obtain⟨_,_,rfl⟩:=h
  exact .front hli hta hex
 | cat _ ih=>exact ih
 | alt | star=>
  intro a y K r h hli hta hex
  cases h
  exact .front hli hta hex
 | plus g e ih=>
  intro a y K r h hli hta hex
  have hp:e.tame∧e.probes=false:=by simpa[tame]using hta
  exact (ih a y K _ h hli.1 hp.1 (.again hli hta hex)).mono
   (rank_max_weight_le_rank_plus hp.2 g r)
 | range lo hi g e ih=>
  intro a y K r h hli hta hex
  have hat:Sits c back ⟨loopAt lo e a,K,none⟩ (e.loopRank (lo+hi+2) r):=
   loopAt_of_exit .mono (fun hl=>.front hl hta) (fun hf hl=>.option hf hl hta)
    (fun hl=>.loop hl hta) hli hex
  rw[first]at h
  split at h
  ·rename_i hlo
   rw[loopAt,if_pos hlo]at hat
   exact (ih a y K _ h (hli.1 hlo) hta hat).mono (rank_loopRank_le_rank_range hi g e r hlo)
  split at h
  ·cases h
   exact .front hli (by rwa[tame]) hex
  split at h
  ·rename_i hep
   have hen:=epilogAt_add lo hi g e a
   rw[if_pos hep]at hen
   rw[←hen]at hex
   obtain rfl:lo=0:=by omega
   have hhi:hi≠0:=by
    rintro rfl
    cases hep
   refine (ih _ y K r h (hli.2.2.2 hep) hta hex).mono ?_
   refine le_trans ?_ (loopRank_le_rank_range g e r rfl hhi)
   exact (e.rank_le_loopRank r).trans (e.loopRank_mono (by omega) le_rfl)
  ·cases h
 | nil a y K r h=>cases h
 | cons n ns ihn ihns a y K r h hli hta hex=>
  rw[tameList,Bool.and_eq_true]at hta
  rw[codeSizeList]at hex
  cases back with
  | false=>
   obtain⟨hn,hns⟩:=hli
   rw[←add_assoc]at hex
   exact (ihn a y K _ h hn hta.1 (Sits.front (n:=.cat ns) hns hta.2 hex)).mono (rank_rankList n ns r)
  | true=>
   obtain⟨hns,hn⟩:=hli
   rw[add_comm n.codeSize,←add_assoc]at hex
   rw[firstList,if_pos rfl]at h
   split at h
   ·rename_i hni
    obtain rfl:ns=[]:=List.isEmpty_iff.1 hni
    refine (ihn a y K r h hn hta.1 hex).mono (le_trans ?_ (rank_rankList n [] r))
    exact rankOf_mono (le_rankOf rfl _ r)
   ·exact (ihns a y K _ h hns hta.2 (.front hn hta.1 hex)).mono (rankList_rank n ns r)
lemma moves_again {e:Node}
 (hli:(Node.plus g e).Laid c back a)(hta:(Node.plus g e).tame)
 (hex:Sits c back ⟨a+(e.codeSize+4),K,none⟩ r):
 Moves c back ⟨a+e.codeSize,K,none⟩ (max e.weight r):=by
 have hp:e.tame∧e.probes=false:=by simpa[tame]using hta
 obtain⟨hbo,id,hs⟩:=id hli
 refine moves_split hs ?_ ?_
 ·exact hex.mono (le_max_right _ r)
 cases hf:e.first back a with
 | none=>
  refine .outside ?_
  rw[c.target_of_neg (by rw[backDistance];omega)]
 | some y=>
  rw[c.target_eq (y:=y) (by rw[backDistance];omega)]
  exact (e.first_sits a y K _ hf hbo hp.1 (.again hli hta hex)).mono (rank_max_weight hp.2 r)
lemma moves_leaf {n:Node}(hq:leaf? n=some q)
 (hf:c.fetch x=q)(hex:Sits c back ⟨x+q.size,K,none⟩ r)
 (hc:(⟨x+q.size,K,none⟩:Thread).Calm c):
 Moves c back ⟨x,K,none⟩ (n.rank r):=by
 cases n<;>cases hq
 case gap lo hi g=>
  refine moves_gap hf hex hc ?_
  by_cases hlo:lo%65536=0
  ·exact .inr (le_rankOf (by simp[idle,hlo]) _ r)
  ·exact .inl (Nat.pos_of_ne_zero hlo)
 case start | stop | boundary | nonBoundary=>
  exact moves_plain hf (fun _ h=>by rw[Thread.ways,h]) (fun _ h=>by rw[Thread.waits,h])
   (fun _=>rfl) hex fun _=>Nat.lt_one_add_iff.2 le_rfl
 all_goals
  exact moves_plain hf (fun _ h=>by rw[Thread.ways,h]) (fun _ h=>by rw[Thread.waits,h])
   (fun _=>rfl) hex (by rintro⟨⟩)
lemma carries_leaf {n:Node}(hn:n.IsLeaf):Carries c back n:=by
 intro a K r hli hta hex hmo
 rw[hn.laid_iff]at hli
 rw[hn.codeSize_eq]at hex hmo
 cases hq:leaf? n with
 | none=>
  rw[hq]at hmo
  refine hmo.mono (le_rankOf ?_ _ r)
  cases n<;>first | exact hn.elim | rfl | cases hq
 | some q=>
  rw[hq]at hex hmo
  exact moves_leaf hq (hli q hq) hex hmo.calm
lemma carries:Carries c back n:=by
 induction n using induction with
 | leaf n hn=>exact carries_leaf hn
 | cat _ ih=>exact ih
 | alt l r _ _=>
  rintro a K s ⟨⟨id,hs⟩,hla,hj,hld⟩ hta hex hmo
  rw[tame,Bool.and_eq_true]at hta
  have hou:c.target (a+4+l.codeSize) (r.codeSize+3)=a+(l.codeSize+r.codeSize+7):=c.target_eq (by omega)
  have ho:c.target a (l.codeSize+7)=a+4+l.codeSize+3:=c.target_eq (by omega)
  have hen:a+(l.codeSize+r.codeSize+7)=a+4+l.codeSize+3+r.codeSize:=by omega
  refine moves_split hs ?_ ?_
  ·refine (Sits.front hla hta.1 (.jump hj (hou▸hex))).mono (rankOf_le_rankOf ?_ ?_ ?_ s)
   ·simp +contextual [probes]
   ·simp +contextual [idle]
   ·simp[weight]
  ·rw[ho]
   refine (Sits.front hld hta.2 (hen▸hex)).mono (rankOf_le_rankOf ?_ ?_ ?_ s)
   ·simp +contextual [probes]
   ·simp +contextual [idle]
   ·simp[weight]
 | star g e _=>
  rintro a K s hli hta hex hmo
  obtain⟨⟨id,hs⟩,hbo,hj⟩:=id hli
  have hp:e.tame∧e.probes=false:=by simpa[tame]using hta
  have hb:c.target (a+4+e.codeSize) (-(e.codeSize:Int)-4)=a:=c.target_eq (by omega)
  have hra:(Node.star g e).rank s=max e.weight s:=by
   rw[rank,probes,hp.2]
   rfl
  have hfr:Sits c back ⟨a,K,none⟩ (max e.weight s):=hra ▸ .front hli hta hex
  rw[hra]
  refine moves_split hs ?_ ?_
  ·rw[←hb]at hfr
   exact (Sits.front hbo hp.1 (.jump hj hfr)).mono (rank_max_weight hp.2 s)
  ·exact hex.mono (le_max_right _ s)
 | plus g e ih=>
  intro a K s hli hta hex hmo
  have hp:e.tame∧e.probes=false:=by simpa[tame]using hta
  exact (ih a K _ hli.1 hp.1 (.again hli hta hex)
   (moves_again hli hta hex)).mono (rank_max_weight_le_rank_plus hp.2 g s)
 | range _ _ g e ih=>
  intro a K r hli hta hex hmo
  rw[tame]at hta
  exact (range_of_exit (P:=fun t r=>Sits c back t r∧Moves c back t r) (fun h hr=>⟨h.1.mono hr,h.2.mono hr⟩)
   (fun hl h=>⟨.front hl hta h.1,ih _ _ _ hl hta h.1 h.2⟩)
   (fun hf hl h=>⟨.option hf hl hta h.1,moves_option hf hl hta h.1⟩)
   (fun hl h=>⟨.loop hl hta h.1,moves_loop hl hta ih h.1 h.2⟩) hli ⟨hex,hmo⟩).2
 | nil=>
  intro a K r _ _ _ hmo
  exact hmo.mono (le_rankOf rfl _ r)
 | cons n ns ihn ihns=>
  intro a K r hli hta hex hmo
  rw[tame,tameList,Bool.and_eq_true]at hta
  rw[codeSize,codeSizeList]at hex hmo
  cases back with
  | false=>
   obtain⟨hn,hns⟩:=hli
   rw[←add_assoc]at hex hmo
   have hre:=ihns _ K r hns hta.2 hex hmo
   exact (ihn a K _ hn hta.1 (.front (n:=.cat ns) hns hta.2 hex) hre).mono (rank_rankList n ns r)
  | true=>
   obtain⟨hns,hn⟩:=hli
   rw[add_comm n.codeSize,←add_assoc]at hex hmo
   have hre:=ihn _ K r hn hta.1 hex hmo
   exact (ihns a K _ hns hta.2 (.front hn hta.1 hex) hre).mono (rankList_rank n ns r)
end Node
lemma Node.entry_sits {v:Nat→Inst→Verdict}:
 ∀a x L K r,n.Entry v back a x L→n.Laid c back a→n.tame→
  Sits c back ⟨a+n.codeSize,K,none⟩ r→∃s,Sits c back ⟨x,K,none⟩ s:=by
 induction n using induction (Q:=fun ns=>∀a x L K r,EntryList v back ns a x L→LaidList c back ns a→
   tameList ns→Sits c back ⟨a+codeSizeList ns,K,none⟩ r→
   ∃s,Sits c back ⟨x,K,none⟩ s) with
 | leaf n hn=>
  intro a x L K r he hli hta hex
  cases he with
  | start=>exact⟨_,.front hli hta hex⟩
  | stop=>exact⟨r,hex⟩
  | cat | left | right | star | plus | prolog | epilog=>exact hn.elim
 | cat _ ih=>
  intro a x L K r he hli hta hex
  cases he with
  | start=>exact⟨_,.front hli hta hex⟩
  | stop _ h=>exact h.elim
  | cat he=>exact ih a x L K r he hli hta hex
 | alt l m ihl ihm=>
  intro a x L K r he hli hta hex
  obtain⟨-,hla,hj,hld⟩:=id hli
  have hb:=hta
  rw[tame,Bool.and_eq_true]at hb
  cases he with
  | start=>exact⟨_,.front hli hta hex⟩
  | stop _ h=>exact h.elim
  | left he=>
   refine ihl _ _ _ K r he hla hb.1 (.jump hj ?_)
   rw[c.target_eq (y:=a+(Node.alt l m).codeSize) (by rw[codeSize];omega)]
   exact hex
  | right he=>
   refine ihm _ _ _ K r he hld hb.2 ?_
   rwa[show a+4+l.codeSize+3+m.codeSize=a+(l.codeSize+m.codeSize+7) by omega]
 | star g e ih=>
  intro a x L K r he hli hta hex
  obtain⟨-,hbo,hj⟩:=id hli
  have hp:e.tame∧e.probes=false:=by simpa[tame]using hta
  cases he with
  | start=>exact⟨_,.front hli hta hex⟩
  | stop _ h=>exact h.elim
  | star he=>
   refine ih _ _ _ K ((Node.star g e).rank r) he hbo hp.1 (.jump hj ?_)
   rw[c.target_eq (y:=a) (by omega)]
   exact .front hli hta hex
 | plus g e ih=>
  intro a x L K r he hli hta hex
  have hp:e.tame∧e.probes=false:=by simpa[tame]using hta
  cases he with
  | start=>exact⟨_,.front hli hta hex⟩
  | stop _ h=>exact h.elim
  | plus he=>exact ih _ _ _ K _ he hli.1 hp.1 (.again hli hta hex)
 | range lo hi g e ih=>
  intro a x L K r he hli hta hex
  have hbo:e.tame:=by rwa[tame]at hta
  cases he with
  | start=>exact⟨_,.front hli hta hex⟩
  | stop _ h=>exact h.elim
  | prolog hlo he=>
   have hat:Sits c back ⟨loopAt lo e a,K,none⟩ (e.loopRank (lo+hi+2) r):=
    loopAt_of_exit .mono (fun hl=>.front hl hbo) (fun hf hl=>.option hf hl hbo)
     (fun hl=>.loop hl hbo) hli hex
   rw[loopAt,if_pos hlo]at hat
   exact ih _ _ _ K _ he (hli.1 hlo) hbo hat
  | epilog hep he=>
   have hen:=epilogAt_add lo hi g e a
   rw[if_pos hep]at hen
   rw[←hen]at hex
   exact ih _ _ _ K r he (hli.2.2.2 hep) hbo hex
 | nil a x L K r he _ _ hex=>
  cases he
  exact⟨r,hex⟩
 | cons n ns ihn ihns a x L K r he hli hta hex=>
  have hb:=hta
  rw[tameList,Bool.and_eq_true]at hb
  cases back with
  | false=>
   obtain⟨hn,hns⟩:=id hli
   have hr:=hex
   rw[codeSizeList,←add_assoc]at hr
   cases he with
   | start=>exact⟨_,Sits.front (n:=.cat (n::ns)) hli hta hex⟩
   | head he=>exact ihn _ _ _ K _ he hn hb.1 (Sits.front (n:=.cat ns) hns hb.2 hr)
   | tail he=>exact ihns _ _ _ K r he hns hb.2 hr
  | true=>
   obtain⟨hns,hn⟩:=id hli
   have hr:=hex
   rw[codeSizeList,add_comm n.codeSize,←add_assoc]at hr
   cases he with
   | start=>exact⟨_,Sits.front (n:=.cat (n::ns)) hli hta hex⟩
   | head he=>exact ihn _ _ _ K r he hn hb.1 hr
   | tail he=>exact ihns _ _ _ K _ he hns hb.2 (.front hn hb.1 hr)
lemma Sits.moves (h:Sits c back t r):Moves c back t r:=by
 induction h with
 | mono _ hr ih=>exact ih.mono hr
 | accept h=>exact .of_end (.inl h)
 | outside h=>exact .of_end (.inr (c.fetch_of_size_le _ h))
 | front hli hta hex ih=>exact Node.carries _ _ _ _ hli hta hex ih
 | gap hf hex ih=>exact moves_gap hf hex ih.calm (.inr le_rfl)
 | jump hf hex ih=>exact moves_jump hf hex ih.calm
 | again hli hta hex _=>exact Node.moves_again hli hta hex
 | loop h hta hex ih=>exact moves_loop h hta (Node.carries _) hex ih
 | loopEnd m h hta hex ih=>exact moves_loopEnd h hta (Node.carries _) hex ih m
 | option hf hli hta hex _=>exact moves_option hf hli hta hex
end PatternScan.Regex
