import PatternScan.Proofs.Regex.Layout
import PatternScan.Proofs.Regex.Walk
/-! A walk through the code of a pattern takes a thread between positions of the tree. -/
open PatternScan.Regex.Thread Relation
namespace PatternScan.Regex
open Machine (Verdict advance)
open Emission (leaf?)
variable {n:Node}
def Inst.spans (v:Nat→Inst→Verdict):Inst→Nat→Nat→Prop
 | .gap lo hi g,i,j=>i≤j∧lo≤j-i∧j-i ≤ max lo hi∧
  ∀x,i≤x→x<j→v x (.gap lo hi g)=.read
 | s,i,j=>v i s=.read∧j=i+1∨v i s=.pass∧j=i
def Times (R:Nat→Nat→Prop):Nat→Nat→Nat→Prop
 | 0=>Eq
 | n+1=>Comp R (Times R n)

/-- The rounds of a loop. One round is made even if the upper bound is zero. -/
def Rounds (lo hi:Nat)(R:Nat→Nat→Prop)(i j:Nat):Prop:=
 ∃n,lo≤n∧n ≤ max 1 (max lo hi)∧Times R n i j
namespace Node
def rest (lo hi:Nat)(R:Nat→Nat→Prop):Nat→Nat→Prop:=
 Comp (if hasLoop lo hi then Rounds (loopLow lo hi) (loopHigh lo hi) R else Eq)
  (if hi>lo then fun i j=>i=j∨R i j else if hasEpilog lo hi then R else Eq)
mutual
/-- The positions between which the code of a pattern takes a thread. A repetition need not go back to the start of
its body. -/
def Spans (v:Nat→Inst→Verdict)(back:Bool):Node→Nat→Nat→Prop
 | .cat parts=>SpansList v back parts
 | .alt l r=>fun i j=>Spans v back l i j∨Spans v back r i j
 | .star _ e=>ReflTransGen (Spans v back e)
 | .plus _ e=>Comp (Spans v back e) (ReflTransGen (Again v back e))
 | .range lo hi _ e=>Comp (if lo>0 then Spans v back e else Eq) (rest lo hi (Spans v back e))
 | n=>(leaf? n).elim Eq (Inst.spans v)
def SpansList (v:Nat→Inst→Verdict)(back:Bool):List Node→Nat→Nat→Prop
 | []=>Eq
 | n::ns=>
  if back then Comp (SpansList v back ns) (Spans v back n)
  else Comp (Spans v back n) (SpansList v back ns)
def Again (v:Nat→Inst→Verdict)(back:Bool):Node→Nat→Nat→Prop
 | .cat parts=>AgainList v back parts
 | .alt l r=>fun i j=>Spans v back l i j∨Spans v back r i j
 | .star _ e=>ReflTransGen (Spans v back e)
 | .plus _ e=>Comp (Again v back e) (ReflTransGen (Again v back e))
 | .range lo hi _ e=>
  if lo>0 then Comp (Again v back e) (rest lo hi (Spans v back e))
  else if hasLoop lo hi then rest lo hi (Spans v back e)
  else if hasEpilog lo hi then Again v back e
  else fun _ _=>False
 | n=>(leaf? n).elim (fun _ _=>False) (Inst.spans v)
def AgainList (v:Nat→Inst→Verdict)(back:Bool):List Node→Nat→Nat→Prop
 | []=>fun _ _=>False
 | n::ns=>
  if back then
   if ns.isEmpty then Again v back n
   else Comp (AgainList v back ns) (Spans v back n)
  else Comp (Again v back n) (SpansList v back ns)
end
section
variable (hn:n.IsLeaf)(v:Nat→Inst→Verdict)(back:Bool)
include hn
lemma IsLeaf.spans_eq:n.Spans v back=(leaf? n).elim Eq (Inst.spans v):=by cases n<;>first | rfl | exact hn.elim
lemma IsLeaf.again_eq:n.Again v back=(leaf? n).elim (fun _ _=>False) (Inst.spans v):=by
 cases n<;>first | rfl | exact hn.elim
end
mutual
/-- An address in the code of a pattern with the positions between which the code takes a thread from there: the
start, the end of a leaf, and what a part of the pattern has. -/
inductive Entry (v:Nat→Inst→Verdict)(back:Bool):
 Node→Nat→Nat→(Nat→Nat→Prop)→Prop
 | start (n:Node)(a:Nat):Entry v back n a a (n.Spans v back)
 | stop {n:Node}(a:Nat):n.IsLeaf→Entry v back n a (a+n.codeSize) Eq
 | cat {parts:List Node}{a x:Nat}{L:Nat→Nat→Prop}:
  EntryList v back parts a x L→Entry v back (.cat parts) a x L
 | left {l r:Node}{a x:Nat}{L:Nat→Nat→Prop}:
  Entry v back l (a+4) x L→Entry v back (.alt l r) a x L
 | right {l r:Node}{a x:Nat}{L:Nat→Nat→Prop}:
  Entry v back r (a+4+l.codeSize+3) x L→Entry v back (.alt l r) a x L
 | star {g:Bool}{e:Node}{a x:Nat}{L:Nat→Nat→Prop}:
  Entry v back e (a+4) x L→
  Entry v back (.star g e) a x (Comp L (ReflTransGen (e.Spans v back)))
 | plus {g:Bool}{e:Node}{a x:Nat}{L:Nat→Nat→Prop}:
  Entry v back e a x L→
  Entry v back (.plus g e) a x (Comp L (ReflTransGen (e.Again v back)))
 | prolog {lo hi:Nat}{g:Bool}{e:Node}{a x:Nat}{L:Nat→Nat→Prop}:lo>0→
  Entry v back e a x L→
  Entry v back (.range lo hi g e) a x (Comp L (rest lo hi (e.Spans v back)))
 | epilog {lo hi:Nat}{g:Bool}{e:Node}{a x:Nat}{L:Nat→Nat→Prop}:
  hasEpilog lo hi=true→Entry v back e (epilogAt lo hi e a) x L→
  Entry v back (.range lo hi g e) a x L
inductive EntryList (v:Nat→Inst→Verdict)(back:Bool):
 List Node→Nat→Nat→(Nat→Nat→Prop)→Prop
 | start (ns:List Node)(a:Nat):EntryList v back ns a a (SpansList v back ns)
 | head {n:Node}{ns:List Node}{a x:Nat}{L:Nat→Nat→Prop}:
  Entry v back n (if back then a+codeSizeList ns else a) x L→
  EntryList v back (n::ns) a x (if back then L else Comp L (SpansList v back ns))
 | tail {n:Node}{ns:List Node}{a x:Nat}{L:Nat→Nat→Prop}:
  EntryList v back ns (if back then a else a+n.codeSize) x L→
  EntryList v back (n::ns) a x (if back then Comp L (n.Spans v back) else L)
end
namespace EntryList
variable {v:Nat→Inst→Verdict}{ns:List Node}{a x:Nat}{L:Nat→Nat→Prop}
lemma head_forwards (h:n.Entry v false a x L):EntryList v false (n::ns) a x (Comp L (SpansList v false ns)):=
 head h
lemma tail_forwards (h:EntryList v false ns (a+n.codeSize) x L):EntryList v false (n::ns) a x L:=
 tail h
lemma head_backwards (h:n.Entry v true (a+codeSizeList ns) x L):EntryList v true (n::ns) a x L:=
 head h
lemma tail_backwards (h:EntryList v true ns a x L):EntryList v true (n::ns) a x (Comp L (n.Spans v true)):=
 tail h
end EntryList
end Node
end PatternScan.Regex
namespace PatternScan.Regex
open List Nat
open Machine (Verdict advance)
open Emission (leaf?)
variable {c:Code}{v:Nat→Inst→Verdict}{N x y least most lo hi:Nat}{t s u:Thread}{L:Nat→Nat→Prop}{d:Int}{K:List Nat}{back g:Bool}{e n:Node}{q:Inst}
/-- Nothing goes past the end of the code or of a match, and gaps only read. -/
structure Proper (v:Nat→Inst→Verdict):Prop where
 filler:∀i,v i .filler=.die
 accept:∀i,v i .accept=.accept
 gap:∀i lo hi g,v i (.gap lo hi g)≠.pass

lemma Move.fetch_ne_accept {i j:Nat}(hv:Proper v)(h:Move c v t i u j):c.fetch t.address≠.accept:=by
 intro ht
 cases h with
 | on hu=>simp[ways,ht]at hu
 | read _ hr=>
  rw[ht,hv.accept]at hr
  cases hr
 | pass _ hp=>
  rw[ht,hv.accept]at hp
  cases hp

/-- Every walk of bounded length from one thread comes to the other, between positions in a relation, before it comes
to the end of a match. -/
def Leads (c:Code)(v:Nat→Inst→Verdict)(N:Nat)(t s:Thread)(L:Nat→Nat→Prop):Prop:=
 ∀n≤N,∀i u j,Walk c v n t i u j→c.fetch u.address≠.accept∨∃m≤n,∃k,L i k∧Walk c v m s k u j
namespace Leads
variable {w:Thread}{L':Nat→Nat→Prop}
lemma refl:Leads c v N t t Eq:=fun _ _ i _ _ h=>Or.inr ⟨_,le_rfl,i,rfl,h⟩
lemma trans (h:Leads c v N t s L)(h':Leads c v N s w L'):Leads c v N t w (Comp L L'):=by
 intro n hn i u j hw
 rcases h n hn i u j hw with hin|⟨m,hm,k,hk,hw⟩
 ·exact Or.inl hin
 rcases h' m (hm.trans hn) k u j hw with hin|⟨m',hm',k',hk',hw⟩
 ·exact Or.inl hin
 ·exact Or.inr ⟨m',hm'.trans hm,k',⟨k,hk,hk'⟩,hw⟩
lemma mono (h:Leads c v N t s L)(hL:∀i j,L i j→L' i j):Leads c v N t s L':=by
 intro n hn i u j hw
 rcases h n hn i u j hw with hin|⟨m,hm,k,hk,hw⟩
 ·exact Or.inl hin
 ·exact Or.inr ⟨m,hm,k,hL i k hk,hw⟩
lemma on (ht:c.fetch t.address≠.accept)(hw:t.waits c=none)
 (h:∀u∈t.ways c,∀M<N,Leads c v M u s L):Leads c v N t s L:=by
 intro n hn i u j hwa
 cases hwa with
 | refl=>exact Or.inl ht
 | step hmo hwa=>
  cases hmo with
  | on hu=>
   refine (h _ hu _ hn _ le_rfl i u j hwa).imp_right ?_
   rintro⟨m,hm,hk⟩
   exact⟨m,hm.trans (le_succ _),hk⟩
  | read hwt _=>cases hw.symm.trans hwt
  | pass hwt _=>cases hw.symm.trans hwt
lemma outside (hv:Proper v)(ht:c.size≤t.address):Leads c v N t s L:=by
 intro n _ i u j hw
 have hf:=Code.fetch_of_size_le c _ ht
 cases hw with
 | refl=>
  left
  rw[hf]
  exact nofun
 | step hm _=>
  cases hm with
  | on hu=>simp[ways,hf]at hu
  | read _ hr=>
   rw[hf,hv.filler]at hr
   cases hr
  | pass _ hp=>
   rw[hf,hv.filler]at hp
   cases hp
end Leads
lemma Code.target_eq (c:Code)(h:(x:Int)+d=y):c.target x d=y:=by
 simp only[target,h]
 exact Int.toNat_natCast y
lemma Code.target_of_neg (c:Code)(h:(x:Int)+d<0):c.target x d=c.size:=by
 simp only[target]
 rw[if_pos h]
 rfl
lemma mem_ways_split {f:Bool}{id:Nat}(hf:c.fetch x=.split f id d):
 u∈(⟨x,K,none⟩:Thread).ways c↔u=⟨x+4,K,none⟩∨u=⟨c.target x d,K,none⟩:=by
 simp only[ways,hf,Inst.size,mem_cons,not_mem_nil,or_false]
lemma mem_ways_jump (hf:c.fetch x=.jump d):u∈(⟨x,K,none⟩:Thread).ways c↔u=⟨c.target x d,K,none⟩:=by
 simp only[ways,hf,mem_singleton]

/-- A thread that goes on to one of two others and does not wait. -/
structure Fork (c:Code)(r t s:Thread):Prop where
 moves:c.fetch r.address≠.accept
 waits:r.waits c=none
 ways:∀u,u∈r.ways c↔u=t∨u=s
namespace Fork
variable {r:Thread}
lemma symm (h:Fork c r t s):Fork c r s t:=
 ⟨h.moves,h.waits,fun u=>(h.ways u).trans or_comm⟩
lemma split {f:Bool}{id:Nat}(hf:c.fetch x=.split f id d):Fork c ⟨x,K,none⟩ ⟨x+4,K,none⟩ ⟨c.target x d,K,none⟩:=
 ⟨by simp[hf],by simp[Thread.waits,hf],fun _=>mem_ways_split hf⟩
lemma jump (hf:c.fetch x=.jump d):Fork c ⟨x,K,none⟩ ⟨c.target x d,K,none⟩ ⟨c.target x d,K,none⟩:=
 ⟨by simp[hf],by simp[Thread.waits,hf],fun _=>by rw[mem_ways_jump hf,or_self]⟩
end Fork
structure LoopLaid (c:Code)(back:Bool)(e:Node)(least most x:Nat):Prop where
 start:∃g,c.fetch x=.repeatStart g least most (e.codeSize+18)
 body:e.Laid c back (x+9)
 stop:∃g,c.fetch (x+9+e.codeSize)=.repeatEnd g least most (-(e.codeSize:Int))
namespace LoopLaid
section
variable (h:LoopLaid c back e least most x)
include h
lemma ways_start (hu:u∈(⟨x,K,none⟩:Thread).ways c):u=⟨x+9,0::K,none⟩∨u=⟨x+(e.codeSize+18),K,none⟩:=by
 obtain⟨g,hf⟩:=h.start
 simp only[ways,hf,mem_cons]at hu
 refine hu.imp_right fun hu=>?_
 split at hu
 ·exact mem_singleton.1 hu
 ·cases hu
lemma ways_stop {m:Nat}(hu:u∈(⟨x+9+e.codeSize,m::K,none⟩:Thread).ways c):
 m+1 < max least most∧u=⟨x+9,(m+1)::K,none⟩∨u=⟨x+(e.codeSize+18),K,none⟩:=by
 obtain⟨g,hf⟩:=h.stop
 have ht:c.target (x+9+e.codeSize) (-(e.codeSize:Int))=x+9:=c.target_eq (by omega)
 have he:x+9+e.codeSize+9=x+(e.codeSize+18):=by omega
 simp only[ways,hf,Inst.size,ht,he,headD_cons,mem_append]at hu
 grind
lemma waits_start:(⟨x,K,none⟩:Thread).waits c=none:=by
 obtain⟨g,hf⟩:=h.start
 simp only[waits,hf]
lemma waits_stop:(⟨x+9+e.codeSize,K,none⟩:Thread).waits c=none:=by
 obtain⟨g,hf⟩:=h.stop
 simp only[waits,hf]
end
end LoopLaid
lemma Node.loopLaid_of_range {a:Nat}(h:(range lo hi g e).Laid c back a)(hl:hasLoop lo hi):
 LoopLaid c back e (loopLow lo hi) (loopHigh lo hi) (loopAt lo e a):=by
 obtain⟨hst,hb,hs⟩:=h.2.1 hl
 exact⟨⟨g,hst⟩,hb,⟨g,hs⟩⟩
section
lemma leads_gap (hv:Proper v)
 (hf:c.fetch x=.gap least most g):∀N tk,Leads c v N ⟨x,K,tk⟩ ⟨x+5,K,none⟩ fun i j=>
  i≤j∧least≤tk.getD 0+(j-i)∧tk.getD 0+(j-i) ≤ max (tk.getD 0) (max least most)∧
   ∀y,i≤y→y<j→v y (.gap least most g)=.read:=by
 intro N
 induction N with
 | zero=>
  intro tk n hn i u j hw
  obtain rfl:=le_zero.1 hn
  cases hw
  exact Or.inl (by simp[hf])
 | succ N ih=>
  intro tk n hn i u j hw
  cases hw with
  | refl=>exact Or.inl (by simp[hf])
  | @step n _ _ _ _ _ _ hmo hw=>
   cases hmo with
   | on hu=>
    simp only[ways,hf,Thread.count]at hu
    split at hu
    ·cases hu
    ·obtain rfl:=mem_singleton.1 hu
     refine Or.inr ⟨n,le_succ _,i,⟨le_rfl,?_,?_,?_⟩,hw⟩
     ·omega
     ·omega
     ·omega
   | read hwa hr=>
    obtain⟨hc,rfl⟩:=(waits_gap hf).1 hwa
    simp only[hf,Thread.count]at hw hr hc
    rcases ih _ n (le_of_succ_le_succ hn) _ _ _ hw with hin|⟨m,hm,k,hk,hw⟩
    ·exact Or.inl hin
    grind
   | pass _ hp=>
    rw[hf]at hp
    exact absurd hp (hv.gap _ _ _ _)
lemma leads_plain (hf:c.fetch x=q)(ha:q≠.accept)(hwy:∀t:Thread,t.address=x→t.ways c=[])
 (hwt:∀t:Thread,t.address=x→t.waits c=some t)
 (had:∀t:Thread,advance t q={t with address:=t.address+q.size}):
 Leads c v N ⟨x,K,none⟩ ⟨x+q.size,K,none⟩ fun i j=>
  v i q=.read∧j=i+1∨v i q=.pass∧j=i:=by
 intro n hn i u j hw
 cases hw with
 | refl=>exact Or.inl (by rwa[hf])
 | @step n _ _ _ _ _ _ hm hw=>
  cases hm with
  | on hu=>
   rw[hwy _ rfl]at hu
   cases hu
  | read hwa hr=>
   rw[hwt _ rfl]at hwa
   cases hwa
   simp only[hf,had]at hw hr
   exact Or.inr ⟨n,le_succ _,i+1,Or.inl ⟨hr,rfl⟩,hw⟩
  | pass hwa hp=>
   rw[hwt _ rfl]at hwa
   cases hwa
   simp only[hf,had]at hw hp
   exact Or.inr ⟨n,le_succ _,i,Or.inr ⟨hp,rfl⟩,hw⟩
lemma leads_leaf (hv:Proper v)(hq:leaf? n=some q)
 (hf:c.fetch x=q):Leads c v N ⟨x,K,none⟩ ⟨x+q.size,K,none⟩ (q.spans v):=by
 cases n<;>cases hq
 case gap least most g=>
  refine (leads_gap hv hf N none).mono fun i j h=>?_
  simpa[Inst.spans]using h
 all_goals
  refine leads_plain hf (by simp) (fun t ht=>?_) (fun t ht=>?_) fun t=>rfl
  ·simp[ways,ht,hf]
  ·simp[waits,ht,hf]
section
variable {R:Nat→Nat→Prop}{size:Nat}
lemma leads_repeatEnd (hf:c.fetch (x+size)=.repeatEnd g least most (-(size:Int)))
 (hb:∀N K,Leads c v N ⟨x,K,none⟩ ⟨x+size,K,none⟩ R):
 ∀N n,Leads c v N ⟨x+size,n::K,none⟩ ⟨x+size+9,K,none⟩ fun i j=>
  ∃k,least≤n+1+k∧n+1+k ≤ max (n+1) (max least most)∧Times R k i j:=by
 intro N
 induction N using Nat.strong_induction_on with
 | _ N ih=>
  intro n
  refine Leads.on (by simp[hf]) (by simp[waits,hf]) fun u hu M hM=>?_
  have ht:c.target (x+size) (-(size:Int))=x:=c.target_eq (by omega)
  simp only[ways,hf,ht,headD_cons,mem_append]at hu
  rcases hu with hu|hu
  ·split at hu
   ·obtain rfl:=mem_singleton.1 hu
    refine ((hb M _).trans (ih M hM (n+1))).mono ?_
    rintro i j ⟨m,hm,k,h1,h2,hk⟩
    exact⟨k+1,by omega,by omega,m,hm,hk⟩
   ·cases hu
  split at hu
  ·cases hu
  ·obtain rfl:=mem_singleton.1 hu
   refine Leads.refl.mono ?_
   rintro i j rfl
   exact⟨0,by omega,by omega,rfl⟩
lemma leads_loop (hst:c.fetch x=.repeatStart g least most (size+18))
 (he:c.fetch (x+9+size)=.repeatEnd g least most (-(size:Int)))
 (hb:∀N K,Leads c v N ⟨x+9,K,none⟩ ⟨x+9+size,K,none⟩ R)(N:Nat):
 Leads c v N ⟨x,K,none⟩ ⟨x+(size+18),K,none⟩ (Rounds least most R):=by
 refine Leads.on (by simp[hst]) (by simp[waits,hst]) fun u hu M hM=>?_
 simp only[ways,hst,mem_cons]at hu
 rcases hu with rfl|hu
 ·have hr:=leads_repeatEnd (K:=K) he hb M 0
  rw[show x+9+size+9=x+(size+18) by omega]at hr
  refine ((hb M _).trans hr).mono ?_
  rintro i j ⟨m,hm,k,h1,h2,hk⟩
  exact⟨k+1,by omega,by omega,m,hm,hk⟩
 split at hu
 ·obtain rfl:=mem_singleton.1 hu
  refine Leads.refl.mono ?_
  rintro i j rfl
  exact⟨0,by omega,by omega,rfl⟩
 ·cases hu
end
end
lemma false_comp (R:Nat→Nat→Prop):Comp (fun _ _:Nat=>False) R=fun _ _:Nat=>False:=by
 funext i j
 simp[Comp]
namespace Node
lemma first_entry (n:Node):∀a x,n.first back a=some x→
 n.Entry v back a x (n.Again v back):=by
 induction n using induction (Q:=fun ns=>∀a x,firstList back ns a=some x→
   EntryList v back ns a x (AgainList v back ns)) with
 | leaf n hn=>
  intro a x h
  rw[hn.first_eq,Option.map_eq_some_iff]at h
  obtain⟨i,hi,rfl⟩:=h
  have hs:n.Again v back=n.Spans v back:=by
   rw[hn.again_eq,hn.spans_eq,hi]
   rfl
  rw[hs]
  exact .start n a
 | cat p ih=>exact fun a x h=>.cat (ih a x h)
 | alt l r _ _=>
  intro a x h
  cases h
  exact .start _ a
 | star g e _=>
  intro a x h
  cases h
  exact .start _ a
 | plus g e ih=>exact fun a x h=>.plus (ih a x h)
 | range lo hi g e ih=>
  intro a x h
  rw[first]at h
  rw[Again]
  split at h
  ·rename_i hlo
   rw[if_pos hlo]
   exact .prolog hlo (ih a x h)
  rename_i hlo
  rw[if_neg hlo]
  split at h
  ·rename_i hl
   cases h
   have hst:(range lo hi g e).Entry v back a a _:=.start _ a
   rw[Spans,if_neg hlo,eq_comp]at hst
   rw[if_pos hl]
   exact hst
  rename_i hl
  rw[if_neg hl]
  split at h
  ·rename_i hep
   rw[if_pos hep]
   exact .epilog hep (ih _ x h)
  ·cases h
 | nil a x h=>cases h
 | cons n ns ihn ihns a x h=>
  cases back with
  | false=>exact .head_forwards (ihn a x h)
  | true=>
   rw[firstList,if_pos rfl]at h
   rw[AgainList]
   split at h
   ·rename_i hns
    obtain rfl:ns=[]:=List.isEmpty_iff.1 hns
    exact .head_backwards (ihn a x h)
   ·rename_i hns
    rw[if_neg hns]
    exact .tail_backwards (ihns a x h)
lemma again_of_first_eq_none (n:Node):∀a,n.first back a=none→n.Again v back=fun _ _=>False:=by
 induction n using induction (Q:=fun ns=>∀a,firstList back ns a=none→
   AgainList v back ns=fun _ _=>False) with
 | leaf n hn=>
  intro a h
  rw[hn.first_eq,Option.map_eq_none_iff]at h
  rw[hn.again_eq,h]
  rfl
 | cat _ ih=>exact ih
 | alt l r _ _=>exact nofun
 | star g e _=>exact nofun
 | plus g e ih=>
  intro a h
  rw[Again,ih a h,false_comp]
 | range _ _ g e ih=>
  intro a h
  rw[first]at h
  rw[Again]
  split at h
  ·rename_i hlo
   rw[if_pos hlo,ih a h,false_comp]
  rename_i hlo
  rw[if_neg hlo]
  split at h
  ·cases h
  grind
 | nil=>rfl
 | cons n _ ihn ihns a h=>
  rw[firstList]at h
  rw[AgainList]
  split at h
  ·rename_i hb
   rw[if_pos hb]
   split at h
   ·rename_i hns
    rw[if_pos hns,ihn a h]
   ·rename_i hns
    rw[if_neg hns,ihns a h,false_comp]
  ·rename_i hb
   rw[if_neg hb,ihn a h,false_comp]
end Node
/-- What can be said of two threads and the positions between which the first goes on to the second, put together from
the instructions between them. -/
structure Crossing (c:Code)(v:Nat→Inst→Verdict)
 (P:Thread→Thread→(Nat→Nat→Prop)→Prop):Prop where
 refl:∀t,P t t Eq
 trans:∀{t s w L L'},P t s L→P s w L'→P t w (Comp L L')
 outside:∀{t s},c.size≤t.address→P t s fun _ _=>False
 leaf:∀{n q x K},leaf? n=some q→c.fetch x=q→P ⟨x,K,none⟩ ⟨x+q.size,K,none⟩ (q.spans v)
 fork:∀{r t t' s L L'},Fork c r t t'→P t s L→P t' s L'→P r s fun i j=>L i j∨L' i j
 turn:∀{r t s R},Fork c r t s→P t r R→P r s (ReflTransGen R)
 loop:∀{x K g least most size R},c.fetch x=.repeatStart g least most ((size:Nat)+18)→
  c.fetch (x+9+size)=.repeatEnd g least most (-(size:Int))→
  (∀K,P ⟨x+9,K,none⟩ ⟨x+9+size,K,none⟩ R)→
  P ⟨x,K,none⟩ ⟨x+(size+18),K,none⟩ (Rounds least most R)
namespace Crossing
variable {P:Thread→Thread→(Nat→Nat→Prop)→Prop}
lemma jump (h:Crossing c v P){x y:Nat}{K:List Nat}{d:Int}(hf:c.fetch x=.jump d)
 (hd:(x:Int)+d=y):P ⟨x,K,none⟩ ⟨y,K,none⟩ Eq:=by
 have hfo:=h.fork (Fork.jump (K:=K) hf) (h.refl _) (h.refl _)
 simpa only[or_self,c.target_eq hd]using hfo

/-- It holds between the entries of the code of a pattern and the end of the code. -/
def Of (c:Code)(v:Nat→Inst→Verdict)(P:Thread→Thread→(Nat→Nat→Prop)→Prop)(back:Bool)(n:Node):Prop:=
 ∀a x L,n.Laid c back a→n.Entry v back a x L→∀K,P ⟨x,K,none⟩ ⟨a+n.codeSize,K,none⟩ L
def OfList (c:Code)(v:Nat→Inst→Verdict)(P:Thread→Thread→(Nat→Nat→Prop)→Prop)(back:Bool)(ns:List Node):Prop:=
 ∀a x L,Node.LaidList c back ns a→Node.EntryList v back ns a x L→∀K,
  P ⟨x,K,none⟩ ⟨a+Node.codeSizeList ns,K,none⟩ L
variable (h:Crossing c v P)
include h
lemma of_leaf (hn:n.IsLeaf):Of c v P back n:=by
 intro a x L hl he K
 cases he with
 | start=>
  rw[hn.laid_iff]at hl
  rw[hn.spans_eq,hn.codeSize_eq]
  cases hq:leaf? n with
  | none=>exact h.refl _
  | some q=>exact h.leaf hq (hl q hq)
 | stop=>exact h.refl _
 | cat | left | right | star | plus | prolog | epilog=>exact hn.elim
lemma of_alt {l r:Node}(hl:Of c v P back l)(hr:Of c v P back r):Of c v P back (.alt l r):=by
 rintro a x L ⟨⟨id,hs⟩,hla,hj,hld⟩ he K
 have hle:∀{x L},l.Entry v back (a+4) x L→P ⟨x,K,none⟩ ⟨a+(l.codeSize+r.codeSize+7),K,none⟩ L:=by
  intro x L he
  rw[←comp_eq (r:=L)]
  exact h.trans (hl _ _ _ hla he K) (h.jump hj (by omega))
 have hri:∀{x L},r.Entry v back (a+4+l.codeSize+3) x L→P ⟨x,K,none⟩ ⟨a+(l.codeSize+r.codeSize+7),K,none⟩ L:=by
  intro x L he
  have:=hr _ _ _ hld he K
  rwa[show a+4+l.codeSize+3+r.codeSize=a+(l.codeSize+r.codeSize+7) by omega]at this
 cases he with
 | start=>
  refine h.fork (.split hs) (hle (.start l _)) ?_
  rw[c.target_eq (y:=a+4+l.codeSize+3) (by omega)]
  exact hri (.start r _)
 | stop _ hlf=>exact hlf.elim
 | left he=>exact hle he
 | right he=>exact hri he
lemma of_star (he:Of c v P back e):Of c v P back (.star g e):=by
 rintro a x L ⟨⟨id,hs⟩,hla,hj⟩ hen K
 have hrd:∀{x L},e.Entry v back (a+4) x L→P ⟨x,K,none⟩ ⟨a,K,none⟩ L:=by
  intro x L hen
  rw[←comp_eq (r:=L)]
  exact h.trans (he _ _ _ hla hen K) (h.jump hj (by omega))
 have hl:=h.turn (.split hs) (hrd (.start e _))
 cases hen with
 | start=>exact hl
 | stop _ hle=>exact hle.elim
 | star hen=>exact h.trans (hrd hen) hl
lemma of_plus (he:Of c v P back e):Of c v P back (.plus g e):=by
 rintro a x L ⟨hl,id,hs⟩ hen K
 have hlo:P ⟨a+e.codeSize,K,none⟩ ⟨a+(e.codeSize+4),K,none⟩ (ReflTransGen (e.Again v back)):=by
  refine h.turn (Fork.split hs).symm ?_
  cases hf:e.first back a with
  | none=>
   rw[c.target_of_neg (by rw[Node.backDistance];omega),e.again_of_first_eq_none a hf]
   exact h.outside le_rfl
  | some y=>
   rw[c.target_eq (y:=y) (by rw[Node.backDistance];omega)]
   exact he _ _ _ hl (Node.first_entry e a y hf) K
 cases hen with
 | start=>exact h.trans (he _ _ _ hl (.start e a) K) hlo
 | stop _ hle=>exact hle.elim
 | plus hen=>exact h.trans (he _ _ _ hl hen K) hlo
lemma of_range (he:Of c v P back e):Of c v P back (.range lo hi g e):=by
 rintro a x L ⟨hp,hl,hbra,hpi⟩ hen K
 have hend:=Node.epilogAt_add lo hi g e a
 have hepi:Node.epilogAt lo hi e a=Node.branchAt lo hi e a+if hi>lo then 4 else 0:=rfl
 have hbr:Node.branchAt lo hi e a=Node.loopAt lo e a+if Node.hasLoop lo hi then e.codeSize+18 else 0:=rfl
 have hlp:Node.loopAt lo e a=a+if lo>0 then e.codeSize else 0:=rfl
 generalize hb:a+(Node.range lo hi g e).codeSize=b at hend⊢
 have ha:∀{x L},Node.hasEpilog lo hi→
  e.Entry v back (Node.epilogAt lo hi e a) x L→P ⟨x,K,none⟩ ⟨b,K,none⟩ L:=by
  intro x L hep hen
  rw[if_pos hep]at hend
  have:=he _ _ _ (hpi hep) hen K
  rwa[hend]at this
 have ht:P ⟨Node.branchAt lo hi e a,K,none⟩ ⟨b,K,none⟩ (if hi>lo then fun i j=>i=j∨e.Spans v back i j
   else if Node.hasEpilog lo hi then e.Spans v back else Eq):=by
  by_cases hhi:hi>lo
  ·have hep:Node.hasEpilog lo hi:=by simp[Node.hasEpilog,hhi]
   obtain⟨id,hs⟩:=hbra hhi
   rw[if_pos hhi]at hepi⊢
   rw[if_pos hep]at hend
   refine h.fork (Fork.split hs).symm ?_ (hepi▸ha hep (.start e _))
   rw[c.target_eq (y:=b) (by omega)]
   exact h.refl _
  rw[if_neg hhi,add_zero]at hepi
  rw[if_neg hhi,←hepi]
  by_cases hep:Node.hasEpilog lo hi
  ·rw[if_pos hep]
   exact ha hep (.start e _)
  ·rw[if_neg hep,add_zero]at hend
   rw[if_neg hep,hend]
   exact h.refl _
 have hr:P ⟨Node.loopAt lo e a,K,none⟩ ⟨b,K,none⟩ (Node.rest lo hi (e.Spans v back)):=by
  refine h.trans ?_ ht
  by_cases hlo:Node.hasLoop lo hi
  ·obtain⟨h1,h2,h3⟩:=hl hlo
   rw[if_pos hlo]at hbr⊢
   rw[hbr]
   exact h.loop h1 h3 fun K=>he _ _ _ h2 (.start e _) K
  ·rw[if_neg hlo]at hbr
   rw[if_neg hlo,hbr]
   exact h.refl _
 have hbe:∀{x L},lo>0→e.Entry v back a x L→P ⟨x,K,none⟩ ⟨Node.loopAt lo e a,K,none⟩ L:=by
  intro x L hlo hen
  rw[if_pos hlo]at hlp
  rw[hlp]
  exact he _ _ _ (hp hlo) hen K
 cases hen with
 | start=>
  refine h.trans ?_ hr
  by_cases hlo:lo>0
  ·rw[if_pos hlo]
   exact hbe hlo (.start e a)
  ·rw[if_neg hlo]at hlp
   rw[if_neg hlo,hlp]
   exact h.refl _
 | stop _ hle=>exact hle.elim
 | prolog hlo hen=>exact h.trans (hbe hlo hen) hr
 | epilog hep hen=>exact ha hep hen
lemma of_cons {ns:List Node}(hn:Of c v P back n)
 (hns:OfList c v P back ns):OfList c v P back (n::ns):=by
 intro a x L hl he K
 cases back with
 | false=>
  have hs:∀{x L},Node.EntryList v false ns (a+n.codeSize) x L→
   P ⟨x,K,none⟩ ⟨a+(n.codeSize+Node.codeSizeList ns),K,none⟩ L:=by
   intro x L he
   have:=hns _ _ _ hl.2 he K
   rwa[add_assoc]at this
  cases he with
  | start=>exact h.trans (hn _ _ _ hl.1 (.start n a) K) (hs (.start ns _))
  | head he=>exact h.trans (hn _ _ _ hl.1 he K) (hs (.start ns _))
  | tail he=>exact hs he
 | true=>
  have hs:∀{x L},n.Entry v true (a+Node.codeSizeList ns) x L→
   P ⟨x,K,none⟩ ⟨a+(n.codeSize+Node.codeSizeList ns),K,none⟩ L:=by
   intro x L he
   have:=hn _ _ _ hl.2 he K
   rwa[add_assoc,add_comm (Node.codeSizeList ns)]at this
  cases he with
  | start=>exact h.trans (hns _ _ _ hl.1 (.start ns a) K) (hs (.start n _))
  | head he=>exact hs he
  | tail he=>exact h.trans (hns _ _ _ hl.1 he K) (hs (.start n _))
lemma of_node (n:Node):Of c v P back n:=by
 induction n using Node.induction (Q:=OfList c v P back) with
 | leaf n hn=>exact h.of_leaf hn
 | cat p ih=>
  intro a x L hl he
  cases he with
  | start=>exact ih a a _ hl (.start p a)
  | stop _ hle=>exact hle.elim
  | cat he=>exact ih a x L hl he
 | alt l r ihl ihr=>exact h.of_alt ihl ihr
 | star g e ih=>exact h.of_star ih
 | plus g e ih=>exact h.of_plus ih
 | range _ _ g e ih=>exact h.of_range ih
 | nil=>
  intro a x L _ he K
  cases he
  exact h.refl _
 | cons n _ ihn ihns=>exact h.of_cons ihn ihns
end Crossing
lemma leads_crossing (hv:Proper v):
 Crossing c v fun t s L=>∀N,Leads c v N t s L where
 refl _ _:=Leads.refl
 trans h h' N:=(h N).trans (h' N)
 outside h _:=Leads.outside hv h
 leaf hq hf _:=leads_leaf hv hq hf
 fork h h1 h2 N:=by
  refine Leads.on h.moves h.waits fun u hu M _=>?_
  rcases (h.ways u).1 hu with rfl|rfl
  ·exact (h1 M).mono fun _ _=>Or.inl
  ·exact (h2 M).mono fun _ _=>Or.inr
 turn h hrd N:=by
  induction N using Nat.strong_induction_on with
  | _ N ih=>
   refine Leads.on h.moves h.waits fun u hu M hM=>?_
   rcases (h.ways u).1 hu with rfl|rfl
   ·refine ((hrd M).trans (ih M hM)).mono ?_
    rintro i j ⟨k,hk,hr⟩
    exact .head hk hr
   ·exact Leads.refl.mono fun i j h=>h ▸ .refl
 loop hst he hb N:=leads_loop hst he (fun M K=>hb K M) N
end PatternScan.Regex
