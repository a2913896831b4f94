import PatternScan.Proofs.Regex.Zones
/-! Which branches are come to in one way is read off the tree, from the leaves on. -/
namespace PatternScan.Regex
open Thread
open Bool (and_eq_true)
open Machine (Verdict advance)
open Emission (leaf?)
variable {e n:Node}{g:Bool}{a lo hi:Nat}{K:List Nat}{t:Thread}
namespace Node
mutual
def face (back:Bool):Node→Face
 | .cat parts=>faceList back parts
 | .alt l r=>.alt (l.face back) (r.face back)
 | .star _ e=>.option (e.face back)
 | .plus _ e=>.plus (e.face back)
 | .range lo hi _ e=>
  .seq (if lo>0 then e.face back else .nil) (.seq
    (if hasLoop lo hi then .loop (max (loopLow lo hi) (loopHigh lo hi)) (e.face back)
     else .nil)
    (if hi>lo then .option (e.face back)
     else if hasEpilog lo hi then e.face back else .nil))
 | .empty=>.nil
 | .gap lo _ _=>.leaf (lo%65536==0)
 | _=>.leaf false
def faceList (back:Bool):List Node→Face
 | []=>.nil
 | n::ns=>
  if back then .seq (faceList back ns) (n.face back)
  else .seq (n.face back) (faceList back ns)
end
mutual
/-- A pattern in whose code a thread comes to each branch in one way between two inputs. -/
def steady (back:Bool):Node→Bool
 | .cat parts=>steadyList back parts
 | .alt l r=>l.steady back&&r.steady back
 | .star _ e | .plus _ e=>e.steady back&&(e.face back).recurs
 | .range lo hi _ e=>
  e.steady back&&(!hasLoop lo hi||max (loopLow lo hi) (loopHigh lo hi)≤1||e.unbranched ||
    !(e.face back).blank&&(e.face back).apart)
 | _=>true
def steadyList (back:Bool):List Node→Bool
 | []=>true
 | n::ns=>n.steady back&&steadyList back ns
end
mutual
/-- Where a thread goes on after it has waited: behind a leaf, or at a gap that has taken bytes. -/
inductive Spot (back:Bool):Node→Nat→List Nat→Thread→Prop
 | start (n:Node)(a:Nat)(K:List Nat):Spot back n a K ⟨a,K,none⟩
 | stop {n:Node}(a:Nat)(K:List Nat):n.IsLeaf→
  Spot back n a K ⟨a+n.codeSize,K,none⟩
 | gap {lo hi:Nat}{g:Bool}(a:Nat)(K:List Nat)(taken:Option Nat):
  Spot back (.gap lo hi g) a K ⟨a,K,taken⟩
 | cat {parts:List Node}{a:Nat}{K:List Nat}{t:Thread}:
  SpotList back parts a K t→Spot back (.cat parts) a K t
 | left {l r:Node}{a:Nat}{K:List Nat}{t:Thread}:
  Spot back l (a+4) K t→Spot back (.alt l r) a K t
 | right {l r:Node}{a:Nat}{K:List Nat}{t:Thread}:
  Spot back r (a+4+l.codeSize+3) K t→Spot back (.alt l r) a K t
 | star {g:Bool}{e:Node}{a:Nat}{K:List Nat}{t:Thread}:
  Spot back e (a+4) K t→Spot back (.star g e) a K t
 | plus {g:Bool}{e:Node}{a:Nat}{K:List Nat}{t:Thread}:
  Spot back e a K t→Spot back (.plus g e) a K t
 | prolog {lo hi:Nat}{g:Bool}{e:Node}{a:Nat}{K:List Nat}{t:Thread}:lo>0→
  Spot back e a K t→Spot back (.range lo hi g e) a K t
 | loop {lo hi:Nat}{g:Bool}{e:Node}{a:Nat}{K:List Nat}{t:Thread}(m:Nat):
  hasLoop lo hi=true→m < max 1 (max (loopLow lo hi) (loopHigh lo hi))→
  Spot back e (loopAt lo e a+9) (m::K) t→Spot back (.range lo hi g e) a K t
 | epilog {lo hi:Nat}{g:Bool}{e:Node}{a:Nat}{K:List Nat}{t:Thread}:
  hasEpilog lo hi=true→Spot back e (epilogAt lo hi e a) K t→
  Spot back (.range lo hi g e) a K t
inductive SpotList (back:Bool):List Node→Nat→List Nat→Thread→Prop
 | start (ns:List Node)(a:Nat)(K:List Nat):SpotList back ns a K ⟨a,K,none⟩
 | head {n:Node}{ns:List Node}{a:Nat}{K:List Nat}{t:Thread}:
  Spot back n (if back then a+codeSizeList ns else a) K t→
  SpotList back (n::ns) a K t
 | tail {n:Node}{ns:List Node}{a:Nat}{K:List Nat}{t:Thread}:
  SpotList back ns (if back then a else a+n.codeSize) K t→
  SpotList back (n::ns) a K t
end
variable {c:Code}{back:Bool}
section
variable {l r:Node}{ns:List Node}
lemma spot_leaf (hn:n.IsLeaf)(hg:∀lo hi g,n≠.gap lo hi g)(h:Spot back n a K t):
 t=⟨a,K,none⟩∨t=⟨a+n.codeSize,K,none⟩:=by
 cases h with
 | start=>exact .inl rfl
 | stop=>exact .inr rfl
 | gap=>exact absurd rfl (hg _ _ _)
 | _=>exact hn.elim
lemma spot_cat (h:Spot back (.cat ns) a K t):SpotList back ns a K t:=by
 cases h with
 | start=>exact .start ns a K
 | stop _ _ h=>exact h.elim
 | cat h=>exact h
lemma spot_alt (h:Spot back (.alt l r) a K t):Spot back l (a+4) K t∨
 Spot back r (a+4+l.codeSize+3) K t∨t=⟨a,K,none⟩:=by
 cases h with
 | start=>exact .inr (.inr rfl)
 | stop _ _ h=>exact h.elim
 | left h=>exact .inl h
 | right h=>exact .inr (.inl h)
lemma spot_star (h:Spot back (.star g e) a K t):Spot back e (a+4) K t∨t=⟨a,K,none⟩:=by
 cases h with
 | start=>exact .inr rfl
 | stop _ _ h=>exact h.elim
 | star h=>exact .inl h
lemma spot_plus (h:Spot back (.plus g e) a K t):Spot back e a K t:=by
 cases h with
 | start=>exact .start e a K
 | stop _ _ h=>exact h.elim
 | plus h=>exact h
end
lemma waits_leaf (back:Bool){q:Inst}(K:List Nat)(hq:leaf? n=some q)
 (hf:c.fetch a=q)(hg:∀lo hi g,n≠.gap lo hi g):
 (⟨a,K,none⟩:Thread).ways c=[]∧(∀w,(⟨a,K,none⟩:Thread).waits c=some w→advance w (c.fetch a)=⟨a+q.size,K,none⟩)∧
  n.face back=.leaf false∧c.branch? a=none:=by
 cases n<;>cases hq
 case gap lo hi g=>exact absurd rfl (hg lo hi g)
 all_goals
  refine⟨by rw[ways,hf],fun w hw=>?_,rfl,by rw[Code.branch?,hf]⟩
  rw[waits,hf]at hw
  cases hw
  rw[hf]
  rfl
def Neat (c:Code)(back:Bool)(n:Node)(a:Nat):Prop:=
 ∃D0,Fits c a (a+n.codeSize) (a+n.codeSize) (Spot back n a) (n.face back) n.unbranched
  (fun y=>n.first back a=some y) D0
def NeatList (c:Code)(back:Bool)(ns:List Node)(a:Nat):Prop:=
 ∃D0,Fits c a (a+codeSizeList ns) (a+codeSizeList ns) (SpotList back ns a)
  (faceList back ns) (unbranchedList ns) (fun y=>firstList back ns a=some y) D0
lemma neat_gap (hf:c.fetch a=.gap (lo%65536) (hi%65536) g):Neat c back (.gap lo hi g) a:=by
 have hdu:∀K tk,¬(⟨a,K,tk⟩:Thread).Branches c:=by
  intro K tk h
  rw[Branches,Code.branch?,hf]at h
  cases h
 have hz:∀K tk leaves,(lo%65536=0∨tk≠none→leaves=true)→
  Zone c a (a+5) (Spot back (.gap lo hi g) a K) ⟨a,K,tk⟩ ⟨a+5,K,none⟩ leaves {⟨a,K,tk⟩}:=by
  intro K tk leaves hl
  refine zone_wait ⟨le_rfl,by dsimp only;omega⟩ (fun w hw=>?_) fun w hw=>?_
  ·simp only[ways,hf]at hw
   split at hw
   ·cases hw
   ·rename_i hc
    refine⟨hl ?_,List.mem_singleton.1 hw⟩
    cases tk with
    | none=>exact .inl (Nat.eq_zero_of_not_pos hc)
    | some k=>exact .inr (Option.some_ne_none k)
  ·obtain⟨-,rfl⟩:=(waits_gap hf).1 hw
   simp only[hf]
   exact .gap a K _
 have hs:(gap lo hi g).codeSize=5:=rfl
 rw[Neat,hs]
 refine⟨fun K=>{⟨a,K,none⟩},.of (Nat.le_add_right _ _) (fun K=>hz K none _ ?_) (fun _=>rfl)
  ?_ ?_ fun K t ht=>?_⟩
 ·simp[face,Face.leaf]
 ·rintro - K _ rfl
  exact hdu K none
 ·rintro y ⟨⟩ K
  rfl
 cases ht with
 | start=>exact .inl rfl
 | stop=>exact .inr ⟨true,∅,zone_nil c _ _ _ _,fun _=>by simp,fun _ _ _ _=>by simp,fun _=>by simp⟩
 | gap _ _ tk=>
  refine .inr ⟨true,_,hz K tk true fun _=>rfl,?_,?_,?_⟩
  ·rintro - _ rfl
   exact hdu K tk
  ·rintro - - - _ _ rfl _ _ hb
   exact absurd hb (hdu K tk)
  ·rintro - _ rfl _ _ hb
   exact absurd hb (hdu K tk)
lemma neat_leaf (hn:n.IsLeaf)(hli:n.Laid c back a):Neat c back n a:=by
 rw[hn.laid_iff]at hli
 by_cases hg:∀lo hi g,n≠.gap lo hi g
 swap
 ·push Not at hg
  obtain⟨lo,hi,g,rfl⟩:=hg
  exact neat_gap (hli _ rfl)
 cases hq:leaf? n with
 | none=>
  have hs:n.codeSize=0:=by rw[hn.codeSize_eq,hq];rfl
  have hfa:n.face back=.nil:=by cases n<;>first | exact hn.elim | rfl | cases hq
  have hfs:n.first back a=none:=by rw[hn.first_eq,hq];rfl
  rw[Neat,hs,hfa,hfs]
  refine⟨_,fits_nil c a _ (fun K t ht=>?_) (by simp)⟩
  have:=spot_leaf hn hg ht
  rwa[hs,add_zero,or_self]at this
 | some q=>
  have hs:n.codeSize=q.size:=by rw[hn.codeSize_eq,hq];rfl
  have hfs:n.first back a=some a:=by rw[hn.first_eq,hq];rfl
  have hf:=hli q hq
  have hst:=fun K=>waits_leaf back K hq hf hg
  obtain⟨-,-,hfa,hbr⟩:=hst []
  have hdu:∀K,¬(⟨a,K,none⟩:Thread).Branches c:=by
   intro K h
   rw[Branches,hbr]at h
   cases h
  refine⟨fun K=>{⟨a,K,none⟩},.of (Nat.le_add_right _ _) (fun K=>?_) (fun _=>by rw[hfa];rfl)
   ?_ ?_ fun K t ht=>(spot_leaf hn hg ht).imp_right ?_⟩
  ·obtain⟨hwy,hwa,-⟩:=hst K
   refine zone_wait ⟨le_rfl,?_⟩ (fun w hw=>?_) fun w hw=>?_
   ·have:=q.size_pos
    dsimp only
    omega
   ·rw[hwy]at hw
    cases hw
   ·rw[hwa w hw,←hs]
    exact .stop a K hn
  ·rintro - K _ rfl
   exact hdu K
  ·intro y hy K
   cases hfs.symm.trans hy
   rfl
  ·rintro rfl
   exact⟨true,∅,zone_nil c _ _ _ _,fun _=>by simp,fun _ _ _ _=>by simp,fun _=>by simp⟩
lemma neat_loop {ls ms x:Nat}{f:Bool}{s:List Nat→Thread→Prop}
 (hl:LoopLaid c back e ls ms x)(he:Neat c back e (x+9))
 (hspot1:∀K m t,m < max 1 (max ls ms)→Spot back e (x+9) (m::K) t→s K t)
 (hs:∀K t,s K t→(∃m < max 1 (max ls ms),Spot back e (x+9) (m::K) t)∨t=⟨x,K,none⟩)
 (hf:f→e.unbranched)
 (h:max ls ms≤1∨e.unbranched∨(e.face back).blank=false∧(e.face back).apart):
 ∃D0,Fits c x (x+(e.codeSize+18)) (x+(e.codeSize+18)) s
  ((e.face back).loop (max ls ms)) f (fun y=>y=x) D0:=by
 obtain⟨D1,hX⟩:=he
 rcases h with h|h|h
 ·exact fits_loop_waiting hl hX hspot1 hs hf (.inl h)
 ·exact fits_loop_bare hl hX hspot1 hs h
 ·exact fits_loop_waiting hl hX hspot1 hs hf (.inr h)
section
lemma spot_range (h:Spot back (.range lo hi g e) a K t):(lo>0∧Spot back e a K t)∨
  ((hasLoop lo hi∧∃m < max 1 (max (loopLow lo hi) (loopHigh lo hi)),Spot back e (loopAt lo e a+9) (m::K) t)∨
  hasEpilog lo hi∧Spot back e (epilogAt lo hi e a) K t)∨t=⟨a,K,none⟩:=by
 cases h with
 | start=>exact .inr (.inr rfl)
 | stop _ _ h=>exact h.elim
 | prolog hlo h=>exact .inl ⟨hlo,h⟩
 | loop m hl hm h=>exact .inr (.inl (.inl ⟨hl,m,hm,h⟩))
 | epilog he h=>exact .inr (.inl (.inr ⟨he,h⟩))
lemma neat_prolog (he:lo>0→Neat c back e a):
 ∃D0,Fits c a (loopAt lo e a) (loopAt lo e a) (fun K t=>lo>0∧Spot back e a K t)
  (if lo>0 then e.face back else .nil) e.unbranched
  (fun y=>lo>0∧e.first back a=some y) D0:=by
 by_cases hlo:lo>0
 ·simp only[loopAt,hlo,true_and]
  exact he hlo
 ·simp only[loopAt,hlo]
  exact⟨_,fits_nil c a _ (by simp) (by simp)⟩
section
variable (hli:(range lo hi g e).Laid c back a)
include hli
lemma neat_rounds (he:hasLoop lo hi→Neat c back e (loopAt lo e a+9))
 (hs:(range lo hi g e).steady back):
 ∃D0,Fits c (loopAt lo e a) (branchAt lo hi e a) (branchAt lo hi e a)
  (fun K t=>hasLoop lo hi∧∃m < max 1 (max (loopLow lo hi) (loopHigh lo hi)),
   Spot back e (loopAt lo e a+9) (m::K) t)
  (if hasLoop lo hi then .loop (max (loopLow lo hi) (loopHigh lo hi)) (e.face back) else .nil)
  e.unbranched (fun y=>hasLoop lo hi∧y=loopAt lo e a) D0:=by
 by_cases hl:hasLoop lo hi
 ·simp only[branchAt,hl,true_and]
  refine neat_loop (loopLaid_of_range hli hl) (he hl) (fun K m t hm ht=>⟨m,hm,ht⟩)
   (fun K t=>.inl) id ?_
  rw[steady,and_eq_true]at hs
  have:=hs.2
  simpa only[hl,Bool.not_true,Bool.false_or,Bool.or_eq_true,decide_eq_true_eq,
   and_eq_true,Bool.not_eq_true',or_assoc]using this
 ·simp only[branchAt,hl,Bool.false_eq_true,false_and]
  exact⟨_,fits_nil c _ _ (by simp) (by simp)⟩
lemma neat_epilog (he:hasEpilog lo hi→Neat c back e (epilogAt lo hi e a)):
 ∃D0,Fits c (branchAt lo hi e a) (a+(range lo hi g e).codeSize) (a+(range lo hi g e).codeSize)
  (fun K t=>hasEpilog lo hi∧Spot back e (epilogAt lo hi e a) K t)
  (if hi>lo then .option (e.face back)
   else if hasEpilog lo hi then e.face back else .nil)
  (hi≤lo&&e.unbranched)
  (fun y=>hasEpilog lo hi∧e.first back (epilogAt lo hi e a)=some y) D0:=by
 rw[←epilogAt_add]
 by_cases hhi:hi>lo
 ·have hep:hasEpilog lo hi:=by simp[hasEpilog,hhi]
  have hepilogAt:epilogAt lo hi e a=branchAt lo hi e a+4:=by rw[epilogAt,if_pos hhi]
  have hf:(decide (hi≤lo)&&e.unbranched)=false:=by simp[hhi]
  obtain⟨id,hs⟩:=hli.2.2.1 hhi
  obtain⟨D1,hX⟩:=he hep
  simp only[hep,hhi,hf,true_and]
  rw[hepilogAt]at hX⊢
  have hsk:Fits c (branchAt lo hi e a+4+e.codeSize) _ (branchAt lo hi e a+4+e.codeSize)
   (fun _ _=>False) .nil false (fun _=>False) _:=fits_nil c _ false (by simp) (by simp)
  exact⟨_,fits_alt hs (by omega) hX hsk
   (fun _ _ h=>h) (fun _ _=>False.elim) (fun _ _=>.inl) fun _=>.inr⟩
 have hf:(decide (hi≤lo)&&e.unbranched)=e.unbranched:=by simp[not_lt.1 hhi]
 have hepilogAt:epilogAt lo hi e a=branchAt lo hi e a:=by rw[epilogAt,if_neg hhi,add_zero]
 rw[hf,hepilogAt,if_neg hhi]
 by_cases hep:hasEpilog lo hi
 ·simp only[hep,true_and]
  exact hepilogAt▸he hep
 ·simp only[hep]
  exact⟨_,fits_nil c _ _ (by simp) (by simp)⟩
lemma neat_range (he:∀x,e.Laid c back x→Neat c back e x)(hs:(range lo hi g e).steady back):
 Neat c back (.range lo hi g e) a:=by
 obtain⟨D1,h1⟩:=neat_prolog fun hlo=>he a (hli.1 hlo)
 obtain⟨D2,h2⟩:=neat_rounds hli (fun hl=>he _ (hli.2.1 hl).2.1) hs
 obtain⟨D3,h3⟩:=neat_epilog hli fun hep=>he _ (hli.2.2.2 hep)
 have h23:Fits c (loopAt lo e a) (a+(range lo hi g e).codeSize) (a+(range lo hi g e).codeSize)
  (fun K t=>(hasLoop lo hi∧∃m < max 1 (max (loopLow lo hi) (loopHigh lo hi)),
   Spot back e (loopAt lo e a+9) (m::K) t)∨
   hasEpilog lo hi∧Spot back e (epilogAt lo hi e a) K t)
  _ (hi≤lo&&e.unbranched)
  (fun y=>(hasLoop lo hi∧y=loopAt lo e a)∨hasLoop lo hi=false∧
   hasEpilog lo hi∧e.first back (epilogAt lo hi e a)=some y) _:=
  h2.seq h3 (fun _ _=>.inl) (fun _ _=>.inr) (fun _ _ h=>h.imp_right .inl)
   (fun h=>⟨(and_eq_true _ _▸h).2,h⟩)
   fun y hy=>hy.imp_right fun⟨hl,h⟩=>⟨by rw[hl];rfl,h⟩
 refine⟨_,h1.seq h23 (fun K t h=>.prolog h.1 h.2) ?_ (fun _ _=>spot_range)
  (fun h=>⟨(and_eq_true _ _▸h).2,h⟩) fun y hy=>?_⟩
 ·rintro K t (⟨hl,m,hm,h⟩|⟨hep,h⟩)
  ·exact .loop m hl hm h
  ·exact .epilog hep h
 rw[first]at hy
 by_cases hlo:lo>0
 ·rw[if_pos hlo]at hy
  exact .inl ⟨hlo,hy⟩
 ·rw[if_neg hlo]at hy
  refine .inr ⟨by rw[if_neg hlo];rfl,?_⟩
  have hloopAt:loopAt lo e a=a:=by rw[loopAt,if_neg hlo,add_zero]
  grind
end
end
lemma neat (n:Node):∀a,n.Laid c back a→n.steady back→Neat c back n a:=by
 induction n using induction (Q:=fun ns=>∀a,LaidList c back ns a→steadyList back ns→NeatList c back ns a) with
 | leaf n hn=>exact fun a hli _=>neat_leaf hn hli
 | cat p ih=>
  intro a hli hs
  have hspo:Spot back (.cat p) a=SpotList back p a:=by
   funext K t
   exact propext ⟨spot_cat,.cat⟩
  rw[Neat,hspo]
  exact ih a hli hs
 | alt l r ihl ihr=>
  rintro a ⟨⟨id,hsp⟩,hla,hj,hld⟩ hs
  rw[steady,and_eq_true]at hs
  obtain⟨Dl,hl⟩:=ihl _ hla hs.1
  obtain⟨Dr,hr⟩:=ihr _ hld hs.2
  have hen:a+4+l.codeSize+3+r.codeSize=a+(alt l r).codeSize:=by
   rw[codeSize]
   omega
  rw[hen]at hr
  refine⟨_,fits_alt hsp (by omega) (hl.jump hj (by omega)) hr
   (fun _ _=>.left) (fun _ _=>.right) (fun _ _=>spot_alt) fun y hy=>?_⟩
  cases hy
  exact .inl rfl
 | star g e ih=>
  rintro a ⟨⟨id,hsp⟩,hli,hj⟩ hs
  rw[steady,and_eq_true]at hs
  obtain⟨D1,hD⟩:=ih _ hli hs.1
  have hen:a+4+e.codeSize+3=a+(star g e).codeSize:=by
   rw[codeSize]
   omega
  have hb:=hD.jump hj (show ((a+4+e.codeSize:Nat):Int)+(-(e.codeSize:Int)-4)=a by omega)
  rw[hen]at hb
  refine⟨_,fits_star hsp (by omega) hb hs.2 (fun _ _=>.star) (fun _ _=>spot_star) fun y hy=>?_⟩
  cases hy
  rfl
 | plus g e ih=>
  rintro a ⟨hli,id,hsp⟩ hs
  rw[steady,and_eq_true]at hs
  obtain⟨D1,hD⟩:=ih _ hli hs.1
  have hspo:Spot back (.plus g e) a=Spot back e a:=by
   funext K t
   exact propext ⟨spot_plus,.plus⟩
  have hba:∀x:Nat,e.first back a=some (c.target x (backDistance x (e.first back a)))∨
   c.size≤c.target x (backDistance x (e.first back a)):=by
   intro x
   cases e.first back a with
   | none=>
    right
    rw[c.target_of_neg (by rw[backDistance];omega)]
   | some y=>
    left
    rw[c.target_eq (show _=(y:Int) by rw[backDistance];omega)]
  rw[Neat,hspo]
  exact fits_plus hsp (hba _) hD hs.2
 | range _ _ g e ih=>
  intro a hli hs
  have he:e.steady back:=by
   rw[steady,and_eq_true]at hs
   exact hs.1
  exact neat_range hli (fun x hx=>ih x hx he) hs
 | nil a _ _=>exact⟨_,fits_nil c a _ (fun K t ht=>by cases ht;rfl) (by rintro _ ⟨⟩)⟩
 | cons n ns ihn ihns a hli hs=>
  rw[steadyList,and_eq_true]at hs
  cases back with
  | false=>
   obtain⟨hn,hns⟩:=hli
   obtain⟨D1,h1⟩:=ihn _ hn hs.1
   obtain⟨D2,h2⟩:=ihns _ hns hs.2
   have hen:a+n.codeSize+codeSizeList ns=a+codeSizeList (n::ns):=by
    rw[codeSizeList]
    omega
   rw[hen]at h2
   refine⟨_,h1.seq h2 (fun _ _=>.head) (fun _ _=>.tail) (fun K t ht=>?_)
    (fun h=>and_eq_true _ _▸h) fun y hy=>.inl hy⟩
   cases ht with
   | start=>exact .inr (.inr rfl)
   | head ht=>exact .inl ht
   | tail ht=>exact .inr (.inl ht)
  | true=>
   obtain⟨hns,hn⟩:=hli
   obtain⟨D1,h1⟩:=ihns _ hns hs.2
   obtain⟨D2,h2⟩:=ihn _ hn hs.1
   have hen:a+codeSizeList ns+n.codeSize=a+codeSizeList (n::ns):=by
    rw[codeSizeList]
    omega
   rw[hen]at h2
   refine⟨_,h1.seq h2 (fun _ _=>.tail) (fun _ _=>.head) (fun K t ht=>?_)
    (fun h=>(and_eq_true _ _▸h).symm) fun y hy=>?_⟩
   ·cases ht with
    | start=>exact .inr (.inr rfl)
    | head ht=>exact .inr (.inl ht)
    | tail ht=>exact .inl ht
   ·cases ns with
    | nil=>exact .inr ⟨rfl,hy⟩
    | cons m _=>exact .inl hy
section
variable {v:Nat→Inst→Verdict}{u:Thread}{i j:Nat}
mutual
theorem Entry.spot {n:Node}{a x:Nat}{L:Nat→Nat→Prop}(K:List Nat):
 Entry v back n a x L→Spot back n a K ⟨x,K,none⟩
 | .start n a=>.start n a K
 | .stop a h=>.stop a K h
 | .cat h=>.cat (h.spot K)
 | .left h=>.left (h.spot K)
 | .right h=>.right (h.spot K)
 | .star h=>.star (h.spot K)
 | .plus h=>.plus (h.spot K)
 | .prolog hlo h=>.prolog hlo (h.spot K)
 | .epilog he h=>.epilog he (h.spot K)
theorem EntryList.spot {ns:List Node}{a x:Nat}{L:Nat→Nat→Prop}(K:List Nat):
 EntryList v back ns a x L→SpotList back ns a K ⟨x,K,none⟩
 | .start ns a=>.start ns a K
 | .head h=>.head (h.spot K)
 | .tail h=>.tail (h.spot K)
end
/-- Whatever lies ahead of a thread in the code of a pattern that ends with a match lies in one zone. -/
def Roams (c:Code)(back:Bool)(n:Node)(a:Nat)(K:List Nat)(t:Thread):Prop:=
 ∃t0 leaves D,Zone c a (a+n.codeSize) (Spot back n a K) t0 ⟨a+n.codeSize,K,none⟩ leaves D∧
  (t∈D∨t=⟨a+n.codeSize,K,none⟩)
lemma Neat.roams (hn:Neat c back n a)(ht:Spot back n a K t):Roams c back n a K t:=by
 obtain⟨D0,hD0⟩:=hn
 obtain⟨l,D,hD,-⟩:=hD0.inner K t ht
 exact⟨t,l,D,hD,hD.mem.imp_right And.right⟩
section
variable (hv:Proper v)(hn:Neat c back n a)(hex:c.fetch (a+n.codeSize)=.accept)
include hv hn hex
lemma Roams.move (ht:Roams c back n a K t)(h:Move c v t i u j):Roams c back n a K u:=by
 obtain⟨t0,l,D,hD,ht|rfl⟩:=ht
 ·have hwa:∀w,t.waits c=some w→v i (c.fetch t.address)≠.die→
   Roams c back n a K (advance w (c.fetch t.address)):=by
   intro w hw hr
   rcases hD.spots t ht w hw with hf|hs
   ·rw[hf,hv.filler]at hr
    exact absurd rfl hr
   ·exact hn.roams hs
  cases h with
  | on hu=>exact⟨t0,l,D,hD,(hD.closed t ht u hu).imp_right And.right⟩
  | read hw hr=>exact hwa _ hw (by rw[hr];exact nofun)
  | pass hw hp=>exact hwa _ hw (by rw[hp];exact nofun)
 ·exact absurd hex (h.fetch_ne_accept hv)
lemma Roams.walk {k:Nat}(h:Walk c v k t i u j):Roams c back n a K t→Roams c back n a K u:=by
 induction h with
 | refl=>exact id
 | step hm _ ih=>exact fun ht=>ih (ht.move hv hn hex hm)
end
end
end Node
end PatternScan.Regex