import PatternScan.Proofs.Regex.Lengths
import PatternScan.Regex.GapMachine
/-! Apart from their order, the positions of a round of the gap machine are those that the instructions
run so far lead to. -/
open List
open Function PatternScan.Regex.Machine PatternScan.Regex.GapMachine.Position.mk
namespace PatternScan.Regex
open Relation (Comp)
open Machine (Verdict)
open Emission (leaf?)
variable {c:Code}{n:Node}
def Code.Lists (c:Code):Nat→List Inst→Prop
 | _,[]=>True
 | a,q::qs=>c.fetch a=q∧c.Lists (a+q.size) qs
def rowSize (qs:List Inst):Nat:=(qs.map Inst.size).sum
@[simp] lemma rowSize_cons (q:Inst)(qs:List Inst):rowSize (q::qs)=q.size+rowSize qs:=sum_cons
@[simp] lemma rowSize_append (xs ys:List Inst):rowSize (xs++ys)=rowSize xs+rowSize ys:=by
 rw[rowSize,map_append,sum_append]
 rfl
@[simp] lemma rowSize_reverse (qs:List Inst):rowSize qs.reverse=rowSize qs:=by
 rw[rowSize,map_reverse,sum_reverse]
 rfl
lemma Code.lists_append (xs ys:List Inst):∀{a:Nat},c.Lists a (xs++ys)↔
 c.Lists a xs∧c.Lists (a+rowSize xs) ys:=by
 induction xs with
 | nil=>exact fun {a}=>⟨fun h=>⟨trivial,h⟩,fun h=>h.2⟩
 | cons q _ ih=>
  intro a
  rw[cons_append,Lists,Lists,ih,rowSize_cons,and_assoc,add_assoc]
lemma Code.Lists.length_le (qs:List Inst):∀{a:Nat},c.Lists a qs→
 (∀q∈qs,q≠.filler)→qs.length+a ≤ max a c.size:=by
 induction qs with
 | nil=>
  rw[length_nil]
  omega
 | cons q _ ih=>
  rintro a ⟨hq,h⟩ hne
  have hr:=ih h fun q' hq'=>hne q' (mem_cons_of_mem _ hq')
  have hlt:a<c.size:=by
   by_contra hle
   exact hne q mem_cons_self (hq.symm.trans (c.fetch_of_size_le a (by omega)))
  have hp:=q.size_pos
  rw[length_cons]
  omega
def rowSpans (v:Nat→Inst→Verdict):List Inst→Nat→Nat→Prop
 | []=>Eq
 | q::qs=>Comp (q.spans v) (rowSpans v qs)
lemma rowSpans_append (v:Nat→Inst→Verdict)(xs ys:List Inst):
 rowSpans v (xs++ys)=Comp (rowSpans v xs) (rowSpans v ys):=by
 induction xs with
 | nil=>rw[nil_append,rowSpans,Relation.eq_comp]
 | cons q _ ih=>rw[cons_append,rowSpans,rowSpans,ih,Relation.comp_assoc]
namespace Node
mutual
def Straight:Node→Prop
 | .literal _ _ | .notLiteral _ | .masked _ _ | .maskedNot _ _ | .any=>True
 | .gap lo hi _=>lo≤hi∧hi<65536
 | .cat parts=>StraightList parts
 | _=>False
def StraightList:List Node→Prop
 | []=>True
 | n::ns=>n.Straight∧StraightList ns
end
mutual
def row:Node→List Inst
 | .cat parts=>rowList parts
 | n=>(leaf? n).toList
def rowList:List Node→List Inst
 | []=>[]
 | n::ns=>n.row++rowList ns
end
def codeRow (back:Bool)(n:Node):List Inst:=
 if back then n.row.reverse else n.row
lemma straightList_iff (ns:List Node):StraightList ns↔∀n∈ns,n.Straight:=by
 induction ns with
 | nil=>simp[StraightList]
 | cons n _ ih=>simp[StraightList,ih]
lemma IsLeaf.row_eq (hn:n.IsLeaf):n.row=(leaf? n).toList:=by cases n<;>first | rfl | exact hn.elim
lemma Straight.exists_leaf (h:n.Straight)(hn:n.IsLeaf):∃q,leaf? n=some q:=by
 cases n with
 | cat=>exact hn.elim
 | literal | notLiteral | masked | maskedNot | any | gap=>exact⟨_,rfl⟩
 | _=>exact h.elim
lemma Straight.steady (back:Bool)(n:Node):n.Straight→n.steady back∧n.weight=0:=by
 induction n using induction (Q:=fun ns=>StraightList ns→steadyList back ns∧weightList ns=0) with
 | leaf n hn=>
  intro h
  cases n<;>first | exact⟨rfl,rfl⟩ | exact hn.elim | exact h.elim
 | cat _ ih=>exact ih
 | alt | star | plus | range=>exact fun h=>h.elim
 | nil _=>exact⟨rfl,rfl⟩
 | cons n _ ihn ihns h=>
  rw[steadyList,weightList,(ihn h.1).1,(ihns h.2).1,(ihn h.1).2,(ihns h.2).2]
  exact⟨rfl,rfl⟩
lemma Straight.codeSize_eq (n:Node):n.Straight→n.codeSize=rowSize n.row:=by
 induction n using induction (Q:=fun ns=>StraightList ns→codeSizeList ns=rowSize (rowList ns)) with
 | leaf n hn=>
  intro h
  obtain⟨q,hq⟩:=h.exists_leaf hn
  rw[hn.codeSize_eq,hn.row_eq,hq]
  rfl
 | cat _ ih=>exact ih
 | alt | star | plus | range=>exact fun h=>h.elim
 | nil _=>exact rfl
 | cons n _ ihn ihns h=>rw[codeSizeList,rowList,rowSize_append,ihn h.1,ihns h.2]
lemma Straight.lists {b:Bool}(n:Node):n.Straight→∀a,n.Laid c b a→c.Lists a (n.codeRow b):=by
 unfold codeRow
 induction n using induction (Q:=fun ns=>StraightList ns→∀a,LaidList c b ns a→
   c.Lists a (if b then (rowList ns).reverse else rowList ns)) with
 | leaf n hn=>
  intro h a hl
  obtain⟨q,hq⟩:=h.exists_leaf hn
  rw[hn.row_eq,hq]
  rw[hn.laid_iff]at hl
  rw[Option.toList_some,reverse_singleton,ite_self]
  exact⟨hl q hq,trivial⟩
 | cat _ ih=>exact ih
 | alt | star | plus | range=>exact fun h=>h.elim
 | nil _ a _=>
  rw[rowList,reverse_nil,ite_self]
  exact trivial
 | cons n ns ihn ihns h a hl=>
  have hc:codeSizeList ns=rowSize (rowList ns):=codeSize_eq (.cat ns) h.2
  rw[LaidList]at hl
  rw[rowList,reverse_append]
  split at hl
  ·rename_i hb
   rw[if_pos hb]at ihn ihns⊢
   exact Code.lists_append _ _ |>.2 ⟨ihns h.2 a hl.1,by
    rw[rowSize_reverse,←hc]
    exact ihn h.1 _ hl.2⟩
  ·rename_i hb
   rw[if_neg hb]at ihn ihns⊢
   exact Code.lists_append _ _ |>.2 ⟨ihn h.1 a hl.1,by
    rw[←codeSize_eq n h.1]
    exact ihns h.2 _ hl.2⟩
lemma Straight.spans_eq {v:Nat→Inst→Verdict}{b:Bool}(n:Node):n.Straight→
 n.Spans v b=rowSpans v (n.codeRow b):=by
 unfold codeRow
 induction n using induction (Q:=fun ns=>StraightList ns→SpansList v b ns=
  rowSpans v (if b then (rowList ns).reverse else rowList ns)) with
 | leaf n hn=>
  intro h
  obtain⟨q,hq⟩:=h.exists_leaf hn
  rw[hn.spans_eq,hn.row_eq,hq,Option.toList_some,reverse_singleton,ite_self,rowSpans,rowSpans,Relation.comp_eq]
  rfl
 | cat _ ih=>exact ih
 | alt | star | plus | range=>exact fun h=>h.elim
 | nil _=>rw[SpansList,rowList,reverse_nil,ite_self,rowSpans]
 | cons n _ ihn ihns h=>
  rw[SpansList,rowList,reverse_append,ihn h.1,ihns h.2]
  split<;>rw[rowSpans_append]
end Node
end PatternScan.Regex
namespace PatternScan.Regex.GapMachine
variable {i j r fuel a:Nat}{q next:Inst}{ps:List Position}{p:Position}
namespace Setting
variable (s:Setting)
def indexAt (i:Nat):Int:=if s.backwards then s.inp.pos-1-i else s.inp.pos+i
lemma readBefore_indexAt (i:Nat):s.readBefore (s.indexAt i)=i:=by
 unfold readBefore indexAt
 split<;>omega
lemma indexAt_add (i j:Nat):s.indexAt i+j*s.step=s.indexAt (i+j):=by
 unfold indexAt step
 split<;>omega
lemma indexAt_injective (h:s.indexAt i=s.indexAt j):i=j:=by
 unfold indexAt at h
 split at h<;>omega
lemma start_eq:s.start=⟨s.indexAt 0,0⟩:=by
 unfold start indexAt
 split<;>simp
def Steps (q next:Inst)(i j:Nat):Prop:=
 match q with
 | .gap lo hi _=>i+lo≤j∧j ≤ i+max lo hi∧j<s.reach∧
  (j=i+lo∨s.promising next (s.indexAt j)=true)
 | q=>(i<s.reach∧readsByte s q (s.indexAt i)=true)∧j=i+1
def Leads:List Inst→Nat→Nat→Prop
 | []=>Eq
 | q::qs=>Relation.Comp (s.Steps q (qs.headD .accept)) (Leads qs)
lemma Steps.le_reach (h:s.Steps q next i j):j ≤ s.reach:=by
 cases q with
 | gap _ _ g=>exact h.2.2.1.le
 | _=>
  obtain⟨⟨hlt,-⟩,rfl⟩:=h
  exact hlt
end Setting
def Place.positions (place:Place):List Position:=place.passed.reverse++place.ahead
lemma Place.positions_advance (ind:Int)(ahead:List Position):
 ∀cr pa,(advance ind cr pa ahead).positions=pa.reverse++ahead:=by
 induction ahead with
 | nil=>exact fun _ _=>rfl
 | cons q qs ih=>
  intro cr pa
  rw[advance]
  split
  ·rw[ih,reverse_cons,append_assoc]
   rfl
  ·rfl
lemma Place.current_advance (ind:Int)(a:List Position):∀cr pa,(advance ind cr pa a).current=cr∧
  (advance ind cr pa a).passed=pa∨
 (advance ind cr pa a).current ∈ (advance ind cr pa a).passed:=by
 induction a with
 | nil=>exact fun _ _=>.inl ⟨rfl,rfl⟩
 | cons q qs ih=>
  intro cr pa
  rw[advance]
  split
  ·grind
  ·exact .inl ⟨rfl,rfl⟩
section
variable {s:Setting}
def Added (s:Setting)(next:Inst)(i r j n:Nat)(x:Position):Prop:=
 ∃k,j≤k∧k<j+n∧i+k<s.reach∧s.promising next (s.indexAt (i+k))=true∧x=⟨s.indexAt (i+k),r+1⟩
lemma addPositions_spec (s:Setting)(next:Inst)(i r n:Nat):∀j place,
 (place.current.round≠r+1∨place.current∈place.passed)→
 ∃ad,(addPositions s next ⟨s.indexAt i,r⟩ i n j place).positions.Perm (ad++place.positions)∧
  ad.length ≤ s.reach-(i+j)∧(∀x∈ad,Added s next i r j n x)∧
  ∀x,Added s next i r j n x→x∈ad++place.positions:=by
 induction n with
 | zero=>
  intro j place _
  refine⟨[],.refl _,zero_le,nofun,?_⟩
  rintro x ⟨k,hj,hk,-⟩
  omega
 | succ n ih=>
  intro j place hpl
  rw[addPositions]
  split
  ·refine⟨[],.refl _,zero_le,nofun,?_⟩
   rintro x ⟨k,hj,-,hk,-⟩
   omega
  have hlt:i+j<s.reach:=by omega
  dsimp only
  rw[s.indexAt_add i j]
  -- going on to the place of the new position changes no position
  obtain⟨place',hpl'⟩:∃place',place'=
   Place.advance (s.indexAt (i+j)) place.current place.passed place.ahead:=⟨_,rfl⟩
  have hpo:place'.positions=place.positions:=by
   rw[hpl',Place.positions_advance]
   rfl
  have hcu:place'.current.round≠r+1∨place'.current∈place'.passed:=by
   rcases Place.current_advance (s.indexAt (i+j)) place.ahead place.current place.passed with
    ⟨hc,hp⟩ | h
   ·rw[hpl',hc,hp]
    exact hpl
   ·exact .inr (hpl'▸h)
  rw[←hpl']
  -- what the rest adds, and what is left to show of the position `j` bytes away
  have hl:∀{x},Added s next i r (j+1) n x→Added s next i r j (n+1) x:=by
   rintro x ⟨k,hj,hk,h⟩
   exact⟨k,by omega,by omega,h⟩
  have hsp:∀{x},Added s next i r j (n+1) x→Added s next i r (j+1) n x∨
   s.promising next (s.indexAt (i+j))∧x=⟨s.indexAt (i+j),r+1⟩:=by
   rintro x ⟨k,hj,hk,hr,h⟩
   rcases hj.eq_or_lt with rfl|hlt
   ·exact .inr h
   ·exact .inl ⟨k,hlt,by omega,hr,h⟩
  split
  ·rename_i ht
   obtain⟨ad,hpe,hle,hs,hco⟩:=ih (j+1) place' hcu
   rw[hpo]at hpe hco
   refine⟨ad,hpe,by omega,fun x hx=>hl (hs x hx),fun x hx=>?_⟩
   rcases hsp hx with hx|⟨-,rfl⟩
   ·exact hco x hx
   rw[Bool.and_eq_true,decide_eq_true_eq,decide_eq_true_eq]at ht
   have hm:place'.current∈place.positions:=by
    rw[←hpo]
    exact mem_append_left _ (mem_reverse.2 (hcu.resolve_left fun h=>h ht.1))
   rw[←ht.1,←ht.2]
   exact mem_append_right _ hm
  split
  ·rename_i hdu
   obtain⟨ad,hpe,hle,hs,hco⟩:=ih (j+1) place' hcu
   grind
  rename_i hpr
  rw[Bool.not_eq_true,Bool.not_eq_false']at hpr
  obtain⟨ad,hpe,hle,hs,hco⟩:=
   ih (j+1) {place' with ahead:=⟨s.indexAt (i+j),r+1⟩::place'.ahead} hcu
  have hn:(Place.positions { place' with
   ahead:=⟨s.indexAt (i+j),r+1⟩::place'.ahead }).Perm
   (⟨s.indexAt (i+j),r+1⟩::place.positions):=by
   rw[←hpo]
   exact perm_middle
  refine⟨⟨s.indexAt (i+j),r+1⟩::ad,?_,?_,?_,?_⟩
  ·exact (hpe.trans (hn.append_left ad)).trans perm_middle
  ·rw[length_cons]
   omega
  ·rintro x (_|⟨_,hx⟩)
   ·exact⟨j,le_rfl,by omega,hlt,hpr,rfl⟩
   ·exact hl (hs x hx)
  grind
lemma spread_spec (s:Setting)(next:Inst)(i r lo hi:Nat)(rest:List Position):
 ∃ad,(spread s next ⟨s.indexAt i,r⟩ lo hi rest).Perm (ad++rest)∧
  ad.length ≤ s.reach∧(∀x∈ad,Added s next i r (lo+1) (hi-lo) x)∧
  ∀x,Added s next i r (lo+1) (hi-lo) x→x∈ad++rest:=by
 have hpl:(⟨⟨s.indexAt i,r⟩,[],rest⟩:Place).current.round≠r+1:=(Nat.succ_ne_self r).symm
 obtain⟨ad,hp,hl,hs,hc⟩:=
  addPositions_spec s next i r (hi-lo) (lo+1) _ (.inl hpl)
 refine⟨ad,?_,by omega,hs,hc⟩
 rw[spread,s.readBefore_indexAt]
 exact hp
lemma steps_gap_iff {lo hi:Nat}{g:Bool}(hlo:i+lo<s.reach)(x:Position):
 (∃j,s.Steps (.gap lo hi g) next i j∧x=⟨s.indexAt j,r+1⟩)↔
  x=⟨s.indexAt (i+lo),r+1⟩∨Added s next i r (lo+1) (hi-lo) x:=by
 constructor
 ·rintro⟨j,⟨hj,hm,hr,h⟩,rfl⟩
  rcases h with rfl|h
  ·exact .inl rfl
  ·rcases hj.eq_or_lt with rfl|hlt
   ·exact .inl rfl
   ·refine .inr ⟨j-i,by omega,by omega,by omega,?_,?_⟩ <;>
     rw[show i+(j-i)=j by omega]
    exact h
 ·rintro (rfl|⟨k,hk,hk',hr,h,rfl⟩)
  ·exact⟨i+lo,⟨le_rfl,by omega,hlo,.inl rfl⟩,rfl⟩
  ·exact⟨i+k,⟨by omega,by omega,hr,.inr h⟩,rfl⟩
end
def cost (s:Setting)(r:Nat)(ps:List Position):Nat:=
 (ps.map fun p=>if p.round=r then s.reach+1 else 1).sum
lemma cost_le (s:Setting)(r:Nat)(ps:List Position):cost s r ps ≤ sweepFuel s ps.length:=by
 have hle:cost s r ps≤ps.length*(s.reach+1):=by
  unfold cost
  induction ps with
  | nil=>exact zero_le
  | cons p _ _=>
   rw[map_cons,sum_cons,length_cons,Nat.succ_mul]
   split<;>omega
 refine hle.trans ?_
 exact Nat.mul_le_mul (by omega) (by omega)
section
variable {s:Setting}{rest done:List Position}
lemma cost_cons_due:cost s r (⟨s.indexAt i,r⟩::rest)=s.reach+1+cost s r rest:=by
 unfold cost
 rw[map_cons,sum_cons,if_pos rfl]
lemma cost_append (xs ys:List Position):cost s r (xs++ys)=cost s r xs+cost s r ys:=by
 unfold cost
 rw[map_append,sum_append]
lemma cost_later (h:∀p∈ps,p.round=r+1):cost s r ps=ps.length:=by
 unfold cost
 rw[map_congr_left fun p hp=>if_neg (by
  rw[h p hp]
  exact Nat.succ_ne_self r)]
 simp
lemma sweep_later (hp:p.round≠r):
 sweep s q next r (fuel+1) (p::rest) done=sweep s q next r fuel rest (p::done):=by
 cases q<;>exact if_pos hp
lemma sweep_gap (lo hi:Nat)(g:Bool):sweep s (.gap lo hi g) next r (fuel+1) (⟨s.indexAt i,r⟩::rest) done=
  if i+lo≥s.reach then sweep s (.gap lo hi g) next r fuel rest done
  else sweep s (.gap lo hi g) next r fuel (spread s next ⟨s.indexAt i,r⟩ lo hi rest)
   (⟨s.indexAt (i+lo),r+1⟩::done):=by
 rw[sweep,if_neg (not_not.2 rfl)]
 rw[s.readBefore_indexAt,s.indexAt_add]
 norm_cast
lemma sweep_byte (hq:∀lo hi g,q≠.gap lo hi g):sweep s q next r (fuel+1) (⟨s.indexAt i,r⟩::rest) done=
  if i<s.reach∧readsByte s q (s.indexAt i) then
   sweep s q next r fuel rest (⟨s.indexAt (i+1),r+1⟩::done)
  else sweep s q next r fuel rest done:=by
 have ho:s.indexAt i+s.step=s.indexAt (i+1):=by rw[←s.indexAt_add i 1,Nat.cast_one,one_mul]
 rw[sweep,if_neg (not_not.2 rfl)]
 ·rw[s.readBefore_indexAt,ho]
  simp only[Bool.and_eq_true,decide_eq_true_eq,Nat.cast_lt]
 ·exact fun lo hi g=>hq lo hi g
lemma steps_byte (hq:∀lo hi g,q≠.gap lo hi g)(j:Nat):s.Steps q next i j↔
 (i<s.reach∧readsByte s q (s.indexAt i))∧j=i+1:=by
 cases q with
 | gap lo hi g=>exact absurd rfl (hq lo hi g)
 | _=>exact Iff.rfl
def Swept (s:Setting)(q next:Inst)(r:Nat)(ps:List Position)(x:Position):Prop:=
 (x∈ps∧x.round≠r)∨∃i j,⟨s.indexAt i,r⟩∈ps∧s.Steps q next i j∧x=⟨s.indexAt j,r+1⟩
lemma swept_cons_later (hp:p.round≠r)(x:Position):
 Swept s q next r (p::rest) x↔x=p∨Swept s q next r rest x:=by
 have hl:∀i,(⟨s.indexAt i,r⟩:Position)≠p:=by
  rintro i rfl
  exact hp rfl
 simp only[Swept,mem_cons,hl,false_or]
 grind
lemma swept_cons_due (x:Position):Swept s q next r (⟨s.indexAt i,r⟩::rest) x↔
 (∃j,s.Steps q next i j∧x=⟨s.indexAt j,r+1⟩)∨Swept s q next r rest x:=by
 have hfs:∀k,(⟨s.indexAt k,r⟩:Position)=⟨s.indexAt i,r⟩↔k=i:=by
  intro k
  rw[injEq]
  exact⟨fun h=>s.indexAt_injective h.1,by rintro rfl;exact⟨rfl,rfl⟩⟩
 simp only[Swept,mem_cons,hfs]
 grind
lemma swept_append_later {a:List Position}(ha:∀p∈a,p.round=r+1)
 (x:Position):Swept s q next r (a++rest) x↔x∈a∨Swept s q next r rest x:=by
 induction a with
 | nil=>simp
 | cons p _ ih=>
  have hp:p.round≠r:=by
   rw[ha p mem_cons_self]
   exact Nat.succ_ne_self r
  rw[cons_append,swept_cons_later hp,ih fun p' hp'=>ha p' (mem_cons_of_mem _ hp'),mem_cons,or_assoc]
lemma swept_congr {ps':List Position}(h:ps.Perm ps')(x:Position):
 Swept s q next r ps x↔Swept s q next r ps' x:=by
 simp only[Swept,h.mem_iff]
lemma mem_sweep (fuel:Nat):∀ps done,(∀p∈ps,p.round=r→∃i,p.index=s.indexAt i)→cost s r ps≤fuel→
 ∀x,x∈sweep s q next r fuel ps done↔x∈done∨Swept s q next r ps x:=by
 induction fuel with
 | zero=>
  intro ps done _ hc x
  cases ps with
  | nil=>simp[sweep,Swept]
  | cons p _=>
   rw[cost,map_cons,sum_cons]at hc
   split at hc<;>omega
 | succ fuel ih=>
  intro ps done hps hc x
  cases ps with
  | nil=>simp[sweep,Swept]
  | cons p rest=>
   have hr:∀p∈rest,p.round=r→∃i,p.index=s.indexAt i:=
    fun p hp=>hps p (mem_cons_of_mem _ hp)
   have hc':cost s r rest≤fuel:=by
    rw[cost,map_cons,sum_cons]at hc
    rw[cost]
    split at hc<;>omega
   by_cases hrd:p.round=r
   ·obtain⟨i,hi⟩:=hps p mem_cons_self hrd
    obtain rfl:p=⟨s.indexAt i,r⟩:=by rw[←hi,←hrd]
    rw[swept_cons_due]
    by_cases hg:∃lo hi g,q=.gap lo hi g
    ·obtain⟨lo,hi,g,rfl⟩:=hg
     rw[sweep_gap]
     split
     ·have hn:∀j,¬s.Steps (.gap lo hi g) next i j:=by
       rintro j ⟨hj,-,hlt,-⟩
       omega
      rw[ih rest _ hr hc' x]
      simp only[hn,false_and,exists_false,false_or]
     obtain⟨ad,hpe,hle,hs,hco⟩:=
      spread_spec s next i r lo hi rest
     have hl:∀y∈ad,y.round=r+1:=by
      intro y hy
      obtain⟨k,-,-,-,-,rfl⟩:=hs y hy
      rfl
     have hfu:cost s r (spread s next ⟨s.indexAt i,r⟩ lo hi rest)≤fuel:=by
      rw[cost_cons_due]at hc
      rw[show cost s r (spread s next ⟨s.indexAt i,r⟩ lo hi rest)=
       cost s r (ad++rest) from (hpe.map _).sum_eq,cost_append,cost_later hl]
      omega
     rw[ih _ _ ?_ hfu x,steps_gap_iff (by omega),swept_congr hpe,swept_append_later hl,mem_cons]
     ·constructor
      ·grind
      rintro (h|(h|h)|h)
      ·exact .inl (.inr h)
      ·exact .inl (.inl h)
      ·rcases mem_append.1 (hco x h) with hx|hx
       ·exact .inr (.inl hx)
       ·obtain⟨k,-,-,-,-,rfl⟩:=h
        exact .inr (.inr (.inl ⟨hx,Nat.succ_ne_self r⟩))
      ·exact .inr (.inr h)
     grind
    ·have hg:∀lo hi g,q≠.gap lo hi g:=fun lo hi g h=>hg ⟨lo,hi,g,h⟩
     rw[sweep_byte hg]
     simp only[steps_byte hg]
     grind
   ·rw[sweep_later hrd,ih rest _ hr hc' x,swept_cons_later hrd,mem_cons]
    tauto
end
section
variable {s:Setting}
def Due (s:Setting)(r:Nat)(ps:List Position):Prop:=
 ∀p∈ps,∃i ≤ s.reach,p=⟨s.indexAt i,r⟩
lemma rounds_inst (hps:ps≠[])
 (hfe:s.code.fetch a=q)(hq:q≠.accept):rounds s (fuel+1) a r ps=rounds s fuel (a+q.size) (r+1)
   (sweep s q (s.code.fetch (a+q.size)) r (sweepFuel s ps.length) ps []):=by
 rw[rounds,if_neg (by simpa using hps),hfe]
 cases q<;>first | rfl | exact absurd rfl hq
lemma rounds_spec (qs:List Inst):∀a r ps fuel,s.code.Lists a (qs++[Inst.accept])→
 (∀q∈qs,q≠.accept)→qs.length<fuel→Due s r ps→
 (rounds s fuel a r ps).result=.ok ()∧
 (∀n∈(rounds s fuel a r ps).lengths,∃i,⟨s.indexAt i,r⟩∈ps∧s.Leads qs i n)∧
 (s.exhaustive→∀n i,⟨s.indexAt i,r⟩∈ps→s.Leads qs i n→n∈(rounds s fuel a r ps).lengths)∧
 ((rounds s fuel a r ps).lengths≠#[]↔∃i n,⟨s.indexAt i,r⟩∈ps∧s.Leads qs i n):=by
 induction qs with
 | nil=>
  rintro a r ps (_|fuel) ⟨ha,-⟩-hfu hps
  ·cases hfu
  by_cases hni:ps=[]
  ·simp[rounds,hni]
  rw[rounds,if_neg (by simpa using hni),ha]
  have hdu:ps.filter (fun p=>decide (p.round=r))=ps:=by
   refine filter_eq_self.2 fun p hp=>?_
   obtain⟨i,-,rfl⟩:=hps p hp
   exact decide_eq_true rfl
  have hm:∀n,(∃p∈ps,min (s.readBefore p.index).toNat s.reach=n)↔(⟨s.indexAt n,r⟩:Position)∈ps:=by
   intro n
   constructor
   ·rintro⟨p,hp,rfl⟩
    obtain⟨i,hi,rfl⟩:=hps p hp
    rw[s.readBefore_indexAt,Int.toNat_natCast,min_eq_left hi]
    exact hp
   intro hp
   obtain⟨i,hi,heq⟩:=hps _ hp
   rw[injEq]at heq
   obtain rfl:=s.indexAt_injective heq.1
   refine⟨_,hp,?_⟩
   rw[s.readBefore_indexAt,Int.toNat_natCast,min_eq_left hi]
  have hso:∃i n,(⟨s.indexAt i,r⟩:Position)∈ps∧s.Leads [] i n:=by
   obtain⟨p,hp⟩:=exists_mem_of_ne_nil ps hni
   obtain⟨i,-,rfl⟩:=hps p hp
   exact⟨i,i,hp,rfl⟩
  rw[hdu]
  split
  ·refine⟨rfl,fun n hn=>?_,?_,?_⟩
   ·simp only[map_map,mem_toArray,mem_map,comp_apply,hm]at hn
    exact⟨n,hn,rfl⟩
   ·rintro - n _ h rfl
    simp only[map_map,mem_toArray,mem_map,comp_apply,hm]
    exact h
   ·simpa[hni]using hso
  rename_i hex
  refine⟨rfl,fun n hn=>?_,fun h=>absurd h hex,?_⟩
  ·obtain⟨p,hp,rfl⟩:=mem_map.1 (mem_of_mem_take (mem_toArray.1 hn))
   obtain⟨i,hi,rfl⟩:=hps p hp
   rw[s.readBefore_indexAt]
   exact⟨i,hp,rfl⟩
  ·simpa[hni]using hso
 | cons q qs ih=>
  rintro a r ps (_|fuel) ⟨hq,hl⟩ hne hfu hps
  ·cases hfu
  by_cases hni:ps=[]
  ·simp[rounds,hni]
  rw[rounds_inst hni hq (hne _ mem_cons_self)]
  have hnx:s.code.fetch (a+q.size)=qs.headD .accept:=by
   cases qs with
   | nil=>exact hl.1
   | cons _ _=>exact hl.1
  obtain⟨ps',hps'⟩:∃ps',ps'=sweep s q (qs.headD .accept) r (sweepFuel s ps.length) ps []:=⟨_,rfl⟩
  have hm:∀x,x∈ps'↔∃i j,⟨s.indexAt i,r⟩∈ps∧s.Steps q (qs.headD .accept) i j∧x=⟨s.indexAt j,r+1⟩:=by
   intro x
   rw[hps',mem_sweep _ _ _ ?_ (cost_le s r ps)]
   ·have hno:¬(x∈ps∧x.round≠r):=by
     rintro⟨hx,hrd⟩
     obtain⟨i,-,rfl⟩:=hps x hx
     exact hrd rfl
    simp only[not_mem_nil,Swept,hno,false_or]
   ·intro p hp _
    obtain⟨i,-,rfl⟩:=hps p hp
    exact⟨i,rfl⟩
  have hdu:Due s (r+1) ps':=by
   intro p hp
   obtain⟨i,j,-,hs,rfl⟩:=(hm p).1 hp
   exact⟨j,hs.le_reach,rfl⟩
  -- a position of the next round that leads on comes from one of this round that does
  have hle:∀n,(∃j,⟨s.indexAt j,r+1⟩∈ps'∧s.Leads qs j n)↔
   ∃i,⟨s.indexAt i,r⟩∈ps∧s.Leads (q::qs) i n:=by
   intro n
   constructor
   ·rintro⟨j,hj,h⟩
    obtain⟨i,j',hi,hs,heq⟩:=(hm _).1 hj
    rw[injEq]at heq
    obtain rfl:=s.indexAt_injective heq.1
    exact⟨i,hi,j,hs,h⟩
   ·rintro⟨i,hi,j,hs,h⟩
    exact⟨j,(hm _).2 ⟨i,j,hi,hs,rfl⟩,h⟩
  rw[hnx,←hps']
  obtain⟨hok,hsn,hal,han⟩:=ih (a+q.size) (r+1) ps' fuel hl
   (fun q' hq'=>hne q' (mem_cons_of_mem _ hq')) (Nat.lt_of_succ_lt_succ hfu) hdu
  refine⟨hok,fun n hn=>(hle n).1 (hsn n hn),fun hex n i hi h=>?_,han.trans ?_⟩
  ·obtain⟨j,hj,h⟩:=(hle n).2 ⟨i,hi,h⟩
   exact hal hex n j hj h
  rw[exists_comm,exists_comm (p:=fun i n=>_∧s.Leads (q::qs) i n)]
  exact exists_congr hle
end
def isByte:Inst→Bool
 | .any | .literal _ | .notLiteral _ | .masked _ _ | .maskedNot _ _=>true
 | _=>false

/-- A row of instructions for bytes and gaps that does not end with a gap. -/
structure Runnable (qs:List Inst):Prop where
 steps:∀q∈qs,isByte q=true∨∃lo hi g,q=.gap lo hi g
 last:∀q∈qs.getLast?,isByte q=true
lemma Runnable.tail {q:Inst}{qs:List Inst}(h:Runnable (q::qs)):Runnable qs where
 steps q' hq':=h.steps q' (mem_cons_of_mem _ hq')
 last q' hq':=by
  refine h.last q' ?_
  grind
structure OnBytes (f:RunFlags):Prop where
 wide:f.wide=false
 ignoreCase:f.ignoreCase=false
 search:f.search=false
 dotAll:f.dotAll=true
section
variable {f:RunFlags}{inp:Input}{c:Code}
def settingOf (c:Code)(f:RunFlags)(inp:Input):Setting:=⟨c,inp,f.backwards,f.exhaustive⟩
section
variable (hf:OnBytes f)
include hf
lemma OnBytes.width_eq:width f=1:=by
 rw[width,hf.wide]
 rfl
lemma OnBytes.reach_eq:reach f inp=(settingOf c f inp).reach:=by
 unfold reach
 dsimp only
 rw[hf.width_eq,Nat.mod_one]
 rfl
lemma OnBytes.view_eq (c:Code)(inp:Input)(i:Nat):
 (view f inp (i*width f)).blocked=decide ((settingOf c f inp).reach ≤ i)∧
 (view f inp (i*width f)).byte=inp.data.byteAtInt ((settingOf c f inp).indexAt i):=by
 rw[hf.width_eq,mul_one]
 unfold view Setting.indexAt settingOf
 dsimp only
 rw[hf.wide,hf.reach_eq,Bool.false_and,Bool.or_false,hf.width_eq]
 refine⟨rfl,congrArg _ ?_⟩
 split<;>omega
lemma OnBytes.look_byte (hq:isByte q)(i:Nat):look f inp i q=if i<(settingOf c f inp).reach∧
  readsByte (settingOf c f inp) q ((settingOf c f inp).indexAt i) then .read else .die:=by
 obtain⟨hbl,hb⟩:=hf.view_eq c inp i
 have hr:∀ok:Bool,(if !(view f inp (i*width f)).blocked&&ok then
  Verdict.read else .die)=
   if i<(settingOf c f inp).reach∧ok then .read else .die:=by
  grind
 have hs:∀{ok ok':Bool},ok=ok'→(if i<(settingOf c f inp).reach∧ok then Verdict.read else .die)=
   if i<(settingOf c f inp).reach∧ok' then .read else .die:=by
  rintro ok _ rfl
  rfl
 cases q with
 | any=>
  refine (hr _).trans (hs ?_)
  rw[hf.dotAll]
  rfl
 | literal=>
  refine (hr _).trans (hs ?_)
  rw[hf.ignoreCase,hb]
  rfl
 | notLiteral | masked | maskedNot=>
  refine (hr _).trans (hs ?_)
  rw[hb]
  rfl
 | _=>cases hq
lemma OnBytes.look_gap (lo hi:Nat)(g:Bool)(i:Nat):
 look f inp i (.gap lo hi g)=.read↔i<(settingOf c f inp).reach:=by
 have ha:look f inp i (.gap lo hi g)=look f inp i .any:=rfl
 rw[ha,hf.look_byte rfl (c:=c)]
 simp[readsByte]
lemma OnBytes.spans_byte (hq:isByte q)(i j:Nat):q.spans (look f inp) i j↔(i<(settingOf c f inp).reach∧
  readsByte (settingOf c f inp) q ((settingOf c f inp).indexAt i))∧j=i+1:=by
 have hs:q.spans (look f inp) i j↔look f inp i q=.read∧j=i+1∨look f inp i q=.pass∧j=i:=by
  cases q<;>first | exact Iff.rfl | cases hq
 rw[hs,hf.look_byte hq (c:=c)]
 split<;>simp_all
lemma OnBytes.spans_gap (lo hi:Nat)(g:Bool)(hj:j≤(settingOf c f inp).reach):
 (Inst.gap lo hi g).spans (look f inp) i j↔i+lo≤j∧j ≤ i+max lo hi:=by
 constructor
 ·rintro⟨hij,hlo,hm,-⟩
  omega
 ·rintro⟨hlo,hm⟩
  refine⟨by omega,by omega,by omega,fun x _ hx=>?_⟩
  exact (hf.look_gap (c:=c) lo hi g x).2 (by omega)
lemma OnBytes.ahead (n:Nat)(qs:List Inst):Runnable qs→qs≠[]→∀j,
 rowSpans (look f inp) qs j n→j<(settingOf c f inp).reach∧
  (settingOf c f inp).promising (qs.headD .accept) ((settingOf c f inp).indexAt j)=true:=by
 induction qs with
 | nil=>exact fun _ hne=>absurd rfl hne
 | cons q qs ih=>
  rintro hqs - j ⟨k,hk,hre⟩
  rcases hqs.steps q mem_cons_self with hq|⟨lo,hi,g,rfl⟩
  ·obtain⟨⟨hlt,hr⟩,-⟩:=(hf.spans_byte hq j k).1 hk
   refine⟨hlt,?_⟩
   cases q with
   | literal b=>exact hr
   | _=>rfl
  ·have hne:qs≠[]:=by
    rintro rfl
    exact absurd (hqs.last _ rfl) Bool.false_ne_true
   obtain⟨hlt,-⟩:=ih hqs.tail hne k hre
   exact⟨hk.1.trans_lt hlt,rfl⟩
lemma OnBytes.leads_iff (n:Nat)(qs:List Inst):Runnable qs→∀i,
 (settingOf c f inp).Leads qs i n↔rowSpans (look f inp) qs i n:=by
 induction qs with
 | nil=>exact fun _ _=>Iff.rfl
 | cons q qs ih=>
  intro hqs i
  have hr:=ih hqs.tail
  rcases hqs.steps q mem_cons_self with hq|⟨lo,hi,g,rfl⟩
  ·have hg:∀lo hi g,q≠.gap lo hi g:=by
    rintro lo hi g rfl
    cases hq
   refine exists_congr fun k=>and_congr ?_ (hr k)
   rw[steps_byte hg,hf.spans_byte hq]
  have hne:qs≠[]:=by
   rintro rfl
   exact absurd (hqs.last _ rfl) Bool.false_ne_true
  constructor
  ·rintro⟨k,⟨hlo,hm,hlt,-⟩,h⟩
   exact⟨k,(hf.spans_gap lo hi g hlt.le).2 ⟨hlo,hm⟩,(hr k).1 h⟩
  ·rintro⟨k,hk,h⟩
   obtain⟨hlt,hp⟩:=hf.ahead n qs hqs.tail hne k h
   obtain⟨hlo,hm⟩:=(hf.spans_gap lo hi g hlt.le).1 hk
   exact⟨k,⟨hlo,hm,hlt,.inr hp⟩,(hr k).2 h⟩
lemma OnBytes.run_spec (inp:Input){qs:List Inst}(hqs:Runnable qs)
 (hl:c.Lists a (qs++[Inst.accept])):
 (run c a f inp).result=.ok ()∧
 (∀n∈(run c a f inp).lengths,rowSpans (look f inp) qs 0 n)∧
 (f.exhaustive→∀n,rowSpans (look f inp) qs 0 n→n∈(run c a f inp).lengths)∧
 ((run c a f inp).lengths≠#[]↔∃n,rowSpans (look f inp) qs 0 n):=by
 have hpr:∀q∈qs,q≠.accept∧q≠.filler:=by
  intro q hq
  rcases hqs.steps q hq with h|⟨lo,hi,g,rfl⟩
  ·constructor<;>rintro rfl<;>cases h
  ·exact⟨nofun,nofun⟩
 have hle:(qs++[Inst.accept]).length+a ≤ max a c.size:=by
  refine hl.length_le _ fun q hq=>?_
  grind
 have hdu:Due (settingOf c f inp) 0 [⟨(settingOf c f inp).indexAt 0,0⟩]:=by
  intro p hp
  exact⟨0,zero_le,mem_singleton.1 hp⟩
 have ho:∀i n,((⟨(settingOf c f inp).indexAt i,0⟩:Position) ∈
  [(⟨(settingOf c f inp).indexAt 0,0⟩:Position)]∧(settingOf c f inp).Leads qs i n)↔
  i=0∧rowSpans (look f inp) qs 0 n:=by
  intro i n
  rw[mem_singleton,injEq,hf.leads_iff n qs hqs]
  constructor
  ·rintro⟨⟨hi,-⟩,h⟩
   obtain rfl:=Setting.indexAt_injective _ hi
   exact⟨rfl,h⟩
  ·rintro⟨rfl,h⟩
   exact⟨⟨rfl,rfl⟩,h⟩
 have hr:run c a f inp=rounds (settingOf c f inp) (c.size+1) a 0 [⟨(settingOf c f inp).indexAt 0,0⟩]:=by
  rw[←Setting.start_eq]
  rfl
 rw[length_append]at hle
 obtain⟨hok,hs,ha,han⟩:=rounds_spec qs a 0 _ (c.size+1) hl
  (fun q hq=>(hpr q hq).1) (by omega) hdu
 rw[hr]
 refine⟨hok,fun n hn=>?_,fun hex n h=>?_,han.trans ?_⟩
 ·obtain⟨i,h⟩:=hs n hn
  exact ((ho i n).1 h).2
 ·obtain⟨hm,h⟩:=(ho 0 n).2 ⟨rfl,h⟩
  exact ha hex n 0 hm h
 ·simp only[ho]
  exact⟨fun⟨_,n,_,h⟩=>⟨n,h⟩,fun⟨n,h⟩=>⟨0,n,rfl,h⟩⟩
end
end
end PatternScan.Regex.GapMachine
