import PatternScan.Proofs.Condition.Coupling
import PatternScan.Proofs.Condition.Meaning
/-! A loop counts the turns whose body holds. The turns of a range are its integers, in increasing order. -/
open Int64
namespace PatternScan.Condition
open Expression Iteration Cell
open Array (getElem?_modify)
variable {base h width:Nat}{m:Array Bool}{x b:Expression}{hits:Int64}{l:Cell}{i:List (List Cell)}{u:Unit}{it:Iteration}{p:Expression→Prop}{σ:Type}
/-- Slots before `base` and the number of slots are as they were, and no steps were won. -/
structure Frame.Passes (base:Nat)(f f':Frame σ):Prop where
 fuel:f'.fuel≤f.fuel
 size:f'.slots.size=f.slots.size
 slots:∀n<base,f'.slots[n]?=f.slots[n]?
namespace Frame.Passes
variable {f f' f'':Frame σ}
lemma refl (f:Frame σ):f.Passes base f:=⟨le_rfl,rfl,fun _ _=>rfl⟩
lemma trans (h:f.Passes base f')(h':f'.Passes base f''):f.Passes base f'':=
 ⟨h'.fuel.trans h.fuel,h'.size.trans h.size,fun n hn=>(h'.slots n hn).trans (h.slots n hn)⟩
lemma coupling (base:Nat)(f0:Frame σ):Coupling base fun f g:Frame σ=>g=f∧f0.Passes base f where
 slots h:=h.1▸rfl
 world h:=h.1▸rfl
 fuel {f g n} h hn:=by
  obtain⟨rfl,hp⟩:=h
  exact⟨n,hn,rfl,by have:=hp.fuel;dsimp only;omega,hp.size,hp.slots⟩
 change w h:=⟨h.1▸rfl,h.2.fuel,h.2.size,h.2.slots⟩
 alter {f g n} k hn h:=by
  obtain⟨rfl,hp⟩:=h
  refine⟨rfl,hp.fuel,Array.size_modify.trans hp.size,fun i hi=>?_⟩
  rw[←hp.slots i hi,getElem?_modify,if_neg (by omega)]
end Frame.Passes
section
variable {α:Type}{f f':Frame σ}{e:Environment σ}
lemma Coupled.passes {x:Evaluation σ α}{a:α}
 (hx:Coupled (fun f' g=>g=f'∧f.Passes base f') x x)(h:x f=some (a,f')):
 f.Passes base f':=by
 obtain⟨_,-,-,hp⟩:=hx ⟨rfl,.refl f⟩ h
 exact hp
lemma Expression.eval_passes {n:Nat}(hn:base≤n){c:Cell}(hc:x.eval e m n h f=some (c,f')):f.Passes base f':=
 (x.eval_coupled (Frame.Passes.coupling base f) rfl (.of_forall (fun _ _ _=>rfl) x) hn h).passes hc
end
/-! ## What a loop compares -/
def Cell.IsTruth (c:Cell):Prop:=c.isUndefined∨c.word=0∨c.word=1
def holds (q:Cell)(vs:List Cell):Bool:=
 !vs.isEmpty&&isEnough (reserve q.word) (vs.countP Cell.isTrue) vs.length
def tally (hits:Int64)(vs:List Cell):Int64:=
 vs.foldl (fun n v=>if v.isUndefined then n else n+v.word) hits
lemma Cell.IsTruth.cases {c:Cell}(h:c.IsTruth):c.isUndefined∧c.isTrue=false∨
  c.isUndefined=false∧c.word=ofNat (if c.isTrue then 1 else 0):=by
 unfold isTrue
 cases hc:c.isUndefined
 ·rcases h with h|h|h
  ·rw[hc]at h
   cases h
  ·exact .inr ⟨rfl,by rw[h];decide⟩
  ·exact .inr ⟨rfl,by rw[h];decide⟩
 ·exact .inl ⟨rfl,rfl⟩
lemma tally_truths {vs:List Cell}(hvs:∀v∈vs,v.IsTruth)(n:Nat):
 tally (ofNat n) vs=ofNat (n+vs.countP Cell.isTrue):=by
 induction vs generalizing n with
 | nil=>rfl
 | cons v vs ih=>
  replace ih:=ih fun w hw=>hvs w (List.mem_cons_of_mem _ hw)
  change tally (if v.isUndefined then ofNat n else ofNat n+v.word) vs=_
  rw[List.countP_cons]
  rcases (hvs v List.mem_cons_self).cases with⟨hv,ht⟩|⟨hv,hwo⟩
  ·rw[if_pos hv,ih,ht]
   rfl
  ·rw[if_neg (by rw[hv];decide),hwo,←ofNat_add,ih,add_assoc,add_comm (if v.isTrue then 1 else 0)]
lemma ofNat_inj {a b:Nat}(ha:a<2^63)(hb:b<2^63):ofNat a=ofNat b↔a=b:=by
 rw[←toInt_inj,toInt_ofNat_of_lt ha,toInt_ofNat_of_lt hb]
 omega
lemma toInt_add_undefined {n:Nat}(hn:n<2^62):(ofNat n+undefinedInteger).toInt=n-1483400188077313:=by
 have hu:undefinedInteger.toInt=-1483400188077313:=by decide
 rw[toInt_add,toInt_ofNat_of_lt (by omega),Int.bmod_eq_of_le (by omega) (by omega)]
 omega
lemma loopResult_eq {e:Environment σ}(q:Cell){hits turns:Nat}(hh:hits≤turns)(ht:turns<2^63):
 valueResult e .loopResult [.integer (ofNat turns),.integer (ofNat hits),q]=
  some (.ofBool (turns != 0&&isEnough (reserve q.word) hits turns)):=by
 have hw (n:Nat):(Cell.integer (ofNat n)).word=ofNat n:=rfl
 have hz {n:Nat}(hn:n<2^63):(ofNat n==0)=(n==0):=by
  rw[Bool.eq_iff_iff,beq_iff_eq,beq_iff_eq]
  exact ofNat_inj hn (by decide)
 have he:(ofNat hits==ofNat turns)=decide (turns≤hits):=by
  rw[Bool.eq_iff_iff,beq_iff_eq,decide_eq_true_iff,ofNat_inj (by omega) ht]
  omega
 have hle:decide (q.word≤ofNat hits)=decide (q.word.toInt≤hits):=by
  rw[Bool.eq_iff_iff,decide_eq_true_iff,decide_eq_true_iff,le_iff_toInt_le,toInt_ofNat_of_lt (by omega)]
 unfold valueResult isEnough reserve isUndefined
 grind
lemma isEnough_of_stops {q:Cell}{i ws:List Cell}(hl:l.IsTruth)(hsi:i.length<2^62)
 (hs:goesOn q (.integer (ofNat (i.countP Cell.isTrue))) l=false):
 isEnough (reserve q.word) ((i++[l]++ws).countP Cell.isTrue) (i++[l]++ws).length=
  isEnough (reserve q.word) ((i++[l]).countP Cell.isTrue) (i++[l]).length:=by
 rw[List.countP_append,List.countP_append,List.countP_singleton,List.length_append,
  List.length_append,List.length_singleton]
 have hc:i.countP Cell.isTrue ≤ i.length:=List.countP_le_length
 have hr:ws.countP Cell.isTrue≤ws.length:=List.countP_le_length
 have hl:=hl.cases
 unfold goesOn at hs
 unfold isEnough reserve
 cases hq:q.word==undefinedInteger
 ·rw[isUndefined,hq]at hs
  simp only[Bool.false_eq_true,if_false]at hs⊢
  cases hz:q.word==0
  · -- The sum after the last turn is enough already.
   rw[hz]at hs
   simp only[Bool.false_eq_true,if_false,decide_eq_false_iff_not,lt_iff_toInt_lt,integer_word]at hs⊢
   have he:q.word.toInt≤(i.countP Cell.isTrue+if l.isTrue then 1 else 0:Nat):=by
    rcases hl with⟨hu,-⟩|⟨-,hw⟩
    ·rw[beq_iff_eq.1 hu,toInt_add_undefined (by omega)]at hs
     split<;>omega
    ·rw[hw,←ofNat_add,toInt_ofNat_of_lt (by split<;>omega)]at hs
     exact Int.not_lt.1 hs
   grind
  rw[hz]at hs
  have ho:l.word=1:=by simpa using hs
  have ht:l.isTrue:=by
   rw[Cell.isTrue,isUndefined,ho]
   decide
  simp[ht]
 rw[isUndefined,hq]at hs
 have hf:l.isTrue=false:=by
  have hze:l.word=0:=by simpa using hs
  rw[Cell.isTrue,hze]
  simp
 grind

/-! ## The turns -/
section
variable {e:Environment σ}{f f':Frame σ}{n:Nat}{c:Cell}
lemma tick_some (ht:tick f=some (u,f')):f'.slots=f.slots∧f.fuel=f'.fuel+1:=by
 unfold tick at ht
 grind
lemma fetch_some (hc:fetch e n h f=some (c,f')):
 f.slots[n]?=some c∧f'.slots=f.slots∧f.fuel=f'.fuel+1:=by
 rw[fetch_eq]at hc
 obtain⟨_,g,ht,hc⟩:=bind_some hc
 obtain⟨hs,hf⟩:=tick_some ht
 unfold withSlot at hc
 by_cases hn:n<g.slots.size
 ·rw[if_pos hn]at hc
  obtain⟨-,rfl,rfl⟩:=leave_some hc
  refine⟨?_,hs,hf⟩
  rw[←hs]
  simp[hn]
 ·rw[if_neg hn]at hc
  cases hc
lemma alter_some {ch:Cell→Cell}(hc:alter n ch f=some (u,f')):
 f'.slots=f.slots.modify n ch∧f.fuel=f'.fuel+1∧n<f.slots.size:=by
 rw[alter_eq]at hc
 obtain⟨_,g,ht,hc⟩:=bind_some hc
 obtain⟨hs,hf⟩:=tick_some ht
 unfold withSlot at hc
 grind
structure Account (frame:Nat)(q:Cell)(hits turns:Int64)(f:Frame σ):Prop where
 hits:f.slots[frame]?=some (.integer hits)
 turns:f.slots[frame+1]?=some (.integer turns)
 quantity:f.slots[frame+2]?=some q
variable {frame:Nat}{q:Cell}{turns:Int64}
lemma Account.passes (ha:Account frame q hits turns f)
 (hf:f.Passes (frame+loopSlots) f'):Account frame q hits turns f':=by
 have hs:loopSlots=3:=rfl
 exact⟨(hf.slots _ (by omega)).trans ha.hits,(hf.slots _ (by omega)).trans ha.turns,
  (hf.slots _ (by omega)).trans ha.quantity⟩
lemma countTurn_some (ha:Account frame q hits turns f){b:Bool}
 (hc:countTurn e frame h l f=some (b,f')):
 Account frame q (if l.isUndefined then hits else hits+l.word) (turns+1) f'∧
  b=goesOn q (.integer hits) l∧f'.fuel<f.fuel:=by
 obtain⟨_,f1,htu,hc⟩:=bind_some hc
 obtain⟨c,f2,hh,hc⟩:=bind_some hc
 obtain⟨d,f3,hq,hc⟩:=bind_some hc
 obtain⟨_,f4,ht,hc⟩:=bind_some hc
 obtain⟨_,f5,hr,hc⟩:=bind_some hc
 obtain⟨_,f6,hr',hc⟩:=bind_some hc
 obtain⟨_,f7,had,hc⟩:=bind_some hc
 obtain⟨_,f8,ht',hc⟩:=bind_some hc
 obtain⟨rfl,rfl⟩:=pure_some hc
 obtain⟨hs1,hf1,-⟩:=alter_some htu
 obtain⟨hsu,hs2,hf2⟩:=fetch_some hh
 obtain⟨hqt,hs3,hf3⟩:=fetch_some hq
 obtain⟨hs4,hf4⟩:=tick_some ht
 obtain rfl:f4=f6:=(leave_some hr).2.2.trans (leave_some hr').2.2
 obtain⟨hs7,hf7,-⟩:=alter_some had
 obtain⟨hs8,hf8⟩:=tick_some ht'
 rw[hs1,getElem?_modify,if_neg (by omega),ha.hits]at hsu
 rw[hs2,hs1,getElem?_modify,if_neg (by omega),ha.quantity]at hqt
 cases hsu
 cases hqt
 have hs:f8.slots=(f.slots.modify (frame+1) fun c=>.integer (c.word+1)).modify frame
  fun c=>if l.isUndefined then c else .integer (c.word+l.word):=by
  rw[hs8,hs7,hs4,hs3,hs2,hs1]
 refine⟨⟨?_,?_,?_⟩,rfl,by omega⟩
 ·rw[hs,getElem?_modify,if_pos rfl,getElem?_modify,if_neg (by omega),ha.hits]
  cases l.isUndefined<;>rfl
 ·rw[hs,getElem?_modify,if_neg (by omega),getElem?_modify,if_pos rfl,ha.turns]
  rfl
 ·rw[hs,getElem?_modify,if_neg (by omega),getElem?_modify,if_neg (by omega),ha.quantity]
lemma takeItem_passes {v:List Cell}
 (hc:takeItem e frame h v f=some (u,f')):f.Passes (frame+loopSlots) f':=
 (@Coupled.takeItem _ _ _ e e.set (Frame.Passes.coupling _ f) _ le_rfl h v).passes hc

/-- The values of the body in the first turns of a loop, one after the other. -/
inductive Turned (e:Environment σ)(body:Evaluation σ Cell)(frame h:Nat):
 List (List Cell)→Frame σ→List Cell→Frame σ→Prop
 | none (items:List (List Cell))(f:Frame σ):Turned e body frame h items f [] f
 | turn {item:List Cell}{rest:List (List Cell)}{f f1 f2 f3 f':Frame σ}{v:Cell}
  {vs:List Cell}{b:Bool}(take:takeItem e frame h item.reverse f=some ((),f1))
  (value:body f1=some (v,f2))(count:countTurn e frame h v f2=some (b,f3))
  (others:Turned e body frame h rest f3 vs f'):
  Turned e body frame h (item::rest) f (v::vs) f'
lemma turns_some {bd:Evaluation σ Cell}(hbo:∀{f f' v},bd f=some (v,f')→f.Passes (frame+loopSlots) f')
 (ha:Account frame q hits turns f)
 (hc:Condition.turns e bd frame h width i f=some ((),f')):
 ∃vs f1,Turned e bd frame h i f vs f1∧
  Account frame q (tally hits vs) (turns+ofNat vs.length) f'∧vs.length≤f.fuel∧
  (vs.length=i.length∨∃init last,vs=init++[last]∧vs.length ≤ i.length∧
   goesOn q (.integer (tally hits init)) last=false):=by
 induction i generalizing f hits turns with
 | nil=>
  obtain⟨_,g,ht,hc⟩:=bind_some hc
  have hp:=(takeItem_passes ht).trans (Coupled.passes (.tick (Frame.Passes.coupling _ g)) hc)
  refine⟨[],f,.none _ f,?_,zero_le,.inl rfl⟩
  rw[show turns+ofNat ([]:List Cell).length=turns from Int64.add_zero turns]
  exact ha.passes hp
 | cons _ _ ih=>
  obtain⟨_,f1,ht,hc⟩:=bind_some hc
  obtain⟨v,f2,hv,hc⟩:=bind_some hc
  obtain⟨b,f3,hcn,hc⟩:=bind_some hc
  have hp:=(takeItem_passes ht).trans (hbo hv)
  obtain⟨ha',hb,hf⟩:=countTurn_some (ha.passes hp) hcn
  have hl:f3.fuel<f.fuel:=hf.trans_le hp.fuel
  cases b with
  | false=>
   have hs:=Coupled.passes (.tick (Frame.Passes.coupling (frame+loopSlots) f3)) hc
   exact⟨[v],f3,.turn ht hv hcn (.none _ _),ha'.passes hs,Nat.one_le_of_lt hl,.inr ⟨[],v,rfl,by simp,hb.symm⟩⟩
  | true=>
   obtain⟨vs,f4,htu,hac,hle,he⟩:=ih ha' hc
   refine⟨v::vs,f4,.turn ht hv hcn htu,?_,?_,?_⟩
   ·have hsu:turns+ofNat (v::vs).length=turns+1+ofNat vs.length:=by
     rw[List.length_cons,add_comm,ofNat_add,←Int64.add_assoc]
     rfl
    rw[hsu]
    exact hac
   ·rw[List.length_cons]
    omega
   ·rcases he with he|⟨init,last,rfl,hl,hst⟩
    ·exact .inl (congrArg (·+1) he)
    ·exact .inr ⟨v::init,last,rfl,Nat.succ_le_succ hl,hst⟩
def enterLoop (e:Environment σ)(m:Array Bool)(frame h:Nat)(q:Cell)(items:Iterator):Evaluation σ Iteration:=do
 alter frame fun _=>.integer 0
 alter (frame+1) fun _=>.integer 0
 alter (frame+2) fun _=>q
 items.eval e m (frame+loopSlots+items.width) h
lemma enterLoop_some {i:Iterator}(hc:enterLoop e m frame h q i f=some (it,f')):
 Account frame q 0 0 f'∧f'.fuel≤f.fuel:=by
 obtain⟨_,f1,h1,hc⟩:=bind_some hc
 obtain⟨_,f2,h2,hc⟩:=bind_some hc
 obtain⟨_,f3,h3,hc⟩:=bind_some hc
 obtain⟨hs1,hf1,-⟩:=alter_some h1
 obtain⟨hs2,hf2,-⟩:=alter_some h2
 obtain⟨hs3,hf3,hs⟩:=alter_some h3
 have hcl:Account frame q 0 0 f3:=by
  constructor
  all_goals simp only[hs3,hs2,hs1,getElem?_modify]
  all_goals grind
 have hR:=Frame.Passes.coupling (frame+loopSlots) f3
 have hp:f3.Passes (frame+loopSlots) f':=
  (@Iterator.eval_coupled _ _ _ e e.set m m hR rfl i _ (fun x hx k=>x.eval_coupled hR rfl
   (.of_forall (fun _ _ _=>rfl) x) (Nat.le_add_right ..) k) h).passes hc
 exact⟨hcl.passes hp,hp.fuel.trans (by omega)⟩
lemma loopEnd_some (ha:Account frame q hits turns f)(hc:loopEnd e m frame h f=some (c,f')):
 valueResult e .loopResult [.integer turns,.integer hits,q]=some c:=by
 obtain⟨a,f1,h1,hc⟩:=bind_some hc
 obtain⟨b,f2,h2,hc⟩:=bind_some hc
 obtain⟨d,f3,h3,hc⟩:=bind_some hc
 obtain⟨ht,hs1,-⟩:=fetch_some h1
 obtain⟨hh,hs2,-⟩:=fetch_some h2
 obtain⟨hq,-,-⟩:=fetch_some h3
 rw[ha.turns]at ht
 rw[hs1,ha.hits]at hh
 rw[hs2,hs1,ha.quantity]at hq
 cases ht
 cases hh
 cases hq
 obtain⟨w,hr,-⟩:=apply_value hc
 change Option.map (·,f3.world) (valueResult e .loopResult [.integer turns,.integer hits,q])=some (c,w) at hr
 obtain⟨c',hv,hp⟩:=Option.map_eq_some_iff.1 hr
 cases hp
 exact hv

/-- A loop compares its quantity with the number of turns that hold, as long as a turn counts once at most: no turns
left out would change the result. -/
lemma turns_decide {b:Evaluation σ Cell}
 (hb:∀{f f' v},b f=some (v,f')→f.Passes (frame+loopSlots) f')
 (ha:Account frame q 0 0 f)(hf:f.fuel ≤ stepLimit)
 (hc:(Condition.turns e b frame h width i >>= fun _=>loopEnd e m frame h) f=some (c,f')):
 ∃vs f1,Turned e b frame h i f vs f1∧((∀v∈vs,v.IsTruth)→
  ∀ws:List Cell,vs.length+ws.length=i.length→c=.ofBool (holds q (vs++ws))):=by
 obtain⟨_,g,htr,he⟩:=bind_some hc
 obtain⟨vs,f1,htu,hac,hl,hs⟩:=turns_some hb ha htr
 refine⟨vs,f1,htu,fun ht ws hws=>?_⟩
 have hli:vs.length≤2^62:=hl.trans hf
 have hr:=loopEnd_some hac he
 have hsu:tally 0 vs=ofNat (vs.countP Cell.isTrue):=by simpa using tally_truths ht 0
 rw[hsu,Int64.zero_add,loopResult_eq q List.countP_le_length (by omega)]at hr
 rw[←Option.some.inj hr,holds]
 congr 1
 rcases hs with hal|⟨init,last,rfl,-,hs⟩
 · -- All items were taken.
  obtain rfl:ws=[]:=List.length_eq_zero_iff.1 (by omega)
  rw[List.append_nil]
  cases vs<;>rfl
 have hi:tally 0 init=ofNat (init.countP Cell.isTrue):=by
  simpa using tally_truths (fun v hv=>ht v (List.mem_append_left _ hv)) 0
 rw[hi]at hs
 rw[List.length_append,List.length_singleton]at hli
 rw[isEnough_of_stops (ht last (by simp)) (by omega) hs]
 simp
lemma loop_some {qn:Expression}{i:Iterator}(hc:(Expression.loop qn i b).eval e m frame h f=some (c,f')):
 ∃q it f1 f2,qn.eval e m frame h f=some (q,f1)∧enterLoop e m frame h q i f1=some (it,f2)∧
  Account frame q 0 0 f2∧f2.fuel≤f.fuel∧
  (Condition.turns e (b.eval e m (frame+loopSlots+i.width) (h+1)) frame h it.width it.all >>= fun _=>
   loopEnd e m frame h) f2=some (c,f'):=by
 obtain⟨q,f1,hq,hc⟩:=bind_some hc
 have he:(enterLoop e m frame h q i >>= fun it=>
  Condition.turns e (b.eval e m (frame+loopSlots+i.width) (h+1)) frame h it.width it.all >>= fun _=>
   loopEnd e m frame h) f1=some (c,f'):=by
  simpa only[enterLoop,bind_assoc]using hc
 obtain⟨it,f2,hit,hc⟩:=bind_some he
 obtain⟨ha,hl⟩:=enterLoop_some hit
 exact⟨q,it,f1,f2,hq,hit,ha,hl.trans (Expression.eval_passes le_rfl hq).fuel,hc⟩

/-- Wherever the code of a loop stands, the machine goes through it and leaves what the comparison of
the quantity with the turns says.  A loop without turns does not hold. -/
theorem loop_counts_turns (hr:e.Regular) {quantity body:Expression} {items:Iterator}
 (hfits:(Expression.loop quantity items body).Every (Expression.Fits e.set))
 {s:State σ} {ip:Nat} {stack:Array Cell} (hfuel:f.fuel ≤ stepLimit)
 (hcode:Segment e.set.code ip ((Expression.loop quantity items body).code frame)) :
 ((Expression.loop quantity items body).eval e s.matched frame stack.size f = none ∧
  (run e f.fuel (s.place ip stack f)).1 ≠ .success) ∨
 ∃ q it vs c f₁ f₂ f₃ f',quantity.eval e s.matched frame stack.size f = some (q,f₁) ∧
  enterLoop e s.matched frame stack.size q items f₁ = some (it,f₂) ∧
  Turned e (body.eval e s.matched (frame+loopSlots+items.width) (stack.size+1)) frame stack.size it.all f₂ vs f₃ ∧
  run e f.fuel (s.place ip stack f) =
   run e f'.fuel (s.place
    (ip+((Expression.loop quantity items body).code frame).length) (stack.push c) f') ∧
  ((∀ v∈vs,v.IsTruth) → ∀ ws:List Cell,vs.length+ws.length = it.all.length →
   c = .ofBool (holds q (vs++ws))) := by
 have hrun:=Expression.compiles (s:=s) hr _ hfits frame ip stack hcode f
 cases hloop:(Expression.loop quantity items body).eval e s.matched frame stack.size f with
 | none=>
  rw[hloop]at hrun
  exact .inl ⟨rfl,hrun.1⟩
 | some p=>
  obtain⟨c,f'⟩:=p
  rw[hloop]at hrun
  obtain⟨q,it,f₁,f₂,hq,hit,hacc,hless,hturns⟩:=loop_some hloop
  obtain⟨vs,f₃,hturned,hc⟩:=turns_decide (fun h=>Expression.eval_passes (Nat.le_add_right ..) h) hacc
   (hless.trans hfuel) hturns
  exact .inr ⟨q,it,vs,c,f₁,f₂,f₃,f',hq,hit,hturned,hrun.1,hc⟩
end
open Rule (Arithmetic Comparison Quantifier)
def overTwo (q:Quantifier)(body:Expression):Expression:=
 .loop (.quantifier q) (.range (.integer 0) (.integer 1)) body
lemma overTwo_every {q:Quantifier}(hl:p (overTwo q b))(hq:p (.quantifier q))
 (hi:∀v,p (.integer v))(hb:b.Every p):(overTwo q b).Every p:=by
 refine .intro hl ?_
 simp only[overTwo,parts,Iterator.parts,List.forall_mem_cons]
 exact⟨.leaf hq rfl,hb,.leaf (hi 0) rfl,.leaf (hi 1) rfl,by simp⟩
def sameNumber:Expression:=.comparison .equal .integers (.variable 3) (.variable 7)
lemma sameNumber_every (h:p sameNumber)(hv:∀n,p (.variable n)):sameNumber.Every p:=by
 refine .intro h ?_
 simp only[sameNumber,parts,List.forall_mem_cons]
 exact⟨.leaf (hv 3) rfl,.leaf (hv 7) rfl,by simp⟩
theorem loop_counts_turns_nested :
 let body:=overTwo .any sameNumber
 let e:=Environment.sole (overTwo .all body) oneFound
 let s:State Unit:={ matched := #[false],unsatisfied := #[false],world := () }
 let f:Frame Unit:=⟨400,Array.replicate slotCount (.integer 0),()⟩
 (evaluate e ()).2.matched[0]?=some true∧∃ q it vs c f₁ f₂ f₃ f',
  Expression.eval e s.matched (.quantifier .all) 0 0 f=some (q,f₁)∧
  enterLoop e s.matched 0 0 q (.range (.integer 0) (.integer 1)) f₁=some (it,f₂)∧
  Turned e (body.eval e s.matched 4 1) 0 0 it.all f₂ vs f₃∧
  run e 400 (s.place 1 #[] f) =
   run e f'.fuel (s.place (1+((overTwo .all body).code 0).length) #[c] f')∧
  ((∀ v∈vs,v.IsTruth) → ∀ ws:List Cell,vs.length+ws.length=it.all.length →
   c=.ofBool (holds q (vs++ws))):=by
 intro body e s f
 have hfits:(overTwo .all body).Every (Expression.Fits e.set) :=
  overTwo_every trivial trivial (fun _=>trivial)
   (overTwo_every trivial trivial (fun _=>trivial) (sameNumber_every trivial fun _=>trivial))
 obtain⟨-,hfails⟩|hloop:=@loop_counts_turns _ e f 0 (Environment.sole_regular _ _) _ _ _
  hfits s 1 #[] (by decide) (Environment.sole_holds hfits).2
 ·exact absurd (by decide +kernel) hfails
 ·exact⟨by decide +kernel,hloop⟩

/-- The values 2 and 0 of a body add up to the number of the turns, so `all` of the turns count,
although one is false.  And `none` of no turns are true, but the loop does not hold. -/
theorem miscounted_turns :
 let body:Expression:=.arithmetic .subtract .integers (.integer 2)
  (.arithmetic .multiply .integers (.integer 2) (.variable 3))
 let twice:Expression:=overTwo .all body
 let never:Expression :=
  .loop (.quantifier .none) (.range (.integer 4) .fileSize) (.integer 1)
 let slots:=Array.replicate slotCount (Cell.integer 0)
 (∀ n:Fin 2,(body.eval (Environment.sole twice oneFound) #[false] 4 1
  ⟨10,slots.setIfInBounds 3 (.integer (Int64.ofNat n)),()⟩).map (·.1.word)=
   some (if n=0 then 2 else 0))∧
 holds .undefined [.integer 2,.integer 0]=false∧
 (evaluate (Environment.sole twice oneFound) ()).2.matched[0]?=some true∧
 isEnough (quantityOf .none) 0 0=true∧
 (evaluate (Environment.sole never oneFound) ()).1=.success∧
 (evaluate (Environment.sole never oneFound) ()).2.matched[0]?=some false:=by
 refine⟨by decide +kernel,by decide,by decide +kernel,by decide,by decide +kernel,by decide +kernel⟩
def Reaches (lo hi x:Int64):Prop:=
 lo≤x∧x≤hi∧¬(lo≤undefinedInteger∧undefinedInteger≤x)
section
variable {σ:Type}{e:Environment σ}{frame:Nat}{f f':Frame σ}
/-- The turns of a loop over integers: the body is evaluated with one after the other, up to the first value that
decides. -/
inductive Taken (e:Environment σ)(body:Evaluation σ Cell)(frame h:Nat)(q:Cell):
 Int64→List Int64→Frame σ→List Cell→Frame σ→Prop
 | none (hits:Int64)(f:Frame σ):Taken e body frame h q hits [] f [] f
 | turn {hits x:Int64}{xs:List Int64}{f f1 f2 f3 f':Frame σ}{v:Cell}{vs:List Cell}
  (take:takeItem e frame h [.integer x] f=some ((),f1))
  (held:f1.slots[frame+loopSlots]?=some (.integer x))
  (value:body f1=some (v,f2))(count:countTurn e frame h v f2=some (true,f3))
  (goes:goesOn q (.integer hits) v)
  (others:Taken e body frame h q (if v.isUndefined then hits else hits+v.word) xs f3 vs f'):
  Taken e body frame h q hits (x::xs) f (v::vs) f'
 | last {hits x:Int64}{xs:List Int64}{f f1 f2 f':Frame σ}{v:Cell}
  (take:takeItem e frame h [.integer x] f=some ((),f1))
  (held:f1.slots[frame+loopSlots]?=some (.integer x))
  (value:body f1=some (v,f2))(count:countTurn e frame h v f2=some (false,f'))
  (decided:goesOn q (.integer hits) v=false):
  Taken e body frame h q hits (x::xs) f [v] f'
variable {q:Cell}{turns:Int64}
end
end PatternScan.Condition