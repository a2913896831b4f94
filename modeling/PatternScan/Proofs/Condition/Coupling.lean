import PatternScan.Proofs.Condition.Compilation
/-! A condition depends on its rule set only through the regular expressions and through the values of
the rules that it mentions. -/
namespace PatternScan.Condition
open List Nat Int64
variable {i:Instruction}
section
variable {S α β:Type}
/-- A relation between the frames of two evaluations that is kept by one step, which changes slots from `base` on
only. -/
structure Coupling (base:Nat)(R:Frame S→Frame S→Prop):Prop where
 slots {f g:Frame S}:R f g → g.slots=f.slots
 world {f g:Frame S}:R f g → g.world=f.world
 fuel {f g:Frame S} {n:Nat}:R f g→f.fuel=n+1→∃m,g.fuel=m+1∧R {f with fuel:=n} {g with fuel:=m}
 change {f g:Frame S} (w:S):R f g→R {f with world:=w} {g with world:=w}
 alter {f g:Frame S} {n:Nat} (change:Cell→Cell):base≤n→R f g→
  R {f with slots:=f.slots.modify n change} {g with slots:=g.slots.modify n change}
def Coupled (R:Frame S→Frame S→Prop)(x y:Evaluation S α):Prop:=
 ∀ ⦃f g f':Frame S⦄ ⦃a:α⦄,R f g→x f=some (a,f')→∃g',y g=some (a,g')∧R f' g'
def ruleCell (set:RuleSet)(matched:Array Bool)(n:Nat):Cell:=
 if (set.rule n).disabled then .undefined else .ofBool (matched.getD n false)
def Expression.mentions:Expression→List Nat
 | .rule i=>[i]
 | .someRules _ rs=>rs
 | .percentOfRules _ rs=>rs
 | _=>[]
variable {base:Nat}{R:Frame S→Frame S→Prop}{e:Environment S}{set':RuleSet}{m m':Array Bool}
lemma result_withSet (hco:set'.regexCode=e.set.regexCode)
 (hi:∀n,i=.pushRule n → ruleCell set' m' n=ruleCell e.set m n)(o:List Cell)
 (w:S):result {e with set:=set'} m' i o w=result e m i o w:=by
 have ha:atomResult {e with set:=set'} m' i=atomResult e m i:=by
  cases i with
  | pushRule n=>exact congrArg some (hi n rfl)
  | _=>rfl
 unfold result
 split
 ·rfl
 ·rfl
 ·split
  ·rfl
  ·exact congrArg (Option.map _) ha
  ·exact congrArg (Option.map _) (valueResult_congr hco i o)
namespace Coupled
variable {x y z:Evaluation S α}{x' y' z':Evaluation S β}
lemma pure (a:α):Coupled R (Pure.pure a) (Pure.pure a):=by
 intro f g f' b hR hx
 obtain⟨rfl,rfl⟩:=pure_some hx
 exact⟨g,rfl,hR⟩
lemma bind {k l:α→Evaluation S β}(hx:Coupled R x y)(hk:∀a,Coupled R (k a) (l a)):
 Coupled R (x >>= k) (y >>= l):=by
 intro f g f'' b hR hxk
 obtain⟨a,f',hxa,hka⟩:=bind_some hxk
 obtain⟨g',hya,hR'⟩:=hx hR hxa
 obtain⟨g'',hla,hR''⟩:=hk a hR' hka
 refine⟨g'',?_,hR''⟩
 change (y g).bind (fun p=>l p.1 p.2)=_
 rw[hya]
 exact hla
lemma failure:Coupled R (Alternative.failure:Evaluation S α) Alternative.failure:=
 fun _ _ _ _ _ hx=>nomatch hx
lemma ite {p:Prop}[Decidable p]{x' y':Evaluation S α}(hx:Coupled R x y)
 (hx':Coupled R x' y'):Coupled R (if p then x else x') (if p then y else y'):=by
 split
 ·exact hx
 ·exact hx'
lemma tick (hR:Coupling base R):Coupled R (Condition.tick:Evaluation S Unit) Condition.tick:=by
 intro f g f' _ h hx
 unfold Condition.tick at hx⊢
 split at hx
 ·cases hx
 ·next n hn=>
  cases hx
  obtain⟨k,hk,h'⟩:=hR.fuel h hn
  rw[hk]
  exact⟨_,rfl,h'⟩
lemma leave (h:Nat)(a:α):Coupled R (Condition.leave e h a) (Condition.leave {e with set:=set'} h a):=
 ite (pure a) failure
section
variable (hR:Coupling base R)
include hR
lemma fetch (n h:Nat):Coupled R (Condition.fetch e n h) (Condition.fetch {e with set:=set'} n h):=by
 rw[fetch_eq,fetch_eq]
 refine (tick hR).bind fun _ f ⟨m,s,w⟩ f' c hfg hx=>?_
 obtain rfl:s=f.slots:=hR.slots hfg
 unfold withSlot at hx⊢
 -- `split` would also open the access to the slot.
 by_cases hn:n<f.slots.size
 ·rw[if_pos hn]at hx⊢
  exact leave h _ hfg hx
 ·rw[if_neg hn]at hx
  cases hx
lemma alter {n:Nat}(hn:base≤n)(ch:Cell→Cell):
 Coupled R (Condition.alter n ch) (Condition.alter n ch):=by
 rw[alter_eq]
 refine (tick hR).bind fun _ f ⟨m,s,w⟩ f' c hfg hx=>?_
 obtain rfl:s=f.slots:=hR.slots hfg
 unfold withSlot at hx⊢
 split at hx
 ·next hs=>
  cases hx
  exact⟨_,if_pos hs,hR.alter ch hn hfg⟩
 ·cases hx
lemma assign {n:Nat}(hn:base≤n)(cs:List Cell):Coupled R (Condition.assign n cs) (Condition.assign n cs):=by
 induction cs generalizing n with
 | nil=>exact pure ()
 | cons c _ ih=>exact (alter hR hn _).bind fun _=>ih (le_succ_of_le hn)
lemma apply (hco:set'.regexCode=e.set.regexCode){i:Instruction}
 (hi:∀n,i=.pushRule n → ruleCell set' m' n=ruleCell e.set m n)(o:List Cell)(h:Nat):
 Coupled R (Condition.apply e m i o h) (Condition.apply {e with set:=set'} m' i o h):=by
 rw[apply_eq,apply_eq]
 refine (tick hR).bind fun _ f g f' c hfg hx=>?_
 rw[result_withSet hco hi,hR.world hfg]
 unfold given at hx⊢
 split at hx
 ·cases hx
 ·next c w _=>exact leave h c (hR.change w hfg) hx
lemma pushAll (hco:set'.regexCode=e.set.regexCode){is:List Instruction}
 (his:∀n,.pushRule n∈is → ruleCell set' m' n=ruleCell e.set m n)(h:Nat):
 Coupled R (Condition.pushAll e m is h) (Condition.pushAll {e with set:=set'} m' is h):=by
 induction is generalizing h with
 | nil=>exact pure []
 | cons i _ ih=>
  refine (apply hR hco (fun n hn=>his n (hn▸mem_cons_self)) [] h).bind fun c=>?_
  exact (ih (fun n hn=>his n (mem_cons_of_mem _ hn)) (h+1)).bind fun cs=>pure _
lemma applySet (i:Instruction)(q:Cell)(mm p:List Cell)(h:Nat):
 Coupled R (Condition.applySet e i q mm p h)
  (Condition.applySet {e with set:=set'} i q mm p h):=by
 refine (tick hR).bind fun _=>?_
 cases setResult e.findings i q mm p with
 | none=>exact failure
 | some c=>exact leave h c
lemma convert (k:Operands)(a b:Cell):Coupled R (Condition.convert k a b) (Condition.convert k a b):=by
 cases k with
 | integerAndFloat | floatAndInteger=>exact (tick hR).bind fun _=>pure _
 | _=>exact pure _
lemma start (h:Nat)(it:Iteration):Coupled R (Condition.start e h it) (Condition.start {e with set:=set'} h it):=
 (tick hR).bind fun _=>leave h it
lemma takeItem {f:Nat}(hf:base≤f+loopSlots)(h:Nat)(v:List Cell):
 Coupled R (Condition.takeItem e f h v) (Condition.takeItem {e with set:=set'} f h v):=by
 refine (tick hR).bind fun _=>(ite failure (pure ())).bind fun _=>?_
 exact (assign hR hf v).bind fun _=>tick hR
lemma countTurn {f:Nat}(hf:base≤f)(h:Nat)(l:Cell):Coupled R (Condition.countTurn e f h l)
  (Condition.countTurn {e with set:=set'} f h l):=by
 refine (alter hR (le_add_right_of_le hf) _).bind fun _=>?_
 refine (fetch hR f (h+2)).bind fun hits=>(fetch hR (f+2) (h+3)).bind fun q=>?_
 refine (tick hR).bind fun _=>(leave (h+1) ()).bind fun _=>(leave (h+2) ()).bind fun _=>?_
 exact (alter hR hf _).bind fun _=>(tick hR).bind fun _=>pure _
lemma turns {f:Nat}(hf:base≤f)(h w:Nat){body bd:Evaluation S Cell}
 (hb:Coupled R body bd)(it:List (List Cell)):
 Coupled R (Condition.turns e body f h w it)
  (Condition.turns {e with set:=set'} bd f h w it):=by
 have hs:base≤f+loopSlots:=le_add_right_of_le hf
 induction it with
 | nil=>exact (takeItem hR hs h _).bind fun _=>tick hR
 | cons _ _ ih=>
  refine (takeItem hR hs h _).bind fun _=>hb.bind fun last=>?_
  exact (countTurn hR hf h last).bind fun b=>ite ih (tick hR)
lemma loopEnd (hco:set'.regexCode=e.set.regexCode)(f h:Nat):Coupled R (Condition.loopEnd e m f h)
  (Condition.loopEnd {e with set:=set'} m' f h):=by
 refine (fetch hR (f+1) h).bind fun turns=>(fetch hR f (h+1)).bind fun hits=>?_
 exact (fetch hR (f+2) (h+2)).bind fun q=>apply hR hco (by simp) _ h
lemma operand (hco:set'.regexCode=e.set.regexCode)(s:StringOperand)(h:Nat):
 Coupled R (s.eval e m h) (s.eval {e with set:=set'} m' h):=by
 rcases s with i|slot
 ·unfold StringOperand.eval
  exact apply hR hco (by simp) [] h
 ·exact fetch hR slot h
end
lemma evalAll {xs:List Expression}{n:Nat}
 (hxs:∀x∈xs,∀h,Coupled R (x.eval e m n h) (x.eval {e with set:=set'} m' n h))(h:Nat):
 Coupled R (Condition.evalAll e m xs n h) (Condition.evalAll {e with set:=set'} m' xs n h):=by
 induction xs generalizing h with
 | nil=>exact pure []
 | cons x _ ih=>
  refine (hxs x mem_cons_self h).bind fun c=>?_
  exact (ih (fun y hy=>hxs y (mem_cons_of_mem _ hy)) (h+1)).bind fun cs=>pure _
section
variable (hR:Coupling base R)(hco:set'.regexCode=e.set.regexCode){x y:Evaluation S Cell}
include hR hco
lemma unary (hx:Coupled R x y)(hi:∀n,i≠.pushRule n)(h:Nat):Coupled R (x >>= fun a=>Condition.apply e m i [a] h)
  (y >>= fun a=>Condition.apply {e with set:=set'} m' i [a] h):=
 hx.bind fun a=>apply hR hco (fun n hn=>absurd hn (hi n)) [a] h
lemma binary {x' y':Evaluation S Cell}(hx:Coupled R x y)(hx':Coupled R x' y')(hi:∀n,i≠.pushRule n)(h:Nat):
 Coupled R (x >>= fun a=>x' >>= fun b=>Condition.apply e m i [a,b] h)
  (y >>= fun a=>y' >>= fun b=>Condition.apply {e with set:=set'} m' i [a,b] h):=
 hx.bind fun a=>hx'.bind fun b=>apply hR hco (fun n hn=>absurd hn (hi n)) [a,b] h
lemma ternary {x' y':Evaluation S Cell}(hx:Coupled R x y)(hx':Coupled R x' y')(s:StringOperand)
 (hi:∀n,i≠.pushRule n)(h k:Nat):
 Coupled R (x >>= fun a=>x' >>= fun b=>s.eval e m k >>= fun c=>Condition.apply e m i [a,b,c] h)
  (y >>= fun a=>y' >>= fun b=>s.eval {e with set:=set'} m' k >>= fun c=>
   Condition.apply {e with set:=set'} m' i [a,b,c] h):=
 hx.bind fun a=>hx'.bind fun b=>(operand hR hco s k).bind fun c=>
  apply hR hco (fun n hn=>absurd hn (hi n)) [a,b,c] h
lemma members (hx:Coupled R x y){is:List Instruction}
 (his:∀n,.pushRule n∈is → ruleCell set' m' n=ruleCell e.set m n)(h:Nat)
 {k l:Cell→List Cell→Evaluation S Cell}(hk:∀q cs,Coupled R (k q cs) (l q cs)):
 Coupled R (x >>= fun q=>Condition.pushAll e m is h >>= k q)
  (y >>= fun q=>Condition.pushAll {e with set:=set'} m' is h >>= l q):=
 hx.bind fun q=>(pushAll hR hco his h).bind (hk q)
end
end Coupled
lemma pushRule_mem_rulePushes {rs:List Nat}{n:Nat}(h:.pushRule n∈rulePushes rs):n∈rs:=by simpa[rulePushes]using h
lemma pushRule_not_mem_stringPushes (ss:List Nat)(n:Nat):.pushRule n∉stringPushes ss:=by simp[stringPushes]
lemma Iterator.eval_coupled (hR:Coupling base R)(hco:set'.regexCode=e.set.regexCode)(items:Iterator){n:Nat}
 (hp:∀x∈items.parts,∀h,Coupled R (x.eval e m n h) (x.eval {e with set:=set'} m' n h))
 (h:Nat):
 Coupled R (items.eval e m n h) (items.eval {e with set:=set'} m' n h):=by
 have hc (n k:Nat) {it:Iteration}:
  Coupled R (apply e m (.pushInteger (ofNat n)) [] k >>= fun _=>start e h it)
   (apply {e with set:=set'} m' (.pushInteger (ofNat n)) [] k >>= fun _=>
    start {e with set:=set'} h it):=
  (Coupled.apply hR hco (by simp) [] k).bind fun _=>.start hR h it
 cases items with
 | array o | dictionary o=>exact (hp o (by simp[parts]) h).bind fun c=>.start hR h _
 | range lo hi=>
  exact (hp lo (by simp[parts]) h).bind fun a=>(hp hi (by simp[parts]) (h+1)).bind fun b=>.start hR h _
 | integers es | texts es=>exact (Coupled.evalAll hp h).bind fun cs=>hc _ _
 | strings ss=>
  exact (Coupled.pushAll hR hco
   (fun n hn=>absurd hn (pushRule_not_mem_stringPushes ss n)) h).bind fun cs=>hc _ _
lemma Expression.eval_coupled (hR:Coupling base R)(hco:set'.regexCode=e.set.regexCode)
 (x:Expression)(hr:x.Every fun y=>∀n∈y.mentions,ruleCell set' m' n=ruleCell e.set m n){n:Nat}(hn:base≤n)(h:Nat):
 Coupled R (x.eval e m n h) (x.eval {e with set:=set'} m' n h):=by
 induction x using parts_induction generalizing n h with
 | h x ih=>
 have hin (y:Expression) (hy:y∈x.parts) (k l:Nat):=
  @ih y hy (hr.part hy) (n+loopSlots+k) (le_add_right_of_le (le_add_right_of_le hn)) l
 replace ih (y:Expression) (hy:y∈x.parts) (k:Nat):=ih y hy (hr.part hy) hn k
 have hse (ss:List Nat) (n:Nat) (hn:.pushRule n∈stringPushes ss):ruleCell set' m' n=ruleCell e.set m n:=
  absurd hn (pushRule_not_mem_stringPushes ss n)
 cases x with
 | integer v=>
  refine .apply hR hco (fun n hn=>?_) [] h
  unfold constant at hn
  split at hn<;>cases hn
 | rule i=>
  refine .apply hR hco (fun n hn=>?_) [] h
  obtain rfl:i=n:=by simpa using hn
  exact hr.self i (by simp[mentions])
 | quantifier q=>cases q<;>exact .apply hR hco (by rintro _ ⟨⟩) [] h
 | float v | text v | matcher v | object v | fileSize | entryPoint=>exact .apply hR hco (by simp) [] h
 | «variable» slot=>exact .fetch hR slot h
 | member o name | value o | read kind o | negative float o | complement o | textTruth o | not o
 | defined o=>exact .unary hR hco (ih o (by simp[parts]) h) (by simp) h
 | item a b | entry a b | bits op a b | textOperation op a b | textMatches a b=>
  exact .binary hR hco (ih a (by simp[parts]) h) (ih b (by simp[parts]) (h+1)) (by simp) h
 | count s | found s=>exact .unary hR hco (.operand hR hco s h) (by simp) h
 | offset s a | length s a | foundAt s a=>
  exact .binary hR hco (ih a (by simp[parts]) h) (.operand hR hco s (h+1)) (by simp) h
 | countIn s lo hi | foundIn s lo hi=>
  exact .ternary hR hco (ih lo (by simp[parts]) h) (ih hi (by simp[parts]) (h+1)) s (by simp) h (h+2)
 | call f args=>
  simp only[eval,evalArguments_eq]
  refine (ih f (by simp[parts]) h).bind fun c=>?_
  refine (Coupled.evalAll (fun y hy=>ih y (mem_cons_of_mem _ hy)) (h+1)).bind fun cs=>?_
  exact .apply hR hco (by simp) _ h
 | arithmetic op k a b | comparison op k a b=>
  refine (ih a (by simp[parts]) h).bind fun c=>(ih b (by simp[parts]) (h+1)).bind fun d=>?_
  exact (Coupled.convert hR k c d).bind fun p=>.apply hR hco (by simp) _ h
 | and a b | or a b=>
  refine (ih a (by simp[parts]) h).bind fun c=>(Coupled.tick hR).bind fun _=>?_
  refine .ite (.pure c) ((ih b (by simp[parts]) (h+1)).bind fun d=>?_)
  exact .apply hR hco (by simp) _ h
 | someStrings q ss | percentOfStrings q ss=>
  exact .members hR hco (ih q (by simp[parts]) h) (hse ss) (h+1) fun _ _=>.applySet hR _ _ _ _ h
 | someRules q rs | percentOfRules q rs=>
  exact .members hR hco (ih q (by simp[parts]) h)
   (fun n hn=>hr.self n (pushRule_mem_rulePushes hn)) (h+1) fun _ _=>.applySet hR _ _ _ _ h
 | someStringsIn q ss lo hi=>
  exact .members hR hco (ih q (by simp[parts]) h) (hse ss) (h+1) fun _ _=>
   (ih lo (by simp[parts]) _).bind fun _=>(ih hi (by simp[parts]) _).bind fun _=>.applySet hR _ _ _ _ h
 | someStringsAt q ss a=>
  exact .members hR hco (ih q (by simp[parts]) h) (hse ss) (h+1) fun _ _=>
   (ih a (by simp[parts]) _).bind fun _=>.applySet hR _ _ _ _ h
 | loop q items body=>
  refine (ih q (by simp[parts]) h).bind fun c=>(Coupled.alter hR hn _).bind fun _=>?_
  refine (Coupled.alter hR (le_succ_of_le hn) _).bind fun _=>?_
  refine (Coupled.alter hR (le_add_right_of_le hn) _).bind fun _=>?_
  refine (items.eval_coupled hR hco (fun y hy=>hin y (by simp[parts,hy]) items.width) h).bind fun it=>?_
  have hb:=hin body (by simp[parts]) items.width (h+1)
  exact (Coupled.turns hR hn h it.width hb it.all).bind fun _=>.loopEnd hR hco n h
end
end PatternScan.Condition
