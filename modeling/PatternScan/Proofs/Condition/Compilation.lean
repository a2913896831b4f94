import PatternScan.Proofs.Condition.Execution
/-! The code of an expression leaves its value on the stack, or fails if there is none. -/
namespace PatternScan.Condition
open Cell (integer ofBool string)
open Expression (eval)
open Int64 (ofNat)
open State (pop popMembers take)
open List (mem_cons_self mem_cons_of_mem length_append append_assoc length_cons mem_cons mem_map length_nil)
open Array (size_push)
open Instruction (least)
variable {is js ks:List Instruction}{mark c:Cell}{k:IteratorKind}{ask:Nat}{xs:List Expression}{rs:List Nat}{items:Iterator}(v:Int64)(ss:List Nat)
section
variable {S α β:Type}{e:Environment S}{s:State S}{ip:Nat}{stack:Array Cell}
 {n frame:Nat}{cs:List Cell}{i:Instruction}

/-! ## Sets and iterators -/
lemma pushAll_agrees (hr:e.Regular)(s:State S)(stack:Array Cell)
 (hc:∀i∈is,i.operandCount=some 0)(hi:Segment e.set.code ip is):
 Agrees e s ip stack (pushAll e s.matched is stack.size) fun cs=>(ip+is.length,stack++cs.toArray):=by
 induction is generalizing ip stack with
 | nil=>exact .pure [] (by simp)
 | cons i _ ih=>
  have ha:=apply_agrees hr s stack [] (hc i mem_cons_self) hi.head
  refine ha.bind fun c _=>?_
  have hre:=ih (stack.push c) (fun j hj=>hc j (mem_cons_of_mem _ hj)) hi.tail
  rw[size_push]at hre
  refine hre.bind fun cs _=>.pure _ ?_
  grind
lemma popMembers_reverse (hmark:mark.isUndefined)(members acc:List Cell)
 (hmems:∀c∈members,c.isUndefined=false)(stack:Array Cell)
 (hn:members.length<n):
 popMembers (stack.push mark++members.reverse.toArray) n acc=some (members.reverse++acc,stack):=by
 induction members generalizing n acc with
 | nil=>
  obtain⟨n,rfl⟩:=Nat.exists_eq_add_one_of_ne_zero (ne_of_gt hn)
  simp[popMembers,hmark]
 | cons c members ih=>
  obtain⟨n,rfl⟩:=Nat.exists_eq_add_one_of_ne_zero (ne_of_gt (Nat.zero_lt_of_lt hn))
  have hs:stack.push mark++(c::members).reverse.toArray=(stack.push mark++members.reverse.toArray).push c:=by simp
  have hc:c.isUndefined=false:=hmems c mem_cons_self
  have hre:=ih (c::acc) (fun d hd=>hmems d (mem_cons_of_mem _ hd)) (Nat.lt_of_succ_lt_succ hn)
  rw[hs,popMembers]
  simp only[Array.back?_push,Array.pop_push,hc]
  rw[hre]
  simp
def withSet (stack:Array Cell)(q mark:Cell)(members:List Cell):Array Cell:=
 (stack.push q).push mark++members.toArray
section
variable {q:Cell}{members:List Cell}(hmark:mark.isUndefined)(hmems:∀c∈members,c.isUndefined=false)
include hmark hmems
lemma popMembers_withSet (stack:Array Cell):
 popMembers (withSet stack q mark members) (withSet stack q mark members).size []=
  some (members,stack.push q):=by
 have h:=popMembers_reverse hmark members.reverse [] (fun c hc=>hmems c (by simpa using hc))
  (stack.push q) (n:=(withSet stack q mark members).size) (by simp[withSet];omega)
 rwa[List.reverse_reverse,List.append_nil]at h
lemma popSet_place (s:State S)(ip:Nat)(f:Frame S)(k:List Cell→Cell→State S→Outcome S):
 (s.place ip (withSet stack q mark members) f).popSet k=k members q (s.place ip stack f):=by
 unfold State.popSet
 simp only[State.place_stack,popMembers_withSet hmark hmems]
 exact pop_place s ip stack q f _
lemma holdsSet_withSet:HoldsSet (withSet stack q mark members):=
 ⟨members,stack.push q,popMembers_withSet hmark hmems stack,by simp⟩
end
lemma finds_set {p:List Cell}
 (hpl:i.placeCount=some p.length)(hs:HoldsSet stack):
 i.Finds (stack++p.toArray):=by
 have he:(stack++p.toArray).extract 0 ((stack++p.toArray).size-p.length)=
  stack:=by
  simp
 have hl:∀n,i.placeCount=some n→i.least=n:=by
  intro n hn
  cases i<;>cases hn<;>rfl
 refine⟨?_,?_⟩
 ·rw[hl _ hpl]
  simp
 ·cases i<;>first | cases hpl | skip
  all_goals
   grind
lemma applySet_eq (e:Environment S)(i:Instruction)(q:Cell)(members p:List Cell)(h:Nat):
 applySet e i q members p h=tick >>= fun _=>fun f=>
  given e h ((setResult e.findings i q members p).map (·,f.world)) f:=by
 refine congrArg (tick >>= ·) (funext fun _=>funext fun f=>?_)
 cases setResult e.findings i q members p<;>rfl
lemma applySet_agrees (s:State S)(stack:Array Cell)(q:Cell)(p:List Cell){members:List Cell}
 (hpl:i.placeCount=some p.length)(hmark:mark.isUndefined)
 (hmems:∀c∈members,c.isUndefined=false)(hi:e.set.code[ip]?=some i):
 Agrees e s ip (withSet stack q mark members++p.toArray)
  (applySet e i q members p stack.size) fun c=>(ip+1,stack.push c):=by
 rw[applySet_eq]
 refine .step hi (finds_set hpl (holdsSet_withSet hmark hmems)) (fun f=>?_) fun f f' a h=>given_fuel h
 have ho:i.operandCount=none:=by cases i<;>first | rfl | cases hpl
 unfold step
 rw[State.place_ip,hi]
 simp only[ho,hpl]
 change (take (s.place (ip+1) (withSet stack q mark members++p.toArray) f) _ _).Is _
 rw[take_place,popSet_place hmark hmems s (ip+1)]
 cases setResult e.findings i q members p with
 | none=>trivial
 | some c=>exact push_place s (ip+1) stack f id c
lemma start_agrees (s:State S)(b stack:Array Cell)(it:Iteration)
 (hi:e.set.code[ip]?=some (.startIterator k))
 (hf:(Instruction.startIterator k).Finds b)
 (hst:∀f:Frame S,startIterator e (s.place (ip+1) b f) k=(s.place (ip+1) stack f).push e (.iteration it)):
 Agrees e s ip b (start e stack.size it) fun it=>(ip+1,stack.push (.iteration it)):=by
 refine .step hi hf (fun f=>?_) fun f f' a h=>by rw[←(leave_some h).2.2]
 rw[step_control hi ⟨rfl,rfl⟩]
 change (startIterator e (s.place (ip+1) b f) k).Is _
 rw[hst]
 exact push_place s (ip+1) stack f .iteration it
lemma toNat_ofNat (hn:n<2^63):(ofNat n).toInt.toNat=n:=by
 rw[Int64.toInt_ofNat_of_lt hn]
 rfl

/-! ## Loops -/
variable {f f':Frame S}{h:Nat}{it:Iteration}{matched:Array Bool}
lemma Iteration.next_width {r:Iteration}{item:List Cell}(h:it.next=some (item,r)):
 item.length=it.width∧r.width=it.width:=by
 cases it with
 | range next _=>
  simp only[Iteration.next]at h
  split at h
  ·cases h
   exact⟨rfl,rfl⟩
  ·cases h
 | items cl | entries cl=>
  cases cl with
  | nil=>cases h
  | cons c _=>
   cases h
   exact⟨rfl,rfl⟩
def Iteration.advance (it:Iteration):Iteration×Int64×List Cell:=
 match it.next with
 | some (item,rest)=>(rest,0,item)
 | none=>(it,1,List.replicate it.width .undefined)
lemma Iteration.advance_length (it:Iteration):it.advance.2.2.length=it.width:=by
 unfold advance
 split
 ·next h=>exact (next_width h).1
 ·simp
lemma nextItem_agrees (hi:e.set.code[ip]?=some .nextItem):Agrees e s ip (stack.push (.iteration it))
  (tick >>= fun _=>room e (stack.size+2+it.width))
  fun _=>(ip+1,(stack.push (.iteration it.advance.1)).push (.integer it.advance.2.1)
   ++ it.advance.2.2.toArray):=by
 refine .step hi ⟨by simp[least],by rintro _ ⟨⟩⟩ (fun f=>?_) fun f f' a h=>?_
 ·rw[step_control hi ⟨rfl,rfl⟩]
  change (nextItem e (s.place (ip+1) (stack.push (.iteration it)) f)).Is _
  unfold nextItem
  rw[pop_place]
  change (if e.capacity<stack.size+2+it.width then _ else _:Outcome S).Is _
  unfold room
  by_cases hc:e.capacity<stack.size+2+it.width
  ·rw[if_pos hc,if_pos hc]
   rintro⟨⟩
  rw[if_neg hc,if_neg hc]
  unfold Iteration.advance
  cases it.next with
  | none=>rfl
  | some p=>rfl
 ·unfold room at h
  split at h
  ·cases h
  ·cases h
   rfl

/-- Where a loop stands in the program: the instruction that asks for the next item, and the first
after the body. -/
structure LoopCode (code:Array Instruction)(frame taken:Nat)(ask body:Nat):Prop where
 next:Segment code ask (.nextItem::variablePops (frame+loopSlots) taken)
 leave:code[ask+1+taken]?=some (.popAndJumpIfTrue (body+7))
 count:Segment code (ask+2+taken+body) [.incrementSlot (frame+1),.pushSlot frame,.pushSlot (frame+2),.loopCondition,
   .addToSlot frame,.popAndJumpIfTrue (-(body+5+taken+2:Int)),.pop]
lemma takeItem_agrees (s:State S)(stack:Array Cell){b:Nat}
 (hc:LoopCode e.set.code frame it.width ask b):
 Agrees e s ask (stack.push (.iteration it)) (takeItem e frame stack.size it.advance.2.2.reverse)
  fun _=>(landing (ask+1+it.width) (it.advance.2.1==1) (b+7),stack.push (.iteration it.advance.1)):=by
 have hl:it.advance.2.2.reverse.length=it.width:=by rw[List.length_reverse,it.advance_length]
 have has:takeItem e frame stack.size it.advance.2.2.reverse=
  (tick >>= fun _=>room e (stack.size+2+it.width)) >>= fun _=>
   assign (frame+loopSlots) it.advance.2.2.reverse >>= fun _=>tick:=by
  simp only[takeItem,hl,bind_assoc]
 rw[has]
 refine (nextItem_agrees hc.next.head).bind fun _ _=>?_
 have hp:=hc.next.tail
 rw[←hl]at hp
 have ha:=assign_agrees s ((stack.push (.iteration it.advance.1)).push (.integer it.advance.2.1)) _ hp
 rw[List.reverse_reverse,hl]at ha
 refine ha.bind fun _ _=>?_
 have hj:=popAndJumpIfTrue_agrees s (stack.push (.iteration it.advance.1)) (.integer it.advance.2.1) hc.leave
 have hmark:(integer it.advance.2.1).isTrue=(it.advance.2.1==1):=by
  unfold Iteration.advance
  cases it.next<;>rfl
 rwa[hmark]at hj
lemma loopCondition_agrees (s:State S)(stack:Array Cell)(q hits l:Cell)
 (hi:e.set.code[ip]?=some .loopCondition):
 Agrees e s ip (((stack.push l).push hits).push q)
  (do tick;leave e stack.size ();leave e (stack.size+1) ())
  fun _=>(ip+1,(stack.push (.ofBool (goesOn q hits l))).push l):=by
 refine .step hi ⟨by simp[least],by rintro _ ⟨⟩⟩ (fun f=>?_) fun f f' a h=>?_
 ·rw[step_control hi ⟨rfl,rfl⟩]
  simp only[stepControl]
  change (pop (s.place (ip+1) (((stack.push l).push hits).push q) f) _).Is _
  rw[pop_place,pop_place,pop_place]
  change Outcome.Is _ (((leave e stack.size () f).bind fun p=>leave e (stack.size+1) () p.2).map _)
  by_cases hc:stack.size<e.capacity
  ·have hp:(s.place (ip+1) stack f).push e (.ofBool (goesOn q hits l))=
    .running (s.place (ip+1) (stack.push (.ofBool (goesOn q hits l))) f):=if_pos hc
   have hl:leave e stack.size () f=some ((),f):=congrFun (if_pos hc) f
   have h:=push_place (e:=e) s (ip+1) (stack.push (.ofBool (goesOn q hits l))) f (fun _=>l) ()
   grind
  ·have hp:(s.place (ip+1) stack f).push e (.ofBool (goesOn q hits l))=
    .failed .execStackOverflow (s.place (ip+1) stack f):=if_neg hc
   have hl:leave e stack.size () f=none:=congrFun (if_neg hc) f
   rw[hp,hl]
   rintro⟨⟩
 ·obtain⟨_,g,h1,h2⟩:=bind_some h
  rw[←(leave_some h2).2.2,←(leave_some h1).2.2]
lemma countTurn_agrees {t bd:Nat}(last:Cell)(hcd:LoopCode e.set.code frame t ask bd):
 Agrees e s (ask+2+t+bd) ((stack.push (.iteration it)).push last) (countTurn e frame stack.size last)
  fun b=>(if b then ask else ask+2+t+bd+6,stack.push (.iteration it)):=by
 have ha:countTurn e frame stack.size last=(alter (frame+1) fun c=>.integer (c.word+1)) >>= fun _=>
   fetch e frame (stack.size+2) >>= fun hits=>
    fetch e (frame+2) (stack.size+3) >>= fun q=>
     (do tick;leave e (stack.size+1) ();leave e (stack.size+2) ()) >>= fun _=>
      (alter frame fun c=>
       if last.isUndefined then c else .integer (c.word+last.word)) >>= fun _=>
       tick >>= fun _=>Pure.pure (goesOn q hits last):=by
  simp only[countTurn,bind_assoc]
 have hc:=hcd.count
 rw[ha]
 refine (incrementSlot_agrees hc.head).bind fun _ _=>?_
 have hh:=fetch_agrees s ((stack.push (.iteration it)).push last) hc.tail.head
 rw[size_push,size_push]at hh
 refine hh.bind fun hits _=>?_
 have hq:=fetch_agrees s (((stack.push (.iteration it)).push last).push hits) hc.tail.tail.head
 rw[size_push,size_push,size_push]at hq
 refine hq.bind fun q _=>?_
 have hco:=loopCondition_agrees s (stack.push (.iteration it)) q hits last hc.tail.tail.tail.head
 rw[size_push]at hco
 refine hco.bind fun _ _=>?_
 refine (addToSlot_agrees last hc.tail.tail.tail.tail.head).bind fun _ _=>?_
 refine (popAndJumpIfTrue_agrees s _ (.ofBool (goesOn q hits last))
  hc.tail.tail.tail.tail.tail.head).bind fun _ _=>.pure _ ?_
 have hb:(ofBool (goesOn q hits last)).isTrue=goesOn q hits last:=by cases goesOn q hits last<;>rfl
 rw[hb]
 unfold landing
 grind
lemma turns_agrees (stack:Array Cell)(bd:Evaluation S Cell){frame ask len:Nat}{it:Iteration}
 (hc:LoopCode e.set.code frame it.width ask len)
 (hb:∀it':Iteration,Agrees e s (ask+2+it.width) (stack.push (.iteration it')) bd
  fun c=>(ask+2+it.width+len,(stack.push (.iteration it')).push c)):
 Agrees e s ask (stack.push (.iteration it)) (turns e bd frame stack.size it.width it.all)
  fun _=>(ask+2+it.width+len+7,stack):=by
 have hp:e.set.code[ask+2+it.width+len+6]?=some .pop:=
  hc.count.tail.tail.tail.tail.tail.tail.head
 have ht:=takeItem_agrees s stack hc
 cases hn:it.next with
 | none=>
  have ha:it.advance=(it,1,List.replicate it.width .undefined):=by
   unfold Iteration.advance
   rw[hn]
  rw[ha,List.reverse_replicate]at ht
  rw[Iteration.all_none hn]
  refine ht.bind fun _ _=>?_
  have hl:landing (ask+1+it.width) true (len+7)=ask+2+it.width+len+6:=by
   unfold landing
   simp only[if_true]
   omega
  have hl':landing (ask+1+it.width) ((1:Int64)==1) (len+7)=ask+2+it.width+len+6:=hl
  simp only[hl']
  exact pop_agrees _ hp
 | some p=>
  obtain⟨item,r⟩:=p
  have ha:it.advance=(r,0,item):=by
   unfold Iteration.advance
   rw[hn]
  have hw:=(Iteration.next_width hn).2
  rw[ha]at ht
  rw[Iteration.all_some hn]
  refine ht.bind fun _ _=>?_
  have hl:landing (ask+1+it.width) ((0:Int64)==1) (len+7)=ask+2+it.width:=by
   change ask+1+it.width+1=_
   omega
  simp only[hl]
  refine (hb r).bind fun last _=>(countTurn_agrees last hc).bind fun b _=>?_
  cases b with
  | true=>
   have ih:Agrees e s ask (stack.push (.iteration r)) (turns e bd frame stack.size r.width r.all)
    fun _=>(ask+2+r.width+len+7,stack):=
    turns_agrees stack bd (by rw[hw];exact hc) (by rw[hw];exact hb)
   rw[hw]at ih
   exact ih
  | false=>exact pop_agrees _ hp
termination_by it.bound
decreasing_by exact Iteration.bound_next hn
lemma loopEnd_agrees (hr:e.Regular)(hi:Segment e.set.code ip
  [.pushSlot (frame+1),.pushSlot frame,.pushSlot (frame+2),.loopResult]):
 Agrees e s ip stack (loopEnd e s.matched frame stack.size) fun c=>(ip+4,stack.push c):=by
 refine (fetch_agrees s stack hi.head).bind fun turns _=>?_
 have hh:=fetch_agrees s (stack.push turns) hi.tail.head
 rw[size_push]at hh
 refine hh.bind fun hits _=>?_
 have hq:=fetch_agrees s ((stack.push turns).push hits) hi.tail.tail.head
 rw[size_push,size_push]at hq
 refine hq.bind fun q _=>?_
 have ha:=apply_agrees hr s stack [turns,hits,q] rfl hi.tail.tail.tail.head
 rwa[append_triple]at ha

/-! ## Expressions -/
def Compiles (e:Environment S)(s:State S)(x:Nat→Evaluation S Cell)(is:List Instruction):Prop:=
 ∀(ip:Nat)(stack:Array Cell),Segment e.set.code ip is→
  Agrees e s ip stack (x stack.size) fun c=>(ip+is.length,stack.push c)
namespace Compiles
variable {x y z:Nat→Evaluation S Cell}
lemma atom (hr:e.Regular)(hc:i.operandCount=some 0):Compiles e s (fun h=>apply e s.matched i [] h) [i]:=by
 intro ip stack hi
 have h:=apply_agrees hr s stack [] hc hi.head
 rwa[Array.append_empty]at h
lemma bind {f:Cell→Evaluation S α}{goal:α→Nat×Array Cell}{n:Nat}
 (hx:Compiles e s x is)(hn:stack.size=n)(hi:Segment e.set.code ip (is++js))
 (hf:∀a,Segment e.set.code (ip+is.length) js→Agrees e s (ip+is.length) (stack.push a) (f a) goal):
 Agrees e s ip stack (x n >>= f) goal:=by
 subst hn
 exact (hx ip stack hi.append.1).bind fun a _=>hf a hi.append.2
section
variable (hr:e.Regular)(hx:Compiles e s x is)
include hr hx
lemma unary (hc:i.operandCount=some 1):Compiles e s (fun h=>do apply e s.matched i [←x h] h) (is++[i]):=by
 intro ip stack hi
 refine hx.bind rfl hi fun a hi=>?_
 have h:=apply_agrees hr s stack [a] hc hi.head
 rw[length_append]
 rwa[Array.append_singleton]at h
lemma binary (hy:Compiles e s y js)(hc:i.operandCount=some 2):
 Compiles e s (fun h=>do apply e s.matched i [←x h,←y (h+1)] h) (is++js++[i]):=by
 intro ip stack hi
 rw[append_assoc]at hi
 refine hx.bind rfl hi fun a hi=>hy.bind (size_push a) hi fun b hi=>?_
 have h:=apply_agrees hr s stack [a,b] hc hi.head
 simp only[length_append,←add_assoc]at h⊢
 rwa[append_pair]at h
lemma ternary (hy:Compiles e s y js)(hz:Compiles e s z ks)(hc:i.operandCount=some 3):
 Compiles e s (fun h=>do apply e s.matched i [←x h,←y (h+1),←z (h+2)] h) (is++js++ks++[i]):=by
 intro ip stack hi
 rw[append_assoc,append_assoc]at hi
 refine hx.bind rfl hi fun a hi=>hy.bind (size_push a) hi fun b hi=>hz.bind (by simp) hi fun c hi=>?_
 have h:=apply_agrees hr s stack [a,b,c] hc hi.head
 simp only[length_append,←add_assoc]at h⊢
 rwa[append_triple]at h
end
end Compiles
lemma evalArguments_eq (ar:List (Char×Expression))(frame h:Nat):
 evalArguments e matched ar frame h=evalAll e matched (ar.map (·.2)) frame h:=by
 induction ar generalizing h with
 | nil=>rfl
 | cons x _ ih=>simp only[evalArguments,evalAll,List.map_cons,ih]
lemma codeOfArguments_eq (ar:List (Char×Expression))(frame:Nat):
 codeOfArguments ar frame=codeOfAll (ar.map (·.2)) frame:=by
 induction ar with
 | nil=>rfl
 | cons x _ ih=>simp only[codeOfArguments,codeOfAll,List.map_cons,ih]
lemma length_lettersOf (ar:List (Char×Expression)):(lettersOf ar).length=ar.length:=by
 rw[lettersOf,String.length_ofList,List.length_map]
lemma StringOperand.compiles (hr:e.Regular)(o:StringOperand):Compiles e s (o.eval e s.matched) o.code:=by
 match o with
 | .string i=>exact .atom hr rfl
 | .variable _=>exact fun ip stack hi=>fetch_agrees s stack hi.head
lemma evalAll_agrees (stack:Array Cell)(hxs:∀x∈xs,Compiles e s (x.eval e s.matched frame) (x.code frame))
 (hi:Segment e.set.code ip (codeOfAll xs frame)):
 Agrees e s ip stack (evalAll e s.matched xs frame stack.size)
  fun cs=>(ip+(codeOfAll xs frame).length,stack++cs.toArray):=by
 induction xs generalizing ip stack with
 | nil=>exact .pure [] (by simp[codeOfAll])
 | cons x _ ih=>
  refine (hxs x mem_cons_self ip stack hi.append.1).bind fun c _=>?_
  have hre:=ih (stack.push c) (fun y hy=>hxs y (mem_cons_of_mem _ hy)) hi.append.2
  rw[size_push]at hre
  refine hre.bind fun cs _=>.pure _ ?_
  simp only[codeOfAll,add_assoc]
  simp
lemma evalAll_length (hp:evalAll e matched xs frame h f=some (cs,f')):cs.length=xs.length:=by
 induction xs generalizing h f f' cs with
 | nil=>
  rw[←(pure_some hp).1]
  rfl
 | cons x _ ih=>
  obtain⟨c,g,-,hp⟩:=bind_some hp
  obtain⟨cs',g',hre,hp⟩:=bind_some hp
  rw[←(pure_some hp).1,length_cons,length_cons,ih hre]
lemma apply_value {o:List Cell}(hp:apply e matched i o h f=some (c,f')):
 ∃w,result e matched i o f.world=some (c,w) ∧ h<e.capacity:=by
 rw[apply_eq]at hp
 obtain⟨_,g,ht,hp⟩:=bind_some hp
 have hw:g.world=f.world:=by
  unfold tick at ht
  grind
 unfold given at hp
 rw[hw]at hp
 split at hp
 ·cases hp
 ·next hre=>
  obtain⟨hc,rfl,-⟩:=leave_some hp
  exact⟨_,hre,hc⟩
lemma pushAll_values {v:Instruction→Cell}
 (hv:∀i∈is,∀w,result e matched i [] w=some (v i,w))
 (hp:pushAll e matched is h f=some (cs,f')):cs=is.map v:=by
 induction is generalizing h f f' cs with
 | nil=>exact (pure_some hp).1.symm
 | cons i _ ih=>
  obtain⟨c,g,hc,hp⟩:=bind_some hp
  obtain⟨cs',g',hre,hp⟩:=bind_some hp
  obtain⟨w,hrs,-⟩:=apply_value hc
  rw[hv i mem_cons_self]at hrs
  cases hrs
  rw[←(pure_some hp).1,ih (fun j hj=>hv j (mem_cons_of_mem _ hj)) hre]
  rfl
def memberCell (matched:Array Bool):Instruction→Cell
 | .pushString n=>.string n
 | .pushRule n=>.ofBool (matched.getD n false)
 | _=>.undefined
lemma result_stringPushes {ss:List Nat}:
 ∀i∈stringPushes ss,∀w,result e matched i [] w=some (memberCell matched i,w):=by
 intro i hi w
 simp only[stringPushes,mem_cons,mem_map]at hi
 rcases hi with rfl|⟨n,-,rfl⟩<;>rfl
lemma result_rulePushes (hrs:∀r∈rs,(e.set.rule r).disabled=false):
 ∀i∈rulePushes rs,∀w,result e matched i [] w=some (memberCell matched i,w):=by
 intro i hi w
 simp only[rulePushes,mem_cons,mem_map]at hi
 rcases hi with rfl|⟨n,hn,rfl⟩
 ·rfl
 ·simp only[result,atomResult,hrs n hn]
  rfl
lemma memberCell_stringPushes (matched:Array Bool)(ss:List Nat):
 (stringPushes ss).map (memberCell matched)=.undefined::ss.map .string:=by
 simp[stringPushes,memberCell]
lemma memberCell_rulePushes (matched:Array Bool)(rs:List Nat):(rulePushes rs).map (memberCell matched)=
  .undefined::rs.map fun r=>.ofBool (matched.getD r false):=by
 simp[rulePushes,memberCell]
lemma pushAll_strings {ss:List Nat}(hp:pushAll e matched (stringPushes ss) h f=some (cs,f')):
 cs=.undefined::ss.map .string:=
 (pushAll_values result_stringPushes hp).trans (memberCell_stringPushes matched ss)
lemma pushAll_rules (hrs:∀r∈rs,(e.set.rule r).disabled=false)
 (hp:pushAll e matched (rulePushes rs) h f=some (cs,f')):
 cs=.undefined::rs.map fun r=>.ofBool (matched.getD r false):=
 (pushAll_values (result_rulePushes hrs) hp).trans (memberCell_rulePushes matched rs)
lemma ofBool_isUndefined (b:Bool):(ofBool b).isUndefined=false:=by cases b<;>rfl
lemma undefined_isUndefined:Cell.undefined.isUndefined:=rfl
lemma stringPushes_count:∀i∈stringPushes ss,i.operandCount=some 0:=by
 simp only[stringPushes,mem_cons,mem_map]
 rintro i (rfl|⟨n,-,rfl⟩)<;>rfl
lemma rulePushes_count (rs:List Nat):∀i∈rulePushes rs,i.operandCount=some 0:=by
 simp only[rulePushes,mem_cons,mem_map]
 rintro i (rfl|⟨n,-,rfl⟩)<;>rfl
lemma withSet_eq (stack:Array Cell)(q mark:Cell)(members:List Cell):
 stack.push q++(mark::members).toArray=withSet stack q mark members:=by
 simp[withSet]
lemma size_withSet (stack:Array Cell)(q mark:Cell)(members:List Cell):
 (withSet stack q mark members).size=stack.size+1+(mark::members).length:=by
 simp only[withSet,Array.size_append,size_push,List.size_toArray,length_cons]
 omega
lemma strings_defined:∀c∈ss.map string,c.isUndefined=false:=by
 rintro c hc
 obtain⟨n,-,rfl⟩:=mem_map.1 hc
 rfl
lemma rules_defined (matched:Array Bool)(rs:List Nat):
 ∀c∈rs.map (fun r=>ofBool (matched.getD r false)),c.isUndefined=false:=by
 rintro c hc
 obtain⟨n,-,rfl⟩:=mem_map.1 hc
 exact ofBool_isUndefined _

/-- The code of an expression leaves exactly one value where the rules of a set are not disabled. -/
def Expression.Fits (set:RuleSet):Expression→Prop
 | .someRules _ rs=>∀r∈rs,(set.rule r).disabled=false
 | .percentOfRules _ rs=>∀r∈rs,(set.rule r).disabled=false
 | _=>True
lemma toFloat_step {d:Nat}(hd:d ≤ stack.size)(hi:e.set.code[ip]?=some (.toFloat d))(f:Frame S):
 step e (s.place ip stack f)=.running (s.place (ip+1) (stack.modify (stack.size-d) floatOf) f):=by
 rw[step_control hi ⟨rfl,rfl⟩]
 exact if_pos hd
lemma modify_top (stack:Array Cell)(a:Cell)(g:Cell→Cell):
 (stack.push a).modify stack.size g=stack.push (g a):=by
 grind
lemma modify_second (stack:Array Cell)(a b:Cell)(g:Cell→Cell):
 ((stack.push a).push b).modify stack.size g=(stack.push (g a)).push b:=by
 rw[←modify_top]
 grind
lemma convert_agrees {k:Operands}{a b:Cell}(hi:Segment e.set.code ip k.conversion):
 Agrees e s ip ((stack.push a).push b) (convert k a b) fun p=>(ip+k.conversion.length,(stack.push p.1).push p.2):=by
 cases k with
 | integers | floats | texts=>exact .pure _ rfl
 | integerAndFloat=>
  refine .step hi.head ⟨by simp[least],by rintro _ ⟨⟩⟩ (fun f=>?_) fun f f' c h=>by cases h;rfl
  have hs:((stack.push a).push b).size-2=stack.size:=by simp
  rw[toFloat_step (by simp) hi.head,hs,modify_second]
  rfl
 | floatAndInteger=>
  refine .step hi.head ⟨by simp[least],by rintro _ ⟨⟩⟩ (fun f=>?_) fun f f' c h=>by cases h;rfl
  have hs:((stack.push a).push b).size-1=(stack.push a).size:=by simp
  rw[toFloat_step (by simp) hi.head,hs,modify_top]
  rfl
namespace Compiles
variable {x y z:Nat→Evaluation S Cell}
lemma converted (hr:e.Regular){k:Operands}(hx:Compiles e s x is)(hy:Compiles e s y js)
 (hc:i.operandCount=some 2):
 Compiles e s (fun h=>do
  let (a,b) ← convert k (← x h) (← y (h+1))
  apply e s.matched i [a,b] h) (is++js++k.conversion++[i]):=by
 intro ip stack hi
 rw[append_assoc,append_assoc]at hi
 refine hx.bind rfl hi fun a hi=>hy.bind (size_push a) hi fun b hi=>?_
 refine (convert_agrees hi.append.1).bind fun p _=>?_
 have h:=apply_agrees hr s stack [p.1,p.2] hc hi.append.2.head
 simp only[length_append,←add_assoc]at h⊢
 rwa[append_pair]at h
def Marked (e:Environment S)(s:State S)(pushes:List Instruction):Prop:=
 (∀i∈pushes,i.operandCount=some 0)∧∀h f cs f',pushAll e s.matched pushes h f=some (cs,f')→
   ∃members,cs=.undefined::members∧∀c∈members,c.isUndefined=false
lemma marked_strings:Marked e s (stringPushes ss):=
 ⟨stringPushes_count ss,fun _ _ _ _ hp=>⟨_,pushAll_strings hp,strings_defined ss⟩⟩
lemma marked_rules (hrs:∀r∈rs,(e.set.rule r).disabled=false):Marked e s (rulePushes rs):=
 ⟨rulePushes_count rs,fun _ _ _ _ hp=>⟨_,pushAll_rules hrs hp,rules_defined _ rs⟩⟩
lemma members (hr:e.Regular){pushes:List Instruction}{goal:α→Nat×Array Cell}
 {f:Cell→List Cell→Evaluation S α}(hx:Compiles e s x is)(hmarked:Marked e s pushes)
 (hi:Segment e.set.code ip (is++(pushes++js)))
 (hf:∀q members,(∀c∈members,c.isUndefined=false)→Segment e.set.code (ip+is.length+pushes.length) js→
  Agrees e s (ip+is.length+pushes.length) (withSet stack q .undefined members) (f q (.undefined::members)) goal):
 Agrees e s ip stack (x stack.size >>= fun q=>
  pushAll e s.matched pushes (stack.size+1) >>= fun members=>f q members) goal:=by
 refine hx.bind rfl hi fun q hi=>?_
 have hp:=pushAll_agrees hr s (stack.push q) hmarked.1 hi.append.1
 rw[size_push]at hp
 refine hp.bind fun cs ⟨f,f',hpu⟩=>?_
 obtain⟨members,rfl,hmems⟩:=hmarked.2 _ _ _ _ hpu
 rw[withSet_eq]
 exact hf q members hmems hi.append.2
section
variable (hr:e.Regular){pushes:List Instruction}(hx:Compiles e s x is)(hmarked:Marked e s pushes)
include hr hx hmarked
lemma set (hpl:i.placeCount=some 0):Compiles e s (fun h=>do
  let q ← x h
  let members ← pushAll e s.matched pushes (h+1)
  applySet e i q members.tail [] h) (is++pushes++[i]):=by
 intro ip stack hi
 rw[append_assoc]at hi
 refine hx.members hr hmarked hi fun q members hmems hi=>?_
 have h:=applySet_agrees s stack q [] hpl undefined_isUndefined hmems hi.head
 grind
lemma setAt (hy:Compiles e s y js)(hpl:i.placeCount=some 1):Compiles e s (fun h=>do
  let q ← x h
  let members ← pushAll e s.matched pushes (h+1)
  let p ← y (h+1+members.length)
  applySet e i q members.tail [p] h) (is++pushes++js++[i]):=by
 intro ip stack hi
 rw[append_assoc,append_assoc]at hi
 refine hx.members hr hmarked hi fun q members hmems hi=>?_
 refine hy.bind (size_withSet ..) hi fun p hi=>?_
 have h:=applySet_agrees s stack q [p] hpl undefined_isUndefined hmems hi.head
 simp only[length_append,←add_assoc]at h⊢
 rwa[Array.append_singleton]at h
lemma setIn (hy:Compiles e s y js)(hz:Compiles e s z ks)(hpl:i.placeCount=some 2):Compiles e s (fun h=>do
  let q ← x h
  let members ← pushAll e s.matched pushes (h+1)
  let lo ← y (h+1+members.length)
  let hi ← z (h+1+members.length+1)
  applySet e i q members.tail [lo,hi] h) (is++pushes++js++ks++[i]):=by
 intro ip stack hi
 rw[append_assoc,append_assoc,append_assoc]at hi
 refine hx.members hr hmarked hi fun q members hmems hi=>?_
 refine hy.bind (size_withSet ..) hi fun lo hi=>?_
 refine hz.bind (by rw[size_push,size_withSet]) hi fun up hi=>?_
 have h:=applySet_agrees s stack q [lo,up] hpl undefined_isUndefined hmems hi.head
 simp only[length_append,←add_assoc]at h⊢
 rwa[append_pair]at h
end
end Compiles
lemma start_value {it':Iteration}(hs:start e h it f=some (it',f')):it'=it:=by
 obtain⟨_,g,-,hs⟩:=bind_some hs
 exact (leave_some hs).2.1.symm
lemma Iterator.eval_width (hs:items.eval e matched frame h f=some (it,f')):it.width=items.width:=by
 cases items with
 | array | dictionary=>
  obtain⟨c,g,-,hs⟩:=bind_some hs
  rw[start_value hs]
  first | unfold Iteration.ofArray | unfold Iteration.ofDictionary
  split<;>rfl
 | range | integers | texts | strings=>
  obtain⟨b,g,-,hs⟩:=bind_some hs
  obtain⟨c,g',-,hs⟩:=bind_some hs
  rw[start_value hs]
  rfl
lemma integer_word:(integer v).word=v:=rfl
lemma counted_word (stack:Array Cell)(h:n<2^63)
 (hc:(stack.push (.integer (ofNat n))).back?=some c):c.word.toInt.toNat=n:=by
 rw[Array.back?_push]at hc
 cases hc
 rw[integer_word,toNat_ofNat h]
lemma counted_agrees (hr:e.Regular)(s:State S)(stack:Array Cell)(cs:List Cell)(it:Iteration)
 (hi:Segment e.set.code ip [.pushInteger (ofNat n),.startIterator k])
 (hst:n<2^63→∀f:Frame S,startIterator e (s.place (ip+2)
   ((stack++cs.toArray).push (.integer (ofNat n))) f) k=
   (s.place (ip+2) stack f).push e (.iteration it))(hn:n≤cs.length)
 (hf:n<2^63→(Instruction.startIterator k).Finds ((stack++cs.toArray).push (.integer (ofNat n)))):
 Agrees e s ip (stack++cs.toArray) (do
   let _ ← apply e s.matched (.pushInteger (ofNat n)) [] (stack.size+cs.length)
   start e stack.size it) fun it=>(ip+2,stack.push (.iteration it)):=by
 have ha:=apply_agrees hr s (stack++cs.toArray) [] rfl hi.head
 rw[Array.append_empty,Array.size_append]at ha
 refine ha.bind fun c hc=>?_
 obtain⟨f,f',hc⟩:=hc
 obtain⟨w,hre,hca⟩:=apply_value hc
 cases hre
 have hm:=hr.capacity
 simp only[List.size_toArray]at hca
 exact start_agrees s _ stack it hi.tail.head (hf (by omega)) (hst (by omega))
lemma Iterator.agrees (hr:e.Regular)(hp:∀x∈items.parts,Compiles e s (x.eval e s.matched frame) (x.code frame))
 (hi:Segment e.set.code ip (items.code frame)):
 Agrees e s ip stack (items.eval e s.matched frame stack.size)
  fun it=>(ip+(items.code frame).length,stack.push (.iteration it)):=by
 cases items with
 | array o | dictionary o=>
  simp only[Iterator.code]at hi⊢
  refine (hp o mem_cons_self ip stack hi.append.1).bind fun c _=>?_
  have h:=start_agrees s (stack.push c) stack _
   hi.append.2.head ⟨by simp[least],by rintro _ ⟨⟩⟩ fun f=>pop_place s _ stack c f _
  rwa[length_append]
 | range lo hi'=>
  simp only[Iterator.code]at hi⊢
  rw[append_assoc]at hi
  refine (hp lo (by simp[parts])).bind rfl hi fun a hi=>
   (hp hi' (by simp[parts])).bind (size_push a) hi fun b hi=>?_
  have h:=start_agrees s ((stack.push a).push b) stack (.range a.word b.word) hi.head
   ⟨by simp[least],by rintro _ ⟨⟩⟩ fun f=>by
    simp only[startIterator]
    rw[pop_place,pop_place]
  grind
 | integers es | texts es=>
  simp only[Iterator.code]at hi⊢
  refine (evalAll_agrees stack hp hi.append.1).bind fun cs hcs=>?_
  obtain⟨f,f',hcs⟩:=hcs
  have hl:cs.length=es.length:=evalAll_length hcs
  have h:=counted_agrees hr s stack cs _ hi.append.2 (fun hn f=>by
   simp only[startIterator]
   rw[pop_place,integer_word,toNat_ofNat hn,←hl,take_place]) (by omega) fun hn=>
    ⟨by simp[least];omega,fun c hc=>by rw[counted_word _ hn hc];simp;omega⟩
  rwa[length_append]
 | strings ss=>
  simp only[Iterator.code]at hi⊢
  refine (pushAll_agrees hr s stack (stringPushes_count ss) hi.append.1).bind fun cs hcs=>?_
  obtain⟨f,f',hcs⟩:=hcs
  have hce:=pushAll_strings hcs
  have hl:(ss.map string).length=ss.length:=List.length_map _
  have hs:stack++cs.toArray=stack.push .undefined++(ss.map string).toArray:=by
   rw[hce]
   simp
  have h:=counted_agrees hr s stack cs (.items cs.tail) hi.append.2 (fun hn f=>by
    simp only[startIterator]
    rw[pop_place,integer_word,toNat_ofNat hn,hs,←hl,take_place,hce]
    exact pop_place s _ stack .undefined f _) (by rw[hce];simp) fun hn=>
     ⟨by simp[least];omega,fun c hc=>by rw[counted_word _ hn hc,hce];simp;omega⟩
  rwa[length_append]
lemma constant_count:(constant v).operandCount=some 0:=by
 unfold constant
 split<;>rfl
lemma quantifierCode_count (q:Rule.Quantifier):(quantifierCode q).operandCount=some 0:=by cases q<;>rfl
lemma Agrees.congr {x:Evaluation S α}{goal goal':α→Nat×Array Cell}
 (hx:Agrees e s ip stack x goal)(h:∀a,goal a=goal' a):Agrees e s ip stack x goal':=by
 obtain rfl:goal=goal':=funext h
 exact hx
lemma loopCode_eq (frame taken:Nat)(qn items b:List Instruction):
 loopCode frame taken qn items b=
  qn++(([.clearSlot frame,.clearSlot (frame+1),.popSlot (frame+2)]:List Instruction) ++
   (items++((Instruction.nextItem::variablePops (frame+loopSlots) taken) ++
    (Instruction.popAndJumpIfTrue (b.length+7)::(b ++
     (([.incrementSlot (frame+1),.pushSlot frame,.pushSlot (frame+2),.loopCondition,
      .addToSlot frame,.popAndJumpIfTrue (-(b.length+5+taken+2:Int)),.pop]:List Instruction) ++
      ([.pushSlot (frame+1),.pushSlot frame,.pushSlot (frame+2),.loopResult]:List Instruction))))))):=by
 have hp:(variablePops (frame+loopSlots) taken).length=taken:=by simp[variablePops]
 have hl:((b.length+(0+1+1+1+1+1):Nat):Int)+2=b.length+7:=by omega
 have hb:((b.length+(0+1+1+1+1+1):Nat):Int)+taken+2=b.length+5+taken+2:=by omega
 simp only[loopCode,append_assoc,List.cons_append,List.nil_append,length_append,length_cons,length_nil,hp,hl,hb]
namespace Compiles
variable {x y:Nat→Evaluation S Cell}
lemma shortCut (hr:e.Regular){dc:Cell→Bool}{j:Int→Instruction}
 (hj:∀{d:Int}{ip:Nat}{stack:Array Cell}(a:Cell),e.set.code[ip]?=some (j d)→Agrees e s ip (stack.push a) tick
   fun _=>(landing ip (dc a) d,stack.push a))
 (hcn:i.operandCount=some 2)(hx:Compiles e s x is)(hy:Compiles e s y js):
 Compiles e s (fun h=>do
  let a ← x h
  tick
  if dc a then Pure.pure a else apply e s.matched i [a,←y (h+1)] h)
  (is++[j ((js++[i]).length+1)]++(js++[i])):=by
 intro ip stack hi
 rw[append_assoc]at hi
 refine hx.bind rfl hi fun a hi=>(hj a hi.head).bind fun _ _=>?_
 by_cases hc:dc a
 ·rw[if_pos hc]
  refine .pure a ?_
  simp only[hc,landing,if_true,length_append,length_cons,length_nil,Prod.mk.injEq,and_true]
  omega
 ·simp only[landing,if_neg hc]
  refine hy.bind (size_push a) hi.tail fun b hi=>?_
  have h:=apply_agrees hr s stack [a,b] hcn hi.head
  simp only[length_append,←add_assoc]at h⊢
  rwa[append_pair]at h
lemma call (hr:e.Regular){ar:List (Char×Expression)}(hx:Compiles e s x is)
 (ha:∀a∈ar.map (·.2),Compiles e s (a.eval e s.matched frame) (a.code frame)):
 Compiles e s (fun h=>do
  apply e s.matched (.call (lettersOf ar)) ((← x h)::(← evalArguments e s.matched ar frame (h+1))) h)
  (is++codeOfArguments ar frame++[Instruction.call (lettersOf ar)]):=by
 intro ip stack hi
 simp only[evalArguments_eq,codeOfArguments_eq]at hi⊢
 rw[append_assoc]at hi
 refine hx.bind rfl hi fun c hi=>?_
 have hal:=evalAll_agrees (stack.push c) ha hi.append.1
 rw[size_push]at hal
 refine hal.bind fun cs ⟨f,f',hcs⟩=>?_
 have hc:(Instruction.call (lettersOf ar)).operandCount=some (c::cs).length:=by
  rw[length_cons,evalAll_length hcs,List.length_map,←length_lettersOf]
  rfl
 have hs:stack.push c++cs.toArray=stack++(c::cs).toArray:=by simp
 have h:=apply_agrees hr s stack _ hc hi.append.2.head
 grind
lemma loop {inner:Nat}(hr:e.Regular)(hx:Compiles e s x is)
 (hte:∀x∈items.parts,Compiles e s (x.eval e s.matched inner) (x.code inner))
 (hb:Compiles e s y js):
 Compiles e s (fun h=>do
  let q ← x h
  alter frame fun _=>.integer 0
  alter (frame+1) fun _=>.integer 0
  alter (frame+2) fun _=>q
  let it ← items.eval e s.matched inner h
  turns e (y (h+1)) frame h it.width it.all
  loopEnd e s.matched frame h) (loopCode frame items.width is (items.code inner) js):=by
 intro ip stack hi
 have hp:(variablePops (frame+loopSlots) items.width).length=items.width:=by simp[variablePops]
 rw[loopCode_eq]at hi⊢
 have hc:=hi.append.2.append.1
 have hite:=hi.append.2.append.2.append.1
 have hlo:=hi.append.2.append.2.append.2
 have hl:=hlo.append.2
 have ht:=hl.tail.append.1
 have hcn:=hl.tail.append.2.append
 refine (hx ip stack hi.append.1).bind fun q _=>?_
 refine (clearSlot_agrees hc.head).bind fun _ _=>?_
 refine (clearSlot_agrees hc.tail.head).bind fun _ _=>?_
 refine (popSlot_agrees q hc.tail.tail.head).bind fun _ _=>?_
 refine (Iterator.agrees hr hte hite).bind fun it hit=>?_
 obtain⟨f,f',hit⟩:=hit
 have hw:=Iterator.eval_width hit
 simp only[length_cons,length_nil,hp]at hlo hl ht hcn
 generalize ha:ip+is.length+(0+1+1+1)+(items.code inner).length=ask at *
 have hco:LoopCode e.set.code frame it.width ask js.length:=by
  rw[hw]
  refine⟨hlo.append.1,?_,?_⟩
  ·have h:=hl.head
   rwa[show ask+(items.width+1)=ask+1+items.width by omega]at h
  grind
 have htu:=turns_agrees stack (y (stack.size+1)) hco fun it'=>by
  have h:=hb _ (stack.push (.iteration it')) ht
  rw[size_push]at h
  rwa[hw,show ask+2+items.width=ask+(items.width+1)+1 by omega]
 refine htu.bind fun _ _=>?_
 have he:=hcn.2
 rw[show ask+(items.width+1)+1+js.length+(0+1+1+1+1+1+1+1)=ask+2+it.width+js.length+7 by omega]at he
 refine (loopEnd_agrees hr he).congr fun c=>?_
 simp only[length_append,length_cons,length_nil,Prod.mk.injEq,and_true]
 omega
end Compiles
lemma Expression.compiles (hr:e.Regular)(x:Expression)(hx:x.Every (Fits e.set))(frame:Nat):
 Compiles e s (x.eval e s.matched frame) (x.code frame):=by
 induction x using parts_induction generalizing frame with
 | h x ih=>
  have hin:∀y∈x.parts,∀inner,Compiles e s (y.eval e s.matched inner) (y.code inner):=
   fun y hy=>ih y hy (hx.part hy)
  have ih:=fun y hy=>hin y hy frame
  match x with
  | .integer v=>simpa only[eval]using .atom hr (constant_count v)
  | .float _ | .text _ | .matcher _ | .object _ | .rule _ | .fileSize | .entryPoint=>
   simpa only[eval]using .atom hr rfl
  | .quantifier q=>simpa only[eval]using .atom hr (quantifierCode_count q)
  | .variable _=>exact fun ip stack hi=>fetch_agrees s stack hi.head
  | .member o _ | .value o | .read _ o | .negative _ o | .complement o | .textTruth o | .not o
  | .defined o=>exact .unary hr (ih o mem_cons_self) rfl
  | .item a b | .entry a b | .bits _ a b | .textOperation _ a b | .textMatches a b=>
   exact .binary hr (ih a (by simp[parts])) (ih b (by simp[parts])) rfl
  | .arithmetic _ k a b | .comparison _ k a b=>
   exact .converted hr (ih a (by simp[parts])) (ih b (by simp[parts])) rfl
  | .call f _=>exact .call hr (ih f mem_cons_self) fun a ha=>ih a (mem_cons_of_mem _ ha)
  | .count o | .found o=>exact .unary hr (o.compiles hr) rfl
  | .countIn o lo hi | .foundIn o lo hi=>
   exact .ternary hr (ih lo (by simp[parts])) (ih hi (by simp[parts])) (o.compiles hr) rfl
  | .offset o x | .length o x | .foundAt o x=>exact .binary hr (ih x (by simp[parts])) (o.compiles hr) rfl
  | .and a b=>exact .shortCut hr jumpIfFalse_agrees rfl (ih a (by simp[parts])) (ih b (by simp[parts]))
  | .or a b=>exact .shortCut hr jumpIfTrue_agrees rfl (ih a (by simp[parts])) (ih b (by simp[parts]))
  | .someStrings q ss | .percentOfStrings q ss=>exact .set hr (ih q mem_cons_self) (Compiles.marked_strings ss) rfl
  | .someRules q rs | .percentOfRules q rs=>exact .set hr (ih q mem_cons_self) (Compiles.marked_rules hx.self) rfl
  | .someStringsAt q ss x=>
   exact .setAt hr (ih q mem_cons_self) (Compiles.marked_strings ss) (ih x (by simp[parts])) rfl
  | .someStringsIn q ss lo hi=>
   exact .setIn hr (ih q mem_cons_self) (Compiles.marked_strings ss)
    (ih lo (by simp[parts])) (ih hi (by simp[parts])) rfl
  | .loop q items body=>
   exact .loop hr (ih q (by simp[parts])) (fun y hy=>hin y (by simp[parts,hy]) _) (hin body (by simp[parts]) _)
end
end PatternScan.Condition