import Mathlib
import PatternScan.Condition.Machine
/-! A part of an evaluation agrees with a piece of the program if the machine goes through the piece and
leaves the values of the evaluation on the stack. -/
namespace PatternScan.Condition
open List Int64
open Rule (Comparison)
/-- What changes while a condition is evaluated. -/
@[ext]
structure Frame (S:Type) where
 fuel:Nat
 slots:Array Cell
 world:S
abbrev Evaluation (S α:Type):=StateT (Frame S) Option α
namespace Iteration
/-- A bound for the items that are left. A range ends at the undefined word at the latest. -/
def bound:Iteration→Nat
 | .range next _=>(undefinedInteger-next).toUInt64.toNat
 | .items rest=>rest.length
 | .entries rest=>rest.length
theorem sub_succ_toNat {a b:UInt64}(h:a≠b):(b-(a+1)).toNat<(b-a).toNat:=by
 have ha:=a.toNat_lt
 have hb:=b.toNat_lt
 have hne:a.toNat≠b.toNat:=fun e=>h (UInt64.toNat_inj.1 e)
 simp only[UInt64.toNat_sub,UInt64.toNat_add,UInt64.reduceToNat]
 omega
theorem bound_next {it r:Iteration}{item:List Cell}(h:it.next=some (item,r)):r.bound < it.bound:=by
 cases it with
 | range next _=>
  simp only[Iteration.next,Bool.and_eq_true,bne_iff_ne]at h
  split at h
  ·next known=>
   cases h
   have hne:next.toUInt64≠undefinedInteger.toUInt64:=
    fun e=>known.1.1 (congrArg ofUInt64 e)
   exact sub_succ_toNat hne
  ·cases h
 | items cl | entries cl=>
  cases cl with
  | nil=>cases h
  | cons c _=>cases h;exact Nat.lt_succ_self _
def all (it:Iteration):List (List Cell):=
 match _h:it.next with
 | none=>[]
 | some (item,rest)=>item::rest.all
termination_by it.bound
decreasing_by exact bound_next _h
theorem all_none {it:Iteration}(h:it.next=none):it.all=[]:=by
 rw[all]
 split<;>simp_all
theorem all_some {it r:Iteration}{item:List Cell}(h:it.next=some (item,r)):it.all=item::r.all:=by
 rw[all]
 split<;>simp_all
end Iteration
section
variable {S:Type}
def tick:Evaluation S Unit:=fun f=>
 match f.fuel with
 | 0=>none
 | n+1=>some ((),{f with fuel:=n})
def leave {α:Type}(e:Environment S)(h:Nat)(value:α):Evaluation S α:=
 if h<e.capacity then pure value else failure
def fetch (e:Environment S)(n h:Nat):Evaluation S Cell:=do
 tick
 let f ← get
 if n<f.slots.size then leave e h (f.slots.getD n default) else failure
def alter (n:Nat)(change:Cell→Cell):Evaluation S Unit:=do
 tick
 let f ← get
 if n<f.slots.size then set {f with slots:=f.slots.modify n change} else failure
def assign (n:Nat):List Cell→Evaluation S Unit
 | []=>pure ()
 | c::cs=>do
  alter n fun _=>c
  assign (n+1) cs
end
section
variable {S:Type}
def apply (e:Environment S)(matched:Array Bool)(i:Instruction)(operands:List Cell)
 (h:Nat):Evaluation S Cell:=do
 tick
 let f ← get
 match result e matched i operands f.world with
 | none=>failure
 | some (c,w)=>
  set {f with world:=w}
  leave e h c
def pushAll (e:Environment S)(matched:Array Bool):List Instruction→Nat→Evaluation S (List Cell)
 | [],_=>pure []
 | i::is,h=>do
  let c ← apply e matched i [] h
  let cs ← pushAll e matched is (h+1)
  pure (c::cs)
def applySet (e:Environment S)(i:Instruction)(q:Cell)(members place:List Cell)(h:Nat):Evaluation S Cell:=do
 tick
 match setResult e.findings i q members place with
 | none=>failure
 | some c=>leave e h c
def convert:Operands→Cell→Cell→Evaluation S (Cell×Cell)
 | .integerAndFloat,a,b=>do
  tick
  pure (floatOf a,b)
 | .floatAndInteger,a,b=>do
  tick
  pure (a,floatOf b)
 | _,a,b=>pure (a,b)
end
section
variable {S:Type}
def room (e:Environment S)(n:Nat):Evaluation S Unit:=
 if e.capacity<n then failure else pure ()
def takeItem (e:Environment S)(frame h:Nat)(values:List Cell):Evaluation S Unit:=do
 tick
 room e (h+2+values.length)
 assign (frame+loopSlots) values
 tick
def countTurn (e:Environment S)(frame h:Nat)(last:Cell):Evaluation S Bool:=do
 alter (frame+1) fun c=>.integer (c.word+1)
 let hits ← fetch e frame (h+2)
 let q ← fetch e (frame+2) (h+3)
 tick
 leave e (h+1) ()
 leave e (h+2) ()
 alter frame fun c=>if last.isUndefined then c else .integer (c.word+last.word)
 tick
 pure (goesOn q hits last)
def turns (e:Environment S)(body:Evaluation S Cell)(frame h width:Nat):List (List Cell)→Evaluation S Unit
 | []=>do
  takeItem e frame h (replicate width .undefined)
  tick
 | item::rest=>do
  takeItem e frame h item.reverse
  let last ← body
  if ← countTurn e frame h last then turns e body frame h width rest else tick
def start (e:Environment S)(h:Nat)(it:Iteration):Evaluation S Iteration:=do
 tick
 leave e h it
def loopEnd (e:Environment S)(matched:Array Bool)(frame h:Nat):Evaluation S Cell:=do
 let turns ← fetch e (frame+1) h
 let hits ← fetch e frame (h+1)
 let q ← fetch e (frame+2) (h+2)
 apply e matched .loopResult [turns,hits,q] h
end
section
variable {S:Type}(e:Environment S)(matched:Array Bool)
def StringOperand.eval:StringOperand→Nat→Evaluation S Cell
 | .string i,h=>apply e matched (.pushString i) [] h
 | .variable slot,h=>fetch e slot h
mutual
def Expression.eval:Expression→Nat→Nat→Evaluation S Cell
 | .integer v,_,h=>apply e matched (constant v) [] h
 | .float x,_,h=>apply e matched (.pushFloat x) [] h
 | .text b,_,h=>apply e matched (.pushText b) [] h
 | .matcher m,_,h=>apply e matched (.pushMatcher m) [] h
 | .variable slot,_,h=>fetch e slot h
 | .object name,_,h=>apply e matched (.pushObject name) [] h
 | .member o name,n,h=>do apply e matched (.member name) [←o.eval n h] h
 | .item o i,n,h=>do apply e matched .item [←o.eval n h,←i.eval n (h+1)] h
 | .entry o k,n,h=>do apply e matched .entry [←o.eval n h,←k.eval n (h+1)] h
 | .call f args,n,h=>do
  apply e matched (.call (lettersOf args)) ((← f.eval n h)::(← evalArguments args n (h+1))) h
 | .value o,n,h=>do apply e matched .objectValue [←o.eval n h] h
 | .rule i,_,h=>apply e matched (.pushRule i) [] h
 | .fileSize,_,h=>apply e matched .fileSize [] h
 | .entryPoint,_,h=>apply e matched .entryPoint [] h
 | .read kind x,n,h=>do apply e matched (.read kind) [←x.eval n h] h
 | .count s,_,h=>do apply e matched .count [←s.eval e matched h] h
 | .countIn s lo hi,n,h=>do
  apply e matched .countIn [←lo.eval n h,←hi.eval n (h+1),←s.eval e matched (h+2)] h
 | .offset s i,n,h=>do apply e matched .offset [←i.eval n h,←s.eval e matched (h+1)] h
 | .length s i,n,h=>do apply e matched .length [←i.eval n h,←s.eval e matched (h+1)] h
 | .found s,_,h=>do apply e matched .found [←s.eval e matched h] h
 | .foundAt s x,n,h=>do apply e matched .foundAt [←x.eval n h,←s.eval e matched (h+1)] h
 | .foundIn s lo hi,n,h=>do
  apply e matched .foundIn [←lo.eval n h,←hi.eval n (h+1),←s.eval e matched (h+2)] h
 | .negative float x,n,h=>do apply e matched (.negative float) [←x.eval n h] h
 | .complement x,n,h=>do apply e matched .complement [←x.eval n h] h
 | .arithmetic op k a b,n,h=>do
  let (a,b) ← convert k (← a.eval n h) (← b.eval n (h+1))
  apply e matched (.arithmetic op k.kind) [a,b] h
 | .comparison op k a b,n,h=>do
  let (a,b) ← convert k (← a.eval n h) (← b.eval n (h+1))
  apply e matched (.comparison op k.kind) [a,b] h
 | .bits op a b,n,h=>do apply e matched (.bits op) [←a.eval n h,←b.eval n (h+1)] h
 | .textOperation op a b,n,h=>do
  apply e matched (.textOperation op) [←a.eval n h,←b.eval n (h+1)] h
 | .textMatches a b,n,h=>do apply e matched .textMatches [←a.eval n h,←b.eval n (h+1)] h
 | .textTruth x,n,h=>do apply e matched .textTruth [←x.eval n h] h
 | .not x,n,h=>do apply e matched .not [←x.eval n h] h
 | .defined x,n,h=>do apply e matched .defined [←x.eval n h] h
 | .and a b,n,h=>do
  let x ← a.eval n h
  tick
  if !x.isUndefined&&x.word==0 then pure x
  else apply e matched .and [x,←b.eval n (h+1)] h
 | .or a b,n,h=>do
  let x ← a.eval n h
  tick
  if x.isTrue then pure x
  else apply e matched .or [x,←b.eval n (h+1)] h
 | .quantifier q,_,h=>apply e matched (quantifierCode q) [] h
 | .someStrings q ss,n,h=>do
  let q ← q.eval n h
  let members ← pushAll e matched (stringPushes ss) (h+1)
  applySet e .someStrings q members.tail [] h
 | .someRules q rs,n,h=>do
  let q ← q.eval n h
  let members ← pushAll e matched (rulePushes rs) (h+1)
  applySet e .someRules q members.tail [] h
 | .percentOfStrings q ss,n,h=>do
  let q ← q.eval n h
  let members ← pushAll e matched (stringPushes ss) (h+1)
  applySet e .percentOfStrings q members.tail [] h
 | .percentOfRules q rs,n,h=>do
  let q ← q.eval n h
  let members ← pushAll e matched (rulePushes rs) (h+1)
  applySet e .percentOfRules q members.tail [] h
 | .someStringsIn q ss lo hi,n,h=>do
  let q ← q.eval n h
  let members ← pushAll e matched (stringPushes ss) (h+1)
  let lo ← lo.eval n (h+1+members.length)
  let hi ← hi.eval n (h+1+members.length+1)
  applySet e .someStringsIn q members.tail [lo,hi] h
 | .someStringsAt q ss x,n,h=>do
  let q ← q.eval n h
  let members ← pushAll e matched (stringPushes ss) (h+1)
  let x ← x.eval n (h+1+members.length)
  applySet e .someStringsAt q members.tail [x] h
 | .loop q items body,n,h=>do
  let q ← q.eval n h
  alter n fun _=>.integer 0
  alter (n+1) fun _=>.integer 0
  alter (n+2) fun _=>q
  let it ← items.eval (n+loopSlots+items.width) h
  turns e (body.eval (n+loopSlots+items.width) (h+1)) n h it.width it.all
  loopEnd e matched n h
def Iterator.eval:Iterator→Nat→Nat→Evaluation S Iteration
 | .array o,n,h=>do start e h (.ofArray (← o.eval n h))
 | .dictionary o,n,h=>do start e h (.ofDictionary (← o.eval n h))
 | .range lo hi,n,h=>do
  let lo ← lo.eval n h
  let hi ← hi.eval n (h+1)
  start e h (.range lo.word hi.word)
 | .integers es,n,h=>do
  let cs ← evalAll es n h
  let _ ← apply e matched (.pushInteger (ofNat es.length)) [] (h+cs.length)
  start e h (.items (cs.map fun c=>.integer c.word))
 | .texts es,n,h=>do
  let cs ← evalAll es n h
  let _ ← apply e matched (.pushInteger (ofNat es.length)) [] (h+cs.length)
  start e h (.items cs)
 | .strings ss,_,h=>do
  let cs ← pushAll e matched (stringPushes ss) h
  let _ ← apply e matched (.pushInteger (ofNat ss.length)) [] (h+cs.length)
  start e h (.items cs.tail)
def evalAll:List Expression→Nat→Nat→Evaluation S (List Cell)
 | [],_,_=>pure []
 | x::xs,n,h=>do
  let c ← x.eval n h
  let cs ← evalAll xs n (h+1)
  pure (c::cs)
def evalArguments:List (Char×Expression)→Nat→Nat→Evaluation S (List Cell)
 | [],_,_=>pure []
 | (_,x)::xs,n,h=>do
  let c ← x.eval n h
  let cs ← evalArguments xs n (h+1)
  pure (c::cs)
end
end
section
variable {S:Type}
@[ext]
structure Verdicts (S:Type) where
 matched:Array Bool
 unsatisfied:Array Bool
 frame:Frame S
namespace Verdicts
def miss (v:Verdicts S)(r:Rule)(f:Frame S):Verdicts S:=
 { v with
   unsatisfied:=if r.everywhere then v.unsatisfied.setIfInBounds r.space true else v.unsatisfied
   frame:=f }
def note (v:Verdicts S)(index:Nat)(r:Rule)(c:Cell)(f:Frame S):Verdicts S:=
 if c.isTrue then {v with matched:=v.matched.setIfInBounds index true,frame:=f}
 else v.miss r f
end Verdicts
def skips (e:Environment S)(index:Nat):Bool:=
 (e.set.rule index).disabled||!(e.findings.required.getD index false)
def Section.eval (e:Environment S)(v:Verdicts S):Section→Option (Verdicts S)
 | .importing name=>
  (tick v.frame).bind fun p=>
   match e.world.load name p.2.world with
   | (.success,w)=>some {v with frame:={p.2 with world:=w}}
   | _=>none
 | .rule index condition=>
  (tick v.frame).bind fun p=>
   if skips e index then some (v.miss (e.set.rule index) p.2)
   else
    (condition.eval e v.matched 0 0 p.2).bind fun q=>(tick q.2).map fun r=>v.note index (e.set.rule index) q.1 r.2
def evalSections (e:Environment S):List Section→Verdicts S→Option (Verdicts S)
 | [],v=>some v
 | s::rest,v=>(s.eval e v).bind (evalSections e rest)
def Verdicts.start (set:RuleSet)(world:S):Verdicts S:=
 { matched:=Array.replicate set.rules.size false
   unsatisfied:=Array.replicate set.spaces.size false
   frame:=
    { fuel:=stepLimit
      slots:=Array.replicate slotCount (.integer 0)
      world:=world } }
end
/-! What holds of every expression in a condition, and proofs by induction over it, go by the parts that
an expression has right below it. -/
namespace Iterator
def parts:Iterator→List Expression
 | .array o=>[o]
 | .dictionary o=>[o]
 | .range lo hi=>[lo,hi]
 | .integers es=>es
 | .texts es=>es
 | .strings _=>[]
theorem sizeOf_lt_of_mem_parts {x:Expression}{i:Iterator}(h:x∈i.parts):sizeOf x<sizeOf i:=by
 cases i with
 | integers es | texts es=>
  have:=sizeOf_lt_of_mem (show x∈es from h)
  simp only[integers.sizeOf_spec,texts.sizeOf_spec]
  omega
 | strings _=>cases h
 | _=>
  simp only[parts,mem_cons,not_mem_nil,or_false]at h
  rcases h with rfl|rfl<;>simp<;>omega
end Iterator
namespace Expression
def parts:Expression→List Expression
 | .member o _=>[o]
 | .item o i=>[o,i]
 | .entry o k=>[o,k]
 | .call f args=>f::args.map (·.2)
 | .value o=>[o]
 | .read _ x=>[x]
 | .countIn _ lo hi=>[lo,hi]
 | .offset _ i=>[i]
 | .length _ i=>[i]
 | .foundAt _ x=>[x]
 | .foundIn _ lo hi=>[lo,hi]
 | .negative _ x=>[x]
 | .complement x=>[x]
 | .arithmetic _ _ a b=>[a,b]
 | .comparison _ _ a b=>[a,b]
 | .bits _ a b=>[a,b]
 | .textOperation _ a b=>[a,b]
 | .textMatches a b=>[a,b]
 | .textTruth x=>[x]
 | .not x=>[x]
 | .defined x=>[x]
 | .and a b=>[a,b]
 | .or a b=>[a,b]
 | .someStrings q _=>[q]
 | .someRules q _=>[q]
 | .percentOfStrings q _=>[q]
 | .percentOfRules q _=>[q]
 | .someStringsIn q _ lo hi=>[q,lo,hi]
 | .someStringsAt q _ x=>[q,x]
 | .loop q items body=>q::body::items.parts
 | _=>[]
variable {e:Expression}{p:Expression→Prop}
theorem sizeOf_lt_of_mem_parts {x:Expression}(h:x∈e.parts):sizeOf x<sizeOf e:=by
 cases e with
 | call f _=>
  rcases mem_cons.1 h with rfl|h
  ·simp only[call.sizeOf_spec]
   omega
  ·obtain⟨⟨c,x⟩,hm,rfl⟩:=mem_map.1 h
   have:=sizeOf_lt_of_mem hm
   simp only[call.sizeOf_spec,Prod.mk.sizeOf_spec]at this⊢
   omega
 | loop q _ _=>
  simp only[parts,mem_cons]at h
  rcases h with rfl|rfl|h
  ·simp only[loop.sizeOf_spec]
   omega
  ·simp only[loop.sizeOf_spec]
   omega
  ·have:=Iterator.sizeOf_lt_of_mem_parts h
   simp only[loop.sizeOf_spec]
   omega
 | _=>
  simp only[parts,mem_cons,not_mem_nil,or_false]at h
  try rcases h with rfl|rfl|rfl
  all_goals simp
  all_goals omega
theorem parts_induction {motive:Expression→Prop}(h:∀e,(∀x∈e.parts,motive x)→motive e)(e:Expression):motive e:=
 h e fun x _hx=>parts_induction h x
termination_by sizeOf e
decreasing_by exact sizeOf_lt_of_mem_parts _hx

/-- Something holds of every expression in an expression. -/
inductive Every (p:Expression→Prop):Expression→Prop
 | intro {e:Expression}(self:p e)(parts:∀x∈e.parts,Every p x):Every p e
theorem Every.self:Every p e→p e
 | .intro h _=>h
theorem Every.part {x:Expression}(hx:x∈e.parts):Every p e→Every p x
 | .intro _ h=>h x hx
theorem Every.leaf (h:p e)(hp:e.parts=[]):Every p e:=
 .intro h (by simp[hp])
theorem Every.of_forall (h:∀e,p e)(e:Expression):Every p e:=by
 induction e using parts_induction with
 | h e ih=>exact .intro (h e) ih
end Expression
def Segment (code:Array Instruction)(ip:Nat)(is:List Instruction):Prop:=
 ∀j < is.length,code[ip+j]?=is[j]?
namespace Segment
variable {code:Array Instruction}{ip:Nat}{i:Instruction}{is js:List Instruction}
lemma append (h:Segment code ip (is++js)):Segment code ip is∧Segment code (ip+is.length) js:=by
 refine⟨fun j hj=>?_,fun j hj=>?_⟩
 ·rw[h j (by rw[length_append];omega),getElem?_append_left hj]
 ·rw[add_assoc,h (is.length+j) (by rw[length_append];omega),
   getElem?_append_right (by omega),Nat.add_sub_cancel_left]
lemma head (h:Segment code ip (i::is)):code[ip]?=some i:=by simpa using h 0 (by simp)
lemma tail (h:Segment code ip (i::is)):Segment code (ip+1) is:=by
 exact (append (show Segment code ip ([i]++is) from h)).2
end Segment
section
variable {S α β:Type}{i:Instruction}{n:Nat}{distance:Int}
def State.place (s:State S)(ip:Nat)(stack:Array Cell)(f:Frame S):State S:=
 {s with ip:=ip,stack:=stack,slots:=f.slots,world:=f.world}
section
variable (s:State S)(ip:Nat)(stack:Array Cell)(f:Frame S)
include s ip stack f
@[simp] lemma State.place_ip:(s.place ip stack f).ip=ip:=rfl
@[simp] lemma State.place_stack:(s.place ip stack f).stack=stack:=rfl
end
def Outcome.Refused:Outcome S→Prop
 | .failed code _=>code≠.success
 | .stuck _=>True
 | _=>False
def Outcome.Is (o:Outcome S):Option (State S)→Prop
 | some s=>o=.running s
 | none=>o.Refused
def Instruction.least:Instruction→Nat
 | .pop | .popSlot _ | .addToSlot _ | .jumpIfFalse _ | .jumpIfTrue _ | .popAndJumpIfTrue _
 | .nextItem | .closeRule _=>1
 | .loopCondition=>3
 | .toFloat depth=>depth
 | .startIterator .range=>2
 | .startIterator _=>1
 | i=>i.operandCount.getD (i.placeCount.getD 0)
def HoldsSet (stack:Array Cell):Prop:=
 ∃members rest,State.popMembers stack stack.size []=some (members,rest)∧0<rest.size

/-- The values that an instruction takes are on the stack. A rule ends with its value alone, the program with none. -/
def Instruction.Finds (i:Instruction)(stack:Array Cell):Prop:=
 i.least ≤ stack.size∧
  match i with
  | .closeRule _=>stack.size=1
  | .halt=>stack.size=0
  | .startIterator .integers | .startIterator .texts=>∀c,stack.back?=some c→c.word.toInt.toNat<stack.size
  | .startIterator .strings=>∀c,stack.back?=some c→c.word.toInt.toNat+1<stack.size
  | i=>∀n,i.placeCount=some n→HoldsSet (stack.extract 0 (stack.size-n))

/-- The machine finds an instruction, and on the stack what the instruction takes. -/
def Disciplined (e:Environment S)(s:State S):Prop:=
 ∃i,e.set.code[s.ip]?=some i∧i.Finds s.stack
def Safe (e:Environment S):Nat→State S→Prop
 | 0,_=>True
 | n+1,s=>Disciplined e s∧∀s',step e s=.running s'→Safe e n s'

/-- From a place on, the machine does what an evaluation says. -/
def Agrees (e:Environment S)(s:State S)(ip:Nat)(stack:Array Cell)(x:Evaluation S α)
 (goal:α→Nat×Array Cell):Prop:=
 ∀f:Frame S,match x f with
  | none=>(run e f.fuel (s.place ip stack f)).1≠.success∧Safe e f.fuel (s.place ip stack f)
  | some p=>
   run e f.fuel (s.place ip stack f)=run e p.2.fuel (s.place (goal p.1).1 (goal p.1).2 p.2)∧
    (Safe e p.2.fuel (s.place (goal p.1).1 (goal p.1).2 p.2)→Safe e f.fuel (s.place ip stack f))
variable {e:Environment S}{s:State S}{ip:Nat}{stack:Array Cell}{f f':Frame S}
lemma Agrees.bind {x:Evaluation S α}{y:α→Evaluation S β}{goal:α→Nat×Array Cell}
 {goal':β→Nat×Array Cell}(hx:Agrees e s ip stack x goal)
 (hy:∀a,(∃f f',x f=some (a,f'))→Agrees e s (goal a).1 (goal a).2 (y a) goal'):
 Agrees e s ip stack (x >>= y) goal':=by
 intro f
 have hx':=hx f
 change match (x f).bind fun p=>y p.1 p.2 with | none=>_ | some p=>_
 cases h:x f with
 | none=>
  rw[h]at hx'
  exact hx'
 | some p=>
  obtain⟨a,f'⟩:=p
  rw[h]at hx'
  have hy':=hy a ⟨f,f',h⟩ f'
  grind
lemma Agrees.pure (a:α){goal:α→Nat×Array Cell}(h:goal a=(ip,stack)):
 Agrees e s ip stack (Pure.pure a:Evaluation S α) goal:=by
 intro f
 change run e f.fuel (s.place ip stack f)=run e f.fuel (s.place (goal a).1 (goal a).2 f)∧_
 rw[h]
 exact⟨rfl,id⟩
lemma Agrees.step {x:Evaluation S α}{goal:α→Nat×Array Cell}{i:Instruction}
 (hi:e.set.code[ip]?=some i)(hfi:i.Finds stack)
 (hx:∀f:Frame S,(step e (s.place ip stack f)).Is ((x f).map fun p=>s.place (goal p.1).1 (goal p.1).2 p.2))
 (hf:∀(f f':Frame S)(a:α),x f=some (a,f')→f'.fuel=f.fuel):
 Agrees e s ip stack (tick >>= fun _=>x) goal:=by
 rintro⟨fl,sl,world⟩
 cases fl with
 | zero=>exact⟨fun h=>(nomatch h),trivial⟩
 | succ n=>
  change match x ⟨n,sl,world⟩ with | none=>_ | some p=>_
  have hdi:Disciplined e (s.place ip stack ⟨n+1,sl,world⟩):=⟨i,hi,hfi⟩
  have h:=hx ⟨n,sl,world⟩
  have hp:s.place ip stack ⟨n+1,sl,world⟩=s.place ip stack ⟨n,sl,world⟩:=rfl
  cases hr:x ⟨n,sl,world⟩ with
  | none=>
   rw[hr]at h
   simp only[run,hp]
   change Outcome.Refused _ at h
   refine⟨?_,hdi,fun s' hs'=>?_⟩
   ·cases ho:Condition.step e (s.place ip stack ⟨n,sl,world⟩) <;>
     simp_all [Outcome.Refused]
   ·rw[hs']at h
    exact h.elim
  | some p=>
   rw[hr]at h
   change Condition.step e _=.running _ at h
   have hfu:=hf _ _ _ hr
   simp only[run,hp,h]
   refine⟨by rw[hfu],fun hsa=>⟨hdi,fun s' hs'=>?_⟩⟩
   rw[h]at hs'
   cases hs'
   rwa[hfu]at hsa

/-- What the machine has to keep to for its runs to be evaluations. -/
structure Environment.Regular (e:Environment S):Prop where
 /-- A function that fails does not call its failure a success. -/
 calls:∀{b:Builtin}{cs:List Cell}{w w':S}{code:ResultCode},e.world.call b cs w=(.error code,w')→code≠.success
 capacity:e.capacity≤2 ^ 63
lemma bind_some {x:Evaluation S α}{y:α→Evaluation S β}{b:β}
 (h:(x >>= y) f=some (b,f')):∃a g,x f=some (a,g)∧y a g=some (b,f'):=by
 obtain⟨⟨a,g⟩,hx,hy⟩:=Option.bind_eq_some_iff.1 h
 exact⟨a,g,hx,hy⟩
lemma pure_some {a b:α}(h:(pure a:Evaluation S α) f=some (b,f')):a=b∧f=f':=by
 cases h
 exact⟨rfl,rfl⟩
lemma leave_some {a b:α}{h:Nat}(hc:leave e h a f=some (b,f')):h<e.capacity∧a=b∧f=f':=by
 unfold leave at hc
 split at hc
 ·next hh=>exact⟨hh,pure_some hc⟩
 ·cases hc
lemma push_place (s:State S)(ip:Nat)(stack:Array Cell)(f:Frame S)(c:α→Cell)(a:α):
 ((s.place ip stack f).push e (c a)).Is ((leave e stack.size a f).map fun p=>
  s.place ip (stack.push (c p.1)) p.2):=by
 unfold State.push leave
 rw[State.place_stack]
 by_cases hc:stack.size<e.capacity
 ·rw[if_pos hc,if_pos hc]
  rfl
 ·rw[if_neg hc,if_neg hc]
  rintro⟨⟩
def given (e:Environment S)(h:Nat)(r:Option (Cell×S)):Evaluation S Cell:=fun f=>
 match r with
 | none=>none
 | some (c,w)=>leave e h c {f with world:=w}
lemma apply_eq (e:Environment S)(matched:Array Bool)(i:Instruction)(o:List Cell)(h:Nat):
 apply e matched i o h=tick >>= fun _=>fun f=>
  given e h (result e matched i o f.world) f:=by
 refine congrArg (tick >>= ·) (funext fun _=>funext fun f=>?_)
 change (match result e matched i o f.world with
  | none=>(failure:Evaluation S Cell)
  | some (c,w)=>do
   set {f with world:=w}
   leave e h c) f=_
 cases result e matched i o f.world<;>rfl
lemma pop_place (s:State S)(ip:Nat)(stack:Array Cell)(a:Cell)(f:Frame S)(k:Cell→State S→Outcome S):
 (s.place ip (stack.push a) f).pop k=k a (s.place ip stack f):=by
 simp[State.pop,State.place]
lemma append_pair (stack:Array Cell)(a b:Cell):stack++[a,b].toArray=(stack.push a).push b:=by
 apply Array.ext'
 simp
lemma append_triple (stack:Array Cell)(a b c:Cell):stack++[a,b,c].toArray=((stack.push a).push b).push c:=by
 apply Array.ext'
 simp
lemma take_place (s:State S)(ip:Nat)(stack:Array Cell)(cl:List Cell)(f:Frame S)
 (k:List Cell→State S→Outcome S):
 (s.place ip (stack++cl.toArray) f).take cl.length k=k cl (s.place ip stack f):=by
 induction cl using reverseRecOn generalizing k with
 | nil=>simp[State.take]
 | append_singleton cl c ih=>
  have hs:stack++(cl++[c]).toArray=(stack++cl.toArray).push c:=by simp
  rw[length_append,length_singleton,State.take,hs,pop_place]
  exact ih _
lemma refusal_ne_success (hr:e.Regular){o:List Cell}{w w':S}
 {code:ResultCode}(h:refusal e i o w=some (code,w')):code≠.success:=by
 unfold refusal at h
 split at h
 ·cases h
  exact nofun
 ·split at h
  ·cases h
  ·split at h
   ·cases h
   ·next hc=>
    cases h
    exact hr.calls hc
 ·grind
 ·cases h
lemma step_result (hr:e.Regular){o:List Cell}
 (hc:i.operandCount=some o.length)(hi:e.set.code[ip]?=some i)(f:Frame S):
 (step e (s.place ip (stack++o.toArray) f)).Is
  ((given e stack.size (result e s.matched i o f.world) f).map fun p=>
   s.place (ip+1) (stack.push p.1) p.2):=by
 unfold step
 rw[State.place_ip,hi]
 simp only[hc]
 change (State.take (s.place (ip+1) (stack++o.toArray) f) _ _).Is _
 rw[take_place]
 dsimp only[State.place]
 cases result e s.matched i o f.world with
 | some p=>exact push_place s (ip+1) stack {f with world:=p.2} id p.1
 | none=>
  dsimp only
  split
  ·next h=>exact refusal_ne_success hr h
  ·trivial
lemma one_le_size_push (stack:Array Cell)(c:Cell):1≤(stack.push c).size:=by simp
lemma finds_operands (hc:i.operandCount=some n)(hn:n ≤ stack.size):i.Finds stack:=by
 cases i<;>cases hc<;>exact⟨hn,nofun⟩
lemma given_fuel {h:Nat}{r:Option (Cell×S)}{c:Cell}(hg:given e h r f=some (c,f')):f'.fuel=f.fuel:=by
 unfold given at hg
 split at hg
 ·cases hg
 ·rw[←(leave_some hg).2.2]
lemma apply_agrees (hr:e.Regular)(s:State S)(stack:Array Cell)(o:List Cell)
 (hc:i.operandCount=some o.length)(hi:e.set.code[ip]?=some i):
 Agrees e s ip (stack++o.toArray) (apply e s.matched i o stack.size) fun c=>(ip+1,stack.push c):=by
 rw[apply_eq]
 exact .step hi (finds_operands hc (by simp)) (fun f=>step_result hr hc hi f) fun _ _ _ h=>given_fuel h

/-! ## Slots and jumps -/
def withSlot (n:Nat)(x:Evaluation S α):Evaluation S α:=fun f=>if n<f.slots.size then x f else none
lemma fetch_eq (e:Environment S)(n h:Nat):
 fetch e n h=tick >>= fun _=>withSlot n fun f=>leave e h (f.slots.getD n default) f:=by
 refine congrArg (tick >>= ·) (funext fun _=>funext fun f=>?_)
 exact ite_apply _ _ _ f
lemma alter_eq (n:Nat)(c:Cell→Cell):(alter n c:Evaluation S Unit)=tick >>= fun _=>withSlot n fun f=>
  some ((),{f with slots:=f.slots.modify n c}):=by
 refine congrArg (tick >>= ·) (funext fun _=>funext fun f=>?_)
 exact ite_apply _ _ _ f
lemma tick_eq:(tick:Evaluation S Unit)=tick >>= fun _=>pure ():=by rw[bind_pure_unit]
lemma Agrees.slot {x:Evaluation S α}{goal:α→Nat×Array Cell}{k:State S→Outcome S}(hi:e.set.code[ip]?=some i)
 (hfi:i.Finds stack)
 (hs:∀f:Frame S,Condition.step e (s.place ip stack f)=
  if n<f.slots.size then k (s.place (ip+1) stack f)
  else .failed .internalFatalError (s.place ip stack f))
 (hk:∀f:Frame S,(k (s.place (ip+1) stack f)).Is ((x f).map fun p=>s.place (goal p.1).1 (goal p.1).2 p.2))
 (hf:∀(f f':Frame S)(a:α),x f=some (a,f')→f'.fuel=f.fuel):
 Agrees e s ip stack (tick >>= fun _=>withSlot n x) goal:=by
 refine .step hi hfi (fun f=>?_) fun f f' a h=>?_
 ·rw[hs]
  unfold withSlot
  split
  ·exact hk f
  ·exact fun h=>nomatch h
 ·unfold withSlot at h
  split at h
  ·exact hf f f' a h
  ·cases h
lemma step_control (hi:e.set.code[ip]?=some i)(hg:i.operandCount=none∧i.placeCount=none)(f:Frame S):
 step e (s.place ip stack f)=stepControl e (s.place ip stack f) i:=by
 unfold step
 rw[State.place_ip,hi]
 simp only[hg.1,hg.2]
lemma fetch_agrees (s:State S)(stack:Array Cell)(hi:e.set.code[ip]?=some (.pushSlot n)):
 Agrees e s ip stack (fetch e n stack.size) fun c=>(ip+1,stack.push c):=by
 rw[fetch_eq]
 exact .slot hi ⟨zero_le,nofun⟩ (k:=fun s=>s.push e (s.slots.getD n default)) (step_control hi ⟨rfl,rfl⟩)
  (fun f=>push_place s (ip+1) stack f id _) fun f f' a h=>by rw[←(leave_some h).2.2]
lemma popSlot_agrees (c:Cell)(hi:e.set.code[ip]?=some (.popSlot n)):
 Agrees e s ip (stack.push c) (alter n fun _=>c) fun _=>(ip+1,stack):=by
 rw[alter_eq]
 refine .slot hi ⟨one_le_size_push stack c,nofun⟩ (k:=fun s=>s.pop fun c s=>
  .running {s with slots:=s.slots.setIfInBounds n c}) (step_control hi ⟨rfl,rfl⟩) (fun f=>?_)
  fun f f' a h=>by cases h;rfl
 rw[pop_place]
 rfl
lemma clearSlot_agrees (hi:e.set.code[ip]?=some (.clearSlot n)):
 Agrees e s ip stack (alter n fun _=>.integer 0) fun _=>(ip+1,stack):=by
 rw[alter_eq]
 refine .slot hi ⟨zero_le,nofun⟩ (k:=fun s=>.running {s with slots:=s.slots.setIfInBounds n (.integer 0)})
  (step_control hi ⟨rfl,rfl⟩) (fun f=>?_) fun f f' a h=>by cases h;rfl
 rfl
lemma incrementSlot_agrees (hi:e.set.code[ip]?=some (.incrementSlot n)):
 Agrees e s ip stack (alter n fun c=>.integer (c.word+1)) fun _=>(ip+1,stack):=by
 rw[alter_eq]
 exact .slot hi ⟨zero_le,nofun⟩ (k:=fun s=>.running {s with slots:=s.slots.modify n fun c=>.integer (c.word+1)})
  (step_control hi ⟨rfl,rfl⟩) (fun f=>rfl) fun f f' a h=>by cases h;rfl
lemma addToSlot_agrees (c:Cell)(hi:e.set.code[ip]?=some (.addToSlot n)):Agrees e s ip (stack.push c)
  (alter n fun d=>if c.isUndefined then d else .integer (d.word+c.word))
  fun _=>(ip+1,stack):=by
 rw[alter_eq]
 refine .slot hi ⟨one_le_size_push stack c,nofun⟩ (k:=fun s=>s.pop fun c s=>
  if c.isUndefined then .running s
  else .running {s with slots:=s.slots.modify n fun d=>.integer (d.word+c.word)})
  (step_control hi ⟨rfl,rfl⟩) (fun f=>?_) fun f f' a h=>by cases h;rfl
 rw[pop_place]
 by_cases hc:c.isUndefined
 ·have hid:(f.slots.modify n fun d=>d)=f.slots:=by grind
  simp only[hc,if_true,hid]
  rfl
 ·simp only[hc]
  rfl
lemma assign_agrees (s:State S)(stack:Array Cell){fr:Nat}(cl:List Cell)
 (hi:Segment e.set.code ip (variablePops fr cl.length)):
 Agrees e s ip (stack++cl.reverse.toArray) (assign fr cl) fun _=>(ip+cl.length,stack):=by
 induction cl generalizing ip fr with
 | nil=>exact .pure () (by simp)
 | cons c cl ih=>
  have hp:variablePops fr (c::cl).length=.popSlot fr::variablePops (fr+1) cl.length:=by
   simp only[variablePops,length_cons,range_succ_eq_map,map_cons,map_map]
   simp only[Function.comp_def,add_zero,Nat.succ_eq_add_one,add_right_comm _ 1,←add_assoc]
  rw[hp]at hi
  have hs:stack++(c::cl).reverse.toArray=(stack++cl.reverse.toArray).push c:=by simp
  rw[hs]
  refine (popSlot_agrees c hi.head).bind fun _ _=>?_
  have:=ih hi.tail
  rwa[add_assoc,add_comm 1]at this
lemma pop_agrees (c:Cell)(hi:e.set.code[ip]?=some .pop):Agrees e s ip (stack.push c) tick fun _=>(ip+1,stack):=by
 rw[tick_eq]
 refine .step hi ⟨one_le_size_push stack c,nofun⟩ (fun f=>?_) fun f f' a h=>by cases h;rfl
 rw[step_control hi ⟨rfl,rfl⟩]
 change (State.pop (s.place (ip+1) (stack.push c) f) _).Is _
 rw[pop_place]
 rfl
def landing (ip:Nat)(condition:Bool)(distance:Int):Nat:=
 if condition then (ip+distance).toNat else ip+1
lemma jumpIf_place (s:State S)(ip:Nat)(stack:Array Cell)(f:Frame S)(c:Bool)(distance:Int):
 (s.place ip stack f).jumpIf c distance=s.place (landing ip c distance) stack f:=by
 unfold State.jumpIf landing
 split<;>rfl
lemma jump_agrees {st:Array Cell}{c:Bool}
 (hi:e.set.code[ip]?=some i)(hg:i.operandCount=none∧i.placeCount=none)(hf:i.Finds stack)
 (hj:∀f:Frame S,stepControl e (s.place ip stack f) i=
  .running ((s.place ip st f).jumpIf c distance)):
 Agrees e s ip stack tick fun _=>(landing ip c distance,st):=by
 rw[tick_eq]
 refine .step hi hf (fun f=>?_) fun f f' a h=>by cases h;rfl
 rw[step_control hi hg,hj,jumpIf_place]
 rfl
lemma popAndJumpIfTrue_agrees (s:State S)(stack:Array Cell)(c:Cell)
 (hi:e.set.code[ip]?=some (.popAndJumpIfTrue distance)):
 Agrees e s ip (stack.push c) tick fun _=>(landing ip c.isTrue distance,stack):=
 jump_agrees hi ⟨rfl,rfl⟩ ⟨one_le_size_push stack c,nofun⟩ fun f=>by
  unfold stepControl
  dsimp only
  rw[pop_place]
lemma jumpIfFalse_agrees (c:Cell)(hi:e.set.code[ip]?=some (.jumpIfFalse distance)):
 Agrees e s ip (stack.push c) tick fun _=>(landing ip (!c.isUndefined&&c.word==0) distance,stack.push c):=
 jump_agrees hi ⟨rfl,rfl⟩ ⟨one_le_size_push stack c,nofun⟩ fun f=>by
  unfold stepControl
  rw[State.place_stack,Array.back?_push]
lemma jumpIfTrue_agrees (c:Cell)(hi:e.set.code[ip]?=some (.jumpIfTrue distance)):Agrees e s ip (stack.push c) tick
  fun _=>(landing ip c.isTrue distance,stack.push c):=
 jump_agrees hi ⟨rfl,rfl⟩ ⟨one_le_size_push stack c,nofun⟩ fun f=>by
  unfold stepControl
  rw[State.place_stack,Array.back?_push]
end
end PatternScan.Condition